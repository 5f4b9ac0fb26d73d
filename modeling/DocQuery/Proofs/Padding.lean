import DocQuery.Proofs.KeyParts
import DocQuery.Proofs.Words

/-! Spaces around the keys of a key list.  They are trimmed, but only when the dash is off and the
first letter is in lower case.  So spaces in front of a key keep both as they are written, and
spaces in place of a name make a key that is not empty.  All other spaces do not matter. -/

namespace DocQuery

open Query (blanks)

namespace Unicode

theorem isBlank_of_mem_blanks {n : Nat} {c : Char} (h : c ∈ blanks n) : isBlank c := by
  rw [List.eq_of_mem_replicate h]
  decide

theorem dropWhile_blanks (n : Nat) (s : List Char) :
    (blanks n ++ s).dropWhile isBlank = s.dropWhile isBlank :=
  List.dropWhile_append_of_pos fun _ hc => isBlank_of_mem_blanks hc

theorem trim_blanks_append (n : Nat) (s : List Char) : trim (blanks n ++ s) = trim s := by
  rw [trim, dropWhile_blanks, ← trim]

theorem trim_append_blanks (s : List Char) (n : Nat) : trim (s ++ blanks n) = trim s := by
  have hblanks : (blanks n).dropWhile isBlank = [] := by
    simpa using dropWhile_blanks n []
  have hreverse : (blanks n).reverse = blanks n := List.reverse_replicate
  rw [trim, List.dropWhile_append, hblanks]
  split
  · next hempty => rw [trim, List.isEmpty_iff.1 hempty]
  · rw [List.reverse_append, hreverse, dropWhile_blanks, ← trim]

theorem lowercaseRows_not_blank : ∀ r ∈ lowercaseRows, ∀ b ∈ blankRanges,
    r.last < b.1 ∨ b.2 < r.first := by decide +kernel

theorem lowercase_of_isBlank {c : Char} (h : isBlank c) : lowercase c = [c] := by
  have hnone : lowercaseRows.find? (·.contains c.toNat) = none := by
    refine List.find?_eq_none.2 fun r hr hrow => ?_
    obtain ⟨b, hb, hrange⟩ := List.any_eq_true.1 h
    simp only [Row.contains, Bool.and_eq_true, decide_eq_true_eq] at hrow hrange
    have hapart := lowercaseRows_not_blank r hr b hb
    omega
  have hdotted : c ≠ '\u0130' := by
    rintro rfl
    contradiction
  rw [lowercase, if_neg hdotted, mapBy, hnone, Char.ofNat_toNat]

theorem head?_trim {c : Char} (h : ¬ isBlank c) (s : List Char) :
    (trim (c :: s)).head? = some c := by
  rw [trim, List.dropWhile_cons_of_neg h, List.reverse_cons, List.dropWhile_append]
  split <;> simp [h]

theorem trim_lowercase_iff (c : Char) (s : List Char) :
    trim (lowercase c ++ s) = trim (c :: s) ↔ lowercase c = [c] := by
  constructor
  · intro h
    by_cases hblank : isBlank c
    · exact lowercase_of_isBlank hblank
    · have hhead := congrArg List.head? h
      rw [head?_trim hblank] at hhead
      rw [lowercase] at hhead ⊢
      split at hhead
      · next hdotted =>
        rw [List.cons_append, head?_trim (by decide), hdotted] at hhead
        contradiction
      · next hdotted =>
        have hlower : ∀ d ∈ lowercase c, ¬ isBlank d := fun d => not_isBlank_lowercase hblank
        rw [lowercase, if_neg hdotted] at hlower
        rw [List.singleton_append, head?_trim (hlower _ (List.mem_singleton_self _))] at hhead
        rw [if_neg hdotted, Option.some.inj hhead]
  · intro h
    rw [h, List.singleton_append]

end Unicode

namespace KeyList

structure Padded where
  before : Nat
  key : List Char
  after : Nat

def field? (p : List Char) : Option (String × Json) := (Key.ofPart? p).map Key.toField

def Nameless (key : List Char) : Prop := key = [] ∨ key = ['-']

instance (key : List Char) : Decidable (Nameless key) := inferInstanceAs (Decidable (_ ∨ _))

namespace Padded

def text (p : Padded) : List Char := blanks p.before ++ (p.key ++ blanks p.after)

/-- There are no spaces, or there is a name, and what spaces in front of it would keep as it is
is read like that anyway. -/
def Harmless (p : Padded) : Prop :=
  (p.before = 0 ∧ p.after = 0) ∨
    (¬ Nameless p.key ∧
      (p.before = 0 ∨ ∀ c ∈ p.key.head?, c ≠ '-' ∧ Unicode.lowercase c = [c]))

instance (p : Padded) : Decidable p.Harmless :=
  decidable_of_iff ((p.before = 0 ∧ p.after = 0) ∨ (¬ Nameless p.key ∧
      (p.before = 0 ∨ p.key.head?.all fun c => c ≠ '-' ∧ Unicode.lowercase c = [c]))) <| by
    simp [Harmless, Option.all_eq_true]

end Padded

theorem field?_eq_none {p : List Char} : field? p = none ↔ Nameless p := by
  rw [field?, Option.map_eq_none_iff]
  cases p with
  | nil => simp [Nameless, Key.ofPart?]
  | cons c p =>
    by_cases hc : c = '-'
    · subst hc
      cases p with
      | nil => simp [Nameless, Key.ofPart?]
      | cons d p => simp [Nameless, Key.ofPart?_dash]
    · simp [Nameless, Key.ofPart?_cons hc, hc]

theorem field?_dash (c : Char) (s : List Char) :
    field? ('-' :: c :: s) =
      some (String.ofList (Unicode.trim (Unicode.lowercase c ++ s)), .int (-1)) := rfl

theorem field?_cons {c : Char} (h : c ≠ '-') (s : List Char) :
    field? (c :: s) =
      some (String.ofList (Unicode.trim (Unicode.lowercase c ++ s)), .int 1) := by
  rw [field?, Key.ofPart?_cons h]
  rfl

theorem field?_append_blanks {key : List Char} (h : ¬ Nameless key) (n : Nat) :
    field? (key ++ blanks n) = field? key := by
  cases key with
  | nil => exact absurd (.inl rfl) h
  | cons c s =>
    by_cases hc : c = '-'
    · subst hc
      cases s with
      | nil => exact absurd (.inr rfl) h
      | cons d s =>
        rw [List.cons_append, List.cons_append, field?_dash, field?_dash, ← List.append_assoc,
          Unicode.trim_append_blanks]
    · rw [List.cons_append, field?_cons hc, field?_cons hc, ← List.append_assoc,
        Unicode.trim_append_blanks]

theorem field?_blanks_append (n : Nat) (s : List Char) :
    field? (blanks (n + 1) ++ s) = some (String.ofList (Unicode.trim s), .int 1) := by
  have hspace : Unicode.lowercase ' ' = blanks 1 := by decide +kernel
  have hblanks : blanks (n + 1) ++ s = ' ' :: (blanks n ++ s) := rfl
  rw [hblanks, field?_cons (by decide), hspace, Unicode.trim_blanks_append,
    Unicode.trim_blanks_append]

theorem field?_asWritten_iff {key : List Char} (h : ¬ Nameless key) :
    field? key = some (String.ofList (Unicode.trim key), .int 1) ↔
      ∀ c ∈ key.head?, c ≠ '-' ∧ Unicode.lowercase c = [c] := by
  cases key with
  | nil => exact absurd (.inl rfl) h
  | cons c s =>
    simp only [List.head?_cons, Option.mem_def, Option.some.injEq, forall_eq']
    by_cases hc : c = '-'
    · subst hc
      cases s with
      | nil => exact absurd (.inr rfl) h
      | cons d s => simp [field?_dash, Json.int]
    · rw [field?_cons hc, ← Unicode.trim_lowercase_iff c s]
      simp [hc, String.ofList_inj]

namespace Padded

variable (p : Padded)

theorem nameless_text : Nameless p.text ↔ Nameless p.key ∧ p.before = 0 ∧ p.after = 0 := by
  obtain ⟨before, key, after⟩ := p
  cases before with
  | succ n => simp [Nameless, text, blanks, List.replicate_succ]
  | zero =>
    cases after with
    | zero => simp [Nameless, text, blanks]
    | succ n =>
      have htext : text ⟨0, key, n + 1⟩ = key ++ blanks n ++ [' '] := by
        rw [List.append_assoc, blanks, ← List.replicate_succ']
        rfl
      have hnamed : ¬ Nameless (key ++ blanks n ++ [' ']) := by
        rintro (hnil | hdash)
        · exact List.append_ne_nil_of_right_ne_nil _ (List.cons_ne_nil _ _) hnil
        · have hlast := congrArg List.getLast? hdash
          rw [List.getLast?_concat] at hlast
          contradiction
      rw [htext]
      exact iff_of_false hnamed (by simp)

theorem field?_text : field? p.text = field? p.key ↔ p.Harmless := by
  by_cases hkey : Nameless p.key
  · rw [field?_eq_none.2 hkey, field?_eq_none, nameless_text, Harmless]
    simp [hkey]
  · have hharmless : p.Harmless ↔
        p.before = 0 ∨ ∀ c ∈ p.key.head?, c ≠ '-' ∧ Unicode.lowercase c = [c] := by
      rw [Harmless, and_iff_right hkey, or_iff_right_of_imp]
      exact fun h => .inl h.1
    rw [hharmless, ← field?_asWritten_iff hkey, text]
    cases p.before with
    | zero =>
      have hnone : blanks 0 ++ (p.key ++ blanks p.after) = p.key ++ blanks p.after := rfl
      rw [hnone, field?_append_blanks hkey]
      simp
    | succ n =>
      rw [field?_blanks_append, Unicode.trim_append_blanks, eq_comm]
      simp

theorem unbroken_text (h : Unbroken p.key) : Unbroken p.text := by
  have hafter : ∀ n, Unbroken (p.key ++ blanks n) := by
    intro n
    induction n with
    | zero => simpa [blanks] using h
    | succ n ih =>
      rw [blanks, List.replicate_succ', ← List.append_assoc]
      intro hinfix
      rcases List.infix_concat_iff.1 hinfix with hsuffix | hinfix
      · obtain hnil | ⟨t, ht, -⟩ := List.suffix_concat_iff.1 hsuffix
        · contradiction
        · exact absurd (congrArg List.getLast? ht) (by simp [connective])
      · exact ih hinfix
  rw [text]
  induction p.before with
  | zero => exact hafter _
  | succ n ih => exact ih.cons (by decide)

theorem text_ne_nil (h : p.key ≠ []) : p.text ≠ [] := by
  simp [text, h]

end Padded

def Refused (input : String) : Prop :=
  ∃ fault, orderDocument input = .error (.malformedKeyList input fault)

def SameOrder (input other : String) : Prop :=
  (∃ order, orderDocument input = .ok order ∧ orderDocument other = .ok order) ∨
    (Refused input ∧ Refused other)

def fields (s : List Char) : List String := (keyParts s).filterMap fun p => (field? p).map Prod.fst

section

variable {s : List Char}

theorem orderDocument_of_entries {es : List (String × Json)}
    (h : (keyParts s).map field? = es.map some) :
    orderDocument (listText s) = .ok (.object (Fields.ofList es)) := by
  cases hkeys : keysOf (keyParts s) with
  | none =>
    obtain ⟨p, hp, hnone⟩ := keysOf_eq_none.1 hkeys
    have hentry : none ∈ es.map some := by
      rw [← h]
      exact List.mem_map.2 ⟨p, hp, by rw [field?, hnone, Option.map_none]⟩
    simp at hentry
  | some ks =>
    have hentries : (ks.map Key.toField).map some = es.map some := by
      rw [← h, List.map_map]
      have hmap := congrArg (List.map (Option.map Key.toField)) (keysOf_eq_some.1 hkeys)
      rw [List.map_map, List.map_map] at hmap
      exact hmap.symm
    have hes : ks.map Key.toField = es :=
      (List.map_inj_right fun _ _ => Option.some.inj).1 hentries
    rw [orderDocument, keys_listText, hkeys, Except.map, orderFields_eq, hes]

theorem refused_of_nameless {p : List Char} (hp : p ∈ keyParts s) (h : Nameless p) :
    orderDocument (listText s) = .error (.malformedKeyList (listText s) .emptyKey) := by
  have hnone : Key.ofPart? p = none := by
    rw [← field?_eq_none, field?, Option.map_eq_none_iff] at h
    exact h
  rw [orderDocument, keys_listText, keysOf_eq_none.2 ⟨p, hp, hnone⟩]
  rfl

theorem exists_entries {ps : List (List Char)} (h : ∀ p ∈ ps, ¬ Nameless p) :
    ∃ es : List (String × Json), ps.map field? = es.map some := by
  induction ps with
  | nil => exact ⟨[], rfl⟩
  | cons p ps ih =>
    obtain ⟨hp, hps⟩ := List.forall_mem_cons.1 h
    obtain ⟨es, hes⟩ := ih hps
    rw [← field?_eq_none] at hp
    obtain ⟨e, he⟩ := Option.ne_none_iff_exists'.1 hp
    exact ⟨e :: es, by rw [List.map_cons, List.map_cons, he, hes]⟩

theorem refused_iff : Refused (listText s) ↔ ∃ p ∈ keyParts s, Nameless p := by
  constructor
  · rintro ⟨fault, h⟩
    by_contra hnone
    push Not at hnone
    obtain ⟨es, hes⟩ := exists_entries hnone
    rw [orderDocument_of_entries hes] at h
    contradiction
  · rintro ⟨p, hp, hnameless⟩
    exact ⟨_, refused_of_nameless hp hnameless⟩

theorem fields_of_entries {es : List (String × Json)} (h : (keyParts s).map field? = es.map some) :
    fields s = Fields.keys es := by
  have hfields : fields s = ((keyParts s).map field?).filterMap (Option.map Prod.fst) := by
    rw [List.filterMap_map]
    rfl
  rw [hfields, h, List.filterMap_map, Fields.keys, ← List.filterMap_eq_map]
  rfl

end

section

variable {s t : List Char}

theorem sameOrder_of_entries (h : (keyParts t).map field? = (keyParts s).map field?) :
    SameOrder (listText s) (listText t) := by
  by_cases hnameless : ∃ p ∈ keyParts s, Nameless p
  · obtain ⟨p, hp, hnone⟩ := hnameless
    have hmem : field? p ∈ (keyParts t).map field? := by
      rw [h]
      exact List.mem_map_of_mem hp
    obtain ⟨q, hq, heq⟩ := List.mem_map.1 hmem
    refine .inr ⟨refused_iff.2 ⟨p, hp, hnone⟩, refused_iff.2 ⟨q, hq, ?_⟩⟩
    rwa [← field?_eq_none, heq, field?_eq_none]
  · push Not at hnameless
    obtain ⟨es, hes⟩ := exists_entries hnameless
    exact .inl ⟨_, orderDocument_of_entries hes, orderDocument_of_entries (h.trans hes)⟩

theorem entries_of_sameOrder (hs : ¬ Refused (listText s)) (hdistinct : (fields s).Nodup)
    (hlength : (keyParts t).length = (keyParts s).length)
    (h : SameOrder (listText s) (listText t)) :
    (keyParts t).map field? = (keyParts s).map field? := by
  -- as many keys make the same order of distinct fields only if they ask for the same
  obtain ⟨order, horder, hother⟩ | ⟨hrefused, -⟩ := h
  · have ht : ¬ Refused (listText t) := by
      rintro ⟨fault, hfault⟩
      rw [hother] at hfault
      contradiction
    rw [refused_iff] at hs ht
    push Not at hs ht
    obtain ⟨es, hes⟩ := exists_entries hs
    obtain ⟨fs, hfs⟩ := exists_entries ht
    have hkeys : (Fields.keys es).Nodup := fields_of_entries hes ▸ hdistinct
    rw [orderDocument_of_entries hes, Fields.ofList_of_nodup hkeys] at horder
    rw [orderDocument_of_entries hfs, ← horder] at hother
    have hsame : Fields.ofList fs = es := Json.object.inj (Except.ok.inj hother)
    have hlengths : fs.length = es.length := by
      have hfs := congrArg List.length hfs
      have hes := congrArg List.length hes
      simp only [List.length_map] at hfs hes
      rw [← hfs, ← hes, hlength]
    -- no field of the other list comes twice, since it would make fewer fields then
    have hall : fs.length ≤ (Fields.ofList fs).length := by
      rw [hsame]
      exact Nat.le_of_eq hlengths
    rw [Fields.ofList_of_nodup (Fields.nodup_of_length_ofList hall)] at hsame
    rw [hfs, hes, hsame]
  · contradiction

variable {ps : List Padded} (h : ps.map Padded.key = keyParts s) (n : Nat)

include h

theorem keyParts_padded :
    keyParts (joined (ps.map Padded.text) ++ connectives n) = ps.map Padded.text := by
  obtain ⟨p, qs, m, hkeys, hlast, hunbroken, -⟩ := exists_joined_keyParts s
  rw [hkeys] at h
  cases ps with
  | nil => contradiction
  | cons x xs =>
    obtain ⟨rfl, rfl⟩ := List.cons.inj h
    rw [List.map_cons]
    apply keyParts_joined
    · rw [← List.map_cons, List.forall_mem_map] at hunbroken ⊢
      exact fun y hy => y.unbroken_text (hunbroken y hy)
    · rw [List.getLast?_map] at hlast ⊢
      intro q hq
      obtain ⟨y, hy, rfl⟩ := Option.map_eq_some_iff.1 hq
      exact y.text_ne_nil (hlast _ (by rw [hy]; rfl))

theorem entries_padded_iff :
    (keyParts (joined (ps.map Padded.text) ++ connectives n)).map field? =
      (keyParts s).map field? ↔ ∀ p ∈ ps, p.Harmless := by
  rw [keyParts_padded h, ← h, List.map_map, List.map_map, List.map_inj_left]
  exact forall₂_congr fun p _ => p.field?_text

theorem refused_padded_iff :
    Refused (listText (joined (ps.map Padded.text) ++ connectives n)) ↔
      ∃ p ∈ ps, Nameless p.key ∧ p.Harmless := by
  have hharmless : ∀ p : Padded, Nameless p.text ↔ Nameless p.key ∧ p.Harmless := by
    intro p
    rw [p.nameless_text, Padded.Harmless]
    tauto
  rw [refused_iff, keyParts_padded h]
  simp [hharmless]

end

/-- Every text is its keys with connectives between and behind them.  If harmless spaces are put
around these, the same order is made, or none as before.  A list that is refused is still refused
unless a name was made of spaces in each place where there is none, and one of distinct fields
makes the same order only if all spaces are harmless. -/
theorem orderDocument_padded (s : List Char) :
    (∃ n, s = joined (keyParts s) ++ connectives n) ∧
    ∀ (ps : List Padded) (n : Nat), ps.map Padded.key = keyParts s →
      let padded := listText (joined (ps.map Padded.text) ++ connectives n)
      ((∀ p ∈ ps, p.Harmless) → SameOrder (listText s) padded) ∧
      (Refused (listText s) →
        (SameOrder (listText s) padded ↔ ∃ p ∈ ps, Nameless p.key ∧ p.Harmless)) ∧
      (¬ Refused (listText s) → (fields s).Nodup →
        (SameOrder (listText s) padded ↔ ∀ p ∈ ps, p.Harmless)) := by
  refine ⟨?_, fun ps n h => ⟨fun hall => ?_, fun hrefused => ?_, fun haccepted hdistinct => ?_⟩⟩
  · obtain ⟨p, ps, n, hkeys, -, -, hs⟩ := exists_joined_keyParts s
    exact ⟨n, hkeys ▸ hs⟩
  · exact sameOrder_of_entries ((entries_padded_iff h n).2 hall)
  · rw [← refused_padded_iff h n]
    constructor
    · rintro (⟨order, horder, -⟩ | ⟨-, hother⟩)
      · obtain ⟨fault, hfault⟩ := hrefused
        rw [horder] at hfault
        contradiction
      · exact hother
    · exact fun hother => .inr ⟨hrefused, hother⟩
  · constructor
    · intro hsame
      apply (entries_padded_iff h n).1
      apply entries_of_sameOrder haccepted hdistinct ?_ hsame
      rw [keyParts_padded h, ← h, List.length_map, List.length_map]
    · exact fun hall => sameOrder_of_entries ((entries_padded_iff h n).2 hall)

theorem orderDocument_padded_behind :
    SameOrder "byAgeAnd-Name" "byAge And-Name  " ∧
      ¬ SameOrder "byAgeAnd-Name" "byAgeAnd -Name" ∧
      ¬ SameOrder "byAgeAnd-Name" "by AgeAnd-Name" := by
  have hmain := (orderDocument_padded "AgeAnd-Name".toList).2
  have haccepted : ¬ Refused "byAgeAnd-Name" := by
    rintro ⟨fault, h⟩
    have hok : (orderDocument "byAgeAnd-Name").isOk := by decide +kernel
    rw [h] at hok
    contradiction
  have hdistinct : (fields "AgeAnd-Name".toList).Nodup := by decide +kernel
  obtain ⟨hsame, -⟩ :=
    hmain [⟨0, "Age".toList, 1⟩, ⟨0, "-Name".toList, 2⟩] 0 (by decide +kernel)
  obtain ⟨-, -, hdash⟩ :=
    hmain [⟨0, "Age".toList, 0⟩, ⟨1, "-Name".toList, 0⟩] 0 (by decide +kernel)
  obtain ⟨-, -, hcapital⟩ :=
    hmain [⟨1, "Age".toList, 0⟩, ⟨0, "-Name".toList, 0⟩] 0 (by decide +kernel)
  refine ⟨hsame (by decide +kernel), fun h => ?_, fun h => ?_⟩
  · exact absurd ((hdash haccepted hdistinct).1 h) (by decide +kernel)
  · exact absurd ((hcapital haccepted hdistinct).1 h) (by decide +kernel)

end KeyList

end DocQuery
