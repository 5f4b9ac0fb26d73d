import DocQuery.Proofs.KeyList
import Mathlib.Data.List.Induction

namespace DocQuery.KeyList

def connective : List Char := ['A', 'n', 'd']

def Unbroken (p : List Char) : Prop := ¬ connective <:+: p

instance (p : List Char) : Decidable (Unbroken p) := inferInstanceAs (Decidable (¬ _))

def joined (ps : List (List Char)) : List Char := connective.intercalate ps

def connectives (n : Nat) : List Char := (List.replicate n connective).flatten

def listText (s : List Char) : String := String.ofList ('b' :: 'y' :: s)

def keyParts (s : List Char) : List (List Char) := dropTrailing (parts s)

section

variable {c : Char} {s p : List Char} {ps : List (List Char)}

theorem parts_ne_nil (s : List Char) : parts s ≠ [] := by
  fun_cases parts s <;> simp [*]

theorem parts_connective (s : List Char) : parts (connective ++ s) = [] :: parts s := by
  rw [connective, List.cons_append, List.cons_append, List.cons_append, List.nil_append, parts]

theorem parts_cons (h : ¬ connective <+: c :: s) (hs : parts s = p :: ps) :
    parts (c :: s) = (c :: p) :: ps := by
  rw [parts, hs]
  rintro t rfl rfl
  exact h ⟨t, rfl⟩

theorem Unbroken.tail (h : Unbroken (c :: p)) : Unbroken p :=
  fun hp => h (hp.trans (List.suffix_cons c p).isInfix)

theorem Unbroken.cons (h : Unbroken p) (hc : c ≠ 'A') : Unbroken (c :: p) := by
  intro hinfix
  rcases List.infix_cons_iff.1 hinfix with hprefix | hinfix
  · exact hc (List.cons_prefix_cons.1 hprefix).1.symm
  · exact h hinfix

theorem Unbroken.not_prefix (h : Unbroken (c :: p)) (s : List Char) :
    ¬ connective <+: c :: (p ++ (connective ++ s)) := by
  -- no connective begins in a part and ends in the connective behind it
  intro hprefix
  match p with
  | [] => simp [connective, List.cons_prefix_cons] at hprefix
  | [d] => simp [connective, List.cons_prefix_cons] at hprefix
  | d :: e :: p =>
    have hown : connective <+: c :: d :: e :: p := by
      simpa [connective, List.cons_prefix_cons] using hprefix
    exact h hown.isInfix

theorem parts_behind (h : Unbroken p) (s : List Char) :
    parts (p ++ (connective ++ s)) = p :: parts s := by
  induction p with
  | nil => exact parts_connective s
  | cons c p ih => exact parts_cons (h.not_prefix s) (ih h.tail)

theorem parts_of_unbroken (h : Unbroken p) : parts p = [p] := by
  induction p with
  | nil => rw [parts]
  | cons c p ih => exact parts_cons (fun hprefix => h hprefix.isInfix) (ih h.tail)

theorem joined_cons (p : List Char) (ps : List (List Char)) :
    joined (p :: ps) = p ++ ps.flatMap (connective ++ ·) := by
  induction ps generalizing p with
  | nil => simp [joined]
  | cons q ps ih =>
    have hrest := ih q
    rw [joined] at hrest ⊢
    rw [List.intercalate_cons_cons, hrest, List.flatMap_cons, List.append_assoc, List.append_assoc]

theorem joined_cons_cons (p q : List Char) (ps : List (List Char)) :
    joined (p :: q :: ps) = p ++ (connective ++ joined (q :: ps)) := by
  rw [joined_cons, joined_cons, List.flatMap_cons, List.append_assoc]

theorem parts_joined (hne : ps ≠ []) (h : ∀ p ∈ ps, Unbroken p) : parts (joined ps) = ps := by
  induction ps with
  | nil => contradiction
  | cons p ps ih =>
    obtain ⟨hp, hps⟩ := List.forall_mem_cons.1 h
    cases ps with
    | nil => rw [joined_cons, List.flatMap_nil, List.append_nil, parts_of_unbroken hp]
    | cons q ps => rw [joined_cons_cons, parts_behind hp, ih (List.cons_ne_nil q ps) hps]

theorem joined_parts (s : List Char) : joined (parts s) = s := by
  fun_induction parts s with
  | case1 => rfl
  | case2 s ih =>
    obtain ⟨p, ps, hs⟩ := List.exists_cons_of_ne_nil (parts_ne_nil s)
    rw [hs] at ih ⊢
    rw [joined_cons_cons, ih]
    rfl
  | case3 c s h hs ih => exact absurd hs (parts_ne_nil s)
  | case4 c s h p ps hs ih =>
    rw [hs, joined_cons] at ih
    rw [joined_cons, List.cons_append, ih]

theorem joined_trailing (hne : ps ≠ []) (n : Nat) :
    joined (ps ++ List.replicate n []) = joined ps ++ connectives n := by
  obtain ⟨p, ps, rfl⟩ := List.exists_cons_of_ne_nil hne
  have hempty : (List.replicate n ([] : List Char)).flatMap (connective ++ ·) = connectives n := by
    rw [List.flatMap_def, List.map_replicate, List.append_nil, connectives]
  rw [List.cons_append, joined_cons, joined_cons, List.flatMap_append, hempty, List.append_assoc]

theorem prefix_of_parts (h : parts s = p :: ps) : p <+: s := by
  have hjoined := joined_parts s
  rw [h, joined_cons] at hjoined
  exact ⟨_, hjoined⟩

theorem unbroken_of_mem_parts (h : p ∈ parts s) : Unbroken p := by
  fun_induction parts s generalizing p with
  | case1 =>
    rw [List.mem_singleton.1 h]
    decide
  | case2 s ih =>
    rcases List.mem_cons.1 h with rfl | h
    · decide
    · exact ih h
  | case3 c s hc hs ih => exact absurd hs (parts_ne_nil s)
  | case4 c s hc q qs hs ih =>
    rw [hs] at ih
    rcases List.mem_cons.1 h with rfl | h
    · intro hinfix
      rcases List.infix_cons_iff.1 hinfix with hprefix | hinfix
      · have hown := hprefix.trans (List.prefix_cons_inj c |>.2 (prefix_of_parts hs))
        obtain ⟨t, ht⟩ := hown
        obtain ⟨rfl, hrest⟩ := List.cons.inj ht
        exact hc t rfl hrest.symm
      · exact ih List.mem_cons_self hinfix
    · exact ih (List.mem_cons_of_mem q h)

end

section

variable {p : List Char} {ps : List (List Char)}

theorem dropTrailing_concat (p : List Char) (ps : List (List Char)) {q : List Char} (hq : q ≠ []) :
    dropTrailing (p :: (ps ++ [q])) = p :: (ps ++ [q]) := by
  simp [dropTrailing, hq]

theorem dropTrailing_replicate (hne : ps ≠ []) (n : Nat) :
    dropTrailing (ps ++ List.replicate n []) = dropTrailing ps := by
  obtain ⟨p, ps, rfl⟩ := List.exists_cons_of_ne_nil hne
  simp [dropTrailing]

theorem dropTrailing_eq_self (h : ∀ q ∈ ps.getLast?, q ≠ []) :
    dropTrailing (p :: ps) = p :: ps := by
  cases ps using List.reverseRecOn with
  | nil => rfl
  | append_singleton ps q => exact dropTrailing_concat p ps (h q (by simp))

theorem exists_dropTrailing (p : List Char) (ps : List (List Char)) :
    ∃ qs n, p :: ps = p :: qs ++ List.replicate n [] ∧ dropTrailing (p :: ps) = p :: qs ∧
      ∀ q ∈ qs.getLast?, q ≠ [] := by
  induction ps using List.reverseRecOn with
  | nil => exact ⟨[], 0, rfl, rfl, nofun⟩
  | append_singleton ps q ih =>
    by_cases hq : q = []
    · obtain ⟨qs, n, hps, hdrop, hlast⟩ := ih
      have hconcat : p :: (ps ++ [q]) = (p :: ps) ++ List.replicate 1 [] := by simp [hq]
      refine ⟨qs, n + 1, ?_, ?_, hlast⟩
      · rw [hconcat, hps, List.append_assoc, List.replicate_append_replicate]
      · rw [hconcat, dropTrailing_replicate (List.cons_ne_nil p ps), hdrop]
    · exact ⟨ps ++ [q], 0, by simp, dropTrailing_concat p ps hq, by simpa using hq⟩

end

theorem exists_joined_keyParts (s : List Char) :
    ∃ p ps n, keyParts s = p :: ps ∧ (∀ q ∈ ps.getLast?, q ≠ []) ∧
      (∀ q ∈ p :: ps, Unbroken q) ∧ s = joined (p :: ps) ++ connectives n := by
  obtain ⟨p, ps, hs⟩ := List.exists_cons_of_ne_nil (parts_ne_nil s)
  obtain ⟨qs, n, hps, hdrop, hlast⟩ := exists_dropTrailing p ps
  rw [← hs] at hps hdrop
  refine ⟨p, qs, n, hdrop, hlast, fun q hq => ?_, ?_⟩
  · apply unbroken_of_mem_parts (s := s)
    rw [hps]
    exact List.mem_append_left _ hq
  · rw [← joined_trailing (List.cons_ne_nil p qs), ← hps, joined_parts]

theorem keyParts_joined {p : List Char} {ps : List (List Char)} (h : ∀ q ∈ p :: ps, Unbroken q)
    (hlast : ∀ q ∈ ps.getLast?, q ≠ []) (n : Nat) :
    keyParts (joined (p :: ps) ++ connectives n) = p :: ps := by
  have hne : p :: ps ≠ [] := List.cons_ne_nil p ps
  have hunbroken : ∀ q ∈ p :: ps ++ List.replicate n [], Unbroken q := by
    refine List.forall_mem_append.2 ⟨h, fun q hq => ?_⟩
    rw [List.eq_of_mem_replicate hq]
    decide
  rw [keyParts, ← joined_trailing hne, parts_joined (by simp) hunbroken,
    dropTrailing_replicate hne, dropTrailing_eq_self hlast]

theorem Key.ofPart?_dash (c : Char) (s : List Char) :
    Key.ofPart? ('-' :: c :: s) = some ⟨true, Unicode.lowercase c ++ s⟩ := rfl

theorem Key.ofPart?_cons {c : Char} (h : c ≠ '-') (s : List Char) :
    Key.ofPart? (c :: s) = some ⟨false, Unicode.lowercase c ++ s⟩ := by
  unfold Key.ofPart?
  split
  next descending name hname =>
  split at hname
  · next hc => exact absurd (List.cons.inj hc).1 h
  · cases hname
    rfl

def Key.toField (k : Key) : String × Json :=
  (String.ofList (Unicode.trim k.name), .int (if k.descending then -1 else 1))

theorem orderFields_eq (ks : List Key) : orderFields ks = Fields.ofList (ks.map Key.toField) := rfl

theorem keysOf_eq_some {ps : List (List Char)} {ks : List Key} :
    keysOf ps = some ks ↔ ps.map Key.ofPart? = ks.map some := by
  induction ps generalizing ks with
  | nil => cases ks <;> simp [keysOf]
  | cons p ps ih =>
    rw [keysOf]
    cases hp : Key.ofPart? p with
    | none => cases ks <;> simp [hp]
    | some k =>
      cases ks with
      | nil => simp
      | cons l ks => simp [hp, ih, and_comm]

theorem keysOf_eq_none {ps : List (List Char)} :
    keysOf ps = none ↔ ∃ p ∈ ps, Key.ofPart? p = none := by
  induction ps with
  | nil => simp [keysOf]
  | cons p ps ih =>
    rw [keysOf]
    cases hp : Key.ofPart? p <;> simp [hp, ih]

theorem keys_listText (s : List Char) :
    keys (listText s) = match keysOf (keyParts s) with
      | some ks => .ok ks
      | none => .error (.malformedKeyList (listText s) .emptyKey) := by
  have hdrop : dropBytes? markerLength ('b' :: 'y' :: s) = some s := by cases s <;> rfl
  rw [keys, listText, String.toList_ofList, hdrop]
  rfl

end DocQuery.KeyList
