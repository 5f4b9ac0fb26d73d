import DocQuery.Proofs.Words
import DocQuery.Query.Scan

/-! Texts and their bytes.  The syntax of queries is in ASCII, whose characters are bytes
that occur in no other character; so what is found among the bytes of a text is found
between its characters. -/

namespace DocQuery.Query

def IsAscii (c : Char) : Prop := c.toNat < 128

instance : DecidablePred IsAscii := fun c => inferInstanceAs (Decidable (c.toNat < 128))

theorem utf8Size_of_isAscii {c : Char} (h : IsAscii c) : c.utf8Size = 1 :=
  Char.utf8Size_eq_one_iff.2 (UInt32.le_iff_toNat_le.2 (Nat.le_of_lt_succ h))

theorem utf8EncodeChar_of_isAscii {c : Char} (h : IsAscii c) : String.utf8EncodeChar c = [byte c] :=
  String.utf8EncodeChar_eq_singleton (utf8Size_of_isAscii h)

theorem le_of_mem_utf8EncodeChar {c : Char} (h : ¬ IsAscii c) {b : UInt8}
    (hb : b ∈ String.utf8EncodeChar c) : 128 ≤ b.toNat := by
  have hval : ¬ c.val.toNat ≤ 0x7f := fun hle => h (Nat.lt_succ_of_le hle)
  simp only [String.utf8EncodeChar, if_neg hval] at hb
  split at hb
  · simp at hb
    rcases hb with rfl | rfl <;> simp <;> omega
  · split at hb <;> simp at hb
    · rcases hb with rfl | rfl | rfl <;> simp <;> omega
    · rcases hb with rfl | rfl | rfl | rfl <;> simp <;> omega

theorem IsAscii.forall {P : Char → Prop} (h : ∀ n < 128, P (Char.ofNat n)) {c : Char}
    (hc : IsAscii c) : P c := by
  have := h c.toNat hc
  rwa [Char.ofNat_toNat] at this

theorem toNat_byte {c : Char} (h : IsAscii c) : (byte c).toNat = c.toNat :=
  IsAscii.forall (P := fun c => (byte c).toNat = c.toNat) (by decide) h

theorem byte_inj {c d : Char} (hc : IsAscii c) (hd : IsAscii d) : byte c = byte d ↔ c = d := by
  rw [← UInt8.toNat_inj, toNat_byte hc, toNat_byte hd]
  exact Char.toNat_inj

theorem IsAscii.toLower {c : Char} (h : IsAscii c) : IsAscii c.toLower :=
  IsAscii.forall (P := fun c => IsAscii c.toLower) (by decide) h

theorem foldByte_byte {c : Char} (h : IsAscii c) : foldByte (byte c) = byte c.toLower :=
  IsAscii.forall (P := fun c => foldByte (byte c) = byte c.toLower) (by decide) h

theorem foldByte_of_le {b : UInt8} (h : 128 ≤ b.toNat) : foldByte b = b := by
  have hZ : ¬ b ≤ byte 'Z' := by
    rw [UInt8.le_iff_toNat_le]
    have : (byte 'Z').toNat = 90 := rfl
    omega
  simp [foldByte, hZ]

theorem toLower_of_not_isAscii {c : Char} (h : ¬ IsAscii c) : c.toLower = c := by
  have hval : ¬ c.val ≤ 'Z'.val := by
    intro hle
    have : c.toNat ≤ 90 := UInt32.le_iff_toNat_le.1 hle
    exact h (by unfold IsAscii; omega)
  exact dif_neg fun h => hval h.2

theorem bytes_append (s t : List Char) : bytes (s ++ t) = bytes s ++ bytes t := List.flatMap_append

theorem bytes_cons (c : Char) (s : List Char) :
    bytes (c :: s) = String.utf8EncodeChar c ++ bytes s :=
  List.flatMap_cons

theorem bytes_cons_of_isAscii {c : Char} (h : IsAscii c) (s : List Char) :
    bytes (c :: s) = byte c :: bytes s := by
  rw [bytes_cons, utf8EncodeChar_of_isAscii h, List.singleton_append]

theorem length_bytes (s : List Char) : (bytes s).length = byteLength s := by
  induction s with
  | nil => rfl
  | cons c s ih => rw [bytes_cons, List.length_append, ih, String.length_utf8EncodeChar, byteLength]

theorem byteLength_append (s t : List Char) :
    byteLength (s ++ t) = byteLength s + byteLength t := by
  rw [← length_bytes, bytes_append, List.length_append, length_bytes, length_bytes]

theorem byteLength_pos {s : List Char} (h : s ≠ []) : 0 < byteLength s := by
  obtain ⟨c, t, rfl⟩ := List.exists_cons_of_ne_nil h
  exact Nat.add_pos_left c.utf8Size_pos _

theorem byteLength_toList (s : String) : byteLength s.toList = s.utf8ByteSize := by
  have h : ∀ t : List Char, (String.ofList t).utf8ByteSize = byteLength t := by
    intro t
    induction t with
    | nil => rfl
    | cons c t ih =>
      rw [← List.singleton_append, String.ofList_append, String.utf8ByteSize_append, ih,
        ← String.singleton_eq_ofList, String.utf8ByteSize_singleton, List.singleton_append,
        byteLength]
  rw [← h, String.ofList_toList]

theorem bytes_of_isAscii {s : List Char} (h : ∀ c ∈ s, IsAscii c) : bytes s = s.map byte := by
  induction s with
  | nil => rfl
  | cons c s ih =>
    have hs := ih fun d hd => h d (List.mem_cons_of_mem c hd)
    rw [bytes_cons_of_isAscii (h c List.mem_cons_self), hs, List.map_cons]

theorem head?_bytes_eq {k : Char} (hk : IsAscii k) {s : List Char} :
    (bytes s).head? = some (byte k) ↔ s.head? = some k := by
  cases s with
  | nil => simp [bytes]
  | cons c s =>
    by_cases hc : IsAscii c
    · simp [bytes_cons_of_isAscii hc, byte_inj hc hk]
    · have hne : c ≠ k := by
        rintro rfl
        exact hc hk
      obtain ⟨b, bs, hb⟩ := List.exists_cons_of_ne_nil (String.utf8EncodeChar_ne_nil (c := c))
      have hle := le_of_mem_utf8EncodeChar hc (hb ▸ List.mem_cons_self)
      have hbk : b ≠ byte k := by
        rintro rfl
        rw [toNat_byte hk] at hle
        exact absurd hk (Nat.not_lt.2 hle)
      simp [bytes_cons, hb, hne, hbk]

theorem exists_head?_bytes_cons (c : Char) (s : List Char) :
    ∃ b, (bytes (c :: s)).head? = some b ∧ ∀ k, IsAscii k → (b = byte k ↔ c = k) := by
  -- the first byte of a text shows which character of ASCII stands there, if one does
  cases hb : (bytes (c :: s)).head? with
  | none => simp [bytes_cons, String.utf8EncodeChar_ne_nil] at hb
  | some b =>
    refine ⟨b, rfl, fun k hk => ?_⟩
    have h := head?_bytes_eq hk (s := c :: s)
    rwa [hb, List.head?_cons, Option.some.injEq, Option.some.injEq] at h

theorem head?_bytes_eq_none {s : List Char} : (bytes s).head? = none ↔ s = [] := by
  cases s with
  | nil => simp [bytes]
  | cons c s => simp [bytes_cons, String.utf8EncodeChar_ne_nil]

theorem cutAt?_byteLength (t r : List Char) : cutAt? (byteLength t) (t ++ r) = some (t, r) := by
  induction t with
  | nil => cases r <;> simp [cutAt?, byteLength]
  | cons c t ih =>
    have hpos := c.utf8Size_pos
    rw [List.cons_append, cutAt?, byteLength, if_neg (by omega), if_pos (by omega),
      Nat.add_sub_cancel_left, ih]
    rfl

theorem cutAt?_isSome_iff {n : Nat} {s : List Char} :
    (cutAt? n s).isSome ↔ ∃ t r, s = t ++ r ∧ n = byteLength t := by
  constructor
  · intro h
    induction s generalizing n with
    | nil =>
      rw [cutAt?] at h
      split at h
      · next hn => exact ⟨[], [], rfl, hn⟩
      · contradiction
    | cons c s ih =>
      rw [cutAt?] at h
      split at h
      · next hn => exact ⟨[], c :: s, rfl, hn⟩
      · split at h
        · next hle =>
          rw [Option.isSome_map] at h
          obtain ⟨t, r, rfl, hn⟩ := ih h
          exact ⟨c :: t, r, rfl, by rw [byteLength]; omega⟩
        · contradiction
  · rintro ⟨t, r, rfl, rfl⟩
    rw [cutAt?_byteLength]
    rfl

theorem isValid_iff_cutAt? {query : String} {n : Nat} :
    (⟨n⟩ : String.Pos.Raw).IsValid query ↔ (cutAt? n query.toList).isSome := by
  rw [String.Pos.Raw.isValid_iff_exists_append, cutAt?_isSome_iff]
  constructor
  · rintro ⟨t, r, rfl, h⟩
    refine ⟨t.toList, r.toList, String.toList_append, ?_⟩
    rw [byteLength_toList]
    exact congrArg String.Pos.Raw.byteIdx h
  · rintro ⟨t, r, h, rfl⟩
    refine ⟨String.ofList t, String.ofList r, ?_, ?_⟩
    · rw [← String.ofList_append, ← h, String.ofList_toList]
    · rw [← String.toList_ofList (l := t), byteLength_toList, String.toList_ofList]
      rfl

theorem offsetOf?_eq (c : Char) (s : List Char) :
    offsetOf? c s =
      if (takeUntil [c] s).2.isEmpty then none else some (byteLength (takeUntil [c] s).1) := by
  induction s with
  | nil => rfl
  | cons d s ih =>
    rw [offsetOf?, ih]
    by_cases hd : d = c
    · simp [hd, takeUntil, byteLength]
    · have hsplit : takeUntil [c] (d :: s) = (d :: (takeUntil [c] s).1, (takeUntil [c] s).2) := by
        simp [takeUntil, hd]
      rw [if_neg hd, hsplit]
      cases (takeUntil [c] s).2.isEmpty <;> rfl

theorem findIdx?_bytes {stops : List Char} (hstops : ∀ c ∈ stops, IsAscii c) (s : List Char) :
    ((bytes s).findIdx? (bytes stops).contains).getD (bytes s).length =
      byteLength (takeUntil stops s).1 := by
  rw [takeUntil]
  have hmem : ∀ {c}, IsAscii c → (byte c ∈ bytes stops ↔ c ∈ stops) := by
    intro c hc
    rw [bytes_of_isAscii hstops, List.mem_map]
    constructor
    · rintro ⟨d, hd, he⟩
      rwa [← (byte_inj (hstops d hd) hc).1 he]
    · exact fun h => ⟨c, h, rfl⟩
  have hascii : ∀ b ∈ bytes stops, b.toNat < 128 := by
    rw [bytes_of_isAscii hstops]
    intro b hb
    obtain ⟨c, hc, rfl⟩ := List.mem_map.1 hb
    rw [toNat_byte (hstops c hc)]
    exact hstops c hc
  induction s with
  | nil => rfl
  | cons c s ih =>
    by_cases hc : c ∈ stops
    · simp [bytes_cons_of_isAscii (hstops c hc), List.findIdx?_cons, (hmem (hstops c hc)).2 hc, hc,
        byteLength]
    · have hnone : (String.utf8EncodeChar c).findIdx? (bytes stops).contains = none := by
        rw [List.findIdx?_eq_none_iff]
        intro b hb
        rw [List.contains_eq_mem, decide_eq_false_iff_not]
        intro hbs
        by_cases ha : IsAscii c
        · rw [utf8EncodeChar_of_isAscii ha, List.mem_singleton] at hb
          exact hc ((hmem ha).1 (hb ▸ hbs))
        · exact absurd (hascii b hbs) (Nat.not_lt.2 (le_of_mem_utf8EncodeChar ha hb))
      rw [bytes_cons, List.findIdx?_append, hnone, List.takeWhile_cons_of_pos (by simpa using hc),
        byteLength, ← ih]
      cases (bytes s).findIdx? (bytes stops).contains <;>
        simp [String.length_utf8EncodeChar, Nat.add_comm]

theorem isAscii_of_toLower {k c : Char} (hk : IsAscii k) (h : k.toLower = c.toLower) :
    IsAscii c := by
  by_cases hc : IsAscii c
  · exact hc
  · rw [toLower_of_not_isAscii hc] at h
    exact h ▸ hk.toLower

theorem exists_bytes_cons {k : Char} (hk : IsAscii k) (c : Char) (s : List Char) :
    ∃ b t, bytes (c :: s) = b :: t ∧ (foldByte b = foldByte (byte k) ↔ k.toLower = c.toLower) := by
  by_cases hc : IsAscii c
  · refine ⟨byte c, bytes s, bytes_cons_of_isAscii hc s, ?_⟩
    rw [foldByte_byte hc, foldByte_byte hk, byte_inj hc.toLower hk.toLower, eq_comm]
  · obtain ⟨b, bs, hb⟩ := List.exists_cons_of_ne_nil (String.utf8EncodeChar_ne_nil (c := c))
    have hle := le_of_mem_utf8EncodeChar hc (hb ▸ List.mem_cons_self)
    refine ⟨b, bs ++ bytes s, by rw [bytes_cons, hb, List.cons_append], ?_⟩
    rw [foldByte_of_le hle, foldByte_byte hk]
    constructor
    · rintro rfl
      rw [toNat_byte hk.toLower] at hle
      exact absurd hk.toLower (Nat.not_lt.2 hle)
    · exact fun h => absurd (isAscii_of_toLower hk h) hc

theorem endsKeyword_bytes (s : List Char) :
    (bytes s)[0]?.all [byte ' ', byte '(', byte ')'].contains = endsKeyword s := by
  have hhead : ∀ k, IsAscii k → ((bytes s)[0]? = some (byte k) ↔ s.head? = some k) := by
    intro k hk
    rw [← List.head?_eq_getElem?, head?_bytes_eq hk]
  have hspace := hhead ' ' (by decide)
  have hopen := hhead '(' (by decide)
  have hclose := hhead ')' (by decide)
  have hnone : (bytes s)[0]? = none ↔ s = [] := by
    rw [← List.head?_eq_getElem?, head?_bytes_eq_none]
  cases hb : (bytes s)[0]? with
  | none =>
    rw [hnone.1 hb]
    rfl
  | some b =>
    cases s with
    | nil => simp [bytes] at hb
    | cons c s =>
      rw [hb, Option.some.injEq, List.head?_cons, Option.some.injEq] at hspace hopen hclose
      simp [endsKeyword, hspace, hopen, hclose, Bool.or_assoc]

theorem keyword_bytes {key : List Char} (hkey : ∀ c ∈ key, IsAscii c) (s : List Char) :
    ((bytes key).length ≤ (bytes s).length &&
      ((bytes s).take (bytes key).length).map foldByte = (bytes key).map foldByte &&
      (bytes s)[(bytes key).length]?.all [byte ' ', byte '(', byte ')'].contains) =
    atKeyword key s := by
  induction key generalizing s with
  | nil =>
    have h := endsKeyword_bytes s
    simp only [bytes, List.flatMap_nil, List.length_nil] at h ⊢
    rw [h, atKeyword, afterKeyword?]
    cases endsKeyword s <;> simp
  | cons k ks ih =>
    have hk := hkey k List.mem_cons_self
    have hks := ih fun c hc => hkey c (List.mem_cons_of_mem k hc)
    rw [bytes_cons_of_isAscii hk]
    cases s with
    | nil => simp [bytes, atKeyword, afterKeyword?]
    | cons c s =>
      rw [atKeyword, afterKeyword?]
      split
      · next hlower =>
        have hc := isAscii_of_toLower hk hlower
        have hfold : foldByte (byte c) = foldByte (byte k) := by
          rw [foldByte_byte hc, foldByte_byte hk, hlower]
        rw [bytes_cons_of_isAscii hc, ← atKeyword, ← hks]
        simp [hfold]
      · next hlower =>
        obtain ⟨b, t, hb, hfold⟩ := exists_bytes_cons hk c s
        simp [hb, mt hfold.1 hlower]

theorem sameWord_bytes {key : List Char} (hkey : ∀ c ∈ key, IsAscii c) (w : List Char) :
    (bytes w).map foldByte = (bytes key).map foldByte ↔ sameWord key w := by
  rw [sameWord, decide_eq_true_eq]
  induction key generalizing w with
  | nil => cases w <;> simp [bytes, String.utf8EncodeChar_ne_nil]
  | cons k ks ih =>
    have hk := hkey k List.mem_cons_self
    have hks := ih fun c hc => hkey c (List.mem_cons_of_mem k hc)
    rw [bytes_cons_of_isAscii hk]
    cases w with
    | nil => simp [bytes]
    | cons c w =>
      by_cases hlower : k.toLower = c.toLower
      · have hc := isAscii_of_toLower hk hlower
        simp [bytes_cons_of_isAscii hc, foldByte_byte hc, foldByte_byte hk, hlower, hks]
      · obtain ⟨b, t, hb, hfold⟩ := exists_bytes_cons hk c w
        simp [hb, mt hfold.1 hlower, hlower]

theorem isAscii_of_mem_keywords : ∀ key ∈ keywords, ∀ c ∈ key, IsAscii c := by
  simp [keywords, keywordAnd, keywordOr, keywordNot, keywordNull, keywordLike, keywordIn,
    keywordIs, IsAscii]

theorem byteLength_of_afterKeyword? {key s r : List Char} (hkey : key ∈ keywords)
    (h : afterKeyword? key s = some r) : ∃ w, s = w ++ r ∧ byteLength w = (bytes key).length := by
  obtain ⟨w, rfl, hw, -⟩ := afterKeyword?_iff.1 h
  refine ⟨w, rfl, ?_⟩
  rw [← length_bytes, ← List.length_map (f := foldByte),
    (sameWord_bytes (isAscii_of_mem_keywords key hkey) w).2 hw,
    List.length_map]

theorem closing?_eq (offset : Nat) (previous : Option Char) (s : List Char) :
    Scan.closing? offset previous s =
      (closeQuote? (previous = some '\\') s).map fun (cs, _) => (cs, offset + byteLength cs) := by
  induction s generalizing offset previous with
  | nil => rfl
  | cons c s ih =>
    rw [Scan.closing?, closeQuote?]
    by_cases hquote : c = '\'' && previous ≠ some '\\'
    · simp_all [byteLength]
    · rw [if_neg hquote, if_neg (by simpa using hquote), ih]
      simp [Function.comp_def, byteLength, Nat.add_assoc]

theorem closeQuote?_append_eq {escaped : Bool} {s cs r : List Char}
    (h : closeQuote? escaped s = some (cs, r)) : s = cs ++ '\'' :: r := by
  induction s generalizing escaped cs with
  | nil => simp [closeQuote?] at h
  | cons c s ih =>
    rw [closeQuote?] at h
    split at h
    · next hquote => simp_all
    · obtain ⟨⟨ds, t⟩, ht, he⟩ := Option.map_eq_some_iff.1 h
      simp only [Prod.mk.injEq] at he
      obtain ⟨rfl, rfl⟩ := he
      rw [ih ht, List.cons_append]

end DocQuery.Query
