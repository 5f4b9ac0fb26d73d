import DocQuery.KeyList
import DocQuery.Proofs.Fields

namespace DocQuery

namespace Unicode

theorem toNat_ofNat (n : Nat) : (Char.ofNat n).toNat = n ∨ (Char.ofNat n).toNat = 0 := by
  by_cases h : n.isValidChar
  · rw [Char.ofNat, dif_pos h]
    exact .inl rfl
  · rw [Char.ofNat, dif_neg h]
    exact .inr rfl

theorem lowercaseRows_apart : ∀ r ∈ lowercaseRows, ∀ b ∈ blankRanges,
    r.last + r.shift < b.1 ∨ b.2 < r.first + r.shift := by decide +kernel

theorem mapBy_lowercaseRows {n : Nat} (h : ¬ inRanges blankRanges n) :
    ¬ inRanges blankRanges (mapBy lowercaseRows n) := by
  have hpos : ∀ b ∈ blankRanges, 0 < b.1 := by decide
  rw [mapBy]
  split
  · next r hr =>
    have hmem := List.mem_of_find?_eq_some hr
    have hrow : r.contains n := List.find?_some (p := fun r => Row.contains r n) hr
    simp only [Row.contains, Bool.and_eq_true, decide_eq_true_eq] at hrow
    simp only [inRanges, List.any_eq_true, Bool.and_eq_true, decide_eq_true_eq, not_exists]
    rintro b ⟨hb, hlow, hhigh⟩
    have hapart := lowercaseRows_apart r hmem b hb
    have hb := hpos b hb
    rw [Row.image] at hlow hhigh
    omega
  · exact h

theorem not_isBlank_lowercase {c d : Char} (hc : ¬ isBlank c) (hd : d ∈ lowercase c) :
    ¬ isBlank d := by
  unfold lowercase at hd
  split at hd
  · simp only [List.mem_cons, List.not_mem_nil, or_false] at hd
    obtain rfl | rfl := hd <;> decide
  · rw [List.mem_singleton.1 hd, isBlank]
    obtain h | h := toNat_ofNat (mapBy lowercaseRows c.toNat) <;> rw [h]
    · exact mapBy_lowercaseRows hc
    · decide

theorem dropWhile_isBlank {s : List Char} (h : ∀ c ∈ s.head?, ¬ isBlank c) :
    s.dropWhile isBlank = s := by
  cases s with
  | nil => rfl
  | cons c s => rw [List.dropWhile_cons_of_neg (h c rfl)]

theorem trim_eq_self {s : List Char} (hhead : ∀ c ∈ s.head?, ¬ isBlank c)
    (hlast : ∀ c ∈ s.getLast?, ¬ isBlank c) : trim s = s := by
  rw [trim, dropWhile_isBlank hhead, dropWhile_isBlank, List.reverse_reverse]
  rwa [List.head?_reverse]

theorem trim_of_not_isBlank {s : List Char} (h : ∀ c ∈ s, ¬ isBlank c) : trim s = s :=
  trim_eq_self (fun c hc => h c (List.mem_of_mem_head? hc))
    fun c hc => h c (List.mem_of_getLast? hc)

end Unicode

namespace KeyList

open Unicode (isBlank)

theorem mem_parts {s p : List Char} (hp : p ∈ parts s) {c : Char} (hc : c ∈ p) : c ∈ s := by
  fun_induction parts s generalizing p with
  | case1 => simp_all
  | case2 s ih =>
    rcases List.mem_cons.1 hp with rfl | hp
    · contradiction
    · simp [ih hp hc]
  | case3 d s h hs ih =>
    simp_all
  | case4 d s h q qs hs ih =>
    rcases List.mem_cons.1 hp with rfl | hp
    · rcases List.mem_cons.1 hc with rfl | hc
      · exact List.mem_cons_self
      · exact List.mem_cons_of_mem d (ih (by simp [hs]) hc)
    · exact List.mem_cons_of_mem d (ih (by simp [hs, hp]) hc)

theorem dropTrailing_subset (ps : List (List Char)) : dropTrailing ps ⊆ ps := by
  cases ps with
  | nil => exact List.Subset.refl _
  | cons p ps =>
    intro q hq
    rw [dropTrailing] at hq
    rcases List.mem_cons.1 hq with rfl | hq
    · exact List.mem_cons_self
    · have := (List.dropWhile_suffix _).subset (List.mem_reverse.1 hq)
      exact List.mem_cons_of_mem p (List.mem_reverse.1 this)

theorem keysOf_some {ps : List (List Char)} {ks : List Key} (h : keysOf ps = some ks) :
    ∀ k ∈ ks, ∃ p ∈ ps, Key.ofPart? p = some k := by
  induction ps generalizing ks with
  | nil =>
    cases h
    simp
  | cons p ps ih =>
    rw [keysOf] at h
    split at h
    · next k hk =>
      obtain ⟨ls, hls, rfl⟩ := Option.map_eq_some_iff.1 h
      rintro l (_ | ⟨_, hl⟩)
      · exact ⟨p, List.mem_cons_self, hk⟩
      · obtain ⟨q, hq, hl⟩ := ih hls l hl
        exact ⟨q, List.mem_cons_of_mem p hq, hl⟩
    · contradiction

theorem Key.ofPart?_some {p : List Char} {k : Key} (h : Key.ofPart? p = some k) :
    ∃ c s, k.name = Unicode.lowercase c ++ s ∧ c :: s ⊆ p := by
  unfold Key.ofPart? at h
  split at h
  next descending name hname =>
  have hsub : name ⊆ p := by
    split at hname
    · cases hname
      exact List.subset_cons_self _ _
    · cases hname
      exact List.Subset.refl _
  split at h
  · contradiction
  · next c s =>
    cases h
    exact ⟨c, s, rfl, hsub⟩

theorem Key.not_isBlank_text {p : List Char} {k : Key} (h : Key.ofPart? p = some k)
    (hp : ∀ c ∈ p, ¬ isBlank c) : ∀ c ∈ k.text, ¬ isBlank c := by
  obtain ⟨c, s, hname, hsub⟩ := Key.ofPart?_some h
  have hk : ∀ d ∈ k.name, ¬ isBlank d := by
    intro d hd
    rw [hname] at hd
    rcases List.mem_append.1 hd with hd | hd
    · exact Unicode.not_isBlank_lowercase (hp c (hsub List.mem_cons_self)) hd
    · exact hp d (hsub (List.mem_cons_of_mem c hd))
  intro d hd
  rw [Key.text] at hd
  split at hd
  · rcases List.mem_cons.1 hd with rfl | hd
    · decide
    · exact hk d hd
  · exact hk d hd

theorem trim_text {query : String} {ks : List Key} (hq : isShorthand query)
    (hk : keys query = .ok ks) {k : Key} (h : k ∈ ks) : Unicode.trim k.text = k.text := by
  unfold isShorthand at hq
  split at hq
  · next c s hs =>
    have hblank : ∀ d ∈ c :: s, ¬ isBlank d := by
      simp only [Bool.and_eq_true, Bool.not_eq_true', List.any_eq_false] at hq
      exact hq.2
    have hdrop : dropBytes? markerLength ('b' :: 'y' :: c :: s) = some (c :: s) := rfl
    rw [keys, hs, hdrop] at hk
    dsimp only at hk
    split at hk
    · next hkeys =>
      cases hk
      obtain ⟨p, hp, hpart⟩ := keysOf_some hkeys k h
      apply Unicode.trim_of_not_isBlank
      apply Key.not_isBlank_text hpart
      intro d hd
      exact hblank d (mem_parts (dropTrailing_subset _ hp) hd)
    · contradiction
  · contradiction

def equations (ks : List Key) (values : List Json) : Fields Json :=
  List.zip (ks.map fun k => String.ofList k.text) values

theorem keys_equations {ks : List Key} {values : List Json} (hlen : ks.length ≤ values.length) :
    Fields.keys (equations ks values) = (ks.map Key.text).map String.ofList := by
  rw [Fields.keys, equations, List.map_fst_zip (by simpa using hlen), List.map_map]
  rfl

theorem values_equations {ks : List Key} {values : List Json} (hlen : ks.length ≤ values.length) :
    (equations ks values).map Prod.snd = values.take ks.length := by
  rw [equations, List.zip_eq_zip_take_min, List.length_map, Nat.min_eq_left hlen]
  apply List.map_snd_zip
  simp [Nat.min_eq_left hlen]

theorem equalityDocument_eq {query : String} {ks : List Key} {values : List Json}
    (hq : isShorthand query) (hk : keys query = .ok ks) (hdistinct : (ks.map Key.text).Nodup)
    (hlen : ks.length ≤ values.length) :
    equalityDocument query values = .ok (.object (equations ks values)) := by
  have htrim : (ks.map fun k => String.ofList (Unicode.trim k.text)) =
      ks.map fun k => String.ofList k.text :=
    List.map_congr_left fun k hmem => by rw [trim_text hq hk hmem]
  rw [equalityDocument, hk]
  simp only [if_neg (Nat.not_lt.2 hlen), equalities, htrim]
  rw [← equations, Fields.ofList_of_nodup]
  rw [keys_equations hlen]
  exact List.Pairwise.map String.ofList (fun _ _ h he => h (String.ofList_injective he)) hdistinct

end KeyList

end DocQuery
