import DocQuery.Query.Operator

namespace DocQuery.Query

def blanks (n : Nat) : List Char := List.replicate n ' '

def wordStops : List Char := [' ', '(', ')']

def StopsAt (stops s : List Char) : Prop := ∀ c ∈ s.head?, c ∈ stops

theorem StopsAt.nil {stops : List Char} : StopsAt stops [] := by
  intro c hc
  simp at hc

theorem StopsAt.cons {stops s : List Char} {c : Char} (h : c ∈ stops) : StopsAt stops (c :: s) := by
  intro d hd
  simp at hd
  rwa [← hd]

theorem StopsAt.mono {stops more s : List Char} (h : StopsAt stops s) (hm : stops ⊆ more) :
    StopsAt more s := fun c hc => hm (h c hc)

theorem StopsAt.blanks_append {stops s : List Char} (hb : ' ' ∈ stops) (h : StopsAt stops s)
    (n : Nat) : StopsAt stops (blanks n ++ s) := by
  cases n with
  | zero => exact h
  | succ n => exact .cons hb

theorem skipBlanks_blanks (n : Nat) (s : List Char) :
    skipBlanks (blanks n ++ s) = skipBlanks s := by
  induction n with
  | zero => rfl
  | succ n ih => exact ih

theorem skipBlanks_of_head? {s : List Char} (h : s.head? ≠ some ' ') : skipBlanks s = s := by
  cases s with
  | nil => rfl
  | cons c s => simp_all [skipBlanks]

theorem takeUntil_word {stops w s : List Char} (hw : ∀ c ∈ w, c ∉ stops) (hs : StopsAt stops s) :
    takeUntil stops (w ++ s) = (w, s) := by
  induction w with
  | nil =>
    cases s with
    | nil => rfl
    | cons c s =>
      have hc : c ∈ stops := hs c rfl
      simp [takeUntil, hc]
  | cons c w ih =>
    have hc : c ∉ stops := hw c List.mem_cons_self
    have hw := ih fun d hd => hw d (List.mem_cons_of_mem c hd)
    simp_all [takeUntil]

theorem wordBeforeSpace?_word {w : List Char} (hne : w ≠ []) (hw : ' ' ∉ w) (n : Nat)
    (s : List Char) :
    wordBeforeSpace? (w ++ (blanks (n + 1) ++ s)) = some (w, blanks (n + 1) ++ s) := by
  have h : takeUntil [' '] (w ++ (blanks (n + 1) ++ s)) = (w, blanks (n + 1) ++ s) := by
    apply takeUntil_word
    · intro c hc
      simp only [List.mem_singleton]
      rintro rfl
      exact hw hc
    · exact .cons (by simp)
  simp only [wordBeforeSpace?, h]
  simp [hne, blanks]

theorem wordBeforeSpace?_inv {s w r : List Char} (h : wordBeforeSpace? s = some (w, r)) :
    s = w ++ r ∧ w ≠ [] ∧ ' ' ∉ w ∧ r.head? = some ' ' := by
  have happ := takeUntil_append [' '] s
  simp only [wordBeforeSpace?] at h
  split at h
  · contradiction
  · next hne =>
    have h := Option.some.inj h
    rw [h] at happ hne
    simp only [Bool.or_eq_true, List.isEmpty_iff, not_or] at hne
    simp only [takeUntil, Prod.mk.injEq] at h
    refine ⟨happ.symm, hne.1, ?_, ?_⟩
    · intro hmem
      rw [← h.1] at hmem
      have := List.all_eq_true.1 List.all_takeWhile ' ' hmem
      simp at this
    · have hd := List.head?_dropWhile_not (!List.contains [' '] ·) s
      rw [h.2] at hd
      cases r with
      | nil => exact absurd rfl hne.2
      | cons c r => simpa using hd

theorem toLower_mem_of_sameWord {k w : List Char} (h : sameWord k w) {c : Char} (hc : c ∈ w) :
    c.toLower ∈ k.map Char.toLower := by
  have h : k.map Char.toLower = w.map Char.toLower := by simpa [sameWord] using h
  rw [h]
  exact List.mem_map_of_mem hc

theorem length_of_sameWord {k w : List Char} (h : sameWord k w) : k.length = w.length := by
  have h : k.map Char.toLower = w.map Char.toLower := by simpa [sameWord] using h
  simpa using congrArg List.length h

theorem endsKeyword_iff {s : List Char} : endsKeyword s ↔ StopsAt wordStops s := by
  cases s <;> simp [endsKeyword, StopsAt, wordStops, or_assoc]

theorem afterKeyword?_iff {k s r : List Char} :
    afterKeyword? k s = some r ↔ ∃ w, s = w ++ r ∧ sameWord k w ∧ StopsAt wordStops r := by
  induction k generalizing s with
  | nil =>
    simp only [afterKeyword?]
    constructor
    · intro h
      split at h
      · next hs =>
        cases Option.some.inj h
        exact ⟨[], rfl, rfl, endsKeyword_iff.1 hs⟩
      · contradiction
    · rintro ⟨w, rfl, hw, hr⟩
      have : w = [] := List.length_eq_zero_iff.1 (length_of_sameWord hw).symm
      simp [this, endsKeyword_iff.2 hr]
  | cons k ks ih =>
    cases s with
    | nil =>
      simp only [afterKeyword?, reduceCtorEq, false_iff]
      rintro ⟨w, hw, hs, _⟩
      simp_all [sameWord]
    | cons c s =>
      rw [afterKeyword?]
      constructor
      · intro h
        split at h
        · next hc =>
          obtain ⟨w, rfl, hw, hr⟩ := ih.1 h
          exact ⟨c :: w, rfl, by simp_all [sameWord], hr⟩
        · contradiction
      · rintro ⟨w, hw, hs, hr⟩
        cases w with
        | nil => simp [sameWord] at hs
        | cons d w =>
          simp only [List.cons_append, List.cons.injEq] at hw
          obtain ⟨rfl, rfl⟩ := hw
          simp only [sameWord, List.map_cons, List.cons.injEq, decide_eq_true_eq] at hs
          rw [if_pos hs.1]
          exact ih.2 ⟨w, rfl, by simpa [sameWord] using hs.2, hr⟩

theorem takeUntil_unique {stops v w r s : List Char} (hv : ∀ c ∈ v, c ∉ stops)
    (hw : ∀ c ∈ w, c ∉ stops) (hr : StopsAt stops r) (hs : StopsAt stops s)
    (h : v ++ r = w ++ s) : v = w ∧ r = s := by
  have h₁ := takeUntil_word hv hr
  rw [h, takeUntil_word hw hs] at h₁
  simp only [Prod.mk.injEq] at h₁
  exact ⟨h₁.1.symm, h₁.2.symm⟩

def keywords : List (List Char) :=
  [keywordAnd, keywordOr, keywordNot, keywordNull, keywordLike, keywordIn, keywordIs]

theorem not_mem_wordStops {k w : List Char} (hk : k ∈ keywords) (h : sameWord k w) :
    ∀ c ∈ w, c ∉ wordStops := by
  have hlower : ∀ k ∈ keywords, wordStops.all (·.toLower ∉ k.map Char.toLower) := by decide
  intro c hc hs
  have hno := of_decide_eq_true (List.all_eq_true.1 (hlower k hk) c hs)
  exact hno (toLower_mem_of_sameWord h hc)

theorem noSpace_of_sameWord {k w : List Char} (hk : k ∈ keywords) (h : sameWord k w) : ' ' ∉ w :=
  fun hs => not_mem_wordStops hk h ' ' hs (by decide)

theorem ne_nil_of_sameWord {k w : List Char} (hk : k ∈ keywords) (h : sameWord k w) : w ≠ [] := by
  have hlong : ∀ k ∈ keywords, k.length ≠ 0 := by decide
  rintro rfl
  exact hlong k hk (length_of_sameWord h)

theorem sameWord_iff {k l w : List Char} (hk : k ∈ keywords) (hl : l ∈ keywords)
    (h : sameWord k w) : sameWord l w ↔ l = k := by
  have hlower : ∀ k ∈ keywords, ∀ l ∈ keywords,
      l.map Char.toLower = k.map Char.toLower ↔ l = k := by decide
  have h : k.map Char.toLower = w.map Char.toLower := by simpa [sameWord] using h
  simp [sameWord, ← h, hlower k hk l hl]

theorem afterKeyword?_word {k w r : List Char} (hk : k ∈ keywords) (hw : sameWord k w)
    (hr : StopsAt wordStops r) {l : List Char} (hl : l ∈ keywords) :
    afterKeyword? l (w ++ r) = if l = k then some r else none := by
  split
  · next h =>
    subst h
    exact afterKeyword?_iff.2 ⟨w, rfl, hw, hr⟩
  · next h =>
    apply Option.eq_none_iff_forall_ne_some.2
    intro s hs
    obtain ⟨v, hv, hsame, hstop⟩ := afterKeyword?_iff.1 hs
    have := takeUntil_unique (not_mem_wordStops hk hw) (not_mem_wordStops hl hsame) hr hstop hv
    rw [← this.1] at hsame
    exact h ((sameWord_iff hk hl hw).1 hsame)

end DocQuery.Query
