import DocQuery.Proofs.Words

namespace DocQuery.Query

def connective : Logic → List Char
  | .and => keywordAnd
  | .or => keywordOr

theorem connective_mem (logic : Logic) : connective logic ∈ keywords := by
  cases logic <;> decide

structure FieldName (s : List Char) : Prop where
  nonempty : s ≠ []
  noSpace : ' ' ∉ s
  noBracket : s.head? ≠ some '(' ∧ s.head? ≠ some ')'
  noConnective : ∀ logic w r, s = w ++ r → sameWord (connective logic) w → ¬ StopsAt ['(', ')'] r

inductive Expr.WellFormed : Nat → Expr → Prop
  | condition {n c} : FieldName c.field.toList → Expr.WellFormed n (.condition c)
  | group {n logic members} : 2 ≤ members.length → (∀ e ∈ members, Expr.WellFormed n e) →
      Expr.WellFormed (n + 1) (.group logic members)

theorem Expr.WellFormed.succ {n : Nat} {e : Expr} (h : e.WellFormed n) : e.WellFormed (n + 1) := by
  induction h with
  | condition hf => exact .condition hf
  | group hlen _ ih => exact .group hlen ih

theorem FieldName.skipBlanks {f : List Char} (h : FieldName f) (n : Nat) (r : List Char) :
    skipBlanks (blanks n ++ (f ++ r)) = f ++ r := by
  rw [skipBlanks_blanks]
  apply skipBlanks_of_head?
  cases f with
  | nil => exact absurd rfl h.nonempty
  | cons c f =>
    simp only [List.cons_append, List.head?_cons, ne_eq, Option.some.injEq]
    rintro rfl
    exact h.noSpace List.mem_cons_self

theorem atKeyword_iff {k s : List Char} :
    atKeyword k s ↔ ∃ w r, s = w ++ r ∧ sameWord k w ∧ StopsAt wordStops r := by
  simp only [atKeyword, Option.isSome_iff_exists, afterKeyword?_iff]
  exact exists_comm

theorem atKeyword_append {k f t : List Char} (hk : k ∈ keywords) (ht : t.head? = some ' ') :
    atKeyword k (f ++ t) = atKeyword k f := by
  -- a keyword ends in front of a space, so it is looked for in the word before it only
  rw [Bool.eq_iff_iff, atKeyword_iff, atKeyword_iff]
  constructor
  · rintro ⟨w, r, hw, hsame, hr⟩
    obtain ⟨u, rfl, rfl⟩ | ⟨u, rfl, rfl⟩ := List.append_eq_append_iff.1 hw
    · cases u with
      | nil => exact ⟨f, [], by simp, by simpa using hsame, .nil⟩
      | cons c u =>
        simp only [List.cons_append, List.head?_cons, Option.some.injEq] at ht
        exact absurd (by simp [ht]) (noSpace_of_sameWord hk hsame)
    · refine ⟨w, u, rfl, hsame, ?_⟩
      cases u with
      | nil => exact .nil
      | cons c u => exact .cons (hr c rfl)
  · rintro ⟨w, r, rfl, hsame, hr⟩
    refine ⟨w, r ++ t, by simp, hsame, ?_⟩
    cases r with
    | nil =>
      intro c hc
      rw [List.nil_append, ht] at hc
      simp [wordStops, ← Option.some.inj hc]
    | cons c r => exact .cons (hr c rfl)

theorem fieldName_iff {f : List Char} :
    FieldName f ↔ f ≠ [] ∧ ' ' ∉ f ∧ (f.head? ≠ some '(' ∧ f.head? ≠ some ')') ∧
      ∀ logic, atKeyword (connective logic) f = false := by
  constructor
  · rintro ⟨hne, hsp, hb, hk⟩
    refine ⟨hne, hsp, hb, fun logic => Bool.eq_false_iff.2 fun h => ?_⟩
    obtain ⟨w, r, rfl, hw, hr⟩ := atKeyword_iff.1 h
    apply hk logic w r rfl hw
    intro c hc
    have hmem := hr c hc
    have hne : c ≠ ' ' := by
      rintro rfl
      exact hsp (List.mem_append_right w (List.mem_of_mem_head? hc))
    simpa [wordStops, hne] using hmem
  · rintro ⟨hne, hsp, hb, hk⟩
    refine ⟨hne, hsp, hb, fun logic w r hf hw hr => ?_⟩
    have h : atKeyword (connective logic) f :=
      atKeyword_iff.2 ⟨w, r, hf, hw, hr.mono (by decide)⟩
    rw [hk logic] at h
    contradiction

instance : DecidablePred FieldName := fun f =>
  decidable_of_iff (f ≠ [] ∧ ' ' ∉ f ∧ (f.head? ≠ some '(' ∧ f.head? ≠ some ')') ∧
      atKeyword keywordAnd f = false ∧ atKeyword keywordOr f = false) <| by
    rw [fieldName_iff]
    constructor
    · rintro ⟨hne, hsp, hb, hand, hor⟩
      exact ⟨hne, hsp, hb, fun logic => by cases logic <;> assumption⟩
    · rintro ⟨hne, hsp, hb, hk⟩
      exact ⟨hne, hsp, hb, hk .and, hk .or⟩

theorem fieldName_iff_of_word {s f t : List Char} (h : wordBeforeSpace? s = some (f, t)) :
    FieldName f ↔ (s.head? ≠ some '(' ∧ s.head? ≠ some ')') ∧
      ∀ logic, atKeyword (connective logic) s = false := by
  obtain ⟨rfl, hne, hsp, ht⟩ := wordBeforeSpace?_inv h
  have hhead : (f ++ t).head? = f.head? := by
    cases f with
    | nil => contradiction
    | cons c f => rfl
  simp only [fieldName_iff, hhead, atKeyword_append (connective_mem _) ht]
  exact ⟨fun ⟨_, _, h⟩ => h, fun h => ⟨hne, hsp, h⟩⟩

end DocQuery.Query
