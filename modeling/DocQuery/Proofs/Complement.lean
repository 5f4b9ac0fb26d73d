import DocQuery.Proofs.Selection

namespace DocQuery.Filter

open Query (Predicate)
open Regex (Engine LawfulEngine)

inductive Complementary : Predicate → Predicate → Prop
  | equality (v : Json) : Complementary (.eq v) (.ne v)
  | membership (vs : List Json) : Complementary (.isIn vs) (.notIn vs)
  | pattern (p : String) : Complementary (.like p) (.notLike p)
  | nullness : Complementary .isNull .isNotNull

theorem Complementary.short_iff {p q : Predicate} (h : Complementary p q) : Short q ↔ Short p := by
  cases h <;> exact Iff.rfl

theorem Decides.opposite {first second : Except QueryError Bool} {P : Prop} (hp : Decides first P)
    (hq : Decides second (¬ P)) : ∃ b, first = .ok b ∧ second = .ok (!b) := by
  obtain ⟨a, rfl, ha⟩ := hp
  obtain ⟨b, rfl, hb⟩ := hq
  refine ⟨a, rfl, congrArg Except.ok ?_⟩
  rw [Bool.eq_iff_iff, hb, ← ha]
  simp

section

variable [Engine]

theorem Complementary.says_iff {p q : Predicate} (h : Complementary p q) (field : Option Json) :
    Says field q ↔ ¬ Says field p := by
  cases h <;> exact Iff.rfl

theorem clauseHolds_operator {name : String} (hn : isOperatorName name) (filter : Json)
    (field : Option Json) (arg : Json) :
    clauseHolds filter field (single name arg) = operatorHolds filter field name arg := by
  simp [clauseHolds, single, isOperators, hn, operatorsHold_single]

theorem operatorHolds_regex_of_long {p : String} (hp : ¬ Short (.like p)) (filter : Json)
    (field : Option Json) :
    operatorHolds filter field "$regex" (.string (regexOfWildcard p)) =
      .error (.invalidPattern (regexOfWildcard p) .tooLong) := by
  have hlong : patternLimit < (regexOfWildcard p).utf8ByteSize := Nat.lt_of_not_le hp
  simp [operatorHolds, fieldMatches, readPattern, hlong, Except.map]

theorem clauseHolds_like_of_long {p : String} (hp : ¬ Short (.like p)) (filter : Json)
    (field : Option Json) :
    clauseHolds filter field (clause (.like p)) =
      .error (.invalidPattern (regexOfWildcard p) .tooLong) := by
  rw [clause, clauseHolds_operator (by decide), operatorHolds_regex_of_long hp]

theorem clauseHolds_notLike_of_long {p : String} (hp : ¬ Short (.like p)) (filter : Json)
    (field : Option Json) :
    clauseHolds filter field (clause (.notLike p)) =
      .error (.invalidPattern (regexOfWildcard p) .tooLong) := by
  have hregex := operatorHolds_regex_of_long hp filter field
  rw [← operatorsHold_single] at hregex
  rw [clause, clauseHolds_operator (by decide)]
  simp [operatorHolds, single, isOperators, isOperatorName, hregex, Except.map]

/-- Of a predicate and its complement one is true of a document and the other is not.  If
their pattern is too long, both are refused for it. -/
theorem holds_complementary [LawfulEngine] {field : String} (hf : ¬ isOperatorName field)
    {p q : Predicate} (h : Complementary p q) (document : Json) :
    (Short p ∧ ∃ b, holds document (ofCondition ⟨field, p⟩) = .ok b ∧
      holds document (ofCondition ⟨field, q⟩) = .ok (!b)) ∨
    ∃ pattern, p = .like pattern ∧ patternLimit < (regexOfWildcard pattern).utf8ByteSize ∧
      holds document (ofCondition ⟨field, p⟩) =
        .error (.invalidPattern (regexOfWildcard pattern) .tooLong) ∧
      holds document (ofCondition ⟨field, q⟩) =
        .error (.invalidPattern (regexOfWildcard pattern) .tooLong) := by
  by_cases hp : Short p
  · have hfirst := ofCondition_decides (c := ⟨field, p⟩) hf hp document
    have hsecond := ofCondition_decides (c := ⟨field, q⟩) hf (h.short_iff.2 hp) document
    exact .inl ⟨hp, hfirst.opposite (hsecond.congr (h.says_iff _))⟩
  · cases h with
    | pattern pattern =>
      refine .inr ⟨pattern, rfl, Nat.lt_of_not_le hp, ?_, ?_⟩
      · rw [ofCondition, holds_single hf, clauseHolds_like_of_long hp]
      · rw [ofCondition, holds_single hf, clauseHolds_notLike_of_long hp]
    | _ => exact absurd trivial hp

end

theorem holds_complementary_operatorLike :
    ¬ isOperatorName "meta" ∧ Complementary (.eq operatorLike) (.ne operatorLike) ∧
    holds mixedDocument (ofCondition ⟨"meta", .eq operatorLike⟩) = .ok true ∧
    holds mixedDocument (ofCondition ⟨"meta", .ne operatorLike⟩) = .ok false := by
  have hf : ¬ isOperatorName "meta" := by decide
  have heq : holds mixedDocument (ofCondition ⟨"meta", .eq operatorLike⟩) = .ok true := rfl
  refine ⟨hf, .equality _, heq, ?_⟩
  obtain ⟨_, b, hb, hne⟩ | ⟨_, hlike, _⟩ :=
    holds_complementary hf (.equality operatorLike) mixedDocument
  · rw [heq] at hb
    cases hb
    exact hne
  · contradiction

end DocQuery.Filter
