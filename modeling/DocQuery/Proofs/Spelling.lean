import DocQuery.Proofs.WellFormed

namespace DocQuery.Query

inductive OperatorText : Operator → List Char → Prop
  | eq : OperatorText .eq ['=']
  | eqEq : OperatorText .eq ['=', '=']
  | ne : OperatorText .ne ['!', '=']
  | ltGt : OperatorText .ne ['<', '>']
  | gt : OperatorText (.compare .gt) ['>']
  | gte : OperatorText (.compare .gte) ['>', '=']
  | lt : OperatorText (.compare .lt) ['<']
  | lte : OperatorText (.compare .lte) ['<', '=']
  | like {w} : sameWord keywordLike w → OperatorText .like w
  | isIn {w} : sameWord keywordIn w → OperatorText .isIn w
  | notLike {v w n} : sameWord keywordNot v → sameWord keywordLike w →
      OperatorText .notLike (v ++ blanks (n + 1) ++ w)
  | notIn {v w n} : sameWord keywordNot v → sameWord keywordIn w →
      OperatorText .notIn (v ++ blanks (n + 1) ++ w)
  | isNull {v w n} : sameWord keywordIs v → sameWord keywordNull w →
      OperatorText .isNull (v ++ blanks (n + 1) ++ w)
  | isNotNull {u v w m n} : sameWord keywordIs u → sameWord keywordNot v →
      sameWord keywordNull w →
      OperatorText .isNotNull (u ++ blanks (m + 1) ++ v ++ blanks (n + 1) ++ w)

structure Quotable (s : List Char) : Prop where
  escaped : ∀ u v, s = u ++ '\'' :: v → u.getLast? = some '\\'
  unescaped : s.getLast? ≠ some '\\'

inductive ValueText (params : List Json) : Json → List Char → Prop
  | parameter {i v} : params[i]? = some v → i + 1 < 2 ^ 64 →
      ValueText params v ('?' :: Nat.toDigits 10 (i + 1))
  | quoted {s} : Quotable s → ValueText params (.string (String.ofList s)) ('\'' :: s ++ ['\''])

inductive ConditionText (params : List Json) : Condition → List Char → Prop
  | value {c o v s t m n} : c.predicate.operator = (o, some v) → OperatorText o s →
      ValueText params v t →
      ConditionText params c (c.field.toList ++ blanks (m + 1) ++ s ++ blanks (n + 1) ++ t)
  | noValue {c o s m} : c.predicate.operator = (o, none) → OperatorText o s →
      ConditionText params c (c.field.toList ++ blanks (m + 1) ++ s)

mutual

/-- A member of a group, and whether it is in brackets.  At most so many brackets
are open at once. -/
inductive TermText (params : List Json) : Nat → Bool → Expr → List Char → Prop
  | condition {n c s} : ConditionText params c s → TermText params n false (.condition c) s
  | bracket {n e s} : GroupText params n e s → TermText params (n + 1) true e ('(' :: s ++ [')'])

inductive GroupText (params : List Json) : Nat → Expr → List Char → Prop
  | term {n b e s i j} : TermText params n b e s → GroupText params n e (blanks i ++ s ++ blanks j)
  | members {n b e es logic s t i} : TermText params n b e s → MembersText params n logic b es t →
      GroupText params n (.group logic (e :: es)) (blanks i ++ s ++ t)

/-- What follows a member up to the end of its group.  A space is needed on either
side of a connective unless there is a bracket. -/
inductive MembersText (params : List Json) : Nat → Logic → Bool → List Expr → List Char → Prop
  | nil {n logic b i} : MembersText params n logic b [] (blanks i)
  | cons {n logic e es w s t i j} {b b' : Bool} : b ∨ 0 < i → sameWord (connective logic) w →
      b' ∨ 0 < j → TermText params n b' e s → MembersText params n logic b' es t →
      MembersText params n logic b (e :: es) (blanks i ++ w ++ blanks j ++ s ++ t)

end

end DocQuery.Query
