import DocQuery.Proofs.Engine

namespace DocQuery

namespace Query

inductive Expr.All (P : Condition → Prop) : Expr → Prop
  | condition {c} : P c → Expr.All P (.condition c)
  | group {logic members} : (∀ e ∈ members, Expr.All P e) → Expr.All P (.group logic members)

def Relation.accepts : Relation → Ordering → Bool
  | .gt => Ordering.isGT
  | .gte => Ordering.isGE
  | .lt => Ordering.isLT
  | .lte => Ordering.isLE

def Relation.Holds (r : Relation) : Json → Json → Prop
  | .bool a, .bool b => r.accepts (compare a b)
  | .number a, .number b => r.accepts (a.toBinary64.order b.toBinary64)
  | .string a, .string b => r.accepts (compare a b)
  | _, _ => False

end Query

namespace Filter

open Query (Relation Predicate Condition Expr)
open Regex (Engine LawfulEngine)

/-- Equality of a field with a value.  A missing field counts as null, and an array
also stands for its items unless the value is an array itself. -/
inductive FieldIs : Option Json → Json → Prop
  | value {field v} : (field.getD .null).equal v → FieldIs field v
  | item {items v x} : ¬ v.isArray → x ∈ items → x.equal v → FieldIs (some (.array items)) v

/-- The values a field offers for a comparison: its own and the items of an array. -/
inductive Offers : Option Json → Json → Prop
  | value {v} : Offers (some v) v
  | item {items x} : x ∈ items → Offers (some (.array items)) x

def Short : Predicate → Prop
  | .like p => (regexOfWildcard p).utf8ByteSize ≤ patternLimit
  | .notLike p => (regexOfWildcard p).utf8ByteSize ≤ patternLimit
  | _ => True

def Decides (result : Except QueryError Bool) (P : Prop) : Prop :=
  ∃ b, result = .ok b ∧ (b = true ↔ P)

theorem Decides.ok {b : Bool} {P : Prop} (h : b = true ↔ P) : Decides (.ok b) P := ⟨b, rfl, h⟩

theorem Decides.congr {result : Except QueryError Bool} {P Q : Prop} (h : Decides result P)
    (hpq : P ↔ Q) : Decides result Q := by
  obtain ⟨b, hb, hp⟩ := h
  exact ⟨b, hb, hp.trans hpq⟩

theorem Decides.not {result : Except QueryError Bool} {P : Prop} (h : Decides result P) :
    Decides (result.map (!·)) (¬ P) := by
  obtain ⟨b, rfl, hp⟩ := h
  refine ⟨!b, rfl, ?_⟩
  rw [← hp]
  cases b <;> simp

theorem Decides.and {first second : Except QueryError Bool} {P Q : Prop} (hp : Decides first P)
    (hq : Decides second Q) :
    Decides (do if ← first then second else return false) (P ∧ Q) := by
  obtain ⟨a, rfl, hp⟩ := hp
  obtain ⟨b, rfl, hq⟩ := hq
  cases a with
  | true => exact ⟨b, rfl, by simp [← hp, hq]⟩
  | false => exact ⟨false, rfl, by simp [← hp]⟩

theorem Decides.or {first second : Except QueryError Bool} {P Q : Prop} (hp : Decides first P)
    (hq : Decides second Q) :
    Decides (do if ← first then return true else second) (P ∨ Q) := by
  obtain ⟨a, rfl, hp⟩ := hp
  obtain ⟨b, rfl, hq⟩ := hq
  cases a with
  | true => exact ⟨true, rfl, by simp [← hp]⟩
  | false => exact ⟨b, rfl, by simp [← hp, hq]⟩

theorem bind_ok_true (result : Except QueryError Bool) :
    (do if ← result then .ok true else return false) = result := by
  cases result with
  | error e => rfl
  | ok b => cases b <;> rfl

theorem equal_null (v : Json) : Json.null.equal v = v.isNull := by
  cases v <;> simp [Json.equal, Json.same, Json.isNull]

theorem equal_of_not_isArray {items : List Json} {v : Json} (h : ¬ v.isArray) :
    (Json.array items).equal v = false := by
  cases v <;> simp_all [Json.equal, Json.same, Json.isArray]

theorem fieldEquals_iff (field : Option Json) (v : Json) :
    fieldEquals field v = true ↔ FieldIs field v := by
  constructor
  · intro h
    unfold fieldEquals at h
    split at h
    · exact .value (by simpa [equal_null] using h)
    · exact .value (by simpa [equal_null] using h)
    · split at h
      · exact .value h
      · next hv =>
        obtain ⟨x, hx, he⟩ := List.any_eq_true.1 h
        exact .item hv hx he
    · exact .value h
  · intro h
    cases h with
    | value h =>
      unfold fieldEquals
      split
      · simpa [equal_null] using h
      · simpa [equal_null] using h
      · split
        · exact h
        · next hv => simp [equal_of_not_isArray hv] at h
      · exact h
    | item hv hx he => simpa [fieldEquals, hv] using ⟨_, hx, he⟩

theorem any_order?_iff (v bound : Json) (r : Relation) :
    (v.order? bound).any r.accepts = true ↔ r.Holds v bound := by
  cases v <;> cases bound <;> simp [Json.order?, Relation.Holds]

theorem fieldCompares_iff (field : Option Json) (bound : Json) (r : Relation) :
    fieldCompares field bound r.accepts = true ↔ ∃ v, Offers field v ∧ r.Holds v bound := by
  constructor
  · intro h
    unfold fieldCompares at h
    split at h
    · contradiction
    · obtain ⟨x, hx, he⟩ := List.any_eq_true.1 h
      exact ⟨x, .item hx, (any_order?_iff x bound r).1 he⟩
    · next v _ => exact ⟨v, .value, (any_order?_iff v bound r).1 h⟩
  · rintro ⟨v, hv, hr⟩
    cases hv with
    | value =>
      cases v with
      | array items => simp [Relation.Holds] at hr
      | _ => exact (any_order?_iff _ bound r).2 hr
    | item hx => exact List.any_eq_true.2 ⟨v, hx, (any_order?_iff v bound r).2 hr⟩

theorem isMember_decides (filter : Json) (field : Option Json) (vs : List Json) :
    Decides (isMember filter field (.array vs)) (∃ v ∈ vs, FieldIs field v) := by
  apply Decides.ok
  simp [List.any_eq_true, fieldEquals_iff]

theorem fieldEquals_decides (field : Option Json) (v : Json) :
    Decides (.ok (fieldEquals field v)) (FieldIs field v) := .ok (fieldEquals_iff field v)

def actsAsOperators : Json → Bool
  | .object fs => isOperators fs
  | _ => false

section

variable [Engine]

def MatchesWildcard (pattern s : String) : Prop :=
  ∃ r, Engine.compile (regexOfWildcard pattern) = .ok r ∧ Engine.isMatch r s

def Says (field : Option Json) : Predicate → Prop
  | .eq v => FieldIs field v
  | .ne v => ¬ FieldIs field v
  | .compare r bound => ∃ v, Offers field v ∧ r.Holds v bound
  | .like p => ∃ s, Offers field (.string s) ∧ MatchesWildcard p s
  | .notLike p => ¬ ∃ s, Offers field (.string s) ∧ MatchesWildcard p s
  | .isIn vs => ∃ v ∈ vs, FieldIs field v
  | .notIn vs => ¬ ∃ v ∈ vs, FieldIs field v
  | .isNull => FieldIs field .null
  | .isNotNull => ¬ FieldIs field .null

inductive Selects (document : Json) : Expr → Prop
  | condition {c} : Says (document.at? c.field) c.predicate → Selects document (.condition c)
  | all {members} : (∀ e ∈ members, Selects document e) → Selects document (.group .and members)
  | any {members e} : e ∈ members → Selects document e → Selects document (.group .or members)

theorem stringMatches_iff (r : Engine.Program) (v : Json) :
    stringMatches r v = true ↔ ∃ s, v = .string s ∧ Engine.isMatch r s := by
  cases v <;> simp [stringMatches]

theorem readPattern_of_compile {pattern : String} {r : Engine.Program}
    (hlimit : pattern.utf8ByteSize ≤ patternLimit) (hr : Engine.compile pattern = .ok r) :
    readPattern pattern = .ok r := by
  rw [readPattern, if_neg (Nat.not_lt.2 hlimit), hr]

theorem compile_regexOfWildcard [LawfulEngine] {p : String}
    (hp : (regexOfWildcard p).utf8ByteSize ≤ patternLimit) :
    ∃ r, Engine.compile (regexOfWildcard p) = .ok r := by
  rw [regexOfWildcard_eq] at hp ⊢
  exact LawfulEngine.compile_ok _ hp

theorem matchesWildcard_iff {p : String} {r : Engine.Program}
    (hr : Engine.compile (regexOfWildcard p) = .ok r) (s : String) :
    MatchesWildcard p s ↔ Engine.isMatch r s := by
  simp [MatchesWildcard, hr]

theorem fieldMatches_decides [LawfulEngine] {p : String}
    (hp : (regexOfWildcard p).utf8ByteSize ≤ patternLimit) (filter : Json) (field : Option Json) :
    Decides (fieldMatches filter field (.string (regexOfWildcard p)))
      (∃ s, Offers field (.string s) ∧ MatchesWildcard p s) := by
  obtain ⟨r, hr⟩ := compile_regexOfWildcard hp
  rw [fieldMatches, readPattern_of_compile hp hr]
  simp only [matchesWildcard_iff hr]
  refine Decides.ok ⟨?_, ?_⟩
  · intro h
    dsimp only at h
    split at h
    · obtain ⟨v, hv, hm⟩ := List.any_eq_true.1 h
      obtain ⟨s, rfl, hs⟩ := (stringMatches_iff _ v).1 hm
      exact ⟨s, .item hv, hs⟩
    · obtain ⟨s, rfl, hs⟩ := (stringMatches_iff _ _).1 h
      exact ⟨s, .value, hs⟩
    · contradiction
  · rintro ⟨s, hv, hs⟩
    cases hv with
    | value => exact (stringMatches_iff _ _).2 ⟨s, rfl, hs⟩
    | item hx => exact List.any_eq_true.2 ⟨_, hx, (stringMatches_iff _ _).2 ⟨s, rfl, hs⟩⟩

theorem operatorsHold_single (filter : Json) (field : Option Json) (name : String) (arg : Json) :
    operatorsHold filter field [(name, arg)] = operatorHolds filter field name arg := by
  rw [operatorsHold, operatorsHold, bind_ok_true]

theorem clauseHolds_single {filter : Json} {field : Option Json} {name : String} {arg : Json}
    {P : Prop} (hn : isOperatorName name) (h : Decides (operatorHolds filter field name arg) P) :
    Decides (clauseHolds filter field (single name arg)) P := by
  simpa [clauseHolds, single, isOperators, hn, operatorsHold_single] using h

theorem clauseHolds_value {v : Json} (h : ¬ actsAsOperators v) (filter : Json)
    (field : Option Json) : clauseHolds filter field v = .ok (fieldEquals field v) := by
  cases v with
  | object fs =>
    have hops : ¬ isOperators fs := h
    rw [clauseHolds, if_neg hops]
  | _ => rfl

theorem clauseHolds_equalityClause (filter : Json) (field : Option Json) (v : Json) :
    clauseHolds filter field (equalityClause v) = .ok (fieldEquals field v) := by
  unfold equalityClause
  split
  · next fs =>
    split
    · simp [clauseHolds, single, isOperators, isOperatorName, operatorsHold_single, operatorHolds]
    · next hany =>
      apply clauseHolds_value
      cases fs with
      | nil => simp [actsAsOperators, isOperators]
      | cons f fs => simp_all [actsAsOperators, isOperators]
  · next hv =>
    apply clauseHolds_value
    cases v with
    | object fs => exact absurd rfl (hv fs)
    | _ => simp [actsAsOperators]

theorem operatorHolds_relationKey (filter : Json) (field : Option Json) (r : Relation)
    (bound : Json) :
    operatorHolds filter field (relationKey r) bound =
      .ok (fieldCompares field bound r.accepts) := by
  cases r <;> rw [relationKey, operatorHolds] <;> congr <;> funext o <;> cases o <;> rfl

theorem negation_decides (filter : Json) (field : Option Json) (v : Json) :
    Decides (operatorHolds filter field "$ne" v) (¬ FieldIs field v) := by
  simpa [operatorHolds, Except.map] using (fieldEquals_decides field v).not

theorem regex_decides [LawfulEngine] {p : String}
    (hp : (regexOfWildcard p).utf8ByteSize ≤ patternLimit) (filter : Json) (field : Option Json) :
    Decides (operatorHolds filter field "$regex" (.string (regexOfWildcard p)))
      (∃ s, Offers field (.string s) ∧ MatchesWildcard p s) := by
  simpa [operatorHolds] using fieldMatches_decides hp filter field

theorem clause_decides [LawfulEngine] {p : Predicate} (hp : Short p) (filter : Json)
    (field : Option Json) :
    Decides (clauseHolds filter field (clause p)) (Says field p) := by
  cases p with
  | eq v =>
    rw [clause, clauseHolds_equalityClause]
    exact fieldEquals_decides field v
  | ne v => exact clauseHolds_single (by decide) (negation_decides filter field v)
  | compare r bound =>
    refine clauseHolds_single (by cases r <;> decide) ?_
    rw [operatorHolds_relationKey]
    exact .ok (fieldCompares_iff field bound r)
  | like p => exact clauseHolds_single (by decide) (regex_decides hp filter field)
  | notLike p =>
    have h := (regex_decides hp filter field).not
    rw [← operatorsHold_single] at h
    refine clauseHolds_single (by decide) ?_
    simpa [operatorHolds, single, isOperators, isOperatorName, Says] using h
  | isIn vs => exact clauseHolds_single (by decide) (isMember_decides filter field vs)
  | notIn vs => exact clauseHolds_single (by decide) (isMember_decides filter field vs).not
  | isNull => exact fieldEquals_decides field .null
  | isNotNull => exact clauseHolds_single (by decide) (negation_decides filter field .null)

theorem fieldsHold_cons {document filter : Json} {key : String} {c : Json}
    {fs : List (String × Json)} (hk : ¬ isOperatorName key) :
    fieldsHold document filter ((key, c) :: fs) = do
      if ← clauseHolds filter (document.at? key) c then fieldsHold document filter fs
      else return false := by
  have hand : key ≠ "$and" := by
    rintro rfl
    exact hk (by decide)
  have hor : key ≠ "$or" := by
    rintro rfl
    exact hk (by decide)
  rw [fieldsHold.eq_def]
  simp only [if_neg hand, if_neg hor, if_neg hk]

section

variable (document filter : Json)

theorem fieldsHold_field {key : String} (hk : ¬ isOperatorName key) (c : Json) :
    fieldsHold document filter [(key, c)] = clauseHolds filter (document.at? key) c := by
  rw [fieldsHold_cons hk, fieldsHold, bind_ok_true]

theorem fieldsHold_and (subs : List Json) :
    fieldsHold document filter [("$and", .array subs)] = allHold document subs := by
  rw [fieldsHold, fieldsHold]
  exact bind_ok_true _

theorem fieldsHold_or (subs : List Json) :
    fieldsHold document filter [("$or", .array subs)] = anyHolds document subs := by
  rw [fieldsHold, fieldsHold]
  exact bind_ok_true _

end

theorem holds_single {field : String} (hf : ¬ isOperatorName field) (c document : Json) :
    holds document (single field c) = clauseHolds (single field c) (document.at? field) c := by
  rw [single, holds, fieldsHold_field _ _ hf]

theorem ofCondition_decides [LawfulEngine] {c : Condition} (hf : ¬ isOperatorName c.field)
    (hp : Short c.predicate) (document : Json) :
    Decides (holds document (ofCondition c)) (Says (document.at? c.field) c.predicate) := by
  rw [ofCondition, holds_single hf]
  exact clause_decides hp _ _

theorem holds_equation {key : String} (hk : ¬ isOperatorName key) (document v : Json) :
    holds document (ofCondition ⟨key, .eq v⟩) = .ok (fieldEquals (document.at? key) v) := by
  rw [ofCondition, holds_single hk, clause, clauseHolds_equalityClause]

theorem allHold_decides {document : Json} {members : List Expr}
    (h : ∀ e ∈ members, Decides (holds document (ofExpr e)) (Selects document e)) :
    Decides (allHold document (ofExprs members)) (∀ e ∈ members, Selects document e) := by
  induction members with
  | nil => exact .ok (by simp)
  | cons e es ih =>
    have hes := ih fun e he => h e (List.mem_cons_of_mem _ he)
    have hand := (h e List.mem_cons_self).and hes
    rw [ofExprs, allHold]
    exact hand.congr List.forall_mem_cons.symm

theorem anyHolds_decides {document : Json} {members : List Expr}
    (h : ∀ e ∈ members, Decides (holds document (ofExpr e)) (Selects document e)) :
    Decides (anyHolds document (ofExprs members)) (∃ e ∈ members, Selects document e) := by
  induction members with
  | nil => exact .ok (by simp)
  | cons e es ih =>
    have hes := ih fun e he => h e (List.mem_cons_of_mem _ he)
    have hor := (h e List.mem_cons_self).or hes
    rw [ofExprs, anyHolds]
    exact hor.congr (by simp)

theorem selects_condition {document : Json} {c : Condition} :
    Selects document (.condition c) ↔ Says (document.at? c.field) c.predicate :=
  ⟨fun h => by cases h; assumption, .condition⟩

theorem selects_and {document : Json} {members : List Expr} :
    Selects document (.group .and members) ↔ ∀ e ∈ members, Selects document e :=
  ⟨fun h => by cases h; assumption, .all⟩

theorem selects_or {document : Json} {members : List Expr} :
    Selects document (.group .or members) ↔ ∃ e ∈ members, Selects document e :=
  ⟨fun h => by cases h with | any he hs => exact ⟨_, he, hs⟩, fun ⟨_, he, hs⟩ => .any he hs⟩

theorem holds_single_and (document : Json) (subs : List Json) :
    holds document (single "$and" (.array subs)) = allHold document subs := by
  rw [single, holds, fieldsHold_and]

theorem holds_single_or (document : Json) (subs : List Json) :
    holds document (single "$or" (.array subs)) = anyHolds document subs := by
  rw [single, holds, fieldsHold_or]

/-- Evaluating the filter of an expression never fails, and finds out whether the
expression is true of the document. -/
theorem holds_ofExpr [LawfulEngine] {e : Expr}
    (he : e.All fun c => ¬ isOperatorName c.field ∧ Short c.predicate) (document : Json) :
    ∃ b, holds document (ofExpr e) = .ok b ∧ (b = true ↔ Selects document e) := by
  induction he with
  | condition hc => exact (ofCondition_decides hc.1 hc.2 document).congr selects_condition.symm
  | @group logic members _ ih =>
    cases logic with
    | and =>
      rw [ofExpr, logicKey, holds_single_and]
      exact (allHold_decides ih).congr selects_and.symm
    | or =>
      rw [ofExpr, logicKey, holds_single_or]
      exact (anyHolds_decides ih).congr selects_or.symm

end

def operatorLike : Json := .object [("$gt", .int 1)]

def mixedExpr : Expr :=
  .group .and [
    .group .or [.condition ⟨"name", .notLike "a?c%"⟩, .condition ⟨"meta", .eq operatorLike⟩],
    .condition ⟨"owner.age", .compare .gte (.int 18)⟩]

def mixedDocument : Json :=
  .object [("name", .string "abcd"), ("meta", .array [.null, operatorLike]),
    ("owner", .object [("age", .int 18)])]

theorem holds_mixedExpr :
    (mixedExpr.All fun c => ¬ isOperatorName c.field ∧ Short c.predicate) ∧
    Selects mixedDocument mixedExpr ∧ holds mixedDocument (ofExpr mixedExpr) = .ok true := by
  have he : mixedExpr.All fun c => ¬ isOperatorName c.field ∧ Short c.predicate := by
    refine .group ?_
    simp only [List.forall_mem_cons, List.not_mem_nil, false_implies, implies_true, and_true]
    refine ⟨.group ?_, .condition ⟨by decide, trivial⟩⟩
    simp only [List.forall_mem_cons, List.not_mem_nil, false_implies, implies_true, and_true]
    exact ⟨.condition ⟨by decide, show String.utf8ByteSize _ ≤ _ by decide⟩,
      .condition ⟨by decide, trivial⟩⟩
  have hs : Selects mixedDocument mixedExpr := by
    refine .all ?_
    simp only [List.forall_mem_cons, List.not_mem_nil, false_implies, implies_true, and_true]
    refine ⟨.any (List.mem_cons_of_mem _ List.mem_cons_self) (.condition ?_), .condition ?_⟩
    · have hmeta : mixedDocument.at? "meta" = some (.array [.null, operatorLike]) := rfl
      show FieldIs _ _
      rw [hmeta]
      exact .item (x := operatorLike) (by decide) (by simp) (by decide)
    · have hage : mixedDocument.at? "owner.age" = some (.int 18) := rfl
      show ∃ v, _
      rw [hage]
      exact ⟨_, .value, show _ = true by decide +kernel⟩
  obtain ⟨b, hb, hiff⟩ := holds_ofExpr he mixedDocument
  rw [hiff.2 hs] at hb
  exact ⟨he, hs, hb⟩

end Filter

end DocQuery
