import DocQuery.Proofs.Complement
import DocQuery.Proofs.Equality
import DocQuery.Regex.Reader

namespace DocQuery

namespace Json

def Comparable : Json → Json → Prop
  | number _, number _ | string _, string _ | bool _, bool _ => True
  | _, _ => False

instance (v w : Json) : Decidable (v.Comparable w) := by
  unfold Comparable
  split <;> infer_instance

theorem comparable_iff_exists {v w : Json} : v.Comparable w ↔ ∃ o, v.order? w = some o := by
  cases v <;> cases w <;> simp [Comparable, order?]

theorem order?_of_not_comparable {v w : Json} (h : ¬ v.Comparable w) : v.order? w = none := by
  rwa [comparable_iff_exists, ← Option.isSome_iff_exists, Option.not_isSome_iff_eq_none] at h

theorem not_isArray_of_comparable {v w : Json} (h : v.Comparable w) : ¬ v.isArray := by
  cases v with
  | array items => cases w <;> contradiction
  | _ => simp [isArray]

theorem equal_eq_order? {w : Json} (hw : w.isScalar) (v : Json) :
    v.equal w = (v.order? w).any (· == .eq) := by
  rw [Bool.eq_iff_iff]
  cases w with
  | bool b => cases v <;> simp [equal, same, order?]
  | number n => cases v <;> simp [equal, same, order?, Binary64.order]
  | string s => cases v <;> simp [equal, same, order?]
  | _ => contradiction

end Json

namespace Filter

open Query (Relation Predicate)

theorem fieldCompares_some {v : Json} (h : ¬ v.isArray) (bound : Json) (p : Ordering → Bool) :
    fieldCompares (some v) bound p = (v.order? bound).any p := by
  cases v with
  | array items => contradiction
  | _ => rfl

theorem fieldEquals_eq_fieldCompares {bound : Json} (h : bound.isScalar) (field : Option Json) :
    fieldEquals field bound = fieldCompares field bound (· == .eq) := by
  have hnull : bound.isNull = false := by cases bound <;> simp_all [Json.isScalar, Json.isNull]
  have harray : bound.isArray = false := by cases bound <;> simp_all [Json.isScalar, Json.isArray]
  cases field with
  | none => exact hnull
  | some v =>
    cases v with
    | null => rw [fieldCompares_some (by decide), ← Json.equal_eq_order? h, equal_null, fieldEquals]
    | array items => simp [fieldEquals, fieldCompares, harray, Json.equal_eq_order? h]
    | _ => exact Json.equal_eq_order? h _

theorem fieldCompares_or (field : Option Json) (bound : Json) (p q : Ordering → Bool) :
    fieldCompares field bound (fun o => p o || q o) =
      (fieldCompares field bound p || fieldCompares field bound q) := by
  have hany : ∀ o : Option Ordering, o.any (fun o => p o || q o) = (o.any p || o.any q) := by
    intro o
    cases o <;> rfl
  unfold fieldCompares
  split
  · rfl
  · rw [Bool.eq_iff_iff]
    simp only [hany, List.any_eq_true, Bool.or_eq_true, and_or_left, exists_or]
  · exact hany _

theorem fieldCompares_of_none {field : Option Json} {bound : Json}
    (h : ∀ v ∈ field, ¬ v.isArray ∧ ¬ v.Comparable bound) (p : Ordering → Bool) :
    fieldCompares field bound p = false := by
  cases field with
  | none => rfl
  | some v =>
    obtain ⟨harray, hkind⟩ := h v rfl
    rw [fieldCompares_some harray, Json.order?_of_not_comparable hkind, Option.any_none]

section

variable [Regex.Engine]

theorem holds_compare {field : String} (hf : ¬ isOperatorName field) (r : Relation)
    (bound document : Json) :
    holds document (ofCondition ⟨field, .compare r bound⟩) =
      .ok (fieldCompares (document.at? field) bound r.accepts) := by
  have hname : isOperatorName (relationKey r) := by cases r <;> decide
  rw [ofCondition, holds_single hf, clause, clauseHolds_operator hname, operatorHolds_relationKey]

theorem holds_equal {field : String} (hf : ¬ isOperatorName field) {bound : Json}
    (h : bound.isScalar) (document : Json) :
    holds document (ofCondition ⟨field, .eq bound⟩) =
      .ok (fieldCompares (document.at? field) bound (· == .eq)) := by
  rw [holds_equation hf, fieldEquals_eq_fieldCompares h]

/-- The order relations and equality fit together on every field.  Of a value of the kind of
the bound one of them is true, and of values of other kinds none. -/
theorem holds_ordered {field : String} (hf : ¬ isOperatorName field) {bound : Json}
    (hbound : bound.isScalar) (document : Json) :
    ∃ lt eq gt : Bool,
      holds document (ofCondition ⟨field, .compare .lt bound⟩) = .ok lt ∧
      holds document (ofCondition ⟨field, .eq bound⟩) = .ok eq ∧
      holds document (ofCondition ⟨field, .compare .gt bound⟩) = .ok gt ∧
      holds document (ofCondition ⟨field, .compare .lte bound⟩) = .ok (lt || eq) ∧
      holds document (ofCondition ⟨field, .compare .gte bound⟩) = .ok (gt || eq) ∧
      (∀ v, document.at? field = some v → v.Comparable bound → [lt, eq, gt].count true = 1) ∧
      ((∀ v, document.at? field = some v → ¬ v.isArray ∧ ¬ v.Comparable bound) →
        lt = false ∧ eq = false ∧ gt = false) := by
  have hlte : Relation.lte.accepts = fun o => Relation.lt.accepts o || o == .eq := by
    funext o
    cases o <;> rfl
  have hgte : Relation.gte.accepts = fun o => Relation.gt.accepts o || o == .eq := by
    funext o
    cases o <;> rfl
  refine ⟨_, _, _, holds_compare hf .lt bound document, holds_equal hf hbound document,
    holds_compare hf .gt bound document, ?_, ?_, ?_, ?_⟩
  · rw [holds_compare hf, hlte, fieldCompares_or]
  · rw [holds_compare hf, hgte, fieldCompares_or]
  · intro v hv hkind
    obtain ⟨o, ho⟩ := Json.comparable_iff_exists.1 hkind
    simp only [hv, fieldCompares_some (Json.not_isArray_of_comparable hkind), ho, Option.any_some]
    cases o <;> rfl
  · intro hother
    have hnone := fieldCompares_of_none hother
    exact ⟨hnone _, hnone _, hnone _⟩

end

def roundedDocument : Json := .object [("size", .int (2 ^ 53 + 1))]

theorem holds_ordered_rounded :
    ¬ isOperatorName "size" ∧ (Json.int (2 ^ 53)).isScalar ∧
    (∃ v, roundedDocument.at? "size" = some v ∧ v.Comparable (.int (2 ^ 53))) ∧
    holds roundedDocument (ofCondition ⟨"size", .eq (.int (2 ^ 53))⟩) = .ok true ∧
    holds roundedDocument (ofCondition ⟨"size", .compare .lt (.int (2 ^ 53))⟩) = .ok false ∧
    holds roundedDocument (ofCondition ⟨"size", .compare .gt (.int (2 ^ 53))⟩) = .ok false ∧
    holds roundedDocument (ofCondition ⟨"size", .compare .lte (.int (2 ^ 53))⟩) = .ok true ∧
    holds roundedDocument (ofCondition ⟨"size", .compare .gte (.int (2 ^ 53))⟩) = .ok true := by
  have hf : ¬ isOperatorName "size" := by decide
  have hat : roundedDocument.at? "size" = some (.int (2 ^ 53 + 1)) := rfl
  have hkind : (Json.int (2 ^ 53 + 1)).Comparable (.int (2 ^ 53)) := trivial
  have heq : holds roundedDocument (ofCondition ⟨"size", .eq (.int (2 ^ 53))⟩) = .ok true := by
    rw [holds_equal hf rfl, hat]
    exact congrArg Except.ok (by decide +kernel)
  have hbound : (Json.int (2 ^ 53)).isScalar := rfl
  refine ⟨hf, hbound, ⟨_, hat, hkind⟩, heq, ?_⟩
  obtain ⟨lt, eq, gt, hlt, heq', hgt, hlte, hgte, hone, -⟩ :=
    holds_ordered hf hbound roundedDocument
  obtain rfl := Except.ok.inj (heq.symm.trans heq')
  have hcount := hone _ hat hkind
  cases lt <;> cases gt <;> simp_all

end Filter

end DocQuery
