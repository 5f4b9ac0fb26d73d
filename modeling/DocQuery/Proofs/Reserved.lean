import DocQuery.Proofs.Complement
import DocQuery.Proofs.Equality
import DocQuery.Proofs.Parts
import DocQuery.Proofs.Paths

namespace DocQuery.Filter

open Query (Logic Predicate Condition Expr)
open Regex (Engine LawfulEngine)

section

variable [Engine]

section

variable {d d' : Json} (h : ∀ key, ¬ isOperatorName key → d.at? key = d'.at? key)
include h

theorem fieldsHold_cons_congr {filter c : Json} {key : String} {fs : List (String × Json)}
    (hsubs : ∀ subs, c = .array subs → allHold d subs = allHold d' subs ∧
      anyHolds d subs = anyHolds d' subs)
    (hfs : fieldsHold d filter fs = fieldsHold d' filter fs) :
    fieldsHold d filter ((key, c) :: fs) = fieldsHold d' filter ((key, c) :: fs) := by
  by_cases hname : isOperatorName key
  · rw [fieldsHold.eq_def, fieldsHold.eq_def d']
    simp only [hfs, hname, if_true]
    cases c with
    | array subs =>
      obtain ⟨hall, hany⟩ := hsubs subs rfl
      simp only [hall, hany]
    | _ => rfl
  · rw [fieldsHold_cons hname, fieldsHold_cons hname, h key hname, hfs]

end

mutual

-- filters do not look at fields with the names of operators
theorem holds_congr {d d' : Json} (h : ∀ key, ¬ isOperatorName key → d.at? key = d'.at? key) :
    ∀ f, holds d f = holds d' f
  | .object fs => by rw [holds, holds, fieldsHold_congr h]
  | .null | .bool _ | .number _ | .string _ | .array _ => by simp only [holds]

theorem fieldsHold_congr {d d' filter : Json}
    (h : ∀ key, ¬ isOperatorName key → d.at? key = d'.at? key) :
    ∀ fs, fieldsHold d filter fs = fieldsHold d' filter fs
  | [] => rfl
  | (_, .array subs) :: fs => by
    refine fieldsHold_cons_congr h ?_ (fieldsHold_congr h fs)
    rintro _ ⟨⟩
    exact ⟨allHold_congr h subs, anyHolds_congr h subs⟩
  | (_, .null) :: fs | (_, .bool _) :: fs | (_, .number _) :: fs | (_, .string _) :: fs
  | (_, .object _) :: fs => fieldsHold_cons_congr h nofun (fieldsHold_congr h fs)

theorem allHold_congr {d d' : Json} (h : ∀ key, ¬ isOperatorName key → d.at? key = d'.at? key) :
    ∀ fs, allHold d fs = allHold d' fs
  | [] => rfl
  | f :: fs => by rw [allHold, allHold, holds_congr h f, allHold_congr h fs]

theorem anyHolds_congr {d d' : Json} (h : ∀ key, ¬ isOperatorName key → d.at? key = d'.at? key) :
    ∀ fs, anyHolds d fs = anyHolds d' fs
  | [] => rfl
  | f :: fs => by rw [anyHolds, anyHolds, holds_congr h f, anyHolds_congr h fs]

end

end

theorem exists_segments (s : List Char) :
    ∃ p ps, Json.segments s = p :: ps ∧ (p.head? = some '$' → s.head? = some '$') := by
  cases s with
  | nil => exact ⟨[], [], rfl, id⟩
  | cons x s =>
    obtain ⟨p, ps, hs⟩ := List.exists_cons_of_ne_nil (Json.segments_ne_nil s)
    rw [Json.segments, hs]
    split
    · exact ⟨[], _, rfl, by simp⟩
    · exact ⟨x :: p, ps, rfl, id⟩

theorem at?_of_operators {fs : List (String × Json)} (hfs : ∀ f ∈ fs, isOperatorName f.1)
    {key : String} (hkey : ¬ isOperatorName key) : (Json.object fs).at? key = none := by
  obtain ⟨p, ps, hsegments, hhead⟩ := exists_segments key.toList
  have hget : Fields.get? (String.ofList p) fs = none := by
    apply Fields.get?_of_not_mem
    intro hmem
    obtain ⟨f, hf, hname⟩ := List.mem_map.1 hmem
    have hoperator := hfs f hf
    rw [hname, isOperatorName, String.toList_ofList, decide_eq_true_eq] at hoperator
    exact hkey (decide_eq_true (hhead hoperator))
  rw [Json.at?, hsegments, List.map_cons, Json.descend, Json.get?, hget, Option.bind_none]

theorem at?_empty (key : String) : (Json.object []).at? key = none :=
  Json.at?_of_fieldless (fun _ => rfl) key

theorem at?_single_logicKey (logic : Logic) (v : Json) :
    (single (logicKey logic) v).at? (logicKey logic) = some v := by
  have hdot : '.' ∉ (logicKey logic).toList := by cases logic <;> decide
  rw [Json.at?_of_not_mem hdot]
  simp [single, Json.get?, Fields.get?]

def DecidesUnless (reason : QueryError → Prop) (result : Except QueryError Bool) (P : Prop) :
    Prop :=
  Decides result P ∨ ∃ err, result = .error err ∧ reason err

section

variable {reason : QueryError → Prop} {first second : Except QueryError Bool} {P Q : Prop}

theorem DecidesUnless.congr (h : DecidesUnless reason first P) (hpq : P ↔ Q) :
    DecidesUnless reason first Q :=
  h.imp_left (·.congr hpq)

theorem DecidesUnless.and (hp : DecidesUnless reason first P) (hq : DecidesUnless reason second Q) :
    DecidesUnless reason (do if ← first then second else return false) (P ∧ Q) := by
  obtain ⟨a, rfl, ha⟩ | ⟨err, rfl, herr⟩ := hp
  · cases a with
    | true =>
      have hp : P := ha.1 rfl
      exact hq.congr (by simp [hp])
    | false =>
      have hp : ¬ P := fun h => Bool.false_ne_true (ha.2 h)
      exact .inl ⟨false, rfl, by simp [hp]⟩
  · exact .inr ⟨err, rfl, herr⟩

theorem DecidesUnless.or (hp : DecidesUnless reason first P) (hq : DecidesUnless reason second Q) :
    DecidesUnless reason (do if ← first then return true else second) (P ∨ Q) := by
  obtain ⟨a, rfl, ha⟩ | ⟨err, rfl, herr⟩ := hp
  · cases a with
    | true =>
      have hp : P := ha.1 rfl
      exact .inl ⟨true, rfl, by simp [hp]⟩
    | false =>
      have hp : ¬ P := fun h => Bool.false_ne_true (ha.2 h)
      exact hq.congr (by simp [hp])
  · exact .inr ⟨err, rfl, herr⟩

end

inductive Refuses : Predicate → QueryError → Prop
  | like {p} : ¬ Short (.like p) → Refuses (.like p) (.invalidPattern (regexOfWildcard p) .tooLong)
  | notLike {p} : ¬ Short (.notLike p) →
      Refuses (.notLike p) (.invalidPattern (regexOfWildcard p) .tooLong)

theorem clause_isArray (p : Predicate) :
    (∃ subs, p = .eq (.array subs)) ∨ ∀ subs, clause p ≠ .array subs := by
  cases p with
  | eq v =>
    cases v with
    | array subs => exact .inl ⟨subs, rfl⟩
    | object fs =>
      refine .inr fun subs => ?_
      simp only [clause, equalityClause]
      split <;> simp [single]
    | _ => exact .inr fun subs => by simp [clause, equalityClause]
  | _ => exact .inr fun subs => by simp [clause, single]

section

variable [Engine]

theorem ofCondition_decidesUnless [LawfulEngine] {c : Condition} (hf : ¬ isOperatorName c.field)
    (document : Json) :
    DecidesUnless (Refuses c.predicate) (holds document (ofCondition c))
      (Says (document.at? c.field) c.predicate) := by
  obtain ⟨field, predicate⟩ := c
  by_cases hp : Short predicate
  · exact .inl (ofCondition_decides hf hp document)
  · refine .inr ?_
    rw [ofCondition, holds_single hf]
    cases predicate with
    | like p => exact ⟨_, clauseHolds_like_of_long hp _ _, .like hp⟩
    | notLike p => exact ⟨_, clauseHolds_notLike_of_long hp _ _, .notLike hp⟩
    | _ => exact absurd trivial hp

/-- Evaluating the filter of an expression finds out whether the expression is true of the
document, or refuses a pattern in it.  No operator is found that is not supported, and
connectives join nothing but parts of the expression. -/
def ReadAsWritten (e : Expr) : Prop :=
  ∀ document, DecidesUnless (fun err => ∃ c, (Expr.condition c).PartOf e ∧ Refuses c.predicate err)
    (holds document (ofExpr e)) (Selects document e)

section

variable {reason : QueryError → Prop} {document : Json} {members : List Expr}
  (h : ∀ e ∈ members, DecidesUnless reason (holds document (ofExpr e)) (Selects document e))
include h

theorem allHold_decidesUnless :
    DecidesUnless reason (allHold document (ofExprs members))
      (∀ e ∈ members, Selects document e) := by
  induction members with
  | nil => exact .inl (.ok (by simp))
  | cons e es ih =>
    have hes := ih fun e he => h e (List.mem_cons_of_mem _ he)
    rw [ofExprs, allHold]
    exact ((h e List.mem_cons_self).and hes).congr List.forall_mem_cons.symm

theorem anyHolds_decidesUnless :
    DecidesUnless reason (anyHolds document (ofExprs members))
      (∃ e ∈ members, Selects document e) := by
  induction members with
  | nil => exact .inl (.ok (by simp))
  | cons e es ih =>
    have hes := ih fun e he => h e (List.mem_cons_of_mem _ he)
    rw [ofExprs, anyHolds]
    exact ((h e List.mem_cons_self).or hes).congr (by simp)

end

theorem ofExpr_decidesUnless [LawfulEngine] {e : Expr}
    (he : e.All fun c => ¬ isOperatorName c.field) {reason : QueryError → Prop}
    (hreason : ∀ c, (Expr.condition c).PartOf e → ∀ err, Refuses c.predicate err → reason err)
    (document : Json) :
    DecidesUnless reason (holds document (ofExpr e)) (Selects document e) := by
  induction he with
  | @condition c hc =>
    obtain h | ⟨err, herr, hrefuses⟩ := ofCondition_decidesUnless hc document
    · exact .inl (h.congr selects_condition.symm)
    · exact .inr ⟨err, herr, hreason c .self err hrefuses⟩
  | @group logic members _ ih =>
    have hmembers := fun e he => ih e he fun c hc => hreason c (.member he hc)
    cases logic with
    | and =>
      rw [ofExpr, logicKey, holds_single_and]
      exact (allHold_decidesUnless hmembers).congr selects_and.symm
    | or =>
      rw [ofExpr, logicKey, holds_single_or]
      exact (anyHolds_decidesUnless hmembers).congr selects_or.symm

theorem readAsWritten [LawfulEngine] {e : Expr} (he : e.All fun c => ¬ isOperatorName c.field) :
    ReadAsWritten e :=
  ofExpr_decidesUnless he fun c hc _ herr => ⟨c, hc, herr⟩

theorem holds_single_reserved {key : String} {v : Json} (hkey : isOperatorName key)
    (hv : (∃ logic, key = logicKey logic) → ∀ subs, v ≠ .array subs) (document : Json) :
    ∃ part, holds document (single key v) = .error (unsupported part (single key v)) := by
  rw [single, holds, fieldsHold.eq_def]
  dsimp only
  by_cases hand : key = "$and"
  · have hv := hv ⟨.and, hand⟩
    cases v with
    | array subs => exact absurd rfl (hv subs)
    | _ => exact ⟨_, by rw [if_pos hand]; rfl⟩
  by_cases hor : key = "$or"
  · have hv := hv ⟨.or, hor⟩
    cases v with
    | array subs => exact absurd rfl (hv subs)
    | _ => exact ⟨_, by rw [if_neg hand, if_pos hor]; rfl⟩
  · exact ⟨_, by rw [if_neg hand, if_neg hor, if_pos hkey]; rfl⟩

theorem holds_ofCondition_reserved {c : Condition} (hf : isOperatorName c.field) :
    (∀ document, ∃ part, holds document (ofCondition c) =
        .error (unsupported part (ofCondition c))) ∨
      ∃ logic subs, c = ⟨logicKey logic, .eq (.array subs)⟩ := by
  obtain ⟨field, predicate⟩ := c
  by_cases hlogic : ∃ logic, field = logicKey logic
  · obtain ⟨logic, rfl⟩ := hlogic
    obtain ⟨subs, rfl⟩ | hv := clause_isArray predicate
    · exact .inr ⟨logic, subs, rfl⟩
    · exact .inl (holds_single_reserved hf fun _ => hv)
  · exact .inl (holds_single_reserved hf fun h => absurd h hlogic)

theorem not_readAsWritten {c : Condition} (hf : isOperatorName c.field)
    (hwf : ∀ v, c.predicate = .eq v → v.WellFormed) : ¬ ReadAsWritten (.condition c) := by
  -- the documents `{}` and `{"$or": subs}` tell the condition from the connective
  intro h
  obtain ⟨field, predicate⟩ := c
  obtain hrefused | ⟨logic, subs, hc⟩ := holds_ofCondition_reserved hf
  · obtain ⟨part, hpart⟩ := hrefused .null
    obtain ⟨b, hb, _⟩ | ⟨err, herr, c, hc, hrefuses⟩ := h .null
    · rw [ofExpr, hpart] at hb
      contradiction
    · rw [ofExpr, hpart] at herr
      cases hc
      cases herr
      cases hrefuses
  · obtain ⟨rfl, rfl⟩ := Condition.mk.inj hc
    have hdecides : ∀ document, Decides (holds document (single (logicKey logic) (.array subs)))
        (FieldIs (document.at? (logicKey logic)) (.array subs)) := by
      intro document
      obtain hd | ⟨err, _, c, hc, hrefuses⟩ := h document
      · exact hd.congr selects_condition
      · cases hc
        cases hrefuses
    have hsame : holds (.object []) (single (logicKey logic) (.array subs)) =
        holds (single (logicKey logic) (.array subs)) (single (logicKey logic) (.array subs)) := by
      refine holds_congr (fun key hkey => ?_) _
      rw [at?_empty, single, at?_of_operators (by simpa using hf) hkey]
    obtain ⟨a, ha, hno⟩ := hdecides (.object [])
    obtain ⟨b, hb, hyes⟩ := hdecides (single (logicKey logic) (.array subs))
    rw [at?_empty] at hno
    rw [at?_single_logicKey] at hyes
    rw [hsame, hb] at ha
    cases ha
    have htrue := hyes.2 (.value (Json.equal_refl (hwf _ rfl)))
    cases hno.1 htrue with
    | value hnull => simp [equal_null, Json.isNull] at hnull

/-- All parts of a query are read as they are written if no field is named like an operator,
and only then.  A condition on a field with such a name is refused as an operator for every
document, or the list that is compared with the field is taken for filters. -/
theorem parse_readAsWritten [LawfulEngine] {query : String} {params : List Json} {e : Expr}
    (hparams : ∀ v ∈ params, v.WellFormed) (h : Query.parse query params = .ok e) :
    ((∀ p : Expr, p.PartOf e → ReadAsWritten p) ↔
      ∀ c, (Expr.condition c).PartOf e → ¬ isOperatorName c.field) ∧
    ∀ c, (Expr.condition c).PartOf e → isOperatorName c.field →
      (∀ document, ∃ part, holds document (ofCondition c) =
        .error (unsupported part (ofCondition c))) ∨
      ∃ logic subs, c = ⟨logicKey logic, .eq (.array subs)⟩ := by
  have hwf : e.All fun c => ∀ v, c.predicate = .eq v → v.WellFormed :=
    Query.parse_all (fun _ _ _ hc _ hv => Query.condition_wellFormed hparams hc hv) h
  refine ⟨⟨fun hread c hc hf => ?_, fun hfields p hp => ?_⟩, fun c _ hf => ?_⟩
  · exact not_readAsWritten hf (hwf.condition_of_partOf hc) (hread _ hc)
  · exact readAsWritten (Expr.all_of_parts fun c hc => hfields c (hc.trans hp))
  · exact holds_ofCondition_reserved hf

end

def filterLike : Json := .array [.object [("a", .int 1)]]

theorem parse_readAsWritten_or :
    (∀ v ∈ [filterLike], v.WellFormed) ∧
    Query.parse "$or = ?1" [filterLike] = .ok (.condition ⟨"$or", .eq filterLike⟩) ∧
    ¬ ReadAsWritten (.condition ⟨"$or", .eq filterLike⟩) := by
  have hwf : ∀ v ∈ [filterLike], v.WellFormed := by
    simp [filterLike, Json.WellFormed, Json.WellFormedItems, Json.WellFormedFields, Json.int,
      Fields.keys]
  have hparse : Query.parse "$or = ?1" [filterLike] =
      .ok (.condition ⟨"$or", .eq filterLike⟩) := rfl
  refine ⟨hwf, hparse, fun hread => ?_⟩
  have hparts : ∀ p : Expr, p.PartOf (.condition ⟨"$or", .eq filterLike⟩) → ReadAsWritten p := by
    rintro _ ⟨⟩
    exact hread
  exact (parse_readAsWritten hwf hparse).1.1 hparts _ .self (by decide)

end DocQuery.Filter
