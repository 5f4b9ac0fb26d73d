import DocQuery.Filter.OfQuery
import DocQuery.Proofs.Equality
import DocQuery.Proofs.KeyList
import DocQuery.Proofs.Placing
import DocQuery.Proofs.Selection
import DocQuery.Regex.Reader

namespace DocQuery.Filter

open Query (Condition Expr)
open Json (Apart path)

def inOrder : List (Except QueryError Bool) → Except QueryError Bool
  | [] => .ok true
  | r :: rs => do
    if ← r then inOrder rs else return false

theorem inOrder_ok (bs : List Bool) : inOrder (bs.map .ok) = .ok (bs.all id) := by
  induction bs with
  | nil => rfl
  | cons b bs ih =>
    rw [List.map_cons, inOrder, ih]
    cases b <;> rfl

theorem inOrder_eq_ok_true {rs : List (Except QueryError Bool)} :
    inOrder rs = .ok true ↔ ∀ r ∈ rs, r = .ok true := by
  induction rs with
  | nil => simp [inOrder]
  | cons r rs ih =>
    rw [List.forall_mem_cons, ← ih, inOrder]
    cases r with
    | error e => simp [bind, Except.bind]
    | ok b => cases b <;> simp [bind, Except.bind, pure, Except.pure]

section

variable [Regex.Engine]

theorem fieldsHold_eq_inOrder {fs : Fields Json} (h : ∀ f ∈ fs, ¬ isOperatorName f.1)
    (document filter : Json) :
    fieldsHold document filter fs =
      inOrder (fs.map fun f => clauseHolds filter (document.at? f.1) f.2) := by
  induction fs with
  | nil => rfl
  | cons f fs ih =>
    have hfs := ih fun g hg => h g (List.mem_cons_of_mem f hg)
    rw [fieldsHold_cons (h f List.mem_cons_self), hfs, List.map_cons, inOrder]

def conjunction (fs : Fields Json) : Expr :=
  match fs.map fun f => Expr.condition ⟨f.1, .eq f.2⟩ with
  | [e] => e
  | es => .group .and es

theorem holds_conjunction {fs : Fields Json} (h : ∀ f ∈ fs, ¬ isOperatorName f.1)
    (document : Json) :
    holds document (ofExpr (conjunction fs)) =
      .ok (fs.all fun f => fieldEquals (document.at? f.1) f.2) := by
  have hall : ∀ fs : Fields Json, (∀ f ∈ fs, ¬ isOperatorName f.1) →
      allHold document (ofExprs (fs.map fun f => .condition ⟨f.1, .eq f.2⟩)) =
        .ok (fs.all fun f => fieldEquals (document.at? f.1) f.2) := by
    intro fs h
    induction fs with
    | nil => rfl
    | cons f fs ih =>
      have hfs := ih fun g hg => h g (List.mem_cons_of_mem f hg)
      rw [List.map_cons, ofExprs, ofExpr, allHold, holds_equation (h f List.mem_cons_self), hfs,
        List.all_cons]
      cases fieldEquals (document.at? f.1) f.2 <;> rfl
  rw [conjunction]
  split
  · next e he =>
    obtain ⟨f, rfl, rfl⟩ := List.map_eq_singleton_iff.1 he
    rw [ofExpr, holds_equation (h f List.mem_cons_self)]
    simp
  · rw [ofExpr, logicKey, holds_single_and, hall fs h]

/-- A filter is evaluated like an expression, on all documents. -/
def Agrees (filter : Json) (e : Expr) : Prop :=
  ∀ document, holds document filter = holds document (ofExpr e)

theorem agrees_of_not_actsAsOperators {fs : Fields Json}
    (hkeys : ∀ f ∈ fs, ¬ isOperatorName f.1) (hvalues : ∀ f ∈ fs, ¬ actsAsOperators f.2) :
    Agrees (.object fs) (conjunction fs) := by
  intro document
  have hclauses : (fs.map fun f => clauseHolds (.object fs) (document.at? f.1) f.2) =
      (fs.map fun f => fieldEquals (document.at? f.1) f.2).map .ok := by
    rw [List.map_map]
    exact List.map_congr_left fun f hf => clauseHolds_value (hvalues f hf) _ _
  rw [holds, fieldsHold_eq_inOrder hkeys, hclauses, inOrder_ok, holds_conjunction hkeys,
    List.all_map]
  rfl

end

theorem fieldEquals_of_deep {fs : List (String × Json)} {v : Json}
    (h : v.depth < (Json.object fs).depth) : fieldEquals (some (.object fs)) v = false := by
  rw [fieldEquals, Bool.eq_false_iff]
  · intro he
    have := Json.depth_le_of_equal he
    omega
  all_goals simp

theorem isMember_of_deep {es fs : List (String × Json)} (filter : Json) {v : Json}
    (he : v.depth < (Json.object es).depth) (hf : v.depth < (Json.object fs).depth) :
    isMember filter (some (.object es)) v = isMember filter (some (.object fs)) v := by
  have hnone : ∀ {gs vs}, (Json.array vs).depth < (Json.object gs).depth →
      vs.any (fieldEquals (some (.object gs))) = false := by
    intro gs vs h
    rw [List.any_eq_false]
    intro v hv
    have hle := Json.depth_le_depthItems hv
    rw [Json.depth] at h
    simp [fieldEquals_of_deep (show v.depth < (Json.object gs).depth by omega)]
  cases v with
  | array vs => rw [isMember, isMember, hnone he, hnone hf]
  | _ => rfl

theorem fieldCompares_object (fs : List (String × Json)) (bound : Json) (accept : Ordering → Bool) :
    fieldCompares (some (.object fs)) bound accept = false := by
  cases bound <;> rfl

section

variable [Regex.Engine]

theorem fieldMatches_object (filter : Json) (es fs : List (String × Json)) (v : Json) :
    fieldMatches filter (some (.object es)) v = fieldMatches filter (some (.object fs)) v := by
  cases v <;> rfl

section

variable {filter : Json} {es fs : List (String × Json)}

mutual

theorem operatorHolds_of_deep : ∀ {name : String} {arg : Json},
    arg.depth < (Json.object es).depth → arg.depth < (Json.object fs).depth →
      operatorHolds filter (some (.object es)) name arg =
        operatorHolds filter (some (.object fs)) name arg
  | name, arg, he, hf => by
    have hequals : ∀ {gs}, arg.depth < (Json.object gs).depth →
      fieldEquals (some (.object gs)) arg = false := fieldEquals_of_deep
    unfold operatorHolds
    split
    · rw [hequals he, hequals hf]
    · rw [hequals he, hequals hf]
    · simp only [fieldCompares_object]
    · simp only [fieldCompares_object]
    · simp only [fieldCompares_object]
    · simp only [fieldCompares_object]
    · exact isMember_of_deep filter he hf
    · rw [isMember_of_deep filter he hf]
    · exact fieldMatches_object filter es fs _
    · split
      · rw [fieldMatches_object filter es fs]
      · next gs =>
        rw [Json.depth] at he hf
        have hrest : operatorsHold filter (some (.object es)) gs =
          operatorsHold filter (some (.object fs)) gs := operatorsHold_of_deep (by omega) (by omega)
        rw [hrest]
      · rfl
    · rfl

theorem operatorsHold_of_deep : ∀ {args : List (String × Json)},
    Json.depthFields args < (Json.object es).depth →
    Json.depthFields args < (Json.object fs).depth →
      operatorsHold filter (some (.object es)) args = operatorsHold filter (some (.object fs)) args
  | [], _, _ => rfl
  | (name, arg) :: args, he, hf => by
    rw [Json.depthFields] at he hf
    rw [operatorsHold, operatorsHold, operatorHolds_of_deep (by omega) (by omega),
      operatorsHold_of_deep (by omega) (by omega)]

end

end

theorem clauseHolds_around {v : Json} (h : actsAsOperators v) (filter : Json) :
    clauseHolds filter (some (single "" v)) v = clauseHolds filter (some v) v := by
  cases v with
  | object fs =>
    have hops : isOperators fs := h
    rw [clauseHolds, clauseHolds, if_pos hops, if_pos hops, single]
    apply operatorsHold_of_deep <;> simp only [Json.depth, Json.depthFields] <;> omega
  | _ => simp [actsAsOperators] at h

end

theorem fieldEquals_around (v : Json) : fieldEquals (some (single "" v)) v = false := by
  apply fieldEquals_of_deep
  simp only [Json.depth, Json.depthFields]
  omega

theorem fieldEquals_self {v : Json} (h : v.WellFormed) : fieldEquals (some v) v :=
  (fieldEquals_iff _ _).2 (.value (Json.equal_refl h))

def enclose (key : String) (fs : Fields Json) : Fields Json :=
  fs.map fun f => (f.1, if f.1 = key then single "" f.2 else f.2)

theorem keys_enclose (key : String) (fs : Fields Json) :
    Fields.keys (enclose key fs) = Fields.keys fs := by
  simp [Fields.keys, enclose]

section

variable [Regex.Engine]

section

variable {fs : Fields Json} (hkeys : ∀ f ∈ fs, ¬ isOperatorName f.1)
  (hapart : (Fields.keys fs).Pairwise fun k l => Apart (path k) (path l))
include hkeys hapart

theorem holds_ofPaths_conjunction (hwf : ∀ f ∈ fs, f.2.WellFormed) :
    holds (Json.ofPaths fs) (ofExpr (conjunction fs)) = .ok true := by
  rw [holds_conjunction hkeys, Except.ok.injEq, List.all_eq_true]
  intro f hf
  rw [Json.at?_ofPaths hapart hf]
  exact fieldEquals_self (hwf f hf)

omit [Regex.Engine] hkeys in
theorem at?_enclose (key : String) {f : String × Json} (hf : f ∈ fs) :
    (Json.ofPaths (enclose key fs)).at? f.1 =
      some (if f.1 = key then single "" f.2 else f.2) := by
  apply Json.at?_ofPaths
  · rwa [keys_enclose]
  · exact List.mem_map_of_mem hf

theorem holds_enclose_conjunction {key : String} {v : Json} (hmem : (key, v) ∈ fs) :
    holds (Json.ofPaths (enclose key fs)) (ofExpr (conjunction fs)) = .ok false := by
  rw [holds_conjunction hkeys, Except.ok.injEq, List.all_eq_false]
  refine ⟨(key, v), hmem, ?_⟩
  rw [at?_enclose hapart key hmem, if_pos rfl, fieldEquals_around]
  simp

theorem holds_enclose_object {key : String} {v : Json} (hmem : (key, v) ∈ fs)
    (hv : actsAsOperators v) (h : holds (Json.ofPaths fs) (.object fs) = .ok true) :
    holds (Json.ofPaths (enclose key fs)) (.object fs) = .ok true := by
  rw [holds, fieldsHold_eq_inOrder hkeys, inOrder_eq_ok_true] at h ⊢
  have hnodup : (Fields.keys fs).Nodup := by
    refine List.Pairwise.imp ?_ hapart
    rintro k _ h rfl
    exact h.1 (List.prefix_refl _)
  intro r hr
  obtain ⟨f, hf, rfl⟩ := List.mem_map.1 hr
  have hfield := h _ (List.mem_map_of_mem hf)
  rw [Json.at?_ofPaths hapart hf] at hfield
  rw [at?_enclose hapart key hf]
  split
  · next hk =>
    -- the key stands for one field only, so this is the value that acts as operators
    have hget := Fields.get?_of_mem hnodup hf
    rw [hk, Fields.get?_of_mem hnodup hmem] at hget
    rw [← Option.some.inj hget] at hfield ⊢
    rwa [clauseHolds_around hv]
  · exact hfield

theorem Agrees.not_actsAsOperators (hwf : ∀ f ∈ fs, f.2.WellFormed)
    (h : Agrees (.object fs) (conjunction fs)) : ∀ f ∈ fs, ¬ actsAsOperators f.2 := by
  -- the filters differ on the document of the values, or else on the one with an object around a
  -- value that acts as operators
  intro f hf hv
  have htrue := h (Json.ofPaths fs)
  rw [holds_ofPaths_conjunction hkeys hapart hwf] at htrue
  have hagain := h (Json.ofPaths (enclose f.1 fs))
  rw [holds_enclose_object hkeys hapart hf hv htrue, holds_enclose_conjunction hkeys hapart hf]
    at hagain
  simp at hagain

end

/-- A key list selects what equality with its values selects if no value acts as
operators.  If no key leads through the place of another, it does so only then. -/
theorem holds_shorthand {query : String} {ks : List KeyList.Key} {values : List Json}
    (hq : KeyList.isShorthand query) (hk : KeyList.keys query = .ok ks)
    (hdistinct : (ks.map KeyList.Key.text).Nodup) (hdollar : ∀ k ∈ ks, k.text.head? ≠ some '$')
    (hlen : ks.length ≤ values.length) :
    ∃ filter, ofQuery query values = .ok filter ∧
      ((∀ v ∈ values.take ks.length, ¬ actsAsOperators v) →
        Agrees filter (conjunction (KeyList.equations ks values))) ∧
      ((ks.map KeyList.Key.text).Pairwise
          (fun k l => Apart (path (String.ofList k)) (path (String.ofList l))) →
        (∀ v ∈ values, v.WellFormed) →
        Agrees filter (conjunction (KeyList.equations ks values)) →
          ∀ v ∈ values.take ks.length, ¬ actsAsOperators v) := by
  have hvalues := KeyList.values_equations hlen
  have hkeys : ∀ f ∈ KeyList.equations ks values, ¬ isOperatorName f.1 := by
    intro f hf
    obtain ⟨hname, _⟩ := List.of_mem_zip hf
    obtain ⟨k, hk, he⟩ := List.mem_map.1 hname
    rw [← he, isOperatorName, String.toList_ofList, decide_eq_true_eq]
    exact hdollar k hk
  refine ⟨.object (KeyList.equations ks values), ?_, ?_, ?_⟩
  · rw [ofQuery, if_pos hq, KeyList.equalityDocument_eq hq hk hdistinct hlen]
  · intro h
    apply agrees_of_not_actsAsOperators hkeys
    intro f hf
    exact h f.2 (hvalues ▸ List.mem_map_of_mem hf)
  · intro hapart hwf h v hv
    rw [← hvalues] at hv
    obtain ⟨f, hf, rfl⟩ := List.mem_map.1 hv
    refine h.not_actsAsOperators hkeys ?_ ?_ f hf
    · rw [KeyList.keys_equations hlen]
      exact hapart.map String.ofList fun _ _ h => h
    · intro g hg
      exact hwf g.2 (List.of_mem_zip hg).2

end

theorem holds_shorthand_operatorLike :
    ∃ filter, ofQuery "byNameAndMeta" [.string "x", operatorLike] = .ok filter ∧
      ¬ Agrees filter (conjunction [("name", .string "x"), ("meta", operatorLike)]) := by
  have hapart : [['n', 'a', 'm', 'e'], ['m', 'e', 't', 'a']].Pairwise
      (fun k l => Apart (path (String.ofList k)) (path (String.ofList l))) := by
    simp only [Apart, Json.path]
    decide
  have hwf : ∀ v ∈ [Json.string "x", operatorLike], v.WellFormed := by
    simp [operatorLike, Json.WellFormed, Json.WellFormedFields, Json.int, Fields.keys]
  obtain ⟨filter, hfilter, _, h⟩ := holds_shorthand
    (show KeyList.isShorthand "byNameAndMeta" by decide)
    (show KeyList.keys "byNameAndMeta" =
      .ok [⟨false, ['n', 'a', 'm', 'e']⟩, ⟨false, ['m', 'e', 't', 'a']⟩] from rfl)
    (by decide) (by decide)
    (show 2 ≤ [Json.string "x", operatorLike].length by decide)
  refine ⟨filter, hfilter, fun hagrees => ?_⟩
  exact h hapart hwf hagrees operatorLike (by simp) (by decide)

end DocQuery.Filter
