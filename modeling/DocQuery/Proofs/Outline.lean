import DocQuery.Proofs.Derivation

/-! Queries without the values of their parameters.  Reading a query looks at no more
of a value than its kind: all values of the same kinds lead to the same error, or
they fill the places of the same outline. -/

namespace DocQuery.Query

inductive Kind where
  | string
  | array
  | other
  deriving DecidableEq

def Kind.of : Json → Kind
  | .string _ => string
  | .array _ => array
  | _ => other

def SameKinds (ps qs : List Json) : Prop := ps.map Kind.of = qs.map Kind.of

instance (ps qs : List Json) : Decidable (SameKinds ps qs) :=
  inferInstanceAs (Decidable (_ = _))

inductive Operand where
  | literal (v : Json)
  | parameter (i : Nat)

def Operand.value? (params : List Json) : Operand → Option Json
  | literal v => some v
  | parameter i => params[i]?

structure Test where
  field : String
  operator : Operator
  operand : Operand

def Test.fill? (params : List Json) (t : Test) : Option Condition := do
  let v ← t.operand.value? params
  let p ← t.operator.bind? v
  return ⟨t.field, p⟩

/-- An expression whose values may be left to parameters. -/
inductive Outline where
  | test (t : Test)
  | group (logic : Logic) (members : List Outline)

mutual

def Outline.fill? (params : List Json) : Outline → Option Expr
  | .test t => (t.fill? params).map .condition
  | .group logic ts => (Outline.fillAll? params ts).map (.group logic)

def Outline.fillAll? (params : List Json) : List Outline → Option (List Expr)
  | [] => some []
  | t :: ts => do return (← t.fill? params) :: (← Outline.fillAll? params ts)

end

theorem SameKinds.length_eq {ps qs : List Json} (h : SameKinds ps qs) : qs.length = ps.length := by
  have := congrArg List.length h
  simpa using this.symm

theorem SameKinds.getElem? {ps qs : List Json} (h : SameKinds ps qs) (i : Nat) :
    qs[i]?.map Kind.of = ps[i]?.map Kind.of := by
  rw [← List.getElem?_map, ← List.getElem?_map, h]

theorem bind?_isSome_of_kind {v w : Json} (h : Kind.of v = Kind.of w) (o : Operator) :
    (o.bind? v).isSome = (o.bind? w).isSome := by
  cases o <;> cases v <;> cases w <;> first | rfl | contradiction

section

variable (ps : List Json)

/-- A reading that fails alike for all parameters of the kinds of `ps`, or finds for
all of them what one outline says, in front of the same rest. -/
def Alike {τ α : Type} (fill? : List Json → τ → Option α)
    (read : List Json → Except Failure (α × List Char)) : Prop :=
  (∃ f, ∀ qs, SameKinds ps qs → read qs = .error f) ∨
    ∃ t r, ∀ qs, SameKinds ps qs → ∃ a, fill? qs t = some a ∧ read qs = .ok (a, r)

theorem parameter_alike (s : List Char) :
    (∃ f, ∀ qs, SameKinds ps qs → (parameter qs s).result = .error f) ∨
      ∃ (i : Nat) (r : List Char), ∀ qs, SameKinds ps qs →
        ∃ v, qs[i]? = some v ∧ parameter qs s = ⟨.ok v, r⟩ := by
  cases hw : wordIndex? (takeUntil [' ', ')'] (s.drop 1)).1 with
  | none => exact .inl ⟨_, fun qs _ => by simp only [parameter, hw]; rfl⟩
  | some n =>
    cases n with
    | zero =>
      refine .inl ⟨⟨.parameterOutOfRange 0 ps.length, s⟩, fun qs hqs => ?_⟩
      simp only [parameter, hw, hqs.length_eq]
      rfl
    | succ i =>
      by_cases hi : i < ps.length
      · refine .inr ⟨i, (takeUntil [' ', ')'] (s.drop 1)).2, fun qs hqs => ?_⟩
        have hi : i < qs.length := hqs.length_eq ▸ hi
        have hget : qs[i]? = some qs[i] := List.getElem?_eq_getElem hi
        refine ⟨qs[i], hget, ?_⟩
        simp only [parameter, hw, hget]
      · refine .inl ⟨⟨.parameterOutOfRange (i + 1) ps.length, s⟩, fun qs hqs => ?_⟩
        have hi : qs[i]? = none := List.getElem?_eq_none (hqs.length_eq ▸ Nat.le_of_not_lt hi)
        simp only [parameter, hw, hi, hqs.length_eq]
        rfl

theorem value_of_literal {s : List Char} (h : s.head? ≠ some '?') (qs : List Json) :
    value qs s = value ps s := by
  unfold value
  split <;> simp_all

theorem value_alike (s : List Char) :
    (∃ f, ∀ qs, SameKinds ps qs → (value qs s).result = .error f) ∨
      ∃ (x : Operand) (r : List Char), ∀ qs, SameKinds ps qs →
        ∃ v, x.value? qs = some v ∧ value qs s = ⟨.ok v, r⟩ := by
  by_cases hs : s.head? = some '?'
  · obtain ⟨t, rfl⟩ := List.head?_eq_some_iff.1 hs
    obtain h | ⟨i, r, h⟩ := parameter_alike ps ('?' :: t)
    · exact .inl h
    · exact .inr ⟨.parameter i, r, h⟩
  · have heq := value_of_literal ps hs
    cases hv : value ps s with
    | mk result r =>
      cases result with
      | error f => exact .inl ⟨f, fun qs _ => by rw [heq, hv]⟩
      | ok v => exact .inr ⟨.literal v, r, fun qs _ => ⟨v, rfl, by rw [heq, hv]⟩⟩

theorem Operand.value?_kind {qs : List Json} (hqs : SameKinds ps qs) (x : Operand) :
    (x.value? qs).map Kind.of = (x.value? ps).map Kind.of := by
  cases x with
  | literal v => rfl
  | parameter i => exact hqs.getElem? i

theorem bind?_alike {o : Operator} {x : Operand} {v : Json} (hv : x.value? ps = some v)
    {qs : List Json} (hqs : SameKinds ps qs) {w : Json} (hw : x.value? qs = some w) :
    (o.bind? w).isSome = (o.bind? v).isSome := by
  have hkind := x.value?_kind ps hqs
  rw [hv, hw] at hkind
  exact bind?_isSome_of_kind (Option.some.inj hkind) o

theorem condition_of_value {params : List Json} {s field u t : List Char} {o : Operator}
    (hw : wordBeforeSpace? s = some (field, u)) (ho : operator (skipBlanks u) = ⟨.ok o, t⟩)
    (ht : o.takesValue) :
    condition params s =
      match value params (skipBlanks t) with
      | ⟨.error f, _⟩ => .error f
      | ⟨.ok v, r⟩ =>
        match o.bind? v with
        | some p => .ok (⟨String.ofList field, p⟩, r)
        | none => .error ⟨.unsupportedOperator, skipBlanks t⟩ := by
  rcases hv : value params (skipBlanks t) with ⟨f | v, r⟩
  · simp only [condition, hw, ho, ht, if_true, hv]
  · cases hb : o.bind? v with
    | none => simp only [condition, hw, ho, ht, if_true, hv, hb]
    | some p => simp only [condition, hw, ho, ht, if_true, hv, hb]

theorem condition_alike (s : List Char) : Alike ps Test.fill? (condition · s) := by
  cases hw : wordBeforeSpace? s with
  | none => exact .inl ⟨⟨.missingSpace .key, s⟩, fun qs _ => by simp only [condition, hw]⟩
  | some p =>
    obtain ⟨field, u⟩ := p
    rcases ho : operator (skipBlanks u) with ⟨f | o, t⟩
    · exact .inl ⟨f, fun qs _ => by simp only [condition, hw, ho]⟩
    by_cases ht : o.takesValue
    · obtain ⟨f, h⟩ | ⟨x, r, h⟩ := value_alike ps (skipBlanks t)
      · refine .inl ⟨f, fun qs hqs => ?_⟩
        have hf := h qs hqs
        rcases hv : value qs (skipBlanks t) with ⟨result, r⟩
        rw [hv] at hf
        cases hf
        simp only [condition_of_value hw ho ht, hv]
      · obtain ⟨v, hv, _⟩ := h ps rfl
        -- whether the operator takes the value is settled by the values of `ps`
        cases hb : (o.bind? v).isSome with
        | false =>
          refine .inl ⟨⟨.unsupportedOperator, skipBlanks t⟩, fun qs hqs => ?_⟩
          obtain ⟨w, hw', hr⟩ := h qs hqs
          have hnone : o.bind? w = none := by
            simpa [hb] using bind?_alike ps (o := o) hv hqs hw'
          simp only [condition_of_value hw ho ht, hr, hnone]
        | true =>
          refine .inr ⟨⟨String.ofList field, o, x⟩, r, fun qs hqs => ?_⟩
          obtain ⟨w, hw', hr⟩ := h qs hqs
          obtain ⟨p, hp⟩ := Option.isSome_iff_exists.1 ((bind?_alike ps hv hqs hw').trans hb)
          exact ⟨⟨String.ofList field, p⟩, by simp [Test.fill?, hw', hp],
            by simp only [condition_of_value hw ho ht, hr, hp]⟩
    · cases hb : o.bind? .null with
      | none =>
        exact .inl ⟨⟨.unsupportedOperator, t⟩, fun qs _ => by simp [condition, hw, ho, ht, hb]⟩
      | some p =>
        refine .inr ⟨⟨String.ofList field, o, .literal .null⟩, t, fun qs _ => ?_⟩
        exact ⟨⟨String.ofList field, p⟩, by simp [Test.fill?, Operand.value?, hb],
          by simp [condition, hw, ho, ht, hb]⟩

theorem term_of_start {params : List Json} {inner : Option (Consumer Failure Expr)}
    {s t : List Char} {c : Char} (hs : skipBlanks s = c :: t) (hopen : c ≠ '(') (hclose : c ≠ ')') :
    term params inner s =
      if atKeyword keywordAnd (c :: t) || atKeyword keywordOr (c :: t) then
        .error ⟨.expectedCondition, c :: t⟩
      else (condition params (c :: t)).map fun (c, r) => (.condition c, r) := by
  unfold term
  rw [hs]
  split <;> simp_all

theorem term_alike {n : Nat}
    (hin : ∀ m, n = m + 1 → ∀ s, Alike ps Outline.fill? fun qs => (groupWithin qs m true).read s)
    (s : List Char) : Alike ps Outline.fill? fun qs => (termWithin qs n).read s := by
  rcases hs : skipBlanks s with _ | ⟨c, t⟩
  · exact .inl ⟨⟨.expectedCondition, []⟩, fun qs _ => by simp [termWithin, term, hs]⟩
  by_cases hopen : c = '('
  · subst hopen
    cases n with
    | zero =>
      exact .inl ⟨⟨.nestingTooDeep nestingLimit, '(' :: t⟩, fun qs _ => by
        simp [termWithin, term, hs, insideBrackets]⟩
    | succ m =>
      obtain ⟨f, h⟩ | ⟨o, u, h⟩ := hin m rfl t
      · exact .inl ⟨f, fun qs hqs => by simp [termWithin, term, hs, insideBrackets, h qs hqs]⟩
      · by_cases hu : (skipBlanks u).head? = some ')'
        · obtain ⟨r, hr⟩ := List.head?_eq_some_iff.1 hu
          refine .inr ⟨o, r, fun qs hqs => ?_⟩
          obtain ⟨e, he, hg⟩ := h qs hqs
          exact ⟨e, he, by simp [termWithin, term, hs, insideBrackets, hg, hr]⟩
        · refine .inl ⟨⟨.unbalancedParentheses, '(' :: t⟩, fun qs hqs => ?_⟩
          obtain ⟨e, he, hg⟩ := h qs hqs
          simp only [termWithin, term, hs, insideBrackets, hg]
          split
          · simp_all
          · rfl
  by_cases hclose : c = ')'
  · subst hclose
    exact .inl ⟨⟨.expectedCondition, ')' :: t⟩, fun qs _ => by simp [termWithin, term, hs]⟩
  by_cases hk : atKeyword keywordAnd (c :: t) || atKeyword keywordOr (c :: t)
  · exact .inl ⟨⟨.expectedCondition, c :: t⟩, fun qs _ =>
      (term_of_start hs hopen hclose).trans (if_pos hk)⟩
  obtain ⟨f, h⟩ | ⟨o, r, h⟩ := condition_alike ps (c :: t)
  · refine .inl ⟨f, fun qs hqs => ?_⟩
    simp only [termWithin, term_of_start hs hopen hclose, if_neg hk, h qs hqs]
    rfl
  · refine .inr ⟨.test o, r, fun qs hqs => ?_⟩
    obtain ⟨e, he, hc⟩ := h qs hqs
    refine ⟨.condition e, by rw [Outline.fill?, he]; rfl, ?_⟩
    simp only [termWithin, term_of_start hs hopen hclose, if_neg hk, hc]
    rfl

theorem siblings_eq {nested : Bool} {t : Consumer Failure Expr} {logic : Logic} {s : List Char} :
    siblings nested t logic s =
      match follow nested s with
      | .error f => .error f
      | .ok (.stop r) => .ok ([], r)
      | .ok (.connective next place r) =>
        if next = logic then
          match t.read r with
          | .error f => .error f
          | .ok (e, r) => (siblings nested t logic r).map fun (es, r) => (e :: es, r)
        else .error ⟨.mixedLogic, place⟩ := by
  rw [siblings]
  split
  · next hf => simp only [hf]
  · next hf => simp only [hf]
  · next hf =>
    simp only [hf]
    split
    · split
      · next he => simp only [he]
      · next he => simp only [he]
    · rfl

theorem group_eq {nested : Bool} {t : Consumer Failure Expr} {s : List Char} :
    group nested t s =
      match t.read s with
      | .error f => .error f
      | .ok (first, u) =>
        match follow nested u with
        | .error f => .error f
        | .ok (.stop r) => .ok (first, r)
        | .ok (.connective logic _ _) =>
          (siblings nested t logic u).map fun (es, r) => (.group logic (first :: es), r) := by
  rcases h : t.read s with f | ⟨first, u⟩
  · simp only [group, h]
  rcases hf : follow nested u with f | ⟨r⟩ | ⟨logic, place, v⟩
  · simp only [group, h, hf]
  · simp only [group, h, hf]
  have hu : siblings nested t logic u = _ := siblings_eq
  simp only [hf, if_true] at hu
  rcases hr : t.read v with f | ⟨second, w⟩
  · simp only [hr] at hu
    simp only [group, h, hf, hr, hu, Except.map]
  · cases hs : siblings nested t logic w with
    | error f =>
      simp only [hr, hs, Except.map] at hu
      simp only [group, h, hf, hr, hs, hu, Except.map]
    | ok rest =>
      simp only [hr, hs, Except.map] at hu
      simp only [group, h, hf, hr, hs, hu, Except.map]

section

variable (ps : List Json) (nested : Bool) {t : List Json → Consumer Failure Expr}
  (ht : ∀ s, Alike ps Outline.fill? fun qs => (t qs).read s)
include ht

theorem siblings_alike (logic : Logic) (s : List Char) :
    Alike ps Outline.fillAll? fun qs => siblings nested (t qs) logic s := by
  -- the values of `ps` show that the text gets shorter
  fun_induction siblings nested (t ps) logic s with
  | case1 s f hf => exact .inl ⟨f, fun qs _ => siblings_eq.trans (by simp only [hf])⟩
  | case2 s r hf => exact .inr ⟨[], r, fun qs _ => ⟨[], rfl, siblings_eq.trans (by simp only [hf])⟩⟩
  | case3 s place r f he hf =>
    obtain ⟨g, h⟩ | ⟨o, u, h⟩ := ht r
    · exact .inl ⟨g, fun qs hqs => siblings_eq.trans (by simp only [hf, if_true, h qs hqs])⟩
    · obtain ⟨e, _, hr⟩ := h ps rfl
      simp [he] at hr
  | case4 s place r e u he hf ih =>
    obtain ⟨g, h⟩ | ⟨o, v, h⟩ := ht r
    · have hr := h ps rfl
      simp [he] at hr
    · obtain ⟨e', _, hr⟩ := h ps rfl
      simp only [he, Except.ok.injEq, Prod.mk.injEq] at hr
      obtain ⟨rfl, rfl⟩ := hr
      obtain ⟨g, h'⟩ | ⟨os, w, h'⟩ := ih
      · refine .inl ⟨g, fun qs hqs => siblings_eq.trans ?_⟩
        obtain ⟨d, _, hr⟩ := h qs hqs
        simp only [hf, if_true, hr, h' qs hqs]
        rfl
      · refine .inr ⟨o :: os, w, fun qs hqs => ?_⟩
        obtain ⟨d, hd, hr⟩ := h qs hqs
        obtain ⟨ds, hds, hs⟩ := h' qs hqs
        refine ⟨d :: ds, by simp [Outline.fillAll?, hd, hds], siblings_eq.trans ?_⟩
        simp only [hf, if_true, hr, hs]
        rfl
  | case5 s next place r hf hne =>
    exact .inl ⟨⟨.mixedLogic, place⟩, fun qs _ => siblings_eq.trans (by simp only [hf, if_neg hne])⟩

theorem group_alike (s : List Char) :
    Alike ps Outline.fill? fun qs => group nested (t qs) s := by
  obtain ⟨f, h⟩ | ⟨first, u, h⟩ := ht s
  · exact .inl ⟨f, fun qs hqs => by simp only [group, h qs hqs]⟩
  rcases hf : follow nested u with f | ⟨r⟩ | ⟨logic, place, v⟩
  · refine .inl ⟨f, fun qs hqs => ?_⟩
    obtain ⟨e, _, hr⟩ := h qs hqs
    simp only [group, hr, hf]
  · refine .inr ⟨first, r, fun qs hqs => ?_⟩
    obtain ⟨e, he, hr⟩ := h qs hqs
    exact ⟨e, he, by simp only [group, hr, hf]⟩
  · obtain ⟨g, h'⟩ | ⟨os, w, h'⟩ := siblings_alike ps nested ht logic u
    · refine .inl ⟨g, fun qs hqs => ?_⟩
      obtain ⟨e, _, hr⟩ := h qs hqs
      simp only [group_eq, hr, hf, h' qs hqs]
      rfl
    · refine .inr ⟨.group logic (first :: os), w, fun qs hqs => ?_⟩
      obtain ⟨e, he, hr⟩ := h qs hqs
      obtain ⟨es, hes, hs⟩ := h' qs hqs
      refine ⟨.group logic (e :: es), by simp [Outline.fill?, Outline.fillAll?, he, hes], ?_⟩
      simp only [group_eq, hr, hf, hs]
      rfl

end

theorem groupWithin_alike (n : Nat) (nested : Bool) (s : List Char) :
    Alike ps Outline.fill? fun qs => (groupWithin qs n nested).read s := by
  simp only [groupWithin_read]
  induction n generalizing nested s with
  | zero => exact group_alike ps nested (term_alike ps (by simp)) s
  | succ n ih =>
    refine group_alike ps nested (term_alike ps ?_) s
    intro m hm s
    cases hm
    simpa only [groupWithin_read] using ih true s

end

/-- All values of the kinds of `ps`, which are such values themselves, make a query fail
with one error, or fill one outline. -/
theorem parse_sameKinds (query : String) (ps : List Json) :
    (∃ e, ∀ qs, SameKinds ps qs → parse query qs = .error e) ∨
      ∃ t : Outline, ∀ qs, SameKinds ps qs →
        ∃ e, t.fill? qs = some e ∧ parse query qs = .ok e := by
  obtain ⟨f, h⟩ | ⟨t, r, h⟩ := groupWithin_alike ps nestingLimit false query.toList
  · refine .inl ⟨f.within query.toList, fun qs hqs => ?_⟩
    simp only [parse, h qs hqs]
  · refine .inr ⟨t, fun qs hqs => ?_⟩
    obtain ⟨e, he, hr⟩ := h qs hqs
    exact ⟨e, he, by simp only [parse, hr]⟩

def taggedText : String := "tags in ?2 and (name like ?1 or (size > ?3 and name != 'x'))"

def tameValues : List Json := [.string "a%", .array [.string "b"], .int 3]

def hostileValues : List Json :=
  [.string "' or (size is null) or name = '?2", .array [.object [("$gt", .null)], .array []],
    .object [("$ne", .null)]]

theorem parse_sameKinds_hostile :
    SameKinds tameValues hostileValues ∧
      ∃ t : Outline, (∃ e, t.fill? tameValues = some e ∧ parse taggedText tameValues = .ok e) ∧
        ∃ e, t.fill? hostileValues = some e ∧ parse taggedText hostileValues = .ok e := by
  have hkinds : SameKinds tameValues hostileValues := by decide
  obtain ⟨e, h⟩ | ⟨t, h⟩ := parse_sameKinds taggedText tameValues
  · have hok : (parse taggedText tameValues).isOk := by decide +kernel
    rw [h tameValues rfl] at hok
    contradiction
  · exact ⟨hkinds, t, h tameValues rfl, h hostileValues hkinds⟩

end DocQuery.Query
