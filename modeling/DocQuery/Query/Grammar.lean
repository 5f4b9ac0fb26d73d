import DocQuery.Query.Operator
import DocQuery.Text.Consumer

/-! The grammar of queries.  A query is a group of terms; a term is a condition
or a group in brackets.  All connectives of one group agree, and a group of a
single term is that term.  Brackets may be nested 200 deep. -/

namespace DocQuery.Query

def condition (params : List Json) (s : List Char) : Except Failure (Condition × List Char) :=
  match wordBeforeSpace? s with
  | none => .error ⟨.missingSpace .key, s⟩
  | some (field, s) =>
    match operator (skipBlanks s) with
    | ⟨.error e, _⟩ => .error e
    | ⟨.ok o, s⟩ =>
      if o.takesValue then
        let place := skipBlanks s
        match value params place with
        | ⟨.error e, _⟩ => .error e
        | ⟨.ok v, r⟩ =>
          match o.bind? v with
          | some p => .ok (⟨String.ofList field, p⟩, r)
          | none => .error ⟨.unsupportedOperator, place⟩
      else
        match o.bind? .null with
        | some p => .ok (⟨String.ofList field, p⟩, s)
        | none => .error ⟨.unsupportedOperator, s⟩

def nestingLimit : Nat := 200

/-- A term.  The text inside a bracket is read by `inner`; without one, the
limit of nesting is reached. -/
def term (params : List Json) (inner : Option (Consumer Failure Expr)) (s : List Char) :
    Except Failure (Expr × List Char) :=
  let s := skipBlanks s
  match s with
  | '(' :: r =>
    match inner with
    | none => .error ⟨.nestingTooDeep nestingLimit, s⟩
    | some group =>
      match group.read r with
      | .error e => .error e
      | .ok (e, r) =>
        match skipBlanks r with
        | ')' :: r => .ok (e, r)
        | _ => .error ⟨.unbalancedParentheses, s⟩
  | [] => .error ⟨.expectedCondition, s⟩
  | ')' :: _ => .error ⟨.expectedCondition, s⟩
  | _ =>
    if atKeyword keywordAnd s || atKeyword keywordOr s then .error ⟨.expectedCondition, s⟩
    else (condition params s).map fun (c, r) => (.condition c, r)

inductive Follow where
  | stop (rest : List Char)
  | connective (logic : Logic) (place rest : List Char)

/-- A closing bracket ends a group only if the group is nested in another one. -/
def follow (nested : Bool) (s : List Char) : Except Failure Follow :=
  let s := skipBlanks s
  match s with
  | [] => .ok (.stop s)
  | ')' :: _ => if nested then .ok (.stop s) else .error ⟨.unbalancedParentheses, s⟩
  | _ =>
    match afterKeyword? keywordAnd s with
    | some r => .ok (.connective .and s r)
    | none =>
      match afterKeyword? keywordOr s with
      | some r => .ok (.connective .or s r)
      | none => .error ⟨.missingLogic, s⟩

theorem condition_shorter {params : List Json} {s r : List Char} {c : Condition}
    (h : condition params s = .ok (c, r)) : r.length < s.length := by
  unfold condition at h
  split at h
  · contradiction
  · next field t hw =>
    have h₁ := length_wordBeforeSpace?_lt hw
    have h₂ := (skipBlanks_suffix t).length_le
    have h₃ := (operator_suffix (skipBlanks t)).length_le
    split at h
    · contradiction
    · next o u ho =>
      rw [ho] at h₃
      split at h
      · have h₄ := (skipBlanks_suffix u).length_le
        have h₅ := (value_suffix params (skipBlanks u)).length_le
        dsimp only at h
        split at h
        · contradiction
        · next v w hv =>
          rw [hv] at h₅
          split at h
          · simp only [Except.ok.injEq, Prod.mk.injEq] at h
            rw [← h.2]
            dsimp only at h₃ h₅
            omega
          · contradiction
      · split at h
        · simp only [Except.ok.injEq, Prod.mk.injEq] at h
          rw [← h.2]
          dsimp only at h₃
          omega
        · contradiction

theorem term_shorter {params : List Json} {inner : Option (Consumer Failure Expr)}
    {s r : List Char} {e : Expr} (h : term params inner s = .ok (e, r)) :
    r.length < s.length := by
  have h₁ := (skipBlanks_suffix s).length_le
  unfold term at h
  dsimp only at h
  split at h
  · next t hs =>
    split at h
    · contradiction
    · next group =>
      split at h
      · contradiction
      · next e' u hg =>
        have h₂ := group.shorter hg
        have h₃ := (skipBlanks_suffix u).length_le
        split at h
        · next w hw =>
          simp only [Except.ok.injEq, Prod.mk.injEq] at h
          rw [← h.2]
          rw [hs, List.length_cons] at h₁
          rw [hw, List.length_cons] at h₃
          omega
        · contradiction
  · contradiction
  · contradiction
  · split at h
    · contradiction
    · cases hc : condition params (skipBlanks s) with
      | error f => simp [hc, Except.map] at h
      | ok c =>
        have h₂ := condition_shorter hc
        simp only [hc, Except.map, Except.ok.injEq, Prod.mk.injEq] at h
        rw [← h.2]
        omega

def Follow.rest : Follow → List Char
  | .stop rest => rest
  | .connective _ _ rest => rest

theorem follow_suffix {nested : Bool} {s : List Char} {f : Follow} (h : follow nested s = .ok f) :
    f.rest <:+ s := by
  have h₁ := skipBlanks_suffix s
  unfold follow at h
  dsimp only at h
  split at h
  · rw [← Except.ok.inj h]
    exact h₁
  · split at h
    · rw [← Except.ok.inj h]
      exact h₁
    · contradiction
  · split at h
    · next hr =>
      rw [← Except.ok.inj h]
      exact (afterKeyword?_suffix hr).trans h₁
    · split at h
      · next hr =>
        rw [← Except.ok.inj h]
        exact (afterKeyword?_suffix hr).trans h₁
      · contradiction

def siblings (nested : Bool) (t : Consumer Failure Expr) (logic : Logic) (s : List Char) :
    Except Failure (List Expr × List Char) :=
  match _hf : follow nested s with
  | .error e => .error e
  | .ok (.stop r) => .ok ([], r)
  | .ok (.connective next place r) =>
    if next = logic then
      match _ht : t.read r with
      | .error e => .error e
      | .ok (e, r) => (siblings nested t logic r).map fun (es, r) => (e :: es, r)
    else .error ⟨.mixedLogic, place⟩
termination_by s.length
decreasing_by
  exact Nat.lt_of_lt_of_le (t.shorter _ht) (follow_suffix _hf).length_le

def group (nested : Bool) (t : Consumer Failure Expr) (s : List Char) :
    Except Failure (Expr × List Char) :=
  match t.read s with
  | .error e => .error e
  | .ok (first, r) =>
    match follow nested r with
    | .error e => .error e
    | .ok (.stop r) => .ok (first, r)
    | .ok (.connective logic _ r) =>
      match t.read r with
      | .error e => .error e
      | .ok (second, r) =>
        (siblings nested t logic r).map fun (es, r) => (.group logic (first :: second :: es), r)

theorem length_siblings_le {nested : Bool} {t : Consumer Failure Expr} {logic : Logic}
    {s r : List Char} {es : List Expr} (h : siblings nested t logic s = .ok (es, r)) :
    r.length ≤ s.length := by
  fun_induction siblings nested t logic s generalizing es r with
  | case1 => contradiction
  | case2 s u hf =>
    have := (follow_suffix hf).length_le
    simp_all [Follow.rest]
  | case3 => contradiction
  | case4 s place u v w ht hf ih =>
    have h₁ := (follow_suffix hf).length_le
    have h₂ := t.shorter ht
    cases hs : siblings nested t logic w with
    | error e => simp [hs, Except.map] at h
    | ok p =>
      have h₃ := ih hs
      simp_all [Except.map, Follow.rest]
      omega
  | case5 => contradiction

theorem group_shorter {nested : Bool} {t : Consumer Failure Expr} {s r : List Char} {e : Expr}
    (h : group nested t s = .ok (e, r)) : r.length < s.length := by
  unfold group at h
  split at h
  · contradiction
  · next first u hu =>
    have h₁ := t.shorter hu
    split at h
    · contradiction
    · next v hv =>
      have h₂ := (follow_suffix hv).length_le
      simp_all [Follow.rest]
      omega
    · next logic place v hv =>
      have h₂ := (follow_suffix hv).length_le
      split at h
      · contradiction
      · next second w hw =>
        have h₃ := t.shorter hw
        cases hs : siblings nested t logic w with
        | error f => simp [hs, Except.map] at h
        | ok p =>
          have h₄ := length_siblings_le hs
          simp_all [Except.map, Follow.rest]
          omega

def groupWithin (params : List Json) : Nat → Bool → Consumer Failure Expr
  | 0, nested => ⟨group nested ⟨term params none, term_shorter⟩, group_shorter⟩
  | levels + 1, nested =>
    ⟨group nested ⟨term params (some (groupWithin params levels true)), term_shorter⟩, group_shorter⟩

def parse (query : String) (params : List Json) : Except QueryError Expr :=
  match (groupWithin params nestingLimit false).read query.toList with
  | .ok (e, _) => .ok e
  | .error f => .error (f.within query.toList)

end DocQuery.Query
