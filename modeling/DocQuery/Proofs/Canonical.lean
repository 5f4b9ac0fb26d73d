import DocQuery.Proofs.Reading.Group

namespace DocQuery.Query

def Operator.canonical : Operator → List Char
  | .eq => ['=']
  | .ne => ['!', '=']
  | .compare .gt => ['>']
  | .compare .gte => ['>', '=']
  | .compare .lt => ['<']
  | .compare .lte => ['<', '=']
  | .like => keywordLike
  | .notLike => keywordNot ++ ' ' :: keywordLike
  | .isIn => keywordIn
  | .notIn => keywordNot ++ ' ' :: keywordIn
  | .isNull => keywordIs ++ ' ' :: keywordNull
  | .isNotNull => keywordIs ++ ' ' :: keywordNot ++ ' ' :: keywordNull

def Predicate.values (p : Predicate) : List Json := p.operator.2.toList

mutual

def Expr.values : Expr → List Json
  | .condition c => c.predicate.values
  | .group _ es => Expr.valuesAll es

def Expr.valuesAll : List Expr → List Json
  | [] => []
  | e :: es => e.values ++ Expr.valuesAll es

end

def Condition.canonical (i : Nat) (c : Condition) : List Char :=
  match c.predicate.operator with
  | (o, none) => c.field.toList ++ ' ' :: o.canonical
  | (o, some _) => c.field.toList ++ ' ' :: o.canonical ++ ' ' :: '?' :: Nat.toDigits 10 (i + 1)

mutual

def Expr.canonicalTerm (i : Nat) : Expr → List Char
  | .condition c => c.canonical i
  | .group logic es => '(' :: Expr.canonicalGroup logic i es ++ [')']

def Expr.canonicalGroup (logic : Logic) (i : Nat) : List Expr → List Char
  | [] => []
  | e :: es => e.canonicalTerm i ++ Expr.canonicalMembers logic (i + e.values.length) es

def Expr.canonicalMembers (logic : Logic) (i : Nat) : List Expr → List Char
  | [] => []
  | e :: es => ' ' :: connective logic ++ ' ' :: e.canonicalTerm i ++
      Expr.canonicalMembers logic (i + e.values.length) es

end

def Expr.canonical : Expr → String
  | .condition c => String.ofList (c.canonical 0)
  | .group logic es => String.ofList (Expr.canonicalGroup logic 0 es)

theorem Operator.canonical_text (o : Operator) : OperatorText o o.canonical := by
  cases o with
  | eq => exact .eq
  | ne => exact .ne
  | compare relation =>
    cases relation with
    | gt => exact .gt
    | gte => exact .gte
    | lt => exact .lt
    | lte => exact .lte
  | like => exact .like (by decide)
  | notLike => exact .notLike (n := 0) (v := keywordNot) (w := keywordLike) (by decide) (by decide)
  | isIn => exact .isIn (by decide)
  | notIn => exact .notIn (n := 0) (v := keywordNot) (w := keywordIn) (by decide) (by decide)
  | isNull => exact .isNull (n := 0) (v := keywordIs) (w := keywordNull) (by decide) (by decide)
  | isNotNull =>
    exact .isNotNull (m := 0) (n := 0) (u := keywordIs) (v := keywordNot) (w := keywordNull)
      (by decide) (by decide) (by decide)

def HasAt (params : List Json) (i : Nat) (vs : List Json) : Prop :=
  ∀ j v, vs[j]? = some v → params[i + j]? = some v

theorem HasAt.left {params vs ws : List Json} {i : Nat} (h : HasAt params i (vs ++ ws)) :
    HasAt params i vs := by
  intro j v hv
  have hj : j < vs.length := (List.getElem?_eq_some_iff.1 hv).1
  exact h j v (by rwa [List.getElem?_append_left hj])

theorem HasAt.right {params vs ws : List Json} {i : Nat} (h : HasAt params i (vs ++ ws)) :
    HasAt params (i + vs.length) ws := by
  intro j w hw
  rw [Nat.add_assoc]
  apply h
  rwa [List.getElem?_append_right (Nat.le_add_right _ _), Nat.add_sub_cancel_left]

theorem Condition.canonical_text {params : List Json} (hparams : params.length < 2 ^ 64)
    {c : Condition} {i : Nat} (h : HasAt params i c.predicate.values) :
    ConditionText params c (c.canonical i) := by
  unfold Condition.canonical
  split
  · next o ho =>
    rw [List.append_cons]
    exact .noValue (m := 0) ho o.canonical_text
  · next o v ho =>
    have hv : params[i]? = some v := h 0 v (by simp [Predicate.values, ho])
    have hi : i + 1 < 2 ^ 64 := by
      have := (List.getElem?_eq_some_iff.1 hv).1
      omega
    have hval : ValueText params v ('?' :: Nat.toDigits 10 (i + 1)) := .parameter hv hi
    have htext := ConditionText.value (m := 0) (n := 0) ho o.canonical_text hval
    simpa [blanks] using htext

theorem canonicalMembers_text {params : List Json} {n : Nat} {logic : Logic} {es : List Expr}
    (hes : ∀ e ∈ es, ∀ i, HasAt params i e.values →
      ∃ b, TermText params n b e (e.canonicalTerm i)) :
    ∀ {i b}, HasAt params i (Expr.valuesAll es) →
      MembersText params n logic b es (Expr.canonicalMembers logic i es) := by
  induction es with
  | nil =>
    intro i b _
    exact .nil (i := 0)
  | cons e es ih =>
    intro i b h
    obtain ⟨b', he⟩ := hes e List.mem_cons_self i h.left
    have hrest := ih (fun e he => hes e (List.mem_cons_of_mem _ he)) (b := b') h.right
    have hword : sameWord (connective logic) (connective logic) := by simp [sameWord]
    have htext := MembersText.cons (b := b) (i := 1) (j := 1) (.inr Nat.one_pos) hword
      (.inr Nat.one_pos) he hrest
    simpa [Expr.canonicalMembers, blanks] using htext

theorem canonicalGroup_text {params : List Json} {n : Nat} {logic : Logic} {es : List Expr}
    (hlen : 2 ≤ es.length)
    (hes : ∀ e ∈ es, ∀ i, HasAt params i e.values →
      ∃ b, TermText params n b e (e.canonicalTerm i))
    {i : Nat} (h : HasAt params i (Expr.valuesAll es)) :
    GroupText params n (.group logic es) (Expr.canonicalGroup logic i es) := by
  cases es with
  | nil => contradiction
  | cons e es =>
    obtain ⟨b, he⟩ := hes e List.mem_cons_self i h.left
    have hes := fun e he => hes e (List.mem_cons_of_mem _ he)
    exact .members (i := 0) he (canonicalMembers_text hes h.right)

theorem Expr.WellFormed.canonicalTerm_text {params : List Json} (hparams : params.length < 2 ^ 64)
    {n : Nat} {e : Expr} (he : e.WellFormed n) :
    ∀ i, HasAt params i e.values → ∃ b, TermText params n b e (e.canonicalTerm i) := by
  induction he with
  | condition _ =>
    intro i h
    exact ⟨false, .condition (Condition.canonical_text hparams h)⟩
  | group hlen _ ih =>
    intro i h
    exact ⟨true, .bracket (canonicalGroup_text hlen ih h)⟩

theorem Expr.WellFormed.canonical_text {params : List Json} (hparams : params.length < 2 ^ 64)
    {n : Nat} {e : Expr} (he : e.WellFormed (n + 1)) (h : HasAt params 0 e.values) :
    GroupText params n e e.canonical.toList := by
  cases he with
  | condition _ =>
    have htext := TermText.condition (n := n) (Condition.canonical_text hparams h)
    have hgroup := GroupText.term (i := 0) (j := 0) htext
    simpa [Expr.canonical, blanks] using hgroup
  | group hlen hes =>
    rw [Expr.canonical, String.toList_ofList]
    exact canonicalGroup_text hlen (fun e he => (hes e he).canonicalTerm_text hparams) h

mutual

theorem TermRead.wellFormed {params : List Json} : ∀ {n : Nat} {s r : List Char} {e : Expr},
    TermRead params n s e r → e.WellFormed n
  | _, _, _, _, .condition hf _ => .condition hf
  | _, _, _, _, .bracket _ hg _ => hg.wellFormed
termination_by structural _ _ _ _ h => h

theorem GroupRead.wellFormed {params : List Json} : ∀ {n : Nat} {nested : Bool} {s r : List Char}
    {e : Expr}, GroupRead params n nested s e r → e.WellFormed (n + 1)
  | _, _, _, _, _, .term ht _ => ht.wellFormed.succ
  | _, _, _, _, _, .members ht hm hne => by
    have hlen := List.length_pos_iff.2 hne
    exact .group (Nat.succ_le_succ hlen) (List.forall_mem_cons.2 ⟨ht.wellFormed, hm.wellFormed⟩)
termination_by structural _ _ _ _ _ h => h

theorem MembersRead.wellFormed {params : List Json} : ∀ {n : Nat} {nested : Bool} {logic : Logic}
    {s r : List Char} {es : List Expr}, MembersRead params n nested logic s es r →
      ∀ e ∈ es, e.WellFormed n
  | _, _, _, _, _, _, .nil _ => by simp
  | _, _, _, _, _, _, .cons _ ht hm => List.forall_mem_cons.2 ⟨ht.wellFormed, hm.wellFormed⟩
termination_by structural _ _ _ _ _ _ h => h

end

theorem Predicate.length_values_le (p : Predicate) : p.values.length ≤ 1 := by
  rw [values]
  cases p.operator.2 <;> simp

mutual

theorem TermRead.length_values_le {params : List Json} : ∀ {n : Nat} {s r : List Char} {e : Expr},
    TermRead params n s e r → e.values.length + r.length ≤ s.length
  | _, s, r, _, .condition (c := c) _ hc => by
    have h₁ := condition_shorter hc
    have h₂ := (skipBlanks_suffix s).length_le
    have h₃ := c.predicate.length_values_le
    rw [Expr.values]
    omega
  | _, s, r, e, .bracket (t := t) (u := u) hopen hg hclose => by
    have h₁ := hg.length_values_le
    have h₂ := (skipBlanks_suffix s).length_le
    have h₃ := (skipBlanks_suffix u).length_le
    rw [hopen, List.length_cons] at h₂
    rw [hclose, List.length_cons] at h₃
    omega
termination_by structural _ _ _ _ h => h

theorem GroupRead.length_values_le {params : List Json} : ∀ {n : Nat} {nested : Bool}
    {s r : List Char} {e : Expr}, GroupRead params n nested s e r →
      e.values.length + r.length ≤ s.length
  | _, _, _, _, _, .term ht hf => by
    have h₁ := ht.length_values_le
    have h₂ := (follow_suffix hf).length_le
    rw [Follow.rest] at h₂
    omega
  | _, _, _, _, _, .members ht hm _ => by
    have h₁ := ht.length_values_le
    have h₂ := hm.length_values_le
    rw [Expr.values, Expr.valuesAll, List.length_append]
    omega
termination_by structural _ _ _ _ _ h => h

theorem MembersRead.length_values_le {params : List Json} : ∀ {n : Nat} {nested : Bool}
    {logic : Logic} {s r : List Char} {es : List Expr}, MembersRead params n nested logic s es r →
      (Expr.valuesAll es).length + r.length ≤ s.length
  | _, _, _, _, _, _, .nil hf => by
    have h := (follow_suffix hf).length_le
    rw [Follow.rest] at h
    simpa [Expr.valuesAll] using h
  | _, _, _, _, _, _, .cons hf ht hm => by
    have h₁ := ht.length_values_le
    have h₂ := hm.length_values_le
    have h₃ := (follow_suffix hf).length_le
    rw [Follow.rest] at h₃
    rw [Expr.valuesAll, List.length_append]
    omega
termination_by structural _ _ _ _ _ _ h => h

end

/-- What is read from a query is well formed, and is read again from its canonical
text.  Parameters have numbers of 64 bits, which are enough for any text in memory. -/
theorem parse_wellFormed {query : String} {params : List Json} {e : Expr}
    (h : parse query params = .ok e) :
    e.WellFormed (nestingLimit + 1) ∧
      (query.length < 2 ^ 64 → parse e.canonical e.values = .ok e) := by
  obtain ⟨r, hr⟩ := parse_iff.1 h
  have he := hr.wellFormed
  refine ⟨he, fun hlen => ?_⟩
  have hvalues : e.values.length < 2 ^ 64 := by
    have hle := hr.length_values_le
    rw [String.length_toList] at hle
    omega
  have hat : HasAt e.values 0 e.values := by
    intro j v hv
    rwa [Nat.zero_add]
  exact parse_iff.2 ⟨[], (he.canonical_text hvalues hat).readWhole he⟩

theorem parse_canonical_unevenExpr :
    parse unevenText [.string "p%"] = .ok unevenExpr ∧
    unevenExpr.WellFormed (nestingLimit + 1) ∧
    unevenText.length < 2 ^ 64 ∧
    parse "(a = ?1 AND b NOT LIKE ?2) OR order IS NULL" [.string "x\\'y", .string "p%"] =
      .ok unevenExpr := by
  have h : parse unevenText [.string "p%"] = .ok unevenExpr :=
    parse_iff.2 ⟨[], unevenText_text.readWhole unevenExpr_wellFormed⟩
  have hlen : unevenText.length < 2 ^ 64 := by decide
  obtain ⟨he, hagain⟩ := parse_wellFormed h
  have htext : unevenExpr.canonical = "(a = ?1 AND b NOT LIKE ?2) OR order IS NULL" := by
    decide
  rw [← htext]
  exact ⟨h, he, hlen, hagain hlen⟩

end DocQuery.Query
