import DocQuery.Proofs.Reading.Value
import DocQuery.Query.Grammar

namespace DocQuery.Query

theorem ofSymbol?_of_sameWord {k w : List Char} (hk : k ∈ keywords) (h : sameWord k w) :
    Operator.ofSymbol? w = none := by
  have hfirst : ∀ k ∈ keywords,
      ['=', '!', '<', '>'].all (·.toLower ∉ k.map Char.toLower) := by decide
  have hno : ∀ c ∈ w, c ∉ ['=', '!', '<', '>'] := by
    intro c hc hs
    have hno := of_decide_eq_true (List.all_eq_true.1 (hfirst k hk) c hs)
    exact hno (toLower_mem_of_sameWord h hc)
  unfold Operator.ofSymbol?
  split <;> first | rfl | simp at hno

theorem operator_symbol {w : List Char} {o : Operator} (hw : Operator.ofSymbol? w = some o)
    (hne : w ≠ []) (hsp : ' ' ∉ w) (n : Nat) (s : List Char) :
    operator (w ++ (blanks (n + 1) ++ s)) = ⟨.ok o, blanks (n + 1) ++ s⟩ := by
  rw [operator, wordBeforeSpace?_word hne hsp]
  simp only [hw]

theorem operator_keyword {k w : List Char} (hk : k ∈ keywords) (h : sameWord k w) (n : Nat)
    (s : List Char) :
    operator (w ++ (blanks (n + 1) ++ s)) =
      if keywordLike = k then ⟨.ok .like, blanks (n + 1) ++ s⟩
      else if keywordIn = k then ⟨.ok .isIn, blanks (n + 1) ++ s⟩
      else if keywordIs = k then afterIs (blanks (n + 1) ++ s)
      else if keywordNot = k then afterNot (blanks (n + 1) ++ s)
      else .fail .unsupportedOperator (w ++ (blanks (n + 1) ++ s)) (blanks (n + 1) ++ s) := by
  have hlike := sameWord_iff hk (l := keywordLike) (by decide) h
  have hin := sameWord_iff hk (l := keywordIn) (by decide) h
  have his := sameWord_iff hk (l := keywordIs) (by decide) h
  have hnot := sameWord_iff hk (l := keywordNot) (by decide) h
  rw [operator, wordBeforeSpace?_word (ne_nil_of_sameWord hk h) (noSpace_of_sameWord hk h)]
  simp only [ofSymbol?_of_sameWord hk h, hlike, hin, his, hnot]

theorem skipBlanks_word {k w : List Char} (hk : k ∈ keywords) (h : sameWord k w)
    (n : Nat) (r : List Char) : skipBlanks (blanks n ++ (w ++ r)) = w ++ r := by
  have hne := ne_nil_of_sameWord hk h
  have hno := noSpace_of_sameWord hk h
  rw [skipBlanks_blanks]
  apply skipBlanks_of_head?
  cases w with
  | nil => contradiction
  | cons c w =>
    simp only [List.cons_append, List.head?_cons, ne_eq, Option.some.injEq]
    rintro rfl
    exact hno List.mem_cons_self

theorem afterNot_word {k w r : List Char} (hk : k ∈ keywords) (h : sameWord k w)
    (hr : StopsAt wordStops r) (n : Nat) :
    afterNot (blanks n ++ (w ++ r)) =
      if keywordLike = k then ⟨.ok .notLike, r⟩
      else if keywordIn = k then ⟨.ok .notIn, r⟩
      else .fail (.unsupportedQualifier .not) (w ++ r) (w ++ r) := by
  rw [afterNot, skipBlanks_word hk h, afterKeyword?_word hk h hr (by decide),
    afterKeyword?_word hk h hr (by decide)]
  by_cases hl : keywordLike = k
  · simp [hl]
  · by_cases hi : keywordIn = k <;> simp [hl, hi]

theorem operator_not {k v w r : List Char} (hv : sameWord keywordNot v) (hk : k ∈ keywords)
    (h : sameWord k w) (hr : StopsAt wordStops r) {n : Nat} :
    operator (v ++ blanks (n + 1) ++ w ++ r) =
      if keywordLike = k then ⟨.ok .notLike, r⟩
      else if keywordIn = k then ⟨.ok .notIn, r⟩
      else .fail (.unsupportedQualifier .not) (w ++ r) (w ++ r) := by
  simp only [List.append_assoc]
  rw [operator_keyword (by decide) hv, if_neg (by decide), if_neg (by decide),
    if_neg (by decide), if_pos rfl, afterNot_word hk h hr]

theorem afterIs_null {w r : List Char} (h : sameWord keywordNull w) (hr : StopsAt wordStops r)
    (n : Nat) : afterIs (blanks n ++ (w ++ r)) = ⟨.ok .isNull, r⟩ := by
  rw [afterIs, skipBlanks_word (by decide) h, afterKeyword?_word (by decide) h hr (by decide)]
  rfl

theorem afterIs_not {v w r : List Char} (hv : sameWord keywordNot v) (hw : sameWord keywordNull w)
    (hr : StopsAt wordStops r) (m n : Nat) :
    afterIs (blanks m ++ (v ++ (blanks (n + 1) ++ (w ++ r)))) = ⟨.ok .isNotNull, r⟩ := by
  have hs : StopsAt wordStops (blanks (n + 1) ++ (w ++ r)) := .cons (by decide)
  have hnull := afterKeyword?_word (by decide) hv hs (l := keywordNull) (by decide)
  have hnot := afterKeyword?_word (by decide) hv hs (l := keywordNot) (by decide)
  have hlast := afterKeyword?_word (by decide) hw hr (l := keywordNull) (by decide)
  rw [if_neg (by decide)] at hnull
  rw [if_pos rfl] at hnot hlast
  rw [afterIs, skipBlanks_word (by decide) hv]
  simp only [hnull, hnot, skipBlanks_word (by decide) hw, hlast]

theorem operator_text {o : Operator} {s r : List Char} (h : OperatorText o s)
    (hv : o.takesValue → ∃ n t, r = blanks (n + 1) ++ t) (hr : StopsAt wordStops r) :
    operator (s ++ r) = ⟨.ok o, r⟩ := by
  cases h with
  | like hw =>
    obtain ⟨n, t, rfl⟩ := hv rfl
    rw [operator_keyword (by decide) hw, if_pos rfl]
  | isIn hw =>
    obtain ⟨n, t, rfl⟩ := hv rfl
    rw [operator_keyword (by decide) hw, if_neg (by decide), if_pos rfl]
  | notLike hn hw => rw [operator_not hn (by decide) hw hr, if_pos rfl]
  | notIn hn hw => rw [operator_not hn (by decide) hw hr, if_neg (by decide), if_pos rfl]
  | isNull hi hw =>
    simp only [List.append_assoc]
    rw [operator_keyword (by decide) hi, if_neg (by decide), if_neg (by decide), if_pos rfl,
      afterIs_null hw hr]
  | isNotNull hi hn hw =>
    simp only [List.append_assoc]
    rw [operator_keyword (by decide) hi, if_neg (by decide), if_neg (by decide), if_pos rfl,
      afterIs_not hn hw hr]
  | _ =>
    obtain ⟨n, t, rfl⟩ := hv rfl
    exact operator_symbol rfl (by simp) (by simp) n t

theorem skipBlanks_operatorText {o : Operator} {s : List Char} (h : OperatorText o s) (n : Nat)
    (r : List Char) : skipBlanks (blanks n ++ (s ++ r)) = s ++ r := by
  cases h with
  | like hw => exact skipBlanks_word (by decide) hw n r
  | isIn hw => exact skipBlanks_word (by decide) hw n r
  | notLike hn hw =>
    simp only [List.append_assoc]
    exact skipBlanks_word (by decide) hn n _
  | notIn hn hw =>
    simp only [List.append_assoc]
    exact skipBlanks_word (by decide) hn n _
  | isNull hi hw =>
    simp only [List.append_assoc]
    exact skipBlanks_word (by decide) hi n _
  | isNotNull hi hn hw =>
    simp only [List.append_assoc]
    exact skipBlanks_word (by decide) hi n _
  | _ =>
    rw [skipBlanks_blanks]
    exact skipBlanks_of_head? (by simp)

theorem bind?_of_operator {p : Predicate} {o : Operator} {v : Json}
    (h : p.operator = (o, some v)) : o.takesValue ∧ o.bind? v = some p := by
  cases p <;> simp only [Predicate.operator, Prod.mk.injEq, Option.some.injEq, reduceCtorEq,
    and_false] at h <;> obtain ⟨rfl, rfl⟩ := h <;> exact ⟨rfl, rfl⟩

theorem bind?_null_of_operator {p : Predicate} {o : Operator} (h : p.operator = (o, none)) :
    o.takesValue = false ∧ o.bind? .null = some p := by
  cases p <;> simp only [Predicate.operator, Prod.mk.injEq, reduceCtorEq, and_false] at h <;>
    obtain ⟨rfl, _⟩ := h <;> exact ⟨rfl, rfl⟩

theorem condition_text {params : List Json} {c : Condition} {s r : List Char}
    (h : ConditionText params c s) (hf : FieldName c.field.toList) (hr : StopsAt valueStops r) :
    condition params (s ++ r) = .ok (c, r) := by
  obtain ⟨field, p⟩ := c
  cases h with
  | @value o v s t m n ho hs ht =>
    obtain ⟨htakes, hbind⟩ := bind?_of_operator ho
    have hop := operator_text hs (r := blanks (n + 1) ++ (t ++ r)) (fun _ => ⟨n, _, rfl⟩)
      (.cons (by decide))
    simp only [List.append_assoc] at *
    rw [condition, wordBeforeSpace?_word hf.nonempty hf.noSpace]
    simp only [skipBlanks_operatorText hs, hop, htakes, if_true, skipBlanks_valueText ht,
      value_text ht hr, hbind, String.ofList_toList]
  | @noValue o s m ho hs =>
    obtain ⟨htakes, hbind⟩ := bind?_null_of_operator ho
    have hop := operator_text hs (by simp [htakes]) (hr.mono (by decide))
    simp only [List.append_assoc] at *
    rw [condition, wordBeforeSpace?_word hf.nonempty hf.noSpace]
    simp only [skipBlanks_operatorText hs, hop, htakes, hbind, String.ofList_toList]
    rfl

end DocQuery.Query
