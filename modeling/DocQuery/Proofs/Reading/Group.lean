import DocQuery.Proofs.Derivation
import DocQuery.Proofs.Reading.Condition

namespace DocQuery.Query

def Closes (nested : Bool) (r : List Char) : Prop := r = [] ∨ nested ∧ ∃ t, r = ')' :: t

theorem Closes.stopsAt {nested : Bool} {r : List Char} (h : Closes nested r) :
    StopsAt valueStops r := by
  obtain rfl | ⟨_, t, rfl⟩ := h
  · exact .nil
  · exact .cons (by decide)

theorem Closes.skipBlanks {nested : Bool} {r : List Char} (h : Closes nested r) (n : Nat) :
    skipBlanks (blanks n ++ r) = r := by
  rw [skipBlanks_blanks]
  apply skipBlanks_of_head?
  obtain rfl | ⟨_, t, rfl⟩ := h <;> simp

theorem follow_closes {nested : Bool} {r : List Char} (h : Closes nested r) (n : Nat) :
    follow nested (blanks n ++ r) = .ok (.stop r) := by
  rw [follow, h.skipBlanks]
  obtain rfl | ⟨hn, t, rfl⟩ := h
  · rfl
  · simp [hn]

theorem follow_connective {logic : Logic} {w r : List Char} (nested : Bool)
    (hw : sameWord (connective logic) w) (hr : StopsAt wordStops r) (n : Nat) :
    follow nested (blanks n ++ (w ++ r)) = .ok (.connective logic (w ++ r) r) := by
  have hk := connective_mem logic
  have hand := afterKeyword?_word hk hw hr (l := keywordAnd) (by decide)
  have hor := afterKeyword?_word hk hw hr (l := keywordOr) (by decide)
  have hno := not_mem_wordStops hk hw
  unfold follow
  simp only [skipBlanks_word hk hw]
  split
  · next h =>
    have hnil : w = [] := (List.append_eq_nil_iff.1 h).1
    exact absurd hnil (ne_nil_of_sameWord hk hw)
  · next t h =>
    cases w with
    | nil => exact absurd rfl (ne_nil_of_sameWord hk hw)
    | cons c w =>
      have hc : c = ')' := (List.cons.inj h).1
      exact absurd (by simp [hc, wordStops]) (hno c List.mem_cons_self)
  · rw [hand, hor]
    cases logic <;> rfl

theorem TermText.bracket_head {params : List Json} {n : Nat} {b : Bool} {e : Expr} {s : List Char}
    (h : TermText params n b e s) (hb : b) : ∃ t, s = '(' :: t := by
  cases h with
  | condition => contradiction
  | bracket => exact ⟨_, rfl⟩

theorem MembersText.stopsAt {params : List Json} {n : Nat} {logic : Logic} {b nested : Bool}
    {es : List Expr} {t r : List Char} (h : MembersText params n logic b es t)
    (hr : Closes nested r) :
    b ∨ StopsAt valueStops (t ++ r) := by
  cases h with
  | nil => exact .inr (hr.stopsAt.blanks_append (by decide) _)
  | @cons _ _ _ _ w s t i j _ _ hb =>
    refine hb.imp id ?_
    intro hi
    cases i with
    | zero => contradiction
    | succ i => exact .cons (by decide)

theorem ConditionText.skipBlanks {params : List Json} {c : Condition} {s : List Char}
    (h : ConditionText params c s) (hf : FieldName c.field.toList) (n : Nat) (r : List Char) :
    skipBlanks (blanks n ++ (s ++ r)) = s ++ r := by
  cases h <;> simp only [List.append_assoc] <;> exact hf.skipBlanks n _

mutual

theorem TermText.read {params : List Json} : ∀ {n m : Nat} {b : Bool} {e : Expr} {s r : List Char},
    TermText params n b e s → e.WellFormed m → b ∨ StopsAt valueStops r → ∀ k,
      TermRead params n (blanks k ++ (s ++ r)) e r
  | _, _, _, _, _, r, .condition hc, .condition hf, hr, k => by
    have hread := condition_text hc hf (hr.resolve_left (by simp))
    exact .condition hf (by rwa [hc.skipBlanks hf])
  | _, _, _, _, _, r, .bracket (n := n) (e := e) (s := s) hg, he, _, k => by
    have hread := hg.read he (Or.inr ⟨rfl, r, rfl⟩ : Closes true (')' :: r))
    have hopen : skipBlanks (blanks k ++ ('(' :: s ++ [')'] ++ r)) = '(' :: (s ++ ')' :: r) := by
      rw [skipBlanks_blanks, skipBlanks_of_head? (by simp)]
      simp
    exact .bracket hopen hread (skipBlanks_of_head? (by simp))
termination_by structural _ _ _ _ _ _ h => h

theorem GroupText.read {params : List Json} : ∀ {n m : Nat} {e : Expr} {s r : List Char}
    {nested : Bool}, GroupText params n e s → e.WellFormed m → Closes nested r →
      GroupRead params n nested (s ++ r) e r
  | n, _, e, _, r, nested, .term (i := i) (j := j) (s := s) ht, he, hr => by
    have hstop : StopsAt valueStops (blanks j ++ r) := hr.stopsAt.blanks_append (by decide) j
    have hread := ht.read he (.inr hstop) i
    simp only [List.append_assoc]
    exact .term hread (follow_closes hr j)
  | n, _, _, _, r, nested, .members (e := e) (i := i) (s := s) (t := t) ht hm,
      .group hlen hes, hr => by
    have hfirst := ht.read (hes e List.mem_cons_self) (hm.stopsAt hr) i
    have hrest := hm.read (fun e he => hes e (List.mem_cons_of_mem _ he)) hr
    simp only [List.append_assoc]
    apply GroupRead.members hfirst hrest
    rintro rfl
    simp at hlen
termination_by structural _ _ _ _ _ _ h => h

theorem MembersText.read {params : List Json} : ∀ {n m : Nat} {logic : Logic} {b nested : Bool}
    {es : List Expr} {t r : List Char}, MembersText params n logic b es t →
    (∀ e ∈ es, e.WellFormed m) → Closes nested r →
      MembersRead params n nested logic (t ++ r) es r
  | _, _, _, _, _, _, _, _, .nil, _, hr => .nil (follow_closes hr _)
  | n, _, _, _, nested, _, _, r, .cons (e := e) (i := i) (j := j) (s := s) (t := t) _ hw hj ht hm,
      he, hr => by
    have hread := ht.read (he e List.mem_cons_self) (hm.stopsAt hr) j
    have hrest := hm.read (fun e h => he e (List.mem_cons_of_mem _ h)) hr
    have hend : StopsAt wordStops (blanks j ++ (s ++ (t ++ r))) := by
      cases j with
      | zero =>
        obtain ⟨u, rfl⟩ := ht.bracket_head (hj.resolve_right (by simp))
        exact .cons (by decide)
      | succ j => exact .cons (by decide)
    simp only [List.append_assoc]
    exact .cons (follow_connective nested hw hend i) hread hrest
termination_by structural _ _ _ _ _ _ _ _ h => h

end

theorem GroupText.readWhole {params : List Json} {n m : Nat} {e : Expr} {s : List Char}
    (hs : GroupText params n e s) (he : e.WellFormed m) : GroupRead params n false s e [] := by
  have hread := hs.read he (.inl rfl : Closes false [])
  rwa [List.append_nil] at hread

/-- Every layout of a well-formed expression is read as this expression. -/
theorem parse_text {params : List Json} {e : Expr} {query : String}
    (he : e.WellFormed (nestingLimit + 1)) (hs : GroupText params nestingLimit e query.toList) :
    parse query params = .ok e := parse_iff.2 ⟨[], hs.readWhole he⟩

def unevenText : String := "( a   ==  'x\\'y'  aNd b nOt  liKe ?1 )oR(( order IS  null ))"

def unevenExpr : Expr :=
  .group .or [.group .and [.condition ⟨"a", .eq (.string "x\\'y")⟩,
    .condition ⟨"b", .notLike "p%"⟩], .condition ⟨"order", .isNull⟩]

theorem unevenExpr_wellFormed : unevenExpr.WellFormed (nestingLimit + 1) := by
  refine .group (by decide) ?_
  simp only [List.forall_mem_cons, List.not_mem_nil, false_implies, implies_true, and_true]
  refine ⟨.group (by decide) ?_, .condition (by decide)⟩
  simp only [List.forall_mem_cons, List.not_mem_nil, false_implies, implies_true, and_true]
  exact ⟨.condition (by decide), .condition (by decide)⟩

theorem unevenText_text : GroupText [.string "p%"] nestingLimit unevenExpr unevenText.toList := by
  have hquoted : Quotable ['x', '\\', '\'', 'y'] := by
    refine ⟨fun u v h => ?_, by decide⟩
    simp only [List.cons_eq_append_iff, List.nil_eq_append_iff, reduceCtorEq, Char.reduceEq,
      List.cons.injEq, false_and, and_false, exists_false, true_and, false_or, or_false] at h
    obtain ⟨_, rfl, _, rfl, rfl, _⟩ := h
    rfl
  have ha : ConditionText [.string "p%"] ⟨"a", .eq (.string "x\\'y")⟩ "a   ==  'x\\'y'".toList :=
    .value (m := 2) (n := 1) rfl .eqEq (.quoted hquoted)
  have hb : ConditionText [.string "p%"] ⟨"b", .notLike "p%"⟩ "b nOt  liKe ?1".toList :=
    .value (m := 0) (n := 0) rfl
      (.notLike (n := 1) (v := "nOt".toList) (w := "liKe".toList) (by decide) (by decide))
      (.parameter (i := 0) rfl (by decide))
  have horder : ConditionText [.string "p%"] ⟨"order", .isNull⟩ "order IS  null".toList :=
    .noValue (m := 0) rfl
      (.isNull (n := 1) (v := "IS".toList) (w := "null".toList) (by decide) (by decide))
  exact .members (i := 0) (.bracket (.members (i := 1) (.condition ha)
      (.cons (i := 2) (j := 1) (w := "aNd".toList) (.inr (by decide)) (by decide)
        (.inr (by decide)) (.condition hb) (.nil (i := 1)))))
    (.cons (i := 0) (j := 0) (w := "oR".toList) (.inl rfl) (by decide) (.inl rfl)
      (.bracket (.term (i := 0) (j := 0) (.bracket (.term (i := 1) (j := 1)
        (.condition horder))))) (.nil (i := 0)))

theorem parse_unevenText :
    unevenExpr.WellFormed (nestingLimit + 1) ∧
    GroupText [.string "p%"] nestingLimit unevenExpr unevenText.toList ∧
    parse unevenText [.string "p%"] = .ok unevenExpr :=
  ⟨unevenExpr_wellFormed, unevenText_text, parse_text unevenExpr_wellFormed unevenText_text⟩

end DocQuery.Query
