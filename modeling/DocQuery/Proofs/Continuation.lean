import DocQuery.Proofs.Derivation

namespace DocQuery.Query

theorem skipBlanks_close (s u : List Char) :
    skipBlanks (s ++ ')' :: u) = skipBlanks s ++ ')' :: u := by
  induction s with
  | nil => rfl
  | cons c s ih =>
    by_cases hc : c = ' '
    · subst hc
      exact ih
    · rw [List.cons_append, skipBlanks_of_head? (by simp [hc]), skipBlanks_of_head? (by simp [hc])]
      rfl

theorem takeUntil_close {stops : List Char} (h : ')' ∈ stops) (s u : List Char) :
    takeUntil stops (s ++ ')' :: u) =
      ((takeUntil stops s).1, (takeUntil stops s).2 ++ ')' :: u) := by
  induction s with
  | nil => simp [takeUntil, h]
  | cons c s ih =>
    simp only [takeUntil, Prod.mk.injEq, List.contains_eq_mem] at ih
    by_cases hc : c ∈ stops <;> simp [takeUntil, hc, ih]

theorem wordBeforeSpace?_close {s w r : List Char} (h : wordBeforeSpace? s = some (w, r))
    (u : List Char) : wordBeforeSpace? (s ++ ')' :: u) = some (w, r ++ ')' :: u) := by
  obtain ⟨rfl, hne, hw, hr⟩ := wordBeforeSpace?_inv h
  obtain ⟨r, rfl⟩ := List.head?_eq_some_iff.1 hr
  have hword := wordBeforeSpace?_word hne hw 0 (r ++ ')' :: u)
  simpa [blanks] using hword

theorem afterKeyword?_close {k : List Char} (hk : k ∈ keywords) (s u : List Char) :
    afterKeyword? k (s ++ ')' :: u) = (afterKeyword? k s).map (· ++ ')' :: u) := by
  have hlower : keywords.all (·.all (·.toLower != ')')) := by decide
  have hclose : ∀ c ∈ k, c.toLower ≠ ')' := by simpa using List.all_eq_true.1 hlower k hk
  clear hk
  induction k generalizing s with
  | nil => cases s <;> simp [afterKeyword?, endsKeyword]
  | cons c k ih =>
    obtain ⟨hc, hk⟩ := List.forall_mem_cons.1 hclose
    cases s with
    | nil => simp [afterKeyword?, hc]
    | cons d s =>
      rw [List.cons_append, afterKeyword?, afterKeyword?]
      split
      · exact ih s hk
      · rfl

theorem afterIs_close {s r : List Char} {o : Operator} (h : afterIs s = ⟨.ok o, r⟩)
    (u : List Char) : afterIs (s ++ ')' :: u) = ⟨.ok o, r ++ ')' :: u⟩ := by
  have hnull := afterKeyword?_close (k := keywordNull) (by decide)
  have hnot := afterKeyword?_close (k := keywordNot) (by decide)
  unfold afterIs at h ⊢
  simp only [skipBlanks_close, hnull, hnot]
  cases hn : afterKeyword? keywordNull (skipBlanks s) with
  | some t =>
    simp only [hn, Reading.mk.injEq, Except.ok.injEq] at h
    obtain ⟨rfl, rfl⟩ := h
    rfl
  | none =>
    cases ht : afterKeyword? keywordNot (skipBlanks s) with
    | none => simp [hn, ht, Reading.fail] at h
    | some t =>
      cases hm : afterKeyword? keywordNull (skipBlanks t) with
      | none => simp [hn, ht, hm, Reading.fail] at h
      | some v =>
        simp only [hn, ht, hm, Reading.mk.injEq, Except.ok.injEq] at h
        obtain ⟨rfl, rfl⟩ := h
        simp only [Option.map_none, Option.map_some, skipBlanks_close, hnull, hm]

theorem afterNot_close {s r : List Char} {o : Operator} (h : afterNot s = ⟨.ok o, r⟩)
    (u : List Char) : afterNot (s ++ ')' :: u) = ⟨.ok o, r ++ ')' :: u⟩ := by
  have hlike := afterKeyword?_close (k := keywordLike) (by decide)
  have hin := afterKeyword?_close (k := keywordIn) (by decide)
  unfold afterNot at h ⊢
  simp only [skipBlanks_close, hlike, hin]
  cases hl : afterKeyword? keywordLike (skipBlanks s) with
  | some t =>
    simp only [hl, Reading.mk.injEq, Except.ok.injEq] at h
    obtain ⟨rfl, rfl⟩ := h
    rfl
  | none =>
    cases hi : afterKeyword? keywordIn (skipBlanks s) with
    | none => simp [hl, hi, Reading.fail] at h
    | some t =>
      simp only [hl, hi, Reading.mk.injEq, Except.ok.injEq] at h
      obtain ⟨rfl, rfl⟩ := h
      rfl

theorem operator_close {s r : List Char} {o : Operator} (h : operator s = ⟨.ok o, r⟩)
    (u : List Char) : operator (s ++ ')' :: u) = ⟨.ok o, r ++ ')' :: u⟩ := by
  unfold operator at h ⊢
  cases hw : wordBeforeSpace? s with
  | none => simp [hw, Reading.fail] at h
  | some p =>
    obtain ⟨word, t⟩ := p
    have hword := wordBeforeSpace?_close hw u
    cases ho : Operator.ofSymbol? word with
    | some symbol =>
      simp only [hw, ho, Reading.mk.injEq, Except.ok.injEq] at h
      obtain ⟨rfl, rfl⟩ := h
      simp only [hword, ho]
    | none =>
      simp only [hw, ho] at h
      simp only [hword, ho]
      by_cases hlike : sameWord keywordLike word
      · rw [if_pos hlike] at h ⊢
        cases h
        rfl
      by_cases hin : sameWord keywordIn word
      · rw [if_neg hlike, if_pos hin] at h ⊢
        cases h
        rfl
      by_cases his : sameWord keywordIs word
      · rw [if_neg hlike, if_neg hin, if_pos his] at h ⊢
        exact afterIs_close h u
      by_cases hnot : sameWord keywordNot word
      · rw [if_neg hlike, if_neg hin, if_neg his, if_pos hnot] at h ⊢
        exact afterNot_close h u
      · simp [hlike, hin, his, hnot, Reading.fail] at h

theorem numeral_close {stops s r : List Char} {v : Json} (hs : ')' ∈ stops)
    (h : numeral stops s = ⟨.ok v, r⟩) (u : List Char) :
    numeral stops (s ++ ')' :: u) = ⟨.ok v, r ++ ')' :: u⟩ := by
  unfold numeral at h ⊢
  simp only [takeUntil_close hs]
  cases hx : Binary64.ofText? (takeUntil stops s).1 with
  | none => simp [hx, Reading.fail] at h
  | some x =>
    simp only [hx, Reading.mk.injEq, Except.ok.injEq] at h
    obtain ⟨rfl, rfl⟩ := h
    rfl

theorem parameter_close {params : List Json} {c : Char} {s r : List Char} {v : Json}
    (h : parameter params (c :: s) = ⟨.ok v, r⟩) (u : List Char) :
    parameter params (c :: s ++ ')' :: u) = ⟨.ok v, r ++ ')' :: u⟩ := by
  have hstop : ')' ∈ [' ', ')'] := by decide
  unfold parameter at h ⊢
  simp only [List.cons_append, List.drop_succ_cons, List.drop_zero, takeUntil_close hstop] at h ⊢
  cases hw : wordIndex? (takeUntil [' ', ')'] s).1 with
  | none => simp [hw, Reading.fail] at h
  | some i =>
    cases i with
    | zero => simp [hw, Reading.fail] at h
    | succ i =>
      cases hv : params[i]? with
      | none => simp [hw, hv, Reading.fail] at h
      | some w =>
        simp only [hw, hv, Reading.mk.injEq, Except.ok.injEq] at h
        obtain ⟨rfl, rfl⟩ := h
        simp only [hv]

theorem closeQuote?_behind {escaped : Bool} {s cs r : List Char}
    (h : closeQuote? escaped s = some (cs, r)) (t : List Char) :
    closeQuote? escaped (s ++ t) = some (cs, r ++ t) := by
  induction s generalizing escaped cs with
  | nil => contradiction
  | cons c s ih =>
    rw [List.cons_append, closeQuote?]
    rw [closeQuote?] at h
    by_cases hc : c = '\'' && !escaped
    · rw [if_pos hc] at h ⊢
      cases h
      rfl
    · rw [if_neg hc] at h ⊢
      obtain ⟨⟨ds, q⟩, hq, heq⟩ := Option.map_eq_some_iff.1 h
      cases heq
      rw [ih hq]
      rfl

theorem quoted_close {c : Char} {s r : List Char} {v : String}
    (h : quoted (c :: s) = ⟨.ok v, r⟩) (u : List Char) :
    quoted (c :: s ++ ')' :: u) = ⟨.ok v, r ++ ')' :: u⟩ := by
  unfold quoted at h ⊢
  simp only [List.cons_append, List.drop_succ_cons, List.drop_zero] at h ⊢
  cases hq : closeQuote? false s with
  | none => simp [hq, Reading.fail] at h
  | some p =>
    simp only [hq, Reading.mk.injEq, Except.ok.injEq] at h
    obtain ⟨rfl, rfl⟩ := h
    rw [closeQuote?_behind hq]

theorem Reading.map_eq_ok {α β : Type} {f : α → β} {x : Reading α} {y : β} {r : List Char}
    (h : x.map f = ⟨.ok y, r⟩) : ∃ a, x = ⟨.ok a, r⟩ ∧ f a = y := by
  obtain ⟨result, rest⟩ := x
  cases result with
  | error e => cases h
  | ok a =>
    cases h
    exact ⟨a, rfl, rfl⟩

theorem listItems_close {place s r : List Char} {vs : List Json}
    (h : listItems place s = ⟨.ok vs, r⟩) (place' u : List Char) :
    listItems place' (s ++ ')' :: u) = ⟨.ok vs, r ++ ')' :: u⟩ := by
  have hstop : ')' ∈ listStops := by decide
  fun_induction listItems place s generalizing vs with
  | case1 => cases h
  | case2 s =>
    cases h
    rw [List.cons_append, listItems, if_pos rfl]
  | case3 c s hclose hsep ih =>
    rw [List.cons_append, listItems, if_neg hclose, if_pos hsep]
    exact ih h
  | case4 s cs t hq hclose hsep ih =>
    obtain ⟨ws, hws, rfl⟩ := Reading.map_eq_ok h
    rw [List.cons_append, listItems, if_neg hclose, if_neg hsep, if_pos rfl]
    split
    · next cs' t' hq' =>
      rw [closeQuote?_behind hq] at hq'
      cases hq'
      rw [ih hws]
      rfl
    · next hq' =>
      rw [closeQuote?_behind hq] at hq'
      contradiction
  | case5 => cases h
  | case6 c s hclose hsep hquote item v hv =>
    rename_i ih
    obtain ⟨ws, hws, rfl⟩ := Reading.map_eq_ok h
    have hitem : numeral listStops (c :: s) = ⟨.ok v, item.rest⟩ := by
      rw [← hv]
    have hnumeral := numeral_close hstop hitem u
    rw [List.cons_append] at hnumeral
    rw [List.cons_append, listItems, if_neg hclose, if_neg hsep, if_neg hquote]
    simp only [hnumeral, takeUntil_close hstop, ih hws]
    rfl
  | case7 => cases h

theorem value_close {params : List Json} {s r : List Char} {v : Json}
    (h : value params s = ⟨.ok v, r⟩) (u : List Char) :
    value params (s ++ ')' :: u) = ⟨.ok v, r ++ ')' :: u⟩ := by
  unfold value at h
  split at h
  · exact parameter_close h u
  · obtain ⟨vs, hvs, rfl⟩ := Reading.map_eq_ok h
    simp only [List.drop_succ_cons, List.drop_zero] at hvs
    simp only [List.cons_append, value, list, List.drop_succ_cons, List.drop_zero,
      listItems_close hvs]
    rfl
  · obtain ⟨cs, hcs, rfl⟩ := Reading.map_eq_ok h
    have hquoted := quoted_close hcs u
    rw [List.cons_append] at hquoted ⊢
    simp only [value, hquoted]
    rfl
  · next hparameter hlist hquote =>
    have hnumeral := numeral_close (by decide) h u
    cases s with
    | nil =>
      have hnone : Binary64.ofText? [] = none := by decide
      simp [numeral, takeUntil, hnone, Reading.fail] at h
    | cons c s =>
      unfold value
      split
      · next heq => exact absurd (congrArg (· :: s) (List.cons.inj heq).1) (hparameter s)
      · next heq => exact absurd (congrArg (· :: s) (List.cons.inj heq).1) (hlist s)
      · next heq => exact absurd (congrArg (· :: s) (List.cons.inj heq).1) (hquote s)
      · exact hnumeral

theorem condition_close {params : List Json} {s r : List Char} {c : Condition}
    (h : condition params s = .ok (c, r)) (u : List Char) :
    condition params (s ++ ')' :: u) = .ok (c, r ++ ')' :: u) := by
  unfold condition at h ⊢
  cases hw : wordBeforeSpace? s with
  | none => simp [hw] at h
  | some p =>
    obtain ⟨field, t⟩ := p
    have hword := wordBeforeSpace?_close hw u
    rcases ho : operator (skipBlanks t) with ⟨e | o, v⟩
    · simp [hw, ho] at h
    have hoperator := operator_close ho u
    simp only [hw, ho] at h
    simp only [hword, skipBlanks_close, hoperator]
    by_cases ht : o.takesValue
    · rw [if_pos ht] at h ⊢
      rcases hv : value params (skipBlanks v) with ⟨e | w, q⟩
      · simp [hv] at h
      have hvalue := value_close hv u
      simp only [hv] at h
      simp only [hvalue]
      cases hb : o.bind? w with
      | none => simp [hb] at h
      | some p =>
        simp only [hb, Except.ok.injEq, Prod.mk.injEq] at h
        obtain ⟨rfl, rfl⟩ := h
        rfl
    · rw [if_neg ht] at h ⊢
      cases hb : o.bind? .null with
      | none => simp [hb] at h
      | some p =>
        simp only [hb, Except.ok.injEq, Prod.mk.injEq] at h
        obtain ⟨rfl, rfl⟩ := h
        rfl

def Follow.behind (u : List Char) : Follow → Follow
  | stop rest => stop (rest ++ ')' :: u)
  | connective logic place rest => connective logic (place ++ ')' :: u) (rest ++ ')' :: u)

theorem follow_of_start {nested : Bool} {s t : List Char} {c : Char} (hs : skipBlanks s = c :: t)
    (hc : c ≠ ')') :
    follow nested s =
      match afterKeyword? keywordAnd (c :: t) with
      | some r => .ok (.connective .and (c :: t) r)
      | none =>
        match afterKeyword? keywordOr (c :: t) with
        | some r => .ok (.connective .or (c :: t) r)
        | none => .error ⟨.missingLogic, c :: t⟩ := by
  simp only [follow, hs]
  split
  · contradiction
  · next heq => exact absurd (List.cons.inj heq).1 hc
  · rfl

theorem follow_close {nested : Bool} {s : List Char} {f : Follow} (h : follow nested s = .ok f)
    (u : List Char) : follow true (s ++ ')' :: u) = .ok (f.behind u) := by
  have hskip := skipBlanks_close s u
  rcases hs : skipBlanks s with _ | ⟨c, t⟩
  · rw [hs] at hskip
    simp only [follow, hs] at h
    cases h
    simp only [follow, hskip]
    rfl
  rw [hs, List.cons_append] at hskip
  by_cases hc : c = ')'
  · subst hc
    simp only [follow, hs] at h
    cases nested with
    | true =>
      cases h
      simp only [follow, hskip]
      rfl
    | false => contradiction
  · have hand := afterKeyword?_close (k := keywordAnd) (by decide) (c :: t) u
    have hor := afterKeyword?_close (k := keywordOr) (by decide) (c :: t) u
    rw [List.cons_append] at hand hor
    rw [follow_of_start hs hc] at h
    rw [follow_of_start hskip hc, hand, hor]
    cases ha : afterKeyword? keywordAnd (c :: t) with
    | some r =>
      rw [ha] at h
      cases h
      rfl
    | none =>
      cases ho : afterKeyword? keywordOr (c :: t) with
      | some r =>
        rw [ha, ho] at h
        cases h
        rfl
      | none => simp [ha, ho] at h

mutual

theorem TermRead.close {params : List Json} : ∀ {n : Nat} {s r : List Char} {e : Expr},
    TermRead params n s e r → ∀ u, TermRead params n (s ++ ')' :: u) e (r ++ ')' :: u)
  | _, s, _, _, .condition hf hc, u => by
    refine .condition hf ?_
    rw [skipBlanks_close]
    exact condition_close hc u
  | _, s, _, _, .bracket (t := t) (u := v) (r := r) ht hg hv, u => by
    have hopen : skipBlanks (s ++ ')' :: u) = '(' :: (t ++ ')' :: u) := by
      rw [skipBlanks_close, ht, List.cons_append]
    have hclose : skipBlanks (v ++ ')' :: u) = ')' :: (r ++ ')' :: u) := by
      rw [skipBlanks_close, hv, List.cons_append]
    exact .bracket hopen (hg.close u) hclose
termination_by structural _ _ _ _ h => h

theorem GroupRead.close {params : List Json} : ∀ {n : Nat} {nested : Bool} {s r : List Char}
    {e : Expr}, GroupRead params n nested s e r →
      ∀ u, GroupRead params n true (s ++ ')' :: u) e (r ++ ')' :: u)
  | _, _, _, _, _, .term ht hf, u => .term (ht.close u) (follow_close hf u)
  | _, _, _, _, _, .members ht hm hne, u => .members (ht.close u) (hm.close u) hne
termination_by structural _ _ _ _ _ h => h

theorem MembersRead.close {params : List Json} : ∀ {n : Nat} {nested : Bool} {logic : Logic}
    {s r : List Char} {es : List Expr}, MembersRead params n nested logic s es r →
      ∀ u, MembersRead params n true logic (s ++ ')' :: u) es (r ++ ')' :: u)
  | _, _, _, _, _, _, .nil hf, u => .nil (follow_close hf u)
  | _, _, _, _, _, _, .cons hf ht hm, u => .cons (follow_close hf u) (ht.close u) (hm.close u)
termination_by structural _ _ _ _ _ _ h => h

end

mutual

theorem TermRead.succ {params : List Json} : ∀ {n : Nat} {s r : List Char} {e : Expr},
    TermRead params n s e r → TermRead params (n + 1) s e r
  | _, _, _, _, .condition hf hc => .condition hf hc
  | _, _, _, _, .bracket ht hg hv => .bracket ht hg.succ hv
termination_by structural _ _ _ _ h => h

theorem GroupRead.succ {params : List Json} : ∀ {n : Nat} {nested : Bool} {s r : List Char}
    {e : Expr}, GroupRead params n nested s e r → GroupRead params (n + 1) nested s e r
  | _, _, _, _, _, .term ht hf => .term ht.succ hf
  | _, _, _, _, _, .members ht hm hne => .members ht.succ hm.succ hne
termination_by structural _ _ _ _ _ h => h

theorem MembersRead.succ {params : List Json} : ∀ {n : Nat} {nested : Bool} {logic : Logic}
    {s r : List Char} {es : List Expr}, MembersRead params n nested logic s es r →
      MembersRead params (n + 1) nested logic s es r
  | _, _, _, _, _, _, .nil hf => .nil hf
  | _, _, _, _, _, _, .cons hf ht hm => .cons hf ht.succ hm.succ
termination_by structural _ _ _ _ _ _ h => h

end

end DocQuery.Query
