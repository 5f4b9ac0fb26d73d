import DocQuery.Proofs.Continuation
import DocQuery.Proofs.Outline
import DocQuery.Proofs.Scanning

namespace DocQuery.Query

def Reading.outcome {α : Type} (x : Reading α) : Except Failure (α × List Char) :=
  x.result.map (·, x.rest)

theorem Reading.outcome_map {α β : Type} (f : α → β) (x : Reading α) :
    (x.map f).outcome = x.outcome.map fun (a, r) => (f a, r) := by
  obtain ⟨result, rest⟩ := x
  cases result <;> rfl

def Follow.outcome : Follow → Option (List Char × Logic) × List Char
  | .stop r => (none, r)
  | .connective logic place r => (some (place, logic), r)

theorem Reading.map_id {α : Type} (x : Reading α) : (x.map fun a => a) = x := by
  obtain ⟨_ | _, _⟩ := x <;> rfl

namespace Source

open Scan

variable {src : Source} {c : Scanner} {s : List Char} {n : Nat}

theorem does_numeral {stops : List Char} (hstops : ∀ x ∈ stops, IsAscii x)
    (h : Stands src c s) :
    Does src n 1 0 (src.numeral stops) c (Query.numeral stops s).outcome := by
  rcases ht : Query.takeUntil stops s with ⟨t, r⟩
  have htake := does_takeUntil (n := n) hstops h ht
  rw [numeral]
  refine does_look (remainder_eq h) ?_
  cases hx : Binary64.ofText? t with
  | none =>
    simp only [Query.numeral, ht, hx]
    refine htake.andFail (by omega) fun d _ => ?_
    simp only [hx]
    exact does_refuse _ _
  | some x =>
    have hnone : Binary64.ofText? [] = none := by decide
    have hne : t ≠ [] := by
      rintro rfl
      rw [hnone] at hx
      contradiction
    have hpos := byteLength_pos hne
    simp only [Query.numeral, ht, hx]
    refine htake.andThen (by omega) (by omega) fun d hd => ?_
    simp only [hx]
    exact does_pure hd _

theorem does_parameter {s : List Char} (h : Stands src c ('?' :: s)) :
    Does src n 1 0 src.parameter c (Query.parameter src.params ('?' :: s)).outcome := by
  rcases ht : Query.takeUntil [' ', ')'] s with ⟨t, r⟩
  have hadvance := does_advance_one (n := n) (by decide) h
  have htake : ∀ d, Stands src d s →
      Does src n (byteLength t) 0 (src.takeUntil [' ', ')']) d (.ok (t, r)) :=
    fun d hd => does_takeUntil (by simp [IsAscii]) hd ht
  rw [parameter]
  refine does_look (remainder_eq h) ?_
  refine hadvance.andThen (by omega) (by omega) fun d hd => ?_
  simp only [Query.parameter, List.drop_one, List.tail_cons, ht]
  cases hw : wordIndex? t with
  | none =>
    refine (htake d hd).andFail (by omega) fun e _ => ?_
    simp only [hw]
    exact does_refuse _ _
  | some i =>
    cases i with
    | zero =>
      refine (htake d hd).andFail (by omega) fun e _ => ?_
      simp only [hw]
      exact does_refuse _ _
    | succ i =>
      cases hv : src.params[i]? with
      | none =>
        simp only [hv]
        refine (htake d hd).andFail (by omega) fun e _ => ?_
        simp only [hw, hv]
        exact does_refuse _ _
      | some v =>
        simp only [hv]
        refine (htake d hd).andThen (by omega) (by omega) fun e he => ?_
        simp only [hw, hv]
        exact does_pure he _

theorem does_quoted {s : List Char} (h : Stands src c ('\'' :: s)) :
    Does src n 1 0 src.quoted c (Query.quoted ('\'' :: s)).outcome := by
  have hadvance := does_advance_one (n := n) (by decide) h
  rw [quoted]
  refine does_look (remainder_eq h) ?_
  refine hadvance.andThen (by omega) (by omega) fun d hd => ?_
  refine does_look (remainder_eq hd) ?_
  rw [closing?_eq, Query.quoted, List.drop_one, List.tail_cons]
  simp only [reduceCtorEq, decide_false]
  rcases hq : closeQuote? false s with _ | ⟨cs, r⟩
  · exact does_refuse _ _
  · have happ := closeQuote?_append_eq hq
    have hlen : 0 + byteLength cs + 1 = byteLength (cs ++ ['\'']) := by
      rw [byteLength_append, Nat.zero_add]
      rfl
    subst happ
    simp only [Option.map_some, hlen]
    have hclose : cs ++ '\'' :: r = (cs ++ ['\'']) ++ r := by simp
    refine (does_advance (hclose ▸ hd)).andThen (by omega) (by omega) fun e he => ?_
    exact does_pure he _

theorem map_cons_map_append (items : List Json) (v : Json) (x : Reading (List Json)) :
    (x.map (v :: ·)).map (items ++ ·) = x.map (items ++ [v] ++ ·) := by
  obtain ⟨_ | vs, r⟩ := x <;> simp [Reading.map, Except.map]

theorem does_listItems_cons {place : List Char} {items : List Json} {x : Char}
    {out : Except Failure (List Json × List Char)} (h : Stands src c (x :: s))
    (hbody : ∀ d, Stands src d (x :: s) → Does src n 1 0
      (if x = ')' then do
        src.advance 1
        return items
      else if x = ',' || x = ' ' then do
        src.advance 1
        src.listItems place items
      else if x = '\'' then do
        let text ← src.quoted
        src.listItems place (items ++ [.string text])
      else do
        let number ← src.numeral listStops
        src.listItems place (items ++ [number])) d out) :
    Does src n 0 (-1) (src.listItems place items) c out := by
  -- a round of the loop over the items of a list, told by the character in front
  obtain ⟨b, hb, hbyte⟩ := exists_head?_bytes_cons x s
  rw [listItems]
  refine (does_nextRound h).bind (i := 1) (j := 0) (by omega) (by omega) fun d hd => ?_
  refine does_look (current_eq hd) ?_
  simp only [hb, hbyte _ (show IsAscii ')' by decide), hbyte _ (show IsAscii ',' by decide),
    hbyte _ (show IsAscii ' ' by decide), hbyte _ (show IsAscii '\'' by decide)]
  exact hbody d hd

theorem does_listItems (place : List Char) (items : List Json) (h : Stands src c s) :
    Does src n 0 (-1) (src.listItems place items) c
      ((Query.listItems place s).map (items ++ ·)).outcome := by
  fun_induction Query.listItems place s generalizing c items with
  | case1 =>
    rw [listItems]
    refine (does_nextRound h).andFail (by omega) fun d hd => ?_
    exact does_look (current_eq hd) (does_refuse _ _)
  | case2 s =>
    refine does_listItems_cons h fun d hd => ?_
    rw [if_pos rfl]
    refine (does_advance_one (by decide) hd).andThen (by omega) (by omega) fun e he => ?_
    have hout : (Reading.map (items ++ ·) ⟨.ok [], s⟩).outcome = .ok (items, s) := by
      simp [Reading.outcome, Reading.map, Except.map]
    exact hout ▸ does_pure he items
  | case3 x s hclose hsep ih =>
    have hx : IsAscii x := by
      have hor : x = ',' ∨ x = ' ' := by simpa using hsep
      rcases hor with rfl | rfl <;> decide
    refine does_listItems_cons h fun d hd => ?_
    rw [if_neg hclose, if_pos hsep]
    exact (does_advance_one hx hd).bind (by omega) (by omega) fun e he => ih items he
  | case4 s cs r hquote _ _ ih =>
    have hquoted : Query.quoted ('\'' :: s) = ⟨.ok (String.ofList cs), r⟩ := by
      simp only [Query.quoted, List.drop_one, List.tail_cons, hquote]
    refine does_listItems_cons h fun d hd => ?_
    rw [if_neg (by decide), if_neg (by decide), if_pos rfl]
    have hitem := does_quoted (n := n) hd
    rw [hquoted] at hitem
    refine hitem.bind (i := 0) (j := -1) (by omega) (by omega) fun e he => ?_
    rw [map_cons_map_append]
    exact ih (items ++ [.string (String.ofList cs)]) he
  | case5 s hquote =>
    have hquoted : Query.quoted ('\'' :: s) = ⟨.error ⟨.unterminatedString, '\'' :: s⟩, s⟩ := by
      simp only [Query.quoted, List.drop_one, List.tail_cons, hquote]
      rfl
    refine does_listItems_cons h fun d hd => ?_
    rw [if_neg (by decide), if_neg (by decide), if_pos rfl]
    have hitem := does_quoted (n := n) hd
    rw [hquoted] at hitem
    exact hitem.bind_error (by omega)
  | case6 x s hclose hsep hquote item v hv =>
    rename_i ih
    have hrest : item.rest = (Query.takeUntil listStops s).2 := by
      have hsplit : (Query.takeUntil listStops (x :: s)).2 = (Query.takeUntil listStops s).2 := by
        simp_all [Query.takeUntil, listStops]
      simp only [item, Query.numeral] at hv ⊢
      split <;> exact hsplit
    have hout : item.outcome = .ok (v, (Query.takeUntil listStops s).2) := by
      rw [Reading.outcome, hv, hrest]
      rfl
    refine does_listItems_cons h fun d hd => ?_
    rw [if_neg hclose, if_neg hsep, if_neg hquote]
    have hitem : Does src n 1 0 (src.numeral listStops) d item.outcome :=
      does_numeral (by simp [listStops, IsAscii]) hd
    rw [hout] at hitem
    refine hitem.bind (i := 0) (j := -1) (by omega) (by omega) fun e he => ?_
    rw [map_cons_map_append]
    exact ih (items ++ [v]) he
  | case7 x s hclose hsep hquote item e =>
    rename_i he
    have hout : item.outcome = .error e := by
      rw [Reading.outcome, he]
      rfl
    refine does_listItems_cons h fun d hd => ?_
    rw [if_neg hclose, if_neg hsep, if_neg hquote]
    have hitem : Does src n 1 0 (src.numeral listStops) d item.outcome :=
      does_numeral (by simp [listStops, IsAscii]) hd
    rw [hout] at hitem
    exact hitem.bind_error (by omega)

theorem does_list {s : List Char} (h : Stands src c ('(' :: s)) :
    Does src n 1 0 src.list c (Query.list ('(' :: s)).outcome := by
  rw [list]
  refine does_look (remainder_eq h) ?_
  have hadvance := does_advance_one (n := n) (by decide) h
  refine hadvance.bind (i := 0) (j := -1) (by omega) (by omega) fun d hd => ?_
  have hitems := does_listItems (n := n) ('(' :: s) [] hd
  simp only [List.nil_append, Reading.map_id] at hitems
  rw [Query.list, Reading.outcome_map]
  exact hitems.map Json.array

theorem does_value (h : Stands src c s) :
    Does src n 1 0 src.value c (Query.value src.params s).outcome := by
  rw [value]
  refine does_look (current_eq h) ?_
  simp only [head?_bytes_eq (show IsAscii '?' by decide),
    head?_bytes_eq (show IsAscii '(' by decide), head?_bytes_eq (show IsAscii '\'' by decide)]
  by_cases hparameter : s.head? = some '?'
  · obtain ⟨t, rfl⟩ := List.head?_eq_some_iff.1 hparameter
    exact does_parameter h
  by_cases hlist : s.head? = some '('
  · obtain ⟨t, rfl⟩ := List.head?_eq_some_iff.1 hlist
    exact does_list h
  by_cases hquoted : s.head? = some '\''
  · obtain ⟨t, rfl⟩ := List.head?_eq_some_iff.1 hquoted
    exact (Reading.outcome_map _ _).symm ▸ (does_quoted h).map Json.string
  · have hnumeral : Query.value src.params s = Query.numeral [' ', ')'] s := by
      unfold Query.value
      split <;> simp_all
    rw [if_neg hparameter, if_neg hlist, if_neg hquoted, hnumeral]
    exact does_numeral (by simp [IsAscii]) h

theorem does_afterIs (h : Stands src c s) :
    Does src n 0 0 src.afterIs c (Query.afterIs s).outcome := by
  rw [afterIs]
  refine (does_skipBlanks h).andThen (by omega) (by omega) fun d hd => ?_
  unfold Query.afterIs
  dsimp only
  refine does_eat (by decide) hd (fun r e hnull he => ?_) (fun hnull => ?_)
  · simp only [hnull]
    exact does_pure he _
  refine does_eat (by decide) hd (fun r e hnot he => ?_) (fun hnot => ?_)
  · simp only [hnull, hnot]
    refine (does_skipBlanks he).andThen (by omega) (by omega) fun e he => ?_
    refine does_eat (by decide) he (fun r e hnull he => ?_) (fun hnull => ?_)
    · simp only [hnull]
      exact does_pure he _
    · simp only [hnull]
      exact does_look (remainder_eq he) (does_refuse _ _)
  · simp only [hnull, hnot]
    exact does_look (remainder_eq hd) (does_refuse _ _)

theorem does_afterNot (h : Stands src c s) :
    Does src n 0 0 src.afterNot c (Query.afterNot s).outcome := by
  rw [afterNot]
  refine (does_skipBlanks h).andThen (by omega) (by omega) fun d hd => ?_
  unfold Query.afterNot
  dsimp only
  refine does_eat (by decide) hd (fun r e hlike he => ?_) (fun hlike => ?_)
  · simp only [hlike]
    exact does_pure he _
  refine does_eat (by decide) hd (fun r e hin he => ?_) (fun hin => ?_)
  · simp only [hlike, hin]
    exact does_pure he _
  · simp only [hlike, hin]
    exact does_look (remainder_eq hd) (does_refuse _ _)

theorem does_operator (h : Stands src c s) :
    Does src n 1 0 src.operator c (Query.operator s).outcome := by
  rw [operator]
  refine does_look (remainder_eq h) ?_
  unfold Query.operator
  rcases hw : wordBeforeSpace? s with _ | ⟨w, r⟩
  · exact (does_no_word h hw).andFail (by omega) fun d _ => does_refuse _ _
  refine (does_word h hw).andThen (by omega) (by omega) fun d hd => ?_
  have hsame : ∀ {key}, key ∈ keywords →
      ((bytes w).map foldByte = (bytes key).map foldByte ↔ sameWord key w) :=
    fun hkey => sameWord_bytes (isAscii_of_mem_keywords _ hkey) w
  simp only [hsame (show keywordLike ∈ keywords by decide),
    hsame (show keywordIn ∈ keywords by decide), hsame (show keywordIs ∈ keywords by decide),
    hsame (show keywordNot ∈ keywords by decide)]
  cases hsymbol : Operator.ofSymbol? w with
  | some o => exact does_pure hd o
  | none =>
    by_cases hlike : sameWord keywordLike w
    · simp only [hlike, if_true]
      exact does_pure hd _
    by_cases hin : sameWord keywordIn w
    · simp only [hlike, hin, if_true]
      exact does_pure hd _
    by_cases his : sameWord keywordIs w
    · simp only [hlike, hin, his, if_true]
      exact does_afterIs hd
    by_cases hnot : sameWord keywordNot w
    · simp only [hlike, hin, his, hnot, if_true]
      exact does_afterNot hd
    · simp only [hlike, hin, his, hnot]
      exact does_refuse _ _

theorem does_condition (h : Stands src c s) :
    Does src n 1 0 src.condition c (Query.condition src.params s) := by
  rw [condition]
  refine does_look (remainder_eq h) ?_
  unfold Query.condition
  rcases hw : wordBeforeSpace? s with _ | ⟨field, t⟩
  · exact (does_no_word h hw).andFail (by omega) fun d _ => does_refuse _ _
  refine (does_word h hw).andThen (by omega) (by omega) fun d hd => ?_
  refine (does_skipBlanks hd).andThen (by omega) (by omega) fun d hd => ?_
  have hoperator := does_operator (n := n) hd
  rcases ho : Query.operator (Query.skipBlanks t) with ⟨f | o, u⟩
  · rw [ho] at hoperator
    simp only [ho]
    exact hoperator.bind_error (by omega)
  rw [ho] at hoperator
  simp only [ho]
  refine hoperator.andThen (by omega) (by omega) fun d hd => ?_
  by_cases htakes : o.takesValue
  · simp only [htakes, if_true]
    refine (does_skipBlanks hd).andThen (by omega) (by omega) fun d hd => ?_
    refine does_look (remainder_eq hd) ?_
    have hvalue : Does src n 1 0 src.value d
        (Query.value src.params (Query.skipBlanks u)).outcome := does_value hd
    rcases hv : Query.value src.params (Query.skipBlanks u) with ⟨f | v, r⟩
    · rw [hv] at hvalue
      dsimp only
      exact hvalue.bind_error (by omega)
    rw [hv] at hvalue
    dsimp only
    refine hvalue.andThen (by omega) (by omega) fun d hd => ?_
    cases hb : o.bind? v with
    | none =>
      have hbind : Does src n 0 0 (src.bind o v (Query.skipBlanks u)) d
          (.error ⟨.unsupportedOperator, Query.skipBlanks u⟩) := by
        simp only [bind, hb]
        exact does_refuse _ _
      exact hbind.bind_error (by omega)
    | some p =>
      have hbind : src.bind o v (Query.skipBlanks u) d = some (.ok p, d) := by
        simp only [bind, hb]
        rfl
      exact does_look hbind (does_pure hd _)
  · -- an operator that takes no value is applied to any
    simp only [htakes]
    refine does_look (remainder_eq hd) ?_
    cases o <;> first | exact absurd rfl htakes | exact does_pure hd _

theorem does_connective (place : List Char) (h : Stands src c s) :
    Does src n 0 0 (src.connective place) c
      (match afterKeyword? keywordAnd s with
      | some r => .ok (.and, r)
      | none =>
        match afterKeyword? keywordOr s with
        | some r => .ok (.or, r)
        | none => .error ⟨.missingLogic, place⟩) := by
  rw [connective]
  refine does_eat (by decide) h (fun r d hand hd => ?_) (fun hand => ?_)
  · simp only [hand]
    exact does_pure hd _
  refine does_eat (by decide) h (fun r d hor hd => ?_) (fun hor => ?_)
  · simp only [hand, hor]
    exact does_pure hd _
  · simp only [hand, hor]
    exact does_refuse _ _

theorem does_follow (depth : Nat) (h : Stands src c s) :
    Does src n 0 0 (src.follow depth) c
      ((Query.follow (decide (0 < depth)) s).map Follow.outcome) := by
  rw [follow]
  refine (does_skipBlanks h).andThen (by omega) (by omega) fun d hd => ?_
  refine does_look (current_eq hd) ?_
  rcases hs : Query.skipBlanks s with _ | ⟨x, t⟩
  · rw [hs] at hd
    simp only [Query.follow, hs]
    exact does_pure hd none
  rw [hs] at hd
  obtain ⟨b, hb, hbyte⟩ := exists_head?_bytes_cons x t
  simp only [hb, hbyte _ (show IsAscii ')' by decide)]
  by_cases hclose : x = ')'
  · subst hclose
    simp only [Query.follow, hs, if_true]
    by_cases hdepth : 0 < depth
    · simp only [hdepth, if_true, decide_true]
      exact does_pure hd none
    · simp only [hdepth, if_false, decide_false]
      exact does_look (remainder_eq hd) (does_refuse _ _)
  · rw [if_neg hclose]
    refine does_look (remainder_eq hd) ?_
    have hlogic := (does_connective (n := n) (x :: t) hd).map fun logic => some (x :: t, logic)
    rw [follow_of_start hs hclose]
    cases hand : afterKeyword? keywordAnd (x :: t) with
    | some r =>
      simp only [hand] at hlogic ⊢
      exact hlogic
    | none =>
      cases hor : afterKeyword? keywordOr (x :: t) <;> simp only [hand, hor] at hlogic ⊢ <;>
        exact hlogic

theorem beginsNothing_eq (h : Stands src c s) :
    src.beginsNothing c = some (.ok (s.isEmpty || s.head? = some ')' || atKeyword keywordAnd s ||
      atKeyword keywordOr s), c) := by
  have hclose := head?_bytes_eq (show IsAscii ')' by decide) (s := s)
  rw [beginsNothing, bind_of_ok (isAtEnd_eq h)]
  cases s.isEmpty
  · rw [if_neg (by decide), bind_of_ok (current_eq h)]
    simp only [hclose]
    by_cases hhead : s.head? = some ')'
    · simp only [hhead]
      rfl
    · rw [if_neg hhead, bind_of_ok (isAt_eq (by decide) h)]
      cases hand : atKeyword keywordAnd s
      · rw [if_neg (by decide), isAt_eq (by decide) h]
        simp only [hhead, decide_false, Bool.false_or]
      · simp only [Bool.or_true, Bool.true_or]
        rfl
  · rfl

section

variable {depth : Nat} {known : Option Logic} {es : List Expr}

theorem does_terms_of_follow {x : Option (List Char × Logic)} {r : List Char}
    {out : Except Failure (Expr × List Char)} (h : Stands src c s)
    (hf : (Query.follow (decide (0 < depth)) s).map Follow.outcome = .ok (x, r))
    (hbody : ∀ d, Stands src d r → Does src n 0 0
      (match x with
      | none => groupOf known es
      | some (place, next) =>
        if known.any (· ≠ next) then src.refuse .mixedLogic place
        else do
          let e ← src.term depth
          src.terms depth (some next) (es ++ [e])) d out) :
    Does src n (-1) (-1) (src.terms depth known es) c out := by
  rw [terms]
  refine (does_nextRound h).andThen (by omega) (by omega) fun d hd => ?_
  have hfollow := does_follow (n := n) depth hd
  rw [hf] at hfollow
  exact hfollow.andThen (by omega) (by omega) hbody

theorem does_terms_error {f : Failure} (h : Stands src c s)
    (hf : Query.follow (decide (0 < depth)) s = .error f) :
    Does src n (-1) (-1) (src.terms depth known es) c (.error f) := by
  rw [terms]
  refine (does_nextRound h).andThen (by omega) (by omega) fun d hd => ?_
  have hfollow := does_follow (n := n) depth hd
  rw [hf] at hfollow
  exact hfollow.bind_error (by omega)

end

section

variable {depth : Nat} {t : Consumer Failure Expr}
  (ht : ∀ c s, Stands src c s → Does src n 1 0 (src.term depth) c (t.read s))
include ht

theorem does_terms {known : Option Logic} {logic : Logic} (es : List Expr) (h : Stands src c s)
    (hknown : known = some logic ∨ known = none ∧
      ∃ place r, Query.follow (decide (0 < depth)) s = .ok (.connective logic place r)) :
    Does src n (-1) (-1) (src.terms depth known es) c
      ((siblings (decide (0 < depth)) t logic s).map fun (fs, r) =>
        (.group logic (es ++ fs), r)) := by
  -- the connective is known from the first round on, in which it is read
  have hagrees : ∀ {known : Option Logic} {p : Prop}, known = some logic ∨ known = none ∧ p →
      known.any (· ≠ logic) = false := by
    rintro _ _ (rfl | ⟨rfl, -⟩) <;> simp
  fun_induction siblings (decide (0 < depth)) t logic s generalizing c known es with
  | case1 s f hf => exact does_terms_error h hf
  | case2 s r hf =>
    obtain rfl | ⟨-, place, u, hu⟩ := hknown
    · have hfollow := congrArg (·.map Follow.outcome) hf
      refine does_terms_of_follow h hfollow fun d hd => ?_
      simp only [Except.map, List.append_nil]
      exact does_pure hd _
    · simp [hf] at hu
  | case3 s place r f hr hf =>
    have hfollow := congrArg (·.map Follow.outcome) hf
    refine does_terms_of_follow h hfollow fun d hd => ?_
    have hterm := ht d r hd
    rw [hr] at hterm
    simp only [hagrees hknown, Bool.false_eq_true, if_false]
    exact hterm.bind_error (by omega)
  | case4 s place r e u hr hf ih =>
    have hfollow := congrArg (·.map Follow.outcome) hf
    refine does_terms_of_follow h hfollow fun d hd => ?_
    have hterm := ht d r hd
    rw [hr] at hterm
    simp only [hagrees hknown, Bool.false_eq_true, if_false]
    refine hterm.bind (i := -1) (j := -1) (by omega) (by omega) fun d hd => ?_
    have hrest := ih (es ++ [e]) hd (.inl rfl)
    cases hs : siblings (decide (0 < depth)) t logic u <;>
      simpa [hs, Except.map] using hrest
  | case5 s next place r hf hne =>
    obtain rfl | ⟨-, place, u, hu⟩ := hknown
    · have hfollow := congrArg (·.map Follow.outcome) hf
      refine does_terms_of_follow h hfollow fun d hd => ?_
      simp only [Option.any_some, ne_eq, Ne.symm hne, not_false_eq_true, decide_true, if_true]
      exact does_refuse _ _
    · simp_all

theorem does_group (h : Stands src c s) :
    Does src (n + 1) 0 0 (src.group depth) c
      (Query.group (decide (0 < depth)) t s) := by
  rw [group]
  refine does_inGroup h fun d hd => ?_
  rw [group_eq]
  have hterm := ht d s hd
  rcases hfirst : t.read s with f | ⟨first, u⟩
  · rw [hfirst] at hterm
    exact hterm.bind_error (by omega)
  rw [hfirst] at hterm
  refine hterm.bind (i := -1) (j := -1) (by omega) (by omega) fun d hd => ?_
  dsimp only
  rcases hf : Query.follow (decide (0 < depth)) u with f | ⟨r⟩ | ⟨logic, place, r⟩
  · exact does_terms_error hd hf
  · have hfollow := congrArg (·.map Follow.outcome) hf
    refine does_terms_of_follow hd hfollow fun d hd => ?_
    exact does_pure hd _
  · exact does_terms ht [first] hd (.inr ⟨rfl, place, r, hf⟩)

end

theorem does_closing (place : List Char) (e : Expr) (h : Stands src c s) :
    Does src n 0 0 (src.closing place e) c
      (match Query.skipBlanks s with
      | ')' :: r => .ok (e, r)
      | _ => .error ⟨.unbalancedParentheses, place⟩) := by
  rw [closing]
  refine (does_skipBlanks h).andThen (by omega) (by omega) fun d hd => ?_
  refine does_look (current_eq hd) ?_
  simp only [head?_bytes_eq (show IsAscii ')' by decide)]
  by_cases hclose : (Query.skipBlanks s).head? = some ')'
  · obtain ⟨r, hr⟩ := List.head?_eq_some_iff.1 hclose
    rw [hr] at hd ⊢
    exact (does_advance_one (by decide) hd).andThen (by omega) (by omega) fun d hd =>
      does_pure hd e
  · rw [if_neg hclose]
    split
    · next hr => simp [hr] at hclose
    · exact does_refuse _ _

theorem does_unbracketed (inner : Option (Consumer Failure Expr))
    (hopen : (Query.skipBlanks s).head? ≠ some '(') (h : Stands src c (Query.skipBlanks s)) :
    Does src n 1 0 src.unbracketed c (Query.term src.params inner s) := by
  rw [unbracketed]
  refine does_look (beginsNothing_eq h) ?_
  rcases hs : Query.skipBlanks s with _ | ⟨x, t⟩
  · rw [hs] at h
    simp only [Query.term, hs]
    exact does_look (remainder_eq h) (does_refuse _ _)
  rw [hs] at h hopen
  by_cases hclose : x = ')'
  · subst hclose
    simp only [Query.term, hs]
    exact does_look (remainder_eq h) (does_refuse _ _)
  rw [term_of_start hs (by simpa using hopen) hclose]
  by_cases hkeyword : atKeyword keywordAnd (x :: t) || atKeyword keywordOr (x :: t)
  · rw [if_pos hkeyword, if_pos (by simpa [hclose] using hkeyword)]
    exact does_look (remainder_eq h) (does_refuse _ _)
  · rw [if_neg hkeyword, if_neg (by simpa [hclose] using hkeyword)]
    exact (does_condition h).map Expr.condition

theorem does_term_of_inner {depth : Nat} (inner : Option (Consumer Failure Expr))
    (hlimit : inner = none → nestingLimit ≤ depth)
    (hgroup : ∀ g, inner = some g → depth < nestingLimit ∧ ∀ d s, Stands src d s →
      Does src n 0 0 (src.group (depth + 1)) d (g.read s))
    (h : Stands src c s) :
    Does src n 1 0 (src.term depth) c (Query.term src.params inner s) := by
  rw [term]
  refine (does_skipBlanks h).bind (i := 1) (j := 0) (by omega) (by omega) fun d hd => ?_
  refine does_look (current_eq hd) ?_
  simp only [head?_bytes_eq (show IsAscii '(' by decide)]
  by_cases hopen : (Query.skipBlanks s).head? = some '('
  · rw [if_pos hopen]
    obtain ⟨t, hs⟩ := List.head?_eq_some_iff.1 hopen
    rw [hs] at hd
    refine does_look (remainder_eq hd) ?_
    simp only [Query.term, hs]
    cases inner with
    | none =>
      rw [if_pos (hlimit rfl)]
      exact does_refuse _ _
    | some g =>
      obtain ⟨hdepth, hg⟩ := hgroup g rfl
      rw [if_neg (Nat.not_le.2 hdepth)]
      refine (does_advance_one (by decide) hd).andThen (by omega) (by omega) fun d hd => ?_
      have hinner := hg d t hd
      dsimp only
      rcases hread : g.read t with f | ⟨e, u⟩
      · rw [hread] at hinner
        exact hinner.bind_error (by omega)
      · rw [hread] at hinner
        exact hinner.andThen (by omega) (by omega) fun d hd => does_closing _ e hd
  · rw [if_neg hopen]
    exact does_unbracketed inner hopen hd

theorem does_term (m depth : Nat) (hm : nestingLimit - depth = m) (h : Stands src c s) :
    Does src m 1 0 (src.term depth) c ((termWithin src.params m).read s) := by
  induction m generalizing depth c s with
  | zero => exact does_term_of_inner none (fun _ => Nat.le_of_sub_eq_zero hm) nofun h
  | succ m ih =>
    refine does_term_of_inner (some (groupWithin src.params m true)) nofun ?_ h
    rintro _ ⟨⟩
    refine ⟨by omega, fun d s hd => ?_⟩
    rw [groupWithin_read]
    have hterm : ∀ c s, Stands src c s →
        Does src m 1 0 (src.term (depth + 1)) c ((termWithin src.params m).read s) :=
      fun c s hc => ih (depth + 1) (by omega) hc
    exact does_group hterm hd

theorem does_parse (src : Source) :
    Does src (nestingLimit + 1) 0 0 src.parse .start
      ((groupWithin src.params nestingLimit false).read src.query.toList) := by
  rw [groupWithin_read, parse]
  have hterm : ∀ c s, Stands src c s → Does src nestingLimit 1 0 (src.term 0) c
      ((termWithin src.params nestingLimit).read s) := fun c s hc => does_term nestingLimit 0 rfl hc
  exact does_group hterm ⟨[], rfl, rfl⟩

theorem parse_run (src : Source) :
    ∃ d, src.parse.run.run .start =
        some ((Query.parse src.query src.params).mapError .refused, d) ∧
      Leads src (nestingLimit + 1) 0 .start d := by
  have h := does_parse src
  unfold Query.parse
  cases hread : (groupWithin src.params nestingLimit false).read src.query.toList with
  | ok p =>
    rw [hread] at h
    cases h with
    | success d hd _ _ hlead => exact ⟨d, hd, hlead⟩
  | error f =>
    rw [hread] at h
    cases h with
    | failure d hd hlead => exact ⟨d, hd, hlead⟩

end Source

end DocQuery.Query
