import DocQuery.Proofs.Composition
import DocQuery.Proofs.Outline

namespace DocQuery.Query

def RefusedAt (params : List Json) (query : String) (fault : Fault) (remainder : String) : Prop :=
  parse query params = .error (.located fault ⟨remainder, query⟩)

theorem refusedAt_of_group {params : List Json} {n : Nat} (hn : n = nestingLimit)
    {query remainder : String} {fault : Fault}
    (h : group false (termWithin params n) query.toList = .error ⟨fault, remainder.toList⟩) :
    RefusedAt params query fault remainder := by
  rw [← groupWithin_read, hn] at h
  simp [RefusedAt, parse, h, Failure.within]

def Follow.outside : Follow → Except Failure Follow
  | .stop (')' :: r) => .error ⟨.unbalancedParentheses, ')' :: r⟩
  | f => .ok f

theorem follow_outside {s : List Char} {f : Follow} (h : follow true s = .ok f) :
    follow false s = f.outside := by
  rcases hs : skipBlanks s with _ | ⟨c, t⟩
  · simp only [follow, hs] at h ⊢
    cases h
    rfl
  by_cases hc : c = ')'
  · subst hc
    simp only [follow, hs] at h ⊢
    cases h
    rfl
  · rw [follow_of_start hs hc] at h ⊢
    cases f with
    | stop r =>
      split at h
      · cases h
      · split at h <;> cases h
    | connective => exact h

theorem follow_inside {s : List Char} {f : Follow} (h : follow false s = .ok f) :
    follow true s = .ok f := by
  rcases hs : skipBlanks s with _ | ⟨c, t⟩
  · simp only [follow, hs] at h ⊢
    exact h
  by_cases hc : c = ')'
  · subst hc
    simp only [follow, hs] at h
    contradiction
  · rw [follow_of_start hs hc] at h ⊢
    exact h

section

variable {params : List Json} {n : Nat} {nested : Bool} {logic : Logic} {s t u : List Char}
  {e : Expr} {f : Failure}

theorem siblings_of_member {place : List Char}
    (hf : follow nested s = .ok (.connective logic place t)) (ht : TermRead params n t e u) :
    siblings nested (termWithin params n) logic s =
      (siblings nested (termWithin params n) logic u).map fun (es, r) => (e :: es, r) := by
  rw [siblings_eq]
  simp only [hf, if_true, termRead_iff.2 ht]

theorem group_of_first {place : List Char} (ht : TermRead params n s e u)
    (hf : follow nested u = .ok (.connective logic place t)) :
    group nested (termWithin params n) s =
      (siblings nested (termWithin params n) logic u).map fun (es, r) =>
        (.group logic (e :: es), r) := by
  rw [group_eq]
  simp only [termRead_iff.2 ht, hf]

theorem group_of_term_error (h : (termWithin params n).read s = .error f) :
    group nested (termWithin params n) s = .error f := by
  rw [group_eq]
  simp only [h]

theorem group_of_follow_error (ht : TermRead params n s e u) (hf : follow nested u = .error f) :
    group nested (termWithin params n) s = .error f := by
  rw [group_eq]
  simp only [termRead_iff.2 ht, hf]

theorem group_of_open (h : group true (termWithin params n) s = .error f) :
    group nested (termWithin params (n + 1)) ('(' :: s) = .error f := by
  apply group_of_term_error
  have hopen : skipBlanks ('(' :: s) = '(' :: s := skipBlanks_of_head? (by simp)
  rw [← groupWithin_read] at h
  simp only [termWithin, term, hopen, insideBrackets, h]

theorem MembersRead.extra {es : List Expr}
    (h : MembersRead params n true logic s es (')' :: u)) :
    siblings false (termWithin params n) logic s = .error ⟨.unbalancedParentheses, ')' :: u⟩ := by
  induction es generalizing s with
  | nil =>
    obtain ⟨hf⟩ := h
    rw [siblings_eq, follow_outside hf]
    rfl
  | cons e es ih =>
    obtain _ | ⟨hf, ht, hm⟩ := h
    rw [siblings_of_member (follow_outside hf) ht, ih hm]
    rfl

theorem GroupRead.extra (h : GroupRead params n true s e (')' :: u)) :
    group false (termWithin params n) s = .error ⟨.unbalancedParentheses, ')' :: u⟩ := by
  cases h with
  | term ht hf => exact group_of_follow_error ht (follow_outside hf)
  | members ht hm hne =>
    have hextra := hm.extra
    obtain _ | ⟨hf, _, _⟩ := hm
    · contradiction
    · rw [group_of_first ht (follow_outside hf), hextra]
      rfl

theorem MembersRead.inside {es : List Expr} (h : MembersRead params n false logic s es u) :
    MembersRead params n true logic s es u := by
  induction es generalizing s with
  | nil =>
    obtain ⟨hf⟩ := h
    exact .nil (follow_inside hf)
  | cons e es ih =>
    obtain _ | ⟨hf, ht, hm⟩ := h
    exact .cons (follow_inside hf) ht (ih hm)

theorem GroupRead.inside (h : GroupRead params n false s e u) :
    GroupRead params n true s e u := by
  cases h with
  | term ht hf => exact .term ht (follow_inside hf)
  | members ht hm hne => exact .members ht hm.inside hne

theorem GroupRead.unclosed (h : GroupRead params n false s e []) :
    (termWithin params (n + 1)).read ('(' :: s) =
      .error ⟨.unbalancedParentheses, '(' :: s⟩ := by
  have hopen : skipBlanks ('(' :: s) = '(' :: s := skipBlanks_of_head? (by simp)
  have hread : (groupWithin params n true).read s = .ok (e, []) := by
    rw [groupWithin_read]
    exact (groupRead_iff fun _ _ _ => termRead_iff).2 h.inside
  simp only [termWithin, Query.term, hopen, insideBrackets, hread]
  rfl

theorem GroupRead.mono {m : Nat} (h : GroupRead params n nested s e u) (hnm : n ≤ m) :
    GroupRead params m nested s e u := by
  induction hnm with
  | refl => exact h
  | step _ ih => exact ih.succ

end

/-- One closing bracket behind a query is refused where it stands, and one opening bracket in
front of it is refused as never closed. -/
theorem parse_unbalanced {params : List Json} {query : String}
    (h : NestsWithin params 199 query) :
    (∀ r, RefusedAt params (query ++ ")" ++ r) .unbalancedParentheses (")" ++ r)) ∧
    RefusedAt params ("(" ++ query) .unbalancedParentheses ("(" ++ query) := by
  obtain ⟨e, rest, hread⟩ := h
  obtain rfl := hread.rest_eq_nil
  constructor
  · intro r
    apply refusedAt_of_group (n := 200) rfl
    have hextra := (hread.succ.close r.toList).extra
    simpa using hextra
  · apply refusedAt_of_group (n := 200) rfl
    have hunclosed : group false _ _ = _ := group_of_term_error hread.unclosed
    simpa using hunclosed

def listText : String := "(a = ?1 OR b is null) and c not in ('x)', 2, '(\\'')"

theorem parse_unbalanced_list :
    NestsWithin [.int 1] 199 listText ∧
    RefusedAt [.int 1] (listText ++ ")" ++ " or ((= 'y") .unbalancedParentheses
      (")" ++ " or ((= 'y") ∧
    RefusedAt [.int 1] ("(" ++ listText) .unbalancedParentheses ("(" ++ listText) := by
  have hnest : NestsWithin [.int 1] 199 listText := by decide +kernel
  obtain ⟨hextra, hunclosed⟩ := parse_unbalanced hnest
  exact ⟨hnest, hextra " or ((= 'y", hunclosed⟩

def chained (query : String) : List (String × String) → String
  | [] => bracketed query
  | (word, next) :: more => bracketed query ++ " " ++ word ++ " " ++ chained next more

def openings (k : Nat) : String := String.ofList (List.replicate k '(')

def chainText (tail : List Char) : List (String × String) → List Char
  | [] => tail
  | (word, query) :: more =>
    blanks 1 ++ (word.toList ++ (blanks 1 ++ '(' :: query.toList ++ ')' :: chainText tail more))

theorem toList_chained (query : String) (more : List (String × String)) (tail : List Char) :
    (chained query more).toList ++ tail =
      blanks 0 ++ '(' :: query.toList ++ ')' :: chainText tail more := by
  induction more generalizing query with
  | nil => simp [chained, toList_bracketed, chainText, blanks]
  | cons m more ih => simp [chained, toList_bracketed, chainText, blanks, ih]

theorem follow_chainText {logic : Logic} {m : String × String}
    (h : sameWord (connective logic) m.1.toList) (nested : Bool) (tail : List Char)
    (more : List (String × String)) :
    ∃ place, follow nested (chainText tail (m :: more)) =
      .ok (.connective logic place
        (blanks 1 ++ '(' :: m.2.toList ++ ')' :: chainText tail more)) :=
  ⟨_, follow_connective nested h (.cons (by decide)) 1⟩

section

variable {params : List Json} {n : Nat} {nested : Bool} {logic other : Logic}
  {place rest tail : List Char} {query : String} {more : List (String × String)}
  (hall : ∀ m ∈ more, sameWord (connective logic) m.1.toList ∧ NestsWithin params n m.2)
  (htail : follow nested tail = .ok (.connective other place rest)) (hother : other ≠ logic)
include hall htail hother

theorem siblings_chainText :
    siblings nested (termWithin params (n + 1)) logic (chainText tail more) =
      .error ⟨.mixedLogic, place⟩ := by
  -- the members of a group are read up to the connective that does not agree with theirs
  induction more with
  | nil =>
    rw [chainText, siblings_eq]
    simp only [htail, if_neg hother]
  | cons m more ih =>
    obtain ⟨⟨hword, e, r, hread⟩, hmore⟩ := List.forall_mem_cons.1 hall
    obtain rfl := hread.rest_eq_nil
    have hterm := hread.bracket 1 (chainText tail more)
    obtain ⟨_, hfollow⟩ := follow_chainText hword nested tail more
    rw [siblings_of_member hfollow hterm, ih hmore]
    rfl

theorem group_chained (hquery : NestsWithin params n query) (hmore : more ≠ []) :
    group nested (termWithin params (n + 1)) ((chained query more).toList ++ tail) =
      .error ⟨.mixedLogic, place⟩ := by
  have hsiblings := siblings_chainText hall htail hother
  obtain ⟨e, r, hread⟩ := hquery
  obtain rfl := hread.rest_eq_nil
  have hterm := hread.bracket 0 (chainText tail more)
  cases more with
  | nil => contradiction
  | cons m more =>
    obtain ⟨hword, -⟩ := hall m List.mem_cons_self
    obtain ⟨_, hfollow⟩ := follow_chainText hword nested tail more
    rw [toList_chained, group_of_first hterm hfollow, hsiblings]
    rfl

end

theorem group_of_openings {params : List Json} {n : Nat} {s : List Char} {f : Failure}
    (h : ∀ nested, group nested (termWithin params n) s = .error f) (k : Nat) (nested : Bool) :
    group nested (termWithin params (n + k)) (List.replicate k '(' ++ s) = .error f := by
  induction k generalizing nested with
  | zero => exact h nested
  | succ k ih => exact group_of_open (ih true)

/-- Queries in brackets that are joined by one connective cannot be followed by the other
one, whatever comes behind it and however many brackets are open around them. -/
theorem parse_mixed {params : List Json} {logic other : Logic} (hother : other ≠ logic)
    {n k : Nat} (hn : n + k < nestingLimit) {query : String} {more : List (String × String)}
    (hquery : NestsWithin params n query)
    (hall : ∀ m ∈ more, sameWord (connective logic) m.1.toList ∧ NestsWithin params n m.2)
    (hmore : more ≠ []) {word : String} (hword : sameWord (connective other) word.toList)
    (rest : String) :
    RefusedAt params (openings k ++ chained query more ++ " " ++ word ++ " " ++ rest)
      .mixedLogic (word ++ " " ++ rest) := by
  obtain ⟨m, hm⟩ := Nat.exists_eq_add_of_lt hn
  have hnest : ∀ p, NestsWithin params n p → NestsWithin params (n + m) p :=
    fun p ⟨e, r, hread⟩ => ⟨e, r, hread.mono (Nat.le_add_right n m)⟩
  apply refusedAt_of_group (n := n + m + 1 + k) (by omega)
  have hgroup : ∀ nested, group nested (termWithin params (n + m + 1))
      ((chained query more).toList ++ (blanks 1 ++ (word.toList ++ ' ' :: rest.toList))) =
        .error ⟨.mixedLogic, word.toList ++ ' ' :: rest.toList⟩ := by
    intro nested
    have hfollow := follow_connective nested hword (r := ' ' :: rest.toList)
      (.cons (by decide)) 1
    refine group_chained (fun m hm => ?_) hfollow hother (hnest _ hquery) hmore
    obtain ⟨hsame, hwithin⟩ := hall m hm
    exact ⟨hsame, hnest _ hwithin⟩
  have hopen := group_of_openings hgroup k false
  simpa [openings, blanks] using hopen

theorem parse_mixed_uneven :
    NestsWithin [.int 1] 197 listText ∧ NestsWithin [.int 1] 197 "b != 'x)'" ∧
    sameWord (connective .or) "oR".toList ∧ sameWord (connective .and) "And".toList ∧
    RefusedAt [.int 1] (openings 2 ++ chained listText [("oR", "b != 'x)'"), ("OR", listText)] ++
      " " ++ "And" ++ " " ++ ") or ((= 'y") .mixedLogic ("And" ++ " " ++ ") or ((= 'y") := by
  have hlist : NestsWithin [.int 1] 197 listText := by decide +kernel
  have hstring : NestsWithin [.int 1] 197 "b != 'x)'" := by decide +kernel
  have hor : sameWord (connective .or) "oR".toList := by decide
  have hand : sameWord (connective .and) "And".toList := by decide
  refine ⟨hlist, hstring, hor, hand, ?_⟩
  have hall : ∀ m ∈ [("oR", "b != 'x)'"), ("OR", listText)],
      sameWord (connective .or) m.1.toList ∧ NestsWithin [.int 1] 197 m.2 := by
    simp only [List.forall_mem_cons, List.not_mem_nil, false_implies, implies_true, and_true]
    exact ⟨⟨hor, hstring⟩, by decide, hlist⟩
  exact parse_mixed (by decide) (by decide) hlist hall (by simp) hand _

end DocQuery.Query
