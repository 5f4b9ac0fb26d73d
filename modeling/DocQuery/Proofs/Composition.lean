import DocQuery.Proofs.Continuation
import DocQuery.Proofs.Reading.Group

namespace DocQuery.Query

/-- A query that is read with at most so many brackets open at once. -/
def NestsWithin (params : List Json) (n : Nat) (query : String) : Prop :=
  ∃ e r, GroupRead params n false query.toList e r

def bracketed (query : String) : String := "(" ++ query ++ ")"

def Logic.separator : Logic → String
  | .and => " AND "
  | .or => " OR "

def joined (logic : Logic) (queries : List String) : String :=
  logic.separator.intercalate (queries.map bracketed)

theorem nestsWithin_iff {params : List Json} {n : Nat} {query : String} :
    NestsWithin params n query ↔ ((groupWithin params n false).read query.toList).isOk := by
  have hread {e : Expr} {r : List Char} : group false (termWithin params n) query.toList = .ok (e, r) ↔
      GroupRead params n false query.toList e r := groupRead_iff fun _ _ _ => termRead_iff
  rw [groupWithin_read]
  constructor
  · rintro ⟨e, r, h⟩
    rw [hread.2 h]
    rfl
  · intro h
    cases hg : group false (termWithin params n) query.toList with
    | error f => simp [hg, Except.isOk, Except.toBool] at h
    | ok p => exact ⟨p.1, p.2, hread.1 hg⟩

instance (params : List Json) (n : Nat) (query : String) : Decidable (NestsWithin params n query) :=
  decidable_of_iff _ nestsWithin_iff.symm

def furtherText (logic : Logic) : List String → List Char
  | [] => []
  | q :: qs => ' ' :: connective logic ++ ' ' :: '(' :: q.toList ++ ')' :: furtherText logic qs

theorem toList_bracketed (query : String) :
    (bracketed query).toList = '(' :: query.toList ++ [')'] := by
  simp [bracketed]

theorem toList_separator (logic : Logic) :
    logic.separator.toList = ' ' :: connective logic ++ [' '] := by
  cases logic <;> rfl

theorem toList_joined (logic : Logic) (q : String) (qs : List String) :
    (joined logic (q :: qs)).toList = '(' :: q.toList ++ ')' :: furtherText logic qs := by
  induction qs generalizing q with
  | nil => simp [joined, toList_bracketed, furtherText]
  | cons p ps ih =>
    have hstep : joined logic (q :: p :: ps) =
        bracketed q ++ logic.separator ++ joined logic (p :: ps) :=
      String.intercalate_cons_cons
    simp [hstep, ih, toList_bracketed, toList_separator, furtherText]

theorem follow_outermost {s r : List Char} (h : follow false s = .ok (.stop r)) : r = [] := by
  rcases hs : skipBlanks s with _ | ⟨c, t⟩
  · simp only [follow, hs] at h
    cases h
    rfl
  · by_cases hc : c = ')'
    · subst hc
      simp only [follow, hs] at h
      contradiction
    · rw [follow_of_start hs hc] at h
      split at h
      · cases h
      · split at h <;> cases h

theorem MembersRead.rest_eq_nil {params : List Json} {n : Nat} {logic : Logic} {es : List Expr}
    {s r : List Char} (h : MembersRead params n false logic s es r) : r = [] := by
  induction es generalizing s with
  | nil =>
    obtain ⟨hf⟩ := h
    exact follow_outermost hf
  | cons e es ih =>
    obtain _ | ⟨_, _, hm⟩ := h
    exact ih hm

theorem GroupRead.rest_eq_nil {params : List Json} {n : Nat} {e : Expr} {s r : List Char}
    (h : GroupRead params n false s e r) : r = [] := by
  cases h with
  | term _ hf => exact follow_outermost hf
  | members _ hm _ => exact hm.rest_eq_nil

theorem GroupRead.bracket {params : List Json} {n : Nat} {e : Expr} {s : List Char}
    (h : GroupRead params n false s e []) (k : Nat) (u : List Char) :
    TermRead params (n + 1) (blanks k ++ '(' :: s ++ ')' :: u) e u := by
  have hopen : skipBlanks (blanks k ++ '(' :: s ++ ')' :: u) = '(' :: (s ++ ')' :: u) := by
    rw [List.append_assoc, skipBlanks_blanks, List.cons_append, skipBlanks_of_head? (by simp)]
  exact .bracket hopen (h.close u) (skipBlanks_of_head? (by simp))

section

variable {params : List Json} {n : Nat}

def ReadAs (params : List Json) (n : Nat) (q : String × Expr) : Prop :=
  GroupRead params n false q.1.toList q.2 []

theorem membersRead_further (logic : Logic) {qs : List (String × Expr)}
    (h : ∀ q ∈ qs, ReadAs params n q) :
    MembersRead params (n + 1) false logic (furtherText logic (qs.map Prod.fst))
      (qs.map Prod.snd) [] := by
  induction qs with
  | nil => exact .nil rfl
  | cons q qs ih =>
    obtain ⟨hq, hqs⟩ := List.forall_mem_cons.1 h
    have hterm := GroupRead.bracket hq 1 (furtherText logic (qs.map Prod.fst))
    have hword : sameWord (connective logic) (connective logic) := by cases logic <;> decide
    have hfollow := follow_connective false hword
      (r := blanks 1 ++ '(' :: q.1.toList ++ ')' :: furtherText logic (qs.map Prod.fst))
      (.cons (by decide)) 1
    have htext : furtherText logic ((q :: qs).map Prod.fst) = blanks 1 ++ (connective logic ++
        (blanks 1 ++ '(' :: q.1.toList ++ ')' :: furtherText logic (qs.map Prod.fst))) := by
      simp [furtherText, blanks]
    rw [htext]
    exact .cons hfollow hterm (ih hqs)

theorem groupRead_bracketed {q : String × Expr} (h : ReadAs params n q) :
    GroupRead params (n + 1) false (bracketed q.1).toList q.2 [] := by
  rw [toList_bracketed]
  exact .term (GroupRead.bracket h 0 []) rfl

theorem groupRead_joined (logic : Logic) {qs : List (String × Expr)} (hlen : 2 ≤ qs.length)
    (h : ∀ q ∈ qs, ReadAs params n q) :
    GroupRead params (n + 1) false (joined logic (qs.map Prod.fst)).toList
      (.group logic (qs.map Prod.snd)) [] := by
  cases qs with
  | nil => contradiction
  | cons q qs =>
    obtain ⟨hq, hqs⟩ := List.forall_mem_cons.1 h
    rw [List.map_cons, toList_joined]
    refine .members (GroupRead.bracket hq 0 _) (membersRead_further logic hqs) ?_
    rintro hnil
    simp [List.map_eq_nil_iff.1 hnil] at hlen

end

theorem parse_of_groupRead {params : List Json} {n : Nat} (hn : n = nestingLimit) {query : String}
    {e : Expr} {r : List Char} (h : GroupRead params n false query.toList e r) :
    parse query params = .ok e :=
  parse_iff.2 ⟨r, hn ▸ h⟩

theorem readAs_of_parse {params : List Json} {n : Nat} (hn : n + 1 = nestingLimit) {query : String}
    {e : Expr} (hparse : parse query params = .ok e) (hnest : NestsWithin params n query) :
    ReadAs params n (query, e) := by
  obtain ⟨e', r, h⟩ := hnest
  rw [parse_of_groupRead hn h.succ] at hparse
  cases hparse
  have hr := h.rest_eq_nil
  rw [hr] at h
  exact h

/-- Brackets around an accepted query change nothing, and accepted queries in brackets are
the members of the group that a connective makes of them. -/
theorem parse_joined (params : List Json) :
    (∀ query e, parse query params = .ok e → NestsWithin params 199 query →
      parse (bracketed query) params = .ok e) ∧
    ∀ logic (qs : List (String × Expr)), 2 ≤ qs.length →
      (∀ q ∈ qs, parse q.1 params = .ok q.2 ∧ NestsWithin params 199 q.1) →
      parse (joined logic (qs.map Prod.fst)) params = .ok (.group logic (qs.map Prod.snd)) := by
  constructor
  · intro query e hparse hnest
    have hread : ReadAs params 199 (query, e) := readAs_of_parse rfl hparse hnest
    have hbracketed := groupRead_bracketed hread
    exact parse_of_groupRead rfl hbracketed
  · intro logic qs hlen hqs
    have hread : ∀ q ∈ qs, ReadAs params 199 q := by
      intro q hq
      obtain ⟨hparse, hnest⟩ := hqs q hq
      exact readAs_of_parse rfl hparse hnest
    have hjoined := groupRead_joined logic hlen hread
    exact parse_of_groupRead rfl hjoined

def alternatives : List (String × Expr) := [
  ("c like 'p%'", .condition ⟨"c", .like "p%"⟩),
  ("d is null", .condition ⟨"d", .isNull⟩)]

theorem parse_alternatives : ∀ q ∈ alternatives, parse q.1 [.int 1] = .ok q.2 := by
  simp only [alternatives, List.forall_mem_cons, List.not_mem_nil, false_implies, implies_true,
    and_true]
  exact ⟨rfl, rfl⟩

theorem nestsWithin_alternatives : ∀ q ∈ alternatives, NestsWithin [.int 1] 199 q.1 := by
  simp only [alternatives, List.forall_mem_cons, List.not_mem_nil, false_implies, implies_true,
    and_true]
  decide +kernel

def variedQueries : List (String × Expr) := [
  ("a = ?1", .condition ⟨"a", .eq (.int 1)⟩),
  ("b != 'x)'", .condition ⟨"b", .ne (.string "x)")⟩),
  ("(c like 'p%') OR (d is null)", .group .or (alternatives.map Prod.snd))]

theorem nestsWithin_variedQueries : ∀ q ∈ variedQueries, NestsWithin [.int 1] 199 q.1 := by
  simp only [variedQueries, List.forall_mem_cons, List.not_mem_nil, false_implies, implies_true,
    and_true]
  decide +kernel

theorem parse_joined_varied :
    (∀ q ∈ alternatives, parse q.1 [.int 1] = .ok q.2 ∧ NestsWithin [.int 1] 199 q.1) ∧
    (∀ q ∈ variedQueries, parse q.1 [.int 1] = .ok q.2 ∧ NestsWithin [.int 1] 199 q.1) ∧
    parse "(a = ?1)" [.int 1] = .ok (.condition ⟨"a", .eq (.int 1)⟩) ∧
    parse "(a = ?1) AND (b != 'x)') AND ((c like 'p%') OR (d is null))" [.int 1] =
      .ok (.group .and (variedQueries.map Prod.snd)) := by
  have halternatives : ∀ q ∈ alternatives, parse q.1 [.int 1] = .ok q.2 ∧
      NestsWithin [.int 1] 199 q.1 :=
    fun q hq => ⟨parse_alternatives q hq, nestsWithin_alternatives q hq⟩
  have hjoined : parse "(c like 'p%') OR (d is null)" [.int 1] =
      .ok (.group .or (alternatives.map Prod.snd)) :=
    (parse_joined [.int 1]).2 .or alternatives (by decide) halternatives
  have hparse : ∀ q ∈ variedQueries, parse q.1 [.int 1] = .ok q.2 := by
    simp only [variedQueries, List.forall_mem_cons, List.not_mem_nil, false_implies, implies_true,
      and_true]
    exact ⟨rfl, rfl, hjoined⟩
  have hqs : ∀ q ∈ variedQueries, parse q.1 [.int 1] = .ok q.2 ∧ NestsWithin [.int 1] 199 q.1 :=
    fun q hq => ⟨hparse q hq, nestsWithin_variedQueries q hq⟩
  obtain ⟨hfirst, hnest⟩ := hqs _ List.mem_cons_self
  exact ⟨halternatives, hqs, (parse_joined [.int 1]).1 _ _ hfirst hnest,
    (parse_joined [.int 1]).2 .and variedQueries (by decide) hqs⟩

end DocQuery.Query
