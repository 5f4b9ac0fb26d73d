import DocQuery.Proofs.Outline

namespace DocQuery.Query

/-- The place of a failure is an end of the text and not in front of a space. -/
def Failure.LocatedIn (f : Failure) (s : List Char) : Prop := f.rest <:+ s ∧ f.rest.head? ≠ some ' '

theorem Failure.LocatedIn.of_suffix {f : Failure} {s t : List Char} (h : f.LocatedIn t)
    (hts : t <:+ s) : f.LocatedIn s :=
  ⟨h.1.trans hts, h.2⟩

theorem locatedIn_self {s : List Char} (hs : s.head? ≠ some ' ') (fault : Fault) :
    Failure.LocatedIn ⟨fault, s⟩ s :=
  ⟨List.suffix_refl s, hs⟩

def StaysIn {α : Type} (s : List Char) : Except Failure (α × List Char) → Prop
  | .ok (_, r) => r <:+ s
  | .error f => f.LocatedIn s

theorem StaysIn.of_suffix {α : Type} {s t : List Char} {out : Except Failure (α × List Char)}
    (h : StaysIn t out) (hts : t <:+ s) : StaysIn s out := by
  cases out with
  | ok p => exact List.IsSuffix.trans h hts
  | error f => exact Failure.LocatedIn.of_suffix h hts

theorem StaysIn.map {α β : Type} {s : List Char} {out : Except Failure (α × List Char)}
    (h : StaysIn s out) (f : α → β) : StaysIn s (out.map fun (a, r) => (f a, r)) := by
  cases out <;> exact h

theorem head?_skipBlanks (s : List Char) : (skipBlanks s).head? ≠ some ' ' := by
  intro h
  have hfirst := List.head?_dropWhile_not (fun c => decide (c = ' ')) s
  rw [skipBlanks] at h
  simp [h] at hfirst

theorem Reading.map_eq_error {α β : Type} {f : α → β} {x : Reading α} {e : Failure}
    (h : (x.map f).result = .error e) : x.result = .error e := by
  obtain ⟨result, rest⟩ := x
  cases result with
  | error e' => exact congrArg Except.error (Except.error.inj h)
  | ok a => contradiction

section

variable {s : List Char} {f : Failure}

theorem numeral_located (hs : s.head? ≠ some ' ') {stops : List Char}
    (h : (numeral stops s).result = .error f) : f.LocatedIn s := by
  unfold numeral at h
  dsimp only at h
  split at h
  · contradiction
  · cases h
    exact locatedIn_self hs _

theorem parameter_located (hs : s.head? ≠ some ' ') {params : List Json}
    (h : (parameter params s).result = .error f) : f.LocatedIn s := by
  unfold parameter at h
  dsimp only at h
  split at h
  · cases h
    exact locatedIn_self hs _
  · cases h
    exact locatedIn_self hs _
  · split at h
    · contradiction
    · cases h
      exact locatedIn_self hs _

theorem quoted_located (hs : s.head? ≠ some ' ') (h : (quoted s).result = .error f) :
    f.LocatedIn s := by
  unfold quoted at h
  split at h
  · contradiction
  · cases h
    exact locatedIn_self hs _

theorem listItems_located {place : List Char} (h : (listItems place s).result = .error f) :
    f.rest = place ∨ f.LocatedIn s := by
  fun_induction listItems place s with
  | case1 =>
    cases h
    exact .inl rfl
  | case2 => contradiction
  | case3 c s _ _ ih => exact (ih h).imp_right (·.of_suffix (List.suffix_cons c s))
  | case4 s cs r hquote _ _ ih =>
    obtain ⟨c, hc⟩ := closeQuote?_suffix hquote
    have hr : r <:+ '\'' :: s := ((List.suffix_cons c r).trans hc).trans (List.suffix_cons _ s)
    exact (ih (Reading.map_eq_error h)).imp_right (·.of_suffix hr)
  | case5 s =>
    cases h
    exact .inr (locatedIn_self (by simp) _)
  | case6 c s _ _ _ _ _ _ ih =>
    have hr := (takeUntil_suffix listStops s).trans (List.suffix_cons c s)
    exact (ih (Reading.map_eq_error h)).imp_right (·.of_suffix hr)
  | case7 c s _ hsep _ _ e he =>
    cases h
    refine .inr (numeral_located ?_ he)
    simp_all

theorem list_located (hs : s.head? ≠ some ' ') (h : (list s).result = .error f) :
    f.LocatedIn s := by
  obtain hplace | hitem := listItems_located (Reading.map_eq_error h)
  · exact ⟨hplace ▸ List.suffix_refl s, hplace ▸ hs⟩
  · exact hitem.of_suffix (List.drop_suffix 1 s)

theorem value_located (hs : s.head? ≠ some ' ') {params : List Json}
    (h : (value params s).result = .error f) : f.LocatedIn s := by
  unfold value at h
  split at h
  · exact parameter_located hs h
  · exact list_located hs h
  · exact quoted_located hs (Reading.map_eq_error h)
  · exact numeral_located hs h

theorem afterIs_located (h : (afterIs s).result = .error f) : f.LocatedIn s := by
  have hskip := skipBlanks_suffix s
  unfold afterIs at h
  dsimp only at h
  split at h
  · contradiction
  · split at h
    · next r hr =>
      split at h
      · contradiction
      · cases h
        have hrest := (skipBlanks_suffix r).trans ((afterKeyword?_suffix hr).trans hskip)
        exact (locatedIn_self (head?_skipBlanks r) _).of_suffix hrest
    · cases h
      exact (locatedIn_self (head?_skipBlanks s) _).of_suffix hskip

theorem afterNot_located (h : (afterNot s).result = .error f) : f.LocatedIn s := by
  unfold afterNot at h
  dsimp only at h
  split at h
  · contradiction
  · split at h
    · contradiction
    · cases h
      exact (locatedIn_self (head?_skipBlanks s) _).of_suffix (skipBlanks_suffix s)

theorem operator_located (hs : s.head? ≠ some ' ') (h : (operator s).result = .error f) :
    f.LocatedIn s := by
  unfold operator at h
  split at h
  · cases h
    exact locatedIn_self hs _
  · next word r hw =>
    have hr := wordBeforeSpace?_suffix hw
    split at h
    · contradiction
    · split at h
      · contradiction
      · split at h
        · contradiction
        · split at h
          · exact (afterIs_located h).of_suffix hr
          · split at h
            · exact (afterNot_located h).of_suffix hr
            · cases h
              exact locatedIn_self hs _

theorem condition_staysIn (hs : s.head? ≠ some ' ') (params : List Json) :
    StaysIn s (condition params s) := by
  unfold condition
  split
  · exact locatedIn_self hs _
  · next field t hw =>
    have ht := (skipBlanks_suffix t).trans (wordBeforeSpace?_suffix hw)
    have hrest := (operator_suffix (skipBlanks t)).trans ht
    split
    · next e r he =>
      exact (operator_located (head?_skipBlanks t) (congrArg Reading.result he)).of_suffix ht
    · next o u ho =>
      rw [ho] at hrest
      have hplace := (skipBlanks_suffix u).trans hrest
      have hvalue := (value_suffix params (skipBlanks u)).trans hplace
      split
      · dsimp only
        split
        · next e r he =>
          have hloc := value_located (head?_skipBlanks u) (congrArg Reading.result he)
          exact hloc.of_suffix hplace
        · next v r hv =>
          rw [hv] at hvalue
          split
          · exact hvalue
          · exact (locatedIn_self (head?_skipBlanks u) _).of_suffix hplace
      · -- an operator that takes no value is applied to any
        cases o <;> simp_all [Operator.takesValue, Operator.bind?, StaysIn]

end

theorem follow_located {nested : Bool} {s : List Char} {f : Failure}
    (h : follow nested s = .error f) : f.LocatedIn s := by
  have hskip : ∀ fault, Failure.LocatedIn ⟨fault, skipBlanks s⟩ s := fun fault =>
    (locatedIn_self (head?_skipBlanks s) fault).of_suffix (skipBlanks_suffix s)
  unfold follow at h
  dsimp only at h
  split at h
  · contradiction
  · split at h
    · contradiction
    · cases h
      exact hskip _
  · split at h
    · contradiction
    · split at h
      · contradiction
      · cases h
        exact hskip _

theorem follow_place {nested : Bool} {s place r : List Char} {logic : Logic}
    (h : follow nested s = .ok (.connective logic place r)) : place = skipBlanks s := by
  unfold follow at h
  dsimp only at h
  split at h
  · simp at h
  · split at h <;> simp at h
  · split at h
    · simp_all
    · split at h <;> simp_all

theorem term_staysIn (params : List Json) {inner : Option (Consumer Failure Expr)}
    (hinner : ∀ g ∈ inner, ∀ s, StaysIn s (g.read s)) (s : List Char) :
    StaysIn s (term params inner s) := by
  have hskip := skipBlanks_suffix s
  have hhead := head?_skipBlanks s
  unfold term
  dsimp only
  refine StaysIn.of_suffix ?_ hskip
  split
  · next r hopen =>
    rw [hopen] at hhead ⊢
    split
    · exact locatedIn_self hhead _
    · next group =>
      have hgroup := (hinner group rfl r).of_suffix (List.suffix_cons '(' r)
      split
      · next e he =>
        rw [he] at hgroup
        exact hgroup
      · next e u he =>
        rw [he] at hgroup
        split
        · next v hclose =>
          have hv : v <:+ u := (List.suffix_cons _ v).trans (hclose ▸ skipBlanks_suffix u)
          exact hv.trans hgroup
        · exact locatedIn_self hhead _
  · exact locatedIn_self hhead _
  · exact locatedIn_self hhead _
  · split
    · exact locatedIn_self hhead _
    · exact (condition_staysIn hhead params).map _

section

variable {t : Consumer Failure Expr} (ht : ∀ s, StaysIn s (t.read s)) (nested : Bool)
include ht

theorem siblings_staysIn (logic : Logic) (s : List Char) :
    StaysIn s (siblings nested t logic s) := by
  fun_induction siblings nested t logic s with
  | case1 s f hf => exact follow_located hf
  | case2 s r hf => exact follow_suffix hf
  | case3 s place r f hr hf =>
    have hterm := ht r
    rw [hr] at hterm
    exact hterm.of_suffix (follow_suffix hf)
  | case4 s place r e u hr hf ih =>
    have hterm := ht r
    rw [hr] at hterm
    exact (ih.map _).of_suffix (List.IsSuffix.trans hterm (follow_suffix hf))
  | case5 s next place r hf _ =>
    rw [follow_place hf]
    exact (locatedIn_self (head?_skipBlanks s) _).of_suffix (skipBlanks_suffix s)

theorem group_staysIn (s : List Char) : StaysIn s (group nested t s) := by
  rw [group_eq]
  have hterm := ht s
  split
  · next f he =>
    rw [he] at hterm
    exact hterm
  · next first u he =>
    rw [he] at hterm
    split
    · next f hf => exact (follow_located hf).of_suffix hterm
    · next r hf => exact (follow_suffix hf).trans hterm
    · next logic _ _ _ =>
      have hsiblings := siblings_staysIn ht nested logic u
      exact (hsiblings.map fun es => Expr.group logic (first :: es)).of_suffix hterm

end

theorem groupWithin_staysIn (params : List Json) (n : Nat) (nested : Bool) (s : List Char) :
    StaysIn s ((groupWithin params n nested).read s) := by
  rw [groupWithin_read]
  induction n generalizing nested s with
  | zero =>
    have hinner : ∀ g ∈ insideBrackets params 0, ∀ s, StaysIn s (g.read s) := nofun
    exact group_staysIn (term_staysIn params hinner) nested s
  | succ n ih =>
    have hinner : ∀ g ∈ insideBrackets params (n + 1), ∀ s, StaysIn s (g.read s) := by
      rintro g ⟨⟩ s
      rw [groupWithin_read]
      exact ih true s
    exact group_staysIn (term_staysIn params hinner) nested s

/-- A query that is refused is refused at a place of it: an end of the query that is empty
or begins with a character other than a space. -/
theorem parse_located {query : String} {params : List Json} {e : QueryError}
    (h : parse query params = .error e) :
    ∃ p, e.position? = some p ∧ p.query = query ∧ p.remainder.toList <:+ query.toList ∧
      p.remainder.toList.head? ≠ some ' ' := by
  have hstays := groupWithin_staysIn params nestingLimit false query.toList
  rw [parse] at h
  split at h
  · contradiction
  · next f hf =>
    cases h
    rw [hf] at hstays
    obtain ⟨hsuffix, hhead⟩ := hstays
    refine ⟨_, rfl, String.ofList_toList, ?_, ?_⟩
    · rwa [String.toList_ofList]
    · rwa [String.toList_ofList]

def openListText : String := "a = 1 and  b in  ('é)', 2"

theorem parse_located_openList :
    ∃ p, parse openListText [] = .error (.located .unbalancedParentheses p) ∧
      p.remainder = "('é)', 2" ∧ p.query = openListText ∧
      p.remainder.toList <:+ openListText.toList ∧ p.remainder.toList.head? ≠ some ' ' := by
  have hrun : (match parse openListText [] with | .ok _ => none | .error e => some e) =
      some (.located .unbalancedParentheses ⟨"('é)', 2", openListText⟩) := by decide +kernel
  cases h : parse openListText [] with
  | ok e => simp [h] at hrun
  | error e =>
    simp only [h, Option.some.injEq] at hrun
    obtain ⟨p, hp, hlocated⟩ := parse_located h
    subst hrun
    cases hp
    exact ⟨_, rfl, rfl, hlocated⟩

end DocQuery.Query
