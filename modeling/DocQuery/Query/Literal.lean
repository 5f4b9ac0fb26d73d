import DocQuery.Json.Basic
import DocQuery.Query.Error
import DocQuery.Query.Words

namespace DocQuery.Query

/-- What a reader found, and the text left over, also after a failure. -/
structure Reading (α : Type) where
  result : Except Failure α
  rest : List Char

namespace Reading

def map {α β : Type} (f : α → β) (r : Reading α) : Reading β := ⟨r.result.map f, r.rest⟩

def fail {α : Type} (fault : Fault) (place rest : List Char) : Reading α :=
  ⟨.error ⟨fault, place⟩, rest⟩

end Reading

def wordIndex? (s : List Char) : Option Nat :=
  let ds := match s with
    | '+' :: ds => ds
    | ds => ds
  if ds.isEmpty || !ds.all isDigit || 2 ^ 64 ≤ ofDigits ds then none else some (ofDigits ds)

def parameter (params : List Json) (s : List Char) : Reading Json :=
  let (digits, rest) := takeUntil [' ', ')'] (s.drop 1)
  match wordIndex? digits with
  | none => .fail .malformedParameter s rest
  | some 0 => .fail (.parameterOutOfRange 0 params.length) s rest
  | some (i + 1) =>
    match params[i]? with
    | some v => ⟨.ok v, rest⟩
    | none => .fail (.parameterOutOfRange (i + 1) params.length) s rest

def closeQuote? (escaped : Bool) : List Char → Option (List Char × List Char)
  | [] => none
  | c :: s =>
    if c = '\'' && !escaped then some ([], s)
    else (closeQuote? (c = '\\') s).map fun (cs, r) => (c :: cs, r)

def quoted (s : List Char) : Reading String :=
  match closeQuote? false (s.drop 1) with
  | some (cs, r) => ⟨.ok (String.ofList cs), r⟩
  | none => .fail .unterminatedString s (s.drop 1)

def numeral (stops s : List Char) : Reading Json :=
  let (text, rest) := takeUntil stops s
  match Binary64.ofText? text with
  | some x => ⟨.ok (.number (.float x)), rest⟩
  | none => .fail .malformedNumber s rest

theorem closeQuote?_suffix {escaped : Bool} {s cs r : List Char}
    (h : closeQuote? escaped s = some (cs, r)) : ∃ c, c :: r <:+ s := by
  induction s generalizing escaped cs r with
  | nil => simp [closeQuote?] at h
  | cons c s ih =>
    rw [closeQuote?] at h
    split at h
    · simp only [Option.some.injEq, Prod.mk.injEq] at h
      exact ⟨c, h.2 ▸ List.suffix_refl _⟩
    · obtain ⟨⟨ds, t⟩, ht, he⟩ := Option.map_eq_some_iff.1 h
      simp only [Prod.mk.injEq] at he
      obtain ⟨d, hd⟩ := ih ht
      exact ⟨d, he.2 ▸ hd.trans (List.suffix_cons c s)⟩

theorem length_closeQuote?_lt {escaped : Bool} {s cs r : List Char}
    (h : closeQuote? escaped s = some (cs, r)) : r.length < s.length := by
  obtain ⟨c, hc⟩ := closeQuote?_suffix h
  exact hc.length_le

def listStops : List Char := [' ', ',', ')']

/-- The rest of a list after its opening bracket, which stands at `place`.  Items
are strings and numerals; commas and spaces between them are skipped. -/
def listItems (place : List Char) (s : List Char) : Reading (List Json) :=
  match s with
  | [] => .fail .unbalancedParentheses place []
  | c :: s =>
    if c = ')' then ⟨.ok [], s⟩
    else if c = ',' || c = ' ' then listItems place s
    else if c = '\'' then
      match _h : closeQuote? false s with
      | some (cs, r) => (listItems place r).map (.string (String.ofList cs) :: ·)
      | none => .fail .unterminatedString (c :: s) s
    else
      let item := numeral listStops (c :: s)
      match item.result with
      | .ok v => (listItems place (takeUntil listStops s).2).map (v :: ·)
      | .error e => ⟨.error e, item.rest⟩
termination_by s.length
decreasing_by
  · exact Nat.lt_succ_self _
  · exact Nat.lt_succ_of_lt (length_closeQuote?_lt _h)
  · exact Nat.lt_succ_of_le ((takeUntil_suffix listStops _).length_le)

def list (s : List Char) : Reading Json :=
  (listItems s (s.drop 1)).map .array

def value (params : List Json) (s : List Char) : Reading Json :=
  match s with
  | '?' :: _ => parameter params s
  | '(' :: _ => list s
  | '\'' :: _ => (quoted s).map .string
  | _ => numeral [' ', ')'] s

theorem numeral_suffix (stops s : List Char) : (numeral stops s).rest <:+ s := by
  unfold numeral
  dsimp only
  split <;> exact takeUntil_suffix stops s

theorem parameter_suffix (params : List Json) (s : List Char) :
    (parameter params s).rest <:+ s := by
  have h : (takeUntil [' ', ')'] (s.drop 1)).2 <:+ s :=
    (takeUntil_suffix _ _).trans (List.drop_suffix 1 s)
  unfold parameter
  dsimp only
  split
  · exact h
  · exact h
  · split <;> exact h

theorem quoted_suffix (s : List Char) : (quoted s).rest <:+ s := by
  unfold quoted
  split
  · next cs r h =>
    obtain ⟨c, hc⟩ := closeQuote?_suffix h
    exact ((List.suffix_cons c r).trans hc).trans (List.drop_suffix 1 s)
  · exact List.drop_suffix 1 s

theorem listItems_suffix (place s : List Char) : (listItems place s).rest <:+ s := by
  fun_induction listItems place s with
  | case1 => exact List.suffix_refl _
  | case2 s => exact List.suffix_cons _ s
  | case3 c s _ _ ih => exact ih.trans (List.suffix_cons c s)
  | case4 s cs r h _ _ ih =>
    obtain ⟨c, hc⟩ := closeQuote?_suffix h
    exact (ih.trans ((List.suffix_cons c r).trans hc)).trans (List.suffix_cons _ s)
  | case5 s => exact List.suffix_cons _ s
  | case6 c s _ _ _ _ _ _ ih =>
    exact (ih.trans (takeUntil_suffix listStops s)).trans (List.suffix_cons c s)
  | case7 c s => exact numeral_suffix listStops (c :: s)

theorem list_suffix (s : List Char) : (list s).rest <:+ s :=
  (listItems_suffix s _).trans (List.drop_suffix 1 s)

theorem value_suffix (params : List Json) (s : List Char) : (value params s).rest <:+ s := by
  unfold value
  split
  · exact parameter_suffix params _
  · exact list_suffix _
  · exact quoted_suffix _
  · exact numeral_suffix _ s

end DocQuery.Query
