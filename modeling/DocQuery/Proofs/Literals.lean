import DocQuery.Proofs.Progress
import DocQuery.Proofs.Reading.Value

namespace DocQuery.Query

namespace Scan

variable {α : Type} {src : Source} {m : Scan α} {c : Scanner}

def Yields (src : Source) (m : Scan α) (c : Scanner) (a : α) (r : List Char) : Prop :=
  ∃ d, m c = some (.ok a, d) ∧ Stands src d r

def RefusedWith (src : Source) (m : Scan α) (c : Scanner) (f : Failure) : Prop :=
  ∃ d, m c = some (.error (.refused (f.within src.query.toList)), d)

theorem stands_unique {r s : List Char} (hr : Stands src c r) (hs : Stands src c s) : r = s := by
  obtain ⟨t, ht, hpt⟩ := hr
  obtain ⟨u, hu, hpu⟩ := hs
  have hcut := cutAt?_byteLength t r
  rw [← ht, ← hpt, hpu, hu, cutAt?_byteLength] at hcut
  cases hcut
  rfl

variable {n : Nat} {k l : Int} {x : Reading α}

theorem Does.yields_iff (h : Does src n k l m c x.outcome) {a : α} {r : List Char} :
    Yields src m c a r ↔ x = ⟨.ok a, r⟩ := by
  obtain ⟨result, rest⟩ := x
  cases result with
  | ok b =>
    cases h with
    | success d hm hs _ _ =>
      simp only [Yields, hm, Option.some.injEq, Prod.mk.injEq, Except.ok.injEq, Reading.mk.injEq]
      constructor
      · rintro ⟨_, ⟨rfl, rfl⟩, hr⟩
        exact ⟨rfl, stands_unique hs hr⟩
      · rintro ⟨rfl, rfl⟩
        exact ⟨d, ⟨rfl, rfl⟩, hs⟩
  | error f =>
    cases h with
    | failure d hm _ => simp [Yields, hm]

theorem Does.refusedWith (h : Does src n k l m c x.outcome) {f : Failure}
    (hx : x.result = .error f) : RefusedWith src m c f := by
  rw [Reading.outcome, hx] at h
  cases h with
  | failure d hm _ => exact ⟨d, hm⟩

end Scan

/-- A text begins with this string in quotes, and so much is behind it. -/
structure BeginsQuoted (text : List Char) (v : String) (rest : List Char) : Prop where
  text_eq : text = '\'' :: (v.toList ++ '\'' :: rest)
  quotable : Quotable v.toList

theorem escaped_concat {t : List Char} {c : Char}
    (ht : ∀ u v, t = u ++ '\'' :: v → u.getLast? = some '\\')
    (hc : c = '\'' → t.getLast? = some '\\') :
    ∀ u v, t ++ [c] = u ++ '\'' :: v → u.getLast? = some '\\' := by
  intro u v huv
  rcases List.eq_nil_or_concat v with rfl | ⟨v, d, rfl⟩
  · obtain ⟨rfl, hquote⟩ := List.append_inj' huv rfl
    exact hc (List.cons.inj hquote).1
  · have huv : t ++ [c] = (u ++ '\'' :: v) ++ [d] := by simpa using huv
    obtain ⟨htv, -⟩ := List.append_inj' huv rfl
    exact ht u v htv

theorem quotable_of_closeQuote? {t s cs r : List Char}
    (ht : ∀ u v, t = u ++ '\'' :: v → u.getLast? = some '\\')
    (h : closeQuote? (t.getLast? = some '\\') s = some (cs, r)) : Quotable (t ++ cs) := by
  -- the characters in front of the text were passed already, so each quote among them has a
  -- backslash in front of it
  induction s generalizing t cs with
  | nil => simp [closeQuote?] at h
  | cons c s ih =>
    rw [closeQuote?] at h
    split at h
    · next hclose =>
      simp only [Option.some.injEq, Prod.mk.injEq] at h
      obtain ⟨rfl, -⟩ := h
      rw [List.append_nil]
      exact ⟨ht, by simpa using (Bool.and_eq_true_iff.1 hclose).2⟩
    · next hpass =>
      obtain ⟨⟨ds, q⟩, hds, he⟩ := Option.map_eq_some_iff.1 h
      simp only [Prod.mk.injEq] at he
      obtain ⟨rfl, rfl⟩ := he
      have htc := escaped_concat ht (c := c) fun hc => by simpa [hc] using hpass
      simpa using ih htc (by simpa using hds)

theorem quoted_eq_ok {s r : List Char} {v : String} :
    quoted ('\'' :: s) = ⟨.ok v, r⟩ ↔ BeginsQuoted ('\'' :: s) v r := by
  constructor
  · intro h
    simp only [quoted, List.drop_one, List.tail_cons] at h
    split at h
    · next cs q hq =>
      cases h
      have hquotable := quotable_of_closeQuote? (t := []) (by simp) (by simpa using hq)
      exact ⟨by simpa using closeQuote?_append_eq hq, by simpa using hquotable⟩
    · cases h
  · rintro ⟨htext, hv⟩
    rw [htext, quoted_text hv, String.ofList_toList]

theorem quoted_unterminated {s : List Char} (h : ∀ v r, ¬ BeginsQuoted ('\'' :: s) v r) :
    quoted ('\'' :: s) = .fail .unterminatedString ('\'' :: s) s := by
  rcases hq : closeQuote? false s with _ | ⟨cs, r⟩
  · simp only [quoted, List.drop_one, List.tail_cons, hq]
  · have hok : quoted ('\'' :: s) = ⟨.ok (String.ofList cs), r⟩ := by
      simp only [quoted, List.drop_one, List.tail_cons, hq]
    exact absurd (quoted_eq_ok.1 hok) (h _ _)

/-- In front of a quote, a string is read exactly when the text begins with this string in
quotes, which it does for one string at most; otherwise the quote is refused as never closed. -/
theorem quoted_exact {src : Source} {c : Scanner} {s : List Char} (h : Stands src c ('\'' :: s)) :
    (∀ v r, Scan.Yields src src.quoted c v r ↔ BeginsQuoted ('\'' :: s) v r) ∧
    (∀ v r, quoted ('\'' :: s) = ⟨.ok v, r⟩ ↔ BeginsQuoted ('\'' :: s) v r) ∧
    (∀ v r v' r', BeginsQuoted ('\'' :: s) v r → BeginsQuoted ('\'' :: s) v' r' →
      v = v' ∧ r = r') ∧
    ((∀ v r, ¬ BeginsQuoted ('\'' :: s) v r) →
      Scan.RefusedWith src src.quoted c ⟨.unterminatedString, '\'' :: s⟩ ∧
      quoted ('\'' :: s) = .fail .unterminatedString ('\'' :: s) s) := by
  have hscan := Source.does_quoted (n := 0) h
  refine ⟨fun v r => hscan.yields_iff.trans quoted_eq_ok, fun v r => quoted_eq_ok, ?_, ?_⟩
  · intro v r v' r' hv hv'
    have hread := (quoted_eq_ok.2 hv).symm.trans (quoted_eq_ok.2 hv')
    cases hread
    exact ⟨rfl, rfl⟩
  · intro hnone
    have hfail := quoted_unterminated hnone
    exact ⟨hscan.refusedWith (congrArg Reading.result hfail), hfail⟩

def accented : Source := ⟨"é = 'l\\'été' or é", []⟩

def unclosed : Source := ⟨"é = 'été\\\\'", []⟩

def beforeValue : Scanner := ⟨5, [5, 0], 0, 0, 0⟩

theorem quoted_exact_accented :
    (Stands accented beforeValue ('\'' :: "l\\'été' or é".toList) ∧
      Scan.Yields accented accented.quoted beforeValue "l\\'été" " or é".toList) ∧
    (Stands unclosed beforeValue ('\'' :: "été\\\\'".toList) ∧
      Scan.RefusedWith unclosed unclosed.quoted beforeValue
        ⟨.unterminatedString, '\'' :: "été\\\\'".toList⟩) := by
  have hstands : Stands accented beforeValue ('\'' :: "l\\'été' or é".toList) :=
    ⟨"é = ".toList, by decide, by decide⟩
  have hstands' : Stands unclosed beforeValue ('\'' :: "été\\\\'".toList) :=
    ⟨"é = ".toList, by decide, by decide⟩
  have hbegins : BeginsQuoted ('\'' :: "l\\'été' or é".toList) "l\\'été" " or é".toList :=
    quoted_eq_ok.1 rfl
  have hnone : ∀ v r, ¬ BeginsQuoted ('\'' :: "été\\\\'".toList) v r := by
    intro v r h
    have hread := quoted_eq_ok.2 h
    cases hread
  obtain ⟨hyields, -⟩ := quoted_exact hstands
  obtain ⟨-, -, -, hrefused⟩ := quoted_exact hstands'
  exact ⟨⟨hstands, (hyields _ _).2 hbegins⟩, hstands', (hrefused hnone).1⟩

def IsGap (gap : List Char) : Prop := ∀ c ∈ gap, c = ',' ∨ c = ' '

instance (gap : List Char) : Decidable (IsGap gap) :=
  decidable_of_iff (gap.all fun c => c = ',' ∨ c = ' ') (by simp [IsGap])

inductive ItemText : Json → List Char → Prop
  | quoted {s} : Quotable s → ItemText (.string (String.ofList s)) ('\'' :: s ++ ['\''])
  | numeral {s x} : Binary64.ofText? s = some x → (∀ c ∈ s, c ∉ listStops) →
      s.head? ≠ some '\'' → ItemText (.number (.float x)) s

/-- What stands between the brackets of a list.  There is a gap in front of each item and
behind the last one; the first gap can be empty unless an item stands in front of it. -/
inductive ItemsText : Bool → List Json → List Char → Prop
  | nil {behind : Bool} {gap} : IsGap gap → ItemsText behind [] gap
  | cons {behind : Bool} {gap v s vs t} : IsGap gap → (behind → gap ≠ []) → ItemText v s →
      ItemsText true vs t → ItemsText behind (v :: vs) (gap ++ s ++ t)

theorem IsGap.stopsAt {gap : List Char} (h : IsGap gap) (hne : gap ≠ []) (s : List Char) :
    StopsAt listStops (gap ++ s) := by
  cases gap with
  | nil => contradiction
  | cons c gap =>
    obtain rfl | rfl := h c List.mem_cons_self
    · exact .cons (by decide)
    · exact .cons (by decide)

theorem ItemsText.stopsAt {vs : List Json} {s t : List Char} (h : ItemsText true vs s)
    (ht : StopsAt [')'] t) : StopsAt listStops (s ++ t) := by
  cases h with
  | nil hgap =>
    by_cases hne : s = []
    · rw [hne, List.nil_append]
      exact ht.mono (by decide)
    · exact hgap.stopsAt hne t
  | cons hgap hapart =>
    rw [List.append_assoc, List.append_assoc]
    exact hgap.stopsAt (hapart rfl) _

section

variable (place : List Char)

theorem listItems_gap {gap : List Char} (h : IsGap gap) (s : List Char) :
    listItems place (gap ++ s) = listItems place s := by
  induction gap with
  | nil => rfl
  | cons c gap ih =>
    obtain ⟨hc, hgap⟩ := List.forall_mem_cons.1 h
    have hclose : c ≠ ')' := by
      rintro rfl
      simp at hc
    rw [List.cons_append, listItems, if_neg hclose, if_pos (by simpa using hc)]
    exact ih hgap

theorem listItems_quoted {s : List Char} (h : Quotable s) (r : List Char) :
    listItems place ('\'' :: (s ++ '\'' :: r)) =
      (listItems place r).map (.string (String.ofList s) :: ·) := by
  have hclose : closeQuote? false (s ++ '\'' :: r) = some (s, r) :=
    closeQuote?_append (t := []) h r
  rw [listItems, if_neg (by decide), if_neg (by decide), if_pos rfl]
  split
  · next hread =>
    rw [hclose] at hread
    cases hread
    rfl
  · next hread =>
    rw [hclose] at hread
    contradiction

theorem listItems_numeral {s r : List Char} {x : Binary64} (hx : Binary64.ofText? s = some x)
    (hs : ∀ c ∈ s, c ∉ listStops) (hquote : s.head? ≠ some '\'') (hr : StopsAt listStops r) :
    listItems place (s ++ r) = (listItems place r).map (.number (.float x) :: ·) := by
  cases s with
  | nil =>
    have hnone : Binary64.ofText? [] = none := by decide
    rw [hnone] at hx
    contradiction
  | cons c s =>
    have htake := takeUntil_word hs hr
    obtain ⟨hc, hs⟩ := List.forall_mem_cons.1 hs
    simp only [listStops, List.mem_cons, List.not_mem_nil, or_false, not_or] at hc
    have hnumeral : numeral listStops (c :: (s ++ r)) = ⟨.ok (.number (.float x)), r⟩ := by
      rw [List.cons_append] at htake
      simp only [numeral, htake, hx]
    rw [List.cons_append, listItems, if_neg hc.2.2, if_neg (by simp [hc]),
      if_neg (by simpa using hquote)]
    simp only [hnumeral, takeUntil_word hs hr]

theorem listItems_item {v : Json} {s r : List Char} (h : ItemText v s) (hr : StopsAt listStops r) :
    listItems place (s ++ r) = (listItems place r).map (v :: ·) := by
  cases h with
  | quoted hs => simpa using listItems_quoted place hs r
  | numeral hx hs hquote => exact listItems_numeral place hx hs hquote hr

theorem listItems_items {behind : Bool} {vs : List Json} {s t : List Char}
    (h : ItemsText behind vs s) (ht : StopsAt [')'] t) :
    listItems place (s ++ t) = (listItems place t).map (vs ++ ·) := by
  induction h with
  | nil hgap =>
    rw [listItems_gap place hgap]
    exact (Reading.map_id _).symm
  | @cons _ gap v s vs u hgap _ hitem hitems ih =>
    rw [List.append_assoc, List.append_assoc, listItems_gap place hgap,
      listItems_item place hitem (hitems.stopsAt ht), ih]
    obtain ⟨_ | ws, r⟩ := listItems place t <;> rfl

end

theorem list_closed {vs : List Json} {s : List Char} (h : ItemsText false vs s) (r : List Char) :
    list ('(' :: (s ++ ')' :: r)) = ⟨.ok (.array vs), r⟩ := by
  have hread := listItems_items ('(' :: (s ++ ')' :: r)) h (t := ')' :: r) (.cons (by decide))
  simp [list, hread, listItems, Reading.map, Except.map]

theorem list_unclosed {vs : List Json} {s : List Char} (h : ItemsText false vs s) :
    list ('(' :: s) = .fail .unbalancedParentheses ('(' :: s) [] := by
  have hread := listItems_items ('(' :: s) h .nil
  rw [List.append_nil] at hread
  simp [list, hread, listItems, Reading.map, Except.map, Reading.fail]

/-- A list of strings and numerals gives its items in order and ends right behind its closing
bracket, whatever comes there; if that bracket is missing, the opening one is refused. -/
theorem list_written {vs : List Json} {s : List Char} (h : ItemsText false vs s) :
    (∀ r, list ('(' :: (s ++ ')' :: r)) = ⟨.ok (.array vs), r⟩ ∧
      ∀ src c, Stands src c ('(' :: (s ++ ')' :: r)) →
        Scan.Yields src src.list c (.array vs) r) ∧
    list ('(' :: s) = .fail .unbalancedParentheses ('(' :: s) [] ∧
      ∀ src c, Stands src c ('(' :: s) →
        Scan.RefusedWith src src.list c ⟨.unbalancedParentheses, '(' :: s⟩ := by
  refine ⟨fun r => ⟨list_closed h r, fun src c hc => ?_⟩, list_unclosed h, fun src c hc => ?_⟩
  · exact (Source.does_list (n := 0) hc).yields_iff.2 (list_closed h r)
  · exact (Source.does_list (n := 0) hc).refusedWith (congrArg Reading.result (list_unclosed h))

def mixedItemsText : List Char := " ,'x), (\\'y', -2.5e3,,7 ".toList

def mixedItems : List Json :=
  [.string "x), (\\'y", .number (.float (.ofInt (-2500))), .number (.float (.ofInt 7))]

theorem list_written_mixed :
    ItemsText false mixedItems mixedItemsText ∧
    list ('(' :: (mixedItemsText ++ ')' :: ")'".toList)) = ⟨.ok (.array mixedItems), ")'".toList⟩ ∧
    list ('(' :: mixedItemsText) = .fail .unbalancedParentheses ('(' :: mixedItemsText) [] := by
  have hstring : Quotable "x), (\\'y".toList :=
    (quoted_eq_ok (s := "x), (\\'y'".toList) (r := []).1 rfl).quotable
  have hlarge : Binary64.ofText? "-2.5e3".toList = some (.ofInt (-2500)) := by decide +kernel
  have hsmall : Binary64.ofText? "7".toList = some (.ofInt 7) := by decide +kernel
  have hlast : ItemsText true [] " ".toList := .nil (by decide)
  have hseven : ItemsText true _ (",,".toList ++ "7".toList ++ " ".toList) :=
    .cons (by decide) (by decide) (.numeral hsmall (by simp [listStops]) (by decide)) hlast
  have hmany : ItemsText true _ (", ".toList ++ "-2.5e3".toList ++ _) :=
    .cons (by decide) (by decide) (.numeral hlarge (by simp [listStops]) (by decide)) hseven
  have hgap : IsGap " ,".toList := by decide
  have hitems : ItemsText false mixedItems mixedItemsText :=
    .cons hgap (by decide) (.quoted hstring) hmany
  obtain ⟨hclosed, hunclosed, -⟩ := list_written hitems
  exact ⟨hitems, (hclosed _).1, hunclosed⟩

end DocQuery.Query
