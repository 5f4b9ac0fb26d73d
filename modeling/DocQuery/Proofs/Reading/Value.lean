import DocQuery.Proofs.Spelling

namespace DocQuery.Query

def valueStops : List Char := [' ', ')']

theorem isDigit_of_mem_toDigits {n : Nat} {c : Char} (h : c ∈ Nat.toDigits 10 n) : isDigit c := by
  have hd : c.isDigit := Nat.isDigit_of_mem_toDigits (by decide) (by decide) h
  simp only [Char.isDigit, Bool.and_eq_true, decide_eq_true_eq] at hd
  have hle : '0' ≤ c ∧ c ≤ '9' := hd
  simp [isDigit, digitValue?, hle]

theorem ofDigits_eq_ofDigitChars {ds : List Char} (h : ∀ c ∈ ds, isDigit c) :
    ofDigits ds = Nat.ofDigitChars 10 ds 0 := by
  have hfold : ∀ n, ds.foldl (fun n c => 10 * n + (digitValue? c).getD 0) n =
      Nat.ofDigitChars 10 ds n := by
    induction ds with
    | nil =>
      intro n
      rfl
    | cons c ds ih =>
      intro n
      have hc : '0' ≤ c ∧ c ≤ '9' := by
        have := h c List.mem_cons_self
        simpa [isDigit, digitValue?] using this
      have hv : digitValue? c = some (c.toNat - '0'.toNat) := by simp [digitValue?, hc]
      rw [List.foldl_cons, Nat.ofDigitChars_cons, hv]
      exact ih (fun d hd => h d (List.mem_cons_of_mem c hd)) _
  exact hfold 0

theorem ofDigits_toDigits (n : Nat) : ofDigits (Nat.toDigits 10 n) = n := by
  rw [ofDigits_eq_ofDigitChars fun c hc => isDigit_of_mem_toDigits hc,
    Nat.ofDigitChars_ten_toDigits]

theorem wordIndex?_toDigits {n : Nat} (h : n < 2 ^ 64) :
    wordIndex? (Nat.toDigits 10 n) = some n := by
  have hall : (Nat.toDigits 10 n).all isDigit :=
    List.all_eq_true.2 fun c hc => isDigit_of_mem_toDigits hc
  have hplus : ∀ ds, Nat.toDigits 10 n ≠ '+' :: ds := by
    intro ds hds
    rw [hds] at hall
    simp [isDigit, digitValue?] at hall
  unfold wordIndex?
  split
  · next ds hds => exact absurd hds (hplus ds)
  · simp only [hall, ofDigits_toDigits]
    simpa using h

theorem parameter_text {params : List Json} {i : Nat} {v : Json} (hv : params[i]? = some v)
    (hi : i + 1 < 2 ^ 64) {r : List Char} (hr : StopsAt valueStops r) :
    parameter params ('?' :: Nat.toDigits 10 (i + 1) ++ r) = ⟨.ok v, r⟩ := by
  have hds : ∀ c ∈ Nat.toDigits 10 (i + 1), c ∉ valueStops := by
    intro c hc hs
    have hno : valueStops.all (!isDigit ·) := by decide
    have hc := isDigit_of_mem_toDigits hc
    simpa [hc] using List.all_eq_true.1 hno c hs
  have htake := takeUntil_word hds hr
  simp only [valueStops] at htake
  simp [parameter, htake, wordIndex?_toDigits hi, hv]

theorem closeQuote?_append {t s : List Char} (h : Quotable (t ++ s)) (r : List Char) :
    closeQuote? (t.getLast? = some '\\') (s ++ '\'' :: r) = some (s, r) := by
  -- the characters in front of the text still matter: a backslash there keeps a quote from closing
  induction s generalizing t with
  | nil =>
    have hlast : t.getLast? ≠ some '\\' := by simpa using h.unescaped
    simp [closeQuote?, hlast]
  | cons c s ih =>
    have hc : ¬ (c = '\'' && !decide (t.getLast? = some '\\')) := by
      simp only [Bool.and_eq_true, decide_eq_true_eq, Bool.not_eq_true', decide_eq_false_iff_not]
      rintro ⟨rfl, hlast⟩
      exact hlast (h.escaped t s rfl)
    have hrest := ih (t := t ++ [c]) (by simpa using h)
    simp only [List.getLast?_concat, Option.some.injEq] at hrest
    rw [List.cons_append, closeQuote?, if_neg hc, hrest]
    rfl

theorem quoted_text {s : List Char} (h : Quotable s) (r : List Char) :
    quoted ('\'' :: (s ++ '\'' :: r)) = ⟨.ok (String.ofList s), r⟩ := by
  have hclose := closeQuote?_append (t := []) h r
  simp only [List.getLast?_nil, reduceCtorEq, decide_false] at hclose
  simp [quoted, hclose]

theorem value_text {params : List Json} {v : Json} {s r : List Char} (h : ValueText params v s)
    (hr : StopsAt valueStops r) : value params (s ++ r) = ⟨.ok v, r⟩ := by
  cases h with
  | parameter hv hi => exact parameter_text hv hi hr
  | quoted hs =>
    simp only [List.cons_append, List.append_assoc, List.nil_append, value]
    rw [quoted_text hs]
    rfl

theorem skipBlanks_valueText {params : List Json} {v : Json} {s : List Char}
    (h : ValueText params v s) (n : Nat) (r : List Char) :
    skipBlanks (blanks n ++ (s ++ r)) = s ++ r := by
  rw [skipBlanks_blanks]
  apply skipBlanks_of_head?
  cases h <;> simp

end DocQuery.Query
