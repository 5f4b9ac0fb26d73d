import DocQuery.Json.Basic

/-! Numerals of JSON text.  The leading digits that fit a 64-bit word form the
significand.  A numeral without fraction and exponent is an integer if it fits;
every other numeral is the significand brought to its power of ten by one
product or quotient, each rounded. -/

namespace DocQuery.Json.Numeral

def wordLimit : Nat := 2 ^ 64

def absorb (significand taken : Nat) : List Char → Nat × Nat
  | [] => (significand, taken)
  | c :: ds =>
    let next := 10 * significand + (digitValue? c).getD 0
    if next < wordLimit then absorb next (taken + 1) ds else (significand, taken)

def powerOfTen? (k : Nat) : Option Binary64 :=
  Binary64.ofDecimal? ⟨false, 1, k⟩

def reduce? (k : Nat) : Nat → Binary64 → Option Binary64
  | 0, x => some x
  | n + 1, x =>
    if x.mantissa = 0 then some x
    else (powerOfTen? k).bind fun p => (x.div? p).bind (reduce? k n)

def scale? (x : Binary64) (power : Int) : Option Binary64 :=
  if x.mantissa = 0 then some x
  else if 308 < power then none
  else if 0 ≤ power then (powerOfTen? power.toNat).bind x.mul?
  else
    let steps := ((-power).toNat - 1) / 308
    (reduce? 308 steps x).bind (reduce? ((-power).toNat - 308 * steps) 1)

def signed (negative : Bool) (x : Binary64) : Binary64 :=
  if negative then x.neg else x

def float? (negative : Bool) (significand : Nat) (power : Int) : Option Number :=
  (scale? (.ofInt significand) power).map fun x => .float (signed negative x)

def integer (negative : Bool) (significand : Nat) : Number :=
  if !negative then .int significand
  else if 0 < significand ∧ significand ≤ 2 ^ 63 then .int (-significand)
  else .float (signed true (.ofInt significand))

def whole? (s : List Char) : Option (List Char × List Char) :=
  match Decimal.digits s with
  | ([], _) => none
  | (d :: ds, r) => if d = '0' ∧ !ds.isEmpty then none else some (d :: ds, r)

def fraction? : List Char → Option (Option (List Char) × List Char)
  | '.' :: s =>
    let run := Decimal.digits s
    if run.1.isEmpty then none else some (some run.1, run.2)
  | s => some (none, s)

def exponent? : List Char → Option (Option Int × List Char)
  | [] => some (none, [])
  | c :: s =>
    if c = 'e' ∨ c = 'E' then
      let sign := Decimal.sign s
      let run := Decimal.digits sign.2
      if run.1.isEmpty then none
      else some (some (if sign.1 then -(ofDigits run.1 : Int) else ofDigits run.1), run.2)
    else some (none, c :: s)

/-- The number written as these digits.  Digits beyond the word of the significand
are dropped; those of the integer part count as zeros. -/
def ofParts? (negative : Bool) (ds : List Char) (fs : Option (List Char)) (e : Option Int) :
    Option Number :=
  let (significand, taken) := absorb 0 0 ds
  let dropped := ds.length - taken
  if dropped = 0 ∧ fs.isNone ∧ e.isNone then some (integer negative significand)
  else
    let (significand, places) := absorb significand 0 (fs.getD [])
    float? negative significand (dropped - places + e.getD 0)

def minus : List Char → Bool × List Char
  | '-' :: s => (true, s)
  | s => (false, s)

def read? (s : List Char) : Option (Number × List Char) :=
  (whole? (minus s).2).bind fun whole =>
    (fraction? whole.2).bind fun fraction =>
      (exponent? fraction.2).bind fun exponent =>
        (ofParts? (minus s).1 whole.1 fraction.1 exponent.1).map fun n => (n, exponent.2)

theorem length_digits_le (s : List Char) : (Decimal.digits s).2.length ≤ s.length :=
  (List.dropWhile_suffix isDigit).length_le

theorem length_sign_le (s : List Char) : (Decimal.sign s).2.length ≤ s.length := by
  unfold Decimal.sign
  split <;> simp

theorem length_whole?_lt {s : List Char} {w : List Char × List Char} (h : whole? s = some w) :
    w.2.length < s.length := by
  have h₁ : (s.takeWhile isDigit).length + (s.dropWhile isDigit).length = s.length := by
    rw [← List.length_append, List.takeWhile_append_dropWhile]
  simp only [whole?, Decimal.digits] at h
  split at h
  · contradiction
  · next d ds' r' hd =>
    simp only [Prod.mk.injEq] at hd
    rw [hd.1, hd.2, List.length_cons] at h₁
    split at h
    · contradiction
    · rw [← Option.some.inj h]
      simp only
      omega

theorem length_fraction?_le {s : List Char} {f : Option (List Char) × List Char}
    (h : fraction? s = some f) : f.2.length ≤ s.length := by
  unfold fraction? at h
  split at h
  · next s =>
    have := length_digits_le s
    dsimp only at h
    split at h
    · contradiction
    · rw [← Option.some.inj h, List.length_cons]
      simp only
      omega
  · cases h
    exact Nat.le_refl _

theorem length_exponent?_le {s : List Char} {e : Option Int × List Char}
    (h : exponent? s = some e) : e.2.length ≤ s.length := by
  unfold exponent? at h
  split at h
  · cases h
    exact Nat.le_refl _
  · next c s =>
    have h₁ := length_sign_le s
    have h₂ := length_digits_le (Decimal.sign s).2
    split at h
    · dsimp only at h
      split at h
      · contradiction
      · rw [← Option.some.inj h, List.length_cons]
        simp only
        omega
    · cases h
      exact Nat.le_refl _

theorem length_minus_le (s : List Char) : (minus s).2.length ≤ s.length := by
  unfold minus
  split <;> simp

theorem length_read?_lt {s r : List Char} {n : Number} (h : read? s = some (n, r)) :
    r.length < s.length := by
  simp only [read?, Option.bind_eq_some_iff, Option.map_eq_some_iff, Prod.mk.injEq] at h
  obtain ⟨whole, hw, fraction, hf, exponent, he, m, hm, hn, hr⟩ := h
  have h₁ := length_minus_le s
  have h₂ := length_whole?_lt hw
  have h₃ := length_fraction?_le hf
  have h₄ := length_exponent?_le he
  rw [← hr]
  omega

end DocQuery.Json.Numeral
