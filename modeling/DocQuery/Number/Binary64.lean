import DocQuery.Number.Power

/-! Finite binary64 numbers with exact arithmetic.  A number is a sign and a
magnitude `mantissa * 2 ^ exponent`, counted in units of `2 ^ (-1074)`, the
smallest positive number.  Order, product and quotient are computed on exact
integers and rounded once, to the nearest number with ties to even. -/

namespace DocQuery

/-- A finite binary64 number; the condition leaves one form for each magnitude. -/
structure Binary64 where
  negative : Bool
  mantissa : Nat
  exponent : Nat
  canonical : mantissa < 2 ^ 53 ∧ exponent ≤ 2045 ∧ (exponent = 0 ∨ 2 ^ 52 ≤ mantissa)
  deriving DecidableEq

def roundHalfEven (num den : Nat) : Nat :=
  let q := num / den
  let r := num % den
  if 2 * r < den then q
  else if den < 2 * r then q + 1
  else if q % 2 = 0 then q else q + 1

namespace Binary64

def zero (negative : Bool) : Binary64 :=
  ⟨negative, 0, 0, by decide⟩

def largest (negative : Bool) : Binary64 :=
  ⟨negative, 2 ^ 53 - 1, 2045, by decide⟩

def units (x : Binary64) : Nat :=
  x.mantissa * 2 ^ x.exponent

/-- The value in units of `2 ^ (-1074)`; both zeros have the value zero. -/
def scaled (x : Binary64) : Int :=
  if x.negative then -(x.units : Int) else x.units

def order (x y : Binary64) : Ordering :=
  compare x.scaled y.scaled

def neg (x : Binary64) : Binary64 :=
  { x with negative := !x.negative }

def ofRatio? (negative : Bool) (num den : Nat) : Option Binary64 :=
  let num := num <<< 1074
  let dropped := (num / den).log2 + 1 - 53
  let rounded := roundHalfEven num (den <<< dropped)
  let (mantissa, exponent) :=
    if rounded = 2 ^ 53 then (2 ^ 52, dropped + 1) else (rounded, dropped)
  if h : mantissa < 2 ^ 53 ∧ exponent ≤ 2045 ∧ (exponent = 0 ∨ 2 ^ 52 ≤ mantissa) then
    some ⟨negative, mantissa, exponent, h⟩
  else none

def ofInt (i : Int) : Binary64 :=
  (ofRatio? (i < 0) i.natAbs 1).getD (largest (i < 0))

def mul? (x y : Binary64) : Option Binary64 :=
  ofRatio? (x.negative != y.negative) (x.units * y.units) (2 ^ 2148)

def div? (x y : Binary64) : Option Binary64 :=
  if y.mantissa = 0 then none else ofRatio? (x.negative != y.negative) x.units y.units

end Binary64

end DocQuery
