import DocQuery.Number.Binary64

namespace DocQuery

structure Decimal where
  negative : Bool
  significand : Nat
  exponent : Int
  deriving DecidableEq

def digitValue? (c : Char) : Option Nat :=
  if '0' ≤ c ∧ c ≤ '9' then some (c.toNat - '0'.toNat) else none

def isDigit (c : Char) : Bool := (digitValue? c).isSome

def ofDigits (ds : List Char) : Nat :=
  ds.foldl (fun n c => 10 * n + (digitValue? c).getD 0) 0

def digitCount (n : Nat) : Nat := (Nat.toDigits 10 n).length

/-- The number nearest to a decimal.  The magnitude is looked at first, so that
no power of ten is formed for a decimal far outside the range. -/
def Binary64.ofDecimal? (d : Decimal) : Option Binary64 :=
  let magnitude := digitCount d.significand + d.exponent
  if d.significand = 0 ∨ magnitude < -400 then some (zero d.negative)
  else if 400 < magnitude then none
  else ofRatio? d.negative (d.significand * 10 ^ d.exponent.toNat) (10 ^ (-d.exponent).toNat)

namespace Decimal

def sign : List Char → Bool × List Char
  | '-' :: s => (true, s)
  | '+' :: s => (false, s)
  | s => (false, s)

def digits (s : List Char) : List Char × List Char :=
  (s.takeWhile isDigit, s.dropWhile isDigit)

def fraction : List Char → List Char × List Char
  | '.' :: s => digits s
  | s => ([], s)

def power? : List Char → Option Int
  | [] => some 0
  | c :: s =>
    if c = 'e' ∨ c = 'E' then
      let (negative, s) := sign s
      let (ds, rest) := digits s
      if ds.isEmpty ∨ !rest.isEmpty then none
      else some (if negative then -(ofDigits ds : Int) else ofDigits ds)
    else none

def ofText? (s : List Char) : Option Decimal :=
  let (negative, s) := sign s
  let (whole, s) := digits s
  let (part, s) := fraction s
  if whole.isEmpty ∧ part.isEmpty then none
  else (power? s).map fun e => ⟨negative, ofDigits (whole ++ part), e - part.length⟩

end Decimal

def Binary64.ofText? (s : List Char) : Option Binary64 :=
  (Decimal.ofText? s).bind Binary64.ofDecimal?

end DocQuery
