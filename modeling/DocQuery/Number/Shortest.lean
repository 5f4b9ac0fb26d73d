import DocQuery.Number.Decimal

/-! Shortest decimals that read back.  The reals that round to a number form an
interval around it.  Grids of powers of ten are tried from coarse to fine; the
first one with a point next to the number inside the interval gives the digits. -/

namespace DocQuery.Binary64

structure Interval where
  lower : Nat
  centre : Nat
  upper : Nat
  closed : Bool

-- the gap below a power of two is half the gap above it
def interval (x : Binary64) : Interval where
  lower := (if x.mantissa = 2 ^ 52 ∧ 0 < x.exponent then 4 * x.mantissa - 1 else 4 * x.mantissa - 2) * 2 ^ x.exponent
  centre := 4 * x.mantissa * 2 ^ x.exponent
  upper := (4 * x.mantissa + 2) * 2 ^ x.exponent
  closed := x.mantissa % 2 = 0

namespace Interval

def contains (i : Interval) (num den : Nat) : Bool :=
  if i.closed then i.lower * den ≤ num ∧ num ≤ i.upper * den
  else i.lower * den < num ∧ num < i.upper * den

def onGrid? (i : Interval) (k : Int) : Option Nat :=
  let step := 10 ^ k.toNat * 2 ^ 1076
  let den := 10 ^ (-k).toNat
  let below := i.centre * den / step
  let low := i.contains (below * step) den
  let high := i.contains ((below + 1) * step) den
  if low ∧ high then some (roundHalfEven (i.centre * den) step)
  else if low then some below
  else if high then some (below + 1)
  else none

end Interval

/-- The shortest decimal that reads back as the number, the nearest of those of its length. -/
def shortest (x : Binary64) : Decimal :=
  let i := x.interval
  let top : Int := ((i.centre.log2 : Int) - 1075) * 30103 / 100000 + 1
  let grids := (List.range 24).map fun n : Nat => top - n
  match grids.findSome? fun k => (i.onGrid? k).map fun digits => (digits, k) with
  | some (digits, k) => ⟨x.negative, digits, if digits = 0 then 0 else k⟩
  | none => ⟨x.negative, 0, 0⟩

end DocQuery.Binary64

namespace DocQuery

structure DecimalLayout where
  leastPositional : Int
  firstScientific : Int

def DecimalLayout.standard : DecimalLayout := ⟨-5, 16⟩

namespace Decimal

def positional (ds : List Char) (n : Int) : List Char :=
  if n ≤ 0 then '0' :: '.' :: (List.replicate (-n).toNat '0' ++ ds)
  else if ds.length ≤ n then ds ++ List.replicate (n.toNat - ds.length) '0' ++ ['.', '0']
  else ds.take n.toNat ++ '.' :: ds.drop n.toNat

def scientific (ds : List Char) (power : Int) : List Char :=
  let fractional := if ds.length ≤ 1 then ds else ds.take 1 ++ '.' :: ds.drop 1
  let mark := if power < 0 then '-' else '+'
  fractional ++ 'e' :: mark :: Nat.toDigits 10 power.natAbs

def text (layout : DecimalLayout) (d : Decimal) : List Char :=
  let ds := Nat.toDigits 10 d.significand
  let power := ds.length + d.exponent - 1
  let magnitude :=
    if d.significand = 0 ∨ layout.leastPositional ≤ power ∧ power < layout.firstScientific then
      positional ds (power + 1)
    else scientific ds power
  if d.negative then '-' :: magnitude else magnitude

end Decimal

def Binary64.text (x : Binary64) : String :=
  String.ofList (x.shortest.text .standard)

end DocQuery
