namespace DocQuery.Unicode

def inRanges (ranges : List (Nat × Nat)) (n : Nat) : Bool :=
  ranges.any fun r => r.1 ≤ n && n ≤ r.2

/-- Code points at a fixed distance from each other that are all mapped by the same shift. -/
structure Row where
  first : Nat
  last : Nat
  stride : Nat
  shift : Int

namespace Row

def contains (r : Row) (n : Nat) : Bool :=
  r.first ≤ n && n ≤ r.last && (n - r.first) % r.stride = 0

def image (r : Row) (n : Nat) : Nat := (n + r.shift).toNat

def preimage? (r : Row) (n : Nat) : Option Nat :=
  let m := (n - r.shift).toNat
  if r.contains m then some m else none

end Row

def mapBy (rows : List Row) (n : Nat) : Nat :=
  match rows.find? (·.contains n) with
  | some r => r.image n
  | none => n

end DocQuery.Unicode
