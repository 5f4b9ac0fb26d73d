namespace DocQuery

def hexDigit? (c : Char) : Option Nat :=
  if '0' ≤ c ∧ c ≤ '9' then some (c.toNat - '0'.toNat)
  else if 'a' ≤ c ∧ c ≤ 'f' then some (c.toNat - 'a'.toNat + 10)
  else if 'A' ≤ c ∧ c ≤ 'F' then some (c.toNat - 'A'.toNat + 10)
  else none

def ofDigits? (radix : Nat) (ds : List Char) : Option Nat :=
  ds.foldlM (fun n c => do
    let d ← hexDigit? c
    if d < radix then some (radix * n + d) else none) 0

def codePoint? (ds : List Char) : Option Char := do
  let n ← ofDigits? 16 ds
  if n.isValidChar then some (.ofNat n) else none

end DocQuery
