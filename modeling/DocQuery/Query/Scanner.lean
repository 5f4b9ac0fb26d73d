import DocQuery.Json.Basic
import DocQuery.Query.Cursor

/-! Scans of a query by byte offsets.  A scan moves through the bytes of its query and
takes texts out of it; a text can only be cut between characters.  What a scan does is
recorded: where it stood, how often its loops went round and how deep groups were nested. -/

namespace DocQuery.Query

def byte (c : Char) : UInt8 := c.toUInt8

def bytes (s : List Char) : List UInt8 := s.flatMap String.utf8EncodeChar

def foldByte (b : UInt8) : UInt8 := if byte 'A' ≤ b && b ≤ byte 'Z' then b + 32 else b

def cutAt? (n : Nat) : List Char → Option (List Char × List Char)
  | [] => if n = 0 then some ([], []) else none
  | c :: s =>
    if n = 0 then some ([], c :: s)
    else if c.utf8Size ≤ n then (cutAt? (n - c.utf8Size) s).map fun (t, r) => (c :: t, r)
    else none

def offsetOf? (c : Char) : List Char → Option Nat
  | [] => none
  | d :: s => if d = c then some 0 else (offsetOf? c s).map (d.utf8Size + ·)

structure Source where
  query : String
  params : List Json

/-- Where a scan stands, and what it did to get there. -/
structure Scanner where
  position : Nat
  -- all positions up to now, the latest first
  visited : List Nat
  -- rounds of the loops over the terms of a group and the items of a list
  rounds : Nat
  -- groups that are being read, one inside the other
  opened : Nat
  -- the most groups that were open at once
  deepest : Nat

def Scanner.start : Scanner := ⟨0, [0], 0, 0, 0⟩

inductive Stop where
  | refused (e : QueryError)
  -- a text was to be cut inside a character
  | torn
  -- a group was to be made of no terms
  | noTerms

/-- A scan that does not come to an end has no outcome.  One that ends early leaves its
scanner where it was. -/
abbrev Scan (α : Type) := ExceptT Stop (StateT Scanner Option) α

namespace Scan

def moveTo (position : Nat) : Scan Unit :=
  modify fun c => { c with position, visited := position :: c.visited }

def nextRound : Scan Unit := modify fun c => { c with rounds := c.rounds + 1 }

def openGroup : Scan Unit :=
  modify fun c => { c with opened := c.opened + 1, deepest := max c.deepest (c.opened + 1) }

def closeGroup : Scan Unit := modify fun c => { c with opened := c.opened - 1 }

def cut (n : Nat) (s : List Char) : Scan (List Char × List Char) :=
  match cutAt? n s with
  | some p => return p
  | none => throw .torn

end Scan

namespace Source

open Scan

variable (src : Source)

def remainder : Scan (List Char) := return (← cut (← get).position src.query.toList).2

def refuse {α : Type} (fault : Fault) (place : List Char) : Scan α :=
  throw (.refused (.located fault ⟨String.ofList place, src.query⟩))

def current : Scan (Option UInt8) := return (bytes src.query.toList)[(← get).position]?

def isAtEnd : Scan Bool := return src.query.utf8ByteSize ≤ (← get).position

def advance (n : Nat) : Scan Unit := do moveTo (min ((← get).position + n) src.query.utf8ByteSize)

def skipBlanks (src : Source) : Scan Unit := do
  if (← src.current) = some (byte ' ') then
    moveTo ((← get).position + 1)
    src |>.skipBlanks
partial_fixpoint

def isAt (keyword : List Char) : Scan Bool := do
  let rest := bytes (← src.remainder)
  let key := bytes keyword
  return key.length ≤ rest.length &&
    (rest.take key.length).map foldByte = key.map foldByte &&
    (rest[key.length]?).all [byte ' ', byte '(', byte ')'].contains

def eat (keyword : List Char) : Scan Bool := do
  if ← src.isAt keyword then
    src.advance (bytes keyword).length
    return true
  else return false

def word : Scan (Option (List Char)) := do
  let rest ← src.remainder
  match offsetOf? ' ' rest with
  | none => return none
  | some n =>
    if 0 < n then
      src.advance n
      return some (← cut n rest).1
    else return none

def takeUntil (stops : List Char) : Scan (List Char) := do
  let rest ← src.remainder
  let n := ((bytes rest).findIdx? (bytes stops).contains).getD (bytes rest).length
  src.advance n
  return (← cut n rest).1

end Source

end DocQuery.Query
