import DocQuery.Number.Power
import DocQuery.Regex.CharSet

/-! Regular expressions and the search for a match anywhere in a text.  A text of
`n` characters has the places `0` to `n`.  A set of places is a number whose bit
`i` stands for place `i`, and an expression moves a set of places to the set of
those where a match that began in the first set can end. -/

namespace DocQuery

namespace Regex

inductive Anchor where
  | textStart
  | textEnd
  | lineStart
  | lineEnd
  | lineStartCrlf
  | lineEndCrlf
  | wordBoundary
  | insideOrOutsideWord
  | wordStart
  | wordEnd
  | wordStartHalf
  | wordEndHalf
  deriving DecidableEq

def Anchor.holds (before after : Option Char) : Anchor → Bool
  | textStart => before.isNone
  | textEnd => after.isNone
  | lineStart => before.isNone || before = some '\n'
  | lineEnd => after.isNone || after = some '\n'
  -- a line does not end inside of a pair of a carriage return and a line feed
  | lineStartCrlf => before.isNone || before = some '\n' ||
      (before = some '\r' && after != some '\n')
  | lineEndCrlf => after.isNone || after = some '\r' ||
      (after = some '\n' && before != some '\r')
  | wordBoundary => before.any Unicode.isWord != after.any Unicode.isWord
  | insideOrOutsideWord => before.any Unicode.isWord = after.any Unicode.isWord
  | wordStart => !before.any Unicode.isWord && after.any Unicode.isWord
  | wordEnd => before.any Unicode.isWord && !after.any Unicode.isWord
  | wordStartHalf => !before.any Unicode.isWord
  | wordEndHalf => !after.any Unicode.isWord

end Regex

inductive Regex where
  | empty
  | set (s : Regex.CharSet)
  | anchor (a : Regex.Anchor)
  | seq (r s : Regex)
  | alt (r s : Regex)
  | times (r : Regex) (least : Nat) (most : Option Nat)
  deriving DecidableEq

namespace Regex

def ofList (rs : List Regex) : Regex := rs.foldr seq empty

def placesOf (p : Char → Bool) : List Char → Nat
  | [] => 0
  | c :: s => (p c).toNat + 2 * placesOf p s

def placesAt (a : Anchor) (before : Option Char) : List Char → Nat
  | [] => (a.holds before none).toNat
  | c :: s => (a.holds before (some c)).toNat + 2 * placesAt a (some c) s

structure Move where
  run : Nat → Nat

namespace Move

def power (m : Move) : Nat → Nat → Nat
  | 0, places => places
  | n + 1, places => if places = 0 then 0 else m.power n (m.run places)

def closure (m : Move) : Nat → Nat → Nat
  | 0, places => places
  | n + 1, places =>
    let more := places ||| m.run places
    if more = places then places else m.closure n more

end Move

def move (text : List Char) : Regex → Move
  | empty => ⟨id⟩
  | set s =>
    let starts := placesOf s.contains text
    ⟨fun places => (places &&& starts) <<< 1⟩
  | anchor a =>
    let held := placesAt a none text
    ⟨fun places => places &&& held⟩
  | seq r s =>
    let first := move text r
    let second := move text s
    ⟨fun places => second.run (first.run places)⟩
  | alt r s =>
    let left := move text r
    let right := move text s
    ⟨fun places => left.run places ||| right.run places⟩
  | times r least most =>
    let m := move text r
    -- a set of places is below `2 ^ (n + 1)` and grows with each round that changes it
    let rounds := (most.map (· - least)).getD (2 ^ (text.length + 1))
    ⟨fun places => m.closure rounds (m.power least places)⟩

def isMatch (r : Regex) (text : List Char) : Bool :=
  (r.move text).run (2 ^ (text.length + 1) - 1) != 0

end Regex

end DocQuery
