import DocQuery.Unicode.Blank
import DocQuery.Unicode.CaseFold
import DocQuery.Unicode.Word

namespace DocQuery.Regex

inductive CharSet where
  | nothing
  | single (c : Char)
  | range (first last : Char)
  | decimal
  | word
  | blank
  | union (a b : CharSet)
  | inter (a b : CharSet)
  | complement (a : CharSet)
  | ignoringCase (a : CharSet)
  deriving DecidableEq

namespace CharSet

def contains : CharSet → Char → Bool
  | nothing, _ => false
  | single c, d => c = d
  | range first last, d => first ≤ d && d ≤ last
  | decimal, d => Unicode.isDecimal d
  | word, d => Unicode.isWord d
  | blank, d => Unicode.isBlank d
  | union a b, d => a.contains d || b.contains d
  | inter a b, d => a.contains d && b.contains d
  | complement a, d => !a.contains d
  | ignoringCase a, d => (Unicode.caseVariants d).any a.contains

def difference (a b : CharSet) : CharSet := inter a (complement b)

def exclusive (a b : CharSet) : CharSet := union (difference a b) (difference b a)

def ofRanges (rs : List (Char × Char)) : CharSet :=
  rs.foldr (fun r a => union (range r.1 r.2) a) nothing

def foldCase : CharSet → CharSet
  | union a b => union a.foldCase b.foldCase
  | inter a b => inter a.foldCase b.foldCase
  -- case variants are added to the set that is taken away
  | complement a => complement a.foldCase
  | a => ignoringCase a

end CharSet

end DocQuery.Regex
