import DocQuery.Regex.Escape

namespace DocQuery.Regex

/-- A class that is being read.  The operator that came last, if any, is applied to what it
stands behind. -/
structure ClassFrame where
  negated : Bool
  operator : CharSet → CharSet
  members : CharSet

namespace ClassFrame

def add (f : ClassFrame) (a : CharSet) : ClassFrame := { f with members := f.members.union a }

def operand (f : ClassFrame) : CharSet := f.operator f.members

-- operators bind alike, so the one before is applied first
def operate (f : ClassFrame) (op : CharSet → CharSet → CharSet) : ClassFrame :=
  { f with operator := op f.operand, members := .nothing }

def close (f : ClassFrame) : CharSet :=
  if f.negated then .complement f.operand else f.operand

end ClassFrame

def asciiRanges? : String → Option (List (Char × Char))
  | "alnum" => some [('0', '9'), ('A', 'Z'), ('a', 'z')]
  | "alpha" => some [('A', 'Z'), ('a', 'z')]
  | "ascii" => some [('\x00', '\x7f')]
  | "blank" => some [('\t', '\t'), (' ', ' ')]
  | "cntrl" => some [('\x00', '\x1f'), ('\x7f', '\x7f')]
  | "digit" => some [('0', '9')]
  | "graph" => some [('!', '~')]
  | "lower" => some [('a', 'z')]
  | "print" => some [(' ', '~')]
  | "punct" => some [('!', '/'), (':', '@'), ('[', '\x60'), ('\x7b', '~')]
  | "space" => some [('\t', '\r'), (' ', ' ')]
  | "upper" => some [('A', 'Z')]
  | "word" => some [('0', '9'), ('A', 'Z'), ('_', '_'), ('a', 'z')]
  | "xdigit" => some [('0', '9'), ('A', 'F'), ('a', 'f')]
  | _ => none

def namedClass? (s : List Char) : Option (CharSet × List Char) := do
  let (negated, s) ←
    match s with
    | ':' :: '^' :: s => some (true, s)
    | ':' :: s => some (false, s)
    | _ => none
  let ranges ← asciiRanges? (String.ofList (s.takeWhile (· != ':')))
  let r ←
    match s.dropWhile (· != ':') with
    | ':' :: ']' :: r => some r
    | _ => none
  some (if negated then .complement (.ofRanges ranges) else .ofRanges ranges, r)

-- dashes, or else a closing bracket, are members if they come first
def openClass (verbose : Bool) (s : List Char) : ClassFrame × List Char :=
  let (negated, s) :=
    match ahead verbose s with
    | '^' :: s => (true, s)
    | s => (false, s)
  match run verbose (· = '-') s.length s with
  | ([], ']' :: r) => (⟨negated, id, .single ']'⟩, r)
  | ([], r) => (⟨negated, id, .nothing⟩, r)
  | (_, r) => (⟨negated, id, .single '-'⟩, r)

def member (verbose : Bool) (c : Char) (s : List Char) :
    Except Fault ((Char ⊕ CharSet) × List Char) :=
  if c = '\\' then
    match escape verbose s with
    | .ok (.char d, r) => .ok (.inl d, r)
    | .ok (.set a, r) => .ok (.inr a, r)
    | .ok (.anchor _, _) => .error .unknownEscape
    | .error e => .error e
  else .ok (.inl c, s)

def memberOrRange (verbose : Bool) (c : Char) (s : List Char) :
    Except Fault (CharSet × List Char) := do
  let (first, s) ← member verbose c s
  let alone := (first.elim .single id, ahead verbose s)
  match ahead verbose s with
  | '-' :: r =>
    match ahead verbose r with
    | [] => throw .unclosedClass
    -- an operator, or the end of the class
    | '-' :: _ => return alone
    | ']' :: _ => return alone
    | d :: r =>
      match first, ← member verbose d r with
      | .inl a, (.inl b, r) => if a ≤ b then return (.range a b, r) else throw .malformedRange
      | _, _ => throw .malformedRange
  | _ => return alone

def classWithin : Nat → Bool → List Char → ClassFrame → List ClassFrame →
    Except Fault (CharSet × List Char)
  | 0, _, _, _, _ => .error .unclosedClass
  | n + 1, verbose, s, f, fs =>
    match ahead verbose s with
    | [] => .error .unclosedClass
    | '[' :: s =>
      match namedClass? s with
      | some (a, r) => classWithin n verbose r (f.add a) fs
      | none =>
        let (g, r) := openClass verbose s
        classWithin n verbose r g (f :: fs)
    | ']' :: s =>
      match fs with
      | [] => .ok (f.close, s)
      | g :: gs => classWithin n verbose s (g.add f.close) gs
    | '&' :: '&' :: s => classWithin n verbose s (f.operate .inter) fs
    | '-' :: '-' :: s => classWithin n verbose s (f.operate .difference) fs
    | '~' :: '~' :: s => classWithin n verbose s (f.operate .exclusive) fs
    | c :: s =>
      match memberOrRange verbose c s with
      | .ok (a, r) => classWithin n verbose r (f.add a) fs
      | .error e => .error e

def charClass (verbose : Bool) (s : List Char) : Except Fault (CharSet × List Char) :=
  let (f, r) := openClass verbose s
  classWithin (s.length + 1) verbose r f []

end DocQuery.Regex
