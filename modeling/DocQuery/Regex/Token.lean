import DocQuery.Regex.Class

namespace DocQuery.Regex

structure Flags where
  ignoreCase : Bool
  byLine : Bool
  dotAll : Bool
  crlf : Bool
  verbose : Bool
  deriving DecidableEq

inductive Token where
  | set (a : CharSet)
  | dot
  | caret
  | dollar
  | anchor (a : Anchor)
  | opening (name : Option (List Char)) (change : Flags → Flags)
  | flags (change : Flags → Flags)
  | closing
  | bar
  | repetition (least : Nat) (most : Option Nat)

-- white space is dropped in any notation here
def number (verbose : Bool) (s : List Char) : Except Fault (Nat × List Char) :=
  let (digits, r) := run verbose isDigit s.length (s.dropWhile Unicode.isBlank)
  if digits.isEmpty || 2 ^ 32 ≤ ofDigits digits then .error .malformedCount
  else .ok (ofDigits digits, r.dropWhile Unicode.isBlank)

-- whether the shortest match is tried first makes no difference to whether there is one
def skipPreference : List Char → List Char
  | '?' :: s => s
  | s => s

def count (verbose : Bool) (s : List Char) : Except Fault (Token × List Char) := do
  let (least, s) ← number verbose (ahead verbose s)
  match s with
  | '\x7d' :: r => return (.repetition least (some least), skipPreference (ahead verbose r))
  | ',' :: s =>
    match ahead verbose s with
    | '\x7d' :: r => return (.repetition least none, skipPreference (ahead verbose r))
    | s =>
      match ← number verbose s with
      | (most, '\x7d' :: r) =>
        if most < least then throw .malformedCount
        else return (.repetition least (some most), skipPreference (ahead verbose r))
      | _ => throw .malformedCount
  | _ => throw .malformedCount

def setFlag? (value : Bool) : Char → Option (Flags → Flags)
  | 'i' => some fun f => { f with ignoreCase := value }
  | 'm' => some fun f => { f with byLine := value }
  | 's' => some fun f => { f with dotAll := value }
  | 'R' => some fun f => { f with crlf := value }
  | 'x' => some fun f => { f with verbose := value }
  | 'U' => some id
  | 'u' => if value then some id else none
  | _ => none

def setFlags (value : Bool) : List Char → Except Fault (Flags → Flags)
  | [] => .ok id
  | '-' :: s => setFlags false s
  | c :: s =>
    match setFlag? value c with
    | some change => (setFlags value s).map (· ∘ change)
    | none => .error .unknownFlag

def flagChange (s : List Char) : Except Fault ((Flags → Flags) × List Char) :=
  let isEnd := fun c => c = ')' || c = ':'
  let names := s.takeWhile (!isEnd ·)
  if ¬ names.Nodup then .error .repeatedFlag
  else if names.getLast? = some '-' then .error .unknownFlag
  else (setFlags true names).map (·, s.dropWhile (!isEnd ·))

def groupName (s : List Char) : Except Fault (Token × List Char) :=
  let isNameChar := fun c => isLetterOrDigit c || ['_', '.', '[', ']'].contains c
  match s.takeWhile isNameChar, s.dropWhile isNameChar with
  | c :: name, '>' :: r =>
    if c = '_' || (isLetterOrDigit c && !isDigit c) then .ok (.opening (some (c :: name)) id, r)
    else .error .unknownGroup
  | _, _ => .error .unknownGroup

def opening (verbose : Bool) (s : List Char) : Except Fault (Token × List Char) :=
  match ahead verbose s with
  | '?' :: 'P' :: '<' :: s => groupName s
  | '?' :: '<' :: s => groupName s
  | '?' :: s =>
    match flagChange s with
    | .ok (change, ':' :: r) => .ok (.opening none change, r)
    | .ok (change, _ :: r) =>
      if s.head? = some ')' then .error .missingOperand else .ok (.flags change, r)
    | .ok (_, []) => .error .unclosedGroup
    | .error e => .error e
  | s => .ok (.opening none id, s)

def token (verbose : Bool) (c : Char) (s : List Char) : Except Fault (Token × List Char) :=
  match c with
  | '.' => .ok (.dot, s)
  | '^' => .ok (.caret, s)
  | '$' => .ok (.dollar, s)
  | '|' => .ok (.bar, s)
  | '(' => opening verbose s
  | ')' => .ok (.closing, s)
  | '[' => (charClass verbose s).map fun (a, r) => (.set a, r)
  | '*' => .ok (.repetition 0 none, skipPreference s)
  | '+' => .ok (.repetition 1 none, skipPreference s)
  | '?' => .ok (.repetition 0 (some 1), skipPreference s)
  | '\x7b' => count verbose s
  | '\\' =>
    match escape verbose s with
    | .ok (.char d, r) => .ok (.set (.single d), r)
    | .ok (.set a, r) => .ok (.set a, r)
    | .ok (.anchor a, r) => .ok (.anchor a, r)
    | .error e => .error e
  | c => .ok (.set (.single c), s)

end DocQuery.Regex
