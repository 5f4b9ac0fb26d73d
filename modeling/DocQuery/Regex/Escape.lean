import DocQuery.Number.Decimal
import DocQuery.Regex.Basic
import DocQuery.Text.Digits

namespace DocQuery.Regex

inductive Fault where
  | unclosedGroup
  | unopenedGroup
  | unknownGroup
  | repeatedName
  | unknownFlag
  | repeatedFlag
  | missingOperand
  | malformedCount
  | unknownEscape
  | malformedCodePoint
  | unclosedClass
  | malformedRange
  deriving DecidableEq

def Fault.text : Fault → String
  | unclosedGroup => "unclosed group"
  | unopenedGroup => "unopened group"
  | unknownGroup => "unrecognized group"
  | repeatedName => "duplicate capture group name"
  | unknownFlag => "unrecognized flag"
  | repeatedFlag => "duplicate flag"
  | missingOperand => "repetition operator missing expression"
  | malformedCount => "malformed repetition count"
  | unknownEscape => "unrecognized escape sequence"
  | malformedCodePoint => "malformed hexadecimal escape sequence"
  | unclosedClass => "unclosed character class"
  | malformedRange => "malformed character class range"

def dropIgnored (inComment : Bool) : List Char → List Char
  | [] => []
  | c :: s =>
    if inComment then dropIgnored (c != '\n') s
    else if Unicode.isBlank c then dropIgnored false s
    else if c = '#' then dropIgnored true s
    else c :: s

/-- The text ahead, in verbose notation without white space and comments in front of it. -/
def ahead (verbose : Bool) (s : List Char) : List Char :=
  if verbose then dropIgnored false s else s

def run (verbose : Bool) (p : Char → Bool) : Nat → List Char → List Char × List Char
  | 0, s => ([], s)
  | n + 1, s =>
    match ahead verbose s with
    | [] => ([], [])
    | c :: r =>
      if p c then
        let (cs, r) := run verbose p n r
        (c :: cs, r)
      else ([], c :: r)

def isLetterOrDigit (c : Char) : Bool :=
  isDigit c || ('a' ≤ c && c ≤ 'z') || ('A' ≤ c && c ≤ 'Z')

inductive Atom where
  | char (c : Char)
  | set (a : CharSet)
  | anchor (a : Anchor)

def namedSet? : Char → Option CharSet
  | 'd' => some .decimal
  | 'D' => some (.complement .decimal)
  | 'w' => some .word
  | 'W' => some (.complement .word)
  | 's' => some .blank
  | 'S' => some (.complement .blank)
  | _ => none

def escaped? (c : Char) : Option Char :=
  match c with
  | 'n' => some '\n'
  | 't' => some '\t'
  | 'r' => some '\r'
  | 'a' => some '\x07'
  | 'f' => some '\x0c'
  | 'v' => some '\x0b'
  | c => if isLetterOrDigit c || c = '<' || c = '>' || 0x7f < c.toNat then none else some c

def codeWidth? : Char → Option Nat
  | 'x' => some 2
  | 'u' => some 4
  | 'U' => some 8
  | _ => none

def codePoint (verbose : Bool) (width : Nat) (s : List Char) : Except Fault (Atom × List Char) :=
  let isHex := fun c => (hexDigit? c).isSome
  let (digits, r) :=
    match ahead verbose s with
    | '\x7b' :: s =>
      match run verbose isHex s.length s with
      | (digits, '\x7d' :: r) => (digits, r)
      | _ => ([], s)
    | s =>
      let (digits, r) := run verbose isHex width s
      if digits.length = width then (digits, r) else ([], s)
  match codePoint? digits with
  | some c => if digits.isEmpty then .error .malformedCodePoint else .ok (.char c, r)
  | none => .error .malformedCodePoint

def namedEdge? : String → Option Anchor
  | "start" => some .wordStart
  | "end" => some .wordEnd
  | "start-half" => some .wordStartHalf
  | "end-half" => some .wordEndHalf
  | _ => none

def boundary (verbose : Bool) (s : List Char) : Except Fault (Atom × List Char) :=
  match s with
  -- braces without a name are left for a repetition
  | '\x7b' :: r =>
    match run verbose (fun c => c = '-' || (isLetterOrDigit c && !isDigit c)) r.length r with
    | ([], _) => .ok (.anchor .wordBoundary, s)
    | (name, '\x7d' :: r) =>
      match namedEdge? (String.ofList name) with
      | some a => .ok (.anchor a, r)
      | none => .error .unknownEscape
    | _ => .error .unknownEscape
  | s => .ok (.anchor .wordBoundary, s)

def escape (verbose : Bool) (s : List Char) : Except Fault (Atom × List Char) :=
  match s with
  | [] => .error .unknownEscape
  | c :: s =>
    match namedSet? c, codeWidth? c, escaped? c with
    | some a, _, _ => .ok (.set a, s)
    | none, some width, _ => codePoint verbose width s
    | none, none, some d => .ok (.char d, s)
    | none, none, none =>
      match c with
      | 'A' => .ok (.anchor .textStart, s)
      | 'z' => .ok (.anchor .textEnd, s)
      | 'b' => boundary verbose s
      | 'B' => .ok (.anchor .insideOrOutsideWord, s)
      | '<' => .ok (.anchor .wordStart, s)
      | '>' => .ok (.anchor .wordEnd, s)
      | _ => .error .unknownEscape

end DocQuery.Regex
