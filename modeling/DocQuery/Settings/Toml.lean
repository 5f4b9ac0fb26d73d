import DocQuery.Settings.Variables
import DocQuery.Text.Digits

namespace DocQuery.Settings

namespace Toml

inductive Scalar where
  | string (value : String)
  | int (value : Int)

def isText (c : Char) : Bool := c = '\t' || (0x20 ≤ c.toNat && c.toNat != 0x7f)

def skipBlanks (s : List Char) : List Char := s.dropWhile isBlank

def escape? : Char → Option Char
  | 'b' => some '\x08'
  | 't' => some '\t'
  | 'n' => some '\n'
  | 'f' => some '\x0c'
  | 'r' => some '\r'
  | '"' => some '"'
  | '\\' => some '\\'
  | _ => none

def basic? : List Char → Option (List Char × List Char)
  | [] => none
  | '"' :: s => some ([], s)
  | '\\' :: 'u' :: a :: b :: c :: d :: s => do
    let x ← codePoint? [a, b, c, d]
    (basic? s).map fun (cs, r) => (x :: cs, r)
  | '\\' :: 'U' :: a :: b :: c :: d :: e :: f :: g :: h :: s => do
    let x ← codePoint? [a, b, c, d, e, f, g, h]
    (basic? s).map fun (cs, r) => (x :: cs, r)
  | '\\' :: c :: s => do
    let x ← escape? c
    (basic? s).map fun (cs, r) => (x :: cs, r)
  | c :: s => if isText c then (basic? s).map fun (cs, r) => (c :: cs, r) else none

def literal? : List Char → Option (List Char × List Char)
  | [] => none
  | '\'' :: s => some ([], s)
  | c :: s => if isText c then (literal? s).map fun (cs, r) => (c :: cs, r) else none

def endsLine (s : List Char) : Bool :=
  match skipBlanks s with
  | '\n' :: _ | '\r' :: '\n' :: _ => true
  | _ => false

-- behind a backslash at the end of a line, white space is left out
def multiBasic? (trimming : Bool) : List Char → Option (List Char × List Char)
  | [] => none
  | '"' :: '"' :: '"' :: '"' :: '"' :: s => some (['"', '"'], s)
  | '"' :: '"' :: '"' :: '"' :: s => some (['"'], s)
  | '"' :: '"' :: '"' :: s => some ([], s)
  | '\\' :: 'u' :: a :: b :: c :: d :: s => do
    let x ← codePoint? [a, b, c, d]
    (multiBasic? false s).map fun (cs, r) => (x :: cs, r)
  | '\\' :: 'U' :: a :: b :: c :: d :: e :: f :: g :: h :: s => do
    let x ← codePoint? [a, b, c, d, e, f, g, h]
    (multiBasic? false s).map fun (cs, r) => (x :: cs, r)
  | '\\' :: c :: s =>
    if endsLine (c :: s) then multiBasic? true (c :: s)
    else do
      let x ← escape? c
      (multiBasic? false s).map fun (cs, r) => (x :: cs, r)
  | '\r' :: '\n' :: s | '\n' :: s =>
    if trimming then multiBasic? true s
    else (multiBasic? false s).map fun (cs, r) => ('\n' :: cs, r)
  | c :: s =>
    if trimming && isBlank c then multiBasic? true s
    else if isText c then (multiBasic? false s).map fun (cs, r) => (c :: cs, r)
    else none

def multiLiteral? : List Char → Option (List Char × List Char)
  | [] => none
  | '\'' :: '\'' :: '\'' :: '\'' :: '\'' :: s => some (['\'', '\''], s)
  | '\'' :: '\'' :: '\'' :: '\'' :: s => some (['\''], s)
  | '\'' :: '\'' :: '\'' :: s => some ([], s)
  | '\r' :: '\n' :: s | '\n' :: s => (multiLiteral? s).map fun (cs, r) => ('\n' :: cs, r)
  | c :: s => if isText c then (multiLiteral? s).map fun (cs, r) => (c :: cs, r) else none

def skipFirstNewline : List Char → List Char
  | '\r' :: '\n' :: s | '\n' :: s => s
  | s => s

def digits (radix : Nat) : List Char → List Char × List Char
  | [] => ([], [])
  | [c] => if isDigitOf c then ([c], []) else ([], [c])
  | c :: d :: s =>
    if isDigitOf c then
      if d = '_' && s.head?.any isDigitOf then
        let (ds, r) := digits radix s
        (c :: ds, r)
      else
        let (ds, r) := digits radix (d :: s)
        (c :: ds, r)
    else ([], c :: d :: s)
where
  isDigitOf (c : Char) : Bool := (hexDigit? c).any (· < radix)

def natural? (radix : Nat) (s : List Char) : Option (Nat × List Char) :=
  match digits radix s with
  | ([], _) => none
  | (ds, r) => (ofDigits? radix ds).map (·, r)

def decimal? : List Char → Option (Nat × List Char)
  | '0' :: s => some (0, s)
  | s => natural? 10 s

def integer? : List Char → Option (Int × List Char)
  | '0' :: 'x' :: s => (natural? 16 s).map fun (n, r) => (n, r)
  | '0' :: 'o' :: s => (natural? 8 s).map fun (n, r) => (n, r)
  | '0' :: 'b' :: s => (natural? 2 s).map fun (n, r) => (n, r)
  | '+' :: s => (decimal? s).map fun (n, r) => (n, r)
  | '-' :: s => (decimal? s).map fun (n, r) => (-n, r)
  | s => (decimal? s).map fun (n, r) => (n, r)

def scalar? : List Char → Option (Scalar × List Char)
  | '"' :: '"' :: '"' :: s => (multiBasic? false (skipFirstNewline s)).map ofChars
  | '\'' :: '\'' :: '\'' :: s => (multiLiteral? (skipFirstNewline s)).map ofChars
  | '"' :: s => (basic? s).map ofChars
  | '\'' :: s => (literal? s).map ofChars
  | s => (integer? s).map fun (i, r) => (.int i, r)
where
  ofChars (x : List Char × List Char) : Scalar × List Char := (.string (String.ofList x.1), x.2)

def isBareKey (c : Char) : Bool := c.isAlphanum || c = '_' || c = '-'

def key? : List Char → Option (List Char × List Char)
  | '"' :: s => basic? s
  | '\'' :: s => literal? s
  | s =>
    match s.takeWhile isBareKey with
    | [] => none
    | k => some (k, s.dropWhile isBareKey)

def lineEnd? (s : List Char) : Option (List Char) :=
  let s := match skipBlanks s with
    | '#' :: s => s.dropWhile isText
    | s => s
  match s with
  | [] => some []
  | '\n' :: s | '\r' :: '\n' :: s => some s
  | _ => none

def entry? (s : List Char) : Option ((String × Scalar) × List Char) := do
  let (k, s) ← key? (skipBlanks s)
  match skipBlanks s with
  | '=' :: s =>
    let (v, s) ← scalar? (skipBlanks s)
    return ((String.ofList k, v), ← lineEnd? s)
  | _ => none

def entriesWithin : Nat → List Char → Option (List (String × Scalar))
  | _, [] => some []
  | 0, _ => none
  | fuel + 1, s =>
    match lineEnd? s with
    | some s => entriesWithin fuel s
    | none => do
      let (e, s) ← entry? s
      return e :: (← entriesWithin fuel s)

def entries? (text : String) : Option (List (String × Scalar)) :=
  let s := match text.toList with
    | '\uFEFF' :: s => s
    | s => s
  entriesWithin (s.length + 1) s

end Toml

def Layer.set? (l : Layer) : String × Toml.Scalar → Option Layer
  | ("host", .string s) => some { l with host := some s }
  | ("port", .int i) =>
    if 0 ≤ i ∧ i < 2 ^ 16 then some { l with port := some (.ofNat i.toNat) } else none
  | ("database", .string s) => some { l with database := some s }
  | ("username", .string s) => some { l with username := some s }
  | ("password", .string s) => some { l with password := some s }
  | ("application_name", .string s) => some { l with applicationName := some s }
  | _ => none

def Layer.ofToml? (text : String) : Option Layer := do
  let es ← Toml.entries? text
  if (es.map Prod.fst).Nodup then es.foldlM Layer.set? {} else none

def Layer.ofToml (text : String) : Except Error Layer :=
  match Layer.ofToml? text with
  | some l => .ok l
  | none => .error (.config .malformedFile)

def ofToml (text : String) : Except Error Settings := do
  resolve (← Layer.ofToml text)

def ofFile (file : Option String) (vars : Variables) : Except Error Settings := do
  match file with
  | none => throw .unreadableFile
  | some text => resolve (← (← Layer.ofToml text).override vars)

end DocQuery.Settings
