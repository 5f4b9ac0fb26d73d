import DocQuery.Json.Basic
import DocQuery.Query.Error
import DocQuery.Unicode.Blank
import DocQuery.Unicode.Lowercase

/-! Key lists such as `byLastNameAnd-Age`: a marker of two bytes, then names joined
by `And`.  A name begins with a lower-case letter in the documents; a dash in front
of it asks for descending order. -/

namespace DocQuery

structure KeyList.Key where
  descending : Bool
  name : List Char
  deriving DecidableEq

namespace KeyList

def dropBytes? : Nat → List Char → Option (List Char)
  | 0, s => some s
  | _ + 1, [] => none
  | n + 1, c :: s => if c.utf8Size ≤ n + 1 then dropBytes? (n + 1 - c.utf8Size) s else none

def markerLength : Nat := 2

def parts : List Char → List (List Char)
  | [] => [[]]
  | 'A' :: 'n' :: 'd' :: s => [] :: parts s
  | c :: s =>
    match parts s with
    | [] => [[c]]
    | p :: ps => (c :: p) :: ps

def dropTrailing : List (List Char) → List (List Char)
  | [] => []
  | p :: ps => p :: (ps.reverse.dropWhile List.isEmpty).reverse

def Key.ofPart? (part : List Char) : Option Key :=
  let (descending, name) := match part with
    | '-' :: name => (true, name)
    | name => (false, name)
  match name with
  | [] => none
  | c :: cs => some ⟨descending, Unicode.lowercase c ++ cs⟩

def Key.text (k : Key) : List Char := if k.descending then '-' :: k.name else k.name

def keysOf (parts : List (List Char)) : Option (List Key) :=
  match parts with
  | [] => some []
  | p :: ps =>
    match Key.ofPart? p with
    | some k => (keysOf ps).map (k :: ·)
    | none => none

def keys (input : String) : Except QueryError (List Key) :=
  match dropBytes? markerLength input.toList with
  | none => .error (.malformedKeyList input .tooShort)
  | some s =>
    match keysOf (dropTrailing (parts s)) with
    | some ks => .ok ks
    | none => .error (.malformedKeyList input .emptyKey)

/-- The fields of an order: `1` for ascending, `-1` for descending.  A name that
comes again keeps its place and takes the later direction. -/
def orderFields (ks : List Key) : Fields Json :=
  Fields.ofList (ks.map fun k =>
    (String.ofList (Unicode.trim k.name), .int (if k.descending then -1 else 1)))

def orderDocument (input : String) : Except QueryError Json :=
  (keys input).map fun ks => .object (orderFields ks)

def equalities (ks : List Key) (values : List Json) : Fields Json :=
  Fields.ofList (List.zip (ks.map fun k => String.ofList (Unicode.trim k.text)) values)

def equalityDocument (input : String) (values : List Json) : Except QueryError Json :=
  match keys input with
  | .error e => .error e
  | .ok ks =>
    if values.length < ks.length then .error (.insufficientValues ks.length values.length)
    else .ok (.object (equalities ks values))

/-- Whether a query is a key list: the marker `by`, then a capital letter or a dash,
and no white space anywhere. -/
def isShorthand (query : String) : Bool :=
  match query.toList with
  | 'b' :: 'y' :: c :: s =>
    (('A' ≤ c && c ≤ 'Z') || c = '-') && !(c :: s).any Unicode.isBlank
  | _ => false

end KeyList

end DocQuery
