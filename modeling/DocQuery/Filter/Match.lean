import DocQuery.Filter.OfExpr
import DocQuery.Json.Order
import DocQuery.Json.Path
import DocQuery.Json.Printer
import DocQuery.Query.Error
import DocQuery.Regex.Engine

/-! Which documents a filter selects.  All fields of a filter must hold; they are
looked at in order up to the first that does not.  A missing field counts as null
for equality, and a field that holds an array also through its items. -/

namespace DocQuery.Filter

open Regex (Engine)

variable [Engine]

def unsupported (part filter : Json) : QueryError :=
  .located .unsupportedOperator ⟨part.text, filter.text⟩

def fieldEquals (field : Option Json) (expected : Json) : Bool :=
  match field with
  | none => expected.isNull
  | some .null => expected.isNull
  | some (.array items) =>
    if expected.isArray then (Json.array items).equal expected
    else items.any (·.equal expected)
  | some v => v.equal expected

def fieldCompares (field : Option Json) (bound : Json) (accept : Ordering → Bool) : Bool :=
  match field with
  | none => false
  | some (.array items) => items.any fun v => (v.order? bound).any accept
  | some v => (v.order? bound).any accept

def isMember (filter : Json) (field : Option Json) : Json → Except QueryError Bool
  | .array vs => .ok (vs.any (fieldEquals field))
  | list => .error (unsupported list filter)

def patternLimit : Nat := 1000

def readPattern (pattern : String) : Except QueryError Engine.Program :=
  if patternLimit < pattern.utf8ByteSize then .error (.invalidPattern pattern .tooLong)
  else
    match Engine.compile pattern with
    | .ok r => .ok r
    | .error reason => .error (.invalidPattern pattern (.malformed reason))

def stringMatches (r : Engine.Program) : Json → Bool
  | .string s => Engine.isMatch r s
  | _ => false

def fieldMatches (filter : Json) (field : Option Json) : Json → Except QueryError Bool
  | .string pattern => (readPattern pattern).map fun r =>
    match field with
    | some (.array items) => items.any (stringMatches r)
    | some v => stringMatches r v
    | none => false
  | pattern => .error (unsupported pattern filter)

def isOperators (fs : List (String × Json)) : Bool :=
  !fs.isEmpty && fs.all fun f => isOperatorName f.1

mutual

def operatorHolds (filter : Json) (field : Option Json) (name : String) (arg : Json) :
    Except QueryError Bool :=
  match name with
  | "$eq" => .ok (fieldEquals field arg)
  | "$ne" => .ok (!fieldEquals field arg)
  | "$gt" => .ok (fieldCompares field arg (· == .gt))
  | "$gte" => .ok (fieldCompares field arg (· != .lt))
  | "$lt" => .ok (fieldCompares field arg (· == .lt))
  | "$lte" => .ok (fieldCompares field arg (· != .gt))
  | "$in" => isMember filter field arg
  | "$nin" => (isMember filter field arg).map (!·)
  | "$regex" => fieldMatches filter field arg
  | "$not" =>
    match arg with
    | .string p => (fieldMatches filter field (.string p)).map (!·)
    | .object fs =>
      if isOperators fs then (operatorsHold filter field fs).map (!·)
      else .error (unsupported arg filter)
    | arg => .error (unsupported arg filter)
  | name => .error (unsupported (.string name) filter)

def operatorsHold (filter : Json) (field : Option Json) :
    List (String × Json) → Except QueryError Bool
  | [] => .ok true
  | (name, arg) :: fs => do
    if ← operatorHolds filter field name arg then operatorsHold filter field fs else return false

end

def clauseHolds (filter : Json) (field : Option Json) (c : Json) : Except QueryError Bool :=
  match c with
  | .object fs => if isOperators fs then operatorsHold filter field fs else .ok (fieldEquals field c)
  | c => .ok (fieldEquals field c)

mutual

def holds (document : Json) : Json → Except QueryError Bool
  | .object fs => fieldsHold document (.object fs) fs
  | filter => .error (unsupported filter filter)

def fieldsHold (document filter : Json) : List (String × Json) → Except QueryError Bool
  | [] => .ok true
  | (key, c) :: fs => do
    let held ←
      if key = "$and" then
        match c with
        | .array subs => allHold document subs
        | c => .error (unsupported c filter)
      else if key = "$or" then
        match c with
        | .array subs => anyHolds document subs
        | c => .error (unsupported c filter)
      else if isOperatorName key then .error (unsupported (.string key) filter)
      else clauseHolds filter (document.at? key) c
    if held then fieldsHold document filter fs else return false

def allHold (document : Json) : List Json → Except QueryError Bool
  | [] => .ok true
  | f :: fs => do
    if ← holds document f then allHold document fs else return false

def anyHolds (document : Json) : List Json → Except QueryError Bool
  | [] => .ok false
  | f :: fs => do
    if ← holds document f then return true else anyHolds document fs

end

end DocQuery.Filter
