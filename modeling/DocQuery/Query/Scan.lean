import DocQuery.Query.Grammar
import DocQuery.Query.Scanner

namespace DocQuery.Query

namespace Scan

def closing? (offset : Nat) (previous : Option Char) : List Char → Option (List Char × Nat)
  | [] => none
  | c :: s =>
    if c = '\'' && previous ≠ some '\\' then some ([], offset)
    else (closing? (offset + c.utf8Size) (some c) s).map fun (cs, n) => (c :: cs, n)

def groupOf : Option Logic → List Expr → Scan Expr
  | some logic, es => return .group logic es
  | none, e :: _ => return e
  | none, [] => throw .noTerms

end Scan

namespace Source

open Scan

variable (src : Source)

def parameter : Scan Json := do
  let place ← src.remainder
  src.advance 1
  let digits ← src.takeUntil [' ', ')']
  match wordIndex? digits with
  | none => src.refuse .malformedParameter place
  | some 0 => src.refuse (.parameterOutOfRange 0 src.params.length) place
  | some (i + 1) =>
    match src.params[i]? with
    | none => src.refuse (.parameterOutOfRange (i + 1) src.params.length) place
    | some v => return v

def quoted : Scan String := do
  let place ← src.remainder
  src.advance 1
  match closing? 0 none (← src.remainder) with
  | none => src.refuse .unterminatedString place
  | some (cs, n) =>
    src.advance (n + 1)
    return String.ofList cs

def numeral (stops : List Char) : Scan Json := do
  let place ← src.remainder
  match Binary64.ofText? (← src.takeUntil stops) with
  | some x => return .number (.float x)
  | none => src.refuse .malformedNumber place

def listItems (src : Source) (place : List Char) (items : List Json) : Scan (List Json) := do
  nextRound
  match ← src.current with
  | none => src.refuse .unbalancedParentheses place
  | some b =>
    if b = byte ')' then
      src.advance 1
      return items
    else if b = byte ',' || b = byte ' ' then
      src.advance 1
      src |>.listItems place items
    else if b = byte '\'' then
      let text ← src.quoted
      src |>.listItems place (items ++ [.string text])
    else
      let number ← src.numeral listStops
      src |>.listItems place (items ++ [number])
partial_fixpoint

def list : Scan Json := do
  let place ← src.remainder
  src.advance 1
  return .array (← src.listItems place [])

def value : Scan Json := do
  let first ← src.current
  if first = some (byte '?') then src.parameter
  else if first = some (byte '(') then src.list
  else if first = some (byte '\'') then return .string (← src.quoted)
  else src.numeral [' ', ')']

def afterIs : Scan Operator := do
  src.skipBlanks
  if ← src.eat keywordNull then return .isNull
  else if ← src.eat keywordNot then
    src.skipBlanks
    if ← src.eat keywordNull then return .isNotNull
    else src.refuse (.unsupportedQualifier .isNot) (← src.remainder)
  else src.refuse (.unsupportedQualifier .is) (← src.remainder)

def afterNot : Scan Operator := do
  src.skipBlanks
  if ← src.eat keywordLike then return .notLike
  else if ← src.eat keywordIn then return .notIn
  else src.refuse (.unsupportedQualifier .not) (← src.remainder)

def operator : Scan Operator := do
  let place ← src.remainder
  match ← src.word with
  | none => src.refuse (.missingSpace .operator) place
  | some w =>
    match Operator.ofSymbol? w with
    | some o => return o
    | none =>
      let key := (bytes w).map foldByte
      if key = (bytes keywordLike).map foldByte then return .like
      else if key = (bytes keywordIn).map foldByte then return .isIn
      else if key = (bytes keywordIs).map foldByte then src.afterIs
      else if key = (bytes keywordNot).map foldByte then src.afterNot
      else src.refuse .unsupportedOperator place

def bind (o : Operator) (v : Json) (place : List Char) : Scan Predicate :=
  match o.bind? v with
  | some p => return p
  | none => src.refuse .unsupportedOperator place

def condition : Scan Condition := do
  let place ← src.remainder
  match ← src.word with
  | none => src.refuse (.missingSpace .key) place
  | some field =>
    src.skipBlanks
    let o ← src.operator
    if o.takesValue then
      src.skipBlanks
      let place ← src.remainder
      let v ← src.value
      return ⟨String.ofList field, ← src.bind o v place⟩
    else return ⟨String.ofList field, ← src.bind o .null (← src.remainder)⟩

def connective (place : List Char) : Scan Logic := do
  if ← src.eat keywordAnd then return .and
  else if ← src.eat keywordOr then return .or
  else src.refuse .missingLogic place

def follow (depth : Nat) : Scan (Option (List Char × Logic)) := do
  src.skipBlanks
  match ← src.current with
  | none => return none
  | some b =>
    if b = byte ')' then
      if 0 < depth then return none
      else src.refuse .unbalancedParentheses (← src.remainder)
    else
      let place ← src.remainder
      return some (place, ← src.connective place)

def beginsNothing : Scan Bool := do
  if ← src.isAtEnd then return true
  else if (← src.current) = some (byte ')') then return true
  else if ← src.isAt keywordAnd then return true
  else src.isAt keywordOr

def unbracketed : Scan Expr := do
  if ← src.beginsNothing then src.refuse .expectedCondition (← src.remainder)
  else return .condition (← src.condition)

def closing (place : List Char) (e : Expr) : Scan Expr := do
  src.skipBlanks
  if (← src.current) = some (byte ')') then
    src.advance 1
    return e
  else src.refuse .unbalancedParentheses place

mutual

def group (src : Source) (depth : Nat) : Scan Expr := do
  openGroup
  let e ← (src |>.term depth) >>= fun first => src |>.terms depth none [first]
  closeGroup
  return e
partial_fixpoint

def terms (src : Source) (depth : Nat) (logic : Option Logic) (es : List Expr) : Scan Expr := do
  nextRound
  match ← src.follow depth with
  | none => groupOf logic es
  | some (place, next) =>
    if logic.any (· ≠ next) then src.refuse .mixedLogic place
    else
      let e ← src |>.term depth
      src |>.terms depth (some next) (es ++ [e])
partial_fixpoint

def term (src : Source) (depth : Nat) : Scan Expr := do
  src.skipBlanks
  if (← src.current) = some (byte '(') then
    let place ← src.remainder
    if nestingLimit ≤ depth then src.refuse (.nestingTooDeep nestingLimit) place
    else
      src.advance 1
      src.closing place (← src |>.group (depth + 1))
  else src.unbracketed
partial_fixpoint

end

def parse : Scan Expr := src.group 0

end Source

end DocQuery.Query
