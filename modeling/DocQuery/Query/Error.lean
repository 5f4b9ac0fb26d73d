namespace DocQuery

namespace Query

inductive Part where
  | key
  | operator
  | is
  | isNot
  | not
  deriving DecidableEq

def Part.text : Part → String
  | key => "key"
  | operator => "operator"
  | is => "IS"
  | isNot => "IS NOT"
  | not => "NOT"

inductive Fault where
  | missingSpace (after : Part)
  | unsupportedOperator
  | unsupportedQualifier (after : Part)
  | malformedParameter
  | parameterOutOfRange (index available : Nat)
  | unterminatedString
  | malformedNumber
  | unbalancedParentheses
  | mixedLogic
  | missingLogic
  | expectedCondition
  | nestingTooDeep (limit : Nat)
  deriving DecidableEq

def Fault.text : Fault → String
  | missingSpace after => "Missing space after " ++ after.text
  | unsupportedOperator => "Unsupported operator"
  | unsupportedQualifier after => "Unsupported operator after " ++ after.text
  | malformedParameter => "Unsupported parameter number"
  | parameterOutOfRange index available =>
    "Missing parameter number " ++ toString index ++ " (" ++ toString available ++ " supplied)"
  | unterminatedString => "Unterminated string value"
  | malformedNumber => "Unsupported number value"
  | unbalancedParentheses => "Unbalanced brackets"
  | mixedLogic => "Brackets needed to mix AND and OR operators"
  | missingLogic => "Missing logical operator"
  | expectedCondition => "Expected a condition"
  | nestingTooDeep limit => "Brackets nested deeper than " ++ toString limit ++ " levels"

/-- A fault and the text left over where it was found. -/
structure Failure where
  fault : Fault
  rest : List Char
  deriving DecidableEq

structure Position where
  remainder : String
  query : String
  deriving DecidableEq

def Position.text (p : Position) : String :=
  "at '" ++ p.remainder ++ "', in '" ++ p.query ++ "'"

end Query

inductive KeyListFault where
  | tooShort
  | emptyKey
  deriving DecidableEq

def KeyListFault.text : KeyListFault → String
  | tooShort => "shorter than the two-character prefix"
  | emptyKey => "empty key"

inductive PatternFault where
  | tooLong
  | malformed (reason : String)
  deriving DecidableEq

def PatternFault.text : PatternFault → String
  | tooLong => "Pattern too long (max 1000 chars)"
  | malformed reason => reason

inductive QueryError where
  | located (fault : Query.Fault) (position : Query.Position)
  | insufficientValues (keys values : Nat)
  | malformedKeyList (input : String) (fault : KeyListFault)
  | invalidPattern (pattern : String) (fault : PatternFault)
  deriving DecidableEq

namespace QueryError

def message : QueryError → String
  | located fault position => fault.text ++ " " ++ position.text
  | insufficientValues keys values =>
    "Not enough values for the keys provided: " ++ toString keys ++ " keys, " ++
      toString values ++ " values"
  | malformedKeyList input fault => "Malformed key list '" ++ input ++ "': " ++ fault.text
  | invalidPattern pattern fault => "Invalid pattern '" ++ pattern ++ "': " ++ fault.text

def position? : QueryError → Option Query.Position
  | located _ position => some position
  | _ => none

end QueryError

def Query.Failure.within (query : List Char) (f : Query.Failure) : QueryError :=
  .located f.fault ⟨String.ofList f.rest, String.ofList query⟩

end DocQuery
