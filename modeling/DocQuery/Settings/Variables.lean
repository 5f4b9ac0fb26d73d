import DocQuery.Number.Decimal
import DocQuery.Settings.Basic

namespace DocQuery.Settings

abbrev Variables := String → Option String

def Variables.nonEmpty? (vars : Variables) (name : String) : Option String :=
  (vars name).filter (!·.isEmpty)

def portOfDigits? (digits : List Char) : Option UInt16 :=
  if !digits.isEmpty && digits.all isDigit && ofDigits digits < 2 ^ 16 then
    some (.ofNat (ofDigits digits))
  else none

def portOfText? (text : String) : Option UInt16 :=
  match text.toList with
  | '+' :: digits => portOfDigits? digits
  | digits => portOfDigits? digits

def portVariable : String := "FILTERQL_PORT"

def variableNames : List String :=
  ["FILTERQL_HOST", portVariable, "FILTERQL_DATABASE", "FILTERQL_USERNAME", "FILTERQL_PASSWORD",
    "FILTERQL_APPLICATION_NAME"]

def Layer.override (l : Layer) (vars : Variables) : Except Error Layer :=
  let strings : Layer :=
    { host := vars.nonEmpty? "FILTERQL_HOST" <|> l.host
      port := l.port
      database := vars.nonEmpty? "FILTERQL_DATABASE" <|> l.database
      username := vars.nonEmpty? "FILTERQL_USERNAME" <|> l.username
      password := vars.nonEmpty? "FILTERQL_PASSWORD" <|> l.password
      applicationName := vars.nonEmpty? "FILTERQL_APPLICATION_NAME" <|> l.applicationName }
  match vars.nonEmpty? portVariable with
  | none => .ok strings
  | some value =>
    match portOfText? value with
    | some port => .ok { strings with port := some port }
    | none => .error (.config (.invalidPort portVariable value))

def ofVariables (vars : Variables) : Except Error Settings := do
  resolve (← Layer.override {} vars)

def isBlank (c : Char) : Bool := c = ' ' || c = '\t'

def isNameChar (c : Char) : Bool := c.isAlphanum || c = '_' || c = '.'

inductive Quoting where
  | plain
  | single
  | double
  | ended

def lineValue? : Quoting → List Char → Option (List Char)
  | .plain, [] | .ended, [] => some []
  | .single, [] | .double, [] => none
  | .ended, c :: s =>
    if isBlank c then lineValue? .ended s else if c = '#' then some [] else none
  | .single, c :: s => if c = '\'' then lineValue? .plain s else (lineValue? .single s).map (c :: ·)
  | .plain, '\'' :: s => lineValue? .single s
  | .plain, '"' :: s => lineValue? .double s
  | .double, '"' :: s => lineValue? .plain s
  | q, '\\' :: c :: s =>
    if c = 'n' then (lineValue? q s).map ('\n' :: ·)
    else if c = '\\' || c = '\'' || c = '"' || c = '$' || c = ' ' then (lineValue? q s).map (c :: ·)
    else none
  | .plain, c :: s =>
    if isBlank c then lineValue? .ended s
    else if c = '\\' then none else (lineValue? .plain s).map (c :: ·)
  | .double, c :: s => if c = '\\' then none else (lineValue? .double s).map (c :: ·)

def lineName? (s : List Char) : Option (String × List Char) :=
  let name := s.takeWhile isNameChar
  match name, (s.drop name.length).dropWhile isBlank with
  | c :: _, '=' :: r =>
    if c.isAlpha || c = '_' then some (String.ofList name, r.dropWhile isBlank) else none
  | _, _ => none

def afterExport? : List Char → Option (List Char)
  | 'e' :: 'x' :: 'p' :: 'o' :: 'r' :: 't' :: c :: s =>
    if isBlank c then some (s.dropWhile isBlank) else none
  | _ => none

def lineVariable? (line : List Char) : Option (Option (String × String)) :=
  match line.dropWhile isBlank with
  | [] | '#' :: _ => some none
  | s => do
    let (name, value) ← lineName? s <|> (afterExport? s).bind lineName?
    if value.head? = some '#' then return some (name, "")
    let value ← lineValue? .plain value
    return some (name, String.ofList value)

def lineVariables : List (List Char) → List (String × String)
  | [] => []
  | line :: lines =>
    match lineVariable? line with
    | none => []
    | some none => lineVariables lines
    | some (some v) => v :: lineVariables lines

def linesOf : List Char → List (List Char)
  | [] => [[]]
  | '\n' :: s => [] :: linesOf s
  | '\r' :: '\n' :: s => [] :: linesOf s
  | c :: s =>
    match linesOf s with
    | [] => [[c]]
    | l :: ls => (c :: l) :: ls

def variablesOfText (text : String) : List (String × String) := lineVariables (linesOf text.toList)

def Variables.extend (vars : Variables) (file : Option String) : Variables := fun name =>
  vars name <|> (file.map variablesOfText).bind (List.lookup name)

end DocQuery.Settings
