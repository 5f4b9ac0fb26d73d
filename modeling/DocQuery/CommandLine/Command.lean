import DocQuery.CommandLine.Arguments
import DocQuery.Number.Decimal

namespace DocQuery.CommandLine

inductive Command where
  | translate (query : String) (params : List String)
  | order (keys : String)
  | run (data collection query : String) (params : List String) (order : Option String)
      (limit : Option Nat)
  | config (file : Option String)

def paramFlag : Flag := ⟨"param", some 'p'⟩

def count? (text : String) : Option Nat :=
  let digits := match text.toList with
    | '+' :: s => s
    | s => s
  if !digits.isEmpty && digits.all isDigit && ofDigits digits < 2 ^ 64 then some (ofDigits digits)
  else none

def path? (text : String) : Option String := if text.isEmpty then none else some text

namespace Command

def translate? (args : List String) : Option Command := do
  let a ← Arguments.read? [paramFlag] args
  match a.positionals with
  | [query] => return translate query (a.values "param")
  | _ => none

def order? (args : List String) : Option Command := do
  match (← Arguments.read? [] args).positionals with
  | [keys] => return order keys
  | _ => none

def run? (args : List String) : Option Command := do
  let a ← Arguments.read?
    [⟨"data", none⟩, ⟨"collection", some 'c'⟩, paramFlag, ⟨"order", none⟩, ⟨"limit", none⟩] args
  let data ← path? (← (← a.single? "data"))
  let collection ← (← a.single? "collection")
  let order ← a.single? "order"
  let limit ← (← a.single? "limit").mapM count?
  match a.positionals with
  | [query] => return run data collection query (a.values "param") order limit
  | _ => none

def config? (args : List String) : Option Command := do
  let a ← Arguments.read? [⟨"file", none⟩] args
  let file ← (← a.single? "file").mapM path?
  if a.positionals.isEmpty then return config file else none

def ofArguments? : List String → Option Command
  | "translate" :: args => translate? args
  | "order" :: args => order? args
  | "run" :: args => run? args
  | "config" :: args => config? args
  | _ => none

def variablesFile : String := ".env"

def files : Command → List String
  | run data .. => [data]
  | config file => variablesFile :: file.toList
  | _ => []

end Command

end DocQuery.CommandLine
