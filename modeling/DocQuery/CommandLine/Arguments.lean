namespace DocQuery.CommandLine

structure Flag where
  name : String
  letter : Option Char := none

structure Arguments where
  options : List (String × String)
  positionals : List String

inductive Argument where
  | positional
  | option (name : String) (value : Option String)
  | unknown

def classify (flags : List Flag) (argument : String) : Argument :=
  match argument.toList with
  | '-' :: '-' :: s =>
    let name := String.ofList (s.takeWhile (· != '='))
    match flags.find? (·.name = name), s.dropWhile (· != '=') with
    | some f, _ :: value => .option f.name (some (String.ofList value))
    | some f, [] => .option f.name none
    | none, _ => .unknown
  | '-' :: c :: s =>
    match flags.find? (·.letter = some c), s with
    | some f, [] => .option f.name none
    | some f, '=' :: value => .option f.name (some (String.ofList value))
    | some f, value => .option f.name (some (String.ofList value))
    | none, _ => .unknown
  | _ => .positional

def isDashed (argument : String) : Bool :=
  match argument.toList with
  | '-' :: _ :: _ => true
  | _ => false

namespace Arguments

def withPositional (argument : String) (a : Arguments) : Arguments :=
  { a with positionals := argument :: a.positionals }

def withOption (name value : String) (a : Arguments) : Arguments :=
  { a with options := (name, value) :: a.options }

def read? (flags : List Flag) : List String → Option Arguments
  | [] => some ⟨[], []⟩
  | argument :: rest =>
    if argument = "--" then some ⟨[], rest⟩
    else
      match classify flags argument with
      | .positional => (read? flags rest).map (withPositional argument)
      | .option name (some value) => (read? flags rest).map (withOption name value)
      | .option name none =>
        match rest with
        | [] => none
        | value :: rest =>
          if isDashed value then none else (read? flags rest).map (withOption name value)
      | .unknown => none

def values (a : Arguments) (name : String) : List String :=
  (a.options.filter (·.1 = name)).map Prod.snd

def single? (a : Arguments) (name : String) : Option (Option String) :=
  match a.values name with
  | [] => some none
  | [v] => some (some v)
  | _ => none

end Arguments

end DocQuery.CommandLine
