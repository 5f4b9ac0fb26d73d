import DocQuery.CommandLine.Command
import DocQuery.Regex.Reader
import DocQuery.Repository.Basic
import DocQuery.Settings.Toml

namespace DocQuery.CommandLine

structure Surroundings where
  environment : Settings.Variables
  files : String → Option String

def param (text : String) : Json := (Json.ofText? text).getD (.string text)

section

variable [Regex.Engine]

def select (data : Option String) (collection query : String) (params : List Json)
    (order : Option String) (limit : Option Nat) : Action (List Json) := do
  let _ ← Database.loadFile data
  let filter ← Repository.filterOf query params
  let sort ← order.mapM Repository.orderOf
  Database.perform collection (.find filter ⟨sort, 0, limit⟩)

def Command.output (w : Surroundings) : Command → Except Error String
  | translate query params =>
    match Filter.ofQuery query (params.map param) with
    | .ok filter => .ok (filter.pretty ++ "\n")
    | .error e => .error (.query e)
  | order keys =>
    match KeyList.orderDocument keys with
    | .ok document => .ok (document.pretty ++ "\n")
    | .error e => .error (.query e)
  | run data collection query params keys limit =>
    let found := select (w.files data) collection query (params.map param) keys limit
    (found.run.run .empty).1.map fun ds => (Json.array ds).pretty ++ "\n"
  | config file => do
    let environment := w.environment.extend (w.files variablesFile)
    let s ← match file with
      | none => Settings.ofVariables environment
      | some name => Settings.ofFile (w.files name) environment
    return s.toJson.pretty ++ "\n• " ++ s.redactedUri ++ "\n"

end

inductive Completion where
  | printed (text : String)
  | failed (e : Error)
  | misused

/-- Runs what the arguments ask for, with the engine of this library. -/
def complete (w : Surroundings) (args : List String) : Completion :=
  match Command.ofArguments? args with
  | none => .misused
  | some c =>
    match c.output w with
    | .ok text => .printed text
    | .error e => .failed e

namespace Completion

def code : Completion → Nat
  | printed _ => 0
  | failed _ => 1
  | misused => 2

def output : Completion → String
  | printed text => text
  | _ => ""

def message : Completion → String
  | failed e => "error: " ++ e.message
  | misused => "usage: translate | order | run | config"
  | printed _ => ""

end Completion

end DocQuery.CommandLine
