import DocQuery.Database.Basic
import DocQuery.Json.Reader

namespace DocQuery.Database

variable [Regex.Engine]

def insertAll (name : String) : List Json → Action Nat
  | [] => return 0
  | d :: ds => do
    let _ ← performUnchecked name (withPreset (← get).preset (.insert d))
    return (← insertAll name ds) + 1

def loadFields : Fields Json → Action Nat
  | [] => return 0
  | (name, .array documents) :: fs => do
    collection name
    let n ← insertAll name documents
    return n + (← loadFields fs)
  | (name, _) :: _ => throw (.invalidDocument (.fixtureNotAnArray name))

def load (content : String) : Action Nat :=
  match Json.ofText? content with
  | some (.object fs) => loadFields fs
  | some _ => throw (.invalidDocument .fixturesNotAnObject)
  | none => throw .malformedJson

def loadFile : Option String → Action Nat
  | some content => load content
  | none => throw .unreadableFile

/-- Does what an action does up to where it fails. -/
def attempt (a : Action Unit) : Action Unit := tryCatch a fun _ => pure ()

def clearCollections (names : List String) : Action Unit :=
  names.forM fun name => attempt (perform name .drop)

def clear : Action Unit := attempt dropAll

end DocQuery.Database
