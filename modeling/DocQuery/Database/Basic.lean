import DocQuery.Store.Operation

namespace DocQuery

structure Database where
  store : Store
  issued : Nat
  -- an id for documents that are inserted without that key
  preset : Option Json
  -- dropping all collections asks for them one by one
  dropsByName : Bool

abbrev Action (α : Type) := ExceptT Error (StateM Database) α

namespace Database

variable [Regex.Engine] {α : Type}

def empty : Database := ⟨.empty, 0, none, false⟩

def issue (n : Nat) : Json := .string ("<id#" ++ toString n ++ ">")

def onStore (a : Store.Effect α) : Action α := fun db =>
  let (r, s) := a db.store
  (r, { db with store := s })

def performUnchecked (name : String) (op : Operation α) : Action α := do
  let a ← onStore (Store.perform name (issue ((← get).issued + 1)) op)
  modify fun db => { db with issued := db.issued + op.takesId.toNat }
  return a

def collection (name : String) : Action Unit :=
  if Store.accepts name then pure () else throw (.invalidDocument (.collectionName name))

def withPreset (preset : Option Json) : Operation α → Operation α
  | .insert (.object fs) =>
    match preset, Fields.get? Collection.idKey fs with
    | some id, none => .insert (.object (fs ++ [(Collection.idKey, id)]))
    | _, _ => .insert (.object fs)
  | op => op

def perform (name : String) (op : Operation α) : Action α := do
  collection name
  performUnchecked name (withPreset (← get).preset op)

def names : Action (List String) := return (← get).store.names

def dropAll : Action Unit := do
  if (← get).dropsByName then (← names).forM (perform · .drop)
  else onStore Store.Effect.clear

def ofDocuments (name : String) (documents : List Json) : Except Error Database :=
  match (documents.forM fun d => discard (performUnchecked name (.insert d))).run.run empty with
  | (.ok (), db) => .ok db
  | (.error e, _) => .error e

end Database

end DocQuery
