import DocQuery.Store.Basic

namespace DocQuery

inductive Operation : Type → Type where
  | insert (document : Json) : Operation Json
  | count (filter : Option Json) : Operation Nat
  | find (filter : Option Json) (options : FindOptions) : Operation (List Json)
  | findOne (filter : Option Json) : Operation (Option Json)
  | update (filter document : Json) : Operation Nat
  | remove (filter : Json) : Operation Nat
  | drop : Operation Unit
  | createIndex (keys : Json) : Operation String
  | dropIndex (keys : Json) : Operation Unit
  | dropIndexes : Operation Unit
  | indexNames : Operation (List String)

def Operation.takesId {α : Type} : Operation α → Bool
  | insert (.object fs) => Collection.lacksId fs
  | _ => false

namespace Store

/-- What is done to a store.  A failing effect keeps what it changed before it failed. -/
abbrev Effect (α : Type) := ExceptT Error (StateM Store) α

namespace Effect

variable [Regex.Engine] {α : Type}

def put (name : String) (c : Collection) : Effect Unit := modify (·.set name c)

def entry (name : String) : Effect Collection := do
  match (← get).get? name with
  | some c => return c
  | none =>
    put name .empty
    return .empty

def read (name : String) (f : Collection → Except Error α) : Effect α := do
  f ((← get).getD name)

def insert (name : String) (fresh document : Json) : Effect Json := do
  let .object fs := document | throw (.invalidDocument .notAnObject)
  let c ← entry name
  let (id, c) ← c.insert name fresh (.object fs)
  put name c
  return id

def replaceFrom (name : String) (c : Collection) (filter : Json) (fs : Fields Json) :
    Nat → List Json → Effect Nat
  | _, [] => return 0
  | i, d :: ds => do
    if ← ((Filter.holds d filter).mapError .query : Except Error Bool) then
      put name { c with documents := c.documents.set i (Collection.replacement d fs) }
      return 1
    else replaceFrom name c filter fs (i + 1) ds

def update (name : String) (filter document : Json) : Effect Nat := do
  let .object fs := document | throw (.invalidDocument .notAnObject)
  let some c := (← get).get? name | return 0
  replaceFrom name c filter fs 0 c.documents

def remove (name : String) (filter : Json) : Effect Nat := do
  let some c := (← get).get? name | return 0
  let (n, c) ← c.remove filter
  put name c
  return n

def drop (name : String) : Effect Unit := modify (·.erase name)

def clear : Effect Unit := modify fun _ => .empty

def createIndex (name : String) (keys : Json) : Effect String := do
  let _ ← SortKey.ofOrder keys
  let c ← entry name
  put name (c.createIndex keys)
  return Index.nameOf keys

def dropIndex (name : String) (keys : Json) : Effect Unit := do
  let some c := (← get).get? name | throw (.indexNotFound (Index.nameOf keys))
  let c ← c.dropIndex keys
  put name c

def dropIndexes (name : String) : Effect Unit := do
  let some c := (← get).get? name | return
  put name c.dropIndexes

def indexNames (name : String) : Effect (List String) := do
  let some c := (← get).get? name | return []
  return c.indexNames

end Effect

/-- Performs an operation on the collection of a name; `fresh` is the id of an inserted
document that has none. -/
def perform [Regex.Engine] {α : Type} (name : String) (fresh : Json) : Operation α → Effect α
  | .insert document => Effect.insert name fresh document
  | .count filter => Effect.read name (·.count filter)
  | .find filter options => Effect.read name (·.find filter options)
  | .findOne filter => Effect.read name (·.findOne filter)
  | .update filter document => Effect.update name filter document
  | .remove filter => Effect.remove name filter
  | .drop => Effect.drop name
  | .createIndex keys => Effect.createIndex name keys
  | .dropIndex keys => Effect.dropIndex name keys
  | .dropIndexes => Effect.dropIndexes name
  | .indexNames => Effect.indexNames name

end Store

end DocQuery
