import DocQuery.Database.Load
import DocQuery.Filter.OfQuery
import DocQuery.Repository.Pending

namespace DocQuery.Repository

variable [Regex.Engine] {α : Type}

def filterOf (query : String) (params : List Json) : Action Json :=
  ((Filter.ofQuery query params).mapError Error.query : Except Error Json)

def orderOf (keys : String) : Action Json :=
  ((KeyList.orderDocument keys).mapError Error.query : Except Error Json)

def idFilter (id : String) : Json := .object [(Collection.idKey, .string id)]

def count (t : EntityType α) : Action Nat := Database.perform t.collection (.count none)

def countMatching (t : EntityType α) (query : String) (params : List Json) : Action Nat := do
  let filter ← filterOf query params
  Database.perform t.collection (.count (some filter))

def findByFilter (t : EntityType α) (filter : Option Json) : Action (Pending α) := do
  Database.collection t.collection
  return ⟨t, filter, {}⟩

def find (t : EntityType α) (query : String) (params : List Json) : Action (Pending α) := do
  findByFilter t (← filterOf query params)

def findAll (t : EntityType α) : Action (Pending α) := findByFilter t none

def findById (t : EntityType α) (id : String) : Action (Option α) := do
  match ← Database.perform t.collection (.findOne (idFilter id)) with
  | none => return none
  | some d => return some (← t.ofDocument d)

/-- Saves an entity.  One without id is inserted and gets the id of its document; one
with an id replaces the document of that id. -/
def save (t : EntityType α) (a : α) : Action α := do
  let document := Json.object (Fields.swapErase Collection.idKey (← t.toFields a))
  match t.id? a with
  | none =>
    match ← Database.perform t.collection (.insert document) with
    | .string id => return t.withId id a
    | id => throw (.invalidDocument (.idNotAString id))
  | some id =>
    match ← Database.perform t.collection (.update (idFilter id) document) with
    | 0 => throw (.documentNotFound id)
    | _ => return a

def delete (t : EntityType α) (a : α) : Action Unit := do
  match t.id? a with
  | none => throw (.invalidDocument (.unsavedEntity t.collection))
  | some id => discard (Database.perform t.collection (.remove (idFilter id)))

/-- Removes what a query selects, and tells how much it selected. -/
def deleteMatching (t : EntityType α) (query : String) (params : List Json) : Action Nat := do
  let filter ← filterOf query params
  let n ← Database.perform t.collection (.count (some filter))
  let _ ← Database.perform t.collection (.remove filter)
  return n

def deleteAll (t : EntityType α) : Action Nat := do
  let n ← Database.perform t.collection (.count none)
  Database.perform t.collection .drop
  return n

def clear (t : EntityType α) : Action Unit := Database.clearCollections [t.collection]

def createIndex (t : EntityType α) (keys : String) : Action String := do
  let order ← orderOf keys
  Database.perform t.collection (.createIndex order)

def dropIndex (t : EntityType α) (keys : String) : Action Unit := do
  let order ← orderOf keys
  Database.perform t.collection (.dropIndex order)

def dropIndexes (t : EntityType α) : Action Unit := Database.perform t.collection .dropIndexes

def indexNames (t : EntityType α) : Action (List String) :=
  Database.perform t.collection .indexNames

end DocQuery.Repository
