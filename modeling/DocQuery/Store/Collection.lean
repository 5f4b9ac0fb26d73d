import DocQuery.Filter.Match
import DocQuery.Store.Sort

namespace DocQuery

structure Index where
  name : String
  keys : Json

def Index.nameOf : Json → String
  | .object fs => "_".intercalate (fs.map fun f => f.1 ++ "_" ++ f.2.text)
  | v => v.text

structure Collection where
  documents : List Json
  indexes : List Index

structure FindOptions where
  sort : Option Json := none
  skip : Nat := 0
  limit : Option Nat := none

namespace Collection

def empty : Collection := ⟨[], []⟩

def idKey : String := "_id"

variable [Regex.Engine]

def selects (filter : Option Json) (document : Json) : Except QueryError Bool :=
  match filter with
  | none => .ok true
  | some f => Filter.holds document f

def selectFrom (filter : Option Json) : List Json → Except QueryError (List Json)
  | [] => .ok []
  | d :: ds =>
    match selects filter d with
    | .error e => .error e
    | .ok b => (selectFrom filter ds).map fun rest => if b then d :: rest else rest

def select (c : Collection) (filter : Option Json) : Except Error (List Json) :=
  (selectFrom filter c.documents).mapError .query

def count (c : Collection) (filter : Option Json) : Except Error Nat :=
  (c.select filter).map List.length

def window (skip : Nat) (limit : Option Nat) (documents : List Json) : List Json :=
  match limit with
  | none => documents.drop skip
  | some n => (documents.drop skip).take n

def find (c : Collection) (filter : Option Json) (options : FindOptions) :
    Except Error (List Json) := do
  let selected ← c.select filter
  let ordered ← match options.sort with
    | none => pure selected
    | some order => (SortKey.ofOrder order).map (sortDocuments · selected)
  return window options.skip options.limit ordered

def findOne (c : Collection) (filter : Option Json) : Except Error (Option Json) :=
  (c.find filter ⟨none, 0, some 1⟩).map List.head?

def lacksId (fs : Fields Json) : Bool := ((Fields.get? idKey fs).getD .null).isNull

def withId (fresh : Json) (fs : Fields Json) : Json × Fields Json :=
  if lacksId fs then (fresh, Fields.insert idKey fresh fs)
  else ((Fields.get? idKey fs).getD .null, fs)

def hasId (c : Collection) (id : Json) : Bool :=
  c.documents.any fun d => (d.get? idKey).any (·.same id)

def insert (c : Collection) (name : String) (fresh document : Json) :
    Except Error (Json × Collection) :=
  match document with
  | .object fs =>
    let (id, fs) := withId fresh fs
    if c.hasId id then .error (.invalidDocument (.duplicateId id name))
    else .ok (id, { c with documents := c.documents ++ [.object fs] })
  | _ => .error (.invalidDocument .notAnObject)

def replacement (old : Json) (fs : Fields Json) : Json :=
  .object ((idKey, (old.get? idKey).getD .null) :: fs.filter (·.1 != idKey))

def replaceFirst (filter : Json) (fs : Fields Json) :
    List Json → Except QueryError (Bool × List Json)
  | [] => .ok (false, [])
  | d :: ds =>
    match Filter.holds d filter with
    | .error e => .error e
    | .ok true => .ok (true, replacement d fs :: ds)
    | .ok false => (replaceFirst filter fs ds).map fun r => (r.1, d :: r.2)

def rejectFrom (filter : Json) : List Json → Except QueryError (List Json)
  | [] => .ok []
  | d :: ds =>
    match Filter.holds d filter with
    | .error e => .error e
    | .ok b => (rejectFrom filter ds).map fun rest => if b then rest else d :: rest

def update (c : Collection) (filter : Json) (fs : Fields Json) : Except Error (Nat × Collection) :=
  match replaceFirst filter fs c.documents with
  | .error e => .error (.query e)
  | .ok (found, documents) => .ok (found.toNat, { c with documents })

def remove (c : Collection) (filter : Json) : Except Error (Nat × Collection) :=
  match rejectFrom filter c.documents with
  | .error e => .error (.query e)
  | .ok rest => .ok (c.documents.length - rest.length, { c with documents := rest })

def hasIndex (c : Collection) (name : String) : Bool := c.indexes.any (·.name = name)

def createIndex (c : Collection) (keys : Json) : Collection :=
  let name := Index.nameOf keys
  if c.hasIndex name then c else { c with indexes := c.indexes ++ [⟨name, keys⟩] }

def dropIndex (c : Collection) (keys : Json) : Except Error Collection :=
  let name := Index.nameOf keys
  if c.hasIndex name then .ok { c with indexes := c.indexes.eraseP (·.name = name) }
  else .error (.indexNotFound name)

def dropIndexes (c : Collection) : Collection := { c with indexes := [] }

def idIndex : String := "_id_"

def indexNames (c : Collection) : List String := idIndex :: c.indexes.map Index.name

end Collection

end DocQuery
