import DocQuery.Error

namespace DocQuery

structure EntityType (α : Type) where
  collection : String
  id? : α → Option String
  withId : String → α → α
  toJson : α → Json
  ofJson? : Json → Option α

namespace EntityType

variable {α : Type}

def toFields (t : EntityType α) (a : α) : Except Error (Fields Json) :=
  match t.toJson a with
  | .object fs => .ok fs
  | _ => .error (.invalidDocument (.entityNotAnObject t.collection))

def ofDocument (t : EntityType α) (document : Json) : Except Error α :=
  match t.ofJson? document with
  | some a => .ok a
  | none => .error .malformedJson

def json (collection : String) : EntityType Json where
  collection
  id? v := (v.get? "_id").bind Json.asString?
  withId id
    | .object fs => .object (Fields.insert "_id" (.string id) fs)
    | v => v
  toJson := id
  ofJson? := some

def hasSeparator : List Char → Bool
  | [] => false
  | ':' :: ':' :: _ => true
  | _ :: s => hasSeparator s

def lastSegment : List Char → List Char
  | [] => []
  | c :: s =>
    if hasSeparator s then lastSegment s
    else if hasSeparator (c :: s) then s.drop 1
    else c :: s

/-- The name of a type without the path in front of it; arguments keep their paths. -/
def shortName (full : String) : String :=
  let base := full.toList.takeWhile (· != '<')
  let arguments := full.toList.dropWhile (· != '<')
  String.ofList (lastSegment base ++ arguments)

end EntityType

end DocQuery
