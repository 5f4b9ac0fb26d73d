import DocQuery.Entity.Basic

namespace DocQuery

structure TestEntity where
  id : Option String
  bool : Option Bool
  int : Option Int
  str : Option String
  date : Option Int
  deriving DecidableEq

namespace TestEntity

def toJson (e : TestEntity) : Json :=
  .object ((e.id.map fun id => ("_id", Json.string id)).toList ++
    [("testBool", (e.bool.map Json.bool).getD .null),
     ("testInt", (e.int.map Json.int).getD .null),
     ("testStr", (e.str.map Json.string).getD .null),
     ("testDate", (e.date.map Json.int).getD .null)])

def field {α : Type} (read : Json → Option α) (key : String) (fs : Fields Json) :
    Option (Option α) :=
  match Fields.get? key fs with
  | none | some .null => some none
  | some v => (read v).map some

def asBool? : Json → Option Bool
  | .bool b => some b
  | _ => none

def asInt? : Json → Option Int
  | .number n => n.asInt64?
  | _ => none

def ofFields? (fs : Fields Json) : Option TestEntity := do
  let id ← field Json.asString? "_id" fs
  let bool ← field asBool? "testBool" fs
  let int ← field asInt? "testInt" fs
  let str ← field Json.asString? "testStr" fs
  let date ← field asInt? "testDate" fs
  return { id, bool, int, str, date }

def ofJson? : Json → Option TestEntity
  | .object fs => ofFields? fs
  | _ => none

def entityType : EntityType TestEntity where
  collection := "TestEntity"
  id? := TestEntity.id
  withId id e := { e with id := some id }
  toJson := toJson
  ofJson? := ofJson?

end TestEntity

end DocQuery
