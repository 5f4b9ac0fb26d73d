import DocQuery.Error
import DocQuery.Json.Order
import DocQuery.Json.Path

namespace DocQuery

structure SortKey where
  field : String
  descending : Bool

namespace SortKey

def ofFields : List (String × Json) → Except Error (List SortKey)
  | [] => .ok []
  | (field, direction) :: fs =>
    match direction with
    | .number n =>
      if n.asInt64? = some 1 then (ofFields fs).map (⟨field, false⟩ :: ·)
      else if n.asInt64? = some (-1) then (ofFields fs).map (⟨field, true⟩ :: ·)
      else .error (.invalidDocument (.malformedDirection field direction))
    | _ => .error (.invalidDocument (.malformedDirection field direction))

def ofOrder (order : Json) : Except Error (List SortKey) :=
  match order with
  | .object (f :: fs) => ofFields (f :: fs)
  | _ => .error (.invalidDocument (.malformedOrder order))

end SortKey

def Json.rank : Json → Nat
  | null => 0
  | number _ => 1
  | string _ => 2
  | object _ => 3
  | array _ => 4
  | bool _ => 5

/-- The order of values of any kind; a missing value counts as null. -/
def sortOrder (a b : Option Json) : Ordering :=
  let a := a.getD .null
  let b := b.getD .null
  (compare a.rank b.rank).then ((a.order? b).getD .eq)

def SortKey.compare (k : SortKey) (a b : Json) : Ordering :=
  let o := sortOrder (a.at? k.field) (b.at? k.field)
  if k.descending then o.swap else o

def compareDocuments : List SortKey → Json → Json → Ordering
  | [], _, _ => .eq
  | k :: ks, a, b => (k.compare a b).then (compareDocuments ks a b)

def sortDocuments (ks : List SortKey) (documents : List Json) : List Json :=
  documents.mergeSort fun a b => compareDocuments ks a b != .gt

end DocQuery
