import DocQuery.Json.Basic

namespace DocQuery.Query

inductive Logic where
  | and
  | or
  deriving DecidableEq

inductive Relation where
  | gt
  | gte
  | lt
  | lte
  deriving DecidableEq

inductive Predicate where
  | eq (value : Json)
  | ne (value : Json)
  | compare (relation : Relation) (bound : Json)
  | like (pattern : String)
  | notLike (pattern : String)
  | isIn (values : List Json)
  | notIn (values : List Json)
  | isNull
  | isNotNull

structure Condition where
  field : String
  predicate : Predicate

inductive Expr where
  | condition (c : Condition)
  | group (logic : Logic) (members : List Expr)

mutual

def Expr.size : Expr → Nat
  | .condition _ => 1
  | .group _ es => Expr.sizeAll es

def Expr.sizeAll : List Expr → Nat
  | [] => 0
  | e :: es => e.size + Expr.sizeAll es

end

inductive Operator where
  | eq
  | ne
  | compare (relation : Relation)
  | like
  | notLike
  | isIn
  | notIn
  | isNull
  | isNotNull
  deriving DecidableEq

namespace Operator

def takesValue : Operator → Bool
  | isNull => false
  | isNotNull => false
  | _ => true

def bind? : Operator → Json → Option Predicate
  | eq, v => some (.eq v)
  | ne, v => some (.ne v)
  | compare r, v => some (.compare r v)
  | like, .string p => some (.like p)
  | notLike, .string p => some (.notLike p)
  | isIn, .array vs => some (.isIn vs)
  | notIn, .array vs => some (.notIn vs)
  | isNull, _ => some .isNull
  | isNotNull, _ => some .isNotNull
  | _, _ => none

end Operator

def Predicate.operator : Predicate → Operator × Option Json
  | eq v => (.eq, some v)
  | ne v => (.ne, some v)
  | compare r v => (.compare r, some v)
  | like p => (.like, some (.string p))
  | notLike p => (.notLike, some (.string p))
  | isIn vs => (.isIn, some (.array vs))
  | notIn vs => (.notIn, some (.array vs))
  | isNull => (.isNull, none)
  | isNotNull => (.isNotNull, none)

end DocQuery.Query
