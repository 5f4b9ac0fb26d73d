import DocQuery.Filter.Wildcard
import DocQuery.Query.Expr

namespace DocQuery.Filter

open Query (Logic Relation Predicate Condition Expr)

def isOperatorName (key : String) : Bool := key.toList.head? = some '$'

def logicKey : Logic → String
  | .and => "$and"
  | .or => "$or"

def relationKey : Relation → String
  | .gt => "$gt"
  | .gte => "$gte"
  | .lt => "$lt"
  | .lte => "$lte"

def single (key : String) (v : Json) : Json := .object [(key, v)]

/-- A value as a clause.  An object that might be taken for operators is put under an explicit equality. -/
def equalityClause (v : Json) : Json :=
  match v with
  | .object fs => if fs.any fun f => isOperatorName f.1 then single "$eq" v else v
  | v => v

def clause : Predicate → Json
  | .eq v => equalityClause v
  | .ne v => single "$ne" v
  | .compare r v => single (relationKey r) v
  | .like p => single "$regex" (.string (regexOfWildcard p))
  | .notLike p => single "$not" (single "$regex" (.string (regexOfWildcard p)))
  | .isIn vs => single "$in" (.array vs)
  | .notIn vs => single "$nin" (.array vs)
  | .isNull => .null
  | .isNotNull => single "$ne" .null

def ofCondition (c : Condition) : Json := single c.field (clause c.predicate)

mutual

def ofExpr : Expr → Json
  | .condition c => ofCondition c
  | .group l es => single (logicKey l) (.array (ofExprs es))

def ofExprs : List Expr → List Json
  | [] => []
  | e :: es => ofExpr e :: ofExprs es

end

end DocQuery.Filter
