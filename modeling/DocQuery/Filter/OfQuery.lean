import DocQuery.Filter.OfExpr
import DocQuery.KeyList
import DocQuery.Query.Grammar

namespace DocQuery.Filter

/-- The filter of a query: a key list asks for equality with the parameters in
their order, everything else is read as an expression. -/
def ofQuery (query : String) (params : List Json) : Except QueryError Json :=
  if KeyList.isShorthand query then KeyList.equalityDocument query params
  else (Query.parse query params).map ofExpr

end DocQuery.Filter
