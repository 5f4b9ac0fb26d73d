namespace DocQuery

abbrev Fields (α : Type) := List (String × α)

namespace Fields

variable {α : Type}

def keys (fs : Fields α) : List String := fs.map Prod.fst

def get? (key : String) : Fields α → Option α
  | [] => none
  | (k, v) :: fs => if k = key then some v else get? key fs

def insert (key : String) (value : α) : Fields α → Fields α
  | [] => [(key, value)]
  | (k, v) :: fs => if k = key then (k, value) :: fs else (k, v) :: insert key value fs

def ofList (fs : List (String × α)) : Fields α :=
  fs.foldl (fun fs f => insert f.1 f.2 fs) []

/-- Removes a key; the last field moves into the place that becomes free. -/
def swapErase (key : String) : Fields α → Fields α
  | [] => []
  | (k, v) :: fs =>
    if k = key then
      match fs.getLast? with
      | some last => last :: fs.dropLast
      | none => []
    else (k, v) :: swapErase key fs

end Fields

end DocQuery
