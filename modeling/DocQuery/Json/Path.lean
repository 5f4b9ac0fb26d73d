import DocQuery.Json.Basic

namespace DocQuery.Json

def segments : List Char → List (List Char)
  | [] => [[]]
  | c :: s =>
    if c = '.' then [] :: segments s
    else
      match segments s with
      | [] => [[c]]
      | p :: ps => (c :: p) :: ps

def descend : List String → Json → Option Json
  | [], v => some v
  | k :: ks, v => (v.get? k).bind (descend ks)

def at? (document : Json) (path : String) : Option Json :=
  document.descend ((segments path.toList).map String.ofList)

end DocQuery.Json
