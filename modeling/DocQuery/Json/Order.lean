import DocQuery.Json.Basic

namespace DocQuery.Json

mutual

def equal : Json → Json → Bool
  | number a, number b => a.toBinary64.scaled = b.toBinary64.scaled
  | array xs, array ys => equalItems xs ys
  | a, b => a.same b

def equalItems : List Json → List Json → Bool
  | [], [] => true
  | x :: xs, y :: ys => equal x y && equalItems xs ys
  | _, _ => false

end

def order? : Json → Json → Option Ordering
  | bool a, bool b => some (compare a b)
  | number a, number b => some (a.toBinary64.order b.toBinary64)
  | string a, string b => some (compare a b)
  | _, _ => none

end DocQuery.Json
