import DocQuery.Json.Fields
import DocQuery.Number.Shortest

namespace DocQuery

inductive Number where
  | int (value : Int)
  | float (value : Binary64)
  deriving DecidableEq

namespace Number

def toBinary64 : Number → Binary64
  | int i => .ofInt i
  | float x => x

/-- Sameness of numbers: an integer is never the same as a floating-point number. -/
def same : Number → Number → Bool
  | int i, int j => i = j
  | float x, float y => x.scaled = y.scaled
  | _, _ => false

def asInt64? : Number → Option Int
  | int i => if -2 ^ 63 ≤ i ∧ i < 2 ^ 63 then some i else none
  | float _ => none

def text : Number → String
  | int i => toString i
  | float x => x.text

end Number

inductive Json where
  | null
  | bool (value : Bool)
  | number (value : Number)
  | string (value : String)
  | array (items : List Json)
  | object (fields : List (String × Json))
  deriving Inhabited

namespace Json

def int (i : Int) : Json := number (.int i)

def isNull : Json → Bool
  | null => true
  | _ => false

def isArray : Json → Bool
  | array _ => true
  | _ => false

def asString? : Json → Option String
  | string s => some s
  | _ => none

def get? (key : String) : Json → Option Json
  | object fs => Fields.get? key fs
  | _ => none

mutual

def same : Json → Json → Bool
  | null, null => true
  | bool a, bool b => a = b
  | number a, number b => a.same b
  | string a, string b => a = b
  | array xs, array ys => sameItems xs ys
  | object es, object fs => es.length = fs.length && sameFields es fs
  | _, _ => false

def sameItems : List Json → List Json → Bool
  | [], [] => true
  | x :: xs, y :: ys => same x y && sameItems xs ys
  | _, _ => false

def sameFields : List (String × Json) → List (String × Json) → Bool
  | [], _ => true
  | (k, v) :: es, fs => (Fields.get? k fs).any (same v) && sameFields es fs

end

mutual

/-- No object inside has the same key twice. -/
def WellFormed : Json → Prop
  | array items => WellFormedItems items
  | object fields => (Fields.keys fields).Nodup ∧ WellFormedFields fields
  | _ => True

def WellFormedItems : List Json → Prop
  | [] => True
  | x :: xs => WellFormed x ∧ WellFormedItems xs

def WellFormedFields : List (String × Json) → Prop
  | [] => True
  | (_, v) :: fs => WellFormed v ∧ WellFormedFields fs

end

end Json

end DocQuery
