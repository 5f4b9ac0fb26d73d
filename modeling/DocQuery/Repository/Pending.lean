import DocQuery.Database.Basic
import DocQuery.Entity.Basic
import DocQuery.KeyList

namespace DocQuery

structure Pending (α : Type) where
  entity : EntityType α
  filter : Option Json
  options : FindOptions

namespace Pending

variable [Regex.Engine] {α : Type}

def orderBy (q : Pending α) (keys : String) : Except Error (Pending α) :=
  match KeyList.orderDocument keys with
  | .ok order => .ok { q with options := { q.options with sort := some order } }
  | .error e => .error (.query e)

def skip (q : Pending α) (n : Nat) : Pending α :=
  { q with options := { q.options with skip := n } }

def limit (q : Pending α) (n : Nat) : Pending α :=
  { q with options := { q.options with limit := some n } }

def findWith (q : Pending α) (options : FindOptions) : Action (List Json) :=
  Database.performUnchecked q.entity.collection (.find q.filter options)

def fetchDocuments (q : Pending α) : Action (List Json) := q.findWith q.options

def fetch (q : Pending α) : Action (List α) := do
  (← q.fetchDocuments).mapM fun d => q.entity.ofDocument d

/-- The first entity after the skipped ones, whatever the limit is. -/
def first (q : Pending α) : Action (Option α) := do
  match ← q.findWith { q.options with limit := some 1 } with
  | [] => return none
  | d :: _ => return some (← q.entity.ofDocument d)

def count (q : Pending α) : Action Nat :=
  Database.performUnchecked q.entity.collection (.count q.filter)

end Pending

end DocQuery
