import DocQuery.Settings.Basic

/-! Connections that are opened when they are first needed, and can be opened anew.
Settings are loaded, and with them a store is opened; either may fail, and how it turns
out may depend on how often it was tried. -/

namespace DocQuery

/-- An open connection.  No two of one handle have the same serial number. -/
structure Connected (σ : Type) where
  settings : Settings
  accessor : σ
  serial : Nat

structure Connection (σ : Type) where
  load : Nat → Except Error Settings
  openWith : Nat → Settings → Except Error σ
  loads : Nat
  opens : Nat
  current : Option (Connected σ)

namespace Connection

variable {σ α : Type}

def new (load : Nat → Except Error Settings) (openWith : Nat → Settings → Except Error σ) :
    Connection σ :=
  ⟨load, openWith, 0, 0, none⟩

def isConnected (c : Connection σ) : Bool := c.current.isSome

def settings? (c : Connection σ) : Option Settings := c.current.map Connected.settings

def connect (c : Connection σ) : Except Error (Connected σ) × Connection σ :=
  match c.load c.loads with
  | .error e => (.error e, { c with loads := c.loads + 1, current := none })
  | .ok settings =>
    match c.openWith c.opens settings with
    | .error e =>
      (.error e, { c with loads := c.loads + 1, opens := c.opens + 1, current := none })
    | .ok accessor =>
      let connected := ⟨settings, accessor, c.opens⟩
      (.ok connected,
        { c with loads := c.loads + 1, opens := c.opens + 1, current := some connected })

def obtain (c : Connection σ) : Except Error (Connected σ) × Connection σ :=
  match c.current with
  | some connected => (.ok connected, c)
  | none => c.connect

def reset (c : Connection σ) : Except Error Unit × Connection σ :=
  let (r, c) := c.connect
  (r.map fun _ => (), c)

def run (c : Connection σ) (action : ExceptT Error (StateM σ) α) :
    Except Error α × Connection σ :=
  match c.obtain with
  | (.error e, c) => (.error e, c)
  | (.ok connected, c) =>
    let (r, accessor) := action.run.run connected.accessor
    (r, { c with current := some { connected with accessor } })

end Connection

end DocQuery
