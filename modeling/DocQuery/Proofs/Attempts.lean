import DocQuery.Connection

/-! What becomes of a connection over a sequence of calls.  Each attempt to connect turns out in a
way that only its number tells, and the number of attempts so far tells all about a connection: it
is as the last attempt left it.  So a call that fails leaves no connection of an earlier attempt. -/

namespace DocQuery.Connection

variable {σ : Type}

inductive Call where
  | obtain
  | reset
  deriving DecidableEq

def Call.answer : Call → Connected σ → Option (Connected σ)
  | .obtain, connected => some connected
  | .reset, _ => none

def perform (c : Connection σ) : Call → Except Error (Option (Connected σ)) × Connection σ
  | .obtain => (c.obtain.1.map some, c.obtain.2)
  | .reset => (c.reset.1.map fun _ => none, c.reset.2)

def after (c : Connection σ) (calls : List Call) : Connection σ :=
  calls.foldl (fun c call => (c.perform call).2) c

def attempts (c : Connection σ) : List Call → Nat
  | [] => 0
  | call :: calls =>
    (if call = .reset ∨ ¬ c.isConnected then 1 else 0) + attempts (c.perform call).2 calls

def loaded (load : Nat → Except Error Settings) (n : Nat) : Nat :=
  (List.range n).countP fun i => (load i).isOk

section

variable (load : Nat → Except Error Settings) (openWith : Nat → Settings → Except Error σ)

/-- How an attempt turns out that comes after `n` others.  A store is opened only with settings
that were loaded for it. -/
def outcome (n : Nat) : Except Error (Connected σ) := do
  let settings ← load n
  let accessor ← openWith (loaded load n) settings
  return ⟨settings, accessor, loaded load n⟩

def last? : Nat → Option (Except Error (Connected σ))
  | 0 => none
  | n + 1 => some (outcome load openWith n)

def attempted (n : Nat) : Connection σ :=
  ⟨load, openWith, n, loaded load n, (last? load openWith n).bind Except.toOption⟩

theorem loaded_succ (n : Nat) : loaded load (n + 1) = loaded load n + (load n).isOk.toNat := by
  rw [loaded, List.range_succ, List.countP_append, loaded]
  cases h : load n <;> simp [h, Except.isOk, Except.toBool]

theorem connect_attempted (n : Nat) :
    (attempted load openWith n).connect =
      (outcome load openWith n, attempted load openWith (n + 1)) := by
  simp only [connect, attempted, last?, outcome, loaded_succ, Option.bind_some]
  cases load n with
  | error e => rfl
  | ok settings =>
    simp only [bind, Except.bind]
    cases openWith (loaded load n) settings <;> rfl

theorem current_attempted {n : Nat} {connected : Connected σ} :
    (attempted load openWith n).current = some connected ↔
      last? load openWith n = some (.ok connected) := by
  rw [attempted, Option.bind_eq_some_iff]
  constructor
  · rintro ⟨_ | opened, hlast, hopened⟩
    · contradiction
    · rw [hlast, ← Option.some.inj hopened]
  · intro h
    exact ⟨_, h, rfl⟩

theorem isConnected_attempted (n : Nat) :
    (attempted load openWith n).isConnected ↔
      ∃ connected, last? load openWith n = some (.ok connected) := by
  rw [isConnected, Option.isSome_iff_exists]
  exact exists_congr fun connected => current_attempted load openWith

theorem settings?_attempted {n : Nat} {connected : Connected σ}
    (h : last? load openWith n = some (.ok connected)) :
    (attempted load openWith n).settings? = some connected.settings := by
  rw [settings?, (current_attempted load openWith).2 h, Option.map_some]

theorem current_of_error {n : Nat} {e : Error} (h : outcome load openWith n = .error e) :
    (attempted load openWith (n + 1)).current = none := by
  rw [attempted, last?, h]
  rfl

theorem outcome_of_answer {n : Nat} {call : Call} {e : Error}
    (h : (outcome load openWith n).map call.answer = .error e) :
    outcome load openWith n = .error e := by
  cases hn : outcome load openWith n with
  | error e' => simpa [hn, Except.map] using h
  | ok connected => simp [hn, Except.map] at h

theorem perform_cases (n : Nat) (call : Call) :
    ((call = .reset ∨ ¬ (attempted load openWith n).isConnected) ∧
      (attempted load openWith n).perform call =
        ((outcome load openWith n).map call.answer, attempted load openWith (n + 1))) ∨
    ∃ connected, ¬ (call = .reset ∨ ¬ (attempted load openWith n).isConnected) ∧
      last? load openWith n = some (.ok connected) ∧
      (attempted load openWith n).perform call =
        (.ok (some connected), attempted load openWith n) := by
  cases call with
  | reset =>
    refine .inl ⟨.inl rfl, ?_⟩
    simp only [perform, reset, connect_attempted]
    cases outcome load openWith n <;> rfl
  | obtain =>
    cases hcurrent : (attempted load openWith n).current with
    | none =>
      refine .inl ⟨.inr (by simp [isConnected, hcurrent]), ?_⟩
      simp only [perform, obtain, hcurrent, connect_attempted]
      rfl
    | some connected =>
      refine .inr ⟨connected, by simp [isConnected, hcurrent], ?_, ?_⟩
      · exact (current_attempted load openWith).1 hcurrent
      · simp only [perform, obtain, hcurrent]
        rfl

theorem after_attempted (calls : List Call) : ∀ n, (attempted load openWith n).after calls =
    attempted load openWith (n + (attempted load openWith n).attempts calls) := by
  induction calls with
  | nil => exact fun n => rfl
  | cons call calls ih =>
    intro n
    rw [after, List.foldl_cons, attempts]
    obtain ⟨hneeds, h⟩ | ⟨connected, hneeds, -, h⟩ := perform_cases load openWith n call
    · rw [h, if_pos hneeds, ← Nat.add_assoc]
      exact ih (n + 1)
    · rw [h, if_neg hneeds, Nat.zero_add]
      exact ih n

theorem after_new (calls : List Call) : (new load openWith).after calls =
    attempted load openWith ((new load openWith).attempts calls) := by
  have h := after_attempted load openWith calls 0
  rwa [Nat.zero_add] at h

/-- After any calls, a connection is open exactly if the last attempt succeeded, and it is then the
one of that attempt.  An attempt is made by every further call that opens it anew or finds none.
It loads settings, and opens a store only with these.  A call fails only with the failure of its
own attempt, and leaves no connection. -/
theorem perform_after (calls : List Call) (call : Call) :
    let c := (new load openWith).after calls
    let n := (new load openWith).attempts calls
    let answer := (c.perform call).1
    let d := (c.perform call).2
    c.loads = n ∧ c.opens = loaded load n ∧
    (c.isConnected ↔ ∃ connected, last? load openWith n = some (.ok connected)) ∧
    (∀ connected, last? load openWith n = some (.ok connected) →
      c.settings? = some connected.settings ∧
      (call = .obtain → answer = .ok (some connected) ∧ d = c)) ∧
    (call = .reset ∨ ¬ c.isConnected →
      answer = (outcome load openWith n).map call.answer ∧
      d.loads = c.loads + 1 ∧ d.opens = c.opens + (load n).isOk.toNat) ∧
    ∀ e, answer = .error e →
      (call = .reset ∨ ¬ c.isConnected) ∧ outcome load openWith n = .error e ∧
      ¬ d.isConnected ∧ d.settings? = none := by
  rw [after_new]
  generalize (new load openWith).attempts calls = n
  have hopen := isConnected_attempted load openWith n
  dsimp only
  obtain ⟨hneeds, h⟩ | ⟨connected, hneeds, hlast, h⟩ := perform_cases load openWith n call
  · rw [h]
    refine ⟨rfl, rfl, hopen, ?_, fun _ => ⟨rfl, rfl, loaded_succ load n⟩, ?_⟩
    · intro connected hlast
      refine ⟨settings?_attempted load openWith hlast, ?_⟩
      rintro rfl
      exact absurd (hopen.2 ⟨connected, hlast⟩) (hneeds.resolve_left nofun)
    · intro e he
      have hattempt := outcome_of_answer load openWith he
      have hnone := current_of_error load openWith hattempt
      exact ⟨hneeds, hattempt, by simp [isConnected, hnone], by simp [settings?, hnone]⟩
  · rw [h]
    refine ⟨rfl, rfl, hopen, ?_, fun h => absurd h hneeds, nofun⟩
    intro other hother
    obtain rfl : connected = other := by simpa [hlast] using hother
    exact ⟨settings?_attempted load openWith hlast, fun _ => ⟨rfl, rfl⟩⟩

end

example :
    let openWith := fun n _ => if n = 1 then .error (.connection "refused") else .ok n
    let c := (new (fun _ => .ok (Settings.ofLayer {})) openWith).after [.obtain, .reset]
    c.isConnected = false ∧ ((c.perform .obtain).2.current.map (·.accessor)) = some 2 := by
  decide

end DocQuery.Connection
