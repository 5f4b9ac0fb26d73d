import DocQuery.Proofs.Soundness
import DocQuery.Regex.Reader
import Mathlib.Data.List.Induction

namespace DocQuery

namespace Operation

variable {α : Type}

def founds : Operation α → Bool
  | insert _ | createIndex _ => true
  | _ => false

def drops : Operation α → Bool
  | drop => true
  | _ => false

variable {op : Operation α} {name : String} {fresh : Json} {c c' : Option Collection} {x : α}

theorem isSome_of_map {β : Type} {r : Except Error β} {f : β → α × Option Collection}
    (hf : ∀ y, (f y).2.isSome) (h : r.map f = .ok (x, c')) : c'.isSome := by
  obtain ⟨y, _, hy⟩ := map_eq_ok h
  simpa only [hy] using hf y

theorem kinds (op : Operation α) : op.founds ∨ op.drops ∨ op.onlyReads ∨ op.onlyEdits := by
  cases op <;> simp [founds, drops, onlyReads, onlyEdits]

theorem not_founds_of_neutral (h : op.onlyReads ∨ op.onlyEdits) : ¬ op.founds ∧ ¬ op.drops := by
  cases op <;> simp_all [founds, drops, onlyReads, onlyEdits]

variable [Regex.Engine]

theorem change_of_founds (h : op.founds) (hc : op.change name fresh c = .ok (x, c')) :
    c'.isSome := by
  cases op with
  | insert document => exact isSome_of_map (fun _ => rfl) hc
  | createIndex keys => exact isSome_of_map (fun _ => rfl) hc
  | _ => contradiction

theorem change_of_drops (h : op.drops) (name : String) (fresh : Json) (c : Option Collection) :
    ∃ x, op.change name fresh c = .ok (x, none) := by
  cases op with
  | drop => exact ⟨(), rfl⟩
  | _ => contradiction

theorem change_some_of_onlyEdits (h : op.onlyEdits) {d : Collection}
    (hc : op.change name fresh (some d) = .ok (x, c')) : c'.isSome := by
  cases op with
  | update filter document =>
    cases document with
    | object fs => exact isSome_of_map (fun _ => rfl) hc
    | _ => contradiction
  | remove filter => exact isSome_of_map (fun _ => rfl) hc
  | dropIndex keys => exact isSome_of_map (fun _ => rfl) hc
  | dropIndexes =>
    cases hc
    rfl
  | _ => contradiction

theorem change_isSome_of_neutral (h : op.onlyReads ∨ op.onlyEdits)
    (hc : op.change name fresh c = .ok (x, c')) : c'.isSome = c.isSome := by
  rcases h with h | h
  · rw [change_of_onlyReads h hc]
  · cases c with
    | none => rw [change_of_onlyEdits h hc]
    | some d => rw [change_some_of_onlyEdits h hc, Option.isSome_some]

theorem change_isSome (hc : op.change name fresh c = .ok (x, c')) :
    c'.isSome ↔ op.founds ∨ (c.isSome ∧ ¬ op.drops) := by
  rcases op.kinds with h | h | h
  · simp [h, change_of_founds h hc]
  · obtain ⟨y, hy⟩ := change_of_drops h name fresh c
    cases hy.symm.trans hc
    have hfounds : ¬ op.founds := by cases op <;> simp_all [founds, drops]
    simp [h, hfounds]
  · obtain ⟨hfounds, hdrops⟩ := not_founds_of_neutral h
    simp [hfounds, hdrops, change_isSome_of_neutral h hc]

end Operation

namespace Store

theorem mem_names {s : Store} {name : String} : name ∈ s.names ↔ (s.get? name).isSome := by
  obtain ⟨es, hes⟩ := s
  show name ∈ es.map Prod.fst ↔ (find? name es).isSome
  clear hes
  induction es with
  | nil => simp [find?]
  | cons e es ih =>
    by_cases h : e.1 = name
    · simp [find?, h]
    · simp [find?, h, Ne.symm h, ih]

theorem names_sorted (s : Store) : s.names.Pairwise (· < ·) :=
  List.pairwise_map.2 s.sorted

theorem names_ext {s t : Store} (h : ∀ name, name ∈ s.names ↔ name ∈ t.names) :
    s.names = t.names := by
  have hs := s.names_sorted
  have ht := t.names_sorted
  refine ((List.perm_ext_iff_of_nodup ?_ ?_).2 h).eq_of_pairwise ?_ hs ht
  · exact hs.imp Std.ne_of_lt
  · exact ht.imp Std.ne_of_lt
  · intro a b _ _ hab hba
    exact absurd hba (Std.not_gt_of_lt hab)

section

variable {α : Type} {s : Store} {name : String} {fresh : Json} {op : Operation α}

variable [Regex.Engine]

theorem isSome_perform :
    ((perform name fresh op s).2.get? name).isSome ↔
      (op.founds ∧ ∃ x, (perform name fresh op s).1 = .ok x) ∨
        ((s.get? name).isSome ∧ ¬ op.drops) := by
  rw [Effect.perform_makes name fresh op s]
  cases hc : op.change name fresh (s.get? name) with
  | error e =>
    have hdrops : ¬ op.drops := by
      intro h
      obtain ⟨x, hx⟩ := Operation.change_of_drops h name fresh (s.get? name)
      cases hc.symm.trans hx
    simp [hdrops]
  | ok r => simp [Operation.change_isSome hc]

theorem mem_names_perform {other : String} :
    other ∈ (perform name fresh op s).2.names ↔
      (name = other ∧ op.founds ∧ ∃ x, (perform name fresh op s).1 = .ok x) ∨
        (other ∈ s.names ∧ ¬ (name = other ∧ op.drops)) := by
  rw [mem_names, mem_names]
  by_cases ho : name = other
  · subst ho
    simpa using isSome_perform
  · have hframe := (Effect.perform_makes name fresh op).localTo.frame s other (Ne.symm ho)
    simp [ho, hframe]

theorem names_perform
    (h : op.onlyReads ∨ op.onlyEdits ∨ ∃ e, (perform name fresh op s).1 = .error e) :
    (perform name fresh op s).2.names = s.names := by
  rw [← or_assoc] at h
  obtain h | ⟨e, he⟩ := h
  · obtain ⟨hfounds, hdrops⟩ := Operation.not_founds_of_neutral h
    apply names_ext
    intro other
    simp [mem_names_perform, hfounds, hdrops]
  · rw [(Effect.perform_makes name fresh op).localTo.atomic s e he]

end

namespace Call

variable {s : Store} {name : String}

variable [Regex.Engine]

def Founds (name : String) (s : Store) : Call → Prop
  | on other id op => other = name ∧ op.founds ∧ ∃ x, (perform other (.string id) op s).1 = .ok x
  | clear => False

def Drops (name : String) : Call → Prop
  | on other _ op => other = name ∧ op.drops
  | clear => True

theorem mem_names_after (call : Call) :
    name ∈ (call.after s).names ↔ call.Founds name s ∨ (name ∈ s.names ∧ ¬ call.Drops name) := by
  cases call with
  | on other id op => exact mem_names_perform
  | clear =>
    have hnone : (Call.clear.after s).names = [] := rfl
    simp [Founds, Drops, hnone]

/-- In a run, the collection of a name is brought into being and not dropped any more. -/
def Lasts (name : String) (s : Store) (calls : List Call) : Prop :=
  ∃ before call rest, calls = before ++ call :: rest ∧
    call.Founds name (before.foldl after s) ∧ ∀ later ∈ rest, ¬ later.Drops name

theorem lasts_concat {calls : List Call} {call : Call} :
    Lasts name s (calls ++ [call]) ↔
      call.Founds name (calls.foldl after s) ∨ (Lasts name s calls ∧ ¬ call.Drops name) := by
  constructor
  · rintro ⟨before, founder, rest, hcalls, hfounds, hrest⟩
    rcases List.eq_nil_or_concat' rest with rfl | ⟨rest, last, rfl⟩
    · obtain ⟨rfl, hlast⟩ := List.append_inj' hcalls rfl
      cases hlast
      exact .inl hfounds
    · rw [← List.cons_append, ← List.append_assoc] at hcalls
      obtain ⟨rfl, hlast⟩ := List.append_inj' hcalls rfl
      cases hlast
      obtain ⟨hrest, hcall⟩ := List.forall_mem_append.1 hrest
      exact .inr ⟨⟨before, founder, rest, rfl, hfounds, hrest⟩, hcall call (by simp)⟩
  · rintro (hfounds | ⟨⟨before, founder, rest, rfl, hfounds, hrest⟩, hcall⟩)
    · exact ⟨calls, call, [], rfl, hfounds, nofun⟩
    · refine ⟨before, founder, rest ++ [call], by simp, hfounds, ?_⟩
      exact List.forall_mem_append.2 ⟨hrest, by simpa using hcall⟩

theorem mem_names_foldl (calls : List Call) :
    name ∈ (calls.foldl after s).names ↔
      Lasts name s calls ∨ (name ∈ s.names ∧ ∀ call ∈ calls, ¬ call.Drops name) := by
  -- the last call decides, so the run is taken apart from its end
  induction calls using List.reverseRecOn with
  | nil => simp [Lasts]
  | append_singleton calls call ih =>
    rw [List.foldl_append, List.foldl_cons, List.foldl_nil, mem_names_after, ih, lasts_concat,
      List.forall_mem_append, List.forall_mem_singleton, or_and_right, or_assoc, and_assoc]

end Call

section

variable [Regex.Engine]

/-- After a run from no collections, the names of a store are, each once and in order, those of
the collections into which a document was put, or for which an index was made, since they were
last dropped.  No other operation, and none that fails, changes which names there are. -/
theorem names_run (calls : List Call) :
    let s := calls.foldl Call.after empty
    s.names.Pairwise (· < ·) ∧ (∀ name, name ∈ s.names ↔ Call.Lasts name empty calls) ∧
      ∀ {α : Type} (t : Store) (name : String) (fresh : Json) (op : Operation α),
        (op.onlyReads ∨ op.onlyEdits ∨ ∃ e, (perform name fresh op t).1 = .error e) →
          (perform name fresh op t).2.names = t.names := by
  refine ⟨names_sorted _, fun name => ?_, fun t name fresh op => names_perform⟩
  rw [Call.mem_names_foldl]
  simp [names, empty]

end

def fleetingCalls : List Call := [
  .on "towns" "a" (.insert (.object [("name", .string "Ulm")])),
  .clear,
  .on "people" "b" (.insert (.object [("name", .string "Ann")])),
  .on "people" "c" (.remove (.object [])),
  .on "ages" "d" (.createIndex (.object [("n", .int 1)])),
  .on "ages" "e" .dropIndexes,
  .on "towns" "f" (.insert .null),
  .on "towns" "g" (.createIndex (.object [])),
  .on "roads" "h" (.createIndex (.object [("n", .int 1)])),
  .on "roads" "i" .drop]

theorem names_run_fleeting :
    let s := fleetingCalls.foldl Call.after empty
    s.names = ["ages", "people"] ∧ Call.Lasts "ages" empty fleetingCalls ∧
      ¬ Call.Lasts "roads" empty fleetingCalls ∧
      (perform "towns" .null (.insert .null) s).2.names = s.names := by
  obtain ⟨_, hnames, hneutral⟩ := names_run fleetingCalls
  have hrun : (fleetingCalls.foldl Call.after empty).names = ["ages", "people"] := by
    decide +kernel
  refine ⟨hrun, (hnames "ages").1 ?_, mt (hnames "roads").2 ?_, ?_⟩
  · simp [hrun]
  · simp [hrun]
  · exact hneutral _ "towns" .null _ (.inr (.inr ⟨_, rfl⟩))

end Store

end DocQuery
