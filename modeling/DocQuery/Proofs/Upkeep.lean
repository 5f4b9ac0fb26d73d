import DocQuery.Proofs.Fields
import DocQuery.Proofs.Identity
import DocQuery.Proofs.Soundness
import DocQuery.Repository.Basic

namespace DocQuery

open Collection (idKey StringIds)

def Operation.LacksId {α : Type} : Operation α → Prop
  | insert (.object fs) => Fields.get? idKey fs = none
  | _ => True

def Operation.Brings {α : Type} (W : Fields Json → Prop) : Operation α → Prop
  | insert document | update _ document =>
    ∃ fs, W fs ∧ document = .object (Fields.swapErase idKey fs)
  | _ => True

theorem Operation.Brings.imp {α : Type} {op : Operation α} {V W : Fields Json → Prop}
    (h : op.Brings V) (himp : ∀ fs, V fs → W fs) : op.Brings W := by
  cases op with
  | insert document | update filter document =>
    obtain ⟨fs, hfs, hdoc⟩ := h
    exact ⟨fs, himp fs hfs, hdoc⟩
  | _ => trivial

theorem Operation.lacksId_of_onlyReads {α : Type} {op : Operation α} (h : op.onlyReads) :
    op.LacksId := by
  cases op with
  | insert document => contradiction
  | _ => trivial

theorem Operation.lacksId_of_brings {α : Type} {op : Operation α}
    (h : op.Brings fun fs => (Fields.keys fs).Nodup) : op.LacksId := by
  cases op with
  | insert document =>
    obtain ⟨fs, hfs, rfl⟩ := h
    exact Fields.get?_of_not_mem (Fields.not_mem_keys_swapErase hfs idKey)
  | _ => trivial

namespace Collection

theorem StringIds.insert {c : Collection} (h : StringIds c.documents) {fs : Fields Json}
    (hfs : Fields.get? idKey fs = none) {name id : String} {r : Json × Collection}
    (hr : c.insert name (.string id) (.object fs) = .ok r) : StringIds r.2.documents := by
  simp only [Collection.insert, withId_of_absent _ hfs] at hr
  split at hr
  · contradiction
  · cases hr
    rw [← List.append_nil c.documents] at h
    exact h.put (hasStringId_of_get? (Fields.get?_insert_self ..))

theorem stringId?_replacement {d : Json} (h : (stringId? d).isSome) (fs : Fields Json) :
    (stringId? (replacement d fs)).isSome := by
  obtain ⟨id, hid⟩ := Option.isSome_iff_exists.1 h
  have hget : (replacement d fs).get? idKey = some (.string id) := by
    rw [replacement, Json.get?, Fields.get?, if_pos rfl, stringId?_eq_some.1 hid]
    rfl
  rw [stringId?_eq_some.2 hget, Option.isSome_some]

section

variable [Regex.Engine]

theorem StringIds.update {c : Collection} (h : StringIds c.documents) {filter : Json}
    {fs : Fields Json} {r : Nat × Collection} (hr : c.update filter fs = .ok r) :
    StringIds r.2.documents := by
  rw [Collection.update] at hr
  split at hr
  · contradiction
  · next found ds hds =>
    cases hr
    intro e he
    obtain ⟨d, hd, rfl | rfl⟩ := (replaceFirst_spec hds).2 e he
    · exact h e hd
    · exact stringId?_replacement (h d hd) fs

theorem StringIds.remove {c : Collection} (h : StringIds c.documents) {filter : Json}
    {r : Nat × Collection} (hr : c.remove filter = .ok r) : StringIds r.2.documents := by
  rw [Collection.remove] at hr
  split at hr
  · contradiction
  · next rest hrest =>
    cases hr
    exact h.of_sublist (rejectFrom_sublist hrest)

end

theorem documents_of_dropIndex {c d : Collection} {keys : Json} (h : c.dropIndex keys = .ok d) :
    d.documents = c.documents := by
  rw [dropIndex] at h
  split at h
  · cases h
    rfl
  · contradiction

end Collection

section

variable [Regex.Engine]

theorem Operation.change_stringIds {α : Type} {op : Operation α} (hop : op.LacksId)
    {name id : String} {c : Option Collection} (hc : StringIds (c.getD .empty).documents)
    {r : α × Option Collection} (hr : op.change name (.string id) c = .ok r) :
    StringIds (r.2.getD .empty).documents := by
  cases hd : r.2 with
  | none => nofun
  | some d =>
    rcases change_cases hr hd with rfl | hmade
    · exact hc
    · cases hmade with
      | @insert document _ _ h =>
        cases document with
        | object fs => exact hc.insert hop h
        | _ => contradiction
      | update h => exact hc.update h
      | remove h => exact hc.remove h
      | createIndex _ => rwa [Option.getD_some, Collection.documents_createIndex]
      | dropIndex h => rwa [Option.getD_some, Collection.documents_of_dropIndex h]
      | dropIndexes => exact hc

end

namespace Database

variable {α β : Type}

structure HasStringIds (db : Database) : Prop where
  preset : db.preset = none
  ids : ∀ name, StringIds (db.documents name)

theorem hasStringIds_empty : empty.HasStringIds := ⟨rfl, fun _ => nofun⟩

def Upholds (I : Database → Prop) (act : Action α) : Prop := ∀ db, I db → I (act db).2

section

variable {I : Database → Prop}

theorem Upholds.pure (x : α) : Upholds I (Pure.pure x : Action α) := fun _ h => h

theorem Upholds.throw (e : Error) : Upholds I (MonadExcept.throw e : Action α) := fun _ h => h

theorem Upholds.lift (r : Except Error α) : Upholds I (liftM r : Action α) := fun _ h => h

theorem Upholds.bind {act : Action α} {next : α → Action β} (h : Upholds I act)
    (hnext : ∀ x, Upholds I (next x)) : Upholds I (act >>= next) := by
  intro db hdb
  have hact := h db hdb
  rw [bind_apply]
  cases hr : act db with
  | mk r after =>
    rw [hr] at hact
    cases r with
    | error e => exact hact
    | ok x => exact hnext x after hact

theorem Upholds.bind_lift {r : Except Error α} {next : α → Action β}
    (h : ∀ x, r = .ok x → Upholds I (next x)) : Upholds I (liftM r >>= next) := by
  intro db hdb
  rw [bind_apply, lift_apply]
  cases hr : r with
  | error e => exact hdb
  | ok x => exact h x hr db hdb

theorem Upholds.discard {act : Action α} (h : Upholds I act) :
    Upholds I (Functor.discard act : Action Unit) := by
  intro db hdb
  have hact := h db hdb
  rw [discard_apply]
  cases hr : act db with
  | mk r after =>
    rw [hr] at hact
    cases r <;> exact hact

theorem attempt_apply (act : Action Unit) (db : Database) :
    attempt act db = (.ok (), (act db).2) := by
  have htry : attempt act = ExceptT.tryCatch act fun _ => pure () := rfl
  rw [htry, ExceptT.tryCatch, ExceptT.mk]
  change (StateT.bind (m := Id) act _) db = _
  rw [StateT.bind]
  rcases act db with ⟨_ | _, after⟩ <;> rfl

theorem Upholds.attempt {act : Action Unit} (h : Upholds I act) : Upholds I (attempt act) := by
  intro db hdb
  rw [attempt_apply]
  exact h db hdb

theorem upholds_collection (name : String) : Upholds I (collection name) := by
  rw [collection]
  split
  · exact Upholds.pure _
  · exact Upholds.throw _

end

def Keeps (act : Action α) : Prop := ∀ db : Database, db.HasStringIds → (act db).2.HasStringIds

variable [Regex.Engine]

theorem keeps_performUnchecked (name : String) {op : Operation α} (hop : op.LacksId) :
    Keeps (performUnchecked name op) := by
  intro db hdb
  have hids := hdb.ids
  rw [performUnchecked_apply, Store.Effect.perform_makes name db.nextId op db.store]
  cases hr : op.change name db.nextId (db.store.get? name) with
  | error e => exact hdb
  | ok r =>
    refine ⟨hdb.preset, fun other => ?_⟩
    by_cases ho : other = name
    · subst ho
      simp only [documents, Store.getD, Store.get?_commit_self]
      exact Operation.change_stringIds hop (hdb.ids other) hr
    · simp only [documents, Store.getD, Store.get?_commit_of_ne ho]
      exact hdb.ids other

theorem keeps_perform (name : String) {op : Operation α} (hop : op.LacksId) :
    Keeps (perform name op) := by
  intro db hdb
  by_cases hname : Store.accepts name
  · rw [perform_of_accepts db hname, withPreset_of_none db hdb.preset]
    exact keeps_performUnchecked name hop db hdb
  · rw [perform_of_refused db hname]
    exact hdb

end Database

namespace Repository

open Database (HasStringIds Upholds upholds_collection)

variable {α : Type}

inductive Call (α : Type) where
  | count
  | countMatching (query : String) (params : List Json)
  | find (query : String) (params : List Json)
  | findByFilter (filter : Option Json)
  | fetch (q : Pending α)
  | fetchDocuments (q : Pending α)
  | first (q : Pending α)
  | countPending (q : Pending α)
  | findById (id : String)
  | save (a : α)
  | delete (a : α)
  | deleteMatching (query : String) (params : List Json)
  | deleteAll
  | clear
  | createIndex (keys : String)
  | dropIndex (keys : String)
  | dropIndexes
  | indexNames

namespace Call

variable [Regex.Engine]

def perform (t : EntityType α) : Call α → Action Unit
  | count => discard (Repository.count t)
  | countMatching query params => discard (Repository.countMatching t query params)
  | find query params => discard (Repository.find t query params)
  | findByFilter filter => discard (Repository.findByFilter t filter)
  | fetch q => discard q.fetch
  | fetchDocuments q => discard q.fetchDocuments
  | first q => discard q.first
  | countPending q => discard q.count
  | findById id => discard (Repository.findById t id)
  | save a => discard (Repository.save t a)
  | delete a => Repository.delete t a
  | deleteMatching query params => discard (Repository.deleteMatching t query params)
  | deleteAll => discard (Repository.deleteAll t)
  | clear => Repository.clear t
  | createIndex keys => discard (Repository.createIndex t keys)
  | dropIndex keys => Repository.dropIndex t keys
  | dropIndexes => Repository.dropIndexes t
  | indexNames => discard (Repository.indexNames t)

def Writes (W : Fields Json → Prop) (t : EntityType α) : Call α → Prop
  | save a => ∀ fs, t.toFields a = .ok fs → W fs
  | _ => True

def WellFormed (t : EntityType α) : Call α → Prop
  | save a => ∀ fs, t.toFields a = .ok fs → (Fields.keys fs).Nodup
  | _ => True

end Call

section

variable [Regex.Engine]

/-- An invariant that no operation of a repository breaks, as long as the entities that are saved
are written as fields of some kind. -/
structure Upheld (W : Fields Json → Prop) (I : Database → Prop) : Prop where
  reads {β : Type} (name : String) {op : Operation β} (h : op.onlyReads) :
    Upholds I (Database.performUnchecked name op)
  perform {β : Type} (name : String) {op : Operation β} (h : op.Brings W) :
    Upholds I (Database.perform name op)

section

variable {W : Fields Json → Prop} {I : Database → Prop} (hI : Upheld W I) (t : EntityType α)

include hI

theorem Upheld.fetch (q : Pending α) : Upholds I q.fetch := by
  refine Upholds.bind (hI.reads _ rfl) fun ds => ?_
  induction ds with
  | nil => exact Upholds.pure _
  | cons d ds ih =>
    rw [List.mapM_cons]
    exact Upholds.bind (Upholds.lift _) fun _ => Upholds.bind ih fun _ => Upholds.pure _

theorem Upheld.first (q : Pending α) : Upholds I q.first := by
  refine Upholds.bind (hI.reads _ rfl) fun ds => ?_
  cases ds with
  | nil => exact Upholds.pure _
  | cons d ds => exact Upholds.bind (Upholds.lift _) fun _ => Upholds.pure _

theorem Upheld.findById (id : String) : Upholds I (findById t id) := by
  refine Upholds.bind (hI.perform _ trivial) fun d => ?_
  cases d with
  | none => exact Upholds.pure _
  | some d => exact Upholds.bind (Upholds.lift _) fun _ => Upholds.pure _

theorem Upheld.save {t : EntityType α} {a : α} (h : ∀ fs, t.toFields a = .ok fs → W fs) :
    Upholds I (save t a) := by
  refine Upholds.bind_lift fun fs hfs => ?_
  have hbrings : ∃ gs, W gs ∧
      Json.object (Fields.swapErase idKey fs) = .object (Fields.swapErase idKey gs) :=
    ⟨fs, h fs hfs, rfl⟩
  cases t.id? a with
  | none =>
    refine Upholds.bind (hI.perform _ hbrings) fun id => ?_
    cases id with
    | string id => exact Upholds.pure _
    | _ => exact Upholds.throw _
  | some id =>
    refine Upholds.bind (hI.perform _ hbrings) fun n => ?_
    cases n with
    | zero => exact Upholds.throw _
    | succ n => exact Upholds.pure _

theorem Upheld.delete (a : α) : Upholds I (delete t a) := by
  rw [Repository.delete]
  cases t.id? a with
  | none => exact Upholds.throw _
  | some id => exact Upholds.discard (hI.perform _ trivial)

theorem Upheld.deleteMatching (query : String) (params : List Json) :
    Upholds I (deleteMatching t query params) :=
  Upholds.bind (Upholds.lift _) fun _ =>
    Upholds.bind (hI.perform _ trivial) fun _ =>
      Upholds.bind (hI.perform _ trivial) fun _ => Upholds.pure _

theorem Upheld.deleteAll : Upholds I (deleteAll t) :=
  Upholds.bind (hI.perform _ trivial) fun _ =>
    Upholds.bind (hI.perform _ trivial) fun _ => Upholds.pure _

theorem Upheld.clear : Upholds I (clear t) :=
  Upholds.bind (Upholds.attempt (hI.perform _ trivial)) fun _ => Upholds.pure _

theorem Upheld.call {t : EntityType α} {call : Call α} (h : call.Writes W t) :
    Upholds I (call.perform t) := by
  cases call with
  | count => exact Upholds.discard (hI.perform _ trivial)
  | countMatching query params =>
    exact Upholds.discard (Upholds.bind (Upholds.lift _) fun _ => hI.perform _ trivial)
  | find query params =>
    refine Upholds.discard (Upholds.bind (Upholds.lift _) fun _ => ?_)
    exact Upholds.bind (upholds_collection _) fun _ => Upholds.pure _
  | findByFilter filter =>
    exact Upholds.discard (Upholds.bind (upholds_collection _) fun _ => Upholds.pure _)
  | fetch q => exact Upholds.discard (hI.fetch q)
  | fetchDocuments q => exact Upholds.discard (hI.reads _ rfl)
  | first q => exact Upholds.discard (hI.first q)
  | countPending q => exact Upholds.discard (hI.reads _ rfl)
  | findById id => exact Upholds.discard (hI.findById t id)
  | save a => exact Upholds.discard (hI.save h)
  | delete a => exact hI.delete t a
  | deleteMatching query params => exact Upholds.discard (hI.deleteMatching t query params)
  | deleteAll => exact Upholds.discard (hI.deleteAll t)
  | clear => exact hI.clear t
  | createIndex keys =>
    exact Upholds.discard (Upholds.bind (Upholds.lift _) fun _ => hI.perform _ trivial)
  | dropIndex keys => exact Upholds.bind (Upholds.lift _) fun _ => hI.perform _ trivial
  | dropIndexes => exact hI.perform _ trivial
  | indexNames => exact Upholds.discard (hI.perform _ trivial)

end

end

inductive Request : Type 1 where
  | on {α : Type} (t : EntityType α) (call : Call α)

namespace Request

variable [Regex.Engine]

def after (db : Database) : Request → Database
  | on t call => (call.perform t db).2

def WellFormed : Request → Prop
  | on t call => call.WellFormed t

def Writes (W : Fields Json → Prop) : Request → Prop
  | on t call => call.Writes W t

end Request

theorem Request.WellFormed.writes {request : Request} (h : request.WellFormed) :
    request.Writes fun fs => (Fields.keys fs).Nodup := by
  cases request with
  | on t call => cases call <;> exact h

variable [Regex.Engine]

section

variable {W : Fields Json → Prop} {I : Database → Prop} {db : Database}

theorem Upheld.request (hI : Upheld W I) (hdb : I db) {request : Request}
    (h : request.Writes W) : I (request.after db) := by
  cases request with
  | on t call => exact hI.call h db hdb

theorem Upheld.foldl (hI : Upheld W I) (hdb : I db) {requests : List Request}
    (h : ∀ r ∈ requests, r.Writes W) : I (requests.foldl Request.after db) := by
  induction requests generalizing db with
  | nil => exact hdb
  | cons r requests ih =>
    obtain ⟨hr, hrest⟩ := List.forall_mem_cons.1 h
    exact ih (hI.request hdb hr) hrest

end

theorem upheld_hasStringIds : Upheld (fun fs => (Fields.keys fs).Nodup) HasStringIds where
  reads name _ h := Database.keeps_performUnchecked name (Operation.lacksId_of_onlyReads h)
  perform name _ h := Database.keeps_perform name (Operation.lacksId_of_brings h)

theorem keeps_request {db : Database} (hdb : db.HasStringIds) {request : Request}
    (h : request.WellFormed) : (request.after db).HasStringIds :=
  upheld_hasStringIds.request hdb h.writes

theorem hasStringIds_foldl {db : Database} (hdb : db.HasStringIds) {requests : List Request}
    (h : ∀ r ∈ requests, r.WellFormed) : (requests.foldl Request.after db).HasStringIds :=
  upheld_hasStringIds.foldl hdb fun r hr => (h r hr).writes

end Repository

end DocQuery
