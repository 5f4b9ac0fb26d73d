import DocQuery.Proofs.Presence
import DocQuery.Proofs.Saving
import DocQuery.Regex.Reader

namespace DocQuery

open Collection (idKey hasStringId StringIds)

namespace Fields

theorem lastFirst_eq_self {α : Type} {fs : Fields α} (h : (keys fs).Nodup) :
    lastFirst fs = fs ↔ fs.length ≤ 1 := by
  -- two fields at least do not stay in their order
  rcases List.eq_nil_or_concat' fs with rfl | ⟨front, last, rfl⟩
  · simp [lastFirst]
  · rw [lastFirst_concat]
    cases front with
    | nil => simp
    | cons f front =>
      have hne : last ≠ f := by
        rintro rfl
        simp [keys] at h
      simp [hne]

theorem swapErase_wellFormed {fs : Fields Json} (h : (Json.object fs).WellFormed) (key : String) :
    (Json.object (swapErase key fs)).WellFormed := by
  rw [Json.object_wellFormed_iff] at h ⊢
  by_cases hkey : key ∈ keys fs
  · obtain ⟨⟨_, value⟩, hf, rfl⟩ := List.mem_map.1 hkey
    have hperm := cons_swapErase_perm (get?_of_mem h.1 hf)
    have hnodup := (hperm.map Prod.fst).nodup_iff.2 h.1
    refine ⟨(List.nodup_cons.1 hnodup).2, fun f hf => h.2 f ?_⟩
    exact hperm.subset (List.mem_cons_of_mem _ hf)
  · rwa [swapErase_of_not_mem hkey]

end Fields

namespace Collection

def ledBy (id : String) (fs : Fields Json) : Json := .object ((idKey, .string id) :: fs)

theorem idOf_of_hasStringId {d : Json} {id : String} (h : hasStringId id d) :
    idOf d = .string id := by
  rw [idOf, get?_of_hasStringId h, Option.getD_some]

theorem Sound.not_hasStringId {c : Collection} (h : c.Sound) {before rest : List Json} {d : Json}
    {id : String} (hds : c.documents = before ++ d :: rest) (hd : hasStringId id d) :
    ∀ e ∈ before, ¬ hasStringId id e := by
  intro e he hid
  have hdistinct := h.distinct
  rw [hds, List.map_append, List.map_cons, List.pairwise_append] at hdistinct
  have hne := hdistinct.2.2 _ (List.mem_map_of_mem he) _ List.mem_cons_self
  rw [idOf_of_hasStringId hd, idOf_of_hasStringId hid] at hne
  exact hne.1 (decide_eq_true rfl)

end Collection

namespace Database

/-- A sound store of collections whose names it accepts, and whose ids are strings. -/
structure Tidy (db : Database) : Prop extends db.HasStringIds where
  sound : db.store.Sound
  accepted : ∀ name ∈ db.store.names, Store.accepts name

theorem tidy_empty : empty.Tidy where
  toHasStringIds := hasStringIds_empty
  sound := Store.sound_empty
  accepted := nofun

section

variable {α : Type} {db : Database}

variable [Regex.Engine]

theorem store_performUnchecked (db : Database) (name : String) (op : Operation α) :
    (performUnchecked name op db).2.store = (Store.perform name db.nextId op db.store).2 := by
  rw [performUnchecked_apply]
  rcases Store.perform name db.nextId op db.store with ⟨_ | _, s⟩ <;> rfl

theorem Tidy.reads (h : db.Tidy) (name : String) {op : Operation α} (hop : op.onlyReads) :
    (performUnchecked name op db).2.Tidy := by
  have hstore : (performUnchecked name op db).2.store = db.store := by
    rw [store_performUnchecked, (Store.Effect.perform_local name db.nextId op).2.1 hop]
  have hids := keeps_performUnchecked name (Operation.lacksId_of_onlyReads hop) db h.toHasStringIds
  exact ⟨hids, hstore ▸ h.sound, hstore ▸ h.accepted⟩

theorem Tidy.perform (h : db.Tidy) (name : String) {op : Operation α} (hid : op.LacksId)
    (hop : op.WellFormed) : (Database.perform name op db).2.Tidy := by
  have hids := keeps_perform name hid db h.toHasStringIds
  by_cases hname : Store.accepts name
  · have hstore : (Database.perform name op db).2.store =
        (Store.perform name db.nextId op db.store).2 := by
      rw [perform_of_accepts db hname, withPreset_of_none db h.preset, store_performUnchecked]
    refine ⟨hids, ?_, fun other ho => ?_⟩
    · exact hstore ▸ h.sound.perform hop name ⟨nofun, by simp [nextId, issue, Json.WellFormed]⟩
    · rw [hstore, Store.mem_names_perform] at ho
      obtain ⟨rfl, _⟩ | ⟨ho, _⟩ := ho
      · exact hname
      · exact h.accepted other ho
  · rwa [perform_of_refused db hname]

end

end Database

theorem Operation.wellFormed_of_brings {α : Type} {op : Operation α}
    (h : op.Brings fun fs => (Json.object fs).WellFormed) : op.WellFormed := by
  cases op with
  | insert document | update filter document =>
    obtain ⟨fs, hfs, rfl⟩ := h
    exact Fields.swapErase_wellFormed hfs idKey
  | _ => trivial

namespace Repository

open Collection (ledBy)
open Database (Edits Tidy)

section

variable [Regex.Engine]

theorem upheld_tidy : Upheld (fun fs => (Json.object fs).WellFormed) Tidy where
  reads name _ h _ hdb := hdb.reads name h
  perform name op h db hdb := by
    have hid : op.LacksId :=
      Operation.lacksId_of_brings (h.imp fun fs hfs => (Json.object_wellFormed_iff.1 hfs).1)
    exact hdb.perform name hid (Operation.wellFormed_of_brings h)

section

variable {db : Database} {name id : String} {fs : Fields Json} {before rest : List Json}

theorem save_ledBy (hname : Store.accepts name) (hids : StringIds (db.documents name))
    (hnodup : (Fields.keys ((idKey, Json.string id) :: fs)).Nodup)
    (hds : db.documents name = before ++ ledBy id fs :: rest)
    (hbefore : ∀ e ∈ before, ¬ hasStringId id e) :
    findById (.json name) id db = (.ok (some (ledBy id fs)), db) ∧
      ∃ after, save (.json name) (ledBy id fs) db = (.ok (ledBy id fs), after) ∧
        Edits name (before ++ ledBy id fs.lastFirst :: rest) db after := by
  have hid : hasStringId id (ledBy id fs) := Collection.hasStringId_of_get? rfl
  obtain ⟨after, hsave, hedits⟩ :=
    save_of_first (EntityType.json_maps name hnodup) hname hids rfl hds hbefore hid
  rw [Fields.swapErase_cons] at hedits
  exact ⟨findById_of_first hname hids hds hbefore hid, after, hsave, hedits⟩

end

/-- Whatever repositories did, a document that begins with a string as its id is found under this
id, and saving it as it was found puts the last of its other fields in front of these.  So it stays
as it was only if there is one other field at most. -/
theorem save_found {requests : List Request}
    (hrequests : ∀ r ∈ requests, r.Writes fun fs => (Json.object fs).WellFormed)
    {name id : String} {fs : Fields Json}
    (hd : ledBy id fs ∈ (requests.foldl Request.after .empty).documents name) :
    let db := requests.foldl Request.after .empty
    findById (.json name) id db = (.ok (some (ledBy id fs)), db) ∧
      ∃ before rest after, db.documents name = before ++ ledBy id fs :: rest ∧
        save (.json name) (ledBy id fs) db = (.ok (ledBy id fs), after) ∧
        Edits name (before ++ ledBy id fs.lastFirst :: rest) db after ∧
        (after.documents name = db.documents name ↔ fs.length ≤ 1) := by
  intro db
  have hdb : db.Tidy := upheld_tidy.foldl Database.tidy_empty hrequests
  have hsound := hdb.sound.getD name
  have hname : Store.accepts name := by
    obtain ⟨c, hc, _⟩ := Database.get?_of_documents hd
    exact hdb.accepted name (Store.mem_names.2 (by rw [hc, Option.isSome_some]))
  have hnodup : (Fields.keys ((idKey, Json.string id) :: fs)).Nodup :=
    (Json.object_wellFormed_iff.1 (hsound.wellFormed _ hd)).1
  obtain ⟨before, rest, hds⟩ := List.append_of_mem hd
  have hbefore := hsound.not_hasStringId hds (Collection.hasStringId_of_get? rfl)
  obtain ⟨hfind, after, hsave, hedits⟩ := save_ledBy hname (hdb.ids name) hnodup hds hbefore
  refine ⟨hfind, before, rest, after, hds, hsave, hedits, ?_⟩
  have hfields : (Fields.keys fs).Nodup := (List.nodup_cons.1 hnodup).2
  rw [hedits.documents, hds, ← Fields.lastFirst_eq_self hfields]
  simp [ledBy]

end

def pairCalls : List Request :=
  let fs : Fields Json := [("a", .int 1), ("b", .int 2)]
  [.on (.json "pairs") (.save (.object fs)), .on (.json "pairs") (.save (ledBy "<id#1>" fs))]

theorem save_found_pair :
    let fs : Fields Json := [("b", .int 2), ("a", .int 1)]
    let db := pairCalls.foldl Request.after .empty
    (∀ r ∈ pairCalls, r.Writes fun fs => (Json.object fs).WellFormed) ∧
      ledBy "<id#1>" fs ∈ db.documents "pairs" ∧
      ∃ after, save (.json "pairs") (ledBy "<id#1>" fs) db = (.ok (ledBy "<id#1>" fs), after) ∧
        after.documents "pairs" ≠ db.documents "pairs" := by
  intro fs db
  have hcalls : ∀ r ∈ pairCalls, r.Writes fun fs => (Json.object fs).WellFormed := by
    refine List.forall_mem_cons.2 ⟨?_, List.forall_mem_singleton.2 ?_⟩ <;>
      rintro _ ⟨⟩ <;>
      simp [Json.WellFormed, Json.WellFormedFields, Fields.keys, Json.int, idKey]
  have hdocs : db.documents "pairs" = [ledBy "<id#1>" fs] := rfl
  have hd : ledBy "<id#1>" fs ∈ db.documents "pairs" := hdocs ▸ List.mem_cons_self
  obtain ⟨_, _, _, after, _, hsave, _, hiff⟩ := save_found hcalls hd
  exact ⟨hcalls, hd, after, hsave, mt hiff.1 (by decide)⟩

end Repository

end DocQuery
