import DocQuery.Proofs.Editing
import DocQuery.Proofs.Mapping
import DocQuery.Proofs.Upkeep
import DocQuery.Regex.Reader

namespace DocQuery

open Collection (idKey hasStringId StringIds)
open Repository (idFilter)

namespace Repository

open Database (Edits Stores)

variable {α : Type}

section

variable [Regex.Engine]

def Shows (t : EntityType α) (alike : α → α → Prop) (id : String) (a : α) (db : Database) : Prop :=
  ∃ b, findById t id db = (.ok (some b), db) ∧ alike b a

/-- An entity without id is saved as one document more, under an id that is new. -/
structure Inserts (t : EntityType α) (alike : α → α → Prop) (a : α) (id : String)
    (db after : Database) : Prop where
  save_eq : save t a db = (.ok (t.withId id a), after)
  id?_eq : t.id? (t.withId id a) = some id
  fresh : ¬ db.Stores t.collection id
  edits : ∃ d, hasStringId id d ∧
    Edits t.collection (db.documents t.collection ++ [d]) db after
  shows : Shows t alike id (t.withId id a) after

structure Replaces (t : EntityType α) (alike : α → α → Prop) (a : α) (id : String)
    (db after : Database) : Prop where
  save_eq : save t a db = (.ok a, after)
  edits : ∃ before old new rest, db.documents t.collection = before ++ old :: rest ∧
    hasStringId id old ∧ hasStringId id new ∧
    Edits t.collection (before ++ new :: rest) db after
  shows : Shows t alike id a after

structure Deletes (t : EntityType α) (a : α) (id : String) (db after : Database) : Prop where
  delete_eq : delete t a db = (.ok (), after)
  edits : Edits t.collection ((db.documents t.collection).filter (!hasStringId id ·)) db after
  gone : findById t id after = (.ok none, after)

section

variable {t : EntityType α} {alike : α → α → Prop} {a : α} {fs : Fields Json} {db : Database}
  {id : String}

theorem findById_of_none (hname : Store.accepts t.collection)
    (hids : StringIds (db.documents t.collection)) (h : ¬ db.Stores t.collection id) :
    findById t id db = (.ok none, db) := by
  have hnone : (db.documents t.collection).find? (hasStringId id) = none :=
    List.find?_eq_none.2 fun d hd hid => h ⟨d, hd, hid⟩
  simp only [findById, Database.bind_apply, Database.perform_findOne hname hids, hnone,
    Database.pure_apply]

theorem findById_of_first (hname : Store.accepts t.collection)
    (hids : StringIds (db.documents t.collection)) {before rest : List Json} {d : Json}
    (hds : db.documents t.collection = before ++ d :: rest)
    (hbefore : ∀ e ∈ before, ¬ hasStringId id e) (hd : hasStringId id d) :
    findById t id db = ((t.ofDocument d).map some, db) := by
  have hfind : (db.documents t.collection).find? (hasStringId id) = some d := by
    rw [hds, Collection.find?_append_of_absent hbefore, List.find?_cons_of_pos hd]
  simp only [findById, Database.bind_apply, Database.perform_findOne hname hids, hfind,
    Database.lift_apply]
  cases t.ofDocument d <;> rfl

theorem shows_of_first (hname : Store.accepts t.collection)
    (hids : StringIds (db.documents t.collection)) {before rest : List Json} {gs : Fields Json}
    (hds : db.documents t.collection = before ++ .object gs :: rest)
    (hbefore : ∀ d ∈ before, ¬ hasStringId id d) (hid : hasStringId id (.object gs))
    (ha : t.Maps alike a fs) (hgs : gs.Perm fs) : Shows t alike id a db := by
  obtain ⟨b, hb, halike⟩ := ha.ofDocument hgs
  refine ⟨b, ?_, halike⟩
  rw [findById_of_first hname hids hds hbefore hid, hb]
  rfl

theorem save_of_unsaved (ha : t.Maps alike a fs) (hid : t.id? a = none) :
    save t a db =
      match Database.perform t.collection
          (.insert (.object (Fields.swapErase idKey fs))) db with
      | (.ok (.string id), after) => (.ok (t.withId id a), after)
      | (.ok id, after) => (.error (.invalidDocument (.idNotAString id)), after)
      | (.error e, after) => (.error e, after) := by
  simp only [save, Database.bind_apply, ha.toFields_eq, Database.lift_apply, hid]
  rcases Database.perform t.collection (.insert (.object (Fields.swapErase idKey fs))) db with
    ⟨_ | id, after⟩
  · rfl
  · cases id <;> rfl

theorem save_of_saved (ha : t.Maps alike a fs) (hid : t.id? a = some id) :
    save t a db =
      match Database.perform t.collection
          (.update (idFilter id) (.object (Fields.swapErase idKey fs))) db with
      | (.ok 0, after) => (.error (.documentNotFound id), after)
      | (.ok _, after) => (.ok a, after)
      | (.error e, after) => (.error e, after) := by
  simp only [save, Database.bind_apply, ha.toFields_eq, Database.lift_apply, hid]
  rcases Database.perform t.collection
    (.update (idFilter id) (.object (Fields.swapErase idKey fs))) db with ⟨_ | _ | n, after⟩ <;> rfl

theorem inserts (ha : t.Faithful alike a fs) (hname : Store.accepts t.collection)
    (hpreset : db.preset = none) (hids : StringIds (db.documents t.collection))
    (hid : t.id? a = none) (hnext : db.nextId = .string id) (h : ¬ db.Stores t.collection id) :
    ∃ after, Inserts t alike a id db after := by
  obtain ⟨after, hinsert, hedits⟩ :=
    Database.perform_insert_of_fresh hname hpreset ha.get?_erased hnext h
  obtain ⟨gs, hgs, hmaps⟩ := ha.withId id
  have hget := Fields.get?_perm (Fields.nodup_keys_insert ha.nodup _) hgs idKey
  rw [Fields.get?_insert_self] at hget
  have hd : hasStringId id
      (.object (Fields.insert idKey (.string id) (Fields.swapErase idKey fs))) :=
    Collection.hasStringId_of_get? (Fields.get?_insert_self ..)
  have hids' : StringIds (after.documents t.collection) := by
    rw [hedits.documents]
    rw [← List.append_nil (db.documents t.collection)] at hids
    exact hids.put hd
  refine ⟨after, ?_, ?_, h, ⟨_, hd, hedits⟩, ?_⟩
  · rw [save_of_unsaved ha.toMaps hid, hinsert]
  · rw [hmaps.id?_eq]
    exact Collection.stringId?_eq_some.2 hget
  · refine shows_of_first hname hids' hedits.documents (fun d hmem hd => h ⟨d, hmem, hd⟩) hd hmaps ?_
    exact (Fields.insert_swapErase_perm ha.nodup idKey _).trans hgs.symm

theorem save_of_first (ha : t.Maps alike a fs) (hname : Store.accepts t.collection)
    (hids : StringIds (db.documents t.collection)) (hid : t.id? a = some id)
    {before rest : List Json} {old : Json} (hds : db.documents t.collection = before ++ old :: rest)
    (hbefore : ∀ d ∈ before, ¬ hasStringId id d) (hold : hasStringId id old) :
    ∃ after, save t a db = (.ok a, after) ∧ Edits t.collection
      (before ++ .object ((idKey, .string id) :: Fields.swapErase idKey fs) :: rest) db after := by
  -- an entity with an id takes the place of the first document with this id, and the id comes in
  -- front of its other fields
  obtain ⟨after, hupdate, hedits⟩ :=
    Database.perform_update_of_first (Fields.swapErase idKey fs) hname hids hds hbefore hold
  have habsent := Fields.not_mem_keys_swapErase ha.nodup idKey
  rw [Collection.replacement_of_absent hold habsent] at hedits
  refine ⟨after, ?_, hedits⟩
  rw [save_of_saved ha hid, hupdate]
  rfl

theorem replaces (ha : t.Maps alike a fs) (hname : Store.accepts t.collection)
    (hids : StringIds (db.documents t.collection)) (hid : t.id? a = some id)
    (h : db.Stores t.collection id) : ∃ after, Replaces t alike a id db after := by
  obtain ⟨before, old, rest, hds, hbefore, hold⟩ := h.first
  obtain ⟨after, hsave, hedits⟩ := save_of_first ha hname hids hid hds hbefore hold
  have hnew : hasStringId id (.object ((idKey, .string id) :: Fields.swapErase idKey fs)) :=
    Collection.hasStringId_of_get? rfl
  have hids' : StringIds (after.documents t.collection) := by
    have hothers : (before ++ rest).Sublist (before ++ old :: rest) :=
      (List.sublist_cons_self old rest).append_left before
    rw [hedits.documents]
    exact (hids.of_sublist (hds ▸ hothers)).put hnew
  refine ⟨after, hsave, ⟨before, old, _, rest, hds, hold, hnew, hedits⟩, ?_⟩
  exact shows_of_first hname hids' hedits.documents hbefore hnew ha
    (Fields.cons_swapErase_perm (ha.get?_idKey hid))

theorem deletes (hname : Store.accepts t.collection)
    (hids : StringIds (db.documents t.collection)) (hid : t.id? a = some id) :
    ∃ after, Deletes t a id db after := by
  obtain ⟨n, after, hremove, hedits⟩ := Database.perform_remove hname hids id
  refine ⟨after, ?_, hedits, ?_⟩
  · simp only [delete, hid, Database.discard_apply, hremove]
  · apply findById_of_none hname
    · rw [hedits.documents]
      exact hids.of_sublist List.filter_sublist
    · rintro ⟨d, hd, hid⟩
      rw [hedits.documents] at hd
      simpa [hid] using (List.mem_filter.1 hd).2

theorem save_of_refused (ha : t.Maps alike a fs) (hname : ¬ Store.accepts t.collection) :
    save t a db = (.error (.invalidDocument (.collectionName t.collection)), db) := by
  cases hid : t.id? a with
  | none => rw [save_of_unsaved ha hid, Database.perform_of_refused db hname]
  | some id => rw [save_of_saved ha hid, Database.perform_of_refused db hname]

theorem delete_of_refused (hname : ¬ Store.accepts t.collection) (hid : t.id? a = some id) :
    delete t a db = (.error (.invalidDocument (.collectionName t.collection)), db) := by
  simp only [delete, hid, Database.discard_apply, Database.perform_of_refused db hname]

theorem delete_of_unsaved (hid : t.id? a = none) :
    delete t a db = (.error (.invalidDocument (.unsavedEntity t.collection)), db) := by
  simp only [delete, hid, Database.throw_apply]

theorem inserts_or_collides (ha : t.Faithful alike a fs) (hname : Store.accepts t.collection)
    (hpreset : db.preset = none) (hids : StringIds (db.documents t.collection))
    (hid : t.id? a = none) :
    (∃ id after, Inserts t alike a id db after) ∨
      ∃ id, db.nextId = .string id ∧ db.Stores t.collection id ∧
        save t a db =
          (.error (.invalidDocument (.duplicateId (.string id) t.collection)), db) := by
  obtain ⟨id, hnext⟩ : ∃ id, db.nextId = .string id := ⟨_, rfl⟩
  by_cases h : db.Stores t.collection id
  · refine .inr ⟨id, hnext, h, ?_⟩
    rw [save_of_unsaved ha.toMaps hid,
      Database.perform_insert_of_stored hname hpreset ha.get?_erased hnext h]
  · exact .inl ⟨id, inserts ha hname hpreset hids hid hnext h⟩

theorem save_of_missing (ha : t.Maps alike a fs) (hname : Store.accepts t.collection)
    (hids : StringIds (db.documents t.collection)) (hid : t.id? a = some id)
    (h : ¬ db.Stores t.collection id) : save t a db = (.error (.documentNotFound id), db) := by
  rw [save_of_saved ha hid, Database.perform_update_of_absent hname hids h]
  rfl

theorem unchanged_of_save (ha : t.Faithful alike a fs) (hpreset : db.preset = none)
    (hids : StringIds (db.documents t.collection)) {e : Error} {after : Database}
    (h : save t a db = (.error e, after)) : after = db := by
  by_cases hname : Store.accepts t.collection
  · cases hid : t.id? a with
    | none =>
      obtain ⟨_, _, hinserts⟩ | ⟨_, _, _, hcollides⟩ :=
        inserts_or_collides ha hname hpreset hids hid
      · nomatch h.symm.trans hinserts.save_eq
      · exact congrArg Prod.snd (h.symm.trans hcollides)
    | some id =>
      by_cases hstored : db.Stores t.collection id
      · obtain ⟨_, hreplaces⟩ := replaces ha.toMaps hname hids hid hstored
        nomatch h.symm.trans hreplaces.save_eq
      · exact congrArg Prod.snd (h.symm.trans (save_of_missing ha.toMaps hname hids hid hstored))
  · exact congrArg Prod.snd (h.symm.trans (save_of_refused ha.toMaps hname))

theorem unchanged_of_delete (hids : StringIds (db.documents t.collection)) {e : Error}
    {after : Database} (h : delete t a db = (.error e, after)) : after = db := by
  cases hid : t.id? a with
  | none => exact congrArg Prod.snd (h.symm.trans (delete_of_unsaved hid))
  | some id =>
    by_cases hname : Store.accepts t.collection
    · obtain ⟨_, hdeletes⟩ := deletes hname hids hid
      nomatch h.symm.trans hdeletes.delete_eq
    · exact congrArg Prod.snd (h.symm.trans (delete_of_refused hname hid))

end

/-- Saving and looking up agree in a store that makes ids itself, for every collection that it
hands out and whose ids are strings, as all are after whatever repositories do.  Where a name is
refused nothing is saved and nothing deleted.  What fails changes nothing, and gives no other
entity. -/
theorem save_findById {t : EntityType α} {alike : α → α → Prop} {a : α} {fs : Fields Json}
    {db : Database} (ha : t.Faithful alike a fs) (hpreset : db.preset = none)
    (hids : StringIds (db.documents t.collection)) :
    (Store.accepts t.collection →
      (t.id? a = none → (∃ id after, Inserts t alike a id db after) ∨
        ∃ id, db.nextId = .string id ∧ db.Stores t.collection id ∧
          save t a db =
            (.error (.invalidDocument (.duplicateId (.string id) t.collection)), db)) ∧
      ∀ id, t.id? a = some id →
        (db.Stores t.collection id → ∃ after, Replaces t alike a id db after) ∧
        (¬ db.Stores t.collection id → save t a db = (.error (.documentNotFound id), db)) ∧
        ∃ after, Deletes t a id db after) ∧
    (¬ Store.accepts t.collection →
      save t a db = (.error (.invalidDocument (.collectionName t.collection)), db) ∧
      ∀ id, t.id? a = some id →
        delete t a db = (.error (.invalidDocument (.collectionName t.collection)), db)) ∧
    (∀ e after, save t a db = (.error e, after) → after = db) ∧
    (∀ e after, delete t a db = (.error e, after) → after = db) ∧
    ∀ requests : List Request, (∀ r ∈ requests, r.WellFormed) →
      (requests.foldl Request.after .empty).HasStringIds := by
  refine ⟨fun hname => ⟨inserts_or_collides ha hname hpreset hids, fun id hid => ⟨?_, ?_, ?_⟩⟩,
    fun hname => ⟨save_of_refused ha.toMaps hname, fun id => delete_of_refused hname⟩,
    fun _ _ => unchanged_of_save ha hpreset hids, fun _ _ => unchanged_of_delete hids,
    fun _ => hasStringIds_foldl Database.hasStringIds_empty⟩
  · exact replaces ha.toMaps hname hids hid
  · exact save_of_missing ha.toMaps hname hids hid
  · exact deletes hname hids hid

end

def people : Database :=
  Request.after .empty (.on (.json "people") (.save (.object [("name", .string "Ann")])))

def numbered : Fields Json := [("_id", .int 7), ("name", .string "Bob"), ("age", .int 40)]

theorem save_findById_numbered :
    (EntityType.json "people").Faithful Json.Reorders (.object numbered) numbered ∧
      people.preset = none ∧ StringIds (people.documents "people") ∧
      ∃ id after, Inserts (.json "people") Json.Reorders (.object numbered) id people after := by
  have hfaithful : (EntityType.json "people").Faithful Json.Reorders (.object numbered) numbered :=
    EntityType.json_faithful "people" (by decide)
  have hpeople : people.HasStringIds := by
    apply keeps_request Database.hasStringIds_empty
    rintro fs ⟨⟩
    decide
  refine ⟨hfaithful, hpeople.preset, hpeople.ids _, ?_⟩
  have hsave := save_findById hfaithful hpeople.preset (hpeople.ids _)
  obtain h | ⟨id, hid, hstored, _⟩ := (hsave.1 (by decide)).1 rfl
  · exact h
  · have hnext : people.nextId = .string "<id#2>" := rfl
    obtain rfl := Json.string.inj (hnext.symm.trans hid)
    have hfresh : ¬ people.Stores "people" "<id#2>" := by decide +kernel
    contradiction

def strays : Database :=
  let stray : Json := .object [("_id", .string "a"), ("n", .int 1)]
  (Database.performUnchecked "bad$name" (.insert stray) .empty).2

theorem save_strays :
    let t := EntityType.json "bad$name"
    let stored : Fields Json := [("_id", .string "a"), ("n", .int 2)]
    let missing : Fields Json := [("_id", .string "b")]
    strays.preset = none ∧ StringIds (strays.documents t.collection) ∧
      t.Faithful Json.Reorders (.object stored) stored ∧
      t.id? (.object stored) = some "a" ∧ strays.Stores t.collection "a" ∧
      (∀ a after, save t (.object stored) strays ≠ (.ok a, after)) ∧
      t.Faithful Json.Reorders (.object missing) missing ∧
      t.id? (.object missing) = some "b" ∧ ¬ strays.Stores t.collection "b" ∧
      ∀ after, save t (.object missing) strays ≠ (.error (.documentNotFound "b"), after) := by
  intro t stored missing
  have hname : ¬ Store.accepts t.collection := by decide
  have hstored : t.Faithful Json.Reorders (.object stored) stored :=
    EntityType.json_faithful _ (by decide)
  have hmissing : t.Faithful Json.Reorders (.object missing) missing :=
    EntityType.json_faithful _ (by decide)
  refine ⟨rfl, by decide +kernel, hstored, rfl, by decide +kernel, ?_, hmissing, rfl,
    by decide +kernel, ?_⟩
  · intro a after h
    nomatch (save_of_refused hstored.toMaps hname).symm.trans h
  · intro after h
    nomatch (save_of_refused hmissing.toMaps hname).symm.trans h

end Repository

end DocQuery
