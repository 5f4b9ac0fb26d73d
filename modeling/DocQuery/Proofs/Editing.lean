import DocQuery.Proofs.Identity

namespace DocQuery

open Collection (idKey hasStringId StringIds)
open Repository (idFilter)

namespace Database

def Stores (db : Database) (name id : String) : Prop := ∃ d ∈ db.documents name, hasStringId id d

instance (db : Database) (name id : String) : Decidable (db.Stores name id) :=
  inferInstanceAs (Decidable (∃ d ∈ db.documents name, hasStringId id d))

/-- A change of the documents of one collection and of nothing else in the store. -/
structure Edits (name : String) (ds : List Json) (db after : Database) : Prop where
  documents : after.documents name = ds
  indexes : (after.store.getD name).indexes = (db.store.getD name).indexes
  others : ∀ other, other ≠ name → after.store.get? other = db.store.get? other

section

variable {α : Type} {db : Database} {name : String}

theorem get?_of_documents {d : Json} (h : d ∈ db.documents name) :
    ∃ c, db.store.get? name = some c ∧ c.documents = db.documents name := by
  cases hc : db.store.get? name with
  | none =>
    rw [documents, Store.getD_of_none hc] at h
    contradiction
  | some c => exact ⟨c, rfl, by rw [documents, Store.getD_of_some hc]⟩

theorem same_string_iff {v : Json} {s : String} : v.same (.string s) ↔ v = .string s := by
  cases v <;> simp [Json.same]

variable [Regex.Engine]

theorem perform_apply {op : Operation α} (hname : Store.accepts name)
    (hop : withPreset db.preset op = op) :
    perform name op db =
      match op.change name db.nextId (db.store.get? name) with
      | .ok (x, c) => (.ok x,
          { db with store := db.store.commit name c, issued := db.issued + op.takesId.toNat })
      | .error e => (.error e, db) := by
  rw [perform_of_accepts db hname, hop, performUnchecked_apply,
    Store.Effect.perform_makes name db.nextId op db.store]
  cases op.change name db.nextId (db.store.get? name) <;> rfl

theorem perform_unchanged {op : Operation α} {x : α} (hname : Store.accepts name)
    (hop : withPreset db.preset op = op) (hid : op.takesId = false)
    (hchange : op.change name db.nextId (db.store.get? name) = .ok (x, db.store.get? name)) :
    perform name op db = (.ok x, db) := by
  rw [perform_apply hname hop, hchange, hid]
  simp only [Store.commit_get?]
  rfl

theorem perform_edits {op : Operation α} {x : α} {c : Option Collection} {ds : List Json}
    (hname : Store.accepts name) (hop : withPreset db.preset op = op)
    (hchange : op.change name db.nextId (db.store.get? name) = .ok (x, c))
    (hdocs : (c.getD .empty).documents = ds)
    (hindexes : (c.getD .empty).indexes = (db.store.getD name).indexes) :
    ∃ after, perform name op db = (.ok x, after) ∧ Edits name ds db after := by
  rw [perform_apply hname hop, hchange]
  refine ⟨_, rfl, ?_, ?_, fun other ho => Store.get?_commit_of_ne ho ..⟩
  · rw [documents, Store.getD, Store.get?_commit_self, hdocs]
  · rw [Store.getD, Store.get?_commit_self, hindexes]

variable {id : String} {fs : Fields Json}

theorem perform_findOne (hname : Store.accepts name) (hids : StringIds (db.documents name))
    (id : String) :
    perform name (.findOne (idFilter id)) db =
      (.ok ((db.documents name).find? (hasStringId id)), db) := by
  have hfound : (db.store.getD name).findOne (idFilter id) =
      .ok ((db.documents name).find? (hasStringId id)) := by
    rw [Collection.findOne_of_evaluates (hids.evaluates id), ← hids.find? id]
    rfl
  exact perform_unchanged hname rfl rfl (congrArg (Except.map (·, db.store.get? name)) hfound)

theorem isSelected_iff {d : Json} (hids : StringIds (db.documents name))
    (hd : d ∈ db.documents name) :
    Collection.isSelected (idFilter id) d ↔ hasStringId id d := by
  rw [Collection.isSelected_idFilter (hids d hd)]

theorem perform_update_of_absent (hname : Store.accepts name)
    (hids : StringIds (db.documents name)) (h : ¬ db.Stores name id) :
    perform name (.update (idFilter id) (.object fs)) db = (.ok 0, db) := by
  apply perform_unchanged hname rfl rfl
  cases hc : db.store.get? name with
  | none => rfl
  | some c =>
    have hdocs : db.documents name = c.documents := congrArg _ (Store.getD_of_some hc)
    have hnone : ∀ d ∈ c.documents, ¬ Collection.isSelected (idFilter id) d := by
      intro d hd hsel
      rw [← hdocs] at hd
      exact h ⟨d, hd, (isSelected_iff hids hd).1 hsel⟩
    have hevaluates := hids.evaluates id
    rw [hdocs] at hevaluates
    simp only [Operation.change, Collection.update,
      Collection.replaceFirst_of_unselected fs hevaluates hnone]
    rfl

omit [Regex.Engine] in
theorem Stores.first (h : db.Stores name id) : ∃ before d rest,
    db.documents name = before ++ d :: rest ∧ (∀ e ∈ before, ¬ hasStringId id e) ∧
      hasStringId id d := by
  obtain ⟨d, hd⟩ := Option.isSome_iff_exists.1 (List.find?_isSome.2 h)
  obtain ⟨hid, before, rest, hds, hbefore⟩ := List.find?_eq_some_iff_append.1 hd
  refine ⟨before, d, rest, hds, fun e he => ?_, hid⟩
  simpa using hbefore e he

theorem perform_update_of_first (fs : Fields Json) (hname : Store.accepts name)
    (hids : StringIds (db.documents name)) {before rest : List Json} {d : Json}
    (hds : db.documents name = before ++ d :: rest) (hbefore : ∀ e ∈ before, ¬ hasStringId id e)
    (hd : hasStringId id d) : ∃ after,
    perform name (.update (idFilter id) (.object fs)) db = (.ok 1, after) ∧
      Edits name (before ++ Collection.replacement d fs :: rest) db after := by
  have hmem : d ∈ db.documents name := hds ▸ by simp
  obtain ⟨c, hc, hdocs⟩ := get?_of_documents hmem
  have hselected : ∀ e ∈ before, ¬ Collection.isSelected (idFilter id) e := by
    intro e he hsel
    have hmem : e ∈ db.documents name := hds ▸ List.mem_append_left _ he
    exact hbefore e he ((isSelected_iff hids hmem).1 hsel)
  have hevaluates := hids.evaluates id
  rw [hds] at hevaluates
  have hreplaced := Collection.replaceFirst_of_selected fs hevaluates hselected
    ((isSelected_iff hids hmem).2 hd)
  have hindexes : (db.store.getD name).indexes = c.indexes := by rw [Store.getD_of_some hc]
  refine perform_edits hname rfl (c := some ⟨_, _⟩) ?_ rfl hindexes.symm
  simp only [hc, Operation.change, Collection.update, hdocs, hds, hreplaced]
  rfl

omit [Regex.Engine] in
theorem hasId_iff : (db.store.getD name).hasId (.string id) ↔ db.Stores name id := by
  rw [Collection.hasId, List.any_eq_true]
  refine exists_congr fun d => and_congr_right fun _ => ?_
  rw [Option.any_eq_true]
  constructor
  · rintro ⟨v, hv, hsame⟩
    exact Collection.hasStringId_of_get? (same_string_iff.1 hsame ▸ hv)
  · intro h
    exact ⟨_, Collection.get?_of_hasStringId h, same_string_iff.2 rfl⟩

theorem change_insert (db : Database) (name : String) (document : Json) :
    (Operation.insert document).change name db.nextId (db.store.get? name) =
      ((db.store.getD name).insert name db.nextId document).map fun r => (r.1, some r.2) := rfl

theorem perform_insert_of_stored (hname : Store.accepts name) (hpreset : db.preset = none)
    (hfs : Fields.get? idKey fs = none) (hid : db.nextId = .string id) (h : db.Stores name id) :
    perform name (.insert (.object fs)) db =
      (.error (.invalidDocument (.duplicateId (.string id) name)), db) := by
  have hinsert : (db.store.getD name).insert name db.nextId (.object fs) =
      .error (.invalidDocument (.duplicateId (.string id) name)) := by
    simp only [Collection.insert, Collection.withId_of_absent _ hfs, hid, if_pos (hasId_iff.2 h)]
  rw [perform_apply hname (withPreset_of_none db hpreset _), change_insert, hinsert]
  rfl

theorem perform_insert_of_fresh (hname : Store.accepts name) (hpreset : db.preset = none)
    (hfs : Fields.get? idKey fs = none) (hid : db.nextId = .string id)
    (h : ¬ db.Stores name id) : ∃ after,
    perform name (.insert (.object fs)) db = (.ok (.string id), after) ∧
      Edits name (db.documents name ++ [.object (Fields.insert idKey (.string id) fs)]) db
        after := by
  have hinsert : (db.store.getD name).insert name db.nextId (.object fs) =
      .ok (.string id, ⟨db.documents name ++ [.object (Fields.insert idKey (.string id) fs)],
        (db.store.getD name).indexes⟩) := by
    simp only [Collection.insert, Collection.withId_of_absent _ hfs, hid,
      if_neg (mt hasId_iff.1 h)]
    rfl
  refine perform_edits hname (withPreset_of_none db hpreset _) (c := some ⟨_, _⟩) ?_ rfl rfl
  rw [change_insert, hinsert]
  rfl

theorem perform_remove (hname : Store.accepts name) (hids : StringIds (db.documents name))
    (id : String) : ∃ n after, perform name (.remove (idFilter id)) db = (.ok n, after) ∧
      Edits name ((db.documents name).filter (!hasStringId id ·)) db after := by
  obtain ⟨found, s, hfinds⟩ : ∃ found s, db.store.Finds name (idFilter id) found s :=
    ⟨_, _, Store.finds_of_evaluates (hids.evaluates id)⟩
  have hrest := Store.getD_of_rest hfinds.rest
  refine ⟨found.length, { db with store := s }, ?_, ?_, ?_, hfinds.others⟩
  · rw [perform_of_accepts db hname]
    exact (Repository.performUnchecked_of_finds hfinds).2
  · rw [documents, hrest, ← hids.reject id]
    rfl
  · rw [hrest]
    rfl

end

end Database

end DocQuery
