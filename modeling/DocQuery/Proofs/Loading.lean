import DocQuery.Database.Load
import DocQuery.Proofs.Duplicates
import DocQuery.Proofs.Editing
import DocQuery.Regex.Reader

namespace DocQuery

open Collection (idKey withId lacksId)

theorem countP_cons_toNat {α : Type} (f : α → Bool) (x : α) (xs : List α) :
    (x :: xs).countP f = (f x).toNat + xs.countP f := by
  rw [List.countP_cons, Nat.add_comm]
  cases f x <;> rfl

namespace Database

def prepared (preset : Option Json) : Json → Json
  | .object fs =>
    match preset, Fields.get? idKey fs with
    | some id, none => .object (fs ++ [(idKey, id)])
    | _, _ => .object fs
  | d => d

theorem withPreset_insert (preset : Option Json) (d : Json) :
    withPreset preset (.insert d) = .insert (prepared preset d) := by
  cases d with
  | object fs =>
    cases preset with
    | none => rfl
    | some id =>
      simp only [withPreset, prepared]
      cases Fields.get? idKey fs <;> rfl
  | _ => rfl

end Database

inductive Place where
  | entry (name : String) (value : Json)
  | document (name : String) (d : Json)

namespace Place

open Database (prepared)

def ofFields : Fields Json → List Place
  | [] => []
  | (name, .array ds) :: fs => entry name (.array ds) :: (ds.map (document name) ++ ofFields fs)
  | (name, v) :: fs => entry name v :: ofFields fs

def isDocument : Place → Bool
  | entry _ _ => false
  | document _ _ => true

def fault (db : Database) : Place → Option Error
  | entry name (.array _) =>
    if Store.accepts name then none else some (.invalidDocument (.collectionName name))
  | entry name _ => some (.invalidDocument (.fixtureNotAnArray name))
  | document name d =>
    match prepared db.preset d with
    | .object fs =>
      let id := (withId db.nextId fs).1
      if (db.store.getD name).hasId id then some (.invalidDocument (.duplicateId id name))
      else none
    | _ => some (.invalidDocument .notAnObject)

section

variable (preset : Option Json)

def takesId : Place → Bool
  | entry _ _ => false
  | document _ d => (Operation.insert (prepared preset d)).takesId

def adds (name : String) (fresh : Json) : Place → List Json
  | entry _ _ => []
  | document other d =>
    match prepared preset d with
    | .object fs => if other = name then [.object (withId fresh fs).2] else []
    | _ => []

def added (name : String) : Nat → List Place → List Json
  | _, [] => []
  | n, p :: ps => p.adds preset name (Database.issue (n + 1)) ++
      added name (n + (p.takesId preset).toNat) ps

theorem added_append (name : String) (n : Nat) (ps qs : List Place) :
    added preset name n (ps ++ qs) =
      added preset name n ps ++ added preset name (n + ps.countP (takesId preset)) qs := by
  induction ps generalizing n with
  | nil => rfl
  | cons p ps ih =>
    simp only [List.cons_append, added, ih, countP_cons_toNat, List.append_assoc, Nat.add_assoc]

end

end Place

namespace Database

open Place

variable {db s t : Database} {ps qs : List Place} {name : String}

/-- A database in which some places of a file have been added to what was there before, and that is
the same otherwise. -/
structure Filled (db : Database) (done : List Place) (t : Database) : Prop where
  documents : ∀ name,
    t.documents name = db.documents name ++ added db.preset name db.issued done
  indexes : ∀ name, (t.store.getD name).indexes = (db.store.getD name).indexes
  others : ∀ name, added db.preset name db.issued done = [] →
    t.store.get? name = db.store.get? name
  issued : t.issued = db.issued + done.countP (takesId db.preset)
  preset : t.preset = db.preset
  dropsByName : t.dropsByName = db.dropsByName

theorem Filled.refl (db : Database) : Filled db [] db where
  documents _ := (List.append_nil _).symm
  indexes _ := rfl
  others _ _ := rfl
  issued := rfl
  preset := rfl
  dropsByName := rfl

theorem Filled.trans (hs : Filled db ps s) (ht : Filled s qs t) : Filled db (ps ++ qs) t := by
  have hadded : ∀ name, added db.preset name db.issued (ps ++ qs) =
      added db.preset name db.issued ps ++ added s.preset name s.issued qs := by
    intro name
    rw [added_append, hs.preset, hs.issued]
  exact {
    documents := fun name => by
      rw [ht.documents, hs.documents, hadded, List.append_assoc]
    indexes := fun name => (ht.indexes name).trans (hs.indexes name)
    others := fun name h => by
      obtain ⟨hps, hqs⟩ := List.append_eq_nil_iff.1 (hadded name ▸ h)
      rw [ht.others name hqs, hs.others name hps]
    issued := by rw [ht.issued, hs.issued, hs.preset, List.countP_append, Nat.add_assoc]
    preset := ht.preset.trans hs.preset
    dropsByName := ht.dropsByName.trans hs.dropsByName }

theorem get?_of_documents_ne_nil (h : db.documents name ≠ []) :
    db.store.get? name = some (db.store.getD name) := by
  obtain ⟨d, hd⟩ := List.exists_mem_of_ne_nil _ h
  obtain ⟨c, hc, _⟩ := get?_of_documents hd
  rw [hc, Store.getD_of_some hc]

theorem Filled.unique (hs : Filled db ps s) (ht : Filled db ps t) : s = t := by
  have hstore : s.store = t.store := by
    apply Store.ext_get?
    intro name
    by_cases hadded : added db.preset name db.issued ps = []
    · rw [hs.others name hadded, ht.others name hadded]
    · -- a collection that something was added to exists in both
      have hne : db.documents name ++ added db.preset name db.issued ps ≠ [] := by simp [hadded]
      rw [get?_of_documents_ne_nil (hs.documents name ▸ hne),
        get?_of_documents_ne_nil (ht.documents name ▸ hne)]
      congr 1
      calc s.store.getD name
        _ = ⟨s.documents name, (s.store.getD name).indexes⟩ := rfl
        _ = ⟨t.documents name, (t.store.getD name).indexes⟩ := by
          rw [hs.documents, ht.documents, hs.indexes, ht.indexes]
        _ = t.store.getD name := rfl
  have hissued := hs.issued.trans ht.issued.symm
  have hpreset := hs.preset.trans ht.preset.symm
  have hdrops := hs.dropsByName.trans ht.dropsByName.symm
  cases s
  cases t
  simp_all

section

variable [Regex.Engine]

def visit : Place → Action Nat
  | .entry name (.array _) => do
    collection name
    return 0
  | .entry name _ => throw (.invalidDocument (.fixtureNotAnArray name))
  | .document name d => do
    let _ ← performUnchecked name (withPreset (← get).preset (.insert d))
    return 1

def visitAll : List Place → Action Nat
  | [] => return 0
  | p :: ps => do
    let n ← visit p
    return n + (← visitAll ps)

theorem visitAll_append (ps qs : List Place) :
    visitAll (ps ++ qs) = do
      let n ← visitAll ps
      return n + (← visitAll qs) := by
  induction ps with
  | nil => simp only [List.nil_append, visitAll, pure_bind, Nat.zero_add, bind_pure]
  | cons p ps ih => simp only [List.cons_append, visitAll, ih, bind_assoc, pure_bind, Nat.add_assoc]

theorem insertAll_eq (name : String) (ds : List Json) :
    insertAll name ds = visitAll (ds.map (.document name)) := by
  induction ds with
  | nil => rfl
  | cons d ds ih =>
    simp only [insertAll, List.map_cons, visitAll, visit, ih, bind_assoc, pure_bind, Nat.add_comm]

theorem loadFields_eq (fs : Fields Json) : loadFields fs = visitAll (ofFields fs) := by
  induction fs with
  | nil => rfl
  | cons f fs ih =>
    obtain ⟨name, value⟩ := f
    cases value with
    | array ds =>
      simp only [loadFields, ofFields, visitAll, visit, visitAll_append, insertAll_eq, ih,
        bind_assoc, pure_bind, Nat.zero_add]
    -- the run ends here as well, so the places behind do not matter
    | _ => rfl

def appending (db : Database) (name : String) (fs : Fields Json) : Database :=
  let longer : Collection :=
    ⟨db.documents name ++ [.object (withId db.nextId fs).2], (db.store.getD name).indexes⟩
  { db with
    store := db.store.commit name (some longer)
    issued := db.issued + (lacksId fs).toNat }

theorem visit_document {d : Json} {fs : Fields Json} (h : prepared db.preset d = .object fs)
    (name : String) :
    visit (.document name d) db =
      if (db.store.getD name).hasId (withId db.nextId fs).1 then
        (.error (.invalidDocument (.duplicateId (withId db.nextId fs).1 name)), db)
      else (.ok 1, db.appending name fs) := by
  simp only [visit, bind_apply, get_apply, withPreset_insert, performUnchecked_apply,
    Store.perform_insert, h, Collection.insert]
  by_cases hid : (db.store.getD name).hasId (withId db.nextId fs).1
  · simp only [if_pos hid]
  · simp only [if_neg hid]
    rfl

omit [Regex.Engine] in
theorem filled_appending {d : Json} {fs : Fields Json} (h : prepared db.preset d = .object fs)
    (name : String) : Filled db [.document name d] (db.appending name fs) := by
  have hself : (db.appending name fs).store.getD name =
      ⟨db.documents name ++ [.object (withId db.nextId fs).2], (db.store.getD name).indexes⟩ :=
    Store.getD_of_some (Store.get?_commit_self ..)
  have hother : ∀ {other}, other ≠ name →
      (db.appending name fs).store.get? other = db.store.get? other :=
    fun ho => Store.get?_commit_of_ne ho ..
  have hadded : ∀ other, added db.preset other db.issued [.document name d] =
      if name = other then [.object (withId db.nextId fs).2] else [] := by
    intro other
    simp only [added, adds, h, List.append_nil]
    rfl
  refine ⟨fun other => ?_, fun other => ?_, fun other hnil => ?_, ?_, rfl, rfl⟩
  · by_cases ho : other = name
    · rw [hadded, ho, if_pos rfl, documents, hself]
    · rw [hadded, if_neg (Ne.symm ho), List.append_nil, documents, Store.getD, hother ho]
      rfl
  · by_cases ho : other = name
    · rw [ho, hself]
    · rw [Store.getD, hother ho]
      rfl
  · refine hother fun ho => ?_
    rw [hadded, ho, if_pos rfl] at hnil
    contradiction
  · rw [countP_cons_toNat, takesId, h]
    rfl

theorem visit_cases (db : Database) (p : Place) :
    (∃ e, p.fault db = some e ∧ visit p db = (.error e, db)) ∨
      p.fault db = none ∧ ∃ s, visit p db = (.ok p.isDocument.toNat, s) ∧ Filled db [p] s := by
  cases p with
  | entry name value =>
    have hfilled : Filled db [.entry name value] db :=
      ⟨fun _ => (List.append_nil _).symm, fun _ => rfl, fun _ _ => rfl, rfl, rfl, rfl⟩
    cases value with
    | array ds =>
      by_cases h : Store.accepts name
      · exact .inr ⟨by rw [fault, if_pos h], db, by simp [visit, collection, h, isDocument], hfilled⟩
      · exact .inl ⟨_, by rw [fault, if_neg h], by simp [visit, collection, h]⟩
    | _ => exact .inl ⟨_, rfl, rfl⟩
  | document name d =>
    cases h : prepared db.preset d with
    | object fs =>
      have hvisit := visit_document h name
      by_cases hid : (db.store.getD name).hasId (withId db.nextId fs).1
      · rw [if_pos hid] at hvisit
        exact .inl ⟨_, by simp only [fault, h, if_pos hid], hvisit⟩
      · rw [if_neg hid] at hvisit
        exact .inr ⟨by simp only [fault, h, if_neg hid], _, hvisit, filled_appending h name⟩
    | _ =>
      refine .inl ⟨.invalidDocument .notAnObject, by simp only [fault, h], ?_⟩
      simp only [visit, bind_apply, get_apply, withPreset_insert, performUnchecked_apply,
        Store.perform_insert, h, Collection.insert]

/-- Places that a load passes: it does not have to stop at any of them once those in front have
been added. -/
def Passes (db : Database) (ps : List Place) : Prop :=
  ∀ before p after, ps = before ++ p :: after → ∃ s, Filled db before s ∧ p.fault s = none

omit [Regex.Engine] in
theorem passes_nil (db : Database) : Passes db [] := by
  simp [Passes]

omit [Regex.Engine] in
theorem Passes.cons {p : Place} (hp : p.fault db = none) (hs : Filled db [p] s)
    (hps : Passes s ps) : Passes db (p :: ps) := by
  intro before q after heq
  obtain ⟨rfl, hhead⟩ | ⟨front, rfl, htail⟩ := List.cons_eq_append_iff.1 heq
  · cases hhead
    exact ⟨db, .refl db, hp⟩
  · obtain ⟨t, ht, hq⟩ := hps front q after htail
    exact ⟨t, hs.trans ht, hq⟩

theorem visitAll_cases (db : Database) (ps : List Place) :
    ∃ done rest t, ps = done ++ rest ∧ Passes db done ∧ Filled db done t ∧
      ((rest = [] ∧ visitAll ps db = (.ok (ps.countP isDocument), t)) ∨
        ∃ p after e, rest = p :: after ∧ p.fault t = some e ∧ visitAll ps db = (.error e, t)) := by
  -- the places behind the first are run through in the database that it leaves
  induction ps generalizing db with
  | nil => exact ⟨[], [], db, rfl, passes_nil db, .refl db, .inl ⟨rfl, rfl⟩⟩
  | cons p ps ih =>
    obtain ⟨e, hfault, hvisit⟩ | ⟨hsound, s, hvisit, hs⟩ := visit_cases db p
    · refine ⟨[], p :: ps, db, rfl, passes_nil db, .refl db, .inr ⟨p, ps, e, rfl, hfault, ?_⟩⟩
      rw [visitAll, bind_apply, hvisit]
    · obtain ⟨done, rest, t, rfl, hpasses, ht, hend⟩ := ih s
      refine ⟨p :: done, rest, t, rfl, hpasses.cons hsound hs, hs.trans ht, ?_⟩
      simp only [visitAll, bind_apply, hvisit]
      obtain ⟨hrest, hall⟩ | ⟨q, after, e, hrest, hq, hall⟩ := hend
      · exact .inl ⟨hrest, by rw [hall, countP_cons_toNat]; rfl⟩
      · exact .inr ⟨q, after, e, hrest, hq, by rw [hall]⟩

/-- A load inserts the documents of a file in the order of the file.  It either gets to the end,
and gives their number, or it stops at the first place that does not let it pass.  In both cases
the documents in front are added to what was there, and nothing else is changed. -/
theorem load_in_order {content : String} {fs : Fields Json}
    (h : Json.ofText? content = some (.object fs)) (db : Database) :
    ∃ done rest t, ofFields fs = done ++ rest ∧ Passes db done ∧ Filled db done t ∧
      (∀ s, Filled db done s → s = t) ∧
      ((rest = [] ∧ load content db = (.ok ((ofFields fs).countP isDocument), t)) ∨
        ∃ p after e, rest = p :: after ∧ p.fault t = some e ∧
          load content db = (.error e, t)) := by
  have hload : load content db = visitAll (ofFields fs) db := by
    rw [load, h, ← loadFields_eq]
  obtain ⟨done, rest, t, hplaces, hpasses, ht, hend⟩ := visitAll_cases db (ofFields fs)
  rw [← hload] at hend
  exact ⟨done, rest, t, hplaces, hpasses, ht, fun s hs => hs.unique ht, hend⟩

end

def onePerson : Database :=
  { empty with store := Store.empty.set "people" ⟨[.object [("_id", .string "a")]], []⟩ }

def peopleAndPets : String :=
  "\x7b\"people\":[\x7b\"n\":1\x7d],\"pets\":[\x7b\"_id\":1\x7d,\x7b\"_id\":1\x7d,\x7b\x7d]\x7d"

theorem load_in_order_duplicate :
    let pet := Json.object [("_id", .int 1)]
    let fs := [("people", .array [.object [("n", .int 1)]]), ("pets", .array [pet, pet, .object []])]
    Json.ofText? peopleAndPets = some (.object fs) ∧
      ∃ done rest t, ofFields fs = done ++ rest ∧ Filled onePerson done t ∧
        load peopleAndPets onePerson =
          (.error (.invalidDocument (.duplicateId (.int 1) "pets")), t) ∧
        t.documents "people" = [.object [("_id", .string "a")],
          .object [("n", .int 1), ("_id", .string "<id#1>")]] ∧
        t.documents "pets" = [pet] := by
  intro pet fs
  have h : Json.ofText? peopleAndPets = some (.object fs) := by with_unfolding_all rfl
  have hload : load peopleAndPets onePerson = loadFields fs onePerson := by rw [load, h]
  have hduplicate : (load peopleAndPets onePerson).1 =
      .error (.invalidDocument (.duplicateId (.int 1) "pets")) := by
    rw [hload]
    rfl
  obtain ⟨done, rest, t, hplaces, _, ht, _, hend⟩ := load_in_order h onePerson
  obtain ⟨_, hall⟩ | ⟨p, after, e, _, _, hstopped⟩ := hend
  · rw [hall] at hduplicate
    contradiction
  · rw [hstopped] at hduplicate
    cases hduplicate
    obtain rfl : (loadFields fs onePerson).2 = t := by rw [← hload, hstopped]
    exact ⟨h, done, rest, _, hplaces, ht, hstopped, rfl, rfl⟩

end Database

end DocQuery
