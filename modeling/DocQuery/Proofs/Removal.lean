import DocQuery.Proofs.Database
import DocQuery.Repository.Basic
import Mathlib.Data.List.Basic

namespace DocQuery

namespace Collection

variable [Regex.Engine]

def isSelected (filter d : Json) : Bool :=
  match Filter.holds d filter with
  | .ok b => b
  | .error _ => false

def Evaluates (filter : Json) (ds : List Json) : Prop :=
  ∀ d ∈ ds, Filter.holds d filter = .ok (isSelected filter d)

inductive FirstFault (filter : Json) : List Json → QueryError → Prop
  | here {d ds e} : Filter.holds d filter = .error e → FirstFault filter (d :: ds) e
  | later {d ds e b} : Filter.holds d filter = .ok b → FirstFault filter ds e →
      FirstFault filter (d :: ds) e

theorem isSelected_of_ok {filter d : Json} {b : Bool} (h : Filter.holds d filter = .ok b) :
    isSelected filter d = b := by
  rw [isSelected, h]

theorem evaluates_or_firstFault (filter : Json) (ds : List Json) :
    Evaluates filter ds ∨ ∃ e, FirstFault filter ds e := by
  induction ds with
  | nil => exact .inl nofun
  | cons d ds ih =>
    cases hd : Filter.holds d filter with
    | error e => exact .inr ⟨e, .here hd⟩
    | ok b =>
      obtain h | ⟨e, h⟩ := ih
      · refine .inl (List.forall_mem_cons.2 ⟨?_, h⟩)
        rw [hd, isSelected_of_ok hd]
      · exact .inr ⟨e, .later hd h⟩

theorem selectFrom_of_evaluates {filter : Json} {ds : List Json} (h : Evaluates filter ds) :
    selectFrom (some filter) ds = .ok (ds.filter (isSelected filter)) := by
  induction ds with
  | nil => rfl
  | cons d ds ih =>
    obtain ⟨hd, hds⟩ := List.forall_mem_cons.1 h
    simp only [selectFrom, selects, hd, ih hds, Except.map, List.filter_cons]

theorem rejectFrom_of_evaluates {filter : Json} {ds : List Json} (h : Evaluates filter ds) :
    rejectFrom filter ds = .ok (ds.filter (!isSelected filter ·)) := by
  induction ds with
  | nil => rfl
  | cons d ds ih =>
    obtain ⟨hd, hds⟩ := List.forall_mem_cons.1 h
    simp only [rejectFrom, hd, ih hds, Except.map, List.filter_cons]
    cases isSelected filter d <;> rfl

theorem selectFrom_of_fault {filter : Json} {ds : List Json} {e : QueryError}
    (h : FirstFault filter ds e) : selectFrom (some filter) ds = .error e := by
  induction h with
  | here hd => simp only [selectFrom, selects, hd]
  | later hd _ ih => simp only [selectFrom, selects, hd, ih, Except.map]

theorem rejectFrom_of_fault {filter : Json} {ds : List Json} {e : QueryError}
    (h : FirstFault filter ds e) : rejectFrom filter ds = .error e := by
  induction h with
  | here hd => simp only [rejectFrom, hd]
  | later hd _ ih => simp only [rejectFrom, hd, ih, Except.map]

def rejecting (filter : Json) (c : Collection) : Collection :=
  { c with documents := c.documents.filter (!isSelected filter ·) }

section

variable {c : Collection} {filter : Json}

theorem find_unsorted (c : Collection) (filter : Option Json) :
    c.find filter {} = c.select filter := by
  cases h : c.select filter with
  | error e => simp only [find, h]; rfl
  | ok ds => simp only [find, h]; rfl

theorem select_of_evaluates (h : Evaluates filter c.documents) :
    c.select (some filter) = .ok (c.documents.filter (isSelected filter)) := by
  rw [select, selectFrom_of_evaluates h]
  rfl

theorem select_of_fault {e : QueryError} (h : FirstFault filter c.documents e) :
    c.select (some filter) = .error (.query e) := by
  rw [select, selectFrom_of_fault h]
  rfl

theorem length_rejecting (c : Collection) (filter : Json) :
    c.documents.length =
      (c.rejecting filter).documents.length + (c.documents.filter (isSelected filter)).length :=
  (List.length_eq_length_filter_add (isSelected filter)).trans (Nat.add_comm ..)

theorem remove_of_evaluates (h : Evaluates filter c.documents) :
    c.remove filter = .ok ((c.documents.filter (isSelected filter)).length, c.rejecting filter) := by
  have hlength := Nat.sub_eq_of_eq_add' (length_rejecting c filter)
  rw [remove, rejectFrom_of_evaluates h, ← hlength]
  rfl

theorem remove_of_fault {e : QueryError} (h : FirstFault filter c.documents e) :
    c.remove filter = .error (.query e) := by
  rw [remove, rejectFrom_of_fault h]

theorem evaluates_rejecting (h : Evaluates filter c.documents) :
    Evaluates filter (c.rejecting filter).documents :=
  fun d hd => h d (List.mem_filter.1 hd).1

theorem filter_rejecting (c : Collection) (filter : Json) :
    (c.rejecting filter).documents.filter (isSelected filter) = [] := by
  simp [rejecting, List.filter_filter]

end

end Collection

namespace Store

open Collection (isSelected Evaluates FirstFault)

variable {s : Store} {name : String} {filter : Json}

theorem getD_of_some {c : Collection} (h : s.get? name = some c) : s.getD name = c := by
  rw [getD, h, Option.getD_some]

theorem getD_of_none (h : s.get? name = none) : s.getD name = .empty := by
  rw [getD, h, Option.getD_none]

variable [Regex.Engine]

/-- What a filter finds in a collection, and the store that is left when that is removed. -/
structure Finds (s : Store) (name : String) (filter : Json) (found : List Json) (t : Store) :
    Prop where
  evaluates : Evaluates filter (s.getD name).documents
  found_eq : found = (s.getD name).documents.filter (isSelected filter)
  count fresh : perform name fresh (.count (some filter)) s = (.ok found.length, s)
  find fresh : perform name fresh (.find (some filter) {}) s = (.ok found, s)
  remove fresh : perform name fresh (.remove filter) s = (.ok found.length, t)
  rest : t.get? name = (s.get? name).map (Collection.rejecting filter)
  others : ∀ other, other ≠ name → t.get? other = s.get? other
  gone fresh : perform name fresh (.count (some filter)) t = (.ok 0, t)

structure Fails (s : Store) (name : String) (filter : Json) (e : QueryError) : Prop where
  fault : FirstFault filter (s.getD name).documents e
  count fresh : perform name fresh (.count (some filter)) s = (.error (.query e), s)
  find fresh : perform name fresh (.find (some filter) {}) s = (.error (.query e), s)
  remove fresh : perform name fresh (.remove filter) s = (.error (.query e), s)

theorem getD_of_rest {t : Store} (h : t.get? name = (s.get? name).map (.rejecting filter)) :
    t.getD name = (s.getD name).rejecting filter := by
  rw [getD, h, getD]
  cases s.get? name <;> rfl

theorem perform_read {α : Type} {op : Operation α} (fresh : Json) {r : Except Error α}
    (h : op.change name fresh (s.get? name) = r.map (·, s.get? name)) :
    perform name fresh op s = (r, s) := by
  rw [Effect.perform_makes name fresh op s, h]
  cases r with
  | error e => rfl
  | ok x => simp only [Except.map, commit_get?]

theorem perform_count (fresh : Json) (filter : Option Json) :
    perform name fresh (.count filter) s = ((s.getD name).count filter, s) :=
  perform_read fresh rfl

theorem perform_find (fresh : Json) (filter : Option Json) :
    perform name fresh (.find filter {}) s = ((s.getD name).select filter, s) := by
  rw [← Collection.find_unsorted]
  exact perform_read fresh rfl

theorem count_of_evaluates (h : Evaluates filter (s.getD name).documents) (fresh : Json) :
    perform name fresh (.count (some filter)) s =
      (.ok ((s.getD name).documents.filter (isSelected filter)).length, s) := by
  rw [perform_count, Collection.count, Collection.select_of_evaluates h]
  rfl

theorem remove_of_evaluates (h : Evaluates filter (s.getD name).documents) (fresh : Json) :
    perform name fresh (.remove filter) s =
      (.ok ((s.getD name).documents.filter (isSelected filter)).length,
        s.commit name ((s.get? name).map (Collection.rejecting filter))) := by
  rw [Effect.perform_makes name fresh (.remove filter) s]
  cases hc : s.get? name with
  | none =>
    rw [getD_of_none hc]
    rfl
  | some c =>
    rw [getD_of_some hc] at h ⊢
    simp only [Operation.change, Collection.remove_of_evaluates h]
    rfl

theorem finds_of_evaluates (h : Evaluates filter (s.getD name).documents) :
    Finds s name filter ((s.getD name).documents.filter (isSelected filter))
      (s.commit name ((s.get? name).map (Collection.rejecting filter))) where
  evaluates := h
  found_eq := rfl
  count := count_of_evaluates h
  find fresh := by rw [perform_find, Collection.select_of_evaluates h]
  remove := remove_of_evaluates h
  rest := get?_commit_self ..
  others other ho := get?_commit_of_ne ho ..
  gone fresh := by
    have hrest := getD_of_rest (get?_commit_self s name ((s.get? name).map (.rejecting filter)))
    rw [count_of_evaluates, hrest, Collection.filter_rejecting]
    · rfl
    · rw [hrest]
      exact Collection.evaluates_rejecting h

theorem fails_of_fault {e : QueryError} (h : FirstFault filter (s.getD name).documents e) :
    Fails s name filter e where
  fault := h
  count fresh := by
    rw [perform_count, Collection.count, Collection.select_of_fault h]
    rfl
  find fresh := by rw [perform_find, Collection.select_of_fault h]
  remove fresh := by
    rw [Effect.perform_makes name fresh (.remove filter) s]
    cases hc : s.get? name with
    | none =>
      rw [getD_of_none hc] at h
      nomatch h
    | some c =>
      rw [getD_of_some hc] at h
      simp only [Operation.change, Collection.remove_of_fault h]
      rfl

theorem fails_or_finds (s : Store) (name : String) (filter : Json) :
    (∃ e, Fails s name filter e) ∨ ∃ found t, Finds s name filter found t := by
  obtain h | ⟨e, h⟩ := Collection.evaluates_or_firstFault filter (s.getD name).documents
  · exact .inr ⟨_, _, finds_of_evaluates h⟩
  · exact .inl ⟨e, fails_of_fault h⟩

theorem Finds.length_eq {found : List Json} {t : Store} (h : Finds s name filter found t) :
    (s.getD name).documents.length = (t.getD name).documents.length + found.length := by
  rw [getD_of_rest h.rest, h.found_eq]
  exact Collection.length_rejecting ..

end Store

namespace Repository

open Store (Fails Finds)

variable {α : Type}

theorem filterOf_of_ok {query : String} {params : List Json} {filter : Json}
    (h : Filter.ofQuery query params = .ok filter) (db : Database) :
    filterOf query params db = (.ok filter, db) := by
  rw [filterOf, h]
  rfl

theorem filterOf_of_error {query : String} {params : List Json} {e : QueryError}
    (h : Filter.ofQuery query params = .error e) (db : Database) :
    filterOf query params db = (.error (.query e), db) := by
  rw [filterOf, h]
  rfl

variable [Regex.Engine]

theorem performUnchecked_of_finds {db : Database} {name : String} {filter : Json}
    {found : List Json} {s : Store} (h : Finds db.store name filter found s) :
    Database.performUnchecked name (.count (some filter)) db = (.ok found.length, db) ∧
      Database.performUnchecked name (.remove filter) db =
        (.ok found.length, { db with store := s }) := by
  rw [Database.performUnchecked_apply, Database.performUnchecked_apply, h.count, h.remove]
  exact ⟨rfl, rfl⟩

theorem performUnchecked_of_fails {db : Database} {name : String} {filter : Json}
    {e : QueryError} (h : Fails db.store name filter e) :
    Database.performUnchecked name (.count (some filter)) db = (.error (.query e), db) ∧
      Database.performUnchecked name (.remove filter) db = (.error (.query e), db) := by
  rw [Database.performUnchecked_apply, Database.performUnchecked_apply, h.count, h.remove]
  exact ⟨rfl, rfl⟩

def removeMatching (t : EntityType α) (query : String) (params : List Json) : Action Nat := do
  Database.perform t.collection (.remove (← filterOf query params))

theorem deleteMatching_cases (t : EntityType α) (query : String) (params : List Json)
    (db : Database) :
    (∃ e, deleteMatching t query params db = (.error e, db) ∧
      removeMatching t query params db = (.error e, db)) ∨
    ∃ filter found s, Filter.ofQuery query params = .ok filter ∧
      Finds db.store t.collection filter found s ∧
      deleteMatching t query params db = (.ok found.length, { db with store := s }) ∧
      removeMatching t query params db = (.ok found.length, { db with store := s }) := by
  cases hf : Filter.ofQuery query params with
  | error e =>
    refine .inl ⟨.query e, ?_, ?_⟩
    · simp [deleteMatching, filterOf_of_error hf]
    · simp [removeMatching, filterOf_of_error hf]
  | ok filter =>
    by_cases hname : Store.accepts t.collection
    · have hcount := db.perform_of_accepts hname (.count (some filter))
      have hremove := db.perform_of_accepts hname (.remove filter)
      simp only [Database.withPreset] at hcount hremove
      obtain ⟨e, h⟩ | ⟨found, s, h⟩ := Store.fails_or_finds db.store t.collection filter
      · obtain ⟨hc, hr⟩ := performUnchecked_of_fails h
        refine .inl ⟨.query e, ?_, ?_⟩
        · simp [deleteMatching, filterOf_of_ok hf, hcount, hc]
        · simp [removeMatching, filterOf_of_ok hf, hremove, hr]
      · obtain ⟨hc, hr⟩ := performUnchecked_of_finds h
        refine .inr ⟨filter, found, s, rfl, h, ?_, ?_⟩
        · simp only [deleteMatching, Database.bind_apply, filterOf_of_ok hf, hcount, hc, hremove,
            hr, Database.pure_apply]
        · simp [removeMatching, filterOf_of_ok hf, hremove, hr]
    · have hrefused {β : Type} (op : Operation β) := db.perform_of_refused hname op
      refine .inl ⟨.invalidDocument (.collectionName t.collection), ?_, ?_⟩
      · simp [deleteMatching, filterOf_of_ok hf, hrefused]
      · simp [removeMatching, filterOf_of_ok hf, hrefused]

end Repository

end DocQuery
