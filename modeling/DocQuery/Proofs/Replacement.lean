import DocQuery.Proofs.Identity
import DocQuery.Regex.Reader

namespace DocQuery

namespace Collection

variable [Regex.Engine]

/-- The place of the first document that a filter does not rule out, and this document. -/
inductive Meets (filter : Json) : List Json → Nat → Json → Prop
  | here {d ds} : Filter.holds d filter ≠ .ok false → Meets filter (d :: ds) 0 d
  | later {e ds i d} : Filter.holds e filter = .ok false → Meets filter ds i d →
      Meets filter (e :: ds) (i + 1) d

section

variable {filter : Json} {ds : List Json} {i : Nat} {d : Json}

theorem meets_or_passed (filter : Json) (ds : List Json) :
    (∃ i d, Meets filter ds i d) ∨ ∀ d ∈ ds, Filter.holds d filter = .ok false := by
  induction ds with
  | nil => exact .inr nofun
  | cons d ds ih =>
    by_cases hd : Filter.holds d filter = .ok false
    · obtain ⟨i, e, h⟩ | h := ih
      · exact .inl ⟨i + 1, e, .later hd h⟩
      · exact .inr (List.forall_mem_cons.2 ⟨hd, h⟩)
    · exact .inl ⟨0, d, .here hd⟩

theorem Meets.getElem? (h : Meets filter ds i d) : ds[i]? = some d := by
  induction h with
  | here => rfl
  | later _ _ ih => simpa using ih

theorem Meets.find? (h : Meets filter ds i d) (heval : Evaluates filter ds) :
    Filter.holds d filter = .ok true ∧ ds.find? (isSelected filter) = some d := by
  induction h with
  | @here d ds hd =>
    have hselected : isSelected filter d = true := by
      have hholds := (List.forall_mem_cons.1 heval).1
      cases hsel : isSelected filter d with
      | true => rfl
      | false => exact absurd (hsel ▸ hholds) hd
    rw [(List.forall_mem_cons.1 heval).1, List.find?_cons, hselected]
    exact ⟨rfl, rfl⟩
  | later he _ ih =>
    obtain ⟨hd, hfound⟩ := ih (List.forall_mem_cons.1 heval).2
    rw [List.find?_cons, isSelected_of_ok he]
    exact ⟨hd, hfound⟩

variable (fs : Fields Json)

theorem Meets.replaceFirst_of_true (h : Meets filter ds i d)
    (hd : Filter.holds d filter = .ok true) :
    replaceFirst filter fs ds = .ok (true, ds.set i (replacement d fs)) := by
  induction h with
  | here => rw [replaceFirst, hd, List.set_cons_zero]
  | later he _ ih =>
    rw [replaceFirst, he, ih hd, List.set_cons_succ]
    rfl

theorem Meets.replaceFirst_of_error (h : Meets filter ds i d) {e : QueryError}
    (hd : Filter.holds d filter = .error e) : replaceFirst filter fs ds = .error e := by
  induction h with
  | here => rw [replaceFirst, hd]
  | later he _ ih =>
    rw [replaceFirst, he, ih hd]
    rfl

theorem evaluates_of_passed (h : ∀ d ∈ ds, Filter.holds d filter = .ok false) :
    Evaluates filter ds ∧ ∀ d ∈ ds, ¬ isSelected filter d := by
  refine ⟨fun d hd => ?_, fun d hd => ?_⟩
  · rw [h d hd, isSelected_of_ok (h d hd)]
  · rw [isSelected_of_ok (h d hd)]
    exact Bool.false_ne_true

end

end Collection

namespace Store

open Collection (Meets idKey replacement)

variable {s : Store} {name : String} {filter : Json}

/-- A store with another document at one place of a collection, and the same otherwise. -/
structure Replaced (s : Store) (name : String) (i : Nat) (new : Json) (t : Store) : Prop where
  documents : (t.getD name).documents = (s.getD name).documents.set i new
  indexes : (t.getD name).indexes = (s.getD name).indexes
  others : ∀ other, other ≠ name → t.get? other = s.get? other

theorem replaced_commit {c : Collection} (hc : s.get? name = some c) (i : Nat) (new : Json) :
    Replaced s name i new
      (s.commit name (some { c with documents := c.documents.set i new })) where
  documents := by rw [getD, get?_commit_self, getD_of_some hc, Option.getD_some]
  indexes := by rw [getD, get?_commit_self, getD_of_some hc, Option.getD_some]
  others other ho := get?_commit_of_ne ho s _

section

variable [Regex.Engine]

def Updates (s : Store) (name : String) (filter : Json) (fs : Fields Json) (i : Nat) (d : Json) :
    Prop :=
  ∃ id, d.get? idKey = some id ∧ ∃ t,
    Replaced s name i (.object ((idKey, id) :: fs.filter (·.1 != idKey))) t ∧
      ∀ fresh, perform name fresh (.update filter (.object fs)) s = (.ok 1, t)

theorem perform_update (fresh : Json) (fs : Fields Json) {c : Collection}
    (hc : s.get? name = some c) :
    perform name fresh (.update filter (.object fs)) s =
      match Collection.replaceFirst filter fs c.documents with
      | .error e => (.error (.query e), s)
      | .ok (found, documents) =>
        (.ok found.toNat, s.commit name (some { c with documents })) := by
  rw [Effect.perform_makes name fresh (.update filter (.object fs)) s, hc]
  simp only [Operation.change, Collection.update]
  cases Collection.replaceFirst filter fs c.documents <;> rfl

variable {i : Nat} {d : Json}

theorem exists_of_meets (h : Meets filter (s.getD name).documents i d) :
    ∃ c, s.get? name = some c ∧ s.getD name = c := by
  cases hc : s.get? name with
  | none =>
    rw [getD_of_none hc] at h
    nomatch h
  | some c => exact ⟨c, rfl, getD_of_some hc⟩

theorem updates_of_meets (fs : Fields Json) (h : Meets filter (s.getD name).documents i d)
    (hd : Filter.holds d filter = .ok true) (hid : (d.get? idKey).isSome) :
    Updates s name filter fs i d := by
  obtain ⟨id, hid⟩ := Option.isSome_iff_exists.1 hid
  obtain ⟨c, hc, hgetD⟩ := exists_of_meets h
  rw [hgetD] at h
  have hnew : replacement d fs = .object ((idKey, id) :: fs.filter (·.1 != idKey)) := by
    rw [replacement, hid, Option.getD_some]
  refine ⟨id, hid, _, replaced_commit hc i _, fun fresh => ?_⟩
  rw [perform_update fresh fs hc, h.replaceFirst_of_true fs hd, hnew]
  rfl

theorem update_of_error (fs : Fields Json) (h : Meets filter (s.getD name).documents i d)
    {e : QueryError} (hd : Filter.holds d filter = .error e) (fresh : Json) :
    perform name fresh (.update filter (.object fs)) s = (.error (.query e), s) := by
  obtain ⟨c, hc, hgetD⟩ := exists_of_meets h
  rw [hgetD] at h
  rw [perform_update fresh fs hc, h.replaceFirst_of_error fs hd]

theorem update_of_passed (fs : Fields Json)
    (h : ∀ d ∈ (s.getD name).documents, Filter.holds d filter = .ok false) (fresh : Json) :
    perform name fresh (.update filter (.object fs)) s = (.ok 0, s) := by
  cases hc : s.get? name with
  | none =>
    rw [Effect.perform_makes name fresh (.update filter (.object fs)) s, hc]
    exact congrArg (Prod.mk _) (commit_of_get? hc)
  | some c =>
    rw [getD_of_some hc] at h
    obtain ⟨heval, hnone⟩ := Collection.evaluates_of_passed h
    rw [perform_update fresh fs hc, Collection.replaceFirst_of_unselected fs heval hnone]
    exact congrArg (Prod.mk _) (commit_of_get? hc)

theorem evaluates_of_findOne {fresh : Json} {found : Option Json}
    (h : (perform name fresh (.findOne (some filter)) s).1 = .ok found) :
    Collection.Evaluates filter (s.getD name).documents ∧
      found = (s.getD name).documents.find? (Collection.isSelected filter) := by
  have hread : perform name fresh (.findOne (some filter)) s =
      ((s.getD name).findOne (some filter), s) := perform_read fresh rfl
  rw [hread] at h
  obtain heval | ⟨e, hfault⟩ :=
    Collection.evaluates_or_firstFault filter (s.getD name).documents
  · rw [Collection.findOne_of_evaluates heval] at h
    exact ⟨heval, (Except.ok.inj h).symm⟩
  · have hselect := Collection.select_of_fault hfault
    simp only [Collection.findOne, Collection.find, hselect] at h
    contradiction

/-- An update replaces the first document that its filter does not rule out, by the fields that
it brings behind the id that was there, fails where the filter cannot be evaluated on that
document, and does nothing if there is no such document.  So it replaces what a search finds. -/
theorem update_meets (fs : Fields Json)
    (hids : ∀ d ∈ (s.getD name).documents, (d.get? idKey).isSome) :
    (∀ i d, Meets filter (s.getD name).documents i d →
      (Filter.holds d filter = .ok true → Updates s name filter fs i d) ∧
        ∀ e, Filter.holds d filter = .error e → ∀ fresh,
          perform name fresh (.update filter (.object fs)) s = (.error (.query e), s)) ∧
      ((∀ i d, ¬ Meets filter (s.getD name).documents i d) → ∀ fresh,
        perform name fresh (.update filter (.object fs)) s = (.ok 0, s)) ∧
      ∀ fresh found, (perform name fresh (.findOne (some filter)) s).1 = .ok found →
        match found with
        | some d => ∃ i, Meets filter (s.getD name).documents i d ∧ Updates s name filter fs i d
        | none => perform name fresh (.update filter (.object fs)) s = (.ok 0, s) := by
  have hupdates : ∀ {i d}, Meets filter (s.getD name).documents i d →
      Filter.holds d filter = .ok true → Updates s name filter fs i d := fun hmeets hd =>
    updates_of_meets fs hmeets hd (hids _ (List.mem_of_getElem? hmeets.getElem?))
  refine ⟨fun i d h => ⟨hupdates h, fun e he => update_of_error fs h he⟩, fun h => ?_, ?_⟩
  · obtain ⟨i, d, hmeets⟩ | hpassed := Collection.meets_or_passed filter (s.getD name).documents
    · exact absurd hmeets (h i d)
    · exact update_of_passed fs hpassed
  · intro fresh found hfound
    obtain ⟨heval, rfl⟩ := evaluates_of_findOne hfound
    obtain ⟨i, d, hmeets⟩ | hpassed := Collection.meets_or_passed filter (s.getD name).documents
    · obtain ⟨hd, hfind⟩ := hmeets.find? heval
      rw [hfind]
      exact ⟨i, hmeets, hupdates hmeets hd⟩
    · obtain ⟨_, hnone⟩ := Collection.evaluates_of_passed hpassed
      rw [List.find?_eq_none.2 hnone]
      exact update_of_passed fs hpassed fresh

end

def threeCounts : Store :=
  empty.set "counts" ⟨[
    .object [("_id", .int 1), ("n", .string "none")],
    .object [("n", .int 5), ("_id", .string "b")],
    .object [("_id", .bool true), ("n", .int 7)]], []⟩

theorem update_meets_second :
    (∀ d ∈ (threeCounts.getD "counts").documents, (d.get? idKey).isSome) ∧
      ∃ t, Replaced threeCounts "counts" 1 (.object [("_id", .string "b"), ("m", .null)]) t ∧
        perform "counts" .null (.update (Filter.single "n" (Filter.single "$ne" (.string "none")))
          (.object [("_id", .string "z"), ("m", .null)])) threeCounts = (.ok 1, t) := by
  have hids : ∀ d ∈ (threeCounts.getD "counts").documents, (d.get? idKey).isSome := by
    simp only [threeCounts, getD, get?_set_self, Option.getD_some, List.forall_mem_cons]
    exact ⟨rfl, rfl, rfl, List.forall_mem_nil _⟩
  refine ⟨hids, ?_⟩
  have htrue : Filter.holds (.object [("n", .int 5), ("_id", .string "b")])
      (Filter.single "n" (Filter.single "$ne" (.string "none"))) = .ok true := rfl
  have hmeets : Meets (Filter.single "n" (Filter.single "$ne" (.string "none")))
      (threeCounts.getD "counts").documents 1 (.object [("n", .int 5), ("_id", .string "b")]) :=
    .later rfl (.here (by simp [htrue]))
  obtain ⟨id, hid, t, hreplaced, hupdate⟩ :=
    ((update_meets [("_id", .string "z"), ("m", .null)] hids).1 1 _ hmeets).1 htrue
  cases hid
  exact ⟨t, hreplaced, hupdate .null⟩

end Store

end DocQuery
