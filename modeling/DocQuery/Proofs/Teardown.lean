import DocQuery.Database.Load
import DocQuery.Proofs.Presence
import DocQuery.Proofs.Upkeep

namespace DocQuery

namespace Store

def eraseAll (s : Store) (names : List String) : Store := names.foldl erase s

theorem get?_eraseAll (s : Store) (names : List String) (name : String) :
    (s.eraseAll names).get? name = if name ∈ names then none else s.get? name := by
  induction names generalizing s with
  | nil => rfl
  | cons n names ih =>
    have hih := ih (s.erase n)
    rw [eraseAll, List.foldl_cons, ← eraseAll, hih]
    by_cases hn : name = n
    · simp [hn]
    · simp [hn, get?_erase_of_ne hn]

theorem mem_takeWhile_of_sorted {p : String → Bool} {names : List String}
    (h : names.Pairwise (· < ·)) {name : String} :
    name ∈ names.takeWhile p ↔ name ∈ names ∧ ∀ other ∈ names, other ≤ name → p other := by
  induction names with
  | nil => simp
  | cons n names ih =>
    obtain ⟨hn, hnames⟩ := List.pairwise_cons.1 h
    have hle : ∀ {name}, name ∈ n :: names → n ≤ name := by
      intro name hname
      rcases List.mem_cons.1 hname with rfl | hname
      · exact Std.le_refl _
      · exact Std.le_of_lt (hn _ hname)
    by_cases hp : p n
    · rw [List.takeWhile_cons_of_pos hp, List.mem_cons, ih hnames, List.mem_cons,
        List.forall_mem_cons]
      constructor
      · rintro (rfl | ⟨hname, hothers⟩)
        · refine ⟨.inl rfl, fun _ => hp, fun other ho hlt => ?_⟩
          exact absurd (hn other ho) (Std.not_lt_of_ge hlt)
        · exact ⟨.inr hname, fun _ => hp, hothers⟩
      · rintro ⟨rfl | hname, _, hothers⟩
        · exact .inl rfl
        · exact .inr ⟨hname, hothers⟩
    · rw [List.takeWhile_cons_of_neg hp]
      refine iff_of_false List.not_mem_nil ?_
      rintro ⟨hname, hothers⟩
      exact hp (hothers n List.mem_cons_self (hle hname))

theorem get?_eraseAll_of_iff {s : Store} {names : List String} {name : String} {P : Prop}
    [Decidable P] (h : name ∈ s.names → (name ∈ names ↔ P)) :
    (s.eraseAll names).get? name = if P then none else s.get? name := by
  rw [get?_eraseAll]
  by_cases hname : name ∈ s.names
  · rw [if_congr (h hname) rfl rfl]
  · have hnone : s.get? name = none := Option.not_isSome_iff_eq_none.1 (mt mem_names.2 hname)
    rw [hnone, ite_self, ite_self]

theorem names_eq_nil {s : Store} : s.names = [] ↔ s = empty := by
  constructor
  · obtain ⟨es, hes⟩ := s
    intro h
    obtain rfl : es = [] := List.map_eq_nil_iff.1 h
    rfl
  · rintro rfl
    rfl

def Reaches (s : Store) (name : String) : Prop := ∀ other ∈ s.names, other ≤ name → accepts other

instance (s : Store) (name : String) : Decidable (s.Reaches name) :=
  inferInstanceAs (Decidable (∀ other ∈ s.names, other ≤ name → accepts other))

theorem Reaches.accepts {s : Store} {name : String} (h : s.Reaches name) (hname : name ∈ s.names) :
    Store.accepts name := h name hname (Std.le_refl _)

/-- What an end of all collections leaves that goes through the names up to the first that is
refused. -/
def stopped (s : Store) : Store := s.eraseAll (s.names.takeWhile accepts)

def spared (s : Store) : Store := s.eraseAll (s.names.filter accepts)

section

variable (s : Store)

theorem mem_takeWhile_names {name : String} :
    name ∈ s.names.takeWhile accepts ↔ name ∈ s.names ∧ s.Reaches name :=
  mem_takeWhile_of_sorted s.names_sorted

theorem get?_stopped (name : String) :
    s.stopped.get? name = if s.Reaches name then none else s.get? name := by
  refine get?_eraseAll_of_iff fun hname => ?_
  rw [mem_takeWhile_names, and_iff_right hname]

theorem get?_spared (name : String) :
    s.spared.get? name = if accepts name then none else s.get? name := by
  refine get?_eraseAll_of_iff fun hname => ?_
  rw [List.mem_filter, and_iff_right hname]

theorem mem_names_stopped {name : String} :
    name ∈ s.stopped.names ↔ name ∈ s.names ∧ ¬ s.Reaches name := by
  rw [mem_names, mem_names, get?_stopped]
  by_cases h : s.Reaches name <;> simp [h]

theorem stopped_eq_empty_iff : s.stopped = empty ↔ ∀ name ∈ s.names, accepts name := by
  rw [← names_eq_nil, List.eq_nil_iff_forall_not_mem]
  constructor
  · intro h name hname
    have hreaches : s.Reaches name := by
      by_contra hnot
      exact h name (s.mem_names_stopped.2 ⟨hname, hnot⟩)
    exact hreaches.accepts hname
  · intro h name hname
    exact (s.mem_names_stopped.1 hname).2 fun other ho _ => h other ho

theorem stopped_eq_spared_iff :
    s.stopped = s.spared ↔ ∀ name ∈ s.names, accepts name → s.Reaches name := by
  constructor
  · intro h name hname haccepts
    by_contra hnot
    have hget := s.get?_stopped name
    rw [h, get?_spared, if_pos haccepts, if_neg hnot] at hget
    rw [mem_names, ← hget] at hname
    contradiction
  · intro h
    apply ext_get?
    intro name
    rw [get?_spared]
    refine get?_eraseAll_of_iff fun hname => ?_
    rw [mem_takeWhile_names, and_iff_right hname]
    exact ⟨fun hreaches => hreaches.accepts hname, h name hname⟩

example :
    let s := (empty.set "bad$name" .empty).set "people" .empty
    s.stopped.names = ["bad$name", "people"] ∧ s.spared.names = ["bad$name"] := by
  decide +kernel

end

end Store

namespace Database

variable [Regex.Engine]

section

variable (db : Database)

theorem perform_drop (name : String) :
    perform name .drop db =
      if Store.accepts name then (.ok (), { db with store := db.store.erase name })
      else (.error (.invalidDocument (.collectionName name)), db) := by
  split
  · next h =>
    rw [perform_of_accepts db h, performUnchecked_apply]
    rfl
  · next h => rw [perform_of_refused db h]

theorem forM_drop (names : List String) :
    (names.forM (perform · .drop) db).2 =
      { db with store := db.store.eraseAll (names.takeWhile Store.accepts) } := by
  induction names generalizing db with
  | nil => rfl
  | cons name names ih =>
    rw [List.forM_eq_forM, List.forM_cons, bind_apply, perform_drop]
    by_cases h : Store.accepts name
    · rw [if_pos h, List.takeWhile_cons_of_pos h]
      exact ih _
    · rw [if_neg h, List.takeWhile_cons_of_neg h]
      rfl

theorem clearCollections_apply (names : List String) :
    clearCollections names db =
      (.ok (), { db with store := db.store.eraseAll (names.filter Store.accepts) }) := by
  induction names generalizing db with
  | nil => rfl
  | cons name names ih =>
    rw [clearCollections, List.forM_eq_forM, List.forM_cons, bind_apply, attempt_apply,
      perform_drop]
    by_cases h : Store.accepts name
    · rw [if_pos h, List.filter_cons_of_pos h]
      exact ih _
    · rw [if_neg h, List.filter_cons_of_neg h]
      exact ih _

end

/-- Emptying a database one by one drops the collections up to the first name that is refused, and
leaves those behind it even if they could be dropped. -/
theorem clear_byName (db : Database) :
    let byName := { db with dropsByName := true }
    let atOnce := { db with dropsByName := false }
    clear byName = (.ok (), { byName with store := db.store.stopped }) ∧
      clearCollections db.store.names db = (.ok (), { db with store := db.store.spared }) ∧
      clear atOnce = (.ok (), { atOnce with store := .empty }) ∧
      (∀ name, db.store.stopped.get? name =
        if db.store.Reaches name then none else db.store.get? name) ∧
      (∀ name, db.store.spared.get? name =
        if Store.accepts name then none else db.store.get? name) ∧
      (db.store.stopped = db.store.spared ↔
        ∀ name ∈ db.store.names, Store.accepts name → db.store.Reaches name) ∧
      (db.store.stopped = .empty ↔ ∀ name ∈ db.store.names, Store.accepts name) := by
  intro byName atOnce
  refine ⟨?_, db.clearCollections_apply _, ?_, db.store.get?_stopped, db.store.get?_spared,
    db.store.stopped_eq_spared_iff, db.store.stopped_eq_empty_iff⟩
  · rw [clear, attempt_apply]
    exact congrArg (Prod.mk _) (byName.forM_drop db.store.names)
  · rw [clear, attempt_apply]
    rfl

end Database

end DocQuery
