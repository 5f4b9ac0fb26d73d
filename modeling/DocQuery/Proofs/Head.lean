import DocQuery.Proofs.Database
import DocQuery.Proofs.Paging
import DocQuery.Regex.Reader
import DocQuery.Repository.Pending

namespace DocQuery

open Collection (Evaluates window)
open SortKey (Orders)

variable {α : Type}

namespace EntityType

def head (t : EntityType α) : List Json → Except Error (Option α)
  | [] => .ok none
  | d :: _ => (t.ofDocument d).map some

variable (t : EntityType α)

theorem head_eq_none {ds : List Json} : t.head ds = .ok none ↔ ds = [] := by
  cases ds with
  | nil => simp [head]
  | cons d ds => cases h : t.ofDocument d <;> simp [head, h, Except.map]

theorem head_take {n : Nat} (hn : n ≠ 0) (ds : List Json) : t.head (ds.take n) = t.head ds := by
  obtain ⟨n, rfl⟩ := Nat.exists_eq_succ_of_ne_zero hn
  cases ds <;> rfl

theorem head_window {limit : Option Nat} (hlimit : limit ≠ some 0) (ds : List Json) :
    t.head (window 0 limit ds) = t.head ds := by
  cases limit with
  | none => rfl
  | some n => exact t.head_take (fun hn => hlimit (congrArg some hn)) ds

end EntityType

namespace Pending

def unlimited (q : Pending α) : Pending α :=
  { q with options := { q.options with limit := none } }

section

variable [Regex.Engine]

structure Heads (q : Pending α) (found : List Json) (db : Database) : Prop where
  none_iff : q.first db = (.ok none, db) ↔ found = []
  cons d ds : found = d :: ds → q.first db = ((q.entity.ofDocument d).map some, db)

variable {q : Pending α} {db : Database} {ks : List SortKey}

def remaining (q : Pending α) (ks : List SortKey) (db : Database) : List Json :=
  (sortDocuments ks ((db.store.getD q.entity.collection).picked q.filter)).drop q.options.skip

theorem findWith_eq (heval : ∀ f ∈ q.filter, Evaluates f (db.documents q.entity.collection))
    (hks : Orders q.options.sort ks) (limit : Option Nat) :
    q.findWith { q.options with limit } db = (.ok (window 0 limit (q.remaining ks db)), db) := by
  rw [findWith, Database.performUnchecked_apply, Store.perform_find_eq heval hks]
  cases limit <;> rfl

theorem first_eq (heval : ∀ f ∈ q.filter, Evaluates f (db.documents q.entity.collection))
    (hks : Orders q.options.sort ks) :
    q.first db = (q.entity.head (q.remaining ks db), db) := by
  simp only [first, Database.bind_apply, findWith_eq heval hks, window, List.drop_zero]
  cases q.remaining ks db with
  | nil => rfl
  | cons d ds =>
    simp only [List.take_succ_cons, EntityType.head]
    cases q.entity.ofDocument d <;> rfl

theorem heads_iff {found : List Json} :
    q.Heads found db ↔ q.first db = (q.entity.head found, db) := by
  constructor
  · intro h
    cases found with
    | nil => exact h.none_iff.2 rfl
    | cons d ds => exact h.cons d ds rfl
  · intro h
    constructor
    · rw [h, Prod.mk.injEq, and_iff_left rfl, q.entity.head_eq_none]
    · rintro d ds rfl
      exact h

/-- The first entity is the head of what a query fetches without its limit.  It is the head of what
the query fetches too, unless the limit is zero and there is something to fetch. -/
theorem first_heads (heval : ∀ f ∈ q.filter, Evaluates f (db.documents q.entity.collection))
    (hks : Orders q.options.sort ks) :
    ∃ all found, q.unlimited.fetchDocuments db = (.ok all, db) ∧
      q.fetchDocuments db = (.ok found, db) ∧ found = window 0 q.options.limit all ∧
      q.Heads all db ∧ (q.Heads found db ↔ (q.options.limit = some 0 → all = [])) := by
  have hfirst := first_eq heval hks
  refine ⟨q.remaining ks db, _, findWith_eq heval hks none, findWith_eq heval hks q.options.limit,
    rfl, heads_iff.2 hfirst, ?_⟩
  rw [heads_iff, hfirst, Prod.mk.injEq, and_iff_left rfl]
  by_cases hlimit : q.options.limit = some 0
  · have hnothing : window 0 q.options.limit (q.remaining ks db) = [] := by
      rw [hlimit]
      rfl
    have hhead : q.entity.head [] = .ok none := rfl
    rw [hnothing, hhead, q.entity.head_eq_none]
    simp [hlimit]
  · simp [hlimit, q.entity.head_window hlimit]

end

def agedPeople : Database := { Database.empty with store := Store.mixedAges }

def nobody : Pending Json :=
  ⟨.json "people", some (Filter.single "age" (Filter.single "$ne" (.bool true))),
    ⟨some (.object [("age", .int (-1))]), 1, some 0⟩⟩

theorem first_heads_nobody :
    (∀ f ∈ nobody.filter, Evaluates f (agedPeople.documents nobody.entity.collection)) ∧
      Orders nobody.options.sort [⟨"age", true⟩] ∧
      ∃ all, all.length = 3 ∧ nobody.fetchDocuments agedPeople = (.ok [], agedPeople) ∧
        nobody.Heads all agedPeople ∧ ¬ nobody.Heads [] agedPeople := by
  have heval : ∀ f ∈ nobody.filter,
      Evaluates f (agedPeople.documents nobody.entity.collection) := by
    rintro _ ⟨⟩
    have hdocs : agedPeople.documents nobody.entity.collection =
        (Store.mixedAges.getD "people").documents := rfl
    simp only [hdocs, Evaluates, Store.mixedAges, Store.getD, Store.get?_set_self,
      Option.getD_some, List.forall_mem_cons]
    exact ⟨rfl, rfl, rfl, rfl, rfl, List.forall_mem_nil _⟩
  have hks : Orders nobody.options.sort [⟨"age", true⟩] := @Orders.sorted ⟨"age", true⟩ []
  refine ⟨heval, hks, ?_⟩
  obtain ⟨all, found, hall, hfound, rfl, hheads, hiff⟩ := first_heads heval hks
  have hremaining : all = nobody.remaining [⟨"age", true⟩] agedPeople := by
    have hfetch := hall.symm.trans (findWith_eq heval hks none)
    exact Except.ok.inj (congrArg Prod.fst hfetch)
  have hlength : all.length = 3 := by
    have hpicked : ((Store.mixedAges.getD "people").picked nobody.filter).length = 4 := by
      decide +kernel
    rw [hremaining, remaining, List.length_drop, sortDocuments, List.length_mergeSort]
    exact congrArg (· - 1) hpicked
  refine ⟨all, hlength, hfound, hheads, fun hnobody => ?_⟩
  rw [hiff.1 hnobody rfl] at hlength
  contradiction

end Pending

end DocQuery
