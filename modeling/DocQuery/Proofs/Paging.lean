import DocQuery.Proofs.Order
import DocQuery.Proofs.Removal
import DocQuery.Proofs.Soundness
import DocQuery.Regex.Reader

namespace DocQuery

namespace SortKey

def toField (k : SortKey) : String × Json :=
  (k.field, .int (if k.descending then -1 else 1))

inductive Orders : Option Json → List SortKey → Prop
  | unsorted : Orders none []
  | sorted {k ks} : Orders (some (.object ((k :: ks).map toField))) (k :: ks)

theorem ofFields_toField (ks : List SortKey) : ofFields (ks.map toField) = .ok ks := by
  induction ks with
  | nil => rfl
  | cons k ks ih =>
    obtain ⟨field, descending⟩ := k
    cases descending <;> simp [toField, ofFields, Json.int, Number.asInt64?, ih, Except.map]

theorem toField_of_ofFields {fs : List (String × Json)} {ks : List SortKey}
    (h : ofFields fs = .ok ks) : fs = ks.map toField := by
  induction fs generalizing ks with
  | nil =>
    cases h
    rfl
  | cons f fs ih =>
    obtain ⟨field, direction⟩ := f
    cases direction with
    | number n =>
      rw [ofFields] at h
      split at h
      · next hn =>
        obtain ⟨rest, hrest, rfl⟩ := map_eq_ok h
        rw [ih hrest, asInt64?_eq_some hn]
        rfl
      · split at h
        · next hn =>
          obtain ⟨rest, hrest, rfl⟩ := map_eq_ok h
          rw [ih hrest, asInt64?_eq_some hn]
          rfl
        · contradiction
    | _ => contradiction

theorem ofOrder_iff {order : Json} {ks : List SortKey} :
    ofOrder order = .ok ks ↔ Orders (some order) ks := by
  constructor
  · intro h
    unfold ofOrder at h
    split at h
    · next f fs =>
      have hfs := toField_of_ofFields h
      cases ks with
      | nil => contradiction
      | cons k ks =>
        rw [hfs]
        exact .sorted
    · contradiction
  · intro h
    cases h with
    | @sorted k ks => exact ofFields_toField (k :: ks)

end SortKey

open SortKey (Orders)

/-- Documents with their places in a list, put in order.  Ties stand in the order of their
places. -/
structure Arranges (ks : List SortKey) (documents : List Json) (placed : List (Json × Nat)) :
    Prop where
  perm : placed.Perm documents.zipIdx
  ordered : placed.Pairwise fun a b => compareDocuments ks a.1 b.1 ≠ .gt
  stable : placed.Pairwise fun a b => compareDocuments ks a.1 b.1 = .eq → a.2 < b.2

def notAfter (ks : List SortKey) (a b : Json) : Bool := compareDocuments ks a b != .gt

section

variable (ks : List SortKey)

theorem notAfter_eq (a b : Json) : notAfter ks a b = (compareDocuments ks a b).isLE := by
  unfold notAfter
  cases compareDocuments ks a b <;> rfl

theorem notAfter_trans (a b c : Json) (hab : notAfter ks a b) (hbc : notAfter ks b c) :
    notAfter ks a c := by
  rw [notAfter_eq] at hab hbc ⊢
  exact Std.TransCmp.isLE_trans hab hbc

theorem notAfter_total (a b : Json) : notAfter ks a b || notAfter ks b a := by
  rw [notAfter_eq, notAfter_eq, compareDocuments_swap]
  cases compareDocuments ks b a <;> rfl

theorem zipIdxLE_notAfter {a b : Json × Nat} (h : List.zipIdxLE (notAfter ks) a b) :
    compareDocuments ks a.1 b.1 ≠ .gt ∧ (compareDocuments ks a.1 b.1 = .eq → a.2 ≤ b.2) := by
  simp only [List.zipIdxLE, notAfter, compareDocuments_swap ks b.1 a.1] at h
  cases hab : compareDocuments ks a.1 b.1 <;> simp_all

def arrangement (documents : List Json) : List (Json × Nat) :=
  documents.zipIdx.mergeSort (List.zipIdxLE (notAfter ks))

theorem arranges_arrangement (documents : List Json) :
    Arranges ks documents (arrangement ks documents) := by
  have hperm : (arrangement ks documents).Perm documents.zipIdx := List.mergeSort_perm ..
  have hsorted : (arrangement ks documents).Pairwise fun a b => List.zipIdxLE (notAfter ks) a b :=
    List.pairwise_mergeSort (List.zipIdxLE_trans (notAfter_trans ks))
      (List.zipIdxLE_total (notAfter_total ks)) _
  have hplaces : (arrangement ks documents).Pairwise fun a b => a.2 ≠ b.2 := by
    refine List.pairwise_map.1 ((hperm.map Prod.snd).nodup_iff.2 ?_)
    rw [List.zipIdx_map_snd]
    exact List.nodup_range'
  refine ⟨hperm, hsorted.imp fun h => (zipIdxLE_notAfter ks h).1, ?_⟩
  refine (hsorted.and hplaces).imp fun ⟨hle, hne⟩ heq => ?_
  exact Nat.lt_of_le_of_ne ((zipIdxLE_notAfter ks hle).2 heq) hne

theorem map_arrangement (documents : List Json) :
    (arrangement ks documents).map Prod.fst = sortDocuments ks documents :=
  List.mergeSort_zipIdx

end

theorem Arranges.unique {ks : List SortKey} {documents : List Json}
    {placed other : List (Json × Nat)} (h : Arranges ks documents placed)
    (ho : Arranges ks documents other) : placed = other := by
  have hperm : placed.Perm other := h.perm.trans ho.perm.symm
  refine hperm.eq_of_pairwise ?_ (h.ordered.and h.stable) (ho.ordered.and ho.stable)
  rintro a b _ _ ⟨hab, hplaceab⟩ ⟨hba, hplaceba⟩
  rw [compareDocuments_swap] at hba hplaceba
  cases hcmp : compareDocuments ks a.1 b.1 with
  | lt => simp [hcmp] at hba
  | gt => contradiction
  | eq =>
    have hlt := hplaceab hcmp
    have hgt := hplaceba (by rw [hcmp]; rfl)
    exact absurd hgt (Nat.lt_asymm hlt)

namespace Collection

theorem sortDocuments_nil (ds : List Json) : sortDocuments [] ds = ds :=
  List.mergeSort_of_pairwise (List.pairwise_of_forall fun _ _ => rfl)

section

variable [Regex.Engine]

def picks (filter : Option Json) (d : Json) : Bool := filter.all (isSelected · d)

def picked (c : Collection) (filter : Option Json) : List Json :=
  c.documents.filter (picks filter)

section

variable {filter : Option Json}

theorem selectFrom_none (ds : List Json) : selectFrom none ds = .ok ds := by
  induction ds with
  | nil => rfl
  | cons d ds ih => simp [selectFrom, selects, ih, Except.map]

theorem selectFrom_eq {ds : List Json} (h : ∀ f ∈ filter, Evaluates f ds) :
    selectFrom filter ds = .ok (ds.filter (picks filter)) := by
  cases filter with
  | none =>
    have hall : ds.filter (picks none) = ds := List.filter_eq_self.2 fun _ _ => rfl
    rw [selectFrom_none, hall]
  | some f => exact selectFrom_of_evaluates (h f rfl)

theorem find_eq {c : Collection} (h : ∀ f ∈ filter, Evaluates f c.documents) {sort : Option Json}
    {ks : List SortKey} (hks : Orders sort ks) (skip : Nat) (limit : Option Nat) :
    c.find filter ⟨sort, skip, limit⟩ =
      .ok (window skip limit (sortDocuments ks (c.picked filter))) := by
  have hselect : c.select filter = .ok (c.picked filter) := by
    rw [select, selectFrom_eq h]
    rfl
  cases sort with
  | none =>
    cases hks
    rw [find, hselect, sortDocuments_nil]
    rfl
  | some order =>
    rw [find, hselect]
    simp only [SortKey.ofOrder_iff.2 hks]
    rfl

end

end

theorem getElem?_window (skip : Nat) (limit : Option Nat) (ds : List Json) (i : Nat) :
    (window skip limit ds)[i]? = if limit.all (i < ·) then ds[skip + i]? else none := by
  cases limit with
  | none => simp [window]
  | some n => simp [window, List.getElem?_take]

def pages (k n : Nat) (ds : List Json) : List (List Json) :=
  (List.range n).map fun i => window (i * k) (some k) ds

theorem flatten_pages (k n : Nat) (ds : List Json) : (pages k n ds).flatten = ds.take (n * k) := by
  induction n with
  | zero => simp [pages]
  | succ n ih =>
    rw [pages] at ih ⊢
    rw [List.range_succ, List.map_append, List.flatten_append, ih, Nat.succ_mul, List.take_add]
    simp [window]

end Collection

namespace Store

open Collection (Evaluates window)

variable {s : Store} {name : String} {filter sort : Option Json} {ks : List SortKey}

section

variable [Regex.Engine]

theorem perform_find_eq (h : ∀ f ∈ filter, Evaluates f (s.getD name).documents)
    (hks : Orders sort ks) (fresh : Json) (skip : Nat) (limit : Option Nat) :
    perform name fresh (.find filter ⟨sort, skip, limit⟩) s =
      (.ok (window skip limit (sortDocuments ks ((s.getD name).picked filter))), s) := by
  rw [← Collection.find_eq h hks]
  exact perform_read fresh rfl

/-- What is found is the part after `skip` documents, of `limit` documents at most, of the one
list that arranges the documents that are asked for.  Pages that follow each other give
everything that is found without a limit. -/
theorem find_window (h : ∀ f ∈ filter, Evaluates f (s.getD name).documents)
    (hks : Orders sort ks) :
    ∃ placed, Arranges ks ((s.getD name).picked filter) placed ∧
      (∀ other, Arranges ks ((s.getD name).picked filter) other → placed = other) ∧
      (∀ fresh skip limit, ∃ found,
        perform name fresh (.find filter ⟨sort, skip, limit⟩) s = (.ok found, s) ∧
          ∀ i, found[i]? =
            if limit.all (i < ·) then (placed.map Prod.fst)[skip + i]? else none) ∧
      ∀ fresh k n, placed.length ≤ n * k → ∃ page : Nat → List Json,
        (∀ i, perform name fresh (.find filter ⟨sort, i * k, some k⟩) s = (.ok (page i), s)) ∧
          perform name fresh (.find filter ⟨sort, 0, none⟩) s =
            (.ok ((List.range n).flatMap page), s) := by
  have hplaced := arranges_arrangement ks ((s.getD name).picked filter)
  refine ⟨_, hplaced, fun other => hplaced.unique, ?_, ?_⟩
  · intro fresh skip limit
    refine ⟨_, perform_find_eq h hks fresh skip limit, fun i => ?_⟩
    rw [map_arrangement, Collection.getElem?_window]
  · intro fresh k n hn
    refine ⟨_, fun i => perform_find_eq h hks fresh (i * k) (some k), ?_⟩
    have hlength : (sortDocuments ks ((s.getD name).picked filter)).length ≤ n * k := by
      rwa [← map_arrangement, List.length_map]
    have hpages := Collection.flatten_pages k n (sortDocuments ks ((s.getD name).picked filter))
    rw [List.take_of_length_le hlength] at hpages
    rw [perform_find_eq h hks, List.flatMap_def]
    exact congrArg (fun ds => (Except.ok ds, s)) hpages.symm

end

def mixedAges : Store :=
  empty.set "people" ⟨[
    .object [("_id", .string "a"), ("age", .int 31)],
    .object [("_id", .string "b"), ("age", .string "old")],
    .object [("_id", .string "c")],
    .object [("_id", .string "d"), ("age", .number (.float (.ofInt 31)))],
    .object [("_id", .string "e"), ("age", .bool true)]], []⟩

theorem find_window_mixedAges :
    let filter := Filter.single "age" (Filter.single "$ne" (.bool true))
    let order := Json.object [("age", .int (-1))]
    (∀ f ∈ some filter, Evaluates f (mixedAges.getD "people").documents) ∧
      Orders (some order) [⟨"age", true⟩] ∧
      perform "people" .null (.find filter ⟨order, 1, some 2⟩) mixedAges = (.ok [
        .object [("_id", .string "a"), ("age", .int 31)],
        .object [("_id", .string "d"), ("age", .number (.float (.ofInt 31)))]], mixedAges) := by
  intro filter order
  have heval : ∀ f ∈ some filter, Evaluates f (mixedAges.getD "people").documents := by
    rintro _ ⟨⟩
    simp only [Evaluates, mixedAges, getD, get?_set_self, Option.getD_some, List.forall_mem_cons]
    exact ⟨rfl, rfl, rfl, rfl, rfl, List.forall_mem_nil _⟩
  have hks : Orders (some order) [⟨"age", true⟩] := @Orders.sorted ⟨"age", true⟩ []
  refine ⟨heval, hks, ?_⟩
  obtain ⟨placed, _, hunique, hfind, _⟩ := find_window heval hks
  obtain ⟨found, hfound, hplaces⟩ := hfind .null 1 (some 2)
  have hplaced : placed = [
      (.object [("_id", .string "b"), ("age", .string "old")], 1),
      (.object [("_id", .string "a"), ("age", .int 31)], 0),
      (.object [("_id", .string "d"), ("age", .number (.float (.ofInt 31)))], 3),
      (.object [("_id", .string "c")], 2)] := by
    refine hunique _ ⟨?_, by decide +kernel, by decide +kernel⟩
    exact (List.Perm.swap ..).trans (((List.Perm.swap ..).cons _).cons _)
  rw [hfound]
  refine congrArg (fun ds => (Except.ok ds, mixedAges)) (List.ext_getElem? fun i => ?_)
  rw [hplaces, hplaced]
  rcases i with _ | _ | i
  · rfl
  · rfl
  · exact if_neg (by simp)

end Store

end DocQuery
