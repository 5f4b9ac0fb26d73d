import DocQuery.Proofs.Paging
import DocQuery.Proofs.Separators
import DocQuery.Regex.Reader
import Mathlib.Data.List.Nodup

/-! Indexes are told apart by their names.  A name joins the fields and directions of an order by
underscores, so orders of which a field has a direction inside may share one.  An index is made
for an order, or dropped by it, unless the index with its name has other keys. -/

namespace DocQuery

namespace SortKey

def directionText (descending : Bool) : List Char := if descending then ['-', '1'] else ['1']

def nameText (k : SortKey) : List Char :=
  k.field.toList ++ '_' :: (directionText k.descending ++ ['_'])

/-- A field in which, if an underscore follows it, a direction stands between underscores. -/
def Ambiguous (field : String) : Prop :=
  ∃ descending, '_' :: (directionText descending ++ ['_']) <:+: field.toList ++ ['_']

instance (field : String) : Decidable (Ambiguous field) :=
  inferInstanceAs (Decidable (∃ _, _))

def toOrder (ks : List SortKey) : Json := .object (ks.map toField)

theorem toList_text_direction (descending : Bool) :
    (Json.int (if descending then -1 else 1)).text.toList = directionText descending := by
  cases descending <;> rfl

theorem toList_nameOf (k : SortKey) (ks : List SortKey) :
    (Index.nameOf (toOrder (k :: ks))).toList ++ ['_'] = (k :: ks).flatMap nameText := by
  have hjoin : "_".toList = ['_'] := rfl
  simp only [toOrder, Index.nameOf, List.map_map, List.map_cons]
  induction ks generalizing k with
  | nil => simp [nameText, toField, toList_text_direction, hjoin]
  | cons l ks ih =>
    have hrest := ih l
    rw [List.map_cons, String.intercalate_cons_cons, List.flatMap_cons, ← hrest]
    simp [nameText, toField, toList_text_direction, hjoin]

theorem not_mem_directionText (descending : Bool) : '_' ∉ directionText descending := by
  cases descending <;> decide

theorem ambiguous_of_longer {short long : String} {u r q : List Char} {descending : Bool}
    (hlong : long.toList = short.toList ++ '_' :: u)
    (h : directionText descending ++ '_' :: r = u ++ '_' :: q) : Ambiguous long := by
  -- a field that goes on behind another one, where a name has the direction of that one, has this
  -- direction inside
  have hinfix : directionText descending ++ ['_'] <+: u ++ ['_'] := by
    obtain ⟨rfl, -⟩ | ⟨v, rfl, -⟩ | ⟨v, hv, -⟩ := readings h
    · exact List.prefix_rfl
    · exact ⟨v ++ ['_'], by simp⟩
    · have hmem : '_' ∈ directionText descending := by simp [hv]
      exact absurd hmem (not_mem_directionText descending)
  obtain ⟨v, hv⟩ := hinfix
  refine ⟨descending, short.toList, v, ?_⟩
  rw [hlong, List.append_assoc short.toList ('_' :: u), List.cons_append, ← hv]
  simp

theorem nameText_append (k : SortKey) (r : List Char) :
    k.nameText ++ r = k.field.toList ++ '_' :: (directionText k.descending ++ '_' :: r) := by
  simp [nameText]

theorem nameText_append_inj {k l : SortKey} (hk : ¬ Ambiguous k.field) (hl : ¬ Ambiguous l.field)
    {r q : List Char} (h : k.nameText ++ r = l.nameText ++ q) : k = l ∧ r = q := by
  -- a key can be read back from the front of a name if its field is not ambiguous
  rw [nameText_append, nameText_append] at h
  obtain ⟨hfield, hrest⟩ | ⟨u, hu, hrest⟩ | ⟨u, hu, hrest⟩ := readings h
  · obtain ⟨field, descending⟩ := k
    obtain ⟨field', descending'⟩ := l
    obtain rfl : field = field' := String.toList_inj.1 hfield
    cases descending <;> cases descending' <;> simp_all [directionText]
  · exact absurd (ambiguous_of_longer hu hrest) hl
  · exact absurd (ambiguous_of_longer hu hrest) hk

theorem eq_of_flatMap_nameText {ks ls : List SortKey} (hks : ∀ k ∈ ks, ¬ Ambiguous k.field)
    (hls : ∀ l ∈ ls, ¬ Ambiguous l.field) (h : ks.flatMap nameText = ls.flatMap nameText) :
    ks = ls := by
  induction ks generalizing ls with
  | nil =>
    cases ls with
    | nil => rfl
    | cons l ls => simp [nameText] at h
  | cons k ks ih =>
    cases ls with
    | nil => simp [nameText] at h
    | cons l ls =>
      rw [List.forall_mem_cons] at hks hls
      obtain ⟨rfl, hrest⟩ := nameText_append_inj hks.1 hls.1 h
      rw [ih hks.2 hls.2 hrest]

theorem exists_toField {f : String × Json} (h : IsDirection f.2) :
    ∃ k : SortKey, f = k.toField := by
  obtain ⟨field, direction⟩ := f
  obtain rfl | rfl := h
  · exact ⟨⟨field, false⟩, rfl⟩
  · exact ⟨⟨field, true⟩, rfl⟩

theorem exists_map_toField {fs : Fields Json} (h : ∀ f ∈ fs, IsDirection f.2) :
    ∃ ks : List SortKey, fs = ks.map toField := by
  induction fs with
  | nil => exact ⟨[], rfl⟩
  | cons f fs ih =>
    obtain ⟨hf, hfs⟩ := List.forall_mem_cons.1 h
    obtain ⟨k, rfl⟩ := exists_toField hf
    obtain ⟨ks, rfl⟩ := ih hfs
    exact ⟨k :: ks, rfl⟩

theorem exists_toOrder {keys : Json}
    (h : ∃ f fs, keys = .object (f :: fs) ∧ ∀ g ∈ f :: fs, IsDirection g.2) :
    ∃ k ks, keys = toOrder (k :: ks) := by
  obtain ⟨f, fs, rfl, hdirections⟩ := h
  obtain ⟨_ | ⟨k, ks⟩, hks⟩ := exists_map_toField hdirections
  · contradiction
  · exact ⟨k, ks, congrArg Json.object hks⟩

end SortKey

namespace Index

open SortKey (Ambiguous toOrder)

def fields : Json → List String
  | .object fs => Fields.keys fs
  | _ => []

theorem fields_toOrder (ks : List SortKey) : fields (toOrder ks) = ks.map SortKey.field := by
  simp [fields, toOrder, Fields.keys, SortKey.toField]

/-- An index that has the name of an order, but other keys. -/
def Namesake (i : Index) (keys : Json) : Prop := i.name = nameOf keys ∧ i.keys ≠ keys

theorem eq_of_nameOf_eq {k l : SortKey} {ks ls : List SortKey}
    (h : ∀ field ∈ fields (toOrder (k :: ks)) ++ fields (toOrder (l :: ls)), ¬ Ambiguous field)
    (hname : nameOf (toOrder (k :: ks)) = nameOf (toOrder (l :: ls))) :
    toOrder (k :: ks) = toOrder (l :: ls) := by
  rw [fields_toOrder, fields_toOrder, List.forall_mem_append, List.forall_mem_map,
    List.forall_mem_map] at h
  have htext := congrArg (fun name : String => name.toList ++ ['_']) hname
  simp only [SortKey.toList_nameOf] at htext
  rw [SortKey.eq_of_flatMap_nameText h.1 h.2 htext]

theorem Namesake.exists_ambiguous {i : Index} {keys : Json} (h : i.Namesake keys)
    (hi : Collection.IsIndex i) {ks : List SortKey} (hkeys : SortKey.ofOrder keys = .ok ks) :
    ∃ field ∈ fields i.keys ++ fields keys, Ambiguous field := by
  obtain ⟨hname, hne⟩ := h
  obtain ⟨hnamed, hi⟩ := hi
  obtain ⟨k, ks, hik⟩ := SortKey.exists_toOrder hi
  obtain ⟨l, ls, rfl⟩ := SortKey.exists_toOrder (SortKey.isDirection_of_ofOrder hkeys)
  by_contra hnone
  rw [hik] at hnamed hne hnone
  refine hne (eq_of_nameOf_eq (fun field hfield hamb => hnone ⟨field, hfield, hamb⟩) ?_)
  rw [← hnamed, hname]

example : Ambiguous "a_1_b" ∧ Ambiguous "a_-1" ∧ ¬ Ambiguous "1" ∧ ¬ Ambiguous "a_11_b" := by
  decide +kernel

end Index

namespace Collection

variable {c : Collection} {keys : Json}

theorem hasIndex_iff {name : String} : c.hasIndex name ↔ ∃ i ∈ c.indexes, i.name = name := by
  simp [hasIndex]

theorem Sound.eq_of_name (h : c.Sound) {i j : Index} (hi : i ∈ c.indexes) (hj : j ∈ c.indexes)
    (hname : i.name = j.name) : i = j :=
  List.inj_on_of_nodup_map h.indexNames hi hj hname

theorem indexes_createIndex (c : Collection) (keys : Json) :
    (c.createIndex keys).indexes = c.indexes ++
      if c.hasIndex (Index.nameOf keys) then [] else [⟨Index.nameOf keys, keys⟩] := by
  rw [createIndex]
  split <;> simp

theorem holds_createIndex (h : c.Sound) :
    (∃ i ∈ (c.createIndex keys).indexes, i.keys = keys) ↔
      ∀ i ∈ c.indexes, ¬ i.Namesake keys := by
  rw [indexes_createIndex]
  split
  · next hhas =>
    obtain ⟨i, hi, hname⟩ := hasIndex_iff.1 hhas
    rw [List.append_nil]
    constructor
    · rintro ⟨j, hj, rfl⟩ l hl ⟨hlname, hne⟩
      have hjname := (h.isIndex j hj).1
      exact hne (congrArg Index.keys (h.eq_of_name hl hj (hlname.trans hjname.symm)))
    · intro hnone
      refine ⟨i, hi, ?_⟩
      by_contra hne
      exact hnone i hi ⟨hname, hne⟩
  · next hhas =>
    refine iff_of_true ⟨_, List.mem_append_right _ (List.mem_singleton_self _), rfl⟩ ?_
    intro i hi hsame
    exact hhas (hasIndex_iff.2 ⟨i, hi, hsame.1⟩)

theorem dropIndex_of_hasIndex (h : c.hasIndex (Index.nameOf keys)) :
    ∃ before i after, c.indexes = before ++ i :: after ∧ i.name = Index.nameOf keys ∧
      c.dropIndex keys = .ok { c with indexes := before ++ after } := by
  obtain ⟨j, hj, hname⟩ := hasIndex_iff.1 h
  obtain ⟨i, before, after, -, hi, hindexes, herased⟩ :=
    List.exists_of_eraseP (p := fun i => decide (i.name = Index.nameOf keys)) hj
      (decide_eq_true hname)
  refine ⟨before, i, after, hindexes, of_decide_eq_true hi, ?_⟩
  rw [dropIndex, if_pos h, herased]

end Collection

namespace Store

open Index (nameOf)

variable {s t : Store} {name : String} {keys : Json} {i : Index}

structure Reindexed (s : Store) (name : String) (indexes : List Index) (t : Store) : Prop where
  documents : (t.getD name).documents = (s.getD name).documents
  indexes : (t.getD name).indexes = indexes
  others : ∀ other, other ≠ name → t.get? other = s.get? other

theorem reindexed_commit {c : Collection} (hc : c.documents = (s.getD name).documents) :
    Reindexed s name c.indexes (s.commit name (some c)) where
  documents := by rw [getD, get?_commit_self, Option.getD_some, hc]
  indexes := by rw [getD, get?_commit_self, Option.getD_some]
  others other ho := get?_commit_of_ne ho ..

theorem exists_of_hasIndex (h : (s.getD name).hasIndex (nameOf keys)) :
    ∃ c, s.get? name = some c ∧ s.getD name = c := by
  cases hc : s.get? name with
  | none =>
    rw [getD_of_none hc] at h
    contradiction
  | some c => exact ⟨c, rfl, getD_of_some hc⟩

section

variable [Regex.Engine]

structure CreatesIndex (s : Store) (name : String) (keys : Json) (t : Store) : Prop where
  create fresh : perform name fresh (.createIndex keys) s = (.ok (nameOf keys), t)
  change : Reindexed s name ((s.getD name).indexes ++
    if (s.getD name).hasIndex (nameOf keys) then [] else [⟨nameOf keys, keys⟩]) t

structure DropsIndex (s : Store) (name : String) (keys : Json) (i : Index) (t : Store) : Prop where
  drop fresh : perform name fresh (.dropIndex keys) s = (.ok (), t)
  name_eq : i.name = nameOf keys
  change : ∃ before after, (s.getD name).indexes = before ++ i :: after ∧
    Reindexed s name (before ++ after) t

structure LacksIndex (s : Store) (name : String) (keys : Json) : Prop where
  drop fresh : perform name fresh (.dropIndex keys) s = (.error (.indexNotFound (nameOf keys)), s)
  absent : ∀ i ∈ (s.getD name).indexes, i.name ≠ nameOf keys

theorem createsIndex {ks : List SortKey} (hkeys : SortKey.ofOrder keys = .ok ks) (s : Store)
    (name : String) :
    CreatesIndex s name keys (s.commit name (some ((s.getD name).createIndex keys))) where
  create fresh := by
    rw [Effect.perform_makes name fresh (.createIndex keys) s]
    simp only [Operation.change, hkeys]
    rfl
  change := by
    rw [← Collection.indexes_createIndex]
    exact reindexed_commit (Collection.documents_createIndex ..)

theorem dropsIndex_of_hasIndex (h : (s.getD name).hasIndex (nameOf keys)) :
    ∃ i t, DropsIndex s name keys i t := by
  obtain ⟨c, hc, hgetD⟩ := exists_of_hasIndex h
  obtain ⟨before, i, after, hindexes, hname, hdrop⟩ := Collection.dropIndex_of_hasIndex h
  refine ⟨i, s.commit name (some { s.getD name with indexes := before ++ after }), ?_, hname,
    before, after, hindexes, reindexed_commit (c := ⟨_, before ++ after⟩) rfl⟩
  intro fresh
  rw [Effect.perform_makes name fresh (.dropIndex keys) s, hc]
  rw [hgetD] at hdrop ⊢
  simp only [Operation.change, hdrop]
  rfl

theorem lacksIndex_of_not_hasIndex (h : ¬ (s.getD name).hasIndex (nameOf keys)) :
    LacksIndex s name keys where
  drop fresh := by
    rw [Effect.perform_makes name fresh (.dropIndex keys) s]
    cases hc : s.get? name with
    | none => rfl
    | some c =>
      rw [getD_of_some hc] at h
      simp only [Operation.change, Collection.dropIndex, if_neg h]
      rfl
  absent i hi hname := h (Collection.hasIndex_iff.2 ⟨i, hi, hname⟩)

theorem DropsIndex.keys_eq_iff (h : DropsIndex s name keys i t) (hs : (s.getD name).Sound) :
    i.keys = keys ↔ ∀ j ∈ (s.getD name).indexes, ¬ j.Namesake keys := by
  -- in a sound collection names are apart, so a namesake would be the index that is dropped
  obtain ⟨before, after, hindexes, -⟩ := h.change
  have hi : i ∈ (s.getD name).indexes := by simp [hindexes]
  constructor
  · rintro hkeys j hj ⟨hname, hne⟩
    obtain rfl := hs.eq_of_name hj hi (hname.trans h.name_eq.symm)
    exact hne hkeys
  · intro hnone
    by_contra hne
    exact hnone i hi ⟨h.name_eq, hne⟩

/-- In what a run from no collections leads to, an index can be made for every order, and then the
collection has an index with these keys; dropping by an order drops the index with these keys and
no other, or fails if no index has its name.  This is so unless the index with the name of the
order has other keys, which only happens if a field of either has a direction inside. -/
theorem createIndex_dropIndex {calls : List Call} (hcalls : ∀ call ∈ calls, call.WellFormed)
    {ks : List SortKey} (hkeys : SortKey.ofOrder keys = .ok ks) (name : String) :
    let s := calls.foldl Call.after empty
    (∃ t, CreatesIndex s name keys t ∧
      ((∃ i ∈ (t.getD name).indexes, i.keys = keys) ↔
        ∀ i ∈ (s.getD name).indexes, ¬ i.Namesake keys)) ∧
      ((∃ i t, DropsIndex s name keys i t ∧
          (i.keys = keys ↔ ∀ j ∈ (s.getD name).indexes, ¬ j.Namesake keys)) ∨
        LacksIndex s name keys) ∧
      ∀ i ∈ (s.getD name).indexes, i.Namesake keys →
        ∃ field ∈ Index.fields i.keys ++ Index.fields keys, SortKey.Ambiguous field := by
  intro s
  have hsound : (s.getD name).Sound := (sound_empty.foldl hcalls).getD name
  refine ⟨⟨_, createsIndex hkeys s name, ?_⟩, ?_, fun i hi hsame => ?_⟩
  · rw [getD, get?_commit_self, Option.getD_some]
    exact Collection.holds_createIndex hsound
  · by_cases h : (s.getD name).hasIndex (nameOf keys)
    · obtain ⟨i, t, hdrops⟩ := dropsIndex_of_hasIndex h
      exact .inl ⟨i, t, hdrops, hdrops.keys_eq_iff hsound⟩
    · exact .inr (lacksIndex_of_not_hasIndex h)
  · exact hsame.exists_ambiguous (hsound.isIndex i hi) hkeys

end

def twoFields : List Call :=
  [.on "people" "a" (.createIndex (.object [("a", .int 1), ("b", .int 1)]))]

theorem createIndex_dropIndex_twoFields :
    let s := twoFields.foldl Call.after empty
    let both := Json.object [("a", .int 1), ("b", .int 1)]
    let joined := Json.object [("a_1_b", .int 1)]
    (∀ call ∈ twoFields, call.WellFormed) ∧
      SortKey.ofOrder joined = .ok [⟨"a_1_b", false⟩] ∧
      (∃ t, CreatesIndex s "people" joined t ∧ ¬ ∃ i ∈ (t.getD "people").indexes, i.keys = joined) ∧
      ∃ i t, DropsIndex s "people" joined i t ∧ i.keys = both ∧ (t.getD "people").indexes = [] := by
  intro s both joined
  have hcalls : ∀ call ∈ twoFields, call.WellFormed := by
    simp [twoFields, Call.WellFormed, Operation.WellFormed]
  have hkeys : SortKey.ofOrder joined = .ok [⟨"a_1_b", false⟩] := rfl
  have hindexes : (s.getD "people").indexes = [⟨"a_1_b_1", both⟩] := rfl
  have hmem : ⟨"a_1_b_1", both⟩ ∈ (s.getD "people").indexes := hindexes ▸ List.mem_cons_self
  have hsame : Index.Namesake ⟨"a_1_b_1", both⟩ joined := ⟨rfl, by simp [both, joined]⟩
  obtain ⟨⟨t, hcreates, hholds⟩, ⟨i, t', hdrops, -⟩ | hlacks, -⟩ :=
    createIndex_dropIndex hcalls hkeys "people"
  · refine ⟨hcalls, hkeys, ⟨t, hcreates, ?_⟩, i, t', hdrops, ?_⟩
    · rw [hholds]
      exact fun hnone => hnone _ hmem hsame
    · obtain ⟨before, after, hsplit, hchange⟩ := hdrops.change
      rw [hindexes] at hsplit
      obtain ⟨rfl, hcons⟩ | ⟨-, hcons⟩ := List.append_eq_singleton_iff.1 hsplit.symm
      · obtain ⟨rfl, rfl⟩ := List.cons.inj hcons
        exact ⟨rfl, hchange.indexes⟩
      · exact absurd hcons (List.cons_ne_nil _ _)
  · exact absurd hsame.1 (hlacks.absent _ hmem)

end Store

end DocQuery
