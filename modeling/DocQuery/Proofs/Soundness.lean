import DocQuery.Proofs.Equality
import DocQuery.Proofs.Locality
import DocQuery.Regex.Reader

namespace DocQuery

namespace SortKey

def IsDirection (v : Json) : Prop := v = .int 1 ∨ v = .int (-1)

theorem asInt64?_eq_some {n : Number} {i : Int} (h : n.asInt64? = some i) : n = .int i := by
  cases n with
  | int j =>
    simp only [Number.asInt64?] at h
    split at h
    · rw [Option.some.inj h]
    · contradiction
  | float x => contradiction

theorem isDirection_of_ofFields {fs : List (String × Json)} {ks : List SortKey}
    (h : ofFields fs = .ok ks) : ∀ f ∈ fs, IsDirection f.2 := by
  induction fs generalizing ks with
  | nil => nofun
  | cons f fs ih =>
    obtain ⟨field, direction⟩ := f
    have hrest : ∀ {k : SortKey}, (ofFields fs).map (k :: ·) = .ok ks →
        ∀ f ∈ fs, IsDirection f.2 := by
      intro k hk
      obtain ⟨rest, hrest, _⟩ := map_eq_ok hk
      exact ih hrest
    cases direction with
    | number n =>
      rw [ofFields] at h
      split at h
      · next hn =>
        exact List.forall_mem_cons.2 ⟨.inl (congrArg Json.number (asInt64?_eq_some hn)), hrest h⟩
      · split at h
        · next hn =>
          exact List.forall_mem_cons.2 ⟨.inr (congrArg Json.number (asInt64?_eq_some hn)), hrest h⟩
        · contradiction
    | _ => contradiction

theorem isDirection_of_ofOrder {keys : Json} {ks : List SortKey} (h : ofOrder keys = .ok ks) :
    ∃ f fs, keys = .object (f :: fs) ∧ ∀ g ∈ f :: fs, IsDirection g.2 := by
  unfold ofOrder at h
  split at h
  · next f fs => exact ⟨f, fs, rfl, isDirection_of_ofFields h⟩
  · contradiction

end SortKey

namespace Collection

def idOf (d : Json) : Json := (d.get? idKey).getD .null

def IsDocument (d : Json) : Prop :=
  ∃ fs id, d = .object fs ∧ Fields.get? idKey fs = some id ∧ id ≠ .null

def IsIndex (i : Index) : Prop :=
  i.name = Index.nameOf i.keys ∧
    ∃ f fs, i.keys = .object (f :: fs) ∧ ∀ g ∈ f :: fs, SortKey.IsDirection g.2

structure Sound (c : Collection) : Prop where
  isDocument : ∀ d ∈ c.documents, IsDocument d
  wellFormed : ∀ d ∈ c.documents, d.WellFormed
  -- no two documents have the same id
  distinct : (c.documents.map idOf).Pairwise fun a b => ¬ a.same b ∧ ¬ b.same a
  isIndex : ∀ i ∈ c.indexes, IsIndex i
  indexNames : (c.indexes.map Index.name).Nodup

theorem sound_empty : empty.Sound := by
  constructor <;> simp [empty]

theorem Sound.of_sublist {c d : Collection} (h : c.Sound) (hd : d.documents.Sublist c.documents)
    (hi : d.indexes.Sublist c.indexes) : d.Sound where
  isDocument e he := h.isDocument e (hd.subset he)
  wellFormed e he := h.wellFormed e (hd.subset he)
  distinct := h.distinct.sublist (hd.map idOf)
  isIndex i hi' := h.isIndex i (hi.subset hi')
  indexNames := h.indexNames.sublist (hi.map Index.name)

theorem idOf_wellFormed {d : Json} (h : d.WellFormed) : (idOf d).WellFormed := by
  unfold idOf
  cases d with
  | object fs =>
    cases hid : Fields.get? idKey fs with
    | none => simp [Json.get?, hid, Json.WellFormed]
    | some id =>
      have hmem := Fields.mem_of_get? hid
      simpa [Json.get?, hid] using (Json.object_wellFormed_iff.1 h).2 _ hmem
  | _ => simp [Json.get?, Json.WellFormed]

theorem not_same_of_hasId {c : Collection} (h : c.Sound) {id : Json} (hid : ¬ c.hasId id)
    {d : Json} (hd : d ∈ c.documents) : ¬ (idOf d).same id := by
  obtain ⟨fs, old, rfl, hold, _⟩ := h.isDocument d hd
  intro hsame
  apply hid
  refine List.any_eq_true.2 ⟨_, hd, ?_⟩
  simpa [idOf, Json.get?, hold] using hsame

theorem Sound.append {c : Collection} (h : c.Sound) {d : Json} (hd : IsDocument d)
    (hwf : d.WellFormed) (hid : ¬ c.hasId (idOf d)) :
    Sound { c with documents := c.documents ++ [d] } where
  isDocument := by
    simpa only [List.forall_mem_append, List.forall_mem_singleton] using ⟨h.isDocument, hd⟩
  wellFormed := by
    simpa only [List.forall_mem_append, List.forall_mem_singleton] using ⟨h.wellFormed, hwf⟩
  distinct := by
    rw [List.map_append, List.pairwise_append]
    refine ⟨h.distinct, List.pairwise_singleton .., ?_⟩
    intro a ha b hb
    obtain ⟨e, he, rfl⟩ := List.mem_map.1 ha
    obtain rfl : b = idOf d := by simpa using hb
    -- an insertion compares in one direction only
    have hne := not_same_of_hasId h hid he
    refine ⟨hne, fun hsame => hne ?_⟩
    exact Json.same_symm (idOf_wellFormed hwf) (idOf_wellFormed (h.wellFormed e he)) hsame
  isIndex := h.isIndex
  indexNames := h.indexNames

theorem isNull_iff {v : Json} : v.isNull ↔ v = .null := by
  cases v <;> simp [Json.isNull]

theorem withId_spec {fresh : Json} (hfresh : fresh ≠ .null) (fs : Fields Json) :
    Fields.get? idKey (withId fresh fs).2 = some (withId fresh fs).1 ∧
      (withId fresh fs).1 ≠ .null := by
  unfold withId
  split
  · exact ⟨Fields.get?_insert_self .., hfresh⟩
  · next h =>
    have hid : ((Fields.get? idKey fs).getD .null) ≠ .null := fun hnull => h (isNull_iff.2 hnull)
    cases hget : Fields.get? idKey fs with
    | none => simp [hget] at hid
    | some id => exact ⟨rfl, by simpa [hget] using hid⟩

theorem withId_wellFormed {fresh : Json} (hfresh : fresh.WellFormed) {fs : Fields Json}
    (h : (Json.object fs).WellFormed) : (Json.object (withId fresh fs).2).WellFormed := by
  unfold withId
  split
  · rw [Json.object_wellFormed_iff] at h ⊢
    refine ⟨Fields.nodup_keys_insert h.1 fresh, fun f hf => ?_⟩
    rcases Fields.mem_insert hf with rfl | hf
    · exact hfresh
    · exact h.2 f hf
  · exact h

theorem Sound.insert {c : Collection} (h : c.Sound) {name : String} {fresh document : Json}
    (hfresh : fresh ≠ .null ∧ fresh.WellFormed) (hwf : document.WellFormed) {r : Json × Collection}
    (hr : c.insert name fresh document = .ok r) : r.2.Sound := by
  cases document with
  | object fs =>
    obtain ⟨hid, hnull⟩ := withId_spec hfresh.1 fs
    have hdoc := withId_wellFormed hfresh.2 hwf
    simp only [Collection.insert] at hr
    split at hr
    · contradiction
    · next hnew =>
      cases hr
      refine h.append ⟨_, _, rfl, hid, hnull⟩ hdoc ?_
      simpa [idOf, Json.get?, hid] using hnew
  | _ => contradiction

theorem idOf_replacement (d : Json) (fs : Fields Json) : idOf (replacement d fs) = idOf d := by
  simp [idOf, replacement, Json.get?, Fields.get?]

theorem replacement_isDocument {d : Json} (h : IsDocument d) (fs : Fields Json) :
    IsDocument (replacement d fs) := by
  obtain ⟨gs, id, rfl, hid, hnull⟩ := h
  exact ⟨_, id, rfl, by simp [Fields.get?, Json.get?, hid], hnull⟩

theorem replacement_wellFormed {d : Json} (h : d.WellFormed) {fs : Fields Json}
    (hfs : (Json.object fs).WellFormed) : (replacement d fs).WellFormed := by
  rw [Json.object_wellFormed_iff] at hfs
  have hsub : (fs.filter (·.1 != idKey)).Sublist fs := List.filter_sublist
  refine Json.object_wellFormed_iff.2 ⟨?_, ?_⟩
  · refine List.nodup_cons.2 ⟨?_, hfs.1.sublist (hsub.map Prod.fst)⟩
    intro hmem
    obtain ⟨f, hf, hkey⟩ := List.mem_map.1 hmem
    simp [List.mem_filter, hkey] at hf
  · exact List.forall_mem_cons.2 ⟨idOf_wellFormed h, fun f hf => hfs.2 f (hsub.subset hf)⟩

section

variable [Regex.Engine]

theorem replaceFirst_spec {filter : Json} {fs : Fields Json} {ds : List Json}
    {r : Bool × List Json} (hr : replaceFirst filter fs ds = .ok r) :
    r.2.map idOf = ds.map idOf ∧ ∀ e ∈ r.2, ∃ d ∈ ds, e = d ∨ e = replacement d fs := by
  induction ds generalizing r with
  | nil =>
    cases hr
    exact ⟨rfl, nofun⟩
  | cons d ds ih =>
    rw [replaceFirst] at hr
    split at hr
    · contradiction
    · cases hr
      refine ⟨by rw [List.map_cons, List.map_cons, idOf_replacement], ?_⟩
      refine List.forall_mem_cons.2 ⟨⟨d, List.mem_cons_self, .inr rfl⟩, fun e he => ?_⟩
      exact ⟨e, List.mem_cons_of_mem d he, .inl rfl⟩
    · obtain ⟨rest, hrest, rfl⟩ := map_eq_ok hr
      obtain ⟨hids, hmem⟩ := ih hrest
      refine ⟨by rw [List.map_cons, List.map_cons, hids], ?_⟩
      refine List.forall_mem_cons.2 ⟨⟨d, List.mem_cons_self, .inl rfl⟩, fun e he => ?_⟩
      obtain ⟨d', hd', heq⟩ := hmem e he
      exact ⟨d', List.mem_cons_of_mem d hd', heq⟩

theorem Sound.update {c : Collection} (h : c.Sound) {filter : Json} {fs : Fields Json}
    (hfs : (Json.object fs).WellFormed) {r : Nat × Collection} (hr : c.update filter fs = .ok r) :
    r.2.Sound := by
  rw [Collection.update] at hr
  split at hr
  · contradiction
  · next found ds hds =>
    cases hr
    obtain ⟨hids, hmem⟩ := replaceFirst_spec hds
    refine ⟨fun e he => ?_, fun e he => ?_, hids ▸ h.distinct, h.isIndex, h.indexNames⟩
    · obtain ⟨d, hd, rfl | rfl⟩ := hmem e he
      · exact h.isDocument e hd
      · exact replacement_isDocument (h.isDocument d hd) fs
    · obtain ⟨d, hd, rfl | rfl⟩ := hmem e he
      · exact h.wellFormed e hd
      · exact replacement_wellFormed (h.wellFormed d hd) hfs

theorem rejectFrom_sublist {filter : Json} {ds rest : List Json}
    (h : rejectFrom filter ds = .ok rest) : rest.Sublist ds := by
  induction ds generalizing rest with
  | nil =>
    cases h
    exact List.Sublist.refl _
  | cons d ds ih =>
    rw [rejectFrom] at h
    split at h
    · contradiction
    · next b _ =>
      obtain ⟨kept, hkept, rfl⟩ := map_eq_ok h
      cases b with
      | true => exact (ih hkept).cons d
      | false => exact (ih hkept).cons_cons d

theorem Sound.remove {c : Collection} (h : c.Sound) {filter : Json} {r : Nat × Collection}
    (hr : c.remove filter = .ok r) : r.2.Sound := by
  rw [Collection.remove] at hr
  split at hr
  · contradiction
  · next rest hrest =>
    cases hr
    exact h.of_sublist (rejectFrom_sublist hrest) (List.Sublist.refl _)

end

@[simp] theorem documents_createIndex (c : Collection) (keys : Json) :
    (c.createIndex keys).documents = c.documents := by
  rw [createIndex]
  split <;> rfl

theorem Sound.createIndex {c : Collection} (h : c.Sound) {keys : Json} {ks : List SortKey}
    (hks : SortKey.ofOrder keys = .ok ks) : (c.createIndex keys).Sound := by
  rw [Collection.createIndex]
  split
  · exact h
  · next hnew =>
    refine ⟨h.isDocument, h.wellFormed, h.distinct, ?_, ?_⟩
    · have hindex : IsIndex ⟨Index.nameOf keys, keys⟩ := ⟨rfl, SortKey.isDirection_of_ofOrder hks⟩
      simpa only [List.forall_mem_append, List.forall_mem_singleton] using ⟨h.isIndex, hindex⟩
    · rw [List.map_append, List.map_singleton]
      refine List.nodup_append.2 ⟨h.indexNames, by simp, ?_⟩
      rintro a ha _ hb rfl
      obtain ⟨i, hi, hname⟩ := List.mem_map.1 ha
      apply hnew
      exact List.any_eq_true.2 ⟨i, hi, by simp [hname, List.mem_singleton.1 hb]⟩

theorem Sound.dropIndex {c d : Collection} (h : c.Sound) {keys : Json}
    (hd : c.dropIndex keys = .ok d) : d.Sound := by
  rw [Collection.dropIndex] at hd
  split at hd
  · cases hd
    exact h.of_sublist (List.Sublist.refl _) List.eraseP_sublist
  · contradiction

theorem Sound.dropIndexes {c : Collection} (h : c.Sound) : c.dropIndexes.Sound :=
  h.of_sublist (List.Sublist.refl _) (List.nil_sublist _)

end Collection

def Operation.WellFormed {α : Type} : Operation α → Prop
  | insert document | update _ document => document.WellFormed
  | _ => True

section

variable [Regex.Engine]

theorem Operation.change_sound {α : Type} {op : Operation α} (hop : op.WellFormed) {name : String}
    {fresh : Json} (hfresh : fresh ≠ .null ∧ fresh.WellFormed) {c : Option Collection}
    (hc : ∀ d ∈ c, d.Sound) {r : α × Option Collection} (hr : op.change name fresh c = .ok r) :
    ∀ d ∈ r.2, d.Sound := by
  intro d hd
  have hgetD : (c.getD .empty).Sound := by
    cases c with
    | none => exact Collection.sound_empty
    | some c => exact hc c rfl
  rcases change_cases hr hd with rfl | hmade
  · exact hc d rfl
  · cases hmade with
    | insert h => exact hgetD.insert hfresh hop h
    | update h => exact hgetD.update hop h
    | remove h => exact hgetD.remove h
    | createIndex h => exact hgetD.createIndex h
    | dropIndex h => exact hgetD.dropIndex h
    | dropIndexes => exact hgetD.dropIndexes

end

namespace Store

def Sound (s : Store) : Prop := ∀ name, ∀ c ∈ s.get? name, c.Sound

theorem sound_empty : empty.Sound := nofun

theorem Sound.getD {s : Store} (h : s.Sound) (name : String) : (s.getD name).Sound := by
  rw [Store.getD]
  cases hc : s.get? name with
  | none => exact Collection.sound_empty
  | some c => exact h name c hc

section

variable [Regex.Engine]

theorem Sound.perform {α : Type} {s : Store} (h : s.Sound) {op : Operation α}
    (hop : op.WellFormed) (name : String) {fresh : Json}
    (hfresh : fresh ≠ .null ∧ fresh.WellFormed) : (perform name fresh op s).2.Sound := by
  rw [Effect.perform_makes name fresh op s]
  cases hr : op.change name fresh (s.get? name) with
  | error e => exact h
  | ok r =>
    intro other
    by_cases ho : other = name
    · rw [ho, get?_commit_self]
      exact Operation.change_sound hop hfresh (h name) hr
    · rw [get?_commit_of_ne ho]
      exact h other

end

inductive Call : Type 1 where
  | on {α : Type} (name id : String) (op : Operation α)
  | clear

namespace Call

variable [Regex.Engine]

def after (s : Store) : Call → Store
  | on name id op => (Store.perform name (.string id) op s).2
  | clear => (Effect.clear s).2

def WellFormed : Call → Prop
  | on _ _ op => op.WellFormed
  | clear => True

end Call

section

variable [Regex.Engine]

theorem Sound.after {s : Store} (h : s.Sound) {call : Call} (hcall : call.WellFormed) :
    (call.after s).Sound := by
  cases call with
  | on name id op => exact h.perform hcall name ⟨nofun, by simp [Json.WellFormed]⟩
  | clear => exact sound_empty

theorem Sound.foldl {s : Store} (h : s.Sound) {calls : List Call}
    (hcalls : ∀ call ∈ calls, call.WellFormed) : (calls.foldl Call.after s).Sound := by
  induction calls generalizing s with
  | nil => exact h
  | cons call calls ih =>
    obtain ⟨hcall, hcalls⟩ := List.forall_mem_cons.1 hcalls
    exact ih (h.after hcall) hcalls

/-- Every run that begins with no collections keeps all its collections sound. -/
theorem run_sound {calls : List Call} (h : ∀ call ∈ calls, call.WellFormed) :
    (calls.foldl Call.after empty).Sound :=
  sound_empty.foldl h

end

def hostileCalls : List Call := [
  .on "people" "a" (.insert (.object [("name", .string "Ann"), ("_id", .null)])),
  .on "people" "b" (.insert (.object [("_id", .string "a")])),
  .on "people" "c" (.update (.object []) (.object [("n", .int 1), ("_id", .string "z")])),
  .on "people" "d" (.createIndex (.object [("n", .int (-1))])),
  .on "people" "e" (.createIndex (.object [("n", .int 2)]))]

theorem run_sound_hostile :
    (∀ call ∈ hostileCalls, call.WellFormed) ∧ (hostileCalls.foldl Call.after empty).Sound ∧
      ((hostileCalls.foldl Call.after empty).get? "people").map
          (fun c => (c.documents.map fun d => (Collection.idOf d).text, c.indexNames)) =
        some (["\"a\""], ["_id_", "n_-1"]) := by
  have h : ∀ call ∈ hostileCalls, call.WellFormed := by
    simp [hostileCalls, Call.WellFormed, Operation.WellFormed, Json.WellFormed,
      Json.WellFormedFields, Fields.keys, Json.int]
  exact ⟨h, run_sound h, by decide +kernel⟩

end Store

end DocQuery
