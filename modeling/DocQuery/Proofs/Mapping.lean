import DocQuery.Entity.TestEntity
import DocQuery.Proofs.Fields
import DocQuery.Proofs.Identity

namespace DocQuery

open Collection (idKey stringId?)

namespace EntityType

variable {α : Type}

structure Maps (t : EntityType α) (alike : α → α → Prop) (a : α) (fs : Fields Json) : Prop where
  toJson_eq : t.toJson a = .object fs
  nodup : (Fields.keys fs).Nodup
  id?_eq : t.id? a = stringId? (.object fs)
  reads {gs : Fields Json} (h : gs.Perm fs) : ∃ b, t.ofJson? (.object gs) = some b ∧ alike b a

structure Faithful (t : EntityType α) (alike : α → α → Prop) (a : α) (fs : Fields Json) :
    Prop extends t.Maps alike a fs where
  withId (id : String) : ∃ gs, gs.Perm (Fields.insert idKey (.string id) fs) ∧
    t.Maps alike (t.withId id a) gs

section

variable {t : EntityType α} {alike : α → α → Prop} {a : α} {fs : Fields Json}

theorem Maps.toFields_eq (h : t.Maps alike a fs) : t.toFields a = .ok fs := by
  rw [toFields, h.toJson_eq]

theorem Maps.ofDocument (h : t.Maps alike a fs) {gs : Fields Json} (hgs : gs.Perm fs) :
    ∃ b, t.ofDocument (.object gs) = .ok b ∧ alike b a := by
  obtain ⟨b, hb, halike⟩ := h.reads hgs
  exact ⟨b, by rw [EntityType.ofDocument, hb], halike⟩

theorem Maps.get?_idKey (h : t.Maps alike a fs) {id : String} (hid : t.id? a = some id) :
    Fields.get? idKey fs = some (.string id) := by
  rw [h.id?_eq] at hid
  exact Collection.stringId?_eq_some.1 hid

theorem Maps.get?_erased (h : t.Maps alike a fs) :
    Fields.get? idKey (Fields.swapErase idKey fs) = none :=
  Fields.get?_of_not_mem (Fields.not_mem_keys_swapErase h.nodup idKey)

end

end EntityType

inductive Json.Reorders : Json → Json → Prop
  | object {es fs : Fields Json} : es.Perm fs → Reorders (.object es) (.object fs)

theorem EntityType.json_maps (collection : String) {fs : Fields Json}
    (h : (Fields.keys fs).Nodup) :
    (json collection).Maps Json.Reorders (.object fs) fs where
  toJson_eq := rfl
  nodup := h
  id?_eq := rfl
  reads hgs := ⟨_, rfl, .object hgs⟩

theorem EntityType.json_faithful (collection : String) {fs : Fields Json}
    (h : (Fields.keys fs).Nodup) :
    (json collection).Faithful Json.Reorders (.object fs) fs where
  toMaps := json_maps collection h
  withId _ := ⟨_, List.Perm.refl _, json_maps collection (Fields.nodup_keys_insert h _)⟩

namespace TestEntity

def IsInt64 (i : Int) : Prop := -2 ^ 63 ≤ i ∧ i < 2 ^ 63

structure Fits (e : TestEntity) : Prop where
  int : ∀ i ∈ e.int, IsInt64 i
  date : ∀ i ∈ e.date, IsInt64 i

def toFields (e : TestEntity) : Fields Json :=
  (e.id.map fun id => (idKey, Json.string id)).toList ++
    [("testBool", (e.bool.map Json.bool).getD .null),
     ("testInt", (e.int.map Json.int).getD .null),
     ("testStr", (e.str.map Json.string).getD .null),
     ("testDate", (e.date.map Json.int).getD .null)]

theorem field_of_get? {β : Type} {read : Json → Option β} {write : β → Json} {key : String}
    {fs : Fields Json} {o : Option β}
    (hget : (Fields.get? key fs).getD .null = (o.map write).getD .null)
    (hread : ∀ x ∈ o, read (write x) = some x ∧ write x ≠ .null) :
    field read key fs = some o := by
  cases o with
  | none =>
    cases hfs : Fields.get? key fs with
    | none => rw [field, hfs]
    | some v =>
      obtain rfl : v = .null := by simpa [hfs] using hget
      rw [field, hfs]
  | some x =>
    obtain ⟨hx, hnull⟩ := hread x rfl
    cases hfs : Fields.get? key fs with
    | none => exact absurd (by simpa [hfs] using hget.symm) hnull
    | some v =>
      obtain rfl : v = write x := by simpa [hfs] using hget
      simp only [field, hfs, hx, Option.map_some]

theorem asInt?_int {i : Int} (h : IsInt64 i) : asInt? (.int i) = some i := if_pos h

theorem nodup_keys_toFields (e : TestEntity) : (Fields.keys e.toFields).Nodup := by
  obtain ⟨_ | id, _, _, _, _⟩ := e
  · simp [toFields, Fields.keys]
  · simp [toFields, Fields.keys, idKey]

structure Holds (fs : Fields Json) (e : TestEntity) : Prop where
  id : (Fields.get? idKey fs).getD .null = (e.id.map Json.string).getD .null
  bool : (Fields.get? "testBool" fs).getD .null = (e.bool.map Json.bool).getD .null
  int : (Fields.get? "testInt" fs).getD .null = (e.int.map Json.int).getD .null
  str : (Fields.get? "testStr" fs).getD .null = (e.str.map Json.string).getD .null
  date : (Fields.get? "testDate" fs).getD .null = (e.date.map Json.int).getD .null

theorem holds_toFields (e : TestEntity) : Holds e.toFields e := by
  obtain ⟨_ | id, bool, int, str, date⟩ := e
  · exact ⟨rfl, rfl, rfl, rfl, rfl⟩
  · exact ⟨rfl, rfl, rfl, rfl, rfl⟩

theorem Holds.perm {e : TestEntity} {es fs : Fields Json} (h : Holds fs e)
    (hfs : (Fields.keys fs).Nodup) (hperm : es.Perm fs) : Holds es e := by
  have hget := Fields.get?_perm hfs hperm
  constructor
  · rw [hget, h.id]
  · rw [hget, h.bool]
  · rw [hget, h.int]
  · rw [hget, h.str]
  · rw [hget, h.date]

theorem Holds.ofFields? {e : TestEntity} {fs : Fields Json} (h : Holds fs e) (he : e.Fits) :
    ofFields? fs = some e := by
  have hid : field Json.asString? "_id" fs = some e.id :=
    field_of_get? h.id fun _ _ => ⟨rfl, nofun⟩
  have hbool : field asBool? "testBool" fs = some e.bool :=
    field_of_get? h.bool fun _ _ => ⟨rfl, nofun⟩
  have hint : field asInt? "testInt" fs = some e.int :=
    field_of_get? h.int fun i hi => ⟨asInt?_int (he.int i hi), nofun⟩
  have hstr : field Json.asString? "testStr" fs = some e.str :=
    field_of_get? h.str fun _ _ => ⟨rfl, nofun⟩
  have hdate : field asInt? "testDate" fs = some e.date :=
    field_of_get? h.date fun i hi => ⟨asInt?_int (he.date i hi), nofun⟩
  rw [TestEntity.ofFields?, hid, hbool, hint, hstr, hdate]
  rfl

theorem maps {e : TestEntity} (he : e.Fits) : entityType.Maps Eq e e.toFields where
  toJson_eq := rfl
  nodup := e.nodup_keys_toFields
  id?_eq := by
    obtain ⟨_ | id, _, _, _, _⟩ := e <;> rfl
  reads hgs := ⟨e, (e.holds_toFields.perm e.nodup_keys_toFields hgs).ofFields? he, rfl⟩

theorem faithful {e : TestEntity} (he : e.Fits) : entityType.Faithful Eq e e.toFields where
  toMaps := maps he
  withId id := by
    refine ⟨_, ?_, maps ⟨he.int, he.date⟩⟩
    obtain ⟨_ | old, bool, int, str, date⟩ := e
    · exact (List.perm_append_singleton ..).symm
    · exact List.Perm.refl _

end TestEntity

end DocQuery
