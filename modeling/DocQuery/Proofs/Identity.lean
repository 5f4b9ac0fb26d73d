import DocQuery.Proofs.Paths
import DocQuery.Proofs.Removal
import DocQuery.Proofs.Selection

namespace DocQuery

namespace Collection

def stringId? (d : Json) : Option String := (d.get? idKey).bind Json.asString?

def hasStringId (id : String) (d : Json) : Bool := stringId? d = some id

def StringIds (ds : List Json) : Prop := ∀ d ∈ ds, (stringId? d).isSome

instance (ds : List Json) : Decidable (StringIds ds) :=
  inferInstanceAs (Decidable (∀ d ∈ ds, (stringId? d).isSome))

theorem stringId?_eq_some {d : Json} {id : String} :
    stringId? d = some id ↔ d.get? idKey = some (.string id) := by
  rw [stringId?, Option.bind_eq_some_iff]
  constructor
  · rintro ⟨v, hv, hid⟩
    cases v with
    | string s => rw [hv, Option.some.inj hid]
    | _ => contradiction
  · intro h
    exact ⟨_, h, rfl⟩

theorem get?_of_hasStringId {d : Json} {id : String} (h : hasStringId id d) :
    d.get? idKey = some (.string id) :=
  stringId?_eq_some.1 (of_decide_eq_true h)

theorem hasStringId_of_get? {d : Json} {id : String} (h : d.get? idKey = some (.string id)) :
    hasStringId id d :=
  decide_eq_true (stringId?_eq_some.2 h)

theorem at?_idKey (d : Json) : d.at? idKey = d.get? idKey :=
  Json.at?_of_not_mem (by decide) d

open Repository (idFilter)

theorem StringIds.put {id : String} {d : Json} {before rest : List Json}
    (h : StringIds (before ++ rest)) (hd : hasStringId id d) : StringIds (before ++ d :: rest) := by
  obtain ⟨hbefore, hrest⟩ := List.forall_mem_append.1 h
  have hsome : (stringId? d).isSome := by rw [of_decide_eq_true hd, Option.isSome_some]
  exact List.forall_mem_append.2 ⟨hbefore, List.forall_mem_cons.2 ⟨hsome, hrest⟩⟩

theorem StringIds.of_sublist {es : List Json} (h : StringIds ds) (hes : es.Sublist ds) :
    StringIds es :=
  fun d hd => h d (hes.subset hd)

theorem find?_append_of_absent {id : String} {ds es : List Json}
    (h : ∀ d ∈ ds, ¬ hasStringId id d) :
    (ds ++ es).find? (hasStringId id) = es.find? (hasStringId id) := by
  rw [List.find?_append, List.find?_eq_none.2 h, Option.none_or]

theorem replacement_of_absent {fs : Fields Json} {d : Json} {id : String} (hd : hasStringId id d)
    (h : idKey ∉ Fields.keys fs) : replacement d fs = .object ((idKey, .string id) :: fs) := by
  have hfs : fs.filter (·.1 != idKey) = fs := by
    refine List.filter_eq_self.2 fun f hf => bne_iff_ne.2 fun hkey => h ?_
    exact hkey ▸ List.mem_map_of_mem hf
  rw [replacement, hfs, get?_of_hasStringId hd, Option.getD_some]

theorem withId_of_absent {fs : Fields Json} (fresh : Json) (h : Fields.get? idKey fs = none) :
    withId fresh fs = (fresh, Fields.insert idKey fresh fs) := by
  rw [withId, lacksId, h]
  rfl

variable [Regex.Engine]

theorem holds_idFilter {d : Json} (h : (stringId? d).isSome) (id : String) :
    Filter.holds d (idFilter id) = .ok (hasStringId id d) := by
  obtain ⟨x, hx⟩ := Option.isSome_iff_exists.1 h
  have hsingle : idFilter id = Filter.single idKey (.string id) := rfl
  rw [hsingle, Filter.holds_single (by decide), at?_idKey, stringId?_eq_some.1 hx, hasStringId, hx]
  simp [Filter.clauseHolds, Filter.fieldEquals, Json.equal, Json.same]

theorem isSelected_idFilter {d : Json} (h : (stringId? d).isSome) (id : String) :
    isSelected (idFilter id) d = hasStringId id d :=
  isSelected_of_ok (holds_idFilter h id)

section

variable {ds : List Json}

theorem StringIds.evaluates (h : StringIds ds) (id : String) : Evaluates (idFilter id) ds := by
  intro d hd
  rw [holds_idFilter (h d hd), isSelected_idFilter (h d hd)]

theorem StringIds.find? (h : StringIds ds) (id : String) :
    ds.find? (isSelected (idFilter id)) = ds.find? (hasStringId id) := by
  induction ds with
  | nil => rfl
  | cons d ds ih =>
    obtain ⟨hd, hds⟩ := List.forall_mem_cons.1 h
    rw [List.find?_cons, List.find?_cons, isSelected_idFilter hd, ih hds]

theorem StringIds.reject (h : StringIds ds) (id : String) :
    ds.filter (!isSelected (idFilter id) ·) = ds.filter (!hasStringId id ·) :=
  List.filter_congr fun d hd => by rw [isSelected_idFilter (h d hd)]

end

section

variable {filter : Json} (fs : Fields Json)

theorem findOne_of_evaluates {c : Collection} (h : Evaluates filter c.documents) :
    c.findOne (some filter) = .ok (c.documents.find? (isSelected filter)) := by
  have hselect := select_of_evaluates h
  have hhead : ((c.documents.filter (isSelected filter)).take 1).head? =
      c.documents.find? (isSelected filter) := by
    rw [List.head?_take, if_neg Nat.one_ne_zero, List.head?_filter]
  rw [findOne, find, hselect, ← hhead]
  rfl

theorem replaceFirst_of_unselected {ds : List Json} (h : Evaluates filter ds)
    (hds : ∀ d ∈ ds, ¬ isSelected filter d) : replaceFirst filter fs ds = .ok (false, ds) := by
  induction ds with
  | nil => rfl
  | cons d ds ih =>
    obtain ⟨hd, hrest⟩ := List.forall_mem_cons.1 h
    obtain ⟨hnot, hnone⟩ := List.forall_mem_cons.1 hds
    rw [replaceFirst, hd, Bool.eq_false_iff.2 hnot, ih hrest hnone]
    rfl

theorem replaceFirst_of_selected {before after : List Json} {d : Json}
    (h : Evaluates filter (before ++ d :: after)) (hbefore : ∀ e ∈ before, ¬ isSelected filter e)
    (hd : isSelected filter d) :
    replaceFirst filter fs (before ++ d :: after) =
      .ok (true, before ++ replacement d fs :: after) := by
  induction before with
  | nil => rw [List.nil_append, replaceFirst, (List.forall_mem_cons.1 h).1, hd, List.nil_append]
  | cons e before ih =>
    obtain ⟨he, hrest⟩ := List.forall_mem_cons.1 h
    obtain ⟨hnot, hnone⟩ := List.forall_mem_cons.1 hbefore
    rw [List.cons_append, replaceFirst, he, Bool.eq_false_iff.2 hnot, ih hrest hnone]
    rfl

end

end Collection

end DocQuery
