import DocQuery.Json.Path
import DocQuery.Proofs.Fields

namespace DocQuery.Json

def path (s : String) : List String := (segments s.toList).map String.ofList

def fieldsOf : Json → Fields Json
  | object fs => fs
  | _ => []

theorem get?_fieldsOf (key : String) (v : Json) : Fields.get? key v.fieldsOf = v.get? key := by
  cases v <;> rfl

def place (v : Json) : List String → Json → Json
  | [], _ => v
  | k :: ks, d => object (Fields.insert k (place v ks ((d.get? k).getD null)) d.fieldsOf)

theorem get?_place_self (v : Json) (k : String) (ks : List String) (d : Json) :
    (place v (k :: ks) d).get? k = some (place v ks ((d.get? k).getD null)) := by
  simp [place, get?]

theorem get?_place_of_ne (v : Json) {k l : String} (h : l ≠ k) (ks : List String) (d : Json) :
    (place v (k :: ks) d).get? l = d.get? l := by
  rw [place, get?, Fields.get?_insert_of_ne h, get?_fieldsOf]

/-- Paths that part before either of them ends. -/
def Apart (p q : List String) : Prop := ¬ p <+: q ∧ ¬ q <+: p

@[simp] theorem descend_place_self (v : Json) (p : List String) (d : Json) :
    descend p (place v p d) = some v := by
  induction p generalizing d with
  | nil => rfl
  | cons k ks ih => simp [descend, get?_place_self, ih]

theorem descend_place_of_apart (v : Json) {p q : List String} (h : Apart p q) (d : Json) :
    descend q (place v p d) = descend q d := by
  induction p generalizing q d with
  | nil => exact absurd List.nil_prefix h.1
  | cons k ks ih =>
    cases q with
    | nil => exact absurd List.nil_prefix h.2
    | cons l ls =>
      by_cases hk : l = k
      · subst hk
        have hrest : Apart ks ls := by simpa [Apart, List.cons_prefix_cons] using h
        rw [descend, get?_place_self, Option.bind_some, ih hrest, descend]
        cases d.get? l with
        | none =>
          cases ls with
          | nil => exact absurd List.nil_prefix hrest.2
          | cons m ms => rfl
        | some w => rfl
      · rw [descend, get?_place_of_ne v hk, descend]

def ofPaths (fs : Fields Json) : Json :=
  fs.foldr (fun f d => place f.2 (path f.1) d) (object [])

theorem at?_ofPaths {fs : Fields Json}
    (h : (Fields.keys fs).Pairwise fun k l => Apart (path k) (path l)) {key : String} {v : Json}
    (hf : (key, v) ∈ fs) : (ofPaths fs).at? key = some v := by
  induction fs with
  | nil => contradiction
  | cons f fs ih =>
    simp only [Fields.keys, List.map_cons, List.pairwise_cons] at h
    rcases List.mem_cons.1 hf with rfl | hf
    · exact descend_place_self _ _ _
    · have hapart := h.1 key (List.mem_map_of_mem (f := Prod.fst) hf)
      exact (descend_place_of_apart _ hapart _).trans (ih h.2 hf)

end DocQuery.Json
