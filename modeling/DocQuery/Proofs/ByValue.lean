import DocQuery.Json.Order
import DocQuery.Proofs.Duplicates

namespace DocQuery.Json

mutual

/-- A value with a binary64 number in place of each number, at any depth. -/
def rounded : Json → Json
  | number n => number (.float n.toBinary64)
  | array items => array (roundedItems items)
  | object fields => object (roundedFields fields)
  | v => v

def roundedItems : List Json → List Json
  | [] => []
  | x :: xs => rounded x :: roundedItems xs

def roundedFields : List (String × Json) → List (String × Json)
  | [] => []
  | (key, v) :: fs => (key, rounded v) :: roundedFields fs

end

inductive Facing (m n : Number) : Bool → Json → Json → Prop
  | here : Facing m n false (number m) (number n)
  | item {inside v w} {xs ys : List Json} {i : Nat} : xs[i]? = some v → ys[i]? = some w →
      Facing m n inside v w → Facing m n inside (array xs) (array ys)
  | field {inside key v w es fs} : (key, v) ∈ es → Fields.get? key fs = some w →
      Facing m n inside v w → Facing m n true (object es) (object fs)

def Agree (v w : Json) : Prop := ∀ inside m n, Facing m n inside v w → m.same n

/-- Inside of objects, numbers face each other that look alike. -/
def FacesLookalike (v w : Json) : Prop := ∃ m n, Facing m n true v w ∧ m.looksLike n

theorem roundedItems_eq (xs : List Json) : roundedItems xs = xs.map rounded := by
  induction xs with
  | nil => rfl
  | cons x xs ih => rw [roundedItems, ih, List.map_cons]

theorem roundedFields_eq (fs : List (String × Json)) :
    roundedFields fs = fs.map fun f => (f.1, f.2.rounded) := by
  induction fs with
  | nil => rfl
  | cons f fs ih => rw [roundedFields, ih, List.map_cons]

theorem length_roundedFields (fs : List (String × Json)) :
    (roundedFields fs).length = fs.length := by
  rw [roundedFields_eq, List.length_map]

theorem get?_roundedFields (key : String) (fs : List (String × Json)) :
    Fields.get? key (roundedFields fs) = (Fields.get? key fs).map rounded := by
  induction fs with
  | nil => rfl
  | cons f fs ih =>
    obtain ⟨k, v⟩ := f
    by_cases h : k = key <;> simp [roundedFields, Fields.get?, h, ih]

section

variable {v w : Json} {xs ys : List Json} {es fs : List (String × Json)}

theorem item_of_items {item : Json → Json → Bool} {items : List Json → List Json → Bool}
    (hcons : ∀ x y xs ys, items (x :: xs) (y :: ys) = (item x y && items xs ys))
    (h : items xs ys) {i : Nat} (hv : xs[i]? = some v) (hw : ys[i]? = some w) : item v w := by
  induction xs generalizing ys i with
  | nil => simp at hv
  | cons x xs ih =>
    cases ys with
    | nil => simp at hw
    | cons y ys =>
      rw [hcons, Bool.and_eq_true] at h
      cases i with
      | zero => simp_all
      | succ i => exact ih h.2 (by simpa using hv) (by simpa using hw)

theorem same_of_sameItems (h : sameItems xs ys) {i : Nat} (hv : xs[i]? = some v)
    (hw : ys[i]? = some w) : v.same w :=
  item_of_items (fun _ _ _ _ => by rw [sameItems]) h hv hw

theorem equal_of_equalItems (h : equalItems xs ys) {i : Nat} (hv : xs[i]? = some v)
    (hw : ys[i]? = some w) : v.equal w :=
  item_of_items (fun _ _ _ _ => by rw [equalItems]) h hv hw

theorem same_of_sameFields (h : sameFields es fs) {key : String} (hv : (key, v) ∈ es)
    (hw : Fields.get? key fs = some w) : v.same w := by
  obtain ⟨u, hu, hsame⟩ := get?_of_sameFields h hv
  rwa [Option.some.inj (hw.symm.trans hu)]

end

theorem same_of_facing {m n : Number} {inside : Bool} {v w : Json} (h : Facing m n inside v w)
    (hsame : v.same w) : m.same n := by
  induction h with
  | here => simpa [same] using hsame
  | item hv hw _ ih =>
    rw [same] at hsame
    exact ih (same_of_sameItems hsame hv hw)
  | field hv hw _ ih =>
    simp only [same, Bool.and_eq_true] at hsame
    exact ih (same_of_sameFields hsame.2 hv hw)

theorem same_of_facing_inside {m n : Number} {v w : Json} (h : Facing m n true v w)
    (hequal : v.equal w) : m.same n := by
  generalize hinside : true = inside at h
  induction h with
  | here => contradiction
  | item hv hw _ ih =>
    rw [equal] at hequal
    exact ih (equal_of_equalItems hequal hv hw) hinside
  | field hv hw h _ => exact same_of_facing (.field hv hw h) (by simpa [equal] using hequal)

mutual

theorem rounded_same : ∀ {v w : Json}, v.same w → v.rounded.same w.rounded
  | null, null, _ => rfl
  | bool _, bool _, h => by simpa [rounded, same] using h
  | number _, number _, h => by
    rw [same] at h
    simpa [rounded, same, Number.same] using Number.scaled_of_same h
  | string _, string _, h => by simpa [rounded, same] using h
  | array _, array _, h => by
    rw [same] at h
    simpa [rounded, same] using roundedItems_same h
  | object es, object fs, h => by
    simp only [same, Bool.and_eq_true, decide_eq_true_eq] at h
    simpa [rounded, same, length_roundedFields, h.1] using roundedFields_same h.2

theorem roundedItems_same : ∀ {xs ys : List Json}, sameItems xs ys →
    sameItems (roundedItems xs) (roundedItems ys)
  | [], [], _ => rfl
  | _ :: _, _ :: _, h => by
    simp only [sameItems, Bool.and_eq_true] at h
    simp [roundedItems, sameItems, rounded_same h.1, roundedItems_same h.2]

theorem roundedFields_same : ∀ {es fs : List (String × Json)}, sameFields es fs →
    sameFields (roundedFields es) (roundedFields fs)
  | [], _, _ => rfl
  | (_, _) :: _, _, h => by
    simp only [sameFields, Bool.and_eq_true, Option.any_eq_true] at h
    obtain ⟨⟨w, hw, hsame⟩, hes⟩ := h
    simp [roundedFields, sameFields, get?_roundedFields, hw, rounded_same hsame,
      roundedFields_same hes]

end

mutual

theorem same_of_rounded : ∀ {v w : Json}, v.rounded.same w.rounded → v.Agree w → v.same w
  | null, null, _, _ => rfl
  | bool _, bool _, h, _ => by simpa [rounded, same] using h
  | number m, number n, _, hagree => by
    rw [same]
    exact hagree false m n .here
  | string _, string _, h, _ => by simpa [rounded, same] using h
  | array xs, array ys, h, hagree => by
    rw [rounded, rounded, same] at h
    rw [same]
    exact sameItems_of_rounded h fun i v w hv hw inside m n hf =>
      hagree inside m n (.item hv hw hf)
  | object es, object fs, h, hagree => by
    simp only [rounded, same, Bool.and_eq_true, length_roundedFields] at h
    simp only [same, Bool.and_eq_true]
    exact ⟨h.1, sameFields_of_rounded h.2 fun key v w hv hw inside m n hf =>
      hagree true m n (.field hv hw hf)⟩

theorem sameItems_of_rounded : ∀ {xs ys : List Json},
    sameItems (roundedItems xs) (roundedItems ys) →
    (∀ (i : Nat) (v w : Json), xs[i]? = some v → ys[i]? = some w → v.Agree w) → sameItems xs ys
  | [], [], _, _ => rfl
  | x :: xs, y :: ys, h, hagree => by
    simp only [roundedItems, sameItems, Bool.and_eq_true] at h ⊢
    refine ⟨same_of_rounded h.1 (hagree 0 x y rfl rfl), sameItems_of_rounded h.2 ?_⟩
    exact fun i v w hv hw => hagree (i + 1) v w hv hw

theorem sameFields_of_rounded : ∀ {es fs : List (String × Json)},
    sameFields (roundedFields es) (roundedFields fs) →
    (∀ (key : String) (v w : Json), (key, v) ∈ es → Fields.get? key fs = some w → v.Agree w) →
    sameFields es fs
  | [], _, _, _ => rfl
  | (key, v) :: es, fs, h, hagree => by
    simp only [roundedFields, sameFields, get?_roundedFields, Option.any_map, Bool.and_eq_true,
      Option.any_eq_true] at h ⊢
    obtain ⟨⟨w, hw, hsame⟩, hes⟩ := h
    refine ⟨⟨w, hw, same_of_rounded hsame (hagree key v w List.mem_cons_self hw)⟩, ?_⟩
    exact sameFields_of_rounded hes fun key v w hv hw =>
      hagree key v w (List.mem_cons_of_mem _ hv) hw

end

mutual

theorem rounded_same_of_equal : ∀ {v w : Json}, v.equal w → v.rounded.same w.rounded
  | number _, number _, h => by simpa [equal, rounded, same, Number.same] using h
  | array _, array _, h => by
    rw [equal] at h
    simpa [rounded, same] using roundedItems_same_of_equal h
  | null, null, _ => rfl
  | bool _, bool _, h => rounded_same (by simpa [equal] using h)
  | string _, string _, h => rounded_same (by simpa [equal] using h)
  | object _, object _, h => rounded_same (by simpa [equal] using h)

theorem roundedItems_same_of_equal : ∀ {xs ys : List Json}, equalItems xs ys →
    sameItems (roundedItems xs) (roundedItems ys)
  | [], [], _ => rfl
  | _ :: _, _ :: _, h => by
    simp only [equalItems, Bool.and_eq_true] at h
    simp [roundedItems, sameItems, rounded_same_of_equal h.1, roundedItems_same_of_equal h.2]

end

mutual

theorem equal_of_rounded : ∀ {v w : Json}, v.rounded.same w.rounded →
    (∀ m n, Facing m n true v w → m.same n) → v.equal w
  | number _, number _, h, _ => by simpa [equal, rounded, same, Number.same] using h
  | array xs, array ys, h, hagree => by
    rw [rounded, rounded, same] at h
    rw [equal]
    exact equalItems_of_rounded h fun i v w hv hw m n hf => hagree m n (.item hv hw hf)
  | null, null, _, _ => rfl
  | bool _, bool _, h, _ => by simpa [equal, rounded, same] using h
  | string _, string _, h, _ => by simpa [equal, rounded, same] using h
  | object es, object fs, h, hagree => by
    rw [equal]
    · refine same_of_rounded h fun inside m n hf => ?_
      -- all numbers of objects are inside of objects
      cases hf with
      | field hv hw hf => exact hagree m n (.field hv hw hf)
    all_goals nofun

theorem equalItems_of_rounded : ∀ {xs ys : List Json},
    sameItems (roundedItems xs) (roundedItems ys) →
    (∀ (i : Nat) (v w : Json), xs[i]? = some v → ys[i]? = some w →
      ∀ m n, Facing m n true v w → m.same n) → equalItems xs ys
  | [], [], _, _ => rfl
  | x :: xs, y :: ys, h, hagree => by
    simp only [roundedItems, sameItems, equalItems, Bool.and_eq_true] at h ⊢
    refine ⟨equal_of_rounded h.1 (hagree 0 x y rfl rfl), equalItems_of_rounded h.2 ?_⟩
    exact fun i v w hv hw => hagree (i + 1) v w hv hw

end

theorem scaled_of_facing {m n : Number} {inside : Bool} {v w : Json} (h : Facing m n inside v w)
    (hsame : v.rounded.same w.rounded) : m.toBinary64.scaled = n.toBinary64.scaled := by
  -- numbers that face each other in values that are the same once rounded have one value
  induction h with
  | here => simpa [rounded, same, Number.same] using hsame
  | @item inside v w xs ys i hv hw _ ih =>
    rw [rounded, rounded, same, roundedItems_eq, roundedItems_eq] at hsame
    refine ih (same_of_sameItems (i := i) hsame ?_ ?_)
    · rw [List.getElem?_map, hv, Option.map_some]
    · rw [List.getElem?_map, hw, Option.map_some]
  | @field inside key v w es fs hv hw _ ih =>
    simp only [rounded, same, Bool.and_eq_true] at hsame
    have hkey : (key, v.rounded) ∈ roundedFields es := by
      rw [roundedFields_eq]
      exact List.mem_map_of_mem hv
    refine ih (same_of_sameFields hsame.2 hkey ?_)
    rw [get?_roundedFields, hw, Option.map_some]

theorem equal_iff (v w : Json) :
    v.equal w ↔ v.rounded.same w.rounded ∧ ¬ FacesLookalike v w := by
  constructor
  · intro h
    refine ⟨rounded_same_of_equal h, ?_⟩
    rintro ⟨m, n, hfacing, hlike⟩
    exact (Number.looksLike_iff.1 hlike).2 (same_of_facing_inside hfacing h)
  · rintro ⟨hsame, hnone⟩
    refine equal_of_rounded hsame fun m n hfacing => ?_
    by_contra hne
    exact hnone ⟨m, n, hfacing, Number.looksLike_iff.2 ⟨scaled_of_facing hfacing hsame, hne⟩⟩

/-- Values are equal exactly if they are the same with all numbers rounded, unless numbers inside
of objects look alike.  One of these is an integer and the other is not, or they are integers of
which one is rounded. -/
theorem equal_iff_rounded (v w : Json) :
    (v.equal w ↔ v.rounded.same w.rounded ∧ ¬ FacesLookalike v w) ∧
    ((v.equal w ↔ v.rounded.same w.rounded) ↔
      ¬ (v.rounded.same w.rounded ∧ FacesLookalike v w)) ∧
    (FacesLookalike v w → ∃ m n, Facing m n true v w ∧
      ((∃ i x, (m = .int i ∧ n = .float x) ∨ (m = .float x ∧ n = .int i)) ∨
        ∃ i j, m = .int i ∧ n = .int j ∧ i ≠ j ∧ 2 ^ 53 < max i.natAbs j.natAbs)) := by
  refine ⟨equal_iff v w, ?_, ?_⟩
  · rw [equal_iff]
    tauto
  · rintro ⟨m, n, hfacing, hlike⟩
    exact ⟨m, n, hfacing, Number.looksLike_cases hlike⟩

example :
    let one := Json.number (.float (.ofInt 1))
    (array [.int 1]).equal (array [one]) ∧ ¬ (object [("n", .int 1)]).equal (object [("n", one)]) ∧
      (object [("n", .int 1)]).rounded.same (object [("n", one)]).rounded := by
  decide +kernel

end DocQuery.Json
