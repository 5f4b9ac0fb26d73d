import DocQuery.Json.Order
import DocQuery.Proofs.Fields
import Mathlib.Data.List.Perm.Subperm

namespace DocQuery.Json

def isScalar : Json → Bool
  | string _ | number _ | bool _ => true
  | _ => false

mutual

def depth : Json → Nat
  | array items => depthItems items + 1
  | object fields => depthFields fields + 1
  | _ => 0

def depthItems : List Json → Nat
  | [] => 0
  | x :: xs => max (depth x) (depthItems xs)

def depthFields : List (String × Json) → Nat
  | [] => 0
  | (_, v) :: fs => max (depth v) (depthFields fs)

end

theorem wellFormedFields_iff {fs : List (String × Json)} :
    WellFormedFields fs ↔ ∀ f ∈ fs, f.2.WellFormed := by
  induction fs with
  | nil => simp [WellFormedFields]
  | cons f fs ih => simp only [WellFormedFields, ih, List.forall_mem_cons]

theorem depth_le_depthItems {x : Json} {xs : List Json} (h : x ∈ xs) :
    x.depth ≤ depthItems xs := by
  induction xs with
  | nil => contradiction
  | cons y ys ih =>
    rw [depthItems]
    rcases List.mem_cons.1 h with rfl | h
    · exact Nat.le_max_left _ _
    · exact Nat.le_trans (ih h) (Nat.le_max_right _ _)

theorem depth_le_depthFields {key : String} {v : Json} {fs : List (String × Json)}
    (h : (key, v) ∈ fs) : v.depth ≤ depthFields fs := by
  induction fs with
  | nil => contradiction
  | cons f fs ih =>
    rw [depthFields]
    rcases List.mem_cons.1 h with rfl | h
    · exact Nat.le_max_left _ _
    · exact Nat.le_trans (ih h) (Nat.le_max_right _ _)

mutual

theorem depth_le_of_same : ∀ {x y : Json}, x.same y → x.depth ≤ y.depth
  | null, y, _ => by simp [depth]
  | bool _, y, _ => by simp [depth]
  | number _, y, _ => by simp [depth]
  | string _, y, _ => by simp [depth]
  | array xs, y, h => by
    cases y with
    | array ys =>
      have h : sameItems xs ys := by simpa [same] using h
      simpa [depth] using depthItems_le_of_same h
    | _ => simp [same] at h
  | object es, y, h => by
    cases y with
    | object fs =>
      have h : es.length = fs.length ∧ sameFields es fs = true := by simpa [same] using h
      simpa [depth] using depthFields_le_of_same h.2
    | _ => simp [same] at h

theorem depthItems_le_of_same : ∀ {xs ys : List Json}, sameItems xs ys →
    depthItems xs ≤ depthItems ys
  | [], _, _ => by simp [depthItems]
  | x :: xs, [], h => by simp [sameItems] at h
  | x :: xs, y :: ys, h => by
    simp only [sameItems, Bool.and_eq_true] at h
    have h₁ := depth_le_of_same h.1
    have h₂ := depthItems_le_of_same h.2
    simp only [depthItems]
    omega

theorem depthFields_le_of_same : ∀ {es fs : List (String × Json)}, sameFields es fs →
    depthFields es ≤ depthFields fs
  | [], _, _ => by simp [depthFields]
  | (key, v) :: es, fs, h => by
    simp only [sameFields, Bool.and_eq_true, Option.any_eq_true] at h
    obtain ⟨⟨w, hw, hs⟩, hes⟩ := h
    have h₁ := depth_le_of_same hs
    have h₂ := depth_le_depthFields (Fields.mem_of_get? hw)
    have h₃ := depthFields_le_of_same hes
    rw [depthFields]
    omega

end

mutual

theorem depth_le_of_equal : ∀ {x y : Json}, x.equal y → x.depth ≤ y.depth
  | array xs, array ys, h => by
    have h : equalItems xs ys := by simpa [equal] using h
    simpa [depth] using depthItems_le_of_equal h
  | number _, y, _ => by simp [depth]
  | null, y, _ => by simp [depth]
  | bool _, y, _ => by simp [depth]
  | string _, y, _ => by simp [depth]
  | object es, y, h => depth_le_of_same (by simpa [equal] using h)
  | array _, null, h => by simp [equal, same] at h
  | array _, bool _, h => by simp [equal, same] at h
  | array _, number _, h => by simp [equal, same] at h
  | array _, string _, h => by simp [equal, same] at h
  | array _, object _, h => by simp [equal, same] at h

theorem depthItems_le_of_equal : ∀ {xs ys : List Json}, equalItems xs ys →
    depthItems xs ≤ depthItems ys
  | [], _, _ => by simp [depthItems]
  | x :: xs, [], h => by simp [equalItems] at h
  | x :: xs, y :: ys, h => by
    simp only [equalItems, Bool.and_eq_true] at h
    have h₁ := depth_le_of_equal h.1
    have h₂ := depthItems_le_of_equal h.2
    simp only [depthItems]
    omega

end

theorem sameFields_of_forall {es fs : List (String × Json)}
    (h : ∀ f ∈ es, ∃ w, Fields.get? f.1 fs = some w ∧ f.2.same w) : sameFields es fs := by
  induction es with
  | nil => rfl
  | cons f es ih =>
    obtain ⟨w, hw, hs⟩ := h f List.mem_cons_self
    have hes := ih fun g hg => h g (List.mem_cons_of_mem f hg)
    simp [sameFields, hw, hs, hes]

mutual

theorem same_refl : ∀ {v : Json}, v.WellFormed → v.same v
  | null, _ => rfl
  | bool _, _ => by simp [same]
  | number n, _ => by cases n <;> simp [same, Number.same]
  | string _, _ => by simp [same]
  | array _, h => by simpa [same] using sameItems_refl (by simpa [WellFormed] using h)
  | object fs, h => by
    have h : (Fields.keys fs).Nodup ∧ WellFormedFields fs := by simpa [WellFormed] using h
    have hfs : sameFields fs fs := by
      apply sameFields_of_forall
      intro f hf
      exact ⟨f.2, Fields.get?_of_mem h.1 hf, same_refl_of_mem h.2 f hf⟩
    simpa [same] using hfs

theorem sameItems_refl : ∀ {xs : List Json}, WellFormedItems xs → sameItems xs xs
  | [], _ => rfl
  | x :: xs, h => by
    have h : x.WellFormed ∧ WellFormedItems xs := by simpa [WellFormedItems] using h
    simp [sameItems, same_refl h.1, sameItems_refl h.2]

theorem same_refl_of_mem : ∀ {fs : List (String × Json)}, WellFormedFields fs →
    ∀ f ∈ fs, f.2.same f.2
  | [], _, _, hf => absurd hf List.not_mem_nil
  | (_, v) :: fs, h, f, hf => by
    have h : v.WellFormed ∧ WellFormedFields fs := by simpa [WellFormedFields] using h
    rcases List.mem_cons.1 hf with rfl | hf
    · exact same_refl h.1
    · exact same_refl_of_mem h.2 f hf

end

mutual

theorem equal_refl : ∀ {v : Json}, v.WellFormed → v.equal v
  | null, _ => rfl
  | bool _, _ => by simp [equal, same]
  | number _, _ => by simp [equal]
  | string _, _ => by simp [equal, same]
  | array _, h => by simpa [equal] using equalItems_refl (by simpa [WellFormed] using h)
  | object _, h => by simpa [equal] using same_refl h

theorem equalItems_refl : ∀ {xs : List Json}, WellFormedItems xs → equalItems xs xs
  | [], _ => rfl
  | x :: xs, h => by
    have h : x.WellFormed ∧ WellFormedItems xs := by simpa [WellFormedItems] using h
    simp [equalItems, equal_refl h.1, equalItems_refl h.2]

end

theorem number_same_symm {m n : Number} (h : m.same n) : n.same m := by
  cases m <;> cases n <;> simp_all [Number.same]

theorem object_wellFormed_iff {fs : List (String × Json)} :
    (object fs).WellFormed ↔ (Fields.keys fs).Nodup ∧ ∀ f ∈ fs, f.2.WellFormed := by
  rw [WellFormed, wellFormedFields_iff]

theorem sameFields_of_length_le {es fs : List (String × Json)} (hes : (Fields.keys es).Nodup)
    (hfs : (Fields.keys fs).Nodup) (hlen : fs.length ≤ es.length)
    (h : ∀ e ∈ es, ∃ w, Fields.get? e.1 fs = some w ∧ w.same e.2) : sameFields fs es := by
  -- if an object has no more fields than another and all of that one's, the converse holds, too
  have hsub : Fields.keys es ⊆ Fields.keys fs := by
    intro key hkey
    obtain ⟨e, he, rfl⟩ := List.mem_map.1 hkey
    obtain ⟨w, hw, _⟩ := h e he
    exact List.mem_map.2 ⟨(e.1, w), Fields.mem_of_get? hw, rfl⟩
  have hperm : (Fields.keys es).Perm (Fields.keys fs) :=
    (List.subperm_of_subset hes hsub).perm_of_length_le (by simpa [Fields.keys] using hlen)
  apply sameFields_of_forall
  intro f hf
  obtain ⟨e, he, hkey⟩ := List.mem_map.1 (hperm.mem_iff.2 (List.mem_map_of_mem hf))
  obtain ⟨w, hw, hsame⟩ := h e he
  obtain rfl : f.2 = w := by
    rw [hkey, Fields.get?_of_mem hfs hf] at hw
    exact Option.some.inj hw
  exact ⟨e.2, hkey ▸ Fields.get?_of_mem hes he, hsame⟩

mutual

theorem same_symm : ∀ {x y : Json}, x.WellFormed → y.WellFormed → x.same y → y.same x
  | null, null, _, _, _ => rfl
  | bool _, bool _, _, _, h => by simpa [same, eq_comm] using h
  | number _, number _, _, _, h => by
    rw [same] at h ⊢
    exact number_same_symm h
  | string _, string _, _, _, h => by simpa [same, eq_comm] using h
  | array xs, array ys, hx, hy, h => by
    simp only [WellFormed, same] at hx hy h ⊢
    exact sameItems_symm hx hy h
  | object es, object fs, hx, hy, h => by
    simp only [WellFormed, same, Bool.and_eq_true, decide_eq_true_eq] at hx hy h ⊢
    refine ⟨h.1.symm, sameFields_of_length_le hx.1 hy.1 (Nat.le_of_eq h.1.symm) ?_⟩
    exact same_symm_of_mem hx.2 hy.2 h.2

theorem sameItems_symm : ∀ {xs ys : List Json}, WellFormedItems xs → WellFormedItems ys →
    sameItems xs ys → sameItems ys xs
  | [], [], _, _, _ => rfl
  | x :: xs, y :: ys, hx, hy, h => by
    simp only [WellFormedItems, sameItems, Bool.and_eq_true] at hx hy h ⊢
    exact ⟨same_symm hx.1 hy.1 h.1, sameItems_symm hx.2 hy.2 h.2⟩

theorem same_symm_of_mem : ∀ {es fs : List (String × Json)}, WellFormedFields es →
    WellFormedFields fs → sameFields es fs →
    ∀ e ∈ es, ∃ w, Fields.get? e.1 fs = some w ∧ w.same e.2
  | [], _, _, _, _, _, he => absurd he List.not_mem_nil
  | (key, v) :: es, fs, hes, hfs, h, e, he => by
    simp only [WellFormedFields, sameFields, Bool.and_eq_true, Option.any_eq_true] at hes h
    rcases List.mem_cons.1 he with rfl | he
    · obtain ⟨w, hw, hsame⟩ := h.1
      have hwf := wellFormedFields_iff.1 hfs _ (Fields.mem_of_get? hw)
      exact ⟨w, hw, same_symm hes.1 hwf hsame⟩
    · exact same_symm_of_mem hes.2 hfs h.2 e he

end

theorem number_same_trans {l m n : Number} (h : l.same m) (h' : m.same n) : l.same n := by
  cases l <;> cases m <;> cases n <;> simp_all [Number.same]

theorem get?_of_sameFields {es fs : List (String × Json)} (h : sameFields es fs) {key : String}
    {v : Json} (hv : (key, v) ∈ es) : ∃ w, Fields.get? key fs = some w ∧ v.same w := by
  induction es with
  | nil => contradiction
  | cons e es ih =>
    simp only [sameFields, Bool.and_eq_true, Option.any_eq_true] at h
    rcases List.mem_cons.1 hv with rfl | hv
    · exact h.1
    · exact ih h.2 hv

mutual

theorem same_trans : ∀ {x y z : Json}, x.same y → y.same z → x.same z
  | null, null, null, _, _ => rfl
  | bool _, bool _, bool _, h, h' => by simp_all [same]
  | number _, number _, number _, h, h' => by
    rw [same] at h h' ⊢
    exact number_same_trans h h'
  | string _, string _, string _, h, h' => by simp_all [same]
  | array _, array _, array _, h, h' => by
    rw [same] at h h' ⊢
    exact sameItems_trans h h'
  | object _, object _, object _, h, h' => by
    simp only [same, Bool.and_eq_true, decide_eq_true_eq] at h h' ⊢
    exact ⟨h.1.trans h'.1, sameFields_trans h.2 h'.2⟩

theorem sameItems_trans : ∀ {xs ys zs : List Json}, sameItems xs ys → sameItems ys zs →
    sameItems xs zs
  | [], [], [], _, _ => rfl
  | _ :: _, _ :: _, _ :: _, h, h' => by
    simp only [sameItems, Bool.and_eq_true] at h h' ⊢
    exact ⟨same_trans h.1 h'.1, sameItems_trans h.2 h'.2⟩

theorem sameFields_trans : ∀ {es fs gs : List (String × Json)}, sameFields es fs →
    sameFields fs gs → sameFields es gs
  | [], _, _, _, _ => rfl
  | (_, _) :: _, _, _, h, h' => by
    simp only [sameFields, Bool.and_eq_true, Option.any_eq_true] at h ⊢
    obtain ⟨⟨w, hw, hsame⟩, hes⟩ := h
    obtain ⟨u, hu, hsame'⟩ := get?_of_sameFields h' (Fields.mem_of_get? hw)
    exact ⟨⟨u, hu, same_trans hsame hsame'⟩, sameFields_trans hes h'⟩

end

mutual

theorem equal_symm : ∀ {x y : Json}, x.WellFormed → y.WellFormed → x.equal y → y.equal x
  | number _, number _, _, _, h => by simpa [equal, eq_comm] using h
  | array _, array _, hx, hy, h => by
    simp only [WellFormed, equal] at hx hy h ⊢
    exact equalItems_symm hx hy h
  | null, null, _, _, _ => rfl
  | bool _, bool _, _, _, h => by simpa [equal, same, eq_comm] using h
  | string _, string _, _, _, h => by simpa [equal, same, eq_comm] using h
  | object _, object _, hx, hy, h => by
    have h := same_symm hx hy (by simpa [equal] using h)
    simpa [equal] using h

theorem equalItems_symm : ∀ {xs ys : List Json}, WellFormedItems xs → WellFormedItems ys →
    equalItems xs ys → equalItems ys xs
  | [], [], _, _, _ => rfl
  | _ :: _, _ :: _, hx, hy, h => by
    simp only [WellFormedItems, equalItems, Bool.and_eq_true] at hx hy h ⊢
    exact ⟨equal_symm hx.1 hy.1 h.1, equalItems_symm hx.2 hy.2 h.2⟩

end

mutual

theorem equal_trans : ∀ {x y z : Json}, x.equal y → y.equal z → x.equal z
  | number _, number _, number _, h, h' => by simp_all [equal]
  | array _, array _, array _, h, h' => by
    rw [equal] at h h' ⊢
    exact equalItems_trans h h'
  | null, null, null, _, _ => rfl
  | bool _, bool _, bool _, h, h' => by simp_all [equal, same]
  | string _, string _, string _, h, h' => by simp_all [equal, same]
  | object _, object _, object _, h, h' => by
    have h := same_trans (by simpa [equal] using h) (by simpa [equal] using h')
    simpa [equal] using h

theorem equalItems_trans : ∀ {xs ys zs : List Json}, equalItems xs ys → equalItems ys zs →
    equalItems xs zs
  | [], [], [], _, _ => rfl
  | _ :: _, _ :: _, _ :: _, h, h' => by
    simp only [equalItems, Bool.and_eq_true] at h h' ⊢
    exact ⟨equal_trans h.1 h'.1, equalItems_trans h.2 h'.2⟩

end

end DocQuery.Json
