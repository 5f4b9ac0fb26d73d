import DocQuery.Json.Fields
import Mathlib.Data.List.Induction

namespace DocQuery.Fields

variable {α : Type}

@[simp] theorem get?_insert_self (key : String) (value : α) (fs : Fields α) :
    get? key (insert key value fs) = some value := by
  induction fs with
  | nil => simp [insert, get?]
  | cons f fs ih =>
    by_cases h : f.1 = key
    · simp [insert, get?, h]
    · simp [insert, get?, h, ih]

theorem get?_insert_of_ne {key other : String} (h : other ≠ key) (value : α) (fs : Fields α) :
    get? other (insert key value fs) = get? other fs := by
  induction fs with
  | nil => simp [insert, get?, h.symm]
  | cons f fs ih =>
    by_cases hf : f.1 = key
    · simp [insert, get?, hf, h.symm]
    · simp [insert, get?, hf, ih]

theorem insert_of_not_mem {key : String} {fs : Fields α} (h : key ∉ keys fs) (value : α) :
    insert key value fs = fs ++ [(key, value)] := by
  induction fs with
  | nil => rfl
  | cons f fs ih =>
    simp only [keys, List.map_cons, List.mem_cons, not_or] at h
    simp [insert, Ne.symm h.1, ih h.2]

theorem keys_insert_of_mem {key : String} {fs : Fields α} (h : key ∈ keys fs) (value : α) :
    keys (insert key value fs) = keys fs := by
  induction fs with
  | nil => contradiction
  | cons f fs ih =>
    simp only [keys, List.map_cons, List.mem_cons] at h ih ⊢
    by_cases hf : f.1 = key
    · simp [insert, hf]
    · have hmem := h.resolve_left (Ne.symm hf)
      simp [insert, hf, ih hmem]

theorem nodup_keys_insert {key : String} {fs : Fields α} (h : (keys fs).Nodup) (value : α) :
    (keys (insert key value fs)).Nodup := by
  by_cases hkey : key ∈ keys fs
  · rwa [keys_insert_of_mem hkey]
  · rw [insert_of_not_mem hkey, keys, List.map_append, List.map_singleton]
    refine List.nodup_append.2 ⟨h, by simp, ?_⟩
    intro a ha b hb hab
    rw [hab, List.mem_singleton.1 hb] at ha
    exact hkey ha

theorem mem_insert {key : String} {value : α} {fs : Fields α} {f : String × α}
    (h : f ∈ insert key value fs) : f = (key, value) ∨ f ∈ fs := by
  induction fs with
  | nil => simpa [insert] using h
  | cons g fs ih =>
    rw [insert] at h
    split at h
    · next hkey =>
      rcases List.mem_cons.1 h with h | h
      · exact .inl (hkey ▸ h)
      · exact .inr (List.mem_cons_of_mem _ h)
    · rcases List.mem_cons.1 h with h | h
      · exact .inr (h ▸ List.mem_cons_self)
      · exact (ih h).imp_right (List.mem_cons_of_mem _)

theorem ofList_of_nodup {fs : Fields α} (h : (keys fs).Nodup) : ofList fs = fs := by
  have hfold : ∀ es : Fields α, (keys (es ++ fs)).Nodup →
      fs.foldl (fun fs f => insert f.1 f.2 fs) es = es ++ fs := by
    clear h
    induction fs with
    | nil =>
      intro es _
      simp
    | cons f fs ih =>
      intro es h
      have hf : f.1 ∉ keys es := by
        simp only [keys, List.map_append, List.map_cons] at h
        intro hmem
        exact (List.nodup_append.1 h).2.2 _ hmem _ List.mem_cons_self rfl
      rw [List.foldl_cons, insert_of_not_mem hf, ih]
      · simp
      · simpa using h
  exact hfold [] h

theorem ofList_concat (fs : List (String × α)) (f : String × α) :
    ofList (fs ++ [f]) = insert f.1 f.2 (ofList fs) := by
  rw [ofList, List.foldl_append]
  rfl

theorem length_insert_le (key : String) (value : α) (fs : Fields α) :
    (insert key value fs).length ≤ fs.length + 1 := by
  by_cases hkey : key ∈ keys fs
  · have hlength := congrArg List.length (keys_insert_of_mem hkey value)
    simp only [keys, List.length_map] at hlength
    omega
  · simp [insert_of_not_mem hkey]

theorem length_ofList_le (fs : List (String × α)) : (ofList fs).length ≤ fs.length := by
  induction fs using List.reverseRecOn with
  | nil => exact Nat.le_refl _
  | append_singleton fs f ih =>
    have hinsert := length_insert_le f.1 f.2 (ofList fs)
    rw [ofList_concat, List.length_append, List.length_singleton]
    omega

theorem nodup_of_length_ofList {fs : List (String × α)} (h : fs.length ≤ (ofList fs).length) :
    (keys fs).Nodup := by
  induction fs using List.reverseRecOn with
  | nil => exact List.nodup_nil
  | append_singleton fs f ih =>
    have hle := length_ofList_le fs
    have hinsert := length_insert_le f.1 f.2 (ofList fs)
    rw [ofList_concat, List.length_append, List.length_singleton] at h
    have hfs := ih (by omega)
    rw [ofList_of_nodup hfs] at h
    have hkey : f.1 ∉ keys fs := by
      intro hmem
      have hlength := congrArg List.length (keys_insert_of_mem hmem f.2)
      simp only [keys, List.length_map] at hlength
      omega
    rw [← insert_of_not_mem hkey f.2]
    exact nodup_keys_insert hfs f.2

theorem get?_of_mem {fs : Fields α} (h : (keys fs).Nodup) {key : String} {value : α}
    (hf : (key, value) ∈ fs) : get? key fs = some value := by
  induction fs with
  | nil => contradiction
  | cons f fs ih =>
    simp only [keys, List.map_cons, List.nodup_cons] at h
    rcases List.mem_cons.1 hf with rfl | hf
    · simp [get?]
    · have hne : f.1 ≠ key := by
        intro he
        exact h.1 (he ▸ List.mem_map_of_mem hf)
      simp [get?, hne, ih h.2 hf]

theorem mem_of_get? {fs : Fields α} {key : String} {value : α} (h : get? key fs = some value) :
    (key, value) ∈ fs := by
  induction fs with
  | nil => contradiction
  | cons f fs ih =>
    obtain ⟨k, v⟩ := f
    simp only [get?] at h
    split at h
    · next hk => simp_all
    · exact List.mem_cons_of_mem _ (ih h)

theorem get?_eq_some {fs : Fields α} (h : (keys fs).Nodup) {key : String} {value : α} :
    get? key fs = some value ↔ (key, value) ∈ fs :=
  ⟨mem_of_get?, get?_of_mem h⟩

theorem get?_perm {es fs : Fields α} (hfs : (keys fs).Nodup) (h : es.Perm fs) (key : String) :
    get? key es = get? key fs := by
  -- looking up does not depend on the order of the fields
  have hes : (keys es).Nodup := (h.map Prod.fst).nodup_iff.2 hfs
  apply Option.ext
  intro value
  rw [get?_eq_some hes, get?_eq_some hfs, h.mem_iff]

theorem get?_of_not_mem {fs : Fields α} {key : String} (h : key ∉ keys fs) :
    get? key fs = none := by
  cases hget : get? key fs with
  | none => rfl
  | some value => exact absurd (List.mem_map_of_mem (mem_of_get? hget)) h

theorem insert_of_get? {fs : Fields α} {key : String} {value : α} (h : get? key fs = some value) :
    insert key value fs = fs := by
  induction fs with
  | nil => contradiction
  | cons f fs ih =>
    obtain ⟨k, v⟩ := f
    by_cases hk : k = key
    · obtain rfl : v = value := by simpa [get?, hk] using h
      rw [insert, if_pos hk]
    · have hrest : get? key fs = some value := by simpa [get?, hk] using h
      rw [insert, if_neg hk, ih hrest]

theorem swapErase_of_not_mem {fs : Fields α} {key : String} (h : key ∉ keys fs) :
    swapErase key fs = fs := by
  induction fs with
  | nil => rfl
  | cons f fs ih =>
    simp only [keys, List.map_cons, List.mem_cons, not_or] at h
    simp [swapErase, Ne.symm h.1, ih h.2]

def lastFirst (fs : Fields α) : Fields α := fs.getLast?.toList ++ fs.dropLast

theorem lastFirst_concat (fs : Fields α) (f : String × α) : lastFirst (fs ++ [f]) = f :: fs := by
  simp [lastFirst]

theorem lastFirst_perm (fs : Fields α) : (lastFirst fs).Perm fs := by
  cases h : fs.getLast? with
  | none =>
    rw [List.getLast?_eq_none_iff.1 h]
    exact List.Perm.refl _
  | some last =>
    obtain ⟨front, rfl⟩ := List.getLast?_eq_some_iff.1 h
    rw [lastFirst_concat]
    exact (List.perm_append_singleton last front).symm

theorem swapErase_cons (key : String) (value : α) (fs : Fields α) :
    swapErase key ((key, value) :: fs) = lastFirst fs := by
  rw [swapErase, if_pos rfl, lastFirst]
  cases h : fs.getLast? with
  | none =>
    rw [List.getLast?_eq_none_iff.1 h]
    rfl
  | some last => rfl

theorem swapErase_cons_self (key : String) (value : α) (fs : Fields α) :
    (swapErase key ((key, value) :: fs)).Perm fs := by
  rw [swapErase_cons]
  exact lastFirst_perm fs

theorem insert_perm (key : String) (value : α) (fs : Fields α) :
    (insert key value fs).Perm ((key, value) :: swapErase key fs) := by
  induction fs with
  | nil => exact List.Perm.refl _
  | cons f fs ih =>
    obtain ⟨k, v⟩ := f
    by_cases hk : k = key
    · subst hk
      rw [insert, if_pos rfl]
      exact (swapErase_cons_self k v fs).symm.cons _
    · rw [insert, if_neg hk, swapErase, if_neg hk]
      exact (ih.cons _).trans (List.Perm.swap ..)

theorem not_mem_keys_swapErase {fs : Fields α} (h : (keys fs).Nodup) (key : String) :
    key ∉ keys (swapErase key fs) := by
  by_cases hkey : key ∈ keys fs
  · obtain ⟨f, hf, rfl⟩ := List.mem_map.1 hkey
    have hperm := insert_perm f.1 f.2 fs
    rw [insert_of_get? (get?_of_mem h hf)] at hperm
    exact (List.nodup_cons.1 ((hperm.map Prod.fst).nodup_iff.1 h)).1
  · rwa [swapErase_of_not_mem hkey]

theorem insert_swapErase_perm {fs : Fields α} (h : (keys fs).Nodup) (key : String) (value : α) :
    (insert key value (swapErase key fs)).Perm (insert key value fs) := by
  -- taking a key out before it is put in does not matter but for the order
  have herased := swapErase_of_not_mem (not_mem_keys_swapErase h key)
  have hagain := insert_perm key value (swapErase key fs)
  rw [herased] at hagain
  exact hagain.trans (insert_perm key value fs).symm

theorem cons_swapErase_perm {fs : Fields α} {key : String} {value : α}
    (h : get? key fs = some value) : ((key, value) :: swapErase key fs).Perm fs := by
  have hperm := insert_perm key value fs
  rw [insert_of_get? h] at hperm
  exact hperm.symm

end DocQuery.Fields
