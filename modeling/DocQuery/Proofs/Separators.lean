namespace DocQuery

section

variable {α : Type} {c : α} {s t r q : List α}

theorem readings (h : s ++ c :: r = t ++ c :: q) :
    (s = t ∧ r = q) ∨ (∃ u, t = s ++ c :: u ∧ r = u ++ c :: q) ∨
      ∃ u, s = t ++ c :: u ∧ q = u ++ c :: r := by
  rw [List.append_eq_append_iff] at h
  obtain ⟨u, rfl, hu⟩ | ⟨u, rfl, hu⟩ := h
  · cases u with
    | nil => exact .inl ⟨(List.append_nil _).symm, (List.cons.inj hu).2⟩
    | cons x u =>
      obtain ⟨rfl, hrest⟩ := List.cons.inj hu
      exact .inr (.inl ⟨u, rfl, hrest⟩)
  · cases u with
    | nil => exact .inl ⟨List.append_nil _, (List.cons.inj hu).2.symm⟩
    | cons x u =>
      obtain ⟨rfl, hrest⟩ := List.cons.inj hu
      exact .inr (.inr ⟨u, rfl, hrest⟩)

theorem eq_of_first (hs : c ∉ s) (ht : c ∉ t) (h : s ++ c :: r = t ++ c :: q) :
    s = t ∧ r = q := by
  obtain heq | ⟨u, rfl, -⟩ | ⟨u, rfl, -⟩ := readings h
  · exact heq
  · simp at ht
  · simp at hs

theorem eq_of_last (hr : c ∉ r) (hq : c ∉ q) (h : s ++ c :: r = t ++ c :: q) :
    s = t ∧ r = q := by
  obtain heq | ⟨u, -, rfl⟩ | ⟨u, -, rfl⟩ := readings h
  · exact heq
  · simp at hr
  · simp at hq

theorem goes_on {d : α} (hne : c ≠ d) (hs : d ∉ s) (h : s ++ c :: r = t ++ d :: q) :
    ∃ u, t = s ++ c :: u ∧ r = u ++ d :: q := by
  rw [List.append_eq_append_iff] at h
  obtain ⟨u, rfl, hu⟩ | ⟨u, rfl, hu⟩ := h
  · cases u with
    | nil => exact absurd (List.cons.inj hu).1 hne
    | cons x u =>
      obtain ⟨rfl, hrest⟩ := List.cons.inj hu
      exact ⟨u, rfl, hrest⟩
  · cases u with
    | nil => exact absurd (List.cons.inj hu).1.symm hne
    | cons x u =>
      obtain ⟨rfl, -⟩ := List.cons.inj hu
      simp at hs

end

end DocQuery
