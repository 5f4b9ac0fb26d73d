import DocQuery.Store.Collection

/-! Stores: collections by name, sorted by name.  A collection comes into being with
its first document or index and stays until it is dropped. -/

namespace DocQuery

namespace Store

abbrev Entries := List (String × Collection)

def find? (name : String) : Entries → Option Collection
  | [] => none
  | (n, c) :: es => if n = name then some c else find? name es

def put (name : String) (c : Collection) : Entries → Entries
  | [] => [(name, c)]
  | (n, d) :: es =>
    if name < n then (name, c) :: (n, d) :: es
    else if name = n then (name, c) :: es
    else (n, d) :: put name c es

def without (name : String) (es : Entries) : Entries := es.filter (·.1 != name)

def Sorted (es : Entries) : Prop := es.Pairwise fun a b => a.1 < b.1

theorem mem_put {name : String} {c : Collection} {es : Entries} {e : String × Collection}
    (h : e ∈ put name c es) : e = (name, c) ∨ e ∈ es := by
  induction es with
  | nil => simpa [put] using h
  | cons f es ih =>
    rw [put] at h
    split at h
    · simpa using h
    · split at h
      · rcases List.mem_cons.1 h with h | h
        · exact .inl h
        · exact .inr (List.mem_cons_of_mem _ h)
      · rcases List.mem_cons.1 h with h | h
        · exact .inr (h ▸ List.mem_cons_self)
        · rcases ih h with h | h
          · exact .inl h
          · exact .inr (List.mem_cons_of_mem _ h)

theorem sorted_put {name : String} {c : Collection} {es : Entries} (h : Sorted es) :
    Sorted (put name c es) := by
  induction es with
  | nil => exact List.pairwise_singleton ..
  | cons f es ih =>
    obtain ⟨hf, hes⟩ := List.pairwise_cons.1 h
    rw [put]
    split
    · next hlt =>
      refine List.pairwise_cons.2 ⟨fun g hg => ?_, h⟩
      rcases List.mem_cons.1 hg with hg | hg
      · exact hg ▸ hlt
      · exact String.lt_trans hlt (hf g hg)
    · next hnlt =>
      split
      · next heq => exact List.pairwise_cons.2 ⟨fun g hg => heq ▸ hf g hg, hes⟩
      · next hne =>
        refine List.pairwise_cons.2 ⟨fun g hg => ?_, ih hes⟩
        rcases mem_put hg with hg | hg
        · subst hg
          rcases Std.lt_trichotomy f.1 name with hlt | heq | hlt
          · exact hlt
          · exact absurd heq.symm hne
          · exact absurd hlt hnlt
        · exact hf g hg

theorem sorted_without {name : String} {es : Entries} (h : Sorted es) :
    Sorted (without name es) :=
  h.sublist List.filter_sublist

end Store

structure Store where
  entries : Store.Entries
  sorted : Store.Sorted entries

namespace Store

def empty : Store := ⟨[], List.Pairwise.nil⟩

def get? (s : Store) (name : String) : Option Collection := find? name s.entries

def getD (s : Store) (name : String) : Collection := (s.get? name).getD .empty

def set (s : Store) (name : String) (c : Collection) : Store :=
  ⟨put name c s.entries, sorted_put s.sorted⟩

def erase (s : Store) (name : String) : Store :=
  ⟨without name s.entries, sorted_without s.sorted⟩

def names (s : Store) : List String := s.entries.map Prod.fst

theorem find?_put_self (name : String) (c : Collection) (es : Entries) :
    find? name (put name c es) = some c := by
  induction es with
  | nil => simp [put, find?]
  | cons e es ih =>
    rw [put]
    split
    · simp [find?]
    · split
      · simp [find?]
      · next hne => simp [find?, Ne.symm hne, ih]

theorem find?_put_of_ne {name other : String} (h : other ≠ name) (c : Collection)
    (es : Entries) : find? other (put name c es) = find? other es := by
  induction es with
  | nil => simp [put, find?, h.symm]
  | cons e es ih =>
    rw [put]
    split
    · simp [find?, h.symm]
    · split
      · next heq => simp [find?, ← heq, h.symm]
      · simp [find?, ih]

theorem find?_without_self (name : String) (es : Entries) : find? name (without name es) = none := by
  induction es with
  | nil => rfl
  | cons e es ih =>
    by_cases h : e.1 = name <;> simp_all [without, find?]

theorem find?_without_of_ne {name other : String} (h : other ≠ name) (es : Entries) :
    find? other (without name es) = find? other es := by
  induction es with
  | nil => rfl
  | cons e es ih =>
    by_cases he : e.1 = name <;> simp_all [without, find?, h.symm]

@[simp] theorem get?_set_self (s : Store) (name : String) (c : Collection) :
    (s.set name c).get? name = some c := find?_put_self name c s.entries

theorem get?_set_of_ne {name other : String} (h : other ≠ name) (s : Store) (c : Collection) :
    (s.set name c).get? other = s.get? other := find?_put_of_ne h c s.entries

@[simp] theorem get?_erase_self (s : Store) (name : String) : (s.erase name).get? name = none :=
  find?_without_self name s.entries

theorem get?_erase_of_ne {name other : String} (h : other ≠ name) (s : Store) :
    (s.erase name).get? other = s.get? other := find?_without_of_ne h s.entries

def accepts (name : String) : Bool := !name.isEmpty && !name.toList.contains '$'

end Store

end DocQuery
