import DocQuery.Proofs.Comparison
import DocQuery.Proofs.Order

namespace DocQuery.Json

section

variable {u v w : Json}

theorem comparable_iff_rank : v.Comparable w ↔ v.isScalar ∧ v.rank = w.rank := by
  cases v <;> cases w <;> simp [Comparable, isScalar, rank]

theorem rank_eq_of_equal (h : v.equal w) : v.rank = w.rank := by
  cases v <;> cases w <;> simp_all [equal, same, rank]

theorem isScalar_of_rank (h : v.rank = w.rank) : v.isScalar = w.isScalar := by
  cases v <;> cases w <;> simp_all [rank, isScalar]

theorem comparable_comm : w.Comparable v ↔ v.Comparable w := by
  cases v <;> cases w <;> simp [Comparable]

theorem Comparable.trans (h : u.Comparable v) (h' : v.Comparable w) : u.Comparable w := by
  rw [comparable_iff_rank] at h h' ⊢
  exact ⟨h.1, h.2.trans h'.2⟩

theorem comparable_of_equal (h : u.equal v) (w : Json) : u.Comparable w ↔ v.Comparable w := by
  have hrank := rank_eq_of_equal h
  rw [comparable_iff_rank, comparable_iff_rank, hrank, isScalar_of_rank hrank]

theorem order?_eq (v w : Json) :
    v.order? w = if v.Comparable w then some (rankedOrder v w) else none := by
  split
  · next h =>
    obtain ⟨o, ho⟩ := comparable_iff_exists.1 h
    rw [rankedOrder_eq, (comparable_iff_rank.1 h).2, ho, Nat.compare_eq_eq.2 rfl]
    rfl
  · next h => exact order?_of_not_comparable h

theorem order?_eq_some {o : Ordering} :
    v.order? w = some o ↔ v.Comparable w ∧ rankedOrder v w = o := by
  rw [order?_eq]
  split <;> simp_all

theorem order?_swap (v w : Json) : w.order? v = (v.order? w).map Ordering.swap := by
  simp only [order?_eq, comparable_comm (v := v) (w := w)]
  split
  · rw [Option.map_some, ← Std.OrientedCmp.eq_swap]
  · rfl

theorem rankedOrder_of_equal (h : u.equal v) (hscalar : u.isScalar) : rankedOrder u v = .eq := by
  have hv : v.isScalar := isScalar_of_rank (rank_eq_of_equal h) ▸ hscalar
  rw [equal_eq_order? hv, Option.any_eq_true] at h
  obtain ⟨o, ho, heq⟩ := h
  rw [(order?_eq_some.1 ho).2, eq_of_beq heq]

theorem order?_eq_some_eq : v.order? w = some .eq ↔ v.Comparable w ∧ v.equal w := by
  constructor
  · intro h
    have hcomparable := (order?_eq_some.1 h).1
    have hscalar := (comparable_iff_rank.1 (comparable_comm.1 hcomparable)).1
    exact ⟨hcomparable, by rw [equal_eq_order? hscalar, h]; rfl⟩
  · rintro ⟨hcomparable, hequal⟩
    have hscalar := (comparable_iff_rank.1 hcomparable).1
    exact order?_eq_some.2 ⟨hcomparable, rankedOrder_of_equal hequal hscalar⟩

theorem order?_congr_left (h : u.equal v) (w : Json) : u.order? w = v.order? w := by
  simp only [order?_eq, comparable_of_equal h]
  split
  · next hw =>
    have hscalar := (comparable_iff_rank.1 ((comparable_of_equal h w).2 hw)).1
    rw [Std.TransCmp.congr_left (rankedOrder_of_equal h hscalar)]
  · rfl

theorem order?_congr_right (h : u.equal v) (w : Json) : w.order? u = w.order? v := by
  rw [order?_swap u, order?_swap v, order?_congr_left h]

end

theorem order?_trans {u v w : Json} {o p : Ordering} (ho : u.order? v = some o)
    (hp : v.order? w = some p) (h : o = p.swap → o = .eq) : u.order? w = some (o.then p) := by
  obtain ⟨huv, rfl⟩ := order?_eq_some.1 ho
  obtain ⟨hvw, rfl⟩ := order?_eq_some.1 hp
  exact order?_eq_some.2 ⟨huv.trans hvw, compare_then h⟩

/-- Equality is an equivalence of values in which no object has a key twice.  The order of values
turns around with them, adds up unless it goes opposite ways, has ties exactly at scalars of one
kind that are equal, and does not tell equal values apart. -/
theorem equal_equivalence_order? :
    Equivalence (fun v w : {v : Json // v.WellFormed} => v.1.equal w.1 = true) ∧
    (∀ v w : Json, w.order? v = (v.order? w).map Ordering.swap) ∧
    (∀ (u v w : Json) (o p : Ordering), u.order? v = some o → v.order? w = some p →
      (o = p.swap → o = .eq) → u.order? w = some (o.then p)) ∧
    (∀ v w : Json, v.order? w = some .eq ↔ v.Comparable w ∧ v.equal w) ∧
    ∀ u v : Json, u.equal v → ∀ w, u.order? w = v.order? w ∧ w.order? u = w.order? v := by
  refine ⟨⟨fun v => equal_refl v.2, fun {v w} => equal_symm v.2 w.2, equal_trans⟩, order?_swap, ?_,
    fun _ _ => order?_eq_some_eq, ?_⟩
  · intro u v w o p
    exact order?_trans
  · intro u v h w
    exact ⟨order?_congr_left h w, order?_congr_right h w⟩

end DocQuery.Json
