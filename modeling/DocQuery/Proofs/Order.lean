import DocQuery.Store.Sort

namespace DocQuery

theorem compare_then {α : Type} {cmp : α → α → Ordering} [Std.TransCmp cmp] {a b c : α}
    (h : cmp a b = (cmp b c).swap → cmp a b = .eq) : cmp a c = (cmp a b).then (cmp b c) := by
  cases hab : cmp a b with
  | eq => exact Std.TransCmp.congr_left hab
  | lt =>
    cases hbc : cmp b c with
    | lt => exact Std.TransCmp.lt_trans hab hbc
    | eq => exact Std.TransCmp.lt_of_lt_of_eq hab hbc
    | gt => simp [hab, hbc] at h
  | gt =>
    cases hbc : cmp b c with
    | lt => simp [hab, hbc] at h
    | eq => exact Std.TransCmp.gt_of_gt_of_eq hab hbc
    | gt => exact Std.TransCmp.gt_trans hab hbc

namespace Json

def magnitude : Json → Int
  | number n => n.toBinary64.scaled
  | _ => 0

def letters : Json → String
  | string s => s
  | _ => ""

def truth : Json → Bool
  | bool b => b
  | _ => false

def rankedOrder : Json → Json → Ordering :=
  compareLex (compareOn rank)
    (compareLex (compareOn magnitude) (compareLex (compareOn letters) (compareOn truth)))

instance : Std.TransCmp rankedOrder := by
  unfold rankedOrder
  infer_instance

theorem rankedOrder_eq (a b : Json) :
    rankedOrder a b = (compare a.rank b.rank).then ((a.order? b).getD .eq) := by
  by_cases h : a.rank = b.rank
  · cases a <;> cases b <;>
      simp_all [rankedOrder, compareLex, compareOn, rank, magnitude, letters, truth, order?,
        Binary64.order]
  · have hne : compare a.rank b.rank ≠ .eq := mt Nat.compare_eq_eq.1 h
    simp only [rankedOrder, compareLex, compareOn]
    cases hc : compare a.rank b.rank with
    | eq => contradiction
    | lt => rfl
    | gt => rfl

end Json

open Json (rankedOrder)

theorem sortOrder_eq (a b : Option Json) :
    sortOrder a b = rankedOrder (a.getD .null) (b.getD .null) := by
  rw [Json.rankedOrder_eq, sortOrder]

instance : Std.TransCmp sortOrder where
  eq_swap := by
    intro a b
    rw [sortOrder_eq, sortOrder_eq]
    exact Std.OrientedCmp.eq_swap
  isLE_trans := by
    intro a b c hab hbc
    rw [sortOrder_eq] at hab hbc ⊢
    exact Std.TransCmp.isLE_trans hab hbc

namespace SortKey

theorem compare_of_descending {k : SortKey} (h : k.descending) (a b : Json) :
    k.compare a b = sortOrder (b.at? k.field) (a.at? k.field) := by
  rw [SortKey.compare, if_pos h, ← Std.OrientedCmp.eq_swap]

theorem compare_of_ascending {k : SortKey} (h : ¬ k.descending) (a b : Json) :
    k.compare a b = sortOrder (a.at? k.field) (b.at? k.field) := by
  rw [SortKey.compare, if_neg h]

instance (k : SortKey) : Std.TransCmp k.compare where
  eq_swap := by
    intro a b
    by_cases h : k.descending
    · rw [compare_of_descending h, compare_of_descending h]
      exact Std.OrientedCmp.eq_swap
    · rw [compare_of_ascending h, compare_of_ascending h]
      exact Std.OrientedCmp.eq_swap
  isLE_trans := by
    intro a b c hab hbc
    by_cases h : k.descending
    · rw [compare_of_descending h] at hab hbc ⊢
      exact Std.TransCmp.isLE_trans hbc hab
    · rw [compare_of_ascending h] at hab hbc ⊢
      exact Std.TransCmp.isLE_trans hab hbc

end SortKey

theorem compareDocuments_cons (k : SortKey) (ks : List SortKey) :
    compareDocuments (k :: ks) = compareLex k.compare (compareDocuments ks) := rfl

instance transCmp_compareDocuments (ks : List SortKey) : Std.TransCmp (compareDocuments ks) := by
  induction ks with
  | nil => exact { eq_swap := rfl, isLE_trans := fun _ _ => rfl }
  | cons k ks ih =>
    rw [compareDocuments_cons]
    infer_instance

theorem compareDocuments_swap (ks : List SortKey) (a b : Json) :
    compareDocuments ks a b = (compareDocuments ks b a).swap :=
  Std.OrientedCmp.eq_swap

/-- Whatever documents hold at the keys, their order is a total preorder, and each of its outcomes
is transitive, as a sort requires. -/
theorem compareDocuments_preorder (ks : List SortKey) :
    (∀ a, compareDocuments ks a a = .eq) ∧
    (∀ a b, compareDocuments ks b a = (compareDocuments ks a b).swap) ∧
    (∀ a b c, compareDocuments ks a b ≠ .gt → compareDocuments ks b c ≠ .gt →
      compareDocuments ks a c ≠ .gt) ∧
    ∀ a b c o, compareDocuments ks a b = o → compareDocuments ks b c = o →
      compareDocuments ks a c = o := by
  refine ⟨fun a => Std.ReflCmp.compare_self, fun a b => compareDocuments_swap ks b a, ?_, ?_⟩
  · intro a b c hab hbc
    rw [Ne, ← Ordering.isLE_iff_ne_gt] at hab hbc ⊢
    exact Std.TransCmp.isLE_trans hab hbc
  · rintro a b c o hab hbc
    have hturn : o = o.swap → o = .eq := by cases o <;> simp
    have hsum := @compare_then _ (compareDocuments ks) _ a b c (by rwa [hab, hbc])
    rw [hsum, hab, hbc]
    cases o <;> rfl

end DocQuery
