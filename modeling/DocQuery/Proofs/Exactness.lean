import DocQuery.Number.Binary64

namespace DocQuery

theorem roundHalfEven_mul {den : Nat} (h : 0 < den) (n : Nat) : roundHalfEven (n * den) den = n := by
  have hhalf : 2 * (n * den % den) < den := by rwa [Nat.mul_mod_left, Nat.mul_zero]
  simp only [roundHalfEven, if_pos hhalf, Nat.mul_div_cancel n h]

namespace Binary64

theorem log2_mul_two_pow {m : Nat} (hlow : 2 ^ 52 ≤ m) (hhigh : m < 2 ^ 53) (x : Nat) :
    (m * 2 ^ x).log2 = 52 + x := by
  have hpos : 0 < 2 ^ x := Nat.two_pow_pos x
  have hne : m * 2 ^ x ≠ 0 := by
    have := Nat.mul_pos (Nat.lt_of_lt_of_le (by decide) hlow) hpos
    omega
  rw [Nat.log2_eq_iff hne, Nat.pow_add, Nat.add_right_comm, Nat.pow_add]
  exact ⟨Nat.mul_le_mul_right _ hlow, Nat.mul_lt_mul_of_pos_right hhigh hpos⟩

theorem ofRatio?_exact (negative : Bool) {n m x : Nat} (hn : n * 2 ^ 1074 = m * 2 ^ x)
    (hlow : 2 ^ 52 ≤ m) (hhigh : m < 2 ^ 53) (hx : x ≤ 2045) :
    ofRatio? negative n 1 = some ⟨negative, m, x, hhigh, hx, .inr hlow⟩ := by
  have hdropped : (n * 2 ^ 1074).log2 + 1 - 53 = x := by
    rw [hn, log2_mul_two_pow hlow hhigh]
    omega
  have hround : roundHalfEven (n * 2 ^ 1074) (1 * 2 ^ x) = m := by
    rw [hn, Nat.one_mul, roundHalfEven_mul (Nat.two_pow_pos x)]
  have hcanonical : m < 2 ^ 53 ∧ x ≤ 2045 ∧ (x = 0 ∨ 2 ^ 52 ≤ m) := ⟨hhigh, hx, .inr hlow⟩
  simp only [ofRatio?, Nat.shiftLeft_eq, Nat.div_one, hdropped, hround,
    if_neg (Nat.ne_of_lt hhigh), dif_pos hcanonical]

theorem exists_significand {n : Nat} (hpos : n ≠ 0) (h : n ≤ 2 ^ 53) :
    ∃ m x, n * 2 ^ 1074 = m * 2 ^ x ∧ 2 ^ 52 ≤ m ∧ m < 2 ^ 53 ∧ x ≤ 2045 := by
  obtain h | rfl := Nat.lt_or_eq_of_le h
  · have hlog : n.log2 < 53 := (Nat.log2_lt hpos).2 h
    have hlow : 2 ^ n.log2 ≤ n := Nat.log2_self_le hpos
    have hhigh : n < 2 ^ (n.log2 + 1) := Nat.lt_log2_self
    have hfull : n.log2 + (52 - n.log2) = 52 := by omega
    have hover : n.log2 + 1 + (52 - n.log2) = 53 := by omega
    have hunits : 52 - n.log2 + (n.log2 + 1022) = 1074 := by omega
    have hsmallest : 2 ^ 52 = 2 ^ n.log2 * 2 ^ (52 - n.log2) := by rw [← Nat.pow_add, hfull]
    have hlimit : 2 ^ 53 = 2 ^ (n.log2 + 1) * 2 ^ (52 - n.log2) := by rw [← Nat.pow_add, hover]
    refine ⟨n * 2 ^ (52 - n.log2), n.log2 + 1022, ?_, ?_, ?_, by omega⟩
    · rw [Nat.mul_assoc, ← Nat.pow_add, hunits]
    · rw [hsmallest]
      exact Nat.mul_le_mul_right _ hlow
    · rw [hlimit]
      exact Nat.mul_lt_mul_of_pos_right hhigh (Nat.two_pow_pos _)
  · exact ⟨2 ^ 52, 1075, by decide +kernel, Nat.le_refl _, by decide, by decide⟩

theorem scaled_ofInt {i : Int} (h : i.natAbs ≤ 2 ^ 53) : (ofInt i).scaled = i * 2 ^ 1074 := by
  by_cases hzero : i = 0
  · subst hzero
    decide +kernel
  · obtain ⟨m, x, hn, hlow, hhigh, hx⟩ := exists_significand (Int.natAbs_ne_zero.2 hzero) h
    have hunits : (m * 2 ^ x : Nat) = (i.natAbs : Int) * 2 ^ 1074 := by
      rw [← hn, Int.natCast_mul, Int.natCast_pow]
      rfl
    rw [ofInt, ofRatio?_exact _ hn hlow hhigh hx, Option.getD_some, scaled, units]
    by_cases hneg : i < 0
    · rw [decide_eq_true hneg, if_pos rfl, hunits, Int.ofNat_natAbs_of_nonpos (Int.le_of_lt hneg),
        Int.neg_mul, Int.neg_neg]
    · rw [decide_eq_false hneg, if_neg Bool.false_ne_true, hunits,
        Int.natAbs_of_nonneg (Int.not_lt.1 hneg)]

theorem ofInt_inj {i j : Int} (hi : i.natAbs ≤ 2 ^ 53) (hj : j.natAbs ≤ 2 ^ 53)
    (h : (ofInt i).scaled = (ofInt j).scaled) : i = j := by
  rw [scaled_ofInt hi, scaled_ofInt hj] at h
  exact Int.eq_of_mul_eq_mul_right (by decide +kernel) h

end Binary64

end DocQuery
