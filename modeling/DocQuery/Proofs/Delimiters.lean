import DocQuery.Proofs.Reading.Condition

namespace DocQuery.Query

def Operator.negation? : Operator → Option Operator
  | like => some notLike
  | isIn => some notIn
  | _ => none

def Operator.IsNegated (o : Operator) : Prop := ∃ p, Operator.negation? p = some o

theorem negation?_spec {p o : Operator} (h : p.negation? = some o) :
    p.takesValue ∧ ¬ p.IsNegated := by
  constructor
  · cases p <;> cases h <;> rfl
  · rintro ⟨q, hq⟩
    cases q <;> cases hq <;> cases h

/-- The text ends here, or a bracket follows. -/
def EndsAbruptly (r : List Char) : Prop := StopsAt ['(', ')'] r

theorem stopsAt_wordStops {r : List Char} :
    StopsAt wordStops r ↔ r.head? = some ' ' ∨ EndsAbruptly r := by
  cases r <;> simp [StopsAt, EndsAbruptly, wordStops]

theorem EndsAbruptly.head? {r : List Char} (h : EndsAbruptly r) : r.head? ≠ some ' ' :=
  fun hr => absurd (h ' ' hr) (by decide)

theorem exists_blanks {s : List Char} (h : s.head? = some ' ') :
    ∃ n, s = blanks (n + 1) ++ skipBlanks s := by
  induction s with
  | nil => contradiction
  | cons c s ih =>
    simp only [List.head?_cons, Option.some.injEq] at h
    subst h
    by_cases hs : s.head? = some ' '
    · obtain ⟨n, hn⟩ := ih hs
      exact ⟨n + 1, congrArg (' ' :: ·) hn⟩
    · exact ⟨0, congrArg (' ' :: ·) (skipBlanks_of_head? hs).symm⟩

theorem operatorText_of_symbol {w : List Char} {o : Operator} (h : Operator.ofSymbol? w = some o) :
    OperatorText o w := by
  unfold Operator.ofSymbol? at h
  split at h <;> cases h <;> constructor

theorem afterIs_takesValue {s r : List Char} {o : Operator} (h : afterIs s = ⟨.ok o, r⟩) :
    o.takesValue = false := by
  unfold afterIs at h
  dsimp only at h
  split at h
  · cases h
    rfl
  · split at h
    · split at h
      · cases h
        rfl
      · cases h
    · cases h

theorem afterNot_inv {s r : List Char} {o : Operator} (h : afterNot s = ⟨.ok o, r⟩) :
    ∃ p w, Operator.negation? p = some o ∧ OperatorText p w ∧ skipBlanks s = w ++ r ∧
      StopsAt wordStops r := by
  unfold afterNot at h
  dsimp only at h
  split at h
  · next t ht =>
    cases h
    obtain ⟨w, hw, hsame, hr⟩ := afterKeyword?_iff.1 ht
    exact ⟨.like, w, rfl, .like hsame, hw, hr⟩
  · split at h
    · next t ht =>
      cases h
      obtain ⟨w, hw, hsame, hr⟩ := afterKeyword?_iff.1 ht
      exact ⟨.isIn, w, rfl, .isIn hsame, hw, hr⟩
    · cases h

theorem operatorText_negation {p o : Operator} {v w : List Char} {n : Nat}
    (hp : p.negation? = some o) (hv : sameWord keywordNot v) (hw : OperatorText p w) :
    OperatorText o (v ++ blanks (n + 1) ++ w) := by
  cases hw <;> cases hp
  · next hw => exact .notLike hv hw
  · next hw => exact .notIn hv hw

theorem operator_inv {s r : List Char} {o : Operator} (h : operator s = ⟨.ok o, r⟩)
    (ho : o.takesValue) :
    ∃ w, OperatorText o w ∧ s = w ++ r ∧ (r.head? = some ' ' ∨ o.IsNegated ∧ EndsAbruptly r) := by
  unfold operator at h
  split at h
  · cases h
  · next word t hword =>
    obtain ⟨rfl, -, -, ht⟩ := wordBeforeSpace?_inv hword
    split at h
    · next hsymbol =>
      cases h
      exact ⟨word, operatorText_of_symbol hsymbol, rfl, .inl ht⟩
    · split at h
      · next hlike =>
        cases h
        exact ⟨word, .like hlike, rfl, .inl ht⟩
      · split at h
        · next hin =>
          cases h
          exact ⟨word, .isIn hin, rfl, .inl ht⟩
        · split at h
          · rw [afterIs_takesValue h] at ho
            contradiction
          · split at h
            · next hnot =>
              obtain ⟨p, w, hp, hw, hrest, hr⟩ := afterNot_inv h
              obtain ⟨n, hn⟩ := exists_blanks ht
              refine ⟨_, operatorText_negation (n := n) hp hnot hw, ?_, ?_⟩
              · rw [hn, hrest]
                simp
              · exact (stopsAt_wordStops.1 hr).imp_right fun hends => ⟨⟨p, hp⟩, hends⟩
            · cases h

theorem operator_negated {o : Operator} {w r : List Char} (h : OperatorText o w)
    (ho : o.IsNegated) (hr : StopsAt wordStops r) : operator (w ++ r) = ⟨.ok o, r⟩ := by
  obtain ⟨p, hp⟩ := ho
  cases h with
  | notLike hn hw => rw [operator_not hn (by decide) hw hr, if_pos rfl]
  | notIn hn hw => rw [operator_not hn (by decide) hw hr, if_neg (by decide), if_pos rfl]
  | _ => cases p <;> cases hp

theorem operator_iff {s r : List Char} {o : Operator} (ho : o.takesValue) :
    operator s = ⟨.ok o, r⟩ ↔
      ∃ w, OperatorText o w ∧ s = w ++ r ∧ (r.head? = some ' ' ∨ o.IsNegated ∧ EndsAbruptly r) := by
  constructor
  · exact fun h => operator_inv h ho
  · rintro ⟨w, hw, rfl, hspace | ⟨hneg, hends⟩⟩
    · obtain ⟨n, hn⟩ := exists_blanks hspace
      exact operator_text hw (fun _ => ⟨n, _, hn⟩) (stopsAt_wordStops.2 (.inl hspace))
    · exact operator_negated hw hneg (stopsAt_wordStops.2 (.inr hends))

theorem operator_append_iff {w r : List Char} {o : Operator} (ho : o.takesValue)
    (hw : OperatorText o w) :
    operator (w ++ r) = ⟨.ok o, r⟩ ↔ r.head? = some ' ' ∨ o.IsNegated ∧ EndsAbruptly r := by
  rw [operator_iff ho]
  constructor
  · rintro ⟨-, -, -, hr⟩
    exact hr
  · exact fun hr => ⟨w, hw, rfl, hr⟩

/-- An operator that takes a value is read, in any of its spellings, up to a space, except that
one with `NOT` may also end abruptly.  So a space follows unless this happens, and a word and
its negation accept the same text behind them exactly when it neither is empty nor begins with
a bracket. -/
theorem operator_delimited {o : Operator} (ho : o.takesValue) (s r : List Char) :
    (operator s = ⟨.ok o, r⟩ ↔
      ∃ w, OperatorText o w ∧ s = w ++ r ∧
        (r.head? = some ' ' ∨ o.IsNegated ∧ EndsAbruptly r)) ∧
    (operator s = ⟨.ok o, r⟩ → (r.head? = some ' ' ↔ ¬ (o.IsNegated ∧ EndsAbruptly r))) ∧
    (∀ p v w, p.negation? = some o → OperatorText p v → OperatorText o w →
      ((operator (v ++ r) = ⟨.ok p, r⟩ ↔ operator (w ++ r) = ⟨.ok o, r⟩) ↔
        ¬ EndsAbruptly r)) := by
  refine ⟨operator_iff ho, fun h => ?_, fun p v w hp hv hw => ?_⟩
  · obtain ⟨-, -, -, hr⟩ := operator_inv h ho
    exact ⟨fun hspace hends => hends.2.head? hspace, hr.resolve_right⟩
  · obtain ⟨hpv, hplain⟩ := negation?_spec hp
    have hneg : o.IsNegated := ⟨p, hp⟩
    rw [operator_append_iff hpv hv, operator_append_iff ho hw]
    by_cases hends : EndsAbruptly r
    · simp [hends, hneg, hplain, hends.head?]
    · simp [hends]

theorem operator_delimited_bracket :
    Operator.notIn.takesValue ∧ operator "Not  iN(1)".toList = ⟨.ok .notIn, "(1)".toList⟩ ∧
      "(1)".toList.head? ≠ some ' ' ∧
    OperatorText .isIn "In".toList ∧ OperatorText .notIn "Not  iN".toList ∧
      ¬ (operator ("In".toList ++ "(1)".toList) = ⟨.ok .isIn, "(1)".toList⟩ ↔
        operator ("Not  iN".toList ++ "(1)".toList) = ⟨.ok .notIn, "(1)".toList⟩) := by
  obtain ⟨hread, hspace, hsame⟩ :=
    operator_delimited (o := .notIn) rfl "Not  iN(1)".toList "(1)".toList
  have hin : OperatorText .isIn "In".toList := .isIn (by decide)
  have hnotIn : OperatorText .notIn "Not  iN".toList :=
    .notIn (v := "Not".toList) (n := 1) (w := "iN".toList) (by decide) (by decide)
  have hends : Operator.notIn.IsNegated ∧ EndsAbruptly "(1)".toList :=
    ⟨⟨.isIn, rfl⟩, .cons (by decide)⟩
  have hok := hread.2 ⟨_, hnotIn, rfl, .inr hends⟩
  exact ⟨rfl, hok, fun h => (hspace hok).1 h hends, hin, hnotIn,
    fun h => (hsame .isIn _ _ rfl hin hnotIn).1 h hends.2⟩

end DocQuery.Query
