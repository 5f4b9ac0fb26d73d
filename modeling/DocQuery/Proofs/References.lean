import DocQuery.Proofs.Reading.Value

namespace DocQuery.Query

def IsOrdinal (w : List Char) : Prop := w ≠ [] ∧ ∀ c ∈ w, isDigit c

theorem isOrdinal_iff {w : List Char} : IsOrdinal w ↔ !(w.isEmpty || !w.all isDigit) := by
  simp [IsOrdinal]

instance (w : List Char) : Decidable (IsOrdinal w) := decidable_of_iff' _ isOrdinal_iff

def nthParameter (params : List Json) (n : Nat) : Except Fault Json :=
  if h : 0 < n ∧ n ≤ params.length then .ok params[n - 1]
  else .error (.parameterOutOfRange n params.length)

def referent (params : List Json) (w : List Char) : Except Fault Json :=
  if IsOrdinal w then nthParameter params (ofDigits w) else .error .malformedParameter

def referred (found : Except Fault Json) (place rest : List Char) : Reading Json :=
  match found with
  | .ok v => ⟨.ok v, rest⟩
  | .error fault => ⟨.error ⟨fault, place⟩, rest⟩

def Overlong (w : List Char) : Prop := IsOrdinal w ∧ 2 ^ 64 ≤ ofDigits w

def SignedOrdinal (w ds : List Char) : Prop := w = '+' :: ds ∧ IsOrdinal ds ∧ ofDigits ds < 2 ^ 64

theorem referred_inj {x y : Except Fault Json} {place rest : List Char} :
    referred x place rest = referred y place rest ↔ x = y := by
  constructor
  · intro h
    cases x <;> cases y <;> simp_all [referred]
  · exact fun h => h ▸ rfl

theorem IsOrdinal.not_plus {w : List Char} (h : IsOrdinal w) (ds : List Char) : w ≠ '+' :: ds := by
  rintro rfl
  exact absurd (h.2 '+' List.mem_cons_self) (by decide)

theorem wordIndex?_eq_some {w : List Char} {n : Nat} :
    wordIndex? w = some n ↔
      ∃ ds, (w = ds ∨ w = '+' :: ds) ∧ IsOrdinal ds ∧ ofDigits ds = n ∧ n < 2 ^ 64 := by
  have hread : ∀ ds : List Char,
      (if ds.isEmpty || !ds.all isDigit || 2 ^ 64 ≤ ofDigits ds then none
        else some (ofDigits ds)) = some n ↔ IsOrdinal ds ∧ ofDigits ds = n ∧ n < 2 ^ 64 := by
    intro ds
    rw [isOrdinal_iff]
    cases ds.isEmpty || !ds.all isDigit
    · by_cases hlong : 2 ^ 64 ≤ ofDigits ds <;> simp <;> omega
    · simp
  unfold wordIndex?
  split
  · next ds =>
    rw [hread]
    constructor
    · exact fun h => ⟨ds, .inr rfl, h⟩
    · rintro ⟨ds', rfl | hw, h⟩
      · exact absurd rfl (h.1.not_plus ds)
      · cases hw
        exact h
  · next hplus =>
    rw [hread]
    constructor
    · exact fun h => ⟨w, .inl rfl, h⟩
    · rintro ⟨ds, rfl | rfl, h⟩
      · exact h
      · exact absurd rfl (hplus ds)

theorem wordIndex?_of_ordinal {w : List Char} (h : IsOrdinal w) (hlong : ¬ Overlong w) :
    wordIndex? w = some (ofDigits w) :=
  wordIndex?_eq_some.2 ⟨w, .inl rfl, h, rfl, Nat.not_le.1 fun hle => hlong ⟨h, hle⟩⟩

theorem wordIndex?_of_signed {w ds : List Char} (h : SignedOrdinal w ds) :
    wordIndex? w = some (ofDigits ds) :=
  wordIndex?_eq_some.2 ⟨ds, .inr h.1, h.2.1, rfl, h.2.2⟩

theorem wordIndex?_of_overlong {w : List Char} (h : Overlong w) : wordIndex? w = none := by
  rw [Option.eq_none_iff_forall_ne_some]
  intro n hindex
  obtain ⟨ds, rfl | rfl, -, rfl, hlt⟩ := wordIndex?_eq_some.1 hindex
  · exact Nat.not_le.2 hlt h.2
  · exact h.1.not_plus ds rfl

theorem wordIndex?_of_malformed {w : List Char} (h : ¬ IsOrdinal w)
    (hsigned : ∀ ds, ¬ SignedOrdinal w ds) : wordIndex? w = none := by
  rw [Option.eq_none_iff_forall_ne_some]
  intro n hindex
  obtain ⟨ds, rfl | rfl, hds, rfl, hlt⟩ := wordIndex?_eq_some.1 hindex
  · exact h hds
  · exact hsigned ds ⟨rfl, hds, hlt⟩

theorem nthParameter_ne_malformed (params : List Json) (n : Nat) :
    nthParameter params n ≠ .error .malformedParameter := by
  unfold nthParameter
  split <;> simp

section

variable {params : List Json} {w r : List Char} (hw : ∀ c ∈ w, c ∉ valueStops)
  (hr : StopsAt valueStops r)
include hw hr

theorem parameter_of_none (h : wordIndex? w = none) :
    parameter params ('?' :: (w ++ r)) =
      referred (.error .malformedParameter) ('?' :: (w ++ r)) r := by
  have htake := takeUntil_word hw hr
  rw [valueStops] at htake
  simp only [parameter, List.drop_one, List.tail_cons, htake, h]
  rfl

theorem parameter_of_some {n : Nat} (h : wordIndex? w = some n) :
    parameter params ('?' :: (w ++ r)) =
      referred (nthParameter params n) ('?' :: (w ++ r)) r := by
  have htake := takeUntil_word hw hr
  rw [valueStops] at htake
  simp only [parameter, List.drop_one, List.tail_cons, htake, h]
  cases n with
  | zero => rfl
  | succ i =>
    by_cases hi : i + 1 ≤ params.length
    · have hlt : i < params.length := hi
      simp [nthParameter, referred, hi, hlt]
    · have hlt : ¬ i < params.length := hi
      simp [nthParameter, referred, hi, hlt, Reading.fail]

theorem parameter_referent (hlong : ¬ Overlong w) (hsigned : ∀ ds, ¬ SignedOrdinal w ds) :
    parameter params ('?' :: (w ++ r)) = referred (referent params w) ('?' :: (w ++ r)) r := by
  by_cases h : IsOrdinal w
  · rw [parameter_of_some hw hr (wordIndex?_of_ordinal h hlong), referent, if_pos h]
  · rw [parameter_of_none hw hr (wordIndex?_of_malformed h hsigned), referent, if_neg h]

theorem parameter_ne_referent (h : Overlong w ∨ ∃ ds, SignedOrdinal w ds) :
    parameter params ('?' :: (w ++ r)) ≠ referred (referent params w) ('?' :: (w ++ r)) r := by
  rcases h with h | ⟨ds, h⟩
  · rw [parameter_of_none hw hr (wordIndex?_of_overlong h), Ne, referred_inj, referent, if_pos h.1]
    exact (nthParameter_ne_malformed _ _).symm
  · have hplus : ¬ IsOrdinal w := fun hordinal => hordinal.not_plus ds h.1
    rw [parameter_of_some hw hr (wordIndex?_of_signed h), Ne, referred_inj, referent, if_neg hplus]
    exact nthParameter_ne_malformed _ _

end

/-- A word behind a question mark, up to the end of the text, a space or a closing bracket,
is resolved to the parameter whose number its digits denote, refused if there is none, and
refused as malformed if it is not of digits only; except exactly that digits that denote more
than a word holds are refused as malformed, and that a plus in front of digits is let through. -/
theorem parameter_referred {params : List Json} {w r : List Char}
    (hw : ∀ c ∈ w, c ∉ valueStops) (hr : StopsAt valueStops r) :
    (parameter params ('?' :: (w ++ r)) = referred (referent params w) ('?' :: (w ++ r)) r ↔
      ¬ Overlong w ∧ ∀ ds, ¬ SignedOrdinal w ds) ∧
    (Overlong w → parameter params ('?' :: (w ++ r)) =
      referred (.error .malformedParameter) ('?' :: (w ++ r)) r) ∧
    (∀ ds, SignedOrdinal w ds → parameter params ('?' :: (w ++ r)) =
      referred (nthParameter params (ofDigits ds)) ('?' :: (w ++ r)) r) := by
  refine ⟨⟨fun h => ?_, fun h => ?_⟩, fun h => ?_, fun ds h => ?_⟩
  · constructor
    · exact fun hlong => parameter_ne_referent hw hr (.inl hlong) h
    · exact fun ds hsigned => parameter_ne_referent hw hr (.inr ⟨ds, hsigned⟩) h
  · exact parameter_referent hw hr h.1 h.2
  · exact parameter_of_none hw hr (wordIndex?_of_overlong h)
  · exact parameter_of_some hw hr (wordIndex?_of_signed h)

theorem parameter_referred_forms :
    parameter [.bool true] "?0001)".toList =
        referred (referent [.bool true] "0001".toList) "?0001)".toList ")".toList ∧
      referent [.bool true] "0001".toList = .ok (.bool true) ∧
    parameter [.bool true] "?18446744073709551616".toList =
        referred (.error .malformedParameter) "?18446744073709551616".toList [] ∧
      referent [.bool true] "18446744073709551616".toList =
        .error (.parameterOutOfRange 18446744073709551616 1) ∧
    parameter [.bool true] "?+1 and".toList =
        referred (nthParameter [.bool true] 1) "?+1 and".toList " and".toList ∧
      referent [.bool true] "+1".toList = .error .malformedParameter := by
  have hzeros : ¬ Overlong "0001".toList ∧ ∀ ds, ¬ SignedOrdinal "0001".toList ds :=
    ⟨fun h => absurd h.2 (by decide +kernel), fun ds h => absurd h.1 (by simp)⟩
  have hover : Overlong "18446744073709551616".toList := ⟨by decide, by decide +kernel⟩
  have hsigned : SignedOrdinal "+1".toList "1".toList := ⟨rfl, by decide, by decide⟩
  obtain ⟨hexact, -, -⟩ :=
    parameter_referred (w := "0001".toList) (r := ")".toList) (by simp [valueStops])
      (.cons (by decide))
  obtain ⟨-, hlong, -⟩ :=
    parameter_referred (w := "18446744073709551616".toList) (by simp [valueStops]) .nil
  obtain ⟨-, -, hplus⟩ :=
    parameter_referred (w := "+1".toList) (r := " and".toList) (by simp [valueStops])
      (.cons (by decide))
  exact ⟨hexact.2 hzeros, rfl, hlong hover, rfl, hplus _ hsigned, rfl⟩

end DocQuery.Query
