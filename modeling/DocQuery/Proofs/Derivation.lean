import DocQuery.Proofs.WellFormed
import DocQuery.Query.Grammar

/-! Derivations of queries.  A text is read as an expression exactly if there is a
derivation of it, and what holds of all expressions that are read is shown by
induction on derivations. -/

namespace DocQuery.Query

def insideBrackets (params : List Json) : Nat → Option (Consumer Failure Expr)
  | 0 => none
  | n + 1 => some (groupWithin params n true)

def termWithin (params : List Json) (n : Nat) : Consumer Failure Expr :=
  ⟨term params (insideBrackets params n), term_shorter⟩

theorem groupWithin_read (params : List Json) (n : Nat) (nested : Bool) (s : List Char) :
    (groupWithin params n nested).read s = group nested (termWithin params n) s := by
  cases n <;> rfl

mutual

/-- A term in front of a text, and the rest of the text.  At most so many brackets
are open at once. -/
inductive TermRead (params : List Json) : Nat → List Char → Expr → List Char → Prop
  | condition {n s c r} : FieldName c.field.toList → condition params (skipBlanks s) = .ok (c, r) →
      TermRead params n s (.condition c) r
  | bracket {n s t e u r} : skipBlanks s = '(' :: t → GroupRead params n true t e u →
      skipBlanks u = ')' :: r → TermRead params (n + 1) s e r

inductive GroupRead (params : List Json) : Nat → Bool → List Char → Expr → List Char → Prop
  | term {n nested s e u r} : TermRead params n s e u → follow nested u = .ok (.stop r) →
      GroupRead params n nested s e r
  | members {n nested s e u logic es r} : TermRead params n s e u →
      MembersRead params n nested logic u es r → es ≠ [] →
      GroupRead params n nested s (.group logic (e :: es)) r

inductive MembersRead (params : List Json) :
    Nat → Bool → Logic → List Char → List Expr → List Char → Prop
  | nil {n nested logic s r} : follow nested s = .ok (.stop r) →
      MembersRead params n nested logic s [] r
  | cons {n nested logic s place t e u es r} :
      follow nested s = .ok (.connective logic place t) → TermRead params n t e u →
      MembersRead params n nested logic u es r → MembersRead params n nested logic s (e :: es) r

end

theorem condition_inv {params : List Json} {s r : List Char} {c : Condition}
    (h : condition params s = .ok (c, r)) :
    ∃ t, wordBeforeSpace? s = some (c.field.toList, t) := by
  unfold condition at h
  split at h
  · contradiction
  · next f t hf =>
    refine ⟨t, ?_⟩
    split at h
    · contradiction
    · split at h
      · dsimp only at h
        split at h
        · contradiction
        · split at h
          · simp only [Except.ok.injEq, Prod.mk.injEq] at h
            simp [hf, ← h.1]
          · contradiction
      · split at h
        · simp only [Except.ok.injEq, Prod.mk.injEq] at h
          simp [hf, ← h.1]
        · contradiction

theorem term_iff {params : List Json} {inner : Option (Consumer Failure Expr)} {s r : List Char}
    {e : Expr} :
    term params inner s = .ok (e, r) ↔
      (∃ c, e = .condition c ∧ FieldName c.field.toList ∧
        condition params (skipBlanks s) = .ok (c, r)) ∨
      ∃ g t u, inner = some g ∧ skipBlanks s = '(' :: t ∧ g.read t = .ok (e, u) ∧
        skipBlanks u = ')' :: r := by
  constructor
  · intro h
    unfold term at h
    dsimp only at h
    split at h
    · next t ht =>
      split at h
      · contradiction
      · next g =>
        split at h
        · contradiction
        · next e' u hu =>
          split at h
          · next w hw =>
            simp only [Except.ok.injEq, Prod.mk.injEq] at h
            obtain ⟨rfl, rfl⟩ := h
            exact .inr ⟨g, t, u, rfl, ht, hu, hw⟩
          · contradiction
    · contradiction
    · contradiction
    · next hopen _ hclose =>
      split at h
      · contradiction
      · next hk =>
        cases hc : condition params (skipBlanks s) with
        | error f => simp [hc, Except.map] at h
        | ok p =>
          obtain ⟨c, w⟩ := p
          simp only [hc, Except.map, Except.ok.injEq, Prod.mk.injEq] at h
          obtain ⟨rfl, rfl⟩ := h
          obtain ⟨t, ht⟩ := condition_inv hc
          refine .inl ⟨c, rfl, (fieldName_iff_of_word ht).2 ⟨⟨?_, ?_⟩, ?_⟩, rfl⟩
          · intro hh
            cases hs : skipBlanks s <;> simp_all
          · intro hh
            cases hs : skipBlanks s <;> simp_all
          · intro logic
            cases logic <;> simp_all [connective]
  · rintro (⟨c, rfl, hf, hc⟩ | ⟨g, t, u, rfl, ht, hu, hr⟩)
    · obtain ⟨t, ht⟩ := condition_inv hc
      obtain ⟨⟨hopen, hclose⟩, hk⟩ := (fieldName_iff_of_word ht).1 hf
      have hand := hk .and
      have hor := hk .or
      simp only [connective] at hand hor
      unfold term
      dsimp only
      split
      · simp_all
      · next hs =>
        rw [hs] at ht
        simp [wordBeforeSpace?, takeUntil] at ht
      · simp_all
      · simp [hand, hor, hc, Except.map]
    · simp only [term, ht, hu, hr]

theorem siblings_iff {nested : Bool} {t : Consumer Failure Expr} {logic : Logic} {s r : List Char}
    {es : List Expr} :
    siblings nested t logic s = .ok (es, r) ↔
      (es = [] ∧ follow nested s = .ok (.stop r)) ∨
      ∃ e fs place u v, es = e :: fs ∧ follow nested s = .ok (.connective logic place u) ∧
        t.read u = .ok (e, v) ∧ siblings nested t logic v = .ok (fs, r) := by
  rw [siblings]
  split
  · next hf => simp [hf]
  · next u hf =>
    simp only [hf, Except.ok.injEq, Prod.mk.injEq, Follow.stop.injEq, reduceCtorEq, false_and,
      and_false, exists_false, or_false, eq_comm]
  · next next place u hf =>
    simp only [hf, Except.ok.injEq, reduceCtorEq, and_false, false_or, Follow.connective.injEq]
    constructor
    · intro h
      split at h
      · next hl =>
        split at h
        · contradiction
        · next e v he =>
          cases hs : siblings nested t logic v with
          | error f => simp [hs, Except.map] at h
          | ok p =>
            simp only [hs, Except.map, Except.ok.injEq, Prod.mk.injEq] at h
            exact ⟨e, p.1, place, u, v, h.1.symm, ⟨hl, rfl, rfl⟩, he, by rw [← h.2]; exact hs⟩
      · contradiction
    · rintro ⟨e, fs, _, _, v, rfl, ⟨rfl, rfl, rfl⟩, he, hs⟩
      rw [if_pos rfl]
      split
      · next f hg => simp [he] at hg
      · next e' v' hg =>
        rw [he] at hg
        simp only [Except.ok.injEq, Prod.mk.injEq] at hg
        obtain ⟨rfl, rfl⟩ := hg
        rw [hs]
        rfl

theorem group_iff {nested : Bool} {t : Consumer Failure Expr} {s r : List Char} {e : Expr} :
    group nested t s = .ok (e, r) ↔
      ∃ first u, t.read s = .ok (first, u) ∧
        ((e = first ∧ follow nested u = .ok (.stop r)) ∨
        ∃ logic es, e = .group logic (first :: es) ∧ es ≠ [] ∧
          siblings nested t logic u = .ok (es, r)) := by
  constructor
  · intro h
    unfold group at h
    split at h
    · contradiction
    · next first u ht =>
      refine ⟨first, u, ht, ?_⟩
      split at h
      · contradiction
      · next v hf =>
        simp only [Except.ok.injEq, Prod.mk.injEq] at h
        exact .inl ⟨h.1.symm, by rw [← h.2]; exact hf⟩
      · next logic place v hf =>
        split at h
        · contradiction
        · next second w hw =>
          cases hs : siblings nested t logic w with
          | error f => simp [hs, Except.map] at h
          | ok p =>
            obtain ⟨es, x⟩ := p
            simp only [hs, Except.map, Except.ok.injEq, Prod.mk.injEq] at h
            obtain ⟨rfl, rfl⟩ := h
            have hsib := siblings_iff.2 (.inr ⟨second, es, place, v, w, rfl, hf, hw, hs⟩)
            exact .inr ⟨logic, second :: es, rfl, by simp, hsib⟩
  · rintro ⟨first, u, ht, ⟨rfl, hf⟩ | ⟨logic, es, rfl, hne, hs⟩⟩
    · simp only [group, ht, hf]
    · obtain ⟨rfl, _⟩ | ⟨second, fs, place, v, w, rfl, hf, hw, hs⟩ := siblings_iff.1 hs
      · contradiction
      · simp only [group, ht, hf, hw, hs]
        rfl

theorem membersRead_iff {params : List Json} {n : Nat}
    (ht : ∀ s e r, (termWithin params n).read s = .ok (e, r) ↔ TermRead params n s e r)
    {nested : Bool} {logic : Logic} {s r : List Char} {es : List Expr} :
    siblings nested (termWithin params n) logic s = .ok (es, r) ↔
      MembersRead params n nested logic s es r := by
  -- the members say how the text is read, so the induction is on them
  induction es generalizing s with
  | nil =>
    rw [siblings_iff]
    constructor
    · rintro (⟨_, hf⟩ | ⟨e, fs, _, _, _, h, _⟩)
      · exact .nil hf
      · contradiction
    · rintro ⟨hf⟩
      exact .inl ⟨rfl, hf⟩
  | cons e es ih =>
    rw [siblings_iff]
    constructor
    · rintro (⟨h, _⟩ | ⟨_, _, place, u, v, h, hf, he, hs⟩)
      · contradiction
      · cases h
        exact .cons hf ((ht _ _ _).1 he) (ih.1 hs)
    · rintro (_ | ⟨hf, he, hs⟩)
      exact .inr ⟨e, es, _, _, _, rfl, hf, (ht _ _ _).2 he, ih.2 hs⟩

theorem groupRead_iff {params : List Json} {n : Nat}
    (ht : ∀ s e r, (termWithin params n).read s = .ok (e, r) ↔ TermRead params n s e r)
    {nested : Bool} {s r : List Char} {e : Expr} :
    group nested (termWithin params n) s = .ok (e, r) ↔ GroupRead params n nested s e r := by
  rw [group_iff]
  constructor
  · rintro ⟨first, u, h, ⟨rfl, hf⟩ | ⟨logic, es, rfl, hne, hs⟩⟩
    · exact .term ((ht _ _ _).1 h) hf
    · exact .members ((ht _ _ _).1 h) ((membersRead_iff ht).1 hs) hne
  · intro h
    cases h with
    | term h hf => exact ⟨_, _, (ht _ _ _).2 h, .inl ⟨rfl, hf⟩⟩
    | members h hs hne =>
      exact ⟨_, _, (ht _ _ _).2 h, .inr ⟨_, _, rfl, hne, (membersRead_iff ht).2 hs⟩⟩

theorem termRead_iff {params : List Json} {n : Nat} {s r : List Char} {e : Expr} :
    (termWithin params n).read s = .ok (e, r) ↔ TermRead params n s e r := by
  rw [termWithin, term_iff]
  induction n generalizing s r e with
  | zero =>
    constructor
    · rintro (⟨c, rfl, hf, hc⟩ | ⟨g, _, _, hg, _⟩)
      · exact .condition hf hc
      · contradiction
    · intro h
      cases h with
      | condition hf hc => exact .inl ⟨_, rfl, hf, hc⟩
  | succ n ih =>
    have hgroup : ∀ {s r e}, (groupWithin params n true).read s = .ok (e, r) ↔
        GroupRead params n true s e r := by
      intro s r e
      rw [groupWithin_read]
      exact groupRead_iff fun s e r => by rw [termWithin, term_iff, ih]
    constructor
    · rintro (⟨c, rfl, hf, hc⟩ | ⟨g, t, u, hg, ht, he, hu⟩)
      · exact .condition hf hc
      · cases hg
        exact .bracket ht (hgroup.1 he) hu
    · intro h
      cases h with
      | condition hf hc => exact .inl ⟨_, rfl, hf, hc⟩
      | bracket ht he hu => exact .inr ⟨_, _, _, rfl, ht, hgroup.2 he, hu⟩

theorem parse_iff {params : List Json} {query : String} {e : Expr} :
    parse query params = .ok e ↔
      ∃ r, GroupRead params nestingLimit false query.toList e r := by
  have hgroup : ∀ r, (groupWithin params nestingLimit false).read query.toList = .ok (e, r) ↔
      GroupRead params nestingLimit false query.toList e r := by
    intro r
    rw [groupWithin_read]
    exact groupRead_iff fun _ _ _ => termRead_iff
  rw [parse]
  constructor
  · intro h
    split at h
    · next e' r hr =>
      cases h
      exact ⟨r, (hgroup r).1 hr⟩
    · contradiction
  · rintro ⟨r, hr⟩
    rw [(hgroup r).2 hr]

end DocQuery.Query
