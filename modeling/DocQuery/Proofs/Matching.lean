import DocQuery.Regex.Basic

/-! What regular expressions match.  A match leads from one place of a text to another;
the search moves every set of places to the places where matches from there end. -/

namespace DocQuery.Regex

inductive Chain (link : Nat → Nat → Prop) : Nat → Nat → Nat → Prop
  | nil {i} : Chain link 0 i i
  | cons {n i j k} : link i j → Chain link n j k → Chain link (n + 1) i k

def before? (first : Option Char) (text : List Char) : Nat → Option Char
  | 0 => first
  | i + 1 => text[i]?

def Spans (text : List Char) : Regex → Nat → Nat → Prop
  | empty, i, j => i = j
  | set s, i, j => (∃ c, text[i]? = some c ∧ s.contains c) ∧ j = i + 1
  | anchor a, i, j => i ≤ text.length ∧ a.holds (before? none text i) text[i]? ∧ i = j
  | seq r s, i, k => ∃ j, r.Spans text i j ∧ s.Spans text j k
  | alt r s, i, j => r.Spans text i j ∨ s.Spans text i j
  | times r least most, i, j =>
    ∃ n, least ≤ n ∧ (∀ m ∈ most, n ≤ max least m) ∧ Chain (r.Spans text) n i j

/-- A move within so many places that leads along a relation. -/
def Move.Follows (bound : Nat) (m : Move) (link : Nat → Nat → Prop) : Prop :=
  ∀ places < 2 ^ bound, m.run places < 2 ^ bound ∧
    ∀ j, (m.run places).testBit j ↔ ∃ i, places.testBit i ∧ link i j

theorem testBit_bit_zero (b : Bool) (n : Nat) : (b.toNat + 2 * n).testBit 0 = b := by
  cases b <;> simp [Nat.testBit_zero]

theorem testBit_bit_succ (b : Bool) (n i : Nat) :
    (b.toNat + 2 * n).testBit (i + 1) = n.testBit i := by
  rw [Nat.testBit_succ]
  congr 1
  have := b.toNat_lt
  omega

theorem testBit_placesOf (p : Char → Bool) (text : List Char) (i : Nat) :
    (placesOf p text).testBit i ↔ ∃ c, text[i]? = some c ∧ p c := by
  induction text generalizing i with
  | nil => simp [placesOf]
  | cons c text ih =>
    rw [placesOf]
    cases i with
    | zero =>
      rw [testBit_bit_zero]
      simp
    | succ i =>
      rw [testBit_bit_succ, ih]
      simp

theorem testBit_placesAt (a : Anchor) (first : Option Char) (text : List Char) (i : Nat) :
    (placesAt a first text).testBit i ↔
      i ≤ text.length ∧ a.holds (before? first text i) text[i]? := by
  induction text generalizing first i with
  | nil =>
    have hbit : (a.holds first none).toNat = (a.holds first none).toNat + 2 * 0 := rfl
    rw [placesAt, hbit]
    cases i with
    | zero =>
      rw [testBit_bit_zero]
      simp [before?]
    | succ i =>
      rw [testBit_bit_succ]
      simp
  | cons c text ih =>
    rw [placesAt]
    cases i with
    | zero =>
      rw [testBit_bit_zero]
      simp [before?]
    | succ i =>
      have hbefore : before? (some c) text i = before? first (c :: text) (i + 1) := by
        cases i <;> simp [before?]
      rw [testBit_bit_succ, ih, hbefore]
      simp

theorem lt_two_pow_of_testBit {bound places : Nat} (h : ∀ i, places.testBit i → i < bound) :
    places < 2 ^ bound := by
  apply Nat.lt_pow_two_of_testBit
  intro i hi
  rw [Bool.eq_false_iff]
  intro hb
  exact absurd (h i hb) (Nat.not_lt.2 hi)

theorem lt_of_testBit {bound places i : Nat} (h : places < 2 ^ bound) (hi : places.testBit i) :
    i < bound := by
  rcases Nat.lt_or_ge i bound with hlt | hge
  · exact hlt
  · rw [Nat.testBit_lt_two_pow (Nat.lt_of_lt_of_le h (Nat.pow_le_pow_right (by decide) hge))] at hi
    contradiction

namespace Move

variable {bound : Nat} {m : Move} {link : Nat → Nat → Prop}

theorem Follows.power (h : m.Follows bound link) (n : Nat) :
    (⟨m.power n⟩ : Move).Follows bound (Chain link n) := by
  induction n with
  | zero =>
    intro places hp
    refine ⟨hp, fun j => ⟨fun hj => ⟨j, hj, .nil⟩, ?_⟩⟩
    rintro ⟨i, hi, ⟨⟩⟩
    exact hi
  | succ n ih =>
    intro places hp
    obtain ⟨hlt, hlink⟩ := h places hp
    obtain ⟨hlt', hchain⟩ := ih _ hlt
    show m.power (n + 1) places < _ ∧ ∀ j, (m.power (n + 1) places).testBit j ↔ _
    rw [Move.power]
    split
    · next hz =>
      refine ⟨Nat.two_pow_pos bound, fun j => ?_⟩
      simp [hz]
    · refine ⟨hlt', fun j => (hchain j).trans ?_⟩
      constructor
      · rintro ⟨k, hk, hc⟩
        obtain ⟨i, hi, hl⟩ := (hlink k).1 hk
        exact ⟨i, hi, .cons hl hc⟩
      · rintro ⟨i, hi, ⟨⟩⟩
        next k hl hc => exact ⟨k, (hlink k).2 ⟨i, hi, hl⟩, hc⟩

theorem Follows.testBit_more (h : m.Follows bound link) {places : Nat} (hp : places < 2 ^ bound)
    (j : Nat) :
    (places ||| m.run places).testBit j ↔
      places.testBit j ∨ ∃ i, places.testBit i ∧ link i j := by
  rw [Nat.testBit_or, Bool.or_eq_true, (h places hp).2 j]

theorem Follows.mem_of_chain (h : m.Follows bound link) {places : Nat} (hp : places < 2 ^ bound)
    (hfix : places ||| m.run places = places) {n i j : Nat} (hc : Chain link n i j)
    (hi : places.testBit i) : places.testBit j := by
  -- once nothing is added, no chain leads away
  induction hc with
  | nil => exact hi
  | @cons n i k j hl _ ih =>
    apply ih
    rw [← hfix, h.testBit_more hp]
    exact .inr ⟨i, hi, hl⟩

theorem Follows.closure (h : m.Follows bound link) (rounds : Nat) :
    (⟨m.closure rounds⟩ : Move).Follows bound fun i j => ∃ n ≤ rounds, Chain link n i j := by
  induction rounds with
  | zero =>
    intro places hp
    refine ⟨hp, fun j => ⟨fun hj => ⟨j, hj, 0, Nat.le_refl 0, .nil⟩, ?_⟩⟩
    rintro ⟨i, hi, n, hn, hc⟩
    cases Nat.le_zero.1 hn
    cases hc
    exact hi
  | succ rounds ih =>
    intro places hp
    have hmore := h.testBit_more hp
    show m.closure (rounds + 1) places < _ ∧ ∀ j, (m.closure (rounds + 1) places).testBit j ↔ _
    rw [Move.closure]
    dsimp only
    split
    · next hfix =>
      refine ⟨hp, fun j => ⟨fun hj => ⟨j, hj, 0, Nat.zero_le _, .nil⟩, ?_⟩⟩
      rintro ⟨i, hi, n, _, hc⟩
      exact h.mem_of_chain hp hfix hc hi
    · obtain ⟨hlt, hreach⟩ := ih (places ||| m.run places) (Nat.or_lt_two_pow hp (h places hp).1)
      refine ⟨hlt, fun j => (hreach j).trans ?_⟩
      constructor
      · rintro ⟨i, hi, n, hn, hc⟩
        rcases (hmore i).1 hi with hi | ⟨k, hk, hl⟩
        · exact ⟨i, hi, n, Nat.le_succ_of_le hn, hc⟩
        · exact ⟨k, hk, n + 1, Nat.succ_le_succ hn, .cons hl hc⟩
      · rintro ⟨i, hi, n, hn, hc⟩
        cases hc with
        | nil => exact ⟨j, (hmore j).2 (.inl hi), 0, Nat.zero_le _, .nil⟩
        | @cons n _ k _ hl hc =>
          exact ⟨k, (hmore k).2 (.inr ⟨i, hi, hl⟩), n, Nat.le_of_succ_le_succ hn, hc⟩

theorem Follows.closure_fixed (h : m.Follows bound link) {rounds places : Nat}
    (hp : places < 2 ^ bound) (hr : 2 ^ bound ≤ places + rounds) :
    m.closure rounds places ||| m.run (m.closure rounds places) = m.closure rounds places := by
  -- a round that adds places makes the number greater, and it stays below its bound
  induction rounds generalizing places with
  | zero => omega
  | succ rounds ih =>
    rw [Move.closure]
    split
    · assumption
    · next hne =>
      have hle : places ≤ places ||| m.run places := Nat.left_le_or
      exact ih (Nat.or_lt_two_pow hp (h places hp).1) (by omega)

theorem Follows.closure_all (h : m.Follows bound link) :
    (⟨m.closure (2 ^ bound)⟩ : Move).Follows bound fun i j => ∃ n, Chain link n i j := by
  intro places hp
  obtain ⟨hlt, hreach⟩ := h.closure (2 ^ bound) places hp
  refine ⟨hlt, fun j => ⟨fun hj => ?_, ?_⟩⟩
  · obtain ⟨i, hi, n, _, hc⟩ := (hreach j).1 hj
    exact ⟨i, hi, n, hc⟩
  · rintro ⟨i, hi, n, hc⟩
    have hstart := (hreach i).2 ⟨i, hi, 0, Nat.zero_le _, .nil⟩
    exact h.mem_of_chain hlt (h.closure_fixed hp (Nat.le_add_left _ _)) hc hstart

theorem Follows.comp {k : Move} {next : Nat → Nat → Prop} (h : m.Follows bound link)
    (hk : k.Follows bound next) :
    (⟨fun places => k.run (m.run places)⟩ : Move).Follows bound
      fun i j => ∃ l, link i l ∧ next l j := by
  intro places hp
  obtain ⟨hlt, hlink⟩ := h places hp
  obtain ⟨hlt', hnext⟩ := hk _ hlt
  refine ⟨hlt', fun j => (hnext j).trans ?_⟩
  constructor
  · rintro ⟨l, hl, hn⟩
    obtain ⟨i, hi, hil⟩ := (hlink l).1 hl
    exact ⟨i, hi, l, hil, hn⟩
  · rintro ⟨i, hi, l, hil, hn⟩
    exact ⟨l, (hlink l).2 ⟨i, hi, hil⟩, hn⟩

theorem Follows.congr {next : Nat → Nat → Prop} (h : m.Follows bound link)
    (hiff : ∀ i j, link i j ↔ next i j) : m.Follows bound next := by
  intro places hp
  simp only [← hiff]
  exact h places hp

end Move

theorem Chain.add_iff {link : Nat → Nat → Prop} {m n i k : Nat} :
    Chain link (m + n) i k ↔ ∃ j, Chain link m i j ∧ Chain link n j k := by
  induction m generalizing i with
  | zero =>
    rw [Nat.zero_add]
    constructor
    · intro h
      exact ⟨i, .nil, h⟩
    · rintro ⟨j, ⟨⟩, h⟩
      exact h
  | succ m ih =>
    rw [Nat.add_right_comm]
    constructor
    · rintro (_ | ⟨hl, hc⟩)
      obtain ⟨j, hm, hn⟩ := ih.1 hc
      exact ⟨j, .cons hl hm, hn⟩
    · rintro ⟨j, _ | ⟨hl, hm⟩, hn⟩
      exact .cons hl (ih.2 ⟨j, hm, hn⟩)

theorem follows_set (s : CharSet) (text : List Char) :
    ((set s).move text).Follows (text.length + 1) ((set s).Spans text) := by
  have hbit : ∀ places j, (((set s).move text).run places).testBit j ↔
      ∃ i, places.testBit i ∧ (set s).Spans text i j := by
    intro places j
    rw [move, Nat.testBit_shiftLeft, Nat.testBit_and]
    simp only [Bool.and_eq_true, decide_eq_true_eq, testBit_placesOf, Spans]
    constructor
    · rintro ⟨hj, hp, hs⟩
      exact ⟨j - 1, hp, hs, by omega⟩
    · rintro ⟨i, hp, hs, rfl⟩
      exact ⟨Nat.succ_le_succ (Nat.zero_le i), hp, hs⟩
  intro places _
  refine ⟨lt_two_pow_of_testBit fun j hj => ?_, hbit places⟩
  obtain ⟨i, _, ⟨c, hc, _⟩, rfl⟩ := (hbit places j).1 hj
  obtain ⟨hlt, _⟩ := List.getElem?_eq_some_iff.1 hc
  exact Nat.succ_lt_succ hlt

theorem follows_anchor (a : Anchor) (text : List Char) :
    ((anchor a).move text).Follows (text.length + 1) ((anchor a).Spans text) := by
  intro places hp
  refine ⟨Nat.lt_of_le_of_lt Nat.and_le_left hp, fun j => ?_⟩
  rw [move, Nat.testBit_and, Bool.and_eq_true, testBit_placesAt]
  constructor
  · rintro ⟨hj, hle, ha⟩
    exact ⟨j, hj, hle, ha, rfl⟩
  · rintro ⟨i, hi, hle, ha, rfl⟩
    exact ⟨hi, hle, ha⟩

theorem follows_times {r : Regex} {text : List Char}
    (h : (r.move text).Follows (text.length + 1) (r.Spans text)) (least : Nat)
    (most : Option Nat) :
    ((times r least most).move text).Follows (text.length + 1)
      ((times r least most).Spans text) := by
  cases most with
  | none =>
    refine ((h.power least).comp h.closure_all).congr fun i k => ?_
    simp only [Spans]
    constructor
    · rintro ⟨j, hj, n, hn⟩
      exact ⟨least + n, Nat.le_add_right _ _, by simp, Chain.add_iff.2 ⟨j, hj, hn⟩⟩
    · rintro ⟨n, hle, _, hc⟩
      obtain ⟨m, rfl⟩ := Nat.exists_eq_add_of_le hle
      obtain ⟨j, hj, hm⟩ := Chain.add_iff.1 hc
      exact ⟨j, hj, m, hm⟩
  | some most =>
    refine ((h.power least).comp (h.closure (most - least))).congr fun i k => ?_
    simp only [Spans]
    constructor
    · rintro ⟨j, hj, n, hle, hn⟩
      exact ⟨least + n, Nat.le_add_right _ _, by simp; omega, Chain.add_iff.2 ⟨j, hj, hn⟩⟩
    · rintro ⟨n, hle, hmost, hc⟩
      obtain ⟨m, rfl⟩ := Nat.exists_eq_add_of_le hle
      obtain ⟨j, hj, hm⟩ := Chain.add_iff.1 hc
      have := hmost most rfl
      exact ⟨j, hj, m, by omega, hm⟩

theorem move_follows (r : Regex) (text : List Char) :
    (r.move text).Follows (text.length + 1) (r.Spans text) := by
  induction r with
  | empty =>
    intro places hp
    exact ⟨hp, fun j => ⟨fun hj => ⟨j, hj, rfl⟩, fun ⟨i, hi, he⟩ => he ▸ hi⟩⟩
  | set s => exact follows_set s text
  | anchor a => exact follows_anchor a text
  | seq r s hr hs => exact hr.comp hs
  | alt r s hr hs =>
    intro places hp
    refine ⟨Nat.or_lt_two_pow (hr places hp).1 (hs places hp).1, fun j => ?_⟩
    rw [move, Nat.testBit_or, Bool.or_eq_true, (hr places hp).2 j, (hs places hp).2 j, ← exists_or]
    simp only [Spans, and_or_left]
  | times r least most h => exact follows_times h least most

theorem isMatch_iff (r : Regex) (text : List Char) :
    r.isMatch text ↔ ∃ i j, i ≤ text.length ∧ r.Spans text i j := by
  have hall : 2 ^ (text.length + 1) - 1 < 2 ^ (text.length + 1) := by
    have := Nat.two_pow_pos (text.length + 1)
    omega
  obtain ⟨_, hlink⟩ := move_follows r text _ hall
  simp only [isMatch, bne_iff_ne]
  constructor
  · intro h
    obtain ⟨j, hj⟩ := Nat.exists_testBit_of_ne_zero h
    obtain ⟨i, hi, hs⟩ := (hlink j).1 hj
    exact ⟨i, j, Nat.le_of_lt_succ (lt_of_testBit hall hi), hs⟩
  · rintro ⟨i, j, hi, hs⟩ hz
    have := (hlink j).2 ⟨i, by simpa using Nat.lt_succ_of_le hi, hs⟩
    simp [hz] at this

end DocQuery.Regex
