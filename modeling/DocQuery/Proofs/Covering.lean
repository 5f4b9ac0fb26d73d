import DocQuery.Proofs.Selection

namespace DocQuery.Filter

open Regex (Element Engine LawfulEngine Matches)

/-- What a character of a pattern stands for.  Only an outer percent sign stands for
line feeds, too. -/
def Takes (outer : Prop) (c : Char) (piece : List Char) : Prop :=
  if c = '%' then outer ∨ '\n' ∉ piece
  else if c = '?' then ∃ d, d ≠ '\n' ∧ piece = [d]
  else piece = [c]

/-- Pieces of a text, one for each character of a pattern, counted from `i` on. -/
inductive Cut (outer : Nat → Prop) : Nat → List Char → List Char → Prop
  | nil {i} : Cut outer i [] []
  | cons {i c pattern piece text} : Takes (outer i) c piece →
      Cut outer (i + 1) pattern text → Cut outer i (c :: pattern) (piece ++ text)

/-- The first and the last character of a pattern are its outer ones. -/
def Covers (pattern text : List Char) : Prop :=
  Cut (fun i => i = 0 ∨ i + 1 = pattern.length) 0 pattern text

def Fits (pattern text : List Char) : Prop := Cut (fun _ => False) 0 pattern text

theorem Cut.append_iff {outer : Nat → Prop} {i : Nat} {p q text : List Char} :
    Cut outer i (p ++ q) text ↔
      ∃ u v, text = u ++ v ∧ Cut outer i p u ∧ Cut outer (i + p.length) q v := by
  induction p generalizing i text with
  | nil =>
    constructor
    · intro h
      exact ⟨[], text, rfl, .nil, h⟩
    · rintro ⟨u, v, rfl, ⟨⟩, h⟩
      exact h
  | cons c p ih =>
    constructor
    · rintro (_ | ⟨ht, hc⟩)
      obtain ⟨u, v, rfl, hp, hq⟩ := ih.1 hc
      refine ⟨_ ++ u, v, (List.append_assoc ..).symm, .cons ht hp, ?_⟩
      rwa [List.length_cons, Nat.add_comm p.length, ← Nat.add_assoc]
    · rintro ⟨_, v, rfl, _ | ⟨ht, hp⟩, hq⟩
      rw [List.append_assoc]
      refine .cons ht (ih.2 ⟨_, v, rfl, hp, ?_⟩)
      rwa [List.length_cons, Nat.add_comm p.length, ← Nat.add_assoc] at hq

theorem Takes.congr {outer inner : Prop} {c : Char} (h : c = '%' → (outer ↔ inner))
    (piece : List Char) : Takes outer c piece ↔ Takes inner c piece := by
  unfold Takes
  split
  · next hc => rw [h hc]
  · rfl

theorem Cut.congr {outer inner : Nat → Prop} {i j : Nat} {p : List Char}
    (h : ∀ k, p[k]? = some '%' → (outer (i + k) ↔ inner (j + k))) (text : List Char) :
    Cut outer i p text ↔ Cut inner j p text := by
  -- where outer places do not meet percent signs, they make no difference
  induction p generalizing i j text with
  | nil =>
    constructor
    · rintro ⟨⟩
      exact .nil
    · rintro ⟨⟩
      exact .nil
  | cons c p ih =>
    have hc : c = '%' → (outer i ↔ inner j) := by
      rintro rfl
      exact h 0 rfl
    have hp := ih (i := i + 1) (j := j + 1) fun k hk => by
      simpa only [Nat.add_assoc, Nat.add_comm 1] using h (k + 1) hk
    constructor
    · rintro (_ | ⟨ht, htail⟩)
      exact .cons ((Takes.congr hc _).1 ht) ((hp _).1 htail)
    · rintro (_ | ⟨ht, htail⟩)
      exact .cons ((Takes.congr hc _).2 ht) ((hp _).2 htail)

theorem fits_cons {c : Char} {p text : List Char} :
    Fits (c :: p) text ↔ ∃ piece v, text = piece ++ v ∧ Takes False c piece ∧ Fits p v := by
  have hshift : ∀ v, Cut (fun _ => False) 1 p v ↔ Fits p v := Cut.congr fun _ _ => Iff.rfl
  constructor
  · rintro (_ | ⟨ht, hp⟩)
    exact ⟨_, _, rfl, ht, (hshift _).1 hp⟩
  · rintro ⟨piece, v, rfl, ht, hp⟩
    exact .cons ht ((hshift _).2 hp)

def lead (pattern : List Char) : List Char := if pattern.head? = some '%' then ['%'] else []

def trail (pattern : List Char) : List Char := if pattern.getLast? = some '%' then ['%'] else []

theorem lead_append (pattern : List Char) : lead pattern ++ (openWildcard pattern).2 = pattern := by
  unfold lead openWildcard
  cases pattern with
  | nil => rfl
  | cons c pattern => split <;> simp_all

theorem append_trail (s : List Char) : (closeWildcard s).1 ++ trail s = s := by
  unfold trail closeWildcard
  split
  · next h =>
    obtain ⟨body, rfl⟩ := List.getLast?_eq_some_iff.1 h
    simp
  · simp

theorem lead_cases (pattern : List Char) : lead pattern = [] ∨ lead pattern = ['%'] := by
  unfold lead
  split <;> simp

theorem trail_cases (s : List Char) : trail s = [] ∨ trail s = ['%'] := by
  unfold trail
  split <;> simp

theorem cut_outer {outer : Nat → Prop} {i : Nat} {p : List Char} (hp : p = [] ∨ p = ['%'])
    (ho : p = ['%'] → outer i) (text : List Char) :
    Cut outer i p text ↔ (p = [] → text = []) := by
  rcases hp with rfl | rfl
  · constructor
    · rintro ⟨⟩ _
      rfl
    · intro h
      rw [h rfl]
      exact .nil
  · constructor
    · intro _ h
      contradiction
    · intro _
      rw [← List.append_nil text]
      exact .cons (.inl (ho rfl)) .nil

theorem covers_iff (pattern text : List Char) :
    Covers pattern text ↔ ∃ a v, text = a ++ v ∧ (lead pattern = [] → a = []) ∧
      ∃ mid b, v = mid ++ b ∧ Fits (closeWildcard (openWildcard pattern).2).1 mid ∧
        (trail (openWildcard pattern).2 = [] → b = []) := by
  have htrail := append_trail (openWildcard pattern).2
  have hlead := lead_append pattern
  generalize (openWildcard pattern).2 = s at htrail hlead ⊢
  generalize (closeWildcard s).1 = body at htrail ⊢
  unfold Covers
  generalize ho : (fun i => i = 0 ∨ i + 1 = pattern.length) = outer
  have hiff : ∀ i, outer i ↔ i = 0 ∨ i + 1 = (lead pattern ++ (body ++ trail s)).length := by
    intro i
    rw [htrail, hlead, ← ho]
  simp only [List.length_append] at hiff
  have hfirst : lead pattern = ['%'] → outer 0 := fun _ => (hiff 0).2 (.inl rfl)
  have hlast : trail s = ['%'] → outer (0 + (lead pattern).length + body.length) := by
    intro ht
    rw [hiff, ht, List.length_singleton]
    omega
  have hbody : ∀ mid, Cut outer (0 + (lead pattern).length) body mid ↔ Fits body mid := by
    -- a percent sign inside is neither first nor last, or it would have been set apart
    refine Cut.congr fun k hk => iff_false_intro ?_
    obtain ⟨hlt, hget⟩ := List.getElem?_eq_some_iff.1 hk
    rw [hiff]
    rintro (h | h)
    · have hnil : lead pattern = [] := List.length_eq_zero_iff.1 (by omega)
      rw [show k = 0 by omega, ← List.head?_eq_getElem?] at hk
      have hhead : pattern.head? = some '%' := by
        rw [← hlead, hnil, ← htrail, List.nil_append, List.head?_append, hk]
        rfl
      simp [lead, hhead] at hnil
    · have hnil : trail s = [] := List.length_eq_zero_iff.1 (by omega)
      rw [show k = body.length - 1 by omega, ← List.getLast?_eq_getElem?] at hk
      have hend : s.getLast? = some '%' := by
        rw [← htrail, hnil, List.append_nil, hk]
      simp [trail, hend] at hnil
  calc
    Cut outer 0 pattern text ↔ Cut outer 0 (lead pattern ++ (body ++ trail s)) text := by
      rw [htrail, hlead]
    _ ↔ _ := by
      simp only [Cut.append_iff, hbody, cut_outer (lead_cases pattern) hfirst,
        cut_outer (trail_cases s) hlast]

theorem takes_wildcardElement {before piece after : List Char} {c : Char} :
    (wildcardElement c).Takes before piece after ↔ Takes False c piece := by
  unfold wildcardElement Takes
  split
  · simp [Element.Takes]
  · split <;> rfl

theorem matches_body {before after body : List Char} {es : List Element} :
    Matches before (body.map wildcardElement ++ es) after ↔
      ∃ mid rest, after = mid ++ rest ∧ Fits body mid ∧ Matches (before ++ mid) es rest := by
  induction body generalizing before after with
  | nil =>
    constructor
    · intro h
      exact ⟨[], after, rfl, .nil, by rwa [List.append_nil]⟩
    · rintro ⟨_, rest, rfl, ⟨⟩, h⟩
      rwa [List.append_nil] at h
  | cons c body ih =>
    simp only [List.map_cons, List.cons_append, Regex.matches_cons, takes_wildcardElement, ih,
      fits_cons]
    constructor
    · rintro ⟨piece, _, rfl, htakes, mid, rest, rfl, hfits, h⟩
      refine ⟨piece ++ mid, rest, (List.append_assoc ..).symm, ⟨piece, mid, rfl, htakes, hfits⟩, ?_⟩
      rwa [← List.append_assoc]
    · rintro ⟨_, rest, rfl, ⟨piece, mid, rfl, htakes, hfits⟩, h⟩
      refine ⟨piece, mid ++ rest, List.append_assoc .., htakes, mid, rest, rfl, hfits, ?_⟩
      rwa [List.append_assoc]

theorem matches_opening {pattern text : List Char} {es : List Element} :
    (∃ before after, text = before ++ after ∧ Matches before (openingElement pattern :: es) after) ↔
      ∃ a v, text = a ++ v ∧ (lead pattern = [] → a = []) ∧ Matches a es v := by
  unfold openingElement lead
  simp only [Regex.matches_cons]
  split
  · constructor
    · rintro ⟨before, _, rfl, piece, rest, rfl, _, h⟩
      exact ⟨before ++ piece, rest, (List.append_assoc ..).symm, by simp, h⟩
    · rintro ⟨a, v, rfl, _, h⟩
      exact ⟨a, v, rfl, [], v, rfl, List.not_mem_nil, by rwa [List.append_nil]⟩
  · constructor
    · rintro ⟨_, _, rfl, _, rest, rfl, ⟨rfl, rfl⟩, h⟩
      exact ⟨[], rest, rfl, fun _ => rfl, h⟩
    · rintro ⟨a, v, rfl, ha, h⟩
      cases ha rfl
      exact ⟨[], v, rfl, [], v, rfl, ⟨rfl, rfl⟩, h⟩

theorem matches_closing {s before after : List Char} :
    Matches before [closingElement s] after ↔ (trail s = [] → after = []) := by
  unfold closingElement trail
  rw [Regex.matches_cons]
  split
  · constructor
    · intro _ h
      contradiction
    · intro _
      exact ⟨[], after, rfl, List.not_mem_nil, .nil⟩
  · constructor
    · rintro ⟨_, _, rfl, ⟨rfl, rfl⟩, _⟩ _
      rfl
    · intro h
      cases h rfl
      exact ⟨[], [], rfl, ⟨rfl, rfl⟩, .nil⟩

theorem matches_wildcardElements (pattern text : List Char) :
    (∃ before after, text = before ++ after ∧ Matches before (wildcardElements pattern) after) ↔
      Covers pattern text := by
  simp only [wildcardElements, matches_opening, matches_body, matches_closing, covers_iff]

/-- A pattern that is not too long is accepted, and a text has a match if and only if
the pattern covers it. -/
theorem readPattern_covers [Engine] [LawfulEngine] {pattern : String}
    (h : (regexOfWildcard pattern).utf8ByteSize ≤ patternLimit) :
    ∃ r, readPattern (regexOfWildcard pattern) = .ok r ∧
      ∀ s : String, Engine.isMatch r s ↔ Covers pattern.toList s.toList := by
  obtain ⟨r, hr⟩ := compile_regexOfWildcard h
  refine ⟨r, readPattern_of_compile h hr, fun s => ?_⟩
  rw [regexOfWildcard_eq] at hr
  rw [LawfulEngine.isMatch_iff hr, matches_wildcardElements]

theorem readPattern_covers_lines :
    (regexOfWildcard "%a.?%b").utf8ByteSize ≤ patternLimit ∧
      ∃ r : Regex, readPattern (regexOfWildcard "%a.?%b") = .ok r ∧
        (∀ s : String, r.isMatch s.toList ↔ Covers "%a.?%b".toList s.toList) ∧
        r.isMatch "x\na.éb".toList ∧ ¬ r.isMatch "a.x\nb".toList := by
  have hlimit : (regexOfWildcard "%a.?%b").utf8ByteSize ≤ patternLimit := by decide +kernel
  obtain ⟨r, hr, hcovers⟩ := readPattern_covers hlimit
  refine ⟨hlimit, r, hr, hcovers, ?_⟩
  have hcompile := Regex.compile_textOf (wildcardElements "%a.?%b".toList)
  rw [← regexOfWildcard_eq] at hcompile
  have hread := readPattern_of_compile hlimit hcompile
  obtain rfl : r = _ := Except.ok.inj (hr.symm.trans hread)
  constructor <;> decide +kernel

end DocQuery.Filter
