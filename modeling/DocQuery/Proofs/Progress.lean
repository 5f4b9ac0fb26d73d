import DocQuery.Proofs.Simulation

namespace DocQuery.Query.Source

open Scan

variable {src : Source} {n : Nat}

theorem sound_start (src : Source) : Scanner.start.Sound src where
  latest := rfl
  boundary p hp := by
    rw [List.mem_singleton.1 hp]
    exact cutAt?_isSome_iff.2 ⟨[], src.query.toList, rfl, rfl⟩
  forward := List.pairwise_singleton _ _

theorem le_of_isValid {p : Nat} (h : (⟨p⟩ : String.Pos.Raw).IsValid src.query) :
    p ≤ src.query.utf8ByteSize := by
  obtain ⟨t, r, hs, rfl⟩ := cutAt?_isSome_iff.1 (isValid_iff_cutAt?.1 h)
  rw [← byteLength_toList, hs, byteLength_append]
  exact Nat.le_add_right _ _

/-- While a query is parsed, with any outcome, the scanner stands between two characters of
it at every moment; so no text is cut inside a character. -/
theorem parse_visits_boundaries (src : Source) :
    ∃ d, src.parse.run.run .start =
        some ((Query.parse src.query src.params).mapError .refused, d) ∧
      ∀ p ∈ d.visited, p ≤ src.query.utf8ByteSize ∧ (⟨p⟩ : String.Pos.Raw).IsValid src.query := by
  obtain ⟨d, hrun, hlead⟩ := parse_run src
  refine ⟨d, hrun, fun p hp => ?_⟩
  have hvalid := isValid_iff_cutAt?.2 ((hlead.sound (sound_start src)).boundary p hp)
  exact ⟨le_of_isValid hvalid, hvalid⟩

/-- From every place between two characters this scan ends without going back, and if it
succeeds it has gone forward. -/
def Progresses {α : Type} (src : Source) (m : Scan α) : Prop :=
  ∀ c : Scanner, (⟨c.position⟩ : String.Pos.Raw).IsValid src.query →
    ∃ x d, m.run.run c = some (x, d) ∧ c.position ≤ d.position ∧
      (x.isOk → c.position < d.position)

theorem progresses_of_does {α : Type} {m : Scan α}
    (read : List Char → Except Failure (α × List Char))
    (h : ∀ c s, Stands src c s → Does src n 1 0 m c (read s)) : Progresses src m := by
  intro c hc
  obtain ⟨t, s, hs, hpos⟩ := cutAt?_isSome_iff.1 (isValid_iff_cutAt?.1 hc)
  have hdoes := h c s ⟨t, hs, hpos⟩
  cases hr : read s with
  | ok p =>
    rw [hr] at hdoes
    cases hdoes with
    | success d hd _ _ hlead =>
      have := hlead.budget
      have := hlead.rounds
      exact ⟨_, d, hd, hlead.forward, fun _ => by omega⟩
  | error f =>
    rw [hr] at hdoes
    cases hdoes with
    | failure d hd hlead => exact ⟨_, d, hd, hlead.forward, nofun⟩

/-- Parsing ends.  It never goes back, all loops together go round at most once for each
byte, and groups are nested at most one deeper than brackets may be. -/
theorem parse_within_bounds (src : Source) :
    ∃ d, src.parse.run.run .start =
        some ((Query.parse src.query src.params).mapError .refused, d) ∧
      d.visited.Pairwise (· ≥ ·) ∧ d.rounds ≤ src.query.utf8ByteSize ∧ d.deepest ≤ nestingLimit + 1 ∧
      (∀ depth, Progresses src (src.term depth)) ∧ Progresses src src.operator ∧
      Progresses src src.value := by
  obtain ⟨d, hrun, hlead⟩ := parse_run src
  have hsound := hlead.sound (sound_start src)
  have hend : d.position ≤ src.query.utf8ByteSize :=
    le_of_isValid (isValid_iff_cutAt?.2 (hsound.boundary _ (List.mem_of_head? hsound.latest)))
  have hbudget : ((0 : Nat) : Int) - (0 : Nat) + 0 ≤ d.position - d.rounds := hlead.budget
  have hdeepest : d.deepest ≤ max 0 (0 + (nestingLimit + 1)) := hlead.deepest
  refine ⟨d, hrun, hsound.forward, by omega, by omega, fun depth => ?_, ?_, ?_⟩
  · exact progresses_of_does _ fun c s h => does_term _ depth rfl h
  · exact progresses_of_does (n := 0) _ fun c s h => does_operator h
  · exact progresses_of_does (n := 0) _ fun c s h => does_value h

end DocQuery.Query.Source
