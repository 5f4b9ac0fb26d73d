import DocQuery.Proofs.Bytes
import DocQuery.Proofs.Outline

/-! Scans beside readers.  A scan in front of a text ends, with the result of the reader of
that text and in front of what the reader leaves over.  On the way it stands between
characters only and moves forward only, and what it does is bounded by how far it moves. -/

namespace DocQuery.Query

def Stands (src : Source) (c : Scanner) (s : List Char) : Prop :=
  ∃ t, src.query.toList = t ++ s ∧ c.position = byteLength t

/-- The record of a scan: it stood between characters only, and moved forward only. -/
structure Scanner.Sound (src : Source) (c : Scanner) : Prop where
  latest : c.visited.head? = some c.position
  boundary : ∀ p ∈ c.visited, (cutAt? p src.query.toList).isSome
  forward : c.visited.Pairwise (· ≥ ·)

structure Leads (src : Source) (levels : Nat) (spare : Int) (c d : Scanner) : Prop where
  sound : c.Sound src → d.Sound src
  forward : c.position ≤ d.position
  rounds : c.rounds ≤ d.rounds
  budget : (c.position : Int) - c.rounds + spare ≤ d.position - d.rounds
  deepest : d.deepest ≤ max c.deepest (c.opened + levels)

theorem Leads.refl (src : Source) (c : Scanner) : Leads src 0 0 c c :=
  ⟨id, Nat.le_refl _, Nat.le_refl _, by omega, by omega⟩

theorem Leads.trans {src : Source} {n : Nat} {k l : Int} {c d e : Scanner}
    (h₁ : Leads src n k c d) (ho : d.opened = c.opened) (h₂ : Leads src n l d e) :
    Leads src n (k + l) c e where
  sound hc := h₂.sound (h₁.sound hc)
  forward := Nat.le_trans h₁.forward h₂.forward
  rounds := Nat.le_trans h₁.rounds h₂.rounds
  budget := by
    have := h₁.budget
    have := h₂.budget
    omega
  deepest := by
    have := h₁.deepest
    have := h₂.deepest
    omega

theorem Leads.mono {src : Source} {m n : Nat} {k l : Int} {c d : Scanner}
    (h : Leads src m k c d) (hn : m ≤ n) (hk : l ≤ k) : Leads src n l c d where
  sound := h.sound
  forward := h.forward
  rounds := h.rounds
  budget := by
    have := h.budget
    omega
  deepest := by
    have := h.deepest
    omega

namespace Scan

/-- A scan ends with the outcome of a reader.  The bounds are for its success and its failure. -/
inductive Does {α : Type} (src : Source) (levels : Nat) (ok failed : Int) (m : Scan α)
    (c : Scanner) : Except Failure (α × List Char) → Prop
  | success {a r} (d : Scanner) : m c = some (.ok a, d) → Stands src d r → d.opened = c.opened →
      Leads src levels ok c d → Does src levels ok failed m c (.ok (a, r))
  | failure {f} (d : Scanner) : m c = some (.error (.refused (f.within src.query.toList)), d) →
      Leads src levels failed c d → Does src levels ok failed m c (.error f)

variable {α β : Type} {src : Source} {c : Scanner} {s : List Char} {n : Nat} {k l i j : Int}

theorem bind_of_ok {m : Scan α} {f : α → Scan β} {a : α} {d : Scanner}
    (h : m c = some (.ok a, d)) : (m >>= f) c = f a d := by
  simp [Bind.bind, ExceptT.bind, ExceptT.mk, StateT.bind, ExceptT.bindCont, h]

theorem bind_of_error {m : Scan α} {f : α → Scan β} {e : Stop} {d : Scanner}
    (h : m c = some (.error e, d)) : (m >>= f) c = some (.error e, d) := by
  simp [Bind.bind, ExceptT.bind, ExceptT.mk, StateT.bind, ExceptT.bindCont, h]
  rfl

theorem Does.congr {m m' : Scan α} {out : Except Failure (α × List Char)}
    (h : Does src n k l m c out) (he : m' c = m c) : Does src n k l m' c out := by
  cases h with
  | success d hm hs ho hlead => exact .success d (he.trans hm) hs ho hlead
  | failure d hm hlead => exact .failure d (he.trans hm) hlead

section

variable {m : Scan α} {f : α → Scan β} {out : Except Failure (β × List Char)} {a : α}
  {r : List Char} {g : Failure} {K L : Int}

theorem Does.bind (h : Does src n k l m c (.ok (a, r))) (hK : K ≤ k + i) (hL : L ≤ k + j)
    (hf : ∀ d, Stands src d r → Does src n i j (f a) d out) :
    Does src n K L (m >>= f) c out := by
  cases h with
  | success d hm hs ho hlead =>
    cases hf d hs with
    | success e he hse hoe hlead' =>
      exact .success e ((bind_of_ok hm).trans he) hse (hoe.trans ho)
        ((hlead.trans ho hlead').mono (Nat.le_refl n) hK)
    | failure e he hlead' =>
      exact .failure e ((bind_of_ok hm).trans he)
        ((hlead.trans ho hlead').mono (Nat.le_refl n) hL)

theorem does_look (hm : m c = some (.ok a, c)) (h : Does src n k l (f a) c out) :
    Does src n k l (m >>= f) c out :=
  h.congr (bind_of_ok hm)

theorem Does.andThen (h : Does src n k l m c (.ok (a, r))) (hK : K ≤ k) (hL : L ≤ k)
    (hf : ∀ d, Stands src d r → Does src n 0 0 (f a) d out) :
    Does src n K L (m >>= f) c out :=
  h.bind (by omega) (by omega) hf

theorem Does.andFail (h : Does src n k l m c (.ok (a, r))) (hL : L ≤ k)
    (hf : ∀ d, Stands src d r → Does src n 0 0 (f a) d (.error g)) :
    Does src n K L (m >>= f) c (.error g) := by
  cases h.andThen (Int.le_refl k) hL hf with
  | failure d hm hlead => exact .failure d hm hlead

theorem Does.bind_error (h : Does src n k l m c (.error g)) (hL : L ≤ l) :
    Does src n K L (m >>= f) c (.error g) := by
  cases h with
  | failure d hm hlead => exact .failure d (bind_of_error hm) (hlead.mono (Nat.le_refl n) hL)

theorem Does.map {out : Except Failure (α × List Char)} (h : Does src n k l m c out) (g : α → β) :
    Does src n k l (m >>= fun a => pure (g a)) c (out.map fun (a, r) => (g a, r)) := by
  cases h with
  | success d hm hs ho hlead => exact .success d (bind_of_ok hm) hs ho hlead
  | failure d hm hlead => exact .failure d (bind_of_error hm) hlead

end

theorem does_pure (h : Stands src c s) (a : α) :
    Does src n 0 0 (pure a : Scan α) c (.ok (a, s)) :=
  .success c rfl h rfl ((Leads.refl src c).mono (Nat.zero_le n) (Int.le_refl 0))

theorem get_eq (c : Scanner) : (get : Scan Scanner) c = some (.ok c, c) := rfl

theorem cut_eq (t r : List Char) (c : Scanner) :
    cut (byteLength t) (t ++ r) c = some (.ok (t, r), c) := by
  rw [cut, cutAt?_byteLength]
  rfl

theorem does_moveTo {t r : List Char} (h : Stands src c (t ++ r)) :
    Does src n (byteLength t) 0 (moveTo (c.position + byteLength t)) c (.ok ((), r)) := by
  obtain ⟨u, hu, hc⟩ := h
  have hcut : cutAt? (c.position + byteLength t) src.query.toList = some (u ++ t, r) := by
    rw [hc, ← byteLength_append, hu, ← List.append_assoc, cutAt?_byteLength]
  let d := { c with
    position := c.position + byteLength t
    visited := (c.position + byteLength t) :: c.visited }
  have hstands : Stands src d r :=
    ⟨u ++ t, by rw [hu, List.append_assoc], by rw [byteLength_append, ← hc]⟩
  refine .success d rfl hstands rfl ?_
  refine ⟨fun hsound => ⟨rfl, ?_, ?_⟩, Nat.le_add_right _ _, Nat.le_refl _, ?_, ?_⟩
  · rintro p (_ | ⟨_, hp⟩)
    · rw [hcut]
      rfl
    · exact hsound.boundary p hp
  · obtain ⟨rest, hrest⟩ := List.head?_eq_some_iff.1 hsound.latest
    refine .cons (fun p hp => ?_) hsound.forward
    have hforward := hsound.forward
    rw [hrest] at hp hforward
    have hle : p ≤ c.position := by
      rcases List.mem_cons.1 hp with rfl | hp
      · exact Nat.le_refl _
      · exact List.rel_of_pairwise_cons hforward hp
    exact Nat.le_add_right_of_le hle
  · show (_ : Int) ≤ ((c.position + byteLength t : Nat) : Int) - c.rounds
    omega
  · exact Nat.le_max_left _ _

theorem does_nextRound (h : Stands src c s) :
    Does src n (-1) 0 nextRound c (.ok ((), s)) := by
  refine .success { c with rounds := c.rounds + 1 } rfl h rfl ?_
  refine ⟨fun hsound => ⟨hsound.latest, hsound.boundary, hsound.forward⟩, Nat.le_refl _,
    Nat.le_succ _, ?_, Nat.le_max_left _ _⟩
  show (_ : Int) ≤ (c.position : Int) - ((c.rounds + 1 : Nat) : Int)
  omega

theorem does_inGroup {m : Scan α} {out : Except Failure (α × List Char)} (h : Stands src c s)
    (hm : ∀ d, Stands src d s → Does src n k l m d out) :
    Does src (n + 1) k l (do openGroup; let a ← m; closeGroup; return a) c out := by
  let d := { c with opened := c.opened + 1, deepest := max c.deepest (c.opened + 1) }
  have hopen : openGroup c = some (.ok (), d) := rfl
  have hlead : ∀ {e : Scanner} {i : Int}, Leads src n i d e → Leads src (n + 1) i c e := by
    intro e i h
    have hdeepest : e.deepest ≤ max (max c.deepest (c.opened + 1)) (c.opened + 1 + n) := h.deepest
    exact ⟨fun hc => h.sound ⟨hc.latest, hc.boundary, hc.forward⟩, h.forward, h.rounds, h.budget,
      by omega⟩
  cases hm d h with
  | @success a r e he hs ho hl =>
    have hclose : closeGroup e = some (.ok (), { e with opened := e.opened - 1 }) := rfl
    refine .success { e with opened := e.opened - 1 } ?_ hs ?_ ?_
    · rw [bind_of_ok hopen, bind_of_ok he, bind_of_ok hclose]
      rfl
    · show e.opened - 1 = c.opened
      rw [ho]
      rfl
    · have h := hlead hl
      exact ⟨fun hc => ⟨(h.sound hc).latest, (h.sound hc).boundary, (h.sound hc).forward⟩,
        h.forward, h.rounds, h.budget, h.deepest⟩
  | failure e he hl => exact .failure e ((bind_of_ok hopen).trans (bind_of_error he)) (hlead hl)

end Scan

namespace Source

open Scan

variable {α β : Type} {src : Source} {c : Scanner} {s : List Char} {n : Nat} {k l : Int}

theorem does_refuse (fault : Fault) (place : List Char) :
    Does src n k 0 (src.refuse fault place : Scan α) c (.error ⟨fault, place⟩) := by
  refine .failure c ?_ ((Leads.refl src c).mono (Nat.zero_le n) (Int.le_refl 0))
  simp only [Failure.within, String.ofList_toList]
  rfl

theorem remainder_eq (h : Stands src c s) : src.remainder c = some (.ok s, c) := by
  obtain ⟨t, ht, hc⟩ := h
  rw [remainder, bind_of_ok (get_eq c), ht, hc, bind_of_ok (cut_eq t s c)]
  rfl

theorem current_eq (h : Stands src c s) : src.current c = some (.ok (bytes s).head?, c) := by
  obtain ⟨t, ht, hc⟩ := h
  rw [current, bind_of_ok (get_eq c), ht, hc, bytes_append, ← length_bytes,
    List.getElem?_append_right (Nat.le_refl _), Nat.sub_self, List.head?_eq_getElem?]
  rfl

theorem isAtEnd_eq (h : Stands src c s) : src.isAtEnd c = some (.ok s.isEmpty, c) := by
  obtain ⟨t, ht, hc⟩ := h
  have hend : decide (src.query.utf8ByteSize ≤ c.position) = s.isEmpty := by
    rw [← byteLength_toList, ht, hc, byteLength_append]
    cases s with
    | nil => simp [byteLength]
    | cons x s =>
      have := x.utf8Size_pos
      rw [List.isEmpty_cons, decide_eq_false_iff_not, byteLength]
      omega
  rw [isAtEnd, bind_of_ok (get_eq c), hend]
  rfl

theorem isAt_eq {key : List Char} (hkey : key ∈ keywords) (h : Stands src c s) :
    src.isAt key c = some (.ok (atKeyword key s), c) := by
  rw [isAt, bind_of_ok (remainder_eq h), ← keyword_bytes (isAscii_of_mem_keywords key hkey)]
  rfl

theorem does_advance {t r : List Char} (h : Stands src c (t ++ r)) :
    Does src n (byteLength t) 0 (src.advance (byteLength t)) c (.ok ((), r)) := by
  have hle : c.position + byteLength t ≤ src.query.utf8ByteSize := by
    obtain ⟨u, hu, hc⟩ := h
    rw [← byteLength_toList, hu, byteLength_append, byteLength_append]
    omega
  refine (does_moveTo h).congr ?_
  rw [advance, bind_of_ok (get_eq c), Nat.min_eq_left hle]

theorem does_advance_one {x : Char} (hx : IsAscii x) {r : List Char}
    (h : Stands src c (x :: r)) : Does src n 1 0 (src.advance 1) c (.ok ((), r)) := by
  have hone : byteLength [x] = 1 := utf8Size_of_isAscii hx
  have hadvance := does_advance (n := n) (t := [x]) h
  rwa [hone] at hadvance

theorem does_skipBlanks (h : Stands src c s) :
    Does src n 0 0 src.skipBlanks c (.ok ((), Query.skipBlanks s)) := by
  induction s generalizing c with
  | nil =>
    rw [skipBlanks]
    exact does_look (current_eq h) (does_pure h ())
  | cons x s ih =>
    have hx := head?_bytes_eq (k := ' ') (by decide) (s := x :: s)
    rw [skipBlanks]
    refine does_look (current_eq h) ?_
    by_cases hblank : x = ' '
    · subst hblank
      rw [if_pos (hx.2 rfl)]
      refine does_look (get_eq c) ?_
      exact (does_moveTo (t := [' ']) h).andThen (by decide) (by decide) fun d hd => ih hd
    · rw [if_neg fun hb => hblank (Option.some.inj (hx.1 hb))]
      rw [Query.skipBlanks, List.dropWhile_cons_of_neg (by simpa using hblank)]
      exact does_pure h ()

theorem does_eat {key : List Char} (hkey : key ∈ keywords) {f g : Scan β}
    {out : Except Failure (β × List Char)} (h : Stands src c s)
    (hyes : ∀ r d, afterKeyword? key s = some r → Stands src d r → Does src n k l f d out)
    (hno : afterKeyword? key s = none → Does src n k l g c out) :
    Does src n k l (do if ← src.eat key then f else g) c out := by
  cases hs : afterKeyword? key s with
  | some r =>
    have hat : atKeyword key s = true := by rw [atKeyword, hs]; rfl
    obtain ⟨w, rfl, hw⟩ := byteLength_of_afterKeyword? hkey hs
    have heat : Does src n 0 0 (src.eat key) c (.ok (true, r)) := by
      rw [eat]
      refine does_look (isAt_eq hkey h) ?_
      rw [if_pos hat, ← hw]
      exact (does_advance h).andThen (by omega) (by omega) fun d hd => does_pure hd true
    exact heat.bind (by omega) (by omega) fun d hd => hyes r d hs hd
  | none =>
    have hat : atKeyword key s = false := by rw [atKeyword, hs]; rfl
    have heat : src.eat key c = some (.ok false, c) := by
      rw [eat, bind_of_ok (isAt_eq hkey h), hat]
      rfl
    exact does_look heat (hno hs)

theorem does_word {w r : List Char} (h : Stands src c s) (hs : wordBeforeSpace? s = some (w, r)) :
    Does src n 1 0 src.word c (.ok (some w, r)) := by
  obtain ⟨rfl, hne, -, -⟩ := wordBeforeSpace?_inv hs
  have hpos := byteLength_pos hne
  have hoffset : offsetOf? ' ' (w ++ r) = some (byteLength w) := by
    simp only [wordBeforeSpace?] at hs
    split at hs
    · contradiction
    · next hsplit =>
      rw [offsetOf?_eq, Option.some.inj hs]
      simp_all
  rw [word]
  refine does_look (remainder_eq h) ?_
  simp only [hoffset, if_pos hpos]
  exact (does_advance h).andThen (by omega) (by omega) fun d hd =>
    does_look (cut_eq w r d) (does_pure hd (some w))

theorem does_no_word (h : Stands src c s) (hs : wordBeforeSpace? s = none) :
    Does src n 0 0 src.word c (.ok (none, s)) := by
  rw [word]
  refine does_look (remainder_eq h) ?_
  rw [offsetOf?_eq]
  by_cases hrest : (Query.takeUntil [' '] s).2.isEmpty
  · simp only [hrest, if_true]
    exact does_pure h none
  · have hword : (Query.takeUntil [' '] s).1 = [] := by simp_all [wordBeforeSpace?]
    simp only [hrest, hword, byteLength]
    exact does_pure h none

theorem does_takeUntil {stops t r : List Char} (hstops : ∀ x ∈ stops, IsAscii x)
    (h : Stands src c s) (hs : Query.takeUntil stops s = (t, r)) :
    Does src n (byteLength t) 0 (src.takeUntil stops) c (.ok (t, r)) := by
  have happ := takeUntil_append stops s
  have hlen := findIdx?_bytes hstops s
  simp only [hs] at happ hlen
  subst happ
  rw [takeUntil]
  refine does_look (remainder_eq h) ?_
  simp only [hlen]
  exact (does_advance h).andThen (by omega) (by omega) fun d hd =>
    does_look (cut_eq t r d) (does_pure hd t)

end Source

end DocQuery.Query
