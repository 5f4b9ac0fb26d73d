import DocQuery.Proofs.Derivation
import DocQuery.Proofs.Selection

namespace DocQuery.Query

inductive Expr.PartOf : Expr → Expr → Prop
  | self {e} : Expr.PartOf e e
  | member {p e logic members} : e ∈ members → Expr.PartOf p e →
      Expr.PartOf p (.group logic members)

theorem Expr.All.condition_of_partOf {P : Condition → Prop} {e : Expr} (h : e.All P)
    {c : Condition} (hc : (Expr.condition c).PartOf e) : P c := by
  induction h with
  | condition h => cases hc with | self => exact h
  | group _ ih => cases hc with | member he hc => exact ih _ he hc

theorem Expr.PartOf.trans {p q e : Expr} (hp : p.PartOf q) (hq : q.PartOf e) : p.PartOf e := by
  induction hq with
  | self => exact hp
  | member he _ ih => exact .member he ih

mutual

theorem Expr.all_of_parts {P : Condition → Prop} : ∀ {e : Expr},
    (∀ c, (Expr.condition c).PartOf e → P c) → e.All P
  | .condition c, h => .condition (h c .self)
  | .group _ _, h => .group (Expr.forall_all_of_parts fun _ he c hc => h c (.member he hc))

theorem Expr.forall_all_of_parts {P : Condition → Prop} : ∀ {es : List Expr},
    (∀ e ∈ es, ∀ c, (Expr.condition c).PartOf e → P c) → ∀ e ∈ es, e.All P
  | [], _ => nofun
  | _ :: _, h => List.forall_mem_cons.2 ⟨Expr.all_of_parts (h _ List.mem_cons_self),
      Expr.forall_all_of_parts fun e he => h e (List.mem_cons_of_mem _ he)⟩

end

mutual

theorem TermRead.all {params : List Json} {P : Condition → Prop}
    (hP : ∀ s c r, condition params s = .ok (c, r) → P c) : ∀ {n : Nat} {s r : List Char}
    {e : Expr}, TermRead params n s e r → e.All P
  | _, _, _, _, .condition _ hc => .condition (hP _ _ _ hc)
  | _, _, _, _, .bracket _ hg _ => hg.all hP
termination_by structural _ _ _ _ h => h

theorem GroupRead.all {params : List Json} {P : Condition → Prop}
    (hP : ∀ s c r, condition params s = .ok (c, r) → P c) : ∀ {n : Nat} {nested : Bool}
    {s r : List Char} {e : Expr}, GroupRead params n nested s e r → e.All P
  | _, _, _, _, _, .term ht _ => ht.all hP
  | _, _, _, _, _, .members ht hm _ =>
    .group (List.forall_mem_cons.2 ⟨ht.all hP, hm.forall_all hP⟩)
termination_by structural _ _ _ _ _ h => h

theorem MembersRead.forall_all {params : List Json} {P : Condition → Prop}
    (hP : ∀ s c r, condition params s = .ok (c, r) → P c) : ∀ {n : Nat} {nested : Bool}
    {logic : Logic} {s r : List Char} {es : List Expr},
    MembersRead params n nested logic s es r → ∀ e ∈ es, e.All P
  | _, _, _, _, _, _, .nil _ => nofun
  | _, _, _, _, _, _, .cons _ ht hm => List.forall_mem_cons.2 ⟨ht.all hP, hm.forall_all hP⟩
termination_by structural _ _ _ _ _ _ h => h

end

theorem parse_all {params : List Json} {P : Condition → Prop}
    (hP : ∀ s c r, condition params s = .ok (c, r) → P c) {query : String} {e : Expr}
    (h : parse query params = .ok e) : e.All P := by
  obtain ⟨r, hr⟩ := parse_iff.1 h
  exact hr.all hP

theorem Reading.result_map_eq_ok {α β : Type} {f : α → β} {x : Reading α} {b : β}
    (h : (x.map f).result = .ok b) : ∃ a, x.result = .ok a ∧ f a = b := by
  obtain ⟨_ | a, rest⟩ := x
  · contradiction
  · exact ⟨a, rfl, Except.ok.inj h⟩

theorem numeral_wellFormed {stops s : List Char} {v : Json}
    (h : (numeral stops s).result = .ok v) : v.WellFormed := by
  unfold numeral at h
  dsimp only at h
  split at h
  · cases h
    simp [Json.WellFormed]
  · contradiction

theorem listItems_wellFormed {place s : List Char} {vs : List Json}
    (h : (listItems place s).result = .ok vs) : Json.WellFormedItems vs := by
  fun_induction listItems place s generalizing vs with
  | case1 => contradiction
  | case2 =>
    cases h
    simp [Json.WellFormedItems]
  | case3 _ _ _ _ ih => exact ih h
  | case4 _ _ _ _ _ _ ih =>
    obtain ⟨ws, hws, rfl⟩ := Reading.result_map_eq_ok h
    exact ⟨by simp [Json.WellFormed], ih hws⟩
  | case5 => contradiction
  | case6 _ _ _ _ _ _ _ hitem =>
    rename_i ih
    obtain ⟨ws, hws, rfl⟩ := Reading.result_map_eq_ok h
    exact ⟨numeral_wellFormed hitem, ih hws⟩
  | case7 => contradiction

theorem mem_of_parameter {params : List Json} {s : List Char} {v : Json}
    (h : (parameter params s).result = .ok v) : v ∈ params := by
  unfold parameter at h
  dsimp only at h
  split at h
  · contradiction
  · contradiction
  · split at h
    · next hget =>
      cases h
      exact List.mem_of_getElem? hget
    · contradiction

theorem value_wellFormed {params : List Json} (hparams : ∀ v ∈ params, v.WellFormed)
    {s : List Char} {v : Json} (h : (value params s).result = .ok v) : v.WellFormed := by
  unfold value at h
  split at h
  · exact hparams v (mem_of_parameter h)
  · obtain ⟨vs, hvs, rfl⟩ := Reading.result_map_eq_ok h
    rw [Json.WellFormed]
    exact listItems_wellFormed hvs
  · obtain ⟨t, _, rfl⟩ := Reading.result_map_eq_ok h
    simp [Json.WellFormed]
  · exact numeral_wellFormed h

theorem condition_bind? {params : List Json} {s r : List Char} {c : Condition}
    (h : condition params s = .ok (c, r)) :
    ∃ o v, Operator.bind? o v = some c.predicate ∧
      (v = .null ∨ ∃ t, (value params t).result = .ok v) := by
  unfold condition at h
  split at h
  · contradiction
  · split at h
    · contradiction
    · next o u _ =>
      split at h
      · dsimp only at h
        split at h
        · contradiction
        · next v _ hv =>
          split at h
          · next p hp =>
            cases h
            exact ⟨o, v, hp, .inr ⟨skipBlanks u, by rw [hv]⟩⟩
          · contradiction
      · split at h
        · next p hp =>
          cases h
          exact ⟨o, .null, hp, .inl rfl⟩
        · contradiction

theorem condition_wellFormed {params : List Json} (hparams : ∀ v ∈ params, v.WellFormed)
    {s r : List Char} {c : Condition} (h : condition params s = .ok (c, r)) {v : Json}
    (hv : c.predicate = .eq v) : v.WellFormed := by
  obtain ⟨o, w, hbind, hw⟩ := condition_bind? h
  have heq : w = v := by
    rw [hv] at hbind
    cases o <;> cases w <;> simp_all [Operator.bind?]
  subst heq
  obtain rfl | ⟨t, ht⟩ := hw
  · simp [Json.WellFormed]
  · exact value_wellFormed hparams ht

end DocQuery.Query
