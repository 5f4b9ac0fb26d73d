import DocQuery.Proofs.Shorthand
import DocQuery.Regex.Reader

/-! The order of the parts of a filter.  Parts are looked at one after the other and the first
that decides ends the evaluation, so another order may hide a fault of a part or bring it to
light.  It never turns a match into a mismatch. -/

namespace DocQuery.Filter

inductive Role where
  | filter
  | members
  | clause
  | value

def Role.under (key : String) (role : Role) : Role :=
  if key = "$and" ∨ key = "$or" then members
  else
    match role with
    | filter => clause
    | clause => if key = "$not" then clause else value
    | _ => value

/-- Values of one role that differ in the order of entries and members only, at any depth.  The
parts inside are reordered first, each in its place, and then the places. -/
inductive Reordered : Role → Json → Json → Prop
  | same {role v} : Reordered role v v
  | filter {s t u} : Fields.keys s = Fields.keys t →
      (∀ p ∈ s.zip t, Reordered (Role.filter.under p.1.1) p.1.2 p.2.2) → t.Perm u →
      Reordered .filter (.object s) (.object u)
  | operators {s t u} : isOperators s → Fields.keys s = Fields.keys t →
      (∀ p ∈ s.zip t, Reordered (Role.clause.under p.1.1) p.1.2 p.2.2) → t.Perm u →
      Reordered .clause (.object s) (.object u)
  | members {s t u} : s.length = t.length →
      (∀ p ∈ s.zip t, Reordered .filter p.1 p.2) → t.Perm u →
      Reordered .members (.array s) (.array u)

/-- Evaluations that do not contradict each other: if neither fails, they find the same. -/
def Compatible (first second : Except QueryError Bool) : Prop :=
  ∀ a b, first = .ok a → second = .ok b → a = b

namespace Compatible

variable {first second : Except QueryError Bool}

theorem refl (result : Except QueryError Bool) : Compatible result result := by
  rintro a b rfl ⟨⟩
  rfl

theorem of_error {e : QueryError} (h : first = .error e) : Compatible first second := by
  rintro a b ha -
  rw [h] at ha
  contradiction

theorem not (h : Compatible first second) :
    Compatible (first.map (!·)) (second.map (!·)) := by
  cases first with
  | error e => exact of_error rfl
  | ok a =>
    cases second with
    | error e => nofun
    | ok b => rw [h a b rfl rfl]; exact refl _

theorem and {next following : Except QueryError Bool} (h : Compatible first second)
    (hnext : Compatible next following) :
    Compatible (do if ← first then next else return false)
      (do if ← second then following else return false) := by
  cases first with
  | error e => exact of_error rfl
  | ok a =>
    cases second with
    | error e => nofun
    | ok b =>
      obtain rfl := h a b rfl rfl
      cases a with
      | true => exact hnext
      | false => exact refl _

end Compatible

theorem inOrder_eq_ok_false {rs : List (Except QueryError Bool)} (h : inOrder rs = .ok false) :
    .ok false ∈ rs := by
  induction rs with
  | nil => simp [inOrder] at h
  | cons r rs ih =>
    rw [inOrder] at h
    cases r with
    | error e => contradiction
    | ok b =>
      cases b with
      | true => exact List.mem_cons_of_mem _ (ih h)
      | false => exact List.mem_cons_self

theorem Compatible.inOrder {rs ss : List (Except QueryError Bool)}
    (hleft : ∀ r ∈ rs, ∃ s ∈ ss, Compatible r s) (hright : ∀ s ∈ ss, ∃ r ∈ rs, Compatible r s) :
    Compatible (Filter.inOrder rs) (Filter.inOrder ss) := by
  -- what is found true in order has no false part, so a part of the other that is found false would
  -- contradict its counterpart
  intro a b ha hb
  cases a with
  | true =>
    cases b with
    | true => rfl
    | false =>
      obtain ⟨r, hr, h⟩ := hright _ (inOrder_eq_ok_false hb)
      exact h _ _ (inOrder_eq_ok_true.1 ha r hr) rfl
  | false =>
    cases b with
    | true =>
      obtain ⟨s, hs, h⟩ := hleft _ (inOrder_eq_ok_false ha)
      exact h _ _ rfl (inOrder_eq_ok_true.1 hb s hs)
    | false => rfl

theorem exists_counterparts {α : Type} {R : α → α → Prop} {xs ys zs : List α}
    (hlen : xs.length = ys.length) (h : ∀ p ∈ xs.zip ys, R p.1 p.2) (hperm : ys.Perm zs) :
    (∀ x ∈ xs, ∃ z ∈ zs, R x z) ∧ ∀ z ∈ zs, ∃ x ∈ xs, R x z := by
  have hget : ∀ i (hx : i < xs.length) (hy : i < ys.length), R xs[i] ys[i] := by
    intro i hx hy
    have hi : i < (xs.zip ys).length := by
      rw [List.length_zip]
      exact Nat.lt_min.2 ⟨hx, hy⟩
    simpa using h _ (List.getElem_mem hi)
  constructor
  · intro x hx
    obtain ⟨i, hi, rfl⟩ := List.getElem_of_mem hx
    exact ⟨_, hperm.mem_iff.1 (List.getElem_mem (hlen ▸ hi)), hget i hi (hlen ▸ hi)⟩
  · intro z hz
    obtain ⟨i, hi, rfl⟩ := List.getElem_of_mem (hperm.mem_iff.2 hz)
    exact ⟨_, List.getElem_mem (hlen ▸ hi), hget i (hlen ▸ hi) hi⟩

theorem Compatible.inOrder_map {α : Type} {xs ys zs : List α} {f g : α → Except QueryError Bool}
    (hlen : xs.length = ys.length) (h : ∀ p ∈ xs.zip ys, Compatible (f p.1) (g p.2))
    (hperm : ys.Perm zs) : Compatible (Filter.inOrder (xs.map f)) (Filter.inOrder (zs.map g)) := by
  obtain ⟨hleft, hright⟩ :=
    exists_counterparts (R := fun x z => Compatible (f x) (g z)) hlen h hperm
  apply Compatible.inOrder
  · intro r hr
    obtain ⟨x, hx, rfl⟩ := List.mem_map.1 hr
    obtain ⟨z, hz, hxz⟩ := hleft x hx
    exact ⟨_, List.mem_map_of_mem hz, hxz⟩
  · intro r hr
    obtain ⟨z, hz, rfl⟩ := List.mem_map.1 hr
    obtain ⟨x, hx, hxz⟩ := hright z hz
    exact ⟨_, List.mem_map_of_mem hx, hxz⟩

theorem keys_of_mem_zip {es fs : List (String × Json)} (h : Fields.keys es = Fields.keys fs)
    {p : (String × Json) × (String × Json)} (hp : p ∈ es.zip fs) : p.1.1 = p.2.1 := by
  induction es generalizing fs with
  | nil => simp at hp
  | cons e es ih =>
    cases fs with
    | nil => simp at hp
    | cons f fs =>
      obtain ⟨hkey, hkeys⟩ := List.cons.inj h
      rcases List.mem_cons.1 hp with rfl | hp
      · exact hkey
      · exact ih hkeys hp

theorem Compatible.inOrder_entries {es fs gs : List (String × Json)}
    {f g : String → Json → Except QueryError Bool} (hkeys : Fields.keys es = Fields.keys fs)
    (h : ∀ p ∈ es.zip fs, Compatible (f p.1.1 p.1.2) (g p.1.1 p.2.2)) (hperm : fs.Perm gs) :
    Compatible (Filter.inOrder (es.map fun e => f e.1 e.2))
      (Filter.inOrder (gs.map fun e => g e.1 e.2)) := by
  have hlen : es.length = fs.length := by simpa [Fields.keys] using congrArg List.length hkeys
  refine .inOrder_map hlen (fun p hp => ?_) hperm
  rw [← keys_of_mem_zip hkeys hp]
  exact h p hp

section

variable [Regex.Engine]

theorem operatorsHold_eq_inOrder (filter : Json) (field : Option Json)
    (fs : List (String × Json)) :
    operatorsHold filter field fs =
      inOrder (fs.map fun f => operatorHolds filter field f.1 f.2) := by
  induction fs with
  | nil => rfl
  | cons f fs ih => rw [operatorsHold, ih, List.map_cons, inOrder]

section

variable (document filter : Json)

theorem fieldsHold_cons_eq (f : String × Json) (fs : List (String × Json)) :
    fieldsHold document filter (f :: fs) = do
      if ← fieldsHold document filter [f] then fieldsHold document filter fs
      else return false := by
  obtain ⟨key, c⟩ := f
  by_cases hand : key = "$and"
  · subst hand
    cases c with
    | array subs =>
      rw [fieldsHold_and, fieldsHold.eq_def]
      rfl
    | _ => simp only [fieldsHold]; rfl
  by_cases hor : key = "$or"
  · subst hor
    cases c with
    | array subs =>
      rw [fieldsHold_or, fieldsHold.eq_def]
      rfl
    | _ => simp only [fieldsHold]; rfl
  by_cases hkey : isOperatorName key
  · rw [fieldsHold.eq_def, fieldsHold.eq_def]
    simp only [if_neg hand, if_neg hor, if_pos hkey]
    rfl
  · rw [fieldsHold_field document filter hkey, fieldsHold_cons hkey]

theorem fieldsHold_eq_inOrder_entries (fs : List (String × Json)) :
    fieldsHold document filter fs = inOrder (fs.map fun f => fieldsHold document filter [f]) := by
  induction fs with
  | nil => rfl
  | cons f fs ih => rw [fieldsHold_cons_eq, ih, List.map_cons, inOrder]

end

theorem allHold_eq_inOrder (document : Json) (fs : List Json) :
    allHold document fs = inOrder (fs.map (holds document)) := by
  induction fs with
  | nil => rfl
  | cons f fs ih => rw [allHold, ih, List.map_cons, inOrder]

theorem anyHolds_eq_inOrder (document : Json) (fs : List Json) :
    anyHolds document fs = (inOrder (fs.map fun f => (holds document f).map (!·))).map (!·) := by
  -- a filter holds of a document unless each of them is found not to, in order
  induction fs with
  | nil => rfl
  | cons f fs ih =>
    rw [anyHolds, ih, List.map_cons, inOrder]
    cases holds document f with
    | error e => rfl
    | ok b => cases b <;> rfl

section

variable (filter filter' : Json) (field : Option Json)

omit [Regex.Engine] in
theorem isMember_compatible (list : Json) :
    Compatible (isMember filter field list) (isMember filter' field list) := by
  cases list with
  | array vs => exact .refl _
  | _ => exact .of_error rfl

theorem fieldMatches_compatible (pattern : Json) :
    Compatible (fieldMatches filter field pattern) (fieldMatches filter' field pattern) := by
  cases pattern with
  | string p => exact .refl _
  | _ => exact .of_error rfl

mutual

theorem operatorHolds_compatible : ∀ (name : String) (arg : Json),
    Compatible (operatorHolds filter field name arg) (operatorHolds filter' field name arg)
  | name, arg => by
    unfold operatorHolds
    split
    · exact .refl _
    · exact .refl _
    · exact .refl _
    · exact .refl _
    · exact .refl _
    · exact .refl _
    · exact isMember_compatible filter filter' field _
    · exact (isMember_compatible filter filter' field _).not
    · exact fieldMatches_compatible filter filter' field _
    · split
      · exact (fieldMatches_compatible filter filter' field _).not
      · next fs =>
        split
        · exact (operatorsHold_compatible fs).not
        · exact .of_error rfl
      · exact .of_error rfl
    · exact .of_error rfl

theorem operatorsHold_compatible : ∀ fs : List (String × Json),
    Compatible (operatorsHold filter field fs) (operatorsHold filter' field fs)
  | [] => .refl _
  | (name, arg) :: fs => by
    rw [operatorsHold, operatorsHold]
    exact (operatorHolds_compatible name arg).and (operatorsHold_compatible fs)

end

end

omit [Regex.Engine] in
theorem isOperators_iff {fs : List (String × Json)} :
    isOperators fs ↔ fs ≠ [] ∧ ∀ key ∈ Fields.keys fs, isOperatorName key := by
  simp [isOperators, Fields.keys]

omit [Regex.Engine] in
theorem isOperators_of_keys {es fs gs : List (String × Json)} (h : isOperators es)
    (hkeys : Fields.keys es = Fields.keys fs) (hperm : fs.Perm gs) : isOperators gs := by
  rw [isOperators_iff] at h ⊢
  have hkeys' : (Fields.keys es).Perm (Fields.keys gs) := hkeys ▸ hperm.map Prod.fst
  refine ⟨?_, fun key hkey => h.2 key (hkeys'.mem_iff.2 hkey)⟩
  rintro rfl
  exact h.1 (List.map_eq_nil_iff.1 hkeys'.eq_nil)

def Role.Agree (document : Json) : Role → Json → Json → Prop
  | filter, f, g => Compatible (holds document f) (holds document g)
  | members, c, d => ∀ fs gs, c = .array fs → d = .array gs →
      Compatible (allHold document fs) (allHold document gs) ∧
      Compatible (anyHolds document fs) (anyHolds document gs)
  | clause, c, d => c = d ∨ ∃ es gs, c = .object es ∧ d = .object gs ∧
      isOperators es ∧ isOperators gs ∧
      ∀ whole whole' field,
        Compatible (operatorsHold whole field es) (operatorsHold whole' field gs)
  | value, v, w => v = w

section

variable {document c d : Json}

theorem clauseHolds_compatible (h : Role.clause.Agree document c d) (filter filter' : Json)
    (field : Option Json) :
    Compatible (clauseHolds filter field c) (clauseHolds filter' field d) := by
  obtain rfl | ⟨es, gs, rfl, rfl, hes, hgs, hcompatible⟩ := h
  · cases c with
    | object fs =>
      rw [clauseHolds, clauseHolds]
      split
      · exact operatorsHold_compatible filter filter' field fs
      · exact .refl _
    | _ => exact .refl _
  · rw [clauseHolds, clauseHolds, if_pos hes, if_pos hgs]
    exact hcompatible filter filter' field

theorem exists_members {name : String} (hname : name = "$and" ∨ name = "$or") {filter : Json}
    {b : Bool} (h : fieldsHold document filter [(name, c)] = .ok b) : ∃ fs, c = .array fs := by
  cases c with
  | array fs => exact ⟨fs, rfl⟩
  | _ =>
    obtain rfl | rfl := hname
    · simp only [fieldsHold] at h
      contradiction
    · simp only [fieldsHold] at h
      contradiction

theorem members_compatible {name : String} (hname : name = "$and" ∨ name = "$or")
    (h : Role.members.Agree document c d) (filter filter' : Json) :
    Compatible (fieldsHold document filter [(name, c)])
      (fieldsHold document filter' [(name, d)]) := by
  intro a b ha hb
  obtain ⟨fs, rfl⟩ := exists_members hname ha
  obtain ⟨gs, rfl⟩ := exists_members hname hb
  obtain ⟨hall, hany⟩ := h fs gs rfl rfl
  obtain rfl | rfl := hname
  · rw [fieldsHold_and] at ha hb
    exact hall a b ha hb
  · rw [fieldsHold_or] at ha hb
    exact hany a b ha hb

theorem entry_compatible {key : String} (h : (Role.filter.under key).Agree document c d)
    (filter filter' : Json) :
    Compatible (fieldsHold document filter [(key, c)])
      (fieldsHold document filter' [(key, d)]) := by
  by_cases hlogic : key = "$and" ∨ key = "$or"
  · rw [Role.under, if_pos hlogic] at h
    exact members_compatible hlogic h filter filter'
  · rw [Role.under, if_neg hlogic] at h
    by_cases hkey : isOperatorName key
    · rw [not_or] at hlogic
      apply Compatible.of_error (e := unsupported (.string key) filter)
      rw [fieldsHold.eq_def]
      simp only [if_neg hlogic.1, if_neg hlogic.2, if_pos hkey]
      rfl
    · rw [fieldsHold_field _ _ hkey, fieldsHold_field _ _ hkey]
      exact clauseHolds_compatible h filter filter' _

theorem operator_compatible {name : String} (h : (Role.clause.under name).Agree document c d)
    (filter filter' : Json) (field : Option Json) :
    Compatible (operatorHolds filter field name c) (operatorHolds filter' field name d) := by
  by_cases hlogic : name = "$and" ∨ name = "$or"
  · obtain rfl | rfl := hlogic
    · exact .of_error (by unfold operatorHolds; rfl)
    · exact .of_error (by unfold operatorHolds; rfl)
  rw [Role.under, if_neg hlogic] at h
  split at h
  · next hnot =>
    subst hnot
    obtain rfl | ⟨es, gs, rfl, rfl, hes, hgs, hcompatible⟩ := h
    · exact operatorHolds_compatible filter filter' field _ _
    · simp only [operatorHolds, if_pos hes, if_pos hgs]
      exact (hcompatible filter filter' field).not
  · obtain rfl := h
    exact operatorHolds_compatible filter filter' field _ _

end

theorem Reordered.agree (document : Json) {role : Role} {f g : Json} (h : Reordered role f g) :
    role.Agree document f g := by
  -- in every case the parts agree by induction, and their order does not matter to `inOrder`
  induction h with
  | @same role v =>
    cases role with
    | filter => exact .refl _
    | members =>
      rintro fs gs rfl ⟨⟩
      exact ⟨.refl _, .refl _⟩
    | clause => exact .inl rfl
    | value => rfl
  | @filter es fs gs hkeys _ hperm ih =>
    rw [Role.Agree, holds, holds, fieldsHold_eq_inOrder_entries, fieldsHold_eq_inOrder_entries]
    exact Compatible.inOrder_entries
      (f := fun key c => fieldsHold document (.object es) [(key, c)])
      (g := fun key c => fieldsHold document (.object gs) [(key, c)]) hkeys
      (fun p hp => entry_compatible (ih p hp) _ _) hperm
  | @operators es fs gs hes hkeys _ hperm ih =>
    refine .inr ⟨es, gs, rfl, rfl, hes, isOperators_of_keys hes hkeys hperm, fun w w' field => ?_⟩
    rw [operatorsHold_eq_inOrder, operatorsHold_eq_inOrder]
    exact .inOrder_entries hkeys (fun p hp => operator_compatible (ih p hp) w w' field) hperm
  | @members xs ys zs hlen _ hperm ih =>
    rintro fs gs ⟨⟩ ⟨⟩
    rw [allHold_eq_inOrder, allHold_eq_inOrder, anyHolds_eq_inOrder, anyHolds_eq_inOrder]
    exact ⟨.inOrder_map hlen ih hperm,
      (Compatible.inOrder_map hlen (fun p hp => (ih p hp).not) hperm).not⟩

/-- Filters that differ in the order of their parts only do not contradict each other: if both
are evaluated without a fault, they both hold of a document or both do not. -/
theorem holds_reordered {f g : Json} (h : Reordered .filter f g) {document : Json}
    (hf : (holds document f).isOk) (hg : (holds document g).isOk) :
    holds document f = holds document g := by
  have hagree := h.agree document
  cases hx : holds document f with
  | error e => simp [hx, Except.isOk, Except.toBool] at hf
  | ok a =>
    cases hy : holds document g with
    | error e => simp [hy, Except.isOk, Except.toBool] at hg
    | ok b => rw [hagree a b hx hy]

end

theorem Reordered.entry {key : String} {c d : Json} (h : Reordered (Role.filter.under key) c d) :
    Reordered .filter (single key c) (single key d) :=
  .filter (t := [(key, d)]) rfl (List.forall_mem_singleton.2 h) (.refl _)

theorem Reordered.operator {name : String} {c d : Json} (hname : isOperatorName name)
    (h : Reordered (Role.clause.under name) c d) :
    Reordered .clause (single name c) (single name d) :=
  .operators (t := [(name, d)]) (by simp [isOperators, hname]) rfl
    (List.forall_mem_singleton.2 h) (.refl _)

def nearFilter : Json := single "size" (single "$near" (.int 7))

def outsideFilter : Json :=
  single "size" (single "$not" (.object [("$gt", .string "b"), ("$lt", .string "f")]))

def rearrangedOutside : Json :=
  single "size" (single "$not" (.object [("$lt", .string "f"), ("$gt", .string "b")]))

def guardedFilter : Json :=
  .object [
    ("$or", .array [single "kind" (.string "x"), nearFilter, outsideFilter]),
    ("size", .string "c")]

def rearrangedFilter : Json :=
  .object [
    ("size", .string "c"),
    ("$or", .array [rearrangedOutside, single "kind" (.string "x"), nearFilter])]

theorem outsideFilter_reordered : Reordered .filter outsideFilter rearrangedOutside := by
  have hbounds : Reordered .clause (.object [("$gt", .string "b"), ("$lt", .string "f")])
      (.object [("$lt", .string "f"), ("$gt", .string "b")]) :=
    .operators (t := [("$gt", .string "b"), ("$lt", .string "f")]) rfl rfl
      (List.forall_mem_cons.2 ⟨.same, List.forall_mem_singleton.2 .same⟩) (.swap _ _ _)
  exact .entry (.operator rfl hbounds)

theorem guardedFilter_reordered : Reordered .filter guardedFilter rearrangedFilter := by
  have hmembers : Reordered .members
      (.array [single "kind" (.string "x"), nearFilter, outsideFilter])
      (.array [rearrangedOutside, single "kind" (.string "x"), nearFilter]) := by
    refine .members (t := [_, _, rearrangedOutside]) rfl ?_
      (List.perm_append_comm : ([_, _] ++ [_]).Perm ([_] ++ [_, _]))
    refine List.forall_mem_cons.2 ⟨.same, List.forall_mem_cons.2 ⟨.same, ?_⟩⟩
    exact List.forall_mem_singleton.2 outsideFilter_reordered
  refine .filter (t := [
    ("$or", .array [rearrangedOutside, single "kind" (.string "x"), nearFilter]),
    ("size", .string "c")]) rfl ?_ (.swap _ _ _)
  exact List.forall_mem_cons.2 ⟨hmembers, List.forall_mem_singleton.2 .same⟩

theorem holds_reordered_guarded :
    Reordered .filter guardedFilter rearrangedFilter ∧
    holds (.object [("size", .string "c"), ("kind", .string "x")]) guardedFilter = .ok true ∧
    holds (.object [("size", .string "c"), ("kind", .string "x")]) rearrangedFilter = .ok true := by
  have htrue : holds (.object [("size", .string "c"), ("kind", .string "x")]) guardedFilter =
    .ok true := rfl
  refine ⟨guardedFilter_reordered, htrue, ?_⟩
  rw [← htrue]
  exact (holds_reordered guardedFilter_reordered rfl rfl).symm

end DocQuery.Filter
