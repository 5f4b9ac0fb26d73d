import DocQuery.Proofs.Exactness
import DocQuery.Proofs.Identity
import DocQuery.Proofs.Soundness
import DocQuery.Regex.Reader

/-! Ids that are strings, numbers or booleans.  An insertion tells numbers apart by their kind, a
query by their value.  So a query for an id selects the document that makes an insertion of it a
duplicate, and besides those whose ids only look like it. -/

namespace DocQuery

namespace Number

def looksLike (m n : Number) : Bool :=
  m.toBinary64.scaled = n.toBinary64.scaled && !m.same n

theorem looksLike_iff {m n : Number} :
    m.looksLike n ↔ m.toBinary64.scaled = n.toBinary64.scaled ∧ ¬ m.same n := by
  rw [looksLike, Bool.and_eq_true, decide_eq_true_iff, Bool.not_eq_true', Bool.not_eq_true]

theorem scaled_of_same {m n : Number} (h : m.same n) :
    m.toBinary64.scaled = n.toBinary64.scaled := by
  cases m <;> cases n <;> simp_all [Number.same, toBinary64]

theorem looksLike_cases {m n : Number} (h : m.looksLike n) :
    (∃ i x, (m = int i ∧ n = float x) ∨ (m = float x ∧ n = int i)) ∨
      ∃ i j, m = int i ∧ n = int j ∧ i ≠ j ∧ 2 ^ 53 < max i.natAbs j.natAbs := by
  obtain ⟨heq, hne⟩ := looksLike_iff.1 h
  cases m with
  | int i =>
    cases n with
    | int j =>
      have hij : i ≠ j := by simpa [Number.same] using hne
      refine .inr ⟨i, j, rfl, rfl, hij, Nat.lt_of_not_le fun hmax => hij ?_⟩
      obtain ⟨hi, hj⟩ := Nat.max_le.1 hmax
      exact Binary64.ofInt_inj hi hj heq
    | float x => exact .inl ⟨i, x, .inl ⟨rfl, rfl⟩⟩
  | float x =>
    cases n with
    | int j => exact .inl ⟨j, x, .inr ⟨rfl, rfl⟩⟩
    | float y => exact absurd (decide_eq_true heq) hne

end Number

namespace Json

/-- Numbers of one value that an insertion tells apart. -/
def looksLike : Json → Json → Bool
  | number m, number n => m.looksLike n
  | _, _ => false

theorem equal_iff_of_isScalar {a b : Json} (ha : a.isScalar) :
    a.equal b ↔ a.same b ∨ a.looksLike b := by
  cases a with
  | number m =>
    cases b with
    | number n =>
      have hsame := @Number.scaled_of_same m n
      simp only [equal, same, looksLike, Number.looksLike_iff, decide_eq_true_iff]
      tauto
    | _ => simp [equal, looksLike]
  | string s => cases b <;> simp [equal, looksLike]
  | bool v => cases b <;> simp [equal, looksLike]
  | _ => contradiction

theorem not_looksLike_of_same {a b : Json} (h : a.same b) : ¬ a.looksLike b := by
  cases a <;> cases b <;> simp_all [same, looksLike, Number.looksLike_iff]

theorem numbers_of_looksLike {a b : Json} (h : a.looksLike b) :
    ∃ m n, a = number m ∧ b = number n ∧ m.looksLike n := by
  cases a with
  | number m =>
    cases b with
    | number n => exact ⟨m, n, rfl, rfl, h⟩
    | _ => contradiction
  | _ => contradiction

theorem same_of_same {a b c : Json} (hc : c.isScalar) (ha : a.same c) (hb : b.same c) :
    a.same b := by
  cases c with
  | number n =>
    cases a <;> cases b <;> simp_all [same]
    exact number_same_trans ha (number_same_symm hb)
  | _ => cases a <;> cases b <;> simp_all [same, isScalar]

end Json

namespace Collection

theorem get?_of_isScalar (h : (idOf d).isScalar) : d.get? idKey = some (idOf d) := by
  unfold idOf at h ⊢
  cases hget : d.get? idKey with
  | none => simp [hget, Json.isScalar] at h
  | some v => rfl

theorem fieldEquals_of_isScalar {v : Json} (h : v.isScalar) (expected : Json) :
    Filter.fieldEquals (some v) expected = v.equal expected := by
  cases v with
  | string | number | bool => rfl
  | _ => contradiction

theorem length_filter_of_pairwise {α : Type} {p : α → Bool} {xs : List α}
    (h : xs.Pairwise fun x y => ¬ (p x ∧ p y)) : (xs.filter p).length = (xs.any p).toNat := by
  induction xs with
  | nil => rfl
  | cons x xs ih =>
    obtain ⟨hx, hxs⟩ := List.pairwise_cons.1 h
    by_cases hp : p x
    · have hnone : xs.filter p = [] := List.filter_eq_nil_iff.2 fun y hy hpy => hx y hy ⟨hp, hpy⟩
      simp [hp, hnone]
    · simp [hp, ih hxs]

variable [Regex.Engine]

section

variable {d id : Json}

theorem holds_id (hd : (idOf d).isScalar) (hid : id.isScalar) :
    Filter.holds d (Filter.single idKey id) = .ok ((idOf d).equal id) := by
  have hclause : ¬ Filter.actsAsOperators id := by
    cases id with
    | object fs => contradiction
    | _ => exact Bool.false_ne_true
  rw [Filter.holds_single (by decide), at?_idKey, Filter.clauseHolds_value hclause,
    get?_of_isScalar hd, fieldEquals_of_isScalar hd]

end

section

variable {id : Json}

theorem length_filter_isSelected {ds : List Json} (h : ∀ d ∈ ds, (idOf d).isScalar)
    (hid : id.isScalar) :
    (ds.filter (isSelected (Filter.single idKey id))).length =
      (ds.filter fun d => (idOf d).looksLike id).length +
        (ds.filter fun d => (idOf d).same id).length := by
  induction ds with
  | nil => rfl
  | cons d ds ih =>
    obtain ⟨hd, hds⟩ := List.forall_mem_cons.1 h
    have hselected := isSelected_of_ok (holds_id hd hid)
    have hequal := Json.equal_iff_of_isScalar (b := id) hd
    by_cases hsame : (idOf d).same id
    · have hnot := Json.not_looksLike_of_same hsame
      simp [hselected, hsame, hnot, hequal.2 (.inl hsame), ih hds]
      omega
    · by_cases hlike : (idOf d).looksLike id
      · simp [hselected, hsame, hlike, hequal.2 (.inr hlike), ih hds]
        omega
      · have hne : ¬ (idOf d).equal id := by simp [hequal, hsame, hlike]
        simp [hselected, hsame, hlike, hne, ih hds]

theorem evaluates_id {ds : List Json} (h : ∀ d ∈ ds, (idOf d).isScalar) (hid : id.isScalar) :
    Evaluates (Filter.single idKey id) ds := by
  intro d hd
  rw [isSelected_of_ok (holds_id (h d hd) hid), holds_id (h d hd) hid]

variable {c : Collection}

omit [Regex.Engine] in
theorem hasId_eq_any (h : ∀ d ∈ c.documents, (idOf d).isScalar) :
    c.hasId id = c.documents.any fun d => (idOf d).same id := by
  rw [hasId, Bool.eq_iff_iff, List.any_eq_true, List.any_eq_true]
  refine exists_congr fun d => and_congr_right fun hd => ?_
  rw [get?_of_isScalar (h d hd), Option.any_some]

omit [Regex.Engine] in
theorem length_same_of_sound (hc : c.Sound) (h : ∀ d ∈ c.documents, (idOf d).isScalar)
    (hid : id.isScalar) :
    (c.documents.filter fun d => (idOf d).same id).length = (c.hasId id).toNat := by
  rw [hasId_eq_any h]
  refine length_filter_of_pairwise ((List.pairwise_map.1 hc.distinct).imp fun hne hboth => ?_)
  exact hne.1 (Json.same_of_same hid hboth.1 hboth.2)

def lookalikes (c : Collection) (id : Json) : List Json :=
  c.documents.filter fun d => (idOf d).looksLike id

omit [Regex.Engine] in
theorem insert_of_id {fs : Fields Json} (hfs : Fields.get? idKey fs = some id) (hid : id.isScalar)
    (name : String) (fresh : Json) :
    c.insert name fresh (.object fs) =
      if c.hasId id then .error (.invalidDocument (.duplicateId id name))
      else .ok (id, { c with documents := c.documents ++ [.object fs] }) := by
  have hlacks : lacksId fs = false := by
    rw [lacksId, hfs, Option.getD_some]
    cases id with
    | null => contradiction
    | _ => rfl
  simp only [Collection.insert, withId, hlacks, hfs, Option.getD_some, Bool.false_eq_true, if_false]

end

end Collection

namespace Store

open Collection (idKey idOf lookalikes)

variable {s : Store} {name : String} {fs : Fields Json} {id : Json}

section

variable [Regex.Engine]

def Refuses (s : Store) (name : String) (fs : Fields Json) (id : Json) : Prop :=
  ∀ fresh, perform name fresh (.insert (.object fs)) s =
    (.error (.invalidDocument (.duplicateId id name)), s)

def Takes (s : Store) (name : String) (fs : Fields Json) (id : Json) : Prop :=
  ∀ fresh, ∃ t, perform name fresh (.insert (.object fs)) s = (.ok id, t) ∧
    (t.getD name).documents = (s.getD name).documents ++ [.object fs]

theorem not_refuses_of_takes (h : Takes s name fs id) : ¬ Refuses s name fs id := by
  intro hrefuses
  obtain ⟨t, htakes, _⟩ := h .null
  cases (hrefuses .null).symm.trans htakes

theorem perform_insert (s : Store) (name : String) (fresh document : Json) :
    perform name fresh (.insert document) s =
      match (s.getD name).insert name fresh document with
      | .error e => (.error e, s)
      | .ok r => (.ok r.1, s.commit name (some r.2)) := by
  rw [Effect.perform_makes name fresh (.insert document) s]
  simp only [Operation.change, getD]
  cases ((s.get? name).getD .empty).insert name fresh document <;> rfl

theorem refuses_or_takes (s : Store) (name : String) (hfs : Fields.get? idKey fs = some id)
    (hid : id.isScalar) :
    (Refuses s name fs id ∧ (s.getD name).hasId id = true) ∨
      (Takes s name fs id ∧ (s.getD name).hasId id = false) := by
  cases h : (s.getD name).hasId id with
  | true =>
    refine .inl ⟨fun fresh => ?_, rfl⟩
    rw [perform_insert, Collection.insert_of_id hfs hid, if_pos h]
  | false =>
    let longer : Collection :=
      { s.getD name with documents := (s.getD name).documents ++ [.object fs] }
    refine .inr ⟨fun fresh => ⟨s.commit name (some longer), ?_, ?_⟩, rfl⟩
    · rw [perform_insert, Collection.insert_of_id hfs hid, h, if_neg Bool.false_ne_true]
    · rw [getD, get?_commit_self, Option.getD_some]

theorem finds_id (hs : s.Sound) (hids : ∀ d ∈ (s.getD name).documents, (idOf d).isScalar)
    (hid : id.isScalar) : ∃ found t, Finds s name (Filter.single idKey id) found t ∧
      found.length = ((s.getD name).lookalikes id).length + ((s.getD name).hasId id).toNat := by
  refine ⟨_, _, finds_of_evaluates (Collection.evaluates_id hids hid), ?_⟩
  rw [Collection.length_filter_isSelected hids hid,
    Collection.length_same_of_sound (hs.getD name) hids hid]
  rfl

/-- In what a run from no collections leads to, an insertion is refused as a duplicate if a query
for its id selects a document, and such a query selects one document at most, unless a stored
number looks like the id.  The documents whose ids do are selected in addition. -/
theorem insert_finds {calls : List Call} (hcalls : ∀ call ∈ calls, call.WellFormed)
    (hids : ∀ d ∈ ((calls.foldl Call.after empty).getD name).documents, (idOf d).isScalar)
    (hfs : Fields.get? idKey fs = some id) (hid : id.isScalar) :
    let s := calls.foldl Call.after empty
    ∃ found t, Finds s name (Filter.single idKey id) found t ∧
      ((Refuses s name fs id ∧ found.length = ((s.getD name).lookalikes id).length + 1) ∨
        (Takes s name fs id ∧ found.length = ((s.getD name).lookalikes id).length)) ∧
      (((Refuses s name fs id ↔ found ≠ []) ∧ found.length ≤ 1) ↔
        (s.getD name).lookalikes id = []) ∧
      ∀ d ∈ (s.getD name).lookalikes id, ∃ m n, idOf d = .number m ∧ id = .number n ∧
        ((∃ i x, (m = .int i ∧ n = .float x) ∨ (m = .float x ∧ n = .int i)) ∨
          ∃ i j, m = .int i ∧ n = .int j ∧ i ≠ j ∧ 2 ^ 53 < max i.natAbs j.natAbs) := by
  intro s
  obtain ⟨found, t, hfinds, hlength⟩ := finds_id (sound_empty.foldl hcalls) hids hid
  have hcases : (Refuses s name fs id ∧ found.length = ((s.getD name).lookalikes id).length + 1) ∨
      (Takes s name fs id ∧ found.length = ((s.getD name).lookalikes id).length) := by
    obtain ⟨hrefuses, hhas⟩ | ⟨htakes, hhas⟩ := refuses_or_takes s name hfs hid
    · exact .inl ⟨hrefuses, by rw [hlength, hhas]; rfl⟩
    · exact .inr ⟨htakes, by rw [hlength, hhas]; rfl⟩
  refine ⟨found, t, hfinds, hcases, ?_, fun d hd => ?_⟩
  · rw [← List.length_pos_iff, ← List.length_eq_zero_iff]
    obtain ⟨hrefuses, hlength⟩ | ⟨htakes, hlength⟩ := hcases
    · simp only [hrefuses, hlength, true_iff]
      omega
    · simp only [not_refuses_of_takes htakes, hlength, false_iff]
      omega
  · obtain ⟨m, n, hm, hn, hlike⟩ := Json.numbers_of_looksLike (List.mem_filter.1 hd).2
    exact ⟨m, n, hm, hn, Number.looksLike_cases hlike⟩

end

def onlyOne : List Call := [.on "counts" "a" (.insert (.object [("_id", .int 1)]))]

theorem insert_finds_one :
    let s := onlyOne.foldl Call.after empty
    let one := Json.number (.float (.ofInt 1))
    (∀ call ∈ onlyOne, call.WellFormed) ∧
      (∀ d ∈ (s.getD "counts").documents, (idOf d).isScalar) ∧
      Fields.get? idKey [("_id", one)] = some one ∧ one.isScalar ∧
      ∃ found t, Finds s "counts" (Filter.single idKey one) found t ∧ found.length = 1 ∧
        Takes s "counts" [("_id", one)] one := by
  intro s one
  have hcalls : ∀ call ∈ onlyOne, call.WellFormed := by
    simp [onlyOne, Call.WellFormed, Operation.WellFormed, Json.WellFormed,
      Json.WellFormedFields, Fields.keys, Json.int]
  have hids : ∀ d ∈ (s.getD "counts").documents, (idOf d).isScalar := by decide +kernel
  have hfs : Fields.get? idKey [("_id", one)] = some one := rfl
  obtain ⟨found, t, hfinds, hcases, _⟩ := insert_finds hcalls hids hfs rfl
  have hlookalikes : ((s.getD "counts").lookalikes one).length = 1 := by decide +kernel
  have htaken : (perform "counts" .null (.insert (.object [("_id", one)])) s).1.isOk = true := by
    decide +kernel
  obtain ⟨hrefuses, _⟩ | ⟨htakes, hlength⟩ := hcases
  · rw [hrefuses .null] at htaken
    exact absurd htaken Bool.false_ne_true
  · exact ⟨hcalls, hids, hfs, rfl, found, t, hfinds, hlength.trans hlookalikes, htakes⟩

end Store

end DocQuery
