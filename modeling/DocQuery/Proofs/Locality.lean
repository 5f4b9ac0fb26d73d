import DocQuery.Regex.Reader
import DocQuery.Store.Operation

/-! Operations on one collection leave the rest of a store alone.  What an operation
gives and leaves is told by a function of its own collection, and nothing is changed
where it fails. -/

namespace DocQuery

namespace Store

theorem find?_eq_none {name : String} {es : Entries} (h : ∀ e ∈ es, name < e.1) :
    find? name es = none := by
  induction es with
  | nil => rfl
  | cons e es ih =>
    obtain ⟨he, hes⟩ := List.forall_mem_cons.1 h
    rw [find?, if_neg (Std.ne_of_lt he).symm, ih hes]

theorem not_lt_of_find? {n : String} {c : Collection} {es fs : Entries} (hfs : Sorted fs)
    (h : find? n ((n, c) :: es) = find? n fs) {f : String × Collection} {rest : Entries}
    (hf : fs = f :: rest) : ¬ n < f.1 := by
  subst hf
  intro hlt
  obtain ⟨hrest, _⟩ := List.pairwise_cons.1 hfs
  rw [find?, if_pos rfl, find?_eq_none] at h
  · contradiction
  · exact List.forall_mem_cons.2 ⟨hlt, fun g hg => String.lt_trans hlt (hrest g hg)⟩

theorem entries_ext {es fs : Entries} (hes : Sorted es) (hfs : Sorted fs)
    (h : ∀ name, find? name es = find? name fs) : es = fs := by
  induction es generalizing fs with
  | nil =>
    cases fs with
    | nil => rfl
    | cons f fs => simpa [find?] using h f.1
  | cons e es ih =>
    obtain ⟨n, c⟩ := e
    cases fs with
    | nil => simpa [find?] using h n
    | cons f fs =>
      obtain ⟨m, d⟩ := f
      have hnm : ¬ n < m := not_lt_of_find? hfs (h n) rfl
      have hmn : ¬ m < n := not_lt_of_find? hes (h m).symm rfl
      obtain rfl : n = m := by
        rcases Std.lt_trichotomy n m with hlt | heq | hlt
        · exact absurd hlt hnm
        · exact heq
        · exact absurd hlt hmn
      obtain rfl : c = d := by simpa [find?] using h n
      obtain ⟨he, hes⟩ := List.pairwise_cons.1 hes
      obtain ⟨hf, hfs⟩ := List.pairwise_cons.1 hfs
      rw [ih hes hfs]
      intro name
      by_cases hname : n = name
      · rw [← hname, find?_eq_none he, find?_eq_none hf]
      · simpa [find?, hname] using h name

theorem ext_get? {s t : Store} (h : ∀ name, s.get? name = t.get? name) : s = t := by
  obtain ⟨es, hes⟩ := s
  obtain ⟨fs, hfs⟩ := t
  obtain rfl : es = fs := entries_ext hes hfs h
  rfl

def commit (s : Store) (name : String) : Option Collection → Store
  | some c => s.set name c
  | none => s.erase name

@[simp] theorem get?_commit_self (s : Store) (name : String) (c : Option Collection) :
    (s.commit name c).get? name = c := by
  cases c <;> simp [commit]

theorem get?_commit_of_ne {name other : String} (h : other ≠ name) (s : Store)
    (c : Option Collection) : (s.commit name c).get? other = s.get? other := by
  cases c with
  | none => exact get?_erase_of_ne h s
  | some c => exact get?_set_of_ne h s c

theorem commit_get? (s : Store) (name : String) : s.commit name (s.get? name) = s := by
  apply ext_get?
  intro other
  by_cases h : other = name
  · rw [h, get?_commit_self]
  · rw [get?_commit_of_ne h]

theorem commit_of_get? {s : Store} {name : String} {c : Option Collection}
    (h : s.get? name = c) : s.commit name c = s := by
  rw [← h, commit_get?]

theorem commit_commit (s : Store) (name : String) (c d : Option Collection) :
    (s.commit name c).commit name d = s.commit name d := by
  apply ext_get?
  intro other
  by_cases h : other = name
  · rw [h, get?_commit_self, get?_commit_self]
  · rw [get?_commit_of_ne h, get?_commit_of_ne h, get?_commit_of_ne h]

end Store

theorem map_eq_ok {ε α β : Type} {r : Except ε α} {f : α → β} {y : β}
    (h : r.map f = .ok y) : ∃ x, r = .ok x ∧ f x = y := by
  cases r with
  | error e => contradiction
  | ok x => exact ⟨x, rfl, Except.ok.inj h⟩

section

variable [Regex.Engine]

/-- What an operation gives, and what it leaves of its collection. -/
def Operation.change {α : Type} (name : String) (fresh : Json) :
    Operation α → Option Collection → Except Error (α × Option Collection)
  | insert document, c =>
    ((c.getD .empty).insert name fresh document).map fun r => (r.1, some r.2)
  | count filter, c => ((c.getD .empty).count filter).map (·, c)
  | find filter options, c => ((c.getD .empty).find filter options).map (·, c)
  | findOne filter, c => ((c.getD .empty).findOne filter).map (·, c)
  | update filter (.object fs), some c => (c.update filter fs).map fun r => (r.1, some r.2)
  | update _ (.object _), none => .ok (0, none)
  | update _ _, _ => .error (.invalidDocument .notAnObject)
  | remove filter, some c => (c.remove filter).map fun r => (r.1, some r.2)
  | remove _, none => .ok (0, none)
  | drop, _ => .ok ((), none)
  | createIndex keys, c => (SortKey.ofOrder keys).map fun _ =>
    (Index.nameOf keys, some ((c.getD .empty).createIndex keys))
  | dropIndex keys, some c => (c.dropIndex keys).map fun c => ((), some c)
  | dropIndex keys, none => .error (.indexNotFound (Index.nameOf keys))
  | dropIndexes, c => .ok ((), c.map Collection.dropIndexes)
  | indexNames, c => .ok ((c.map Collection.indexNames).getD [], c)

def Operation.onlyReads {α : Type} : Operation α → Bool
  | count _ | find _ _ | findOne _ | indexNames => true
  | _ => false

def Operation.onlyEdits {α : Type} : Operation α → Bool
  | update _ _ | remove _ | dropIndex _ | dropIndexes => true
  | _ => false

theorem Operation.change_of_onlyReads {α : Type} {op : Operation α} (h : op.onlyReads)
    {name : String} {fresh : Json} {c c' : Option Collection} {x : α}
    (hc : op.change name fresh c = .ok (x, c')) : c' = c := by
  have hmap : ∀ {r : Except Error α}, r.map (·, c) = .ok (x, c') → c' = c := by
    intro r hr
    obtain ⟨y, _, hy⟩ := map_eq_ok hr
    exact (congrArg Prod.snd hy).symm
  cases op with
  | count filter => exact hmap hc
  | find filter options => exact hmap hc
  | findOne filter => exact hmap hc
  | indexNames => exact (congrArg Prod.snd (Except.ok.inj hc)).symm
  | _ => contradiction

theorem Operation.change_of_onlyEdits {α : Type} {op : Operation α} (h : op.onlyEdits)
    {name : String} {fresh : Json} {c : Option Collection} {x : α}
    (hc : op.change name fresh none = .ok (x, c)) : c = none := by
  cases op with
  | update filter document =>
    cases document with
    | object fs =>
      cases hc
      rfl
    | _ => contradiction
  | remove filter =>
    cases hc
    rfl
  | dropIndex keys => contradiction
  | dropIndexes =>
    cases hc
    rfl
  | _ => contradiction

inductive Operation.Remakes (name : String) (fresh : Json) :
    {α : Type} → Operation α → Collection → Collection → Prop where
  | insert {document : Json} {c : Collection} {r : Json × Collection}
      (h : c.insert name fresh document = .ok r) : Remakes name fresh (.insert document) c r.2
  | update {filter : Json} {fs : Fields Json} {c : Collection} {r : Nat × Collection}
      (h : c.update filter fs = .ok r) : Remakes name fresh (.update filter (.object fs)) c r.2
  | remove {filter : Json} {c : Collection} {r : Nat × Collection}
      (h : c.remove filter = .ok r) : Remakes name fresh (.remove filter) c r.2
  | createIndex {keys : Json} {c : Collection} {ks : List SortKey}
      (h : SortKey.ofOrder keys = .ok ks) :
      Remakes name fresh (.createIndex keys) c (c.createIndex keys)
  | dropIndex {keys : Json} {c d : Collection} (h : c.dropIndex keys = .ok d) :
      Remakes name fresh (.dropIndex keys) c d
  | dropIndexes {c : Collection} : Remakes name fresh .dropIndexes c c.dropIndexes

theorem Operation.change_cases {α : Type} {op : Operation α} {name : String} {fresh : Json}
    {c : Option Collection} {r : α × Option Collection} (hr : op.change name fresh c = .ok r)
    {d : Collection} (hd : d ∈ r.2) : c = some d ∨ op.Remakes name fresh (c.getD .empty) d := by
  cases op with
  | insert document =>
    obtain ⟨x, hx, rfl⟩ := map_eq_ok hr
    cases hd
    exact .inr (.insert hx)
  | update filter document =>
    cases document with
    | object fs =>
      cases c with
      | none =>
        cases hr
        contradiction
      | some c =>
        obtain ⟨x, hx, rfl⟩ := map_eq_ok hr
        cases hd
        exact .inr (.update hx)
    | _ => contradiction
  | remove filter =>
    cases c with
    | none =>
      cases hr
      contradiction
    | some c =>
      obtain ⟨x, hx, rfl⟩ := map_eq_ok hr
      cases hd
      exact .inr (.remove hx)
  | drop =>
    cases hr
    contradiction
  | createIndex keys =>
    obtain ⟨ks, hks, rfl⟩ := map_eq_ok hr
    cases hd
    exact .inr (.createIndex hks)
  | dropIndex keys =>
    cases c with
    | none => contradiction
    | some c =>
      obtain ⟨x, hx, rfl⟩ := map_eq_ok hr
      cases hd
      exact .inr (.dropIndex hx)
  | dropIndexes =>
    cases hr
    obtain ⟨c, rfl, rfl⟩ := Option.map_eq_some_iff.1 hd
    exact .inr .dropIndexes
  | _ =>
    obtain rfl := change_of_onlyReads rfl hr
    exact .inl hd

end

namespace Store.Effect

variable {α β : Type}

def Makes (name : String) (f : Option Collection → Except Error (α × Option Collection))
    (a : Effect α) : Prop :=
  ∀ s, a s = match f (s.get? name) with
    | .ok (x, c) => (.ok x, s.commit name c)
    | .error e => (.error e, s)

/-- An effect on the collection of a name that depends on nothing else, changes nothing
else, and changes nothing at all if it fails. -/
structure LocalTo (name : String) (a : Effect α) : Prop where
  atomic : ∀ s e, (a s).1 = .error e → (a s).2 = s
  frame : ∀ s other, other ≠ name → (a s).2.get? other = s.get? other
  own : ∀ s t, s.get? name = t.get? name →
    (a s).1 = (a t).1 ∧ (a s).2.get? name = (a t).2.get? name

theorem Makes.localTo {name : String} {a : Effect α}
    {f : Option Collection → Except Error (α × Option Collection)} (h : a.Makes name f) :
    LocalTo name a where
  atomic s e he := by
    rw [h s] at he ⊢
    cases hf : f (s.get? name) with
    | ok r => simp [hf] at he
    | error e => rfl
  frame s other ho := by
    rw [h s]
    split
    · exact get?_commit_of_ne ho ..
    · rfl
  own s t hst := by
    rw [h s, h t, hst]
    split
    · simp
    · exact ⟨rfl, hst⟩

theorem Makes.unchanged {name : String} {a : Effect α}
    {f : Option Collection → Except Error (α × Option Collection)} (h : a.Makes name f) {s : Store}
    (hf : ∀ x c, f (s.get? name) = .ok (x, c) → c = s.get? name) : (a s).2 = s := by
  rw [h s]
  cases hc : f (s.get? name) with
  | error e => rfl
  | ok r => exact commit_of_get? (hf r.1 r.2 hc).symm

def Commute (a : Effect α) (b : Effect β) : Prop :=
  ∀ s, (a (b s).2).1 = (a s).1 ∧ (b (a s).2).1 = (b s).1 ∧ (a (b s).2).2 = (b (a s).2).2

theorem LocalTo.commute {name other : String} {a : Effect α} {b : Effect β}
    (ha : LocalTo name a) (hb : LocalTo other b) (h : other ≠ name) : Commute a b := by
  intro s
  obtain ⟨hares, hastore⟩ := ha.own (b s).2 s (hb.frame s name h.symm)
  obtain ⟨hbres, hbstore⟩ := hb.own (a s).2 s (ha.frame s other h)
  refine ⟨hares, hbres, ext_get? fun third => ?_⟩
  by_cases hn : third = name
  · rw [hn, hastore, hb.frame _ _ h.symm]
  · rw [ha.frame _ _ hn]
    by_cases ho : third = other
    · rw [ho, hbstore]
    · rw [hb.frame _ _ ho, hb.frame _ _ ho, ha.frame _ _ hn]

section

variable (s : Store)

@[simp] theorem bind_apply (a : Effect α) (f : α → Effect β) :
    (a >>= f : Effect β) s = match a s with
      | (.ok x, t) => f x t
      | (.error e, t) => (.error e, t) := by
  have hbind : (a >>= f : Effect β) s = ExceptT.bindCont f (a s).1 (a s).2 := rfl
  rw [hbind]
  rcases a s with ⟨_ | _, t⟩ <;> rfl

@[simp] theorem pure_apply (x : α) : (pure x : Effect α) s = (.ok x, s) := rfl

@[simp] theorem get_apply : (get : Effect Store) s = (.ok s, s) := rfl

@[simp] theorem lift_apply (r : Except Error α) : (liftM r : Effect α) s = (r, s) := rfl

@[simp] theorem put_apply (name : String) (c : Collection) :
    put name c s = (.ok (), s.commit name (some c)) := rfl

@[simp] theorem entry_apply (name : String) :
    entry name s = (.ok ((s.get? name).getD .empty),
      s.commit name (some ((s.get? name).getD .empty))) := by
  rw [entry, bind_apply, get_apply]
  cases h : s.get? name with
  | none => simp only [h, bind_apply, put_apply, pure_apply, Option.getD_none]
  | some c => simp only [h, pure_apply, Option.getD_some, commit_of_get? h]

end

theorem read_makes (name : String) (f : Collection → Except Error α) :
    Makes name (fun c => (f (c.getD .empty)).map (·, c)) (read name f) := by
  intro s
  simp only [read, bind_apply, get_apply, lift_apply, getD]
  cases f ((s.get? name).getD .empty) with
  | error e => rfl
  | ok x => simp only [Except.map, commit_get?]

theorem insert_empty (name : String) (fresh : Json) (fs : Fields Json) :
    ∃ r, Collection.empty.insert name fresh (.object fs) = .ok r := ⟨_, rfl⟩

section

variable [Regex.Engine]

theorem insert_makes (name : String) (fresh document : Json) :
    Makes name ((Operation.insert document).change name fresh) (insert name fresh document) := by
  intro s
  cases document with
  | object fs =>
    simp only [insert, bind_apply, entry_apply, lift_apply, Operation.change]
    cases hc : s.get? name with
    | none =>
      -- a collection that is made for a document does not refuse it
      obtain ⟨r, hr⟩ := insert_empty name fresh fs
      simp only [Option.getD_none, hr, Except.map, put_apply, pure_apply, commit_commit]
    | some c =>
      simp only [Option.getD_some, commit_of_get? hc]
      cases c.insert name fresh (.object fs) with
      | error e => rfl
      | ok r => rfl
  | _ => rfl

theorem replaceFrom_apply (filter : Json) (fs : Fields Json) {s : Store} {name : String}
    {c : Collection} (h : s.get? name = some c) {seen ds : List Json}
    (hc : c.documents = seen ++ ds) :
    replaceFrom name c filter fs seen.length ds s =
      match Collection.replaceFirst filter fs ds with
      | .ok (found, rest) =>
        (.ok found.toNat, s.commit name (some { c with documents := seen ++ rest }))
      | .error e => (.error (.query e), s) := by
  induction ds generalizing seen with
  | nil =>
    have hsame : { c with documents := seen ++ [] } = c := by rw [← hc]
    simp only [replaceFrom, pure_apply, Collection.replaceFirst, hsame, commit_of_get? h]
    rfl
  | cons d ds ih =>
    simp only [replaceFrom, bind_apply, lift_apply, Collection.replaceFirst]
    cases Filter.holds d filter with
    | error e => rfl
    | ok b =>
      have hok : (Except.ok b).mapError Error.query = .ok b := rfl
      cases b with
      | true =>
        have hset : (seen ++ d :: ds).set seen.length (Collection.replacement d fs) =
            seen ++ Collection.replacement d fs :: ds := by simp
        simp only [hok, if_true, bind_apply, put_apply, pure_apply, hc, hset]
        rfl
      | false =>
        have hseen : c.documents = (seen ++ [d]) ++ ds := by
          rw [hc, List.append_assoc, List.singleton_append]
        have hih := ih hseen
        rw [List.length_append, List.length_singleton] at hih
        simp only [hok, Bool.false_eq_true, if_false, hih]
        cases Collection.replaceFirst filter fs ds with
        | error e => rfl
        | ok r => simp only [Except.map, List.append_assoc, List.singleton_append]

theorem update_makes (name : String) (fresh filter document : Json) :
    Makes name ((Operation.update filter document).change name fresh)
      (update name filter document) := by
  intro s
  cases document with
  | object fs =>
    simp only [update, bind_apply, get_apply]
    cases hc : s.get? name with
    | none => simp only [pure_apply, Operation.change, commit_of_get? hc]
    | some c =>
      have happly := replaceFrom_apply filter fs hc (List.nil_append c.documents).symm
      rw [List.length_nil] at happly
      simp only [happly, Operation.change, Collection.update]
      cases Collection.replaceFirst filter fs c.documents with
      | error e => rfl
      | ok r => rfl
  | _ => rfl

theorem remove_makes (name : String) (fresh filter : Json) :
    Makes name ((Operation.remove filter).change name fresh) (remove name filter) := by
  intro s
  simp only [remove, bind_apply, get_apply]
  cases hc : s.get? name with
  | none => simp only [pure_apply, Operation.change, commit_of_get? hc]
  | some c =>
    simp only [bind_apply, lift_apply, Operation.change]
    cases c.remove filter with
    | error e => rfl
    | ok r => rfl

theorem createIndex_makes (name : String) (fresh keys : Json) :
    Makes name ((Operation.createIndex keys).change name fresh) (createIndex name keys) := by
  intro s
  simp only [createIndex, bind_apply, lift_apply, Operation.change]
  cases SortKey.ofOrder keys with
  | error e => rfl
  | ok ks => simp only [entry_apply, put_apply, pure_apply, commit_commit, Except.map]

theorem dropIndex_makes (name : String) (fresh keys : Json) :
    Makes name ((Operation.dropIndex keys).change name fresh) (dropIndex name keys) := by
  intro s
  simp only [dropIndex, bind_apply, get_apply]
  cases hc : s.get? name with
  | none => rfl
  | some c =>
    simp only [bind_apply, lift_apply, Operation.change]
    cases c.dropIndex keys with
    | error e => rfl
    | ok c => rfl

theorem dropIndexes_makes (name : String) (fresh : Json) :
    Makes name (Operation.dropIndexes.change name fresh) (dropIndexes name) := by
  intro s
  simp only [dropIndexes, bind_apply, get_apply, Operation.change]
  cases hc : s.get? name with
  | none => exact congrArg (Prod.mk _) (commit_of_get? hc).symm
  | some c => rfl

theorem indexNames_makes (name : String) (fresh : Json) :
    Makes name (Operation.indexNames.change name fresh) (indexNames name) := by
  intro s
  simp only [indexNames, bind_apply, get_apply, Operation.change, commit_get?]
  cases s.get? name with
  | none => rfl
  | some c => rfl

theorem perform_makes (name : String) (fresh : Json) (op : Operation α) :
    Makes name (op.change name fresh) (perform name fresh op) := by
  cases op with
  | insert document => exact insert_makes name fresh document
  | count filter => exact read_makes name (·.count filter)
  | find filter options => exact read_makes name (·.find filter options)
  | findOne filter => exact read_makes name (·.findOne filter)
  | update filter document => exact update_makes name fresh filter document
  | remove filter => exact remove_makes name fresh filter
  | drop => exact fun _ => rfl
  | createIndex keys => exact createIndex_makes name fresh keys
  | dropIndex keys => exact dropIndex_makes name fresh keys
  | dropIndexes => exact dropIndexes_makes name fresh
  | indexNames => exact indexNames_makes name fresh

/-- Every operation is local to its collection, and those that need not change it do not.
So operations on different collections may trade places. -/
theorem perform_local (name : String) (fresh : Json) (op : Operation α) :
    LocalTo name (perform name fresh op) ∧
      (op.onlyReads → ∀ s, (perform name fresh op s).2 = s) ∧
      (op.onlyEdits → ∀ s, s.get? name = none → (perform name fresh op s).2 = s) ∧
      ∀ {β : Type} (other : String) (fresh' : Json) (op' : Operation β), other ≠ name →
        Commute (perform name fresh op) (perform other fresh' op') := by
  have hmakes := perform_makes name fresh op
  refine ⟨hmakes.localTo, ?_, ?_, ?_⟩
  · intro hop s
    exact hmakes.unchanged fun _ _ hc => Operation.change_of_onlyReads hop hc
  · intro hop s hs
    refine hmakes.unchanged fun _ _ hc => ?_
    rw [hs] at hc ⊢
    exact Operation.change_of_onlyEdits hop hc
  · intro β other fresh' op' hne
    exact hmakes.localTo.commute (perform_makes other fresh' op').localTo hne

end

theorem perform_local_duplicate :
    let people := Store.empty.set "people" ⟨[.object [("_id", .string "a")]], []⟩
    let insertion := perform "people" .null (.insert (.object [("_id", .string "a")])) people
    (∃ e, insertion.1 = .error e) ∧ insertion.2 = people :=
  ⟨⟨_, rfl⟩, (perform_local "people" .null _).1.atomic _ _ rfl⟩

end Store.Effect

end DocQuery
