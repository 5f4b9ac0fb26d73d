namespace DocQuery.Query

def skipBlanks (s : List Char) : List Char := s.dropWhile (· = ' ')

def endsKeyword : List Char → Bool
  | [] => true
  | c :: _ => c = ' ' || c = '(' || c = ')'

def afterKeyword? : List Char → List Char → Option (List Char)
  | [], s => if endsKeyword s then some s else none
  | _ :: _, [] => none
  | k :: ks, c :: s => if k.toLower = c.toLower then afterKeyword? ks s else none

def atKeyword (keyword s : List Char) : Bool := (afterKeyword? keyword s).isSome

def takeUntil (stops s : List Char) : List Char × List Char :=
  (s.takeWhile (!stops.contains ·), s.dropWhile (!stops.contains ·))

def wordBeforeSpace? (s : List Char) : Option (List Char × List Char) :=
  let split := takeUntil [' '] s
  if split.1.isEmpty || split.2.isEmpty then none else some split

theorem skipBlanks_suffix (s : List Char) : skipBlanks s <:+ s := List.dropWhile_suffix _

theorem takeUntil_suffix (stops s : List Char) : (takeUntil stops s).2 <:+ s :=
  List.dropWhile_suffix _

theorem takeUntil_append (stops s : List Char) :
    (takeUntil stops s).1 ++ (takeUntil stops s).2 = s :=
  List.takeWhile_append_dropWhile

theorem afterKeyword?_suffix {keyword s r : List Char} (h : afterKeyword? keyword s = some r) :
    r <:+ s := by
  induction keyword generalizing s with
  | nil =>
    rw [afterKeyword?] at h
    split at h
    · cases h
      exact List.suffix_refl _
    · contradiction
  | cons k ks ih =>
    cases s with
    | nil => simp [afterKeyword?] at h
    | cons c s =>
      rw [afterKeyword?] at h
      split at h
      · exact (ih h).trans (List.suffix_cons c s)
      · contradiction

theorem wordBeforeSpace?_suffix {s word r : List Char} (h : wordBeforeSpace? s = some (word, r)) :
    r <:+ s := by
  simp only [wordBeforeSpace?] at h
  split at h
  · contradiction
  · have := takeUntil_suffix [' '] s
    rwa [Option.some.inj h] at this

theorem length_wordBeforeSpace?_lt {s word r : List Char}
    (h : wordBeforeSpace? s = some (word, r)) : r.length < s.length := by
  simp only [wordBeforeSpace?] at h
  split at h
  · contradiction
  · next hne =>
    have happ := congrArg List.length (takeUntil_append [' '] s)
    rw [Option.some.inj h] at happ hne
    have : word.length ≠ 0 := by
      intro hz
      simp [List.length_eq_zero_iff.1 hz] at hne
    simp only [List.length_append] at happ
    omega

end DocQuery.Query
