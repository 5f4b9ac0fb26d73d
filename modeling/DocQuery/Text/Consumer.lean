namespace DocQuery

/-- A reader that takes at least one character off the text whenever it succeeds. -/
structure Consumer (ε α : Type) where
  read : List Char → Except ε (α × List Char)
  shorter : ∀ {s a r}, read s = .ok (a, r) → r.length < s.length

theorem length_dropWhile_le (p : Char → Bool) (s : List Char) :
    (s.dropWhile p).length ≤ s.length :=
  (List.dropWhile_suffix p).length_le

end DocQuery
