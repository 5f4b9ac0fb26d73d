import DocQuery.Json.Numeral
import DocQuery.Text.Consumer

namespace DocQuery.Json

def isSpace (c : Char) : Bool :=
  c = ' ' || c = '\n' || c = '\t' || c = '\r'

def skipSpace (s : List Char) : List Char := s.dropWhile isSpace

theorem length_skipSpace_le (s : List Char) : (skipSpace s).length ≤ s.length :=
  length_dropWhile_le isSpace s

def hexValue? (c : Char) : Option Nat :=
  if '0' ≤ c ∧ c ≤ '9' then some (c.toNat - '0'.toNat)
  else if 'a' ≤ c ∧ c ≤ 'f' then some (c.toNat - 'a'.toNat + 10)
  else if 'A' ≤ c ∧ c ≤ 'F' then some (c.toNat - 'A'.toNat + 10)
  else none

def unit? (a b c d : Char) : Option Nat := do
  return (((← hexValue? a) * 16 + (← hexValue? b)) * 16 + (← hexValue? c)) * 16 + (← hexValue? d)

def isHighSurrogate (u : Nat) : Bool := 0xD800 ≤ u && u < 0xDC00

def isLowSurrogate (u : Nat) : Bool := 0xDC00 ≤ u && u < 0xE000

def shortEscape? : Char → Option Char
  | '"' => some '"'
  | '\\' => some '\\'
  | '/' => some '/'
  | 'b' => some '\x08'
  | 'f' => some '\x0c'
  | 'n' => some '\n'
  | 'r' => some '\r'
  | 't' => some '\t'
  | _ => none

-- surrogates must come in pairs, and control characters must be escaped
def quoted? : List Char → Option (List Char × List Char)
  | '"' :: s => some ([], s)
  | '\\' :: 'u' :: a :: b :: c :: d :: '\\' :: 'u' :: e :: f :: g :: h :: s =>
    match unit? a b c d with
    | none => none
    | some u =>
      if isLowSurrogate u then none
      else if isHighSurrogate u then
        match unit? e f g h with
        | none => none
        | some v =>
          if isLowSurrogate v then
            (quoted? s).map fun (cs, r) =>
              (Char.ofNat (0x10000 + (u - 0xD800) * 0x400 + (v - 0xDC00)) :: cs, r)
          else none
      else (quoted? ('\\' :: 'u' :: e :: f :: g :: h :: s)).map fun (cs, r) => (Char.ofNat u :: cs, r)
  | '\\' :: 'u' :: a :: b :: c :: d :: s =>
    match unit? a b c d with
    | none => none
    | some u =>
      if isLowSurrogate u || isHighSurrogate u then none
      else (quoted? s).map fun (cs, r) => (Char.ofNat u :: cs, r)
  | '\\' :: c :: s =>
    (shortEscape? c).bind fun c => (quoted? s).map fun (cs, r) => (c :: cs, r)
  | c :: s =>
    if c = '\\' || c.toNat < 0x20 then none
    else (quoted? s).map fun (cs, r) => (c :: cs, r)
  | [] => none

def moreItems (v : Consumer Unit Json) (s : List Char) : Except Unit (List Json × List Char) :=
  match _h : skipSpace s with
  | ']' :: r => .ok ([], r)
  | ',' :: r =>
    match _h' : v.read r with
    | .ok (x, r') => (moreItems v r').map fun (xs, r) => (x :: xs, r)
    | .error e => .error e
  | _ => .error ()
termination_by s.length
decreasing_by
  have h₁ := v.shorter _h'
  have h₂ := length_skipSpace_le s
  rw [_h, List.length_cons] at h₂
  omega

theorem length_moreItems_lt {v : Consumer Unit Json} {s : List Char} {xs : List Json}
    {r : List Char} (h : moreItems v s = .ok (xs, r)) : r.length < s.length := by
  fun_induction moreItems v s generalizing xs r with
  | case1 s t hs =>
    have := length_skipSpace_le s
    grind
  | case2 s t hs x u hv ih =>
    have h₁ := length_skipSpace_le s
    have h₂ := v.shorter hv
    cases hm : moreItems v u with
    | error e => simp [hm, Except.map] at h
    | ok m =>
      obtain ⟨ys, w⟩ := m
      have h₃ := ih hm
      simp_all [Except.map]
      omega
  | case3 => simp_all
  | case4 => simp_all

def items (v : Consumer Unit Json) (s : List Char) : Except Unit (List Json × List Char) :=
  match skipSpace s with
  | ']' :: r => .ok ([], r)
  | s =>
    match v.read s with
    | .ok (x, r) => (moreItems v r).map fun (xs, r) => (x :: xs, r)
    | .error e => .error e

theorem length_items_lt {v : Consumer Unit Json} {s : List Char} {xs : List Json}
    {r : List Char} (h : items v s = .ok (xs, r)) : r.length < s.length := by
  have h₁ := length_skipSpace_le s
  rw [items] at h
  split at h
  · grind
  · split at h <;> try contradiction
    next x u hv =>
      have h₂ := v.shorter hv
      cases hm : moreItems v u with
      | error e => simp [hm, Except.map] at h
      | ok m =>
        have h₃ := length_moreItems_lt hm
        simp_all [Except.map]
        omega

def field (v : Consumer Unit Json) (s : List Char) : Except Unit ((String × Json) × List Char) :=
  match skipSpace s with
  | '"' :: s =>
    match quoted? s with
    | some (k, s) =>
      match skipSpace s with
      | ':' :: s =>
        match v.read s with
        | .ok (x, r) => .ok ((String.ofList k, x), r)
        | .error e => .error e
      | _ => .error ()
    | none => .error ()
  | _ => .error ()

theorem length_quoted?_lt {s cs r : List Char} (h : quoted? s = some (cs, r)) :
    r.length < s.length := by
  fun_induction quoted? s generalizing cs r <;>
    simp_all [Option.map_eq_some_iff, Option.bind_eq_some_iff] <;> grind

theorem length_field_lt {v : Consumer Unit Json} {s : List Char} {f : String × Json}
    {r : List Char} (h : field v s = .ok (f, r)) : r.length < s.length := by
  have h₁ := length_skipSpace_le s
  rw [field] at h
  split at h <;> try contradiction
  next t ht =>
    split at h <;> try contradiction
    next k u hq =>
      have h₂ := length_quoted?_lt hq
      have h₃ := length_skipSpace_le u
      split at h <;> try contradiction
      next w hc =>
        split at h <;> try contradiction
        next x y hv =>
          have h₄ := v.shorter hv
          simp_all
          omega

def moreFields (v : Consumer Unit Json) (s : List Char) :
    Except Unit (List (String × Json) × List Char) :=
  match _h : skipSpace s with
  | '\x7d' :: r => .ok ([], r)
  | ',' :: r =>
    match _h' : field v r with
    | .ok (f, r') => (moreFields v r').map fun (fs, r) => (f :: fs, r)
    | .error e => .error e
  | _ => .error ()
termination_by s.length
decreasing_by
  have h₁ := length_field_lt _h'
  have h₂ := length_skipSpace_le s
  rw [_h, List.length_cons] at h₂
  omega

theorem length_moreFields_lt {v : Consumer Unit Json} {s : List Char}
    {fs : List (String × Json)} {r : List Char} (h : moreFields v s = .ok (fs, r)) :
    r.length < s.length := by
  fun_induction moreFields v s generalizing fs r with
  | case1 s t hs =>
    have := length_skipSpace_le s
    grind
  | case2 s t hs x u hv ih =>
    have h₁ := length_skipSpace_le s
    have h₂ := length_field_lt hv
    cases hm : moreFields v u with
    | error e => simp [hm, Except.map] at h
    | ok m =>
      obtain ⟨ys, w⟩ := m
      have h₃ := ih hm
      simp_all [Except.map]
      omega
  | case3 => simp_all
  | case4 => simp_all

def fields (v : Consumer Unit Json) (s : List Char) :
    Except Unit (List (String × Json) × List Char) :=
  match skipSpace s with
  | '\x7d' :: r => .ok ([], r)
  | s =>
    match field v s with
    | .ok (f, r) => (moreFields v r).map fun (fs, r) => (f :: fs, r)
    | .error e => .error e

theorem length_fields_lt {v : Consumer Unit Json} {s : List Char} {fs : List (String × Json)}
    {r : List Char} (h : fields v s = .ok (fs, r)) : r.length < s.length := by
  have h₁ := length_skipSpace_le s
  rw [fields] at h
  split at h
  · grind
  · split at h <;> try contradiction
    next x u hf =>
      have h₂ := length_field_lt hf
      cases hm : moreFields v u with
      | error e => simp [hm, Except.map] at h
      | ok m =>
        have h₃ := length_moreFields_lt hm
        simp_all [Except.map]
        omega

/-- A value in front of the text.  The values inside it are read by `inner`;
without one, there may be none. -/
def value (inner : Option (Consumer Unit Json)) (s : List Char) : Except Unit (Json × List Char) :=
  match skipSpace s with
  | 'n' :: 'u' :: 'l' :: 'l' :: r => .ok (null, r)
  | 't' :: 'r' :: 'u' :: 'e' :: r => .ok (bool true, r)
  | 'f' :: 'a' :: 'l' :: 's' :: 'e' :: r => .ok (bool false, r)
  | '"' :: r =>
    match quoted? r with
    | some (cs, r) => .ok (string (String.ofList cs), r)
    | none => .error ()
  | '[' :: r =>
    match inner with
    | some v => (items v r).map fun (xs, r) => (array xs, r)
    | none => .error ()
  | '\x7b' :: r =>
    match inner with
    | some v => (fields v r).map fun (fs, r) => (object (Fields.ofList fs), r)
    | none => .error ()
  | s =>
    match Numeral.read? s with
    | some (n, r) => .ok (number n, r)
    | none => .error ()

theorem length_value_lt {inner : Option (Consumer Unit Json)} {s : List Char} {x : Json}
    {r : List Char} (h : value inner s = .ok (x, r)) : r.length < s.length := by
  have h₁ := length_skipSpace_le s
  rw [value] at h
  split at h
  case h_4 u hu =>
    split at h <;> try contradiction
    next cs w hq =>
      have h₂ := length_quoted?_lt hq
      simp_all
      omega
  case h_5 u hu =>
    split at h <;> try contradiction
    next v =>
      cases hm : items v u with
      | error e => simp [hm, Except.map] at h
      | ok m =>
        have h₂ := length_items_lt hm
        simp_all [Except.map]
        omega
  case h_6 u hu =>
    split at h <;> try contradiction
    next v =>
      cases hm : fields v u with
      | error e => simp [hm, Except.map] at h
      | ok m =>
        have h₂ := length_fields_lt hm
        simp_all [Except.map]
        omega
  case h_7 =>
    split at h <;> try contradiction
    next n w hn =>
      have h₂ := Numeral.length_read?_lt hn
      simp_all
      omega
  all_goals
    simp_all
    omega

def nestingLimit : Nat := 127

def valueWithin : Nat → Consumer Unit Json
  | 0 => ⟨value none, length_value_lt⟩
  | levels + 1 => ⟨value (some (valueWithin levels)), length_value_lt⟩

def ofText? (text : String) : Option Json :=
  match (valueWithin nestingLimit).read text.toList with
  | .ok (v, r) => if (skipSpace r).isEmpty then some v else none
  | .error _ => none

end DocQuery.Json
