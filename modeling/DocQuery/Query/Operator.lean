import DocQuery.Query.Expr
import DocQuery.Query.Literal

namespace DocQuery.Query

def keywordAnd : List Char := ['A', 'N', 'D']
def keywordOr : List Char := ['O', 'R']
def keywordNot : List Char := ['N', 'O', 'T']
def keywordNull : List Char := ['N', 'U', 'L', 'L']
def keywordLike : List Char := ['L', 'I', 'K', 'E']
def keywordIn : List Char := ['I', 'N']
def keywordIs : List Char := ['I', 'S']

def sameWord (v w : List Char) : Bool := v.map Char.toLower = w.map Char.toLower

def Operator.ofSymbol? : List Char → Option Operator
  | ['='] => some .eq
  | ['=', '='] => some .eq
  | ['!', '='] => some .ne
  | ['<', '>'] => some .ne
  | ['>'] => some (.compare .gt)
  | ['>', '='] => some (.compare .gte)
  | ['<'] => some (.compare .lt)
  | ['<', '='] => some (.compare .lte)
  | _ => none

def afterIs (s : List Char) : Reading Operator :=
  let s := skipBlanks s
  match afterKeyword? keywordNull s with
  | some r => ⟨.ok .isNull, r⟩
  | none =>
    match afterKeyword? keywordNot s with
    | some r =>
      let r := skipBlanks r
      match afterKeyword? keywordNull r with
      | some r => ⟨.ok .isNotNull, r⟩
      | none => .fail (.unsupportedQualifier .isNot) r r
    | none => .fail (.unsupportedQualifier .is) s s

def afterNot (s : List Char) : Reading Operator :=
  let s := skipBlanks s
  match afterKeyword? keywordLike s with
  | some r => ⟨.ok .notLike, r⟩
  | none =>
    match afterKeyword? keywordIn s with
    | some r => ⟨.ok .notIn, r⟩
    | none => .fail (.unsupportedQualifier .not) s s

def operator (s : List Char) : Reading Operator :=
  match wordBeforeSpace? s with
  | none => .fail (.missingSpace .operator) s s
  | some (word, r) =>
    match Operator.ofSymbol? word with
    | some o => ⟨.ok o, r⟩
    | none =>
      if sameWord keywordLike word then ⟨.ok .like, r⟩
      else if sameWord keywordIn word then ⟨.ok .isIn, r⟩
      else if sameWord keywordIs word then afterIs r
      else if sameWord keywordNot word then afterNot r
      else .fail .unsupportedOperator s r

theorem afterIs_suffix (s : List Char) : (afterIs s).rest <:+ s := by
  have h := skipBlanks_suffix s
  unfold afterIs
  dsimp only
  split
  · next hr => exact (afterKeyword?_suffix hr).trans h
  · split
    · next r hr =>
      have h' := (skipBlanks_suffix r).trans ((afterKeyword?_suffix hr).trans h)
      split
      · next ht => exact (afterKeyword?_suffix ht).trans h'
      · exact h'
    · exact h

theorem afterNot_suffix (s : List Char) : (afterNot s).rest <:+ s := by
  have h := skipBlanks_suffix s
  unfold afterNot
  dsimp only
  split
  · next hr => exact (afterKeyword?_suffix hr).trans h
  · split
    · next hr => exact (afterKeyword?_suffix hr).trans h
    · exact h

theorem operator_suffix (s : List Char) : (operator s).rest <:+ s := by
  unfold operator
  split
  · exact List.suffix_refl s
  · next word r hw =>
    have h := wordBeforeSpace?_suffix hw
    split
    · exact h
    · split
      · exact h
      · split
        · exact h
        · split
          · exact (afterIs_suffix r).trans h
          · split
            · exact (afterNot_suffix r).trans h
            · exact h

end DocQuery.Query
