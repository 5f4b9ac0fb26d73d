import DocQuery.Filter.Match
import DocQuery.Filter.Wildcard

/-! What is relied on of an engine.  Wildcard patterns are turned into texts that are made of a few
elements one after another, and a lawful engine compiles these and finds their matches. -/

namespace DocQuery

namespace Regex

inductive Element where
  | char (c : Char)
  | anyChar
  | anyRun
  | textStart
  | textEnd

def isSpecial (c : Char) : Bool := c = '?' || Filter.isMeta c

namespace Element

def text : Element → List Char
  | char c => if isSpecial c then ['\\', c] else [c]
  | anyChar => ['.']
  | anyRun => ['.', '*']
  | textStart => ['^']
  | textEnd => ['$']

def Takes (before piece after : List Char) : Element → Prop
  | char c => piece = [c]
  | anyChar => ∃ c, c ≠ '\n' ∧ piece = [c]
  | anyRun => '\n' ∉ piece
  | textStart => before = [] ∧ piece = []
  | textEnd => after = [] ∧ piece = []

end Element

def textOf (es : List Element) : String := String.ofList (es.flatMap Element.text)

/-- Elements that take pieces of a text one after another, beginning behind a part of it. -/
inductive Matches : List Char → List Element → List Char → Prop
  | nil {before after} : Matches before [] after
  | cons {before piece after e es} : e.Takes before piece after →
      Matches (before ++ piece) es after → Matches before (e :: es) (piece ++ after)

/-- Engines that compile texts of elements, up to the length that is read, and search for a match
anywhere.  A dot stands for all characters but a line feed, the anchors for the ends of the text
only, and a special character behind a backslash for itself. -/
class LawfulEngine [Engine] : Prop where
  compile_ok (es : List Element) : (textOf es).utf8ByteSize ≤ Filter.patternLimit →
    ∃ r, Engine.compile (textOf es) = .ok r
  isMatch_iff {es : List Element} {r : Engine.Program} : Engine.compile (textOf es) = .ok r →
    ∀ s : String, Engine.isMatch r s ↔
      ∃ before after, s.toList = before ++ after ∧ Matches before es after

theorem matches_cons {before after : List Char} {e : Element} {es : List Element} :
    Matches before (e :: es) after ↔
      ∃ piece rest, after = piece ++ rest ∧ e.Takes before piece rest ∧
        Matches (before ++ piece) es rest := by
  constructor
  · rintro (_ | ⟨htakes, hrest⟩)
    exact ⟨_, _, rfl, htakes, hrest⟩
  · rintro ⟨piece, rest, rfl, htakes, hrest⟩
    exact .cons htakes hrest

end Regex

namespace Filter

open Regex (Element)

def wildcardElement (c : Char) : Element :=
  if c = '%' then .anyRun else if c = '?' then .anyChar else .char c

def openingElement (pattern : List Char) : Element :=
  if pattern.head? = some '%' then .anyRun else .textStart

def closingElement (s : List Char) : Element :=
  if s.getLast? = some '%' then .anyRun else .textEnd

def wildcardElements (pattern : List Char) : List Element :=
  let s := (openWildcard pattern).2
  openingElement pattern :: ((closeWildcard s).1.map wildcardElement ++ [closingElement s])

theorem text_wildcardElement (c : Char) : (wildcardElement c).text = wildcardChar c := by
  unfold wildcardElement wildcardChar
  split
  · rfl
  · split
    · rfl
    · next hmark => simp [Element.text, Regex.isSpecial, hmark]

theorem text_openingElement (pattern : List Char) :
    (openingElement pattern).text = (openWildcard pattern).1 := by
  unfold openingElement openWildcard
  cases pattern with
  | nil => rfl
  | cons c pattern => split <;> simp_all [Element.text]

theorem text_closingElement (s : List Char) : (closingElement s).text = (closeWildcard s).2 := by
  unfold closingElement closeWildcard
  split <;> rfl

theorem regexOfWildcard_eq (pattern : String) :
    regexOfWildcard pattern = Regex.textOf (wildcardElements pattern.toList) := by
  simp [regexOfWildcard, Regex.textOf, wildcardElements, text_openingElement, text_closingElement,
    List.flatMap_map, text_wildcardElement]

end Filter

end DocQuery
