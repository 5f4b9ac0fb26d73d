import DocQuery.Query.Error
import DocQuery.Query.Words

namespace DocQuery.Query

structure Cursor where
  query : List Char
  rest : List Char

inductive Cursor.Step where
  | skipBlanks
  | advance (bytes : Nat)
  | current
  | isAtEnd
  | atKeyword (keyword : String)
  | eatKeyword (keyword : String)
  | word
  | takeUntil (stops : String)
  | position
  | query

inductive Cursor.Finding where
  | nothing
  | flag (value : Bool)
  | byte (value : Nat)
  | text (value : String)

def byteLength : List Char → Nat
  | [] => 0
  | c :: s => c.utf8Size + byteLength s

def dropBytes : Nat → List Char → List Char
  | _, [] => []
  | n, c :: s => if n = 0 then c :: s else dropBytes (n - c.utf8Size) s

def firstByte? (s : List Char) : Option Nat :=
  s.head?.bind fun c => (String.utf8EncodeChar c).head?.map UInt8.toNat

namespace Cursor

def start (query : String) : Cursor := ⟨query.toList, query.toList⟩

def offset (c : Cursor) : Nat := byteLength c.query - byteLength c.rest

def position (c : Cursor) : Position := ⟨String.ofList c.rest, String.ofList c.query⟩

def step (c : Cursor) : Step → Finding × Cursor
  | .skipBlanks => (.nothing, { c with rest := Query.skipBlanks c.rest })
  | .advance bytes => (.nothing, { c with rest := dropBytes bytes c.rest })
  | .current => (((firstByte? c.rest).map Finding.byte).getD .nothing, c)
  | .isAtEnd => (.flag c.rest.isEmpty, c)
  | .atKeyword keyword => (.flag (Query.atKeyword keyword.toList c.rest), c)
  | .eatKeyword keyword =>
    match afterKeyword? keyword.toList c.rest with
    | some rest => (.flag true, { c with rest })
    | none => (.flag false, c)
  | .word =>
    match wordBeforeSpace? c.rest with
    | some (word, rest) => (.text (String.ofList word), { c with rest })
    | none => (.nothing, c)
  | .takeUntil stops =>
    let (text, rest) := Query.takeUntil stops.toList c.rest
    (.text (String.ofList text), { c with rest })
  | .position => (.text c.position.text, c)
  | .query => (.text (String.ofList c.query), c)

def run (c : Cursor) : List Step → List (Finding × String)
  | [] => []
  | s :: ss =>
    let (finding, c) := c.step s
    (finding, String.ofList c.rest) :: run c ss

end Cursor

end DocQuery.Query
