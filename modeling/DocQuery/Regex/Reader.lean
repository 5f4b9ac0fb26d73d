import DocQuery.Regex.Engine
import DocQuery.Regex.Token

/-! An engine to run with.  Groups are kept on a stack while their members are collected, and a
change of flags holds up to the end of its group. -/

namespace DocQuery.Regex

structure Frame where
  flags : Flags
  alternatives : List Regex
  -- latest first
  members : List Regex
  -- whether the latest member may be repeated
  repeatable : Bool

namespace Frame

def start (flags : Flags) : Frame := ⟨flags, [], [], false⟩

def push (f : Frame) (r : Regex) : Frame :=
  { f with members := r :: f.members, repeatable := true }

def current (f : Frame) : Regex := ofList f.members.reverse

def alternate (f : Frame) : Frame :=
  ⟨f.flags, f.current :: f.alternatives, [], false⟩

def close (f : Frame) : Regex := f.alternatives.foldl (fun r a => .alt a r) f.current

end Frame

namespace Flags

def plain : Flags := ⟨false, false, false, false, false⟩

def set (f : Flags) (a : CharSet) : Regex := .set (if f.ignoreCase then a.foldCase else a)

def lineEnds (f : Flags) : CharSet :=
  if f.dotAll then .nothing
  else if f.crlf then .union (.single '\r') (.single '\n')
  else .single '\n'

def caret (f : Flags) : Anchor :=
  if f.byLine then if f.crlf then .lineStartCrlf else .lineStart else .textStart

def dollar (f : Flags) : Anchor :=
  if f.byLine then if f.crlf then .lineEndCrlf else .lineEnd else .textEnd

end Flags

structure State where
  frame : Frame
  outer : List Frame
  names : List (List Char)

namespace State

def start : State := ⟨.start .plain, [], []⟩

def push (st : State) (r : Regex) : State := { st with frame := st.frame.push r }

def take (st : State) : Token → Except Fault State
  | .set a => .ok (st.push (st.frame.flags.set a))
  | .dot => .ok (st.push (.set (.complement st.frame.flags.lineEnds)))
  | .caret => .ok (st.push (.anchor st.frame.flags.caret))
  | .dollar => .ok (st.push (.anchor st.frame.flags.dollar))
  | .anchor a => .ok (st.push (.anchor a))
  | .opening name change =>
    if name.any st.names.contains then .error .repeatedName
    else .ok ⟨.start (change st.frame.flags), st.frame :: st.outer, name.toList ++ st.names⟩
  | .flags change =>
    .ok { st with frame := { st.frame with flags := change st.frame.flags, repeatable := false } }
  | .closing =>
    match st.outer with
    | f :: fs => .ok { st with frame := f.push st.frame.close, outer := fs }
    | [] => .error .unopenedGroup
  | .bar => .ok { st with frame := st.frame.alternate }
  | .repetition least most =>
    match st.frame.repeatable, st.frame.members with
    | true, r :: rs =>
      .ok { st with frame := { st.frame with members := .times r least most :: rs } }
    | _, _ => .error .missingOperand

def finish (st : State) : Except Fault Regex :=
  if st.outer.isEmpty then .ok st.frame.close else .error .unclosedGroup

end State

def read : Nat → List Char → State → Except Fault Regex
  | 0, _, st => st.finish
  | n + 1, s, st =>
    match ahead st.frame.flags.verbose s with
    | [] => st.finish
    | c :: s => do
      let (t, r) ← token st.frame.flags.verbose c s
      read n r (← st.take t)

def ofText (text : List Char) : Except Fault Regex := read text.length text .start

instance : Engine where
  Program := Regex
  compile text := (ofText text.toList).mapError Fault.text
  isMatch r text := r.isMatch text.toList

end DocQuery.Regex
