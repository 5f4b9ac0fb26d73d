import DocQuery.Proofs.Elements
import DocQuery.Proofs.Matching
import DocQuery.Regex.Reader

namespace DocQuery.Regex

def notLineFeed : Regex := .set (.complement (.single '\n'))

def Element.expr : Element → Regex
  | char c => .set (.single c)
  | anyChar => notLineFeed
  | anyRun => .times notLineFeed 0 none
  | textStart => .anchor .textStart
  | textEnd => .anchor .textEnd

def State.pushAll (st : State) (rs : List Regex) : State :=
  { st with frame := rs.foldl Frame.push st.frame }

/-- The text of an expression is read as these members. -/
def Reads (s : List Char) (rs : List Regex) : Prop :=
  ∀ n, s.length ≤ n → ∀ st : State, st.frame.flags = .plain → read n s st = (st.pushAll rs).finish

theorem Reads.nil : Reads [] [] := by
  intro n _ st _
  cases n with
  | zero => rfl
  | succ n =>
    rw [read]
    cases st.frame.flags.verbose <;> rfl

theorem read_cons {n : Nat} {c : Char} {u s : List Char} {t : Token} {st next : State}
    (hst : st.frame.flags = .plain) (ht : token false c u = .ok (t, s))
    (htake : st.take t = .ok next) : read (n + 1) (c :: u) st = read n s next := by
  have hverbose : st.frame.flags.verbose = false := by
    rw [hst]
    rfl
  rw [read, hverbose]
  show ((token false c u).bind fun p => (st.take p.1).bind (read n p.2)) = _
  rw [ht]
  show (st.take t).bind (read n s) = _
  rw [htake]
  rfl

/-- While all flags are clear, a token stands for this expression. -/
def Token.Pushes (t : Token) (r : Regex) : Prop :=
  ∀ as rs b fs names, State.take ⟨⟨.plain, as, rs, b⟩, fs, names⟩ t =
    .ok (State.push ⟨⟨.plain, as, rs, b⟩, fs, names⟩ r)

theorem Token.Pushes.take_eq {t : Token} {r : Regex} (h : t.Pushes r) {st : State}
    (hst : st.frame.flags = .plain) : st.take t = .ok (st.push r) := by
  obtain ⟨⟨flags, as, rs, b⟩, fs, names⟩ := st
  obtain rfl : flags = .plain := hst
  exact h as rs b fs names

section

variable {s : List Char} {rs : List Regex}

theorem Reads.token {c : Char} {u : List Char} {t : Token} {r : Regex}
    (ht : Regex.token false c u = .ok (t, s)) (hu : s.length ≤ u.length)
    (hr : t.Pushes r) (h : Reads s rs) : Reads (c :: u) (r :: rs) := by
  intro n hn st hst
  cases n with
  | zero => simp at hn
  | succ n =>
    have hn : s.length ≤ n := Nat.le_trans hu (Nat.le_of_succ_le_succ hn)
    rw [read_cons hst ht (hr.take_eq hst)]
    exact h n hn (st.push r) hst

theorem skipPreference_eq (hs : s.head? ≠ some '?') : skipPreference s = s := by
  unfold skipPreference
  split
  · simp at hs
  · rfl

theorem Reads.run (h : Reads s rs) (hs : s.head? ≠ some '?') :
    Reads ('.' :: '*' :: s) (Element.expr .anyRun :: rs) := by
  intro n hn st hst
  match n, hn with
  | n + 2, hn =>
    have hn : s.length ≤ n := Nat.le_of_succ_le_succ (Nat.le_of_succ_le_succ hn)
    have hdot : Token.dot.Pushes notLineFeed := fun _ _ _ _ _ => rfl
    -- a question mark behind the star would be taken along
    have hstar : Regex.token false '*' s = .ok (.repetition 0 none, s) :=
      congrArg (fun s => Except.ok (_, s)) (skipPreference_eq hs)
    have hrun : (st.push notLineFeed).take (.repetition 0 none) =
        .ok (st.push (Element.expr .anyRun)) := rfl
    have hpushed : (st.push notLineFeed).frame.flags = .plain := hst
    rw [read_cons hst rfl (hdot.take_eq hst), read_cons hpushed hstar hrun]
    exact h n hn (st.push (Element.expr .anyRun)) hst

theorem token_of_not_isSpecial {c : Char} (hc : ¬ isSpecial c) (s : List Char) :
    token false c s = .ok (.set (.single c), s) := by
  unfold token
  split <;> simp_all [isSpecial, Filter.isMeta]

theorem token_of_isSpecial {c : Char} (hc : isSpecial c) (s : List Char) :
    token false '\\' (c :: s) = .ok (.set (.single c), s) := by
  simp only [isSpecial, Filter.isMeta, List.contains_eq_mem, List.mem_cons, List.not_mem_nil,
    or_false, Bool.or_eq_true, decide_eq_true_eq] at hc
  rcases hc with rfl | rfl | rfl | rfl | rfl | rfl | rfl | rfl | rfl | rfl | rfl | rfl | rfl | rfl
    <;> rfl

theorem Reads.element (h : Reads s rs) (hs : s.head? ≠ some '?') (e : Element) :
    Reads (e.text ++ s) (e.expr :: rs) := by
  cases e with
  | char c =>
    have hsingle : (Token.set (.single c)).Pushes (.set (.single c)) := fun _ _ _ _ _ => rfl
    rw [Element.text]
    split
    · next hc => exact h.token (token_of_isSpecial hc s) (Nat.le_succ _) hsingle
    · next hc => exact h.token (token_of_not_isSpecial hc s) (Nat.le_refl _) hsingle
  | anyChar => exact h.token rfl (Nat.le_refl _) fun _ _ _ _ _ => rfl
  | anyRun => exact h.run hs
  | textStart => exact h.token rfl (Nat.le_refl _) fun _ _ _ _ _ => rfl
  | textEnd => exact h.token rfl (Nat.le_refl _) fun _ _ _ _ _ => rfl

end

theorem head?_text (e : Element) (s : List Char) : (e.text ++ s).head? ≠ some '?' := by
  cases e with
  | char c =>
    rw [Element.text]
    split <;> simp_all [isSpecial]
  | _ => simp [Element.text]

theorem reads_elements (es : List Element) :
    Reads (es.flatMap Element.text) (es.map Element.expr) ∧
      (es.flatMap Element.text).head? ≠ some '?' := by
  induction es with
  | nil => exact ⟨.nil, by simp⟩
  | cons e es ih => exact ⟨ih.1.element ih.2 e, head?_text e _⟩

theorem members_foldl_push (rs : List Regex) (f : Frame) :
    (rs.foldl Frame.push f).members = rs.reverse ++ f.members ∧
      (rs.foldl Frame.push f).alternatives = f.alternatives := by
  induction rs generalizing f with
  | nil => simp
  | cons r rs ih => simp [ih, Frame.push]

theorem ofText_textOf (es : List Element) :
    ofText (textOf es).toList = .ok (ofList (es.map Element.expr)) := by
  have hread := (reads_elements es).1 _ (Nat.le_refl _) .start rfl
  obtain ⟨hmembers, halternatives⟩ := members_foldl_push (es.map Element.expr) (.start .plain)
  rw [textOf, String.toList_ofList, ofText, hread]
  show Except.ok ((es.map Element.expr).foldl Frame.push (.start .plain)).close = _
  rw [Frame.close, halternatives, Frame.current, hmembers]
  simp [Frame.start]

section

variable {before after : List Char} {j : Nat}

theorem getElem?_append_length : (before ++ after)[before.length]? = after.head? := by
  rw [List.getElem?_append_right (Nat.le_refl _), Nat.sub_self, List.head?_eq_getElem?]

theorem spans_set {s : CharSet} :
    (Regex.set s).Spans (before ++ after) before.length j ↔
      ∃ c rest, after = c :: rest ∧ s.contains c ∧ j = before.length + 1 := by
  rw [Spans, getElem?_append_length]
  cases after with
  | nil => simp
  | cons c rest => simp

theorem contains_notLineFeed {c : Char} :
    (CharSet.complement (.single '\n')).contains c ↔ c ≠ '\n' := by
  simp [CharSet.contains, Ne, eq_comm (a := c)]

theorem chain_notLineFeed {n : Nat} :
    Chain (notLineFeed.Spans (before ++ after)) n before.length j ↔
      ∃ piece rest, after = piece ++ rest ∧ '\n' ∉ piece ∧ piece.length = n ∧
        j = before.length + n := by
  induction n generalizing before after with
  | zero =>
    constructor
    · rintro ⟨⟩
      exact ⟨[], after, rfl, by simp, rfl, rfl⟩
    · rintro ⟨_, _, _, _, _, rfl⟩
      exact .nil
  | succ n ih =>
    have hstep : ∀ c rest, before ++ c :: rest = (before ++ [c]) ++ rest := by simp
    constructor
    · rintro (_ | ⟨hl, hc⟩)
      obtain ⟨c, rest, rfl, hne, rfl⟩ := spans_set.1 hl
      rw [hstep, show before.length + 1 = (before ++ [c]).length by simp] at hc
      obtain ⟨piece, rest, rfl, hno, rfl, rfl⟩ := ih.1 hc
      refine ⟨c :: piece, rest, rfl, ?_, rfl, by simp; omega⟩
      simp [hno, Ne.symm (contains_notLineFeed.1 hne)]
    · rintro ⟨_ | ⟨c, piece⟩, rest, rfl, hno, hn, rfl⟩
      · contradiction
      simp only [List.mem_cons, not_or, List.length_cons, Nat.add_right_cancel_iff] at hno hn
      refine .cons (spans_set.2 ⟨c, _, rfl, contains_notLineFeed.2 (Ne.symm hno.1), rfl⟩) ?_
      rw [List.cons_append, hstep, show before.length + 1 = (before ++ [c]).length by simp]
      exact ih.2 ⟨piece, rest, rfl, hno.2, hn, by simp; omega⟩

theorem spans_element {e : Element} :
    e.expr.Spans (before ++ after) before.length j ↔
      ∃ piece rest, after = piece ++ rest ∧ e.Takes before piece rest ∧
        j = before.length + piece.length := by
  cases e with
  | char c =>
    refine spans_set.trans ⟨?_, ?_⟩
    · rintro ⟨d, rest, rfl, hd, rfl⟩
      have hd : d = c := by simpa [CharSet.contains, eq_comm] using hd
      exact ⟨[d], rest, rfl, by rw [hd]; rfl, rfl⟩
    · rintro ⟨_, rest, rfl, rfl, rfl⟩
      exact ⟨c, rest, rfl, by simp [CharSet.contains], rfl⟩
  | anyChar =>
    refine spans_set.trans ⟨?_, ?_⟩
    · rintro ⟨c, rest, rfl, hc, rfl⟩
      exact ⟨[c], rest, rfl, ⟨c, contains_notLineFeed.1 hc, rfl⟩, rfl⟩
    · rintro ⟨_, rest, rfl, ⟨c, hc, rfl⟩, rfl⟩
      exact ⟨c, rest, rfl, contains_notLineFeed.2 hc, rfl⟩
  | anyRun =>
    simp only [Element.expr, Spans, chain_notLineFeed]
    constructor
    · rintro ⟨_, _, _, piece, rest, rfl, hno, rfl, rfl⟩
      exact ⟨piece, rest, rfl, hno, rfl⟩
    · rintro ⟨piece, rest, rfl, hno, rfl⟩
      exact ⟨piece.length, Nat.zero_le _, by simp, piece, rest, rfl, hno, rfl, rfl⟩
  | textStart =>
    have hstart : (before? none (before ++ after) before.length).isNone ↔ before = [] := by
      cases before with
      | nil => simp [before?]
      | cons c before =>
        have hlt : before.length < (c :: before ++ after).length := by
          rw [List.length_append, List.length_cons]
          omega
        rw [List.length_cons, before?, List.getElem?_eq_getElem hlt]
        simp
    simp only [Element.expr, Spans, Anchor.holds, hstart]
    constructor
    · rintro ⟨_, hbefore, rfl⟩
      exact ⟨[], after, rfl, ⟨hbefore, rfl⟩, rfl⟩
    · rintro ⟨_, rest, rfl, ⟨hbefore, rfl⟩, rfl⟩
      exact ⟨by simp, hbefore, rfl⟩
  | textEnd =>
    simp only [Element.expr, Spans, Anchor.holds, getElem?_append_length,
      Option.isNone_iff_eq_none, List.head?_eq_none_iff]
    constructor
    · rintro ⟨_, hafter, rfl⟩
      exact ⟨[], after, rfl, ⟨hafter, rfl⟩, rfl⟩
    · rintro ⟨_, rest, rfl, ⟨rfl, rfl⟩, rfl⟩
      exact ⟨by simp, rfl, rfl⟩

theorem spans_elements {es : List Element} :
    (∃ j, (ofList (es.map Element.expr)).Spans (before ++ after) before.length j) ↔
      Matches before es after := by
  induction es generalizing before after with
  | nil => exact ⟨fun _ => .nil, fun _ => ⟨_, rfl⟩⟩
  | cons e es ih =>
    rw [matches_cons]
    constructor
    · rintro ⟨j, k, he, hes⟩
      obtain ⟨piece, rest, rfl, htakes, rfl⟩ := spans_element.1 he
      rw [← List.append_assoc, ← List.length_append] at hes
      exact ⟨piece, rest, rfl, htakes, ih.1 ⟨j, hes⟩⟩
    · rintro ⟨piece, rest, rfl, htakes, hrest⟩
      obtain ⟨j, hes⟩ := ih.2 hrest
      rw [List.append_assoc, List.length_append] at hes
      exact ⟨j, _, spans_element.2 ⟨piece, rest, rfl, htakes, rfl⟩, hes⟩

end

theorem compile_textOf (es : List Element) :
    Engine.compile (textOf es) = .ok (ofList (es.map Element.expr)) := by
  show (ofText (textOf es).toList).mapError Fault.text = _
  rw [ofText_textOf]
  rfl

theorem isMatch_elements (es : List Element) (text : List Char) :
    (ofList (es.map Element.expr)).isMatch text ↔
      ∃ before after, text = before ++ after ∧ Matches before es after := by
  rw [isMatch_iff]
  constructor
  · rintro ⟨i, j, hi, hspans⟩
    refine ⟨text.take i, text.drop i, (List.take_append_drop i text).symm, spans_elements.1 ⟨j, ?_⟩⟩
    rwa [List.take_append_drop, List.length_take_of_le hi]
  · rintro ⟨before, after, rfl, hmatches⟩
    obtain ⟨j, hspans⟩ := spans_elements.2 hmatches
    exact ⟨before.length, j, by simp, hspans⟩

instance : LawfulEngine where
  compile_ok es _ := ⟨_, compile_textOf es⟩
  isMatch_iff {es r} hr s := by
    cases (compile_textOf es).symm.trans hr
    exact isMatch_elements es s.toList

end DocQuery.Regex
