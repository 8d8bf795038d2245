import CommandLine.Proofs.Division
import CommandLine.Proofs.Quoting
import Mathlib.Order.Bounds.Defs

/-!
# Words by one automaton

Four readings of a word go through its quotes and escapes, each on its own: how far it reaches,
whether a quote is opened in it, what it stands for and what it leaves open. One automaton over the
quoting states does all of this, a character at a time, and the four agree with it.

* `Word.State.run`, `Word.State.output` — where the automaton gets along some characters, and what
  it writes.
* `Word.State.MayEnd`, `Word.State.Enters` — where a word may end, and whether it enters a quote.
* `Word.isLeast_extent`, `Word.isQuoted_iff`, `Word.render_eq_output`, `Word.unclosed_eq` — the four
  readings.
* `Token.word_by_automaton` — the words of a region.
-/

namespace CommandLine

namespace Word

namespace State

/-- What a character adds to the text of the word. -/
def emit : State → Char → Text
  | plain, c => if c = '\'' ∨ c = '"' ∨ c = '\\' then [] else [c]
  | single, c => if c = '\'' then [] else [c]
  | double, c => if c = '"' ∨ c = '\\' then [] else [c]
  | escape, c => if c = '\n' then [] else [c]
  | doubleEscape, c =>
    if c = '\n' then []
    else if c = '"' ∨ c = '\\' ∨ c = '$' ∨ c = '\x60' then [c]
    else ['\\', c]

/-- What the end of the characters adds: a backslash that escapes nothing stands for itself. -/
def finish : State → Text
  | escape | doubleEscape => ['\\']
  | plain | single | double => []

/-- The state after some characters. -/
def run (s : State) (cs : Text) : State := cs.foldl step s

/-- The text of some characters that are read to their end. -/
def output : State → Text → Text
  | s, [] => s.finish
  | s, c :: cs => s.emit c ++ output (s.step c) cs

/-- Whether a state lies inside quotes. -/
def inQuotes : State → Bool
  | single | double | doubleEscape => true
  | plain | escape => false

/-- What is left open where the characters end in a state. -/
def open? : State → Option Unclosed
  | plain => none
  | single => some .single
  | double | doubleEscape => some .double
  | escape => some .escape

@[simp] theorem run_nil (s : State) : s.run [] = s := rfl

@[simp] theorem run_cons (s : State) (c : Char) (cs : Text) :
    s.run (c :: cs) = (s.step c).run cs := rfl

theorem run_append (s : State) (cs ds : Text) : s.run (cs ++ ds) = (s.run cs).run ds :=
  List.foldl_append

/-- A word may end after some characters if there are no others, or if the reader is outside quotes
and the next character ends a word. -/
def MayEnd (s : State) (cs : Text) (n : Nat) : Prop :=
  n = cs.length ∨ (s.run (cs.take n) = plain ∧ ∃ c ∈ cs[n]?, endsWord c)

theorem mayEnd_zero {s : State} {c : Char} {cs : Text} :
    s.MayEnd (c :: cs) 0 ↔ s = plain ∧ endsWord c := by
  simp [MayEnd]

theorem mayEnd_succ {s : State} {c : Char} {cs : Text} {n : Nat} :
    s.MayEnd (c :: cs) (n + 1) ↔ (s.step c).MayEnd cs n := by
  simp [MayEnd]

/-- A quote is entered along some characters if the reader is inside quotes after a number of
them. -/
def Enters (s : State) (cs : Text) : Prop := ∃ n ≤ cs.length, (s.run (cs.take n)).inQuotes

theorem enters_nil {s : State} : s.Enters [] ↔ s.inQuotes := by
  simp [Enters]

theorem enters_cons {s : State} {c : Char} {cs : Text} :
    s.Enters (c :: cs) ↔ s.inQuotes ∨ (s.step c).Enters cs := by
  constructor
  · rintro ⟨n, hn, hquotes⟩
    cases n with
    | zero => exact .inl hquotes
    | succ n => exact .inr ⟨n, Nat.le_of_succ_le_succ hn, hquotes⟩
  · rintro (hquotes | ⟨n, hn, hquotes⟩)
    · exact ⟨0, Nat.zero_le _, hquotes⟩
    · exact ⟨n + 1, Nat.succ_le_succ hn, hquotes⟩

end State

open State

/-! ## How far a word reaches -/

theorem isLeast_extentFrom (s : State) (cs : Text) :
    IsLeast {n | s.MayEnd cs n} (extentFrom s cs) := by
  induction cs generalizing s with
  | nil =>
    rw [extentFrom_nil]
    exact ⟨.inl rfl, fun n _ => Nat.zero_le n⟩
  | cons c cs ih =>
    rw [extentFrom_cons]
    by_cases hend : s = .plain ∧ endsWord c
    · rw [if_pos hend]
      exact ⟨mayEnd_zero.mpr hend, fun n _ => Nat.zero_le n⟩
    · obtain ⟨hmem, hleast⟩ := ih (s.step c)
      rw [if_neg hend]
      refine ⟨mayEnd_succ.mpr hmem, fun n hn => ?_⟩
      cases n with
      | zero => exact absurd (mayEnd_zero.mp hn) hend
      | succ n => exact Nat.succ_le_succ (hleast (mayEnd_succ.mp hn))

/-- **A word reaches to the first place where it may end.** -/
theorem isLeast_extent (cs : Text) : IsLeast {n | State.plain.MayEnd cs n} (extent cs) :=
  isLeast_extentFrom .plain cs

/-! ## Whether a quote is opened -/

/-- Whether a quote is opened in the rest of a word, or open from the start. -/
def isQuotedFrom : State → Text → Bool
  | .plain, cs => isQuoted cs
  | .escape, cs => isQuoted cs.tail
  | _, _ => true

theorem isQuotedFrom_cons (s : State) (c : Char) (cs : Text) :
    isQuotedFrom s (c :: cs) = (s.inQuotes || isQuotedFrom (s.step c) cs) := by
  cases s with
  | plain =>
    by_cases hs : c = '\''
    · subst hs
      simp [isQuotedFrom, isQuoted, State.step, inQuotes]
    · by_cases hd : c = '"'
      · subst hd
        simp [isQuotedFrom, isQuoted, State.step, inQuotes]
      · by_cases he : c = '\\'
        · subst he
          cases cs <;> simp [isQuotedFrom, isQuoted, State.step, inQuotes]
        · simp [isQuotedFrom, isQuoted, State.step, inQuotes, hs, hd, he]
  | escape => simp [isQuotedFrom, State.step, inQuotes]
  | _ => simp [isQuotedFrom, inQuotes]

theorem isQuotedFrom_iff (s : State) (cs : Text) : isQuotedFrom s cs ↔ s.Enters cs := by
  induction cs generalizing s with
  | nil =>
    rw [enters_nil]
    cases s <;> simp [isQuotedFrom, isQuoted, inQuotes]
  | cons c cs ih => rw [isQuotedFrom_cons, enters_cons, Bool.or_eq_true, ih]

/-- **A word is quoted** if the automaton enters a quote along it. -/
theorem isQuoted_iff (cs : Text) : isQuoted cs ↔ State.plain.Enters cs :=
  isQuotedFrom_iff .plain cs

/-! ## What a word stands for -/

/-- The text of the rest of a word from a state on. -/
def renderFrom : State → Text → Text
  | .plain, cs => render cs
  | .single, cs => renderSingle cs
  | .double, cs => renderDouble cs
  | .escape, cs => render ('\\' :: cs)
  | .doubleEscape, cs => renderDouble ('\\' :: cs)

theorem renderFrom_nil (s : State) : renderFrom s [] = s.finish := by
  cases s <;> simp [renderFrom, render, renderSingle, renderDouble, finish]

theorem renderFrom_cons (s : State) (c : Char) (cs : Text) :
    renderFrom s (c :: cs) = s.emit c ++ renderFrom (s.step c) cs := by
  cases s with
  | plain =>
    by_cases hs : c = '\''
    · subst hs
      simp [renderFrom, render, State.step, emit]
    · by_cases hd : c = '"'
      · subst hd
        simp [renderFrom, render, State.step, emit]
      · by_cases he : c = '\\'
        · subst he
          simp [renderFrom, State.step, emit]
        · simp [renderFrom, render, State.step, emit, hs, hd, he]
  | single =>
    by_cases hs : c = '\''
    · subst hs
      simp [renderFrom, renderSingle, State.step, emit]
    · simp [renderFrom, renderSingle, State.step, emit, hs]
  | double =>
    by_cases hd : c = '"'
    · subst hd
      simp [renderFrom, renderDouble, State.step, emit]
    · by_cases he : c = '\\'
      · subst he
        simp [renderFrom, State.step, emit]
      · simp [renderFrom, renderDouble, State.step, emit, hd, he]
  | escape =>
    by_cases hn : c = '\n'
    · simp [renderFrom, render, State.step, emit, hn]
    · simp [renderFrom, render, State.step, emit, hn]
  | doubleEscape =>
    by_cases hn : c = '\n'
    · simp [renderFrom, renderDouble, State.step, emit, hn]
    · -- a newline apart, the characters that are escaped are those that stand alone
      have hescapable : escapable c = true ↔ c = '"' ∨ c = '\\' ∨ c = '$' ∨ c = '\x60' := by
        simp [escapable, hn, or_assoc]
      by_cases he : escapable c
      · simp [renderFrom, renderDouble, State.step, emit, hn, he, hescapable.mp he]
      · simp [renderFrom, renderDouble, State.step, emit, hn, he, mt hescapable.mpr he]

theorem renderFrom_eq_output (s : State) (cs : Text) : renderFrom s cs = s.output cs := by
  induction cs generalizing s with
  | nil => rw [renderFrom_nil, output]
  | cons c cs ih => rw [renderFrom_cons, output, ih]

/-- **A word stands for what the automaton writes.** -/
theorem render_eq_output (cs : Text) : render cs = State.plain.output cs :=
  renderFrom_eq_output .plain cs

/-! ## What a word leaves open -/

theorem unclosedFrom_eq (s : State) (cs : Text) : unclosedFrom s cs = (s.run cs).open? := by
  induction cs generalizing s with
  | nil => cases s <;> simp [unclosedFrom, unclosed, unclosedSingle, unclosedDouble, open?]
  | cons c cs ih => rw [unclosedFrom_cons, ih, run_cons]

/-- **What a word leaves open** is decided by the state in which it ends. -/
theorem unclosed_eq (cs : Text) : unclosed cs = (State.plain.run cs).open? :=
  unclosedFrom_eq .plain cs

end Word

/-! ## The words of a region -/

theorem Text.getElem?_slice {t : Text} {start stop n : Nat} (h : start + n < stop) :
    (t.slice start stop)[n]? = t[start + n]? := by
  rw [slice, List.getElem?_take, if_pos (by omega), List.getElem?_drop]

/-- A word that starts at a position of a text and is read up to `stop` may end at `p`: nothing is
left to read, or the automaton is outside quotes there and sees a character that ends words. -/
def Word.MayEndAt (source : Text) (start stop p : Nat) : Prop :=
  p = stop ∨ (p < stop ∧ State.plain.run (source.slice start p) = .plain ∧
    ∃ c ∈ source[p]?, c ∈ terminators)

/-- The ends of a word by position in the text and by the number of its characters. -/
theorem Word.mayEndAt_iff {source : Text} {start stop n : Nat} (hle : start ≤ stop)
    (hs : stop ≤ source.length) :
    MayEndAt source start stop (start + n) ↔
      State.plain.MayEnd (source.slice start stop) n := by
  have hlen : (source.slice start stop).length = stop - start := Text.length_slice_of_le hs
  simp only [MayEndAt, State.MayEnd, ← endsWord_iff]
  rcases Nat.lt_or_ge (start + n) stop with hlt | hge
  · have htake : (source.slice start stop).take n = source.slice start (start + n) :=
      Text.take_slice (Nat.le_of_lt hlt)
    rw [htake, Text.getElem?_slice hlt, hlen]
    simp only [hlt, true_and]
    exact or_congr_left ⟨fun h => by omega, fun h => by omega⟩
  · -- behind the last character there is nothing that could end the word
    have hnone : (source.slice start stop)[n]? = none :=
      List.getElem?_eq_none (by omega)
    rw [hnone, hlen]
    simp only [Nat.not_lt.mpr hge, false_and, or_false, Option.mem_def, reduceCtorEq, exists_false,
      and_false]
    omega

namespace Token

open Word

variable {r : Region} {t : Token}

/-- The end of a word is the first position where it may end. -/
theorem isLeast_stop (ht : t ∈ r.tokens) (hk : t.kind = .word) :
    IsLeast {p | t.start ≤ p ∧ MayEndAt r.source t.start r.stop p} t.stop := by
  obtain ⟨hstart, hpos, hstop⟩ := Region.tokens_bounds ht
  obtain ⟨-, hend, -, -⟩ := word_of_mem ht hk
  have hle : t.start ≤ r.stop := by omega
  have hs := Nat.le_trans r.stop_le_limit r.limit_le_length
  obtain ⟨hmem, hleast⟩ := isLeast_extent (r.source.slice t.start r.stop)
  refine ⟨⟨Nat.le_of_lt hpos, ?_⟩, ?_⟩
  · rw [hend]
    exact (mayEndAt_iff hle hs).mpr hmem
  · rintro p ⟨hp, hmay⟩
    obtain ⟨n, rfl⟩ := Nat.exists_eq_add_of_le hp
    have := hleast ((mayEndAt_iff hle hs).mp hmay)
    omega

/-- **The words of a region by the automaton.** A word ends at the first position where the
automaton is outside quotes and sees whitespace or an operator character, or else where the region
does. It is quoted if the automaton enters a quote along it; what it stands for is what the
automaton writes; and what it leaves open is said by the state in which the automaton ends. -/
theorem word_by_automaton (ht : t ∈ r.tokens) (hk : t.kind = .word) :
    IsLeast {p | t.start ≤ p ∧ MayEndAt r.source t.start r.stop p} t.stop ∧
      (t.quoted ↔ State.plain.Enters t.raw) ∧
      t.text = State.plain.output t.raw ∧
      t.unclosed? = (State.plain.run t.raw).open? := by
  obtain ⟨-, -, -, hquoted⟩ := word_of_mem ht hk
  refine ⟨isLeast_stop ht hk, ?_, ?_, ?_⟩
  · rw [hquoted, isQuoted_iff]
  · rw [text, hk]
    exact render_eq_output t.raw
  · rw [unclosed?, hk]
    exact unclosed_eq t.raw

/-- A word of both quotes, with an escape that stands for itself in one of them, a line continuation
and separators that do not end it, in front of one that does. -/
theorem word_by_automaton_mixed :
    let r := Region.ofText "\"a;b\\q\"'c d'\\\ne;f".toList
    let t : Token := ⟨.word, 0, 15, true, r.source⟩
    t ∈ r.tokens ∧ t.kind = .word ∧
      IsLeast {p | t.start ≤ p ∧ MayEndAt r.source t.start r.stop p} t.stop ∧
      (t.quoted ↔ State.plain.Enters t.raw) ∧
      t.text = State.plain.output t.raw ∧
      t.unclosed? = (State.plain.run t.raw).open? := by
  have ht : (⟨.word, 0, 15, true, "\"a;b\\q\"'c d'\\\ne;f".toList⟩ : Token) ∈
      (Region.ofText "\"a;b\\q\"'c d'\\\ne;f".toList).tokens := by
    decide +kernel
  exact ⟨ht, rfl, word_by_automaton ht rfl⟩

end Token

end CommandLine
