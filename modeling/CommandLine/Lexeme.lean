import CommandLine.Word

/-!
# Lexemes

The front of a list of characters is a gap of blanks and then an operator or a word. A `Lexeme`
says how wide the gap is, what follows it and how many characters that takes; it knows no
position, so it depends on nothing but the characters it is read from.

* `gapWidth` — whitespace and backslash-newline pairs at the front.
* `Lexeme.first?` — the first lexeme; none when only blanks are left.
* `Lexeme.length_pos`, `Lexeme.width_le` — a lexeme takes at least one character and no more
  than there are, so reading lexeme after lexeme comes to an end.
-/

namespace CommandLine

/-- How many of the characters at the front are blanks between tokens: whitespace, and
backslashes each with the newline it is followed by. -/
def gapWidth : Text → Nat
  | [] => 0
  | '\\' :: '\n' :: cs => gapWidth cs + 2
  | c :: cs => if isSpace c then gapWidth cs + 1 else 0

/-- Whitespace is part of the gap. -/
theorem gapWidth_cons_space {c : Char} (h : isSpace c) (cs : Text) :
    gapWidth (c :: cs) = gapWidth cs + 1 := by
  rw [gapWidth, if_pos h]
  rintro _ rfl _
  exact absurd h (by decide)

theorem gapWidth_le (cs : Text) : gapWidth cs ≤ cs.length := by
  fun_induction gapWidth cs with
  | case1 => exact Nat.le_refl _
  | case2 rest ih => simpa using ih
  | case3 c rest hpair hspace ih => simpa using ih
  | case4 => exact Nat.zero_le _

/-- What follows a gap does not start with whitespace. -/
theorem isSpace_of_drop_gapWidth {cs : Text} {c : Char} {rest : Text}
    (h : cs.drop (gapWidth cs) = c :: rest) : isSpace c = false := by
  fun_induction gapWidth cs <;> simp_all

/-- Nothing is left of a gap once it is skipped. -/
theorem gapWidth_drop (cs : Text) : gapWidth (cs.drop (gapWidth cs)) = 0 := by
  fun_induction gapWidth cs with
  | case1 => rfl
  | case2 rest ih => simpa using ih
  | case3 c rest hpair hspace ih => simpa using ih
  | case4 c rest hpair hspace =>
    rw [List.drop_zero, gapWidth, if_neg hspace]
    exact hpair

/-- A gap, then an operator or a word. -/
structure Lexeme where
  /-- how many blanks stand before it -/
  gap : Nat
  /-- an operator kind or a word -/
  kind : Kind
  /-- how many characters it takes after the gap -/
  length : Nat
  /-- whether a quote is opened in it -/
  quoted : Bool
  deriving DecidableEq

namespace Lexeme

/-- How many characters the lexeme takes together with its gap. -/
def width (l : Lexeme) : Nat := l.gap + l.length

/-- The first lexeme of some characters: an operator where a spelling matches after the gap, and
a word elsewhere. There is none when the gap takes everything. -/
def first? (cs : Text) : Option Lexeme :=
  let gap := gapWidth cs
  match cs.drop gap with
  | [] => none
  | c :: rest =>
    match Operator.match? (c :: rest) with
    | some (spelling, kind) => some ⟨gap, kind, spelling.length, false⟩
    | none =>
      let n := Word.extent (c :: rest)
      some ⟨gap, .word, n, Word.isQuoted ((c :: rest).take n)⟩

/-- There is no lexeme exactly where the gap takes every character. -/
theorem first?_eq_none_iff {cs : Text} : first? cs = none ↔ gapWidth cs = cs.length := by
  have := gapWidth_le cs
  unfold first?
  dsimp only
  split
  · next h => simp_all [List.drop_eq_nil_iff]; omega
  · next c rest h =>
    have hlen := congrArg List.length h
    simp at hlen
    split <;> simp <;> omega

/-- A lexeme takes at least one character after its gap. -/
theorem length_pos {cs : Text} {l : Lexeme} (h : first? cs = some l) : 0 < l.length := by
  unfold first? at h
  dsimp only at h
  split at h
  · cases h
  · next c rest hdrop =>
    split at h
    · next spelling kind hop =>
      cases h
      exact (Operator.spellings_proper _ (Operator.mem_of_match? hop).1).1
    · next hop =>
      cases h
      refine Word.extent_pos ?_
      rw [endsWord, isSpace_of_drop_gapWidth hdrop, Operator.isOperatorChar_of_match?_eq_none hop]
      rfl

/-- A lexeme and its gap take no more characters than there are. -/
theorem width_le {cs : Text} {l : Lexeme} (h : first? cs = some l) : l.width ≤ cs.length := by
  have hgap := gapWidth_le cs
  unfold first? at h
  dsimp only at h
  split at h
  · cases h
  · next c rest hdrop =>
    have hlen := congrArg List.length hdrop
    rw [List.length_drop] at hlen
    split at h
    · next spelling kind hop =>
      cases h
      have hsp : spelling.length ≤ (c :: rest).length := (Operator.mem_of_match? hop).2.length_le
      simp only [width]
      omega
    · cases h
      have := (Word.extent_le (c :: rest)).1
      simp only [width]
      omega

/-- The gap of the first lexeme is the gap of the characters. -/
theorem gap_eq {cs : Text} {l : Lexeme} (h : first? cs = some l) : l.gap = gapWidth cs := by
  unfold first? at h
  dsimp only at h
  split at h
  · cases h
  · split at h <;> (cases h; rfl)

/-- A reader that starts after the gap finds the same lexeme without a gap. -/
theorem first?_drop_gap {cs : Text} {l : Lexeme} (h : first? cs = some l) :
    first? (cs.drop l.gap) = some { l with gap := 0 } := by
  have hgap := gap_eq h
  unfold first? at h ⊢
  dsimp only at h ⊢
  rw [hgap, gapWidth_drop, List.drop_zero]
  split at h
  · cases h
  · split at h <;> (cases h; simp_all)

/-- No lexeme is the end of the line. -/
theorem kind_ne_eol {cs : Text} {l : Lexeme} (h : first? cs = some l) : l.kind ≠ .eol := by
  unfold first? at h
  dsimp only at h
  split at h
  · cases h
  · split at h
    · next spelling kind hop =>
      cases h
      exact (Operator.spellings_proper _ (Operator.mem_of_match? hop).1).2.2
    · cases h
      simp

/-- What is left after the first lexeme is shorter. -/
theorem drop_width_lt {cs : Text} {l : Lexeme} (h : first? cs = some l) :
    (cs.drop l.width).length < cs.length := by
  have := length_pos h
  have := width_le h
  simp only [width, List.length_drop] at *
  omega

end Lexeme

end CommandLine
