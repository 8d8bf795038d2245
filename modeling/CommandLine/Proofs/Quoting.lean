import CommandLine.Word

/-!
# Quoting states

Inside a word a reader stands in one of five places, and every character takes it from one to the
next. The readings of a word are written as recursions through quotes and escapes; here each is
given an equation that takes one character off the front, whatever the state.

* `whitespace`, `Word.terminators` — the characters that stand between words.
* `Word.State`, `Word.State.step` — where a reader of a word stands, and where one character takes
  it.
* `Word.extentFrom`, `Word.unclosedFrom` — the extent of a word, and what it leaves open, from a
  state on.
* `Word.extent_take` — a word reaches as far when the characters are cut behind it.
* `Word.unclosed_take_extent` — only a word that takes all characters leaves something open.
-/

namespace CommandLine

/-! ## Characters -/

/-- The characters that are whitespace between tokens. -/
def whitespace : List Char := [' ', '\t', '\n', '\r', '\x0c', '\x0b']

theorem isSpace_iff {c : Char} : isSpace c ↔ c ∈ whitespace := by
  simp [isSpace, whitespace, or_assoc]

namespace Word

/-- The characters that end a word outside quotes: whitespace, and those of operators. -/
def terminators : List Char := whitespace ++ [';', '&', '|', '<', '>', '(', ')']

theorem endsWord_iff {c : Char} : endsWord c ↔ c ∈ terminators := by
  simp [endsWord, isSpace, isOperatorChar, terminators, whitespace, or_assoc]

/-! ## States -/

/-- Where a reader of a word stands. -/
inductive State where
  /-- outside quotes -/
  | plain
  /-- inside single quotes -/
  | single
  /-- inside double quotes -/
  | double
  /-- behind a backslash outside quotes -/
  | escape
  /-- behind a backslash inside double quotes -/
  | doubleEscape
  deriving DecidableEq

/-- The state after one more character. -/
def State.step : State → Char → State
  | plain, c =>
    if c = '\'' then single else if c = '"' then double else if c = '\\' then escape else plain
  | single, c => if c = '\'' then plain else single
  | double, c => if c = '"' then plain else if c = '\\' then doubleEscape else double
  | escape, _ => plain
  | doubleEscape, _ => double

/-! ## How far a word reaches -/

/-- How many characters the word takes from a state on. -/
def extentFrom : State → Text → Nat
  | .plain, cs => extent cs
  | .single, cs => extentSingle cs
  | .double, cs => extentDouble cs
  | .escape, [] => 0
  | .escape, _ :: cs => extent cs + 1
  | .doubleEscape, [] => 0
  | .doubleEscape, _ :: cs => extentDouble cs + 1

theorem extentFrom_nil (s : State) : extentFrom s [] = 0 := by
  cases s <;> simp [extentFrom, extent, extentSingle, extentDouble]

/-- Quotes and backslashes end no word. -/
theorem endsWord_eq_false {c : Char} (h : c = '\'' ∨ c = '"' ∨ c = '\\') : endsWord c = false := by
  rcases h with rfl | rfl | rfl <;> decide

/-- A character ends the word if the reader is outside quotes and it may end one; else it belongs to
the word. -/
theorem extentFrom_cons (s : State) (c : Char) (cs : Text) :
    extentFrom s (c :: cs) =
      if s = .plain ∧ endsWord c then 0 else extentFrom (s.step c) cs + 1 := by
  cases s with
  | plain =>
    by_cases hs : c = '\''
    · subst hs
      simp [extentFrom, extent, State.step, endsWord_eq_false]
    · by_cases hd : c = '"'
      · subst hd
        simp [extentFrom, extent, State.step, endsWord_eq_false]
      · by_cases he : c = '\\'
        · -- the recursion looks at the escaped character as well, if there is one
          subst he
          cases cs <;> simp [extentFrom, extent, State.step, endsWord_eq_false]
        · simp [extentFrom, extent, State.step, hs, hd, he]
  | single =>
    by_cases hs : c = '\''
    · subst hs
      simp [extentFrom, extentSingle, State.step]
    · simp [extentFrom, extentSingle, State.step, hs]
  | double =>
    by_cases hd : c = '"'
    · subst hd
      simp [extentFrom, extentDouble, State.step]
    · by_cases he : c = '\\'
      · subst he
        cases cs <;> simp [extentFrom, extentDouble, State.step]
      · simp [extentFrom, extentDouble, State.step, hd, he]
  | escape => simp [extentFrom, State.step]
  | doubleEscape => simp [extentFrom, State.step]

theorem extentFrom_take {s : State} {cs : Text} {n : Nat} (h : extentFrom s cs ≤ n) :
    extentFrom s (cs.take n) = extentFrom s cs := by
  induction cs generalizing s n with
  | nil => rw [List.take_nil]
  | cons c cs ih =>
    rw [extentFrom_cons] at h ⊢
    by_cases hend : s = .plain ∧ endsWord c
    · rw [if_pos hend]
      cases n with
      | zero => exact extentFrom_nil s
      | succ n => rw [List.take_succ_cons, extentFrom_cons, if_pos hend]
    · rw [if_neg hend] at h ⊢
      obtain ⟨m, rfl⟩ : ∃ m, n = m + 1 := ⟨n - 1, by omega⟩
      rw [List.take_succ_cons, extentFrom_cons, if_neg hend, ih (by omega)]

/-- **Cutting behind a word** leaves it as long as it is. -/
theorem extent_take {cs : Text} {n : Nat} (h : extent cs ≤ n) : extent (cs.take n) = extent cs :=
  extentFrom_take (s := .plain) h

/-! ## What a word leaves open -/

/-- What the rest of a word leaves open from a state on. -/
def unclosedFrom : State → Text → Option Unclosed
  | .plain, cs => unclosed cs
  | .single, cs => unclosedSingle cs
  | .double, cs => unclosedDouble cs
  | .escape, [] => some .escape
  | .escape, _ :: cs => unclosed cs
  | .doubleEscape, [] => some .double
  | .doubleEscape, _ :: cs => unclosedDouble cs

/-- What is left open is decided by the state in which the characters end. -/
theorem unclosedFrom_cons (s : State) (c : Char) (cs : Text) :
    unclosedFrom s (c :: cs) = unclosedFrom (s.step c) cs := by
  cases s with
  | plain =>
    by_cases hs : c = '\''
    · subst hs
      simp [unclosedFrom, unclosed, State.step]
    · by_cases hd : c = '"'
      · subst hd
        simp [unclosedFrom, unclosed, State.step]
      · by_cases he : c = '\\'
        · subst he
          cases cs <;> simp [unclosedFrom, unclosed, State.step]
        · simp [unclosedFrom, unclosed, State.step, hs, hd, he]
  | single =>
    by_cases hs : c = '\''
    · subst hs
      simp [unclosedFrom, unclosedSingle, State.step]
    · simp [unclosedFrom, unclosedSingle, State.step, hs]
  | double =>
    by_cases hd : c = '"'
    · subst hd
      simp [unclosedFrom, unclosedDouble, State.step]
    · by_cases he : c = '\\'
      · subst he
        cases cs <;> simp [unclosedFrom, unclosedDouble, State.step]
      · simp [unclosedFrom, unclosedDouble, State.step, hd, he]
  | escape => simp [unclosedFrom, State.step]
  | doubleEscape => simp [unclosedFrom, State.step]

theorem unclosedFrom_take_extentFrom {s : State} {cs : Text} (h : extentFrom s cs < cs.length) :
    unclosedFrom s (cs.take (extentFrom s cs)) = none := by
  induction cs generalizing s with
  | nil => cases h
  | cons c cs ih =>
    rw [extentFrom_cons] at h ⊢
    by_cases hend : s = .plain ∧ endsWord c
    · rw [if_pos hend, List.take_zero, hend.1]
      simp [unclosedFrom, unclosed]
    · rw [if_neg hend] at h ⊢
      rw [List.take_succ_cons, unclosedFrom_cons]
      exact ih (by simpa using h)

/-- A word that ends before the characters do leaves nothing open. -/
theorem unclosed_take_extent {cs : Text} (h : extent cs < cs.length) :
    unclosed (cs.take (extent cs)) = none :=
  unclosedFrom_take_extentFrom (s := .plain) h

end Word

end CommandLine
