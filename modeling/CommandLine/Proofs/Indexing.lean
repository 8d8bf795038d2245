import CommandLine.Proofs.Quoting
import CommandLine.View

/-!
# Reading by index

The readings of a word are recursions over the characters that are left. Here the same readings look
characters up by their positions in the text, as loops that step over one or two of them: each
character may be missing, and each loop has a budget that may run out, of one step more than there
are positions left. Within a text neither happens, and what is read is what the recursions read off
the slice.

* `Fault` — what may go wrong where nothing is known of the numbers that a line is read by.
* `Checked.char?`, `Checked.startsWith`, `Checked.find?` — characters by their positions.
* `Checked.blanksStop?`, `Checked.operator?`, `Checked.wordStop?` — the parts of a scan.
* `Checked.render?`, `Checked.openEnd?` — the text of a word and what it leaves open.
* `Checked.closeDouble?_closes` — the quotes that a loop finds closed are those that the recursions
  leave.
* `Checked.wordStop?_eq`, `Checked.render?_eq`, `Checked.openEnd?_eq` — the loops and the recursions.
-/

namespace CommandLine

/-- What may go wrong where nothing is known of the numbers that a line is read by. -/
inductive Fault where
  /-- numbers that bound no span of the text -/
  | bounds (e : BoundsError)
  /-- nothing stands at a position or an index -/
  | missing (pos : Nat)
  /-- characters that spell no redirect operator -/
  | spelling (raw : Text)
  /-- a level that is not inside -/
  | level (e : LevelError)
  /-- a loop or a descent that does not end within its budget -/
  | unfinished

/-! ## Words by the character in front -/

namespace Word

variable {cs : Text} {n : Nat}

section

variable {c : Char}

/-- A character that neither ends the word nor opens or escapes anything belongs to it. -/
theorem extent_cons_plain (hsingle : c ≠ '\'') (hdouble : c ≠ '"') (hback : c ≠ '\\')
    (hends : ¬endsWord c) : extent (c :: cs) = extent cs + 1 := by
  rw [extent, if_neg hends]
  · exact hsingle
  · exact hdouble
  · exact fun h _ => hback h
  · exact fun _ _ h _ => hback h

theorem isQuoted_cons_plain (hsingle : c ≠ '\'') (hdouble : c ≠ '"') (hback : c ≠ '\\') :
    isQuoted (c :: cs) = isQuoted cs := by
  rw [isQuoted]
  · exact hsingle
  · exact hdouble
  · exact fun h _ => hback h
  · exact fun _ _ h _ => hback h

theorem unclosed_cons_plain (hsingle : c ≠ '\'') (hdouble : c ≠ '"') (hback : c ≠ '\\') :
    unclosed (c :: cs) = unclosed cs := by
  rw [unclosed]
  · exact hsingle
  · exact hdouble
  · exact fun h _ => hback h
  · exact fun _ _ h _ => hback h

/-- A character that opens and escapes nothing stands for itself, as does a backslash at the end. -/
theorem render_cons_self (hsingle : c ≠ '\'') (hdouble : c ≠ '"') (hback : c = '\\' → cs = []) :
    render (c :: cs) = c :: render cs := by
  by_cases hc : c = '\\'
  · rw [hback hc, hc, render, render]
  · rw [render]
    · exact hsingle
    · exact hdouble
    · exact fun h _ => hc h
    · exact fun _ _ h _ => hc h

theorem renderDouble_cons_self (hdouble : c ≠ '"') (hback : c = '\\' → cs = []) :
    renderDouble (c :: cs) = c :: renderDouble cs := by
  by_cases hc : c = '\\'
  · rw [hback hc, hc, renderDouble, renderDouble]
  · rw [renderDouble]
    · exact hdouble
    · exact fun h _ => hc h
    · exact fun _ _ h _ => hc h

end

/-- Single quotes are left behind the next single quote, whatever stands before it. -/
theorem single_of_find (h : cs.findIdx? (· == '\'') = some n) :
    extentSingle cs = n + 1 + extent (cs.drop (n + 1)) ∧
      renderSingle cs = cs.take n ++ render (cs.drop (n + 1)) ∧
      unclosedSingle cs = unclosed (cs.drop (n + 1)) := by
  induction cs generalizing n with
  | nil => cases h
  | cons c cs ih =>
    rw [List.findIdx?_cons] at h
    by_cases hc : c = '\''
    · subst hc
      rw [if_pos (beq_self_eq_true _), Option.some.injEq] at h
      subst h
      simp [extentSingle, renderSingle, unclosedSingle, Nat.add_comm]
    · rw [if_neg (by simpa using hc), Option.map_eq_some_iff] at h
      obtain ⟨m, hm, rfl⟩ := h
      obtain ⟨hextent, hrender, hunclosed⟩ := ih hm
      refine ⟨?_, ?_, ?_⟩
      · rw [List.drop_succ_cons, extentSingle, hextent]
        · omega
        · exact fun h => hc h
      · rw [List.drop_succ_cons, List.take_succ_cons, renderSingle, hrender]
        · rfl
        · exact fun h => hc h
      · rw [List.drop_succ_cons, unclosedSingle, hunclosed]
        exact fun h => hc h

/-- Without a single quote all characters stand inside. -/
theorem single_of_not_find (h : cs.findIdx? (· == '\'') = none) :
    extentSingle cs = cs.length ∧ renderSingle cs = cs ∧ unclosedSingle cs = some .single := by
  induction cs with
  | nil => exact ⟨rfl, rfl, rfl⟩
  | cons c cs ih =>
    rw [List.findIdx?_cons] at h
    by_cases hc : c = '\''
    · subst hc
      cases h
    · rw [if_neg (by simpa using hc), Option.map_eq_none_iff] at h
      obtain ⟨hextent, hrender, hunclosed⟩ := ih h
      refine ⟨?_, ?_, ?_⟩
      · rw [extentSingle, hextent, List.length_cons]
        exact fun h => hc h
      · rw [renderSingle, hrender]
        exact fun h => hc h
      · rw [unclosedSingle, hunclosed]
        exact fun h => hc h

/-- What a backslash and the character behind it stand for inside double quotes. -/
def escapedInside (c : Char) : Text :=
  if escapable c then if c = '\n' then [] else [c] else ['\\', c]

theorem renderDouble_escaped (c : Char) (cs : Text) :
    renderDouble ('\\' :: c :: cs) = escapedInside c ++ renderDouble cs := by
  rw [renderDouble, escapedInside]
  by_cases hnewline : c = '\n'
  · subst hnewline
    rfl
  · rw [if_neg hnewline, if_neg hnewline]
    split <;> rfl

end Word

namespace Checked

/-- What is found is handed on. -/
@[simp] theorem ok_bind {α β : Type} (a : α) (f : α → Except Fault β) : (.ok a >>= f) = f a := rfl

@[simp] theorem pure_eq {α : Type} (a : α) : (pure a : Except Fault α) = .ok a := rfl

/-! ## Characters -/

/-- The character at a position, unless it is missing. -/
def char? (source : Text) (pos : Nat) : Except Fault Char :=
  match source[pos]? with
  | some c => .ok c
  | none => .error (.missing pos)

/-- Whether some characters stand at a position, all of them short of an end. -/
def startsWith (source t : Text) (pos stop : Nat) : Bool := t.isPrefixOf (source.slice pos stop)

/-- Where a character stands from a position on, short of an end. -/
def find? (source : Text) (c : Char) (pos stop : Nat) : Option Nat :=
  ((source.slice pos stop).findIdx? (· == c)).map (pos + ·)

/-! ## The loops -/

/-- Where the blanks from a position on end. -/
def blanksStop? (source : Text) (stop : Nat) : Nat → Nat → Except Fault Nat
  | 0, _ => .error .unfinished
  | budget + 1, pos => do
    if pos < stop then
      let c ← char? source pos
      if isSpace c then blanksStop? source stop budget (pos + 1)
      else if startsWith source ['\\', '\n'] pos stop then blanksStop? source stop budget (pos + 2)
      else return pos
    else return pos

/-- The operator at a position: the first spelling that stands there. -/
def operator? (source : Text) (pos stop : Nat) : Option (Text × Kind) :=
  Operator.spellings.find? fun p => startsWith source p.1 pos stop

/-- Where double quotes are closed that are open at a position, if they are. -/
def closeDouble? (source : Text) (stop : Nat) : Nat → Nat → Except Fault (Option Nat)
  | 0, _ => .error .unfinished
  | budget + 1, pos => do
    if pos < stop then
      let c ← char? source pos
      if c = '\\' then closeDouble? source stop budget (pos + 2)
      else if c = '"' then return some pos
      else closeDouble? source stop budget (pos + 1)
    else return none

/-- Where the word at a position ends, and whether a quote is opened in it or was before. -/
def wordStop? (source : Text) (stop : Nat) : Nat → Bool → Nat → Except Fault (Nat × Bool)
  | 0, _, _ => .error .unfinished
  | budget + 1, quoted, pos => do
    if pos < stop then
      let c ← char? source pos
      if endsWord c then return (pos, quoted)
      else if c = '\'' then
        wordStop? source stop budget true ((find? source '\'' (pos + 1) stop).elim stop (· + 1))
      else if c = '"' then
        let close ← closeDouble? source stop (stop - pos) (pos + 1)
        wordStop? source stop budget true (close.elim stop (· + 1))
      else if c = '\\' then wordStop? source stop budget quoted (min (pos + 2) stop)
      else wordStop? source stop budget quoted (pos + 1)
    else return (pos, quoted)

/-- The text of what stands inside double quotes from a position on, and where they are closed. -/
def renderInside? (source : Text) (stop : Nat) : Nat → Nat → Except Fault (Text × Nat)
  | 0, _ => .error .unfinished
  | budget + 1, pos => do
    if pos < stop then
      let c ← char? source pos
      if c = '"' then return ([], pos)
      else if c = '\\' ∧ pos + 1 < stop then
        let escaped ← char? source (pos + 1)
        let (out, close) ← renderInside? source stop budget (pos + 2)
        return (Word.escapedInside escaped ++ out, close)
      else
        let (out, close) ← renderInside? source stop budget (pos + 1)
        return (c :: out, close)
    else return ([], pos)

/-- The text that the rest of a word from a position on stands for. -/
def render? (source : Text) (stop : Nat) : Nat → Nat → Except Fault Text
  | 0, _ => .error .unfinished
  | budget + 1, pos => do
    if pos < stop then
      let c ← char? source pos
      if c = '\'' then
        let close := (find? source '\'' (pos + 1) stop).getD stop
        let out ← render? source stop budget (close + 1)
        return source.slice (pos + 1) close ++ out
      else if c = '"' then
        let (inside, close) ← renderInside? source stop (stop - pos) (pos + 1)
        let out ← render? source stop budget (close + 1)
        return inside ++ out
      else if c = '\\' ∧ pos + 1 < stop then
        let escaped ← char? source (pos + 1)
        let out ← render? source stop budget (pos + 2)
        return if escaped = '\n' then out else escaped :: out
      else
        let out ← render? source stop budget (pos + 1)
        return c :: out
    else return []

/-- What the rest of a word from a position on leaves open. -/
def openEnd? (source : Text) (stop : Nat) : Nat → Nat → Except Fault (Option Unclosed)
  | 0, _ => .error .unfinished
  | budget + 1, pos => do
    if pos < stop then
      let c ← char? source pos
      if c = '\'' then
        match find? source '\'' (pos + 1) stop with
        | none => return some .single
        | some close => openEnd? source stop budget (close + 1)
      else if c = '"' then
        match ← closeDouble? source stop (stop - pos) (pos + 1) with
        | none => return some .double
        | some close => openEnd? source stop budget (close + 1)
      else if c = '\\' then
        if stop ≤ pos + 1 then return some .escape
        else openEnd? source stop budget (pos + 2)
      else openEnd? source stop budget (pos + 1)
    else return none

/-! ## What the loops find -/

section

variable {source : Text} {pos stop budget : Nat}

/-- Short of the end of the text no character is missing. -/
theorem exists_char (h : pos < stop) (hs : stop ≤ source.length) :
    ∃ c, char? source pos = .ok c ∧ source.slice pos stop = c :: source.slice (pos + 1) stop := by
  have hlt : pos < source.length := Nat.lt_of_lt_of_le h hs
  have hsub : stop - pos = stop - (pos + 1) + 1 := by omega
  refine ⟨source[pos], ?_, ?_⟩
  · rw [char?, List.getElem?_eq_getElem hlt]
  · rw [Text.slice, List.drop_eq_getElem_cons hlt, hsub, List.take_succ_cons]
    rfl

theorem blanksStop?_eq (h : pos ≤ stop) (hs : stop ≤ source.length) (hbudget : stop - pos < budget) :
    blanksStop? source stop budget pos = .ok (pos + gapWidth (source.slice pos stop)) := by
  induction budget generalizing pos with
  | zero => exact absurd hbudget (Nat.not_lt_zero _)
  | succ budget ih =>
    rw [blanksStop?]
    by_cases hlt : pos < stop
    · obtain ⟨c, hc, hslice⟩ := exists_char hlt hs
      rw [if_pos hlt, hc, ok_bind]
      by_cases hspace : isSpace c
      · rw [if_pos hspace, ih (by omega) (by omega), hslice, gapWidth_cons_space hspace]
        congr 1
        omega
      · rw [if_neg hspace]
        by_cases hpair : startsWith source ['\\', '\n'] pos stop
        · -- a backslash and the newline behind it are blank together
          obtain ⟨rest, hrest⟩ := List.isPrefixOf_iff_prefix.mp hpair
          have hlength := congrArg List.length hrest
          have hdrop := congrArg (List.drop 2) hrest
          rw [List.length_append, Text.length_slice_of_le hs, List.length_cons,
            List.length_singleton] at hlength
          rw [Text.drop_slice] at hdrop
          have hbehind : rest = source.slice (pos + 2) stop := hdrop
          rw [if_pos hpair, ih (by omega) (by omega), ← hrest, ← hbehind, List.cons_append,
            List.cons_append, List.nil_append, gapWidth]
          congr 1
          omega
        · rw [if_neg hpair, hslice, gapWidth, if_neg hspace]
          · rfl
          · rintro rest rfl hrest
            rw [startsWith, hslice, hrest] at hpair
            exact hpair (List.isPrefixOf_iff_prefix.mpr ⟨rest, rfl⟩)
    · rw [if_neg hlt, Text.slice_of_le _ (Nat.le_of_not_lt hlt), gapWidth]
      rfl

/-- The operator at a position is the one in front of the characters from there on. -/
theorem operator?_eq (source : Text) (pos stop : Nat) :
    operator? source pos stop = Operator.match? (source.slice pos stop) := rfl

/-! ### Quotes -/

/-- Where quotes are closed that are open at a position, and how the rest of the word is read from
there on. The state tells which quotes they are. -/
inductive Closes (source : Text) (s : Word.State) (pos stop : Nat) : Option Nat → Prop where
  /-- at a quote -/
  | closed {close : Nat} (le : pos ≤ close) (lt : close < stop)
      (extent : Word.extentFrom s (source.slice pos stop) =
        close + 1 - pos + Word.extent (source.slice (close + 1) stop))
      (unclosed : Word.unclosedFrom s (source.slice pos stop) =
        Word.unclosed (source.slice (close + 1) stop)) : Closes source s pos stop (some close)
  /-- nowhere -/
  | never (extent : Word.extentFrom s (source.slice pos stop) = stop - pos)
      (unclosed : Word.unclosedFrom s (source.slice pos stop) = Word.unclosedFrom s []) :
      Closes source s pos stop none

namespace Closes

variable {s : Word.State} {close : Option Nat}

/-- Where the characters end, no quote is closed. -/
theorem of_le (h : stop ≤ pos) : Closes source s pos stop none := by
  have hempty : source.slice pos stop = [] := Text.slice_of_le _ h
  refine .never ?_ ?_
  · rw [hempty, Word.extentFrom_nil]
    omega
  · rw [hempty]

/-- A character that leaves the reader inside stands in front of the quotes that are closed behind
it. -/
theorem of_cons {c : Char} (hs : s ≠ .plain)
    (hopen : Word.unclosedFrom (s.step c) [] = Word.unclosedFrom s []) (hlt : pos < stop)
    (hslice : source.slice pos stop = c :: source.slice (pos + 1) stop)
    (h : Closes source (s.step c) (pos + 1) stop close) : Closes source s pos stop close := by
  have hextent : Word.extentFrom s (source.slice pos stop) =
      Word.extentFrom (s.step c) (source.slice (pos + 1) stop) + 1 := by
    rw [hslice, Word.extentFrom_cons, if_neg fun hplain => hs hplain.1]
  have hunclosed : Word.unclosedFrom s (source.slice pos stop) =
      Word.unclosedFrom (s.step c) (source.slice (pos + 1) stop) := by
    rw [hslice, Word.unclosedFrom_cons]
  cases h with
  | closed le lt extent unclosed =>
    refine .closed (by omega) lt ?_ (hunclosed.trans unclosed)
    rw [hextent, extent]
    omega
  | never extent unclosed =>
    refine .never ?_ ((hunclosed.trans unclosed).trans hopen)
    rw [hextent, extent]
    omega

/-- Where a reader goes on behind the quotes, and that the word ends at the same place from there. -/
theorem resume (h : Closes source s pos stop close) (hle : pos ≤ stop) :
    pos ≤ close.elim stop (· + 1) ∧ close.elim stop (· + 1) ≤ stop ∧
      close.elim stop (· + 1) + Word.extent (source.slice (close.elim stop (· + 1)) stop) =
        pos + Word.extentFrom s (source.slice pos stop) := by
  cases h with
  | closed le lt extent unclosed =>
    rw [extent, Option.elim_some]
    omega
  | never extent unclosed =>
    rw [extent, Option.elim_none, Text.slice_of_le _ (Nat.le_refl _), Word.extent]
    omega

/-- What stands inside the quotes ends no earlier than it starts. -/
theorem le_getD (h : Closes source s pos stop close) (hle : pos ≤ stop) :
    pos ≤ close.getD stop := by
  cases h with
  | closed le lt extent unclosed => exact le
  | never extent unclosed => exact hle

end Closes

/-- Single quotes are closed at the next one. -/
theorem find?_closes (hs : stop ≤ source.length) :
    Closes source .single pos stop (find? source '\'' pos stop) := by
  cases h : (source.slice pos stop).findIdx? (· == '\'') with
  | none =>
    obtain ⟨hextent, -, hunclosed⟩ := Word.single_of_not_find h
    rw [Text.length_slice_of_le hs] at hextent
    rw [find?, h]
    exact .never hextent hunclosed
  | some n =>
    obtain ⟨hlt, -⟩ := List.findIdx?_eq_some_iff_getElem.mp h
    rw [Text.length_slice_of_le hs] at hlt
    obtain ⟨hextent, -, hunclosed⟩ := Word.single_of_find h
    rw [Text.drop_slice, ← Nat.add_assoc] at hextent hunclosed
    rw [find?, h, Option.map_some]
    refine .closed (Nat.le_add_right pos n) (Nat.add_lt_of_lt_sub' hlt) ?_ hunclosed
    refine hextent.trans ?_
    omega

/-- What stands in single quotes is taken as it is. -/
theorem find?_render (hs : stop ≤ source.length) :
    Word.renderSingle (source.slice pos stop) =
      source.slice pos ((find? source '\'' pos stop).getD stop) ++
        Word.render (source.slice ((find? source '\'' pos stop).getD stop + 1) stop) := by
  cases h : (source.slice pos stop).findIdx? (· == '\'') with
  | none =>
    obtain ⟨-, hrender, -⟩ := Word.single_of_not_find h
    rw [find?, h, Option.map_none, Option.getD_none, hrender,
      Text.slice_of_le _ (Nat.le_succ stop), Word.render, List.append_nil]
  | some n =>
    obtain ⟨hlt, -⟩ := List.findIdx?_eq_some_iff_getElem.mp h
    rw [Text.length_slice_of_le hs] at hlt
    obtain ⟨-, hrender, -⟩ := Word.single_of_find h
    rw [Text.drop_slice, Text.take_slice (by omega), ← Nat.add_assoc] at hrender
    rw [find?, h, Option.map_some, Option.getD_some, hrender]

/-- **The quotes that the loop finds closed** are those that the recursions leave. -/
theorem closeDouble?_closes (hs : stop ≤ source.length) (hbudget : stop - pos < budget) :
    ∃ close, closeDouble? source stop budget pos = .ok close ∧
      Closes source .double pos stop close := by
  induction budget generalizing pos with
  | zero => exact absurd hbudget (Nat.not_lt_zero _)
  | succ budget ih =>
    rw [closeDouble?]
    by_cases hlt : pos < stop
    · obtain ⟨c, hc, hslice⟩ := exists_char hlt hs
      rw [if_pos hlt, hc, ok_bind]
      by_cases he : c = '\\'
      · subst he
        rw [if_pos rfl]
        rcases Nat.lt_or_ge (pos + 1) stop with hnext | hend
        · obtain ⟨d, -, hbehind⟩ := exists_char hnext hs
          obtain ⟨close, hclose, hcloses⟩ := @ih (pos + 2) (by omega)
          have hescaped : Closes source .doubleEscape (pos + 1) stop close :=
            .of_cons nofun rfl hnext hbehind hcloses
          exact ⟨close, hclose, .of_cons nofun rfl hlt hslice hescaped⟩
        · -- a backslash at the end: the loop steps past it
          obtain ⟨budget, rfl⟩ : ∃ m, budget = m + 1 := ⟨budget - 1, by omega⟩
          have hescaped : Closes source .doubleEscape (pos + 1) stop none := .of_le hend
          refine ⟨none, ?_, .of_cons nofun rfl hlt hslice hescaped⟩
          rw [closeDouble?, if_neg (by omega)]
          rfl
      · rw [if_neg he]
        by_cases hd : c = '"'
        · subst hd
          rw [if_pos rfl]
          refine ⟨some pos, rfl, .closed (Nat.le_refl _) hlt ?_ ?_⟩
          · rw [hslice, Word.extentFrom_cons, if_neg (by decide), Nat.add_sub_cancel_left,
              Nat.add_comm]
            rfl
          · rw [hslice, Word.unclosedFrom_cons]
            rfl
        · have hstep : Word.State.double.step c = .double := by
            rw [Word.State.step, if_neg hd, if_neg he]
          rw [if_neg hd]
          obtain ⟨close, hclose, hcloses⟩ := @ih (pos + 1) (by omega)
          refine ⟨close, hclose, .of_cons nofun ?_ hlt hslice ?_⟩
          · rw [hstep]
          · rwa [hstep]
    · rw [if_neg hlt]
      exact ⟨none, rfl, .of_le (Nat.le_of_not_lt hlt)⟩

/-- The text inside double quotes that are open at a position, and where the loop goes on. -/
theorem renderInside?_eq (hs : stop ≤ source.length) (hbudget : stop - pos < budget) :
    ∃ inside close, renderInside? source stop budget pos = .ok (inside, close) ∧ pos ≤ close ∧
      Word.renderDouble (source.slice pos stop) =
        inside ++ Word.render (source.slice (close + 1) stop) := by
  induction budget generalizing pos with
  | zero => exact absurd hbudget (Nat.not_lt_zero _)
  | succ budget ih =>
    rw [renderInside?]
    by_cases hlt : pos < stop
    · obtain ⟨c, hc, hslice⟩ := exists_char hlt hs
      rw [if_pos hlt, hc, ok_bind]
      by_cases hd : c = '"'
      · subst hd
        rw [if_pos rfl]
        refine ⟨[], pos, rfl, Nat.le_refl _, ?_⟩
        rw [hslice, Word.renderDouble, List.nil_append]
      · rw [if_neg hd]
        by_cases he : c = '\\' ∧ pos + 1 < stop
        · obtain ⟨rfl, hnext⟩ := he
          obtain ⟨d, hescaped, hbehind⟩ := exists_char hnext hs
          obtain ⟨inside, close, hinside, hle, hrender⟩ := @ih (pos + 2) (by omega)
          rw [if_pos ⟨rfl, hnext⟩, hescaped, ok_bind, hinside, ok_bind]
          refine ⟨Word.escapedInside d ++ inside, close, rfl, by omega, ?_⟩
          rw [List.append_assoc, ← hrender, hslice, hbehind, Word.renderDouble_escaped]
        · obtain ⟨inside, close, hinside, hle, hrender⟩ := @ih (pos + 1) (by omega)
          rw [if_neg he, hinside, ok_bind]
          refine ⟨c :: inside, close, rfl, by omega, ?_⟩
          have hback (hc : c = '\\') : source.slice (pos + 1) stop = [] :=
            Text.slice_of_le _ (Nat.le_of_not_lt fun hnext => he ⟨hc, hnext⟩)
          rw [List.cons_append, ← hrender, hslice, Word.renderDouble_cons_self hd hback]
    · have hempty : source.slice pos stop = [] := Text.slice_of_le _ (Nat.le_of_not_lt hlt)
      have hbehind : source.slice (pos + 1) stop = [] := Text.slice_of_le _ (by omega)
      rw [if_neg hlt]
      refine ⟨[], pos, rfl, Nat.le_refl _, ?_⟩
      rw [hempty, hbehind, Word.renderDouble, Word.render, List.nil_append]

/-! ### Words -/

/-- **The end of a word** is found where the word has its extent, and it is quoted if a quote is
opened in it. -/
theorem wordStop?_eq {quoted : Bool} (h : pos ≤ stop) (hs : stop ≤ source.length)
    (hbudget : stop - pos < budget) :
    wordStop? source stop budget quoted pos =
      .ok (pos + Word.extent (source.slice pos stop), quoted ||
        Word.isQuoted ((source.slice pos stop).take (Word.extent (source.slice pos stop)))) := by
  induction budget generalizing pos quoted with
  | zero => exact absurd hbudget (Nat.not_lt_zero _)
  | succ budget ih =>
    rw [wordStop?]
    by_cases hlt : pos < stop
    · obtain ⟨c, hc, hslice⟩ := exists_char hlt hs
      rw [if_pos hlt, hc, ok_bind]
      by_cases hends : endsWord c
      · have hextent : Word.extent (c :: source.slice (pos + 1) stop) = 0 :=
          (Word.extentFrom_cons .plain c _).trans (if_pos ⟨rfl, hends⟩)
        rw [if_pos hends, hslice, hextent, List.take_zero, Word.isQuoted, Bool.or_false]
        rfl
      rw [if_neg hends]
      by_cases hsingle : c = '\''
      · subst hsingle
        have hcloses : Closes source .single (pos + 1) stop (find? source '\'' (pos + 1) stop) :=
          find?_closes hs
        obtain ⟨hle, hend, hresume⟩ := hcloses.resume hlt
        rw [if_pos rfl, hslice, Word.extent, List.take_succ_cons, Word.isQuoted, Bool.or_true,
          ih hend (by omega), hresume, Bool.true_or, Nat.add_assoc, Nat.add_comm 1]
        rfl
      rw [if_neg hsingle]
      by_cases hdouble : c = '"'
      · subst hdouble
        obtain ⟨close, hclose, hcloses⟩ :=
          @closeDouble?_closes source (pos + 1) stop (stop - pos) hs (by omega)
        obtain ⟨hle, hend, hresume⟩ := hcloses.resume hlt
        rw [if_pos rfl, hclose, ok_bind, hslice, Word.extent, List.take_succ_cons, Word.isQuoted,
          Bool.or_true, ih hend (by omega), hresume, Bool.true_or, Nat.add_assoc, Nat.add_comm 1]
        rfl
      rw [if_neg hdouble]
      by_cases hback : c = '\\'
      · subst hback
        rw [if_pos rfl]
        rcases Nat.lt_or_ge (pos + 1) stop with hnext | hlast
        · obtain ⟨d, -, hbehind⟩ := exists_char hnext hs
          rw [Nat.min_eq_left hnext, ih hnext (by omega), hslice, hbehind, Word.extent,
            List.take_succ_cons, List.take_succ_cons, Word.isQuoted, Nat.add_comm _ 2,
            ← Nat.add_assoc]
        · have hempty : source.slice (pos + 1) stop = [] := Text.slice_of_le _ hlast
          have hone : pos + 1 = stop := by omega
          rw [Nat.min_eq_right (by omega), ih (Nat.le_refl _) (by omega), hslice, hempty,
            Text.slice_of_le _ (Nat.le_refl stop), Word.extent, Word.extent, ← hone]
          rfl
      · have hrest := @ih (pos + 1) quoted hlt (by omega)
        rw [if_neg hback, hrest, hslice, Word.extent_cons_plain hsingle hdouble hback hends,
          List.take_succ_cons, Word.isQuoted_cons_plain hsingle hdouble hback, Nat.add_assoc,
          Nat.add_comm 1]
    · have hempty : source.slice pos stop = [] := Text.slice_of_le _ (Nat.le_of_not_lt hlt)
      rw [if_neg hlt, hempty, Word.extent, List.take_zero, Word.isQuoted, Bool.or_false]
      rfl

/-- **The text of a word** is found piece by piece. -/
theorem render?_eq (hs : stop ≤ source.length) (hbudget : stop - pos < budget) :
    render? source stop budget pos = .ok (Word.render (source.slice pos stop)) := by
  induction budget generalizing pos with
  | zero => exact absurd hbudget (Nat.not_lt_zero _)
  | succ budget ih =>
    rw [render?]
    by_cases hlt : pos < stop
    · obtain ⟨c, hc, hslice⟩ := exists_char hlt hs
      rw [if_pos hlt, hc, ok_bind]
      by_cases hsingle : c = '\''
      · subst hsingle
        have hcloses : Closes source .single (pos + 1) stop (find? source '\'' (pos + 1) stop) :=
          find?_closes hs
        have hle := hcloses.le_getD hlt
        have hrest := @ih ((find? source '\'' (pos + 1) stop).getD stop + 1) (by omega)
        rw [if_pos rfl, hslice, Word.render, find?_render hs]
        simp only [hrest, ok_bind, pure_eq]
      rw [if_neg hsingle]
      by_cases hdouble : c = '"'
      · subst hdouble
        obtain ⟨inside, close, hinside, hle, hrender⟩ :=
          @renderInside?_eq source (pos + 1) stop (stop - pos) hs (by omega)
        have hrest := @ih (close + 1) (by omega)
        rw [if_pos rfl, hinside, ok_bind, hslice, Word.render, hrender]
        simp only [hrest, ok_bind, pure_eq]
      rw [if_neg hdouble]
      by_cases hback : c = '\\' ∧ pos + 1 < stop
      · obtain ⟨rfl, hnext⟩ := hback
        obtain ⟨d, hescaped, hbehind⟩ := exists_char hnext hs
        have hrest := @ih (pos + 2) (by omega)
        rw [if_pos ⟨rfl, hnext⟩, hescaped, ok_bind, hrest, ok_bind, pure_eq, hslice, hbehind,
          Word.render]
      · have hrest := @ih (pos + 1) (by omega)
        have hend (hc : c = '\\') : source.slice (pos + 1) stop = [] :=
          Text.slice_of_le _ (Nat.le_of_not_lt fun hnext => hback ⟨hc, hnext⟩)
        rw [if_neg hback, hrest, ok_bind, pure_eq, hslice,
          Word.render_cons_self hsingle hdouble hend]
    · rw [if_neg hlt, Text.slice_of_le _ (Nat.le_of_not_lt hlt), Word.render, pure_eq]

/-- **What a word leaves open** is found at its end. -/
theorem openEnd?_eq (hs : stop ≤ source.length) (hbudget : stop - pos < budget) :
    openEnd? source stop budget pos = .ok (Word.unclosed (source.slice pos stop)) := by
  induction budget generalizing pos with
  | zero => exact absurd hbudget (Nat.not_lt_zero _)
  | succ budget ih =>
    rw [openEnd?]
    by_cases hlt : pos < stop
    · obtain ⟨c, hc, hslice⟩ := exists_char hlt hs
      rw [if_pos hlt, hc, ok_bind, hslice]
      by_cases hsingle : c = '\''
      · subst hsingle
        have hcloses : Closes source .single (pos + 1) stop (find? source '\'' (pos + 1) stop) :=
          find?_closes hs
        rw [if_pos rfl, Word.unclosed]
        cases hclose : find? source '\'' (pos + 1) stop with
        | none =>
          rw [hclose] at hcloses
          cases hcloses with
          | never extent unclosed => exact congrArg Except.ok unclosed.symm
        | some close =>
          rw [hclose] at hcloses
          cases hcloses with
          | closed le lt extent unclosed =>
            exact (ih (by omega)).trans (congrArg Except.ok unclosed.symm)
      rw [if_neg hsingle]
      by_cases hdouble : c = '"'
      · subst hdouble
        obtain ⟨close, hclose, hcloses⟩ :=
          @closeDouble?_closes source (pos + 1) stop (stop - pos) hs (by omega)
        rw [if_pos rfl, Word.unclosed, hclose, ok_bind]
        cases hcloses with
        | never extent unclosed => exact congrArg Except.ok unclosed.symm
        | closed le lt extent unclosed =>
          exact (ih (by omega)).trans (congrArg Except.ok unclosed.symm)
      rw [if_neg hdouble]
      by_cases hback : c = '\\'
      · subst hback
        rw [if_pos rfl]
        rcases Nat.lt_or_ge (pos + 1) stop with hnext | hend
        · obtain ⟨d, -, hbehind⟩ := exists_char hnext hs
          rw [if_neg (Nat.not_le.mpr hnext), ih (by omega), hbehind, Word.unclosed]
        · rw [if_pos hend, Text.slice_of_le _ hend, Word.unclosed, pure_eq]
      · rw [if_neg hback, ih (by omega), Word.unclosed_cons_plain hsingle hdouble hback]
    · rw [if_neg hlt, Text.slice_of_le _ (Nat.le_of_not_lt hlt), Word.unclosed, pure_eq]

end

end Checked

end CommandLine
