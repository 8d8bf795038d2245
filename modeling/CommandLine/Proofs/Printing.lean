import CommandLine.Proofs.Automaton
import CommandLine.Proofs.Parsing

/-!
# Printing in quotes

A command is printed by putting every text in quotes, an operator right in front of its target and
blanks between the parts. Whatever characters the texts hold, the command that is read back has the
same arguments and redirections, and nothing is wrong with it.

* `Quotes.print` — a text in quotes, and `Quotes.render_print`, `Quotes.extent_print`,
  `Quotes.unclosed_print` for what a word that is printed so stands for, how far it reaches and what
  it leaves open.
* `ReadsAs` — the symbols that some characters are read as, wherever they stand.
* `Printed.readsAs_text` — a printed part in front of others.
* `Printed.read_command` — the command that is read back.
-/

namespace CommandLine

open Word

/-- The quotes that a text is printed in. -/
inductive Quotes where
  /-- single quotes -/
  | single
  /-- double quotes -/
  | double

namespace Quotes

/-- The mark on both sides of the text. -/
def mark : Quotes → Char
  | single => '\''
  | double => '"'

/-- How a character is written between the marks. A single quote has to be written outside of single
quotes: they are left for it and entered again. -/
def escape : Quotes → Char → Text
  | single, c => if c = '\'' then ['\'', '\\', '\'', '\''] else [c]
  | double, c => if c = '"' ∨ c = '\\' ∨ c = '$' ∨ c = '\x60' then ['\\', c] else [c]

/-- A text in quotes. -/
def print (q : Quotes) (t : Text) : Text := q.mark :: (t.flatMap q.escape ++ [q.mark])

/-- Where a reader stands between the marks. -/
def inside : Quotes → State
  | single => .single
  | double => .double

/-! ## One character -/

variable (q : Quotes) (c : Char) (cs : Text)

/-- The mark leads inside and back. -/
theorem step_mark : State.plain.step q.mark = q.inside ∧ q.inside.step q.mark = .plain := by
  cases q <;> exact ⟨rfl, rfl⟩

/-- The mark adds nothing to the text. -/
theorem emit_mark : State.plain.emit q.mark = [] ∧ q.inside.emit q.mark = [] := by
  cases q <;> exact ⟨rfl, rfl⟩

/-- A written character leaves the reader where it was. -/
theorem run_escape : q.inside.run (q.escape c) = q.inside := by
  cases q with
  | single => by_cases h : c = '\'' <;> simp [escape, inside, State.run, State.step, h]
  | double =>
    by_cases h : c = '"' ∨ c = '\\' ∨ c = '$' ∨ c = '\x60'
    · simp [escape, inside, State.run, State.step, h]
    · rw [escape, if_neg h]
      simp only [not_or] at h
      simp [inside, State.run, State.step, h.1, h.2.1]

/-- A written character stands for itself. -/
theorem output_escape : q.inside.output (q.escape c ++ cs) = c :: q.inside.output cs := by
  cases q with
  | single => by_cases h : c = '\'' <;> simp [escape, inside, State.output, State.emit, State.step, h]
  | double =>
    by_cases h : c = '"' ∨ c = '\\' ∨ c = '$' ∨ c = '\x60'
    · have hc : c ≠ '\n' := by
        rintro rfl
        exact absurd h (by decide)
      simp [escape, inside, State.output, State.emit, State.step, h, hc]
    · rw [escape, if_neg h]
      simp only [not_or] at h
      simp [inside, State.output, State.emit, State.step, h.1, h.2.1]

/-- A word goes on behind a written character. -/
theorem extentFrom_escape :
    extentFrom q.inside (q.escape c ++ cs) = (q.escape c).length + extentFrom q.inside cs := by
  cases q with
  | single =>
    by_cases h : c = '\''
    · simp [escape, inside, extentFrom_cons, State.step, endsWord_eq_false, h]
      omega
    · simp [escape, inside, extentFrom_cons, State.step, h]
      omega
  | double =>
    by_cases h : c = '"' ∨ c = '\\' ∨ c = '$' ∨ c = '\x60'
    · simp [escape, inside, extentFrom_cons, State.step, h]
      omega
    · rw [escape, if_neg h]
      simp only [not_or] at h
      simp [inside, extentFrom_cons, State.step, h.1, h.2.1]
      omega

/-! ## Texts -/

variable (t : Text)

theorem run_flatMap_escape : q.inside.run (t.flatMap q.escape) = q.inside := by
  induction t with
  | nil => rfl
  | cons c t ih => rw [List.flatMap_cons, State.run_append, run_escape, ih]

theorem output_flatMap_escape :
    q.inside.output (t.flatMap q.escape ++ cs) = t ++ q.inside.output cs := by
  induction t with
  | nil => rfl
  | cons c t ih => rw [List.flatMap_cons, List.append_assoc, output_escape, ih, List.cons_append]

theorem extentFrom_flatMap_escape :
    extentFrom q.inside (t.flatMap q.escape ++ cs) =
      (t.flatMap q.escape).length + extentFrom q.inside cs := by
  induction t with
  | nil => exact (Nat.zero_add _).symm
  | cons c t ih =>
    rw [List.flatMap_cons, List.append_assoc, extentFrom_escape, ih, List.length_append,
      Nat.add_assoc]

/-- **A text in quotes stands for the text.** -/
theorem render_print : render (q.print t) = t := by
  rw [render_eq_output, print, State.output, (emit_mark q).1, (step_mark q).1,
    output_flatMap_escape, State.output, (emit_mark q).2, (step_mark q).2]
  simp [State.output, State.finish]

example : single.print "it's".toList = "'it'\\''s'".toList := by decide

/-- It leaves nothing open. -/
theorem unclosed_print : unclosed (q.print t) = none := by
  rw [unclosed_eq, print, State.run_cons, (step_mark q).1, State.run_append, run_flatMap_escape,
    State.run_cons, (step_mark q).2]
  rfl

/-- **A word goes on behind a text in quotes** as if it started there. -/
theorem extent_print : extent (q.print t ++ cs) = (q.print t).length + extent cs := by
  have hinside : extentFrom q.inside (t.flatMap q.escape ++ q.mark :: cs) =
      (t.flatMap q.escape).length + (extent cs + 1) := by
    rw [extentFrom_flatMap_escape, extentFrom_cons, (step_mark q).2, if_neg]
    · rfl
    · rintro ⟨hplain, -⟩
      cases q <;> cases hplain
  have hplain : ¬ (State.plain = .plain ∧ endsWord q.mark) := by
    cases q <;> decide
  change extentFrom .plain _ = _
  rw [print, List.cons_append, List.append_assoc, List.singleton_append, extentFrom_cons,
    if_neg hplain, (step_mark q).1, hinside, List.length_cons, List.length_append,
    List.length_singleton]
  omega

end Quotes

/-! ## Symbols of characters -/

/-- Some characters are read as symbols, wherever they stand, and nothing is left open in them. -/
def ReadsAs (cs : Text) (ss : List Symbol) : Prop :=
  ∀ source pos stop, source.slice pos stop = cs →
    (tokensOf source pos cs).map Token.symbol = ss ∧
      ∀ t ∈ tokensOf source pos cs, t.isTerminated

theorem readsAs_nil : ReadsAs [] [] := by
  intro source pos stop _
  rw [tokensOf_nil]
  exact ⟨rfl, List.forall_mem_nil _⟩

/-- The first lexeme is a symbol in front of those of the characters behind it. -/
theorem ReadsAs.cons {cs raw : Text} {l : Lexeme} {ss : List Symbol}
    (h : ReadsAs (cs.drop l.width) ss) (hl : Lexeme.first? cs = some l)
    (hraw : (cs.drop l.gap).take l.length = raw)
    (hopen : l.kind = .word → Word.unclosed raw = none) : ReadsAs cs ((l.kind, raw) :: ss) := by
  intro source pos stop hcs
  obtain ⟨hsymbols, hterminated⟩ := h source (pos + l.width) stop (by rw [← hcs, Text.drop_slice])
  have htoken : (Token.ofLexeme source pos l).raw = raw := by
    rw [← hraw, ← hcs]
    rw [← hcs] at hl
    exact Token.raw_ofLexeme hl
  rw [tokensOf_some hl]
  refine ⟨?_, List.forall_mem_cons.mpr ⟨?_, hterminated⟩⟩
  · rw [List.map_cons, hsymbols, Token.symbol, htoken]
    rfl
  · refine Token.isTerminated_iff.mpr fun hk => ?_
    rw [htoken]
    exact hopen hk

/-! ## Behind blanks -/

variable {blanks cs : Text} {ss : List Symbol}

/-- Blanks in front of characters that start with none are their gap. -/
theorem gapWidth_spaces (hblanks : ∀ c ∈ blanks, c ∈ whitespace) (hcs : gapWidth cs = 0) :
    gapWidth (blanks ++ cs) = blanks.length := by
  induction blanks with
  | nil => exact hcs
  | cons c blanks ih =>
    obtain ⟨hc, hblanks⟩ := List.forall_mem_cons.mp hblanks
    rw [List.cons_append, gapWidth_cons_space (isSpace_iff.mpr hc), ih hblanks, List.length_cons]

/-- The operator that stands behind a gap. -/
theorem Lexeme.first?_operator_behind {p : Text × Kind}
    (hgap : gapWidth (blanks ++ cs) = blanks.length) (hmatch : Operator.match? cs = some p) :
    first? (blanks ++ cs) = some ⟨blanks.length, p.2, p.1.length, false⟩ := by
  have hbehind : Operator.match? ((blanks ++ cs).drop (gapWidth (blanks ++ cs))) = some p := by
    rw [hgap, List.drop_left]
    exact hmatch
  rw [first?_operator hbehind, hgap]

/-- The word that stands behind a gap. -/
theorem Lexeme.first?_word_behind (hgap : gapWidth (blanks ++ cs) = blanks.length) (hcs : cs ≠ [])
    (hmatch : Operator.match? cs = none) :
    first? (blanks ++ cs) =
      some ⟨blanks.length, .word, Word.extent cs, Word.isQuoted (cs.take (Word.extent cs))⟩ := by
  have hlt : gapWidth (blanks ++ cs) < (blanks ++ cs).length := by
    rw [hgap, List.length_append]
    exact Nat.lt_add_of_pos_right (List.length_pos_iff.mpr hcs)
  have hbehind : Operator.match? ((blanks ++ cs).drop (gapWidth (blanks ++ cs))) = none := by
    rw [hgap, List.drop_left]
    exact hmatch
  rw [first?_word hlt hbehind, hgap, List.drop_left]

/-- A text in quotes is a word, where a word may end behind it. -/
theorem ReadsAs.word (h : ReadsAs cs ss) (q : Quotes) (t : Text)
    (hblanks : ∀ c ∈ blanks, c ∈ whitespace) (hends : Word.extent cs = 0) :
    ReadsAs (blanks ++ (q.print t ++ cs)) ((.word, q.print t) :: ss) := by
  have hgap : gapWidth (blanks ++ (q.print t ++ cs)) = blanks.length :=
    gapWidth_spaces hblanks (by cases q <;> simp [Quotes.print, Quotes.mark, gapWidth, isSpace])
  have hmatch : Operator.match? (q.print t ++ cs) = none := by
    cases q <;> rfl
  have hlexeme := Lexeme.first?_word_behind hgap (by simp [Quotes.print]) hmatch
  rw [q.extent_print, hends, Nat.add_zero] at hlexeme
  refine ReadsAs.cons ?_ hlexeme ?_ fun _ => q.unclosed_print t
  · rw [Lexeme.width, List.drop_length_add_append, List.drop_left]
    exact h
  · rw [List.drop_left, List.take_left]

/-- A redirect operator right in front of a text in quotes is read as the operator. -/
theorem ReadsAs.redirect {q : Quotes} {t : Text} (h : ReadsAs (q.print t ++ cs) ss)
    (op : RedirectOp) (hblanks : ∀ c ∈ blanks, c ∈ whitespace) :
    ReadsAs (blanks ++ (op.spelling ++ (q.print t ++ cs))) ((.redirect, op.spelling) :: ss) := by
  have hgap : gapWidth (blanks ++ (op.spelling ++ (q.print t ++ cs))) = blanks.length :=
    gapWidth_spaces hblanks (by cases op <;> simp [RedirectOp.spelling, gapWidth, isSpace])
  -- the mark makes none of the operators a longer one
  have hmatch : Operator.match? (op.spelling ++ (q.print t ++ cs)) =
      some (op.spelling, .redirect) := by
    cases op <;> cases q <;> rfl
  have hlexeme := Lexeme.first?_operator_behind hgap hmatch
  refine ReadsAs.cons ?_ hlexeme ?_ fun hk => by cases hk
  · rw [Lexeme.width, List.drop_length_add_append, List.drop_left]
    exact h
  · rw [List.drop_left, List.take_left]

/-! ## Commands -/

/-- A part of a command. -/
inductive Entry where
  /-- an argument -/
  | arg (t : Text)
  /-- a redirection to a target -/
  | redirection (op : RedirectOp) (target : Text)

/-- The argument, if the part is one. -/
def Entry.arg? : Entry → Option Text
  | arg t => some t
  | redirection _ _ => none

/-- The redirection, if the part is one. -/
def Entry.redirection? : Entry → Option Redirection
  | arg _ => none
  | redirection op target => some (Grammar.redirectionOf op target)

/-- A part of a command with the quotes that its text is printed in. -/
structure Printed where
  /-- the part -/
  entry : Entry
  /-- the quotes -/
  quotes : Quotes

/-- Whitespace that keeps two parts of a command apart. -/
structure Spaces where
  /-- the characters -/
  text : Text
  /-- there is at least one -/
  ne_nil : text ≠ []
  /-- all of them are whitespace -/
  mem_whitespace : ∀ c ∈ text, c ∈ whitespace

namespace Printed

/-- The characters of a printed part: an operator stands right in front of its target. -/
def text (p : Printed) : Text :=
  match p.entry with
  | .arg t => p.quotes.print t
  | .redirection op target => op.spelling ++ p.quotes.print target

/-- What the grammar sees of a printed part. -/
def item (p : Printed) : Grammar.Item :=
  match p.entry with
  | .arg t => .word (p.quotes.print t)
  | .redirection op target => .redir ⟨op, p.quotes.print target⟩

/-- Printed parts with whitespace between them. -/
def command (first : Printed) (rest : List (Spaces × Printed)) : Text :=
  first.text ++ rest.flatMap fun p => p.1.text ++ p.2.text

theorem arg?_item (p : Printed) : p.item.arg? = p.entry.arg? := by
  obtain ⟨entry, quotes⟩ := p
  cases entry with
  | arg t => exact congrArg some (quotes.render_print t)
  | redirection op target => rfl

theorem redirection?_item (p : Printed) : p.item.redirection? = p.entry.redirection? := by
  obtain ⟨entry, quotes⟩ := p
  cases entry with
  | arg t => rfl
  | redirection op target =>
    change some (Grammar.redirectionOf op (Word.render (quotes.print target))) = _
    rw [quotes.render_print]
    rfl

/-- **A printed part is read as what it is**, where a word may end behind it. -/
theorem readsAs_text (p : Printed) (h : ReadsAs cs ss) (hblanks : ∀ c ∈ blanks, c ∈ whitespace)
    (hends : Word.extent cs = 0) : ReadsAs (blanks ++ (p.text ++ cs)) (p.item.yield ++ ss) := by
  obtain ⟨entry, quotes⟩ := p
  cases entry with
  | arg t => exact h.word quotes t hblanks hends
  | redirection op target =>
    have htarget : ReadsAs (quotes.print target ++ cs) ((.word, quotes.print target) :: ss) :=
      h.word quotes target (List.forall_mem_nil _) hends
    have hop := htarget.redirect op hblanks
    rwa [← List.append_assoc op.spelling] at hop

/-- Whitespace, or the end of the characters, ends a word. -/
theorem extent_spaces (rest : List (Spaces × Printed)) :
    Word.extent (rest.flatMap fun p => p.1.text ++ p.2.text) = 0 := by
  cases rest with
  | nil => rfl
  | cons p rest =>
    obtain ⟨c, cs, hcs⟩ := List.exists_cons_of_ne_nil p.1.ne_nil
    have hmem := p.1.mem_whitespace c (by rw [hcs]; exact List.mem_cons_self)
    have hc : isSpace c := isSpace_iff.mpr hmem
    have hends : Word.State.plain = .plain ∧ endsWord c := ⟨rfl, by rw [endsWord, hc]; rfl⟩
    rw [List.flatMap_cons, hcs]
    exact (Word.extentFrom_cons .plain c _).trans (if_pos hends)

/-- Printed parts are read as what they are, one after the other. -/
theorem readsAs_rest (rest : List (Spaces × Printed)) :
    ReadsAs (rest.flatMap fun p => p.1.text ++ p.2.text)
      ((rest.map fun p => p.2.item).flatMap Grammar.Item.yield) := by
  induction rest with
  | nil => exact readsAs_nil
  | cons p rest ih =>
    have hread := p.2.readsAs_text ih p.1.mem_whitespace (extent_spaces rest)
    rwa [List.flatMap_cons, List.map_cons, List.flatMap_cons, List.append_assoc]

/-- A printed command spells its parts. -/
theorem spells_command (first : Printed) (rest : List (Spaces × Printed)) :
    (Region.ofText (command first rest)).Spells
      ((first.item :: rest.map fun p => p.2.item).flatMap Grammar.Item.yield) := by
  have hread := first.readsAs_text (readsAs_rest rest) (List.forall_mem_nil _) (extent_spaces rest)
  obtain ⟨hsymbols, hterminated⟩ := hread (command first rest) 0 _ (Text.slice_self _)
  refine ⟨?_, ?_⟩
  · rw [Region.symbols, Region.tokens_ofText]
    exact hsymbols
  · rw [Region.tokens_ofText]
    exact hterminated

/-- **A printed command is read back.** Its arguments and its redirections are those that were
printed, in order; it is no group, and nothing is wrong with it. -/
theorem read_command (first : Printed) (rest : List (Spaces × Printed)) :
    (Region.ofText (command first rest)).words =
        ⟨(first :: rest.map Prod.snd).filterMap (·.entry.arg?),
          (first :: rest.map Prod.snd).filterMap (·.entry.redirection?)⟩ ∧
      (Region.ofText (command first rest)).groupBody? = none ∧
      diagnose (Region.ofText (command first rest)) = [] := by
  have hspells := spells_command first rest
  refine ⟨?_, ?_, ?_⟩
  · have hitems : first.item :: rest.map (fun p => p.2.item) =
        (first :: rest.map Prod.snd).map item := by
      rw [List.map_cons, List.map_map]
      rfl
    rw [Region.words, Words.collect_items hspells.symbols_eq, Grammar.Item.words, hitems,
      List.filterMap_map, List.filterMap_map]
    congr 1
    · exact List.filterMap_congr fun p _ => p.arg?_item
    · exact List.filterMap_congr fun p _ => p.redirection?_item
  · refine Region.groupBody?_eq_none_of_kinds fun hmem => ?_
    rw [hspells.kinds_eq] at hmem
    rcases Grammar.Item.kind_of_mem_yield hmem with hk | hk <;> cases hk
  · -- a command alone is a line of the grammar
    let c : Grammar.Cmd := .items first.item (rest.map fun p => p.2.item)
    have hline : (Region.ofText (command first rest)).Spells
        (Grammar.Body.last (.last (.last c))).yield := hspells
    exact diagnose_eq_nil_iff.mpr (Grammar.Body.parse _ hline).2

/-- An argument in double quotes that holds the mark itself and, behind a tab and a newline, a
redirection to a target with a blank in it. -/
theorem read_command_spaced :
    ∃ (first second : Printed) (spaces : Spaces),
      command first [(spaces, second)] = "\"a\\\"b\"\t\n2>>'c d'".toList ∧
      (Region.ofText (command first [(spaces, second)])).words =
        ⟨["a\"b".toList], [⟨.stderrAppend, 2, true, some "c d".toList⟩]⟩ ∧
      (Region.ofText (command first [(spaces, second)])).groupBody? = none ∧
      diagnose (Region.ofText (command first [(spaces, second)])) = [] :=
  ⟨⟨.arg "a\"b".toList, .double⟩, ⟨.redirection .stderrAppend "c d".toList, .single⟩,
    ⟨['\t', '\n'], List.cons_ne_nil _ _, by simp [whitespace]⟩, by decide +kernel, read_command _ _⟩

end Printed

end CommandLine
