import CommandLine.Proofs.Grouping
import CommandLine.Proofs.Parts

/-!
# Lossless trees

No character of a line is lost in its tree, however malformed the line is. The text of every node is
what its parts and the operators between them are written with, in order, down through the bodies
of groups; and every node has the parts and operators that its level asks for.

* `Gap` — blanks between tokens.
* `GroupEnd` — what stands behind the body of a group.
* `Line.Lossless` — the texts of a tree fit together.
* `Region.exists_parts` — the segments of a region, and the operators after them, are its text.
* `Region.exists_group_text` — the text of a group around its body.
* `Line.ofText_lossless` — the tree of a text is lossless.
-/

namespace CommandLine

/-- A run of blanks between tokens. -/
inductive Gap : Text → Prop where
  /-- no blank -/
  | nil : Gap []
  /-- whitespace in front of other blanks -/
  | space {c : Char} {cs : Text} (h : c ∈ whitespace) (rest : Gap cs) : Gap (c :: cs)
  /-- a backslash with the newline behind it, in front of other blanks -/
  | continuation {cs : Text} (rest : Gap cs) : Gap ('\\' :: '\n' :: cs)

theorem gap_take_gapWidth (cs : Text) : Gap (cs.take (gapWidth cs)) := by
  fun_induction gapWidth cs with
  | case1 => exact .nil
  | case2 rest ih => exact .continuation ih
  | case3 c rest hpair hspace ih => exact .space (isSpace_iff.mp hspace) ih
  | case4 => exact .nil

/-- What is written between a segment and the next one: the spelling of the operator, and nothing
where the line ends. -/
def Kind.written : Kind → Text
  | .eol => []
  | k => k.spelling

theorem Kind.written_of_ne_eol {k : Kind} (h : k ≠ .eol) : k.written = k.spelling := by
  cases k <;> first | rfl | exact absurd rfl h

/-- Texts with others between them. -/
def Text.interleave : List Text → List Text → Text
  | t :: ts, u :: us => t ++ u ++ interleave ts us
  | ts, us => ts.flatten ++ us.flatten

/-- A span of a text, with the characters that stand there. -/
def Span.Exact (source : Text) (s : Span) : Prop :=
  s.start ≤ s.stop ∧ s.stop ≤ source.length ∧ s.text = source.slice s.start s.stop

/-- How the text of a group goes on behind its body: the parentheses in the body match one another
and the closing one follows, or none of those in it closes the group and nothing follows. -/
inductive GroupEnd (body : Text) : Text → Prop where
  /-- the group is closed -/
  | closed {after : Text} (balanced : Balanced ((tokenize body).map Token.kind)) :
      GroupEnd body (')' :: after)
  /-- it is not closed -/
  | unclosed (unmatched : ∀ before c after, tokenize body = before ++ c :: after →
      c.kind = .rparen → ¬ Balanced (before.map Token.kind)) : GroupEnd body []

mutual

/-- The texts of a line fit together: its conditionals, each with what is written after it, are its
text. Every conditional but the last is ended by a separator, and the last by the end of the
line. -/
inductive Line.Lossless (source : Text) : Line Span → Prop where
  /-- from the parts of a line -/
  | intro {l : Line Span}
      (span : l.mark.Exact source)
      (covers : l.mark.text = l.conditionals.flatMap fun c => c.mark.text ++ c.separator.written)
      (separated : ∃ init last, l.conditionals = init ++ [last] ∧
        (∀ c ∈ init, c.separator = .sequence ∨ c.separator = .background) ∧ last.separator = .eol)
      (parts : ∀ c ∈ l.conditionals, Conditional.Lossless source c) : Line.Lossless source l

/-- The texts of a conditional fit together: its pipelines with the operators between them are its
text. -/
inductive Conditional.Lossless (source : Text) : Conditional Span → Prop where
  /-- from the parts of a conditional -/
  | intro {c : Conditional Span}
      (span : c.mark.Exact source)
      (covers : c.mark.text =
        Text.interleave (c.pipelines.map fun p => p.mark.text) (c.joins.map Kind.spelling))
      (joined : c.joins.length + 1 = c.pipelines.length)
      (joins : ∀ k ∈ c.joins, k = .and ∨ k = .or)
      (parts : ∀ p ∈ c.pipelines, Pipeline.Lossless source p) : Conditional.Lossless source c

/-- The texts of a pipeline fit together: its commands with bars between them are its text. -/
inductive Pipeline.Lossless (source : Text) : Pipeline Span → Prop where
  /-- from the parts of a pipeline -/
  | intro {p : Pipeline Span}
      (span : p.mark.Exact source)
      (covers : p.mark.text = Text.join ['|'] (p.commands.map fun c => c.mark.text))
      (nonempty : p.commands ≠ [])
      (parts : ∀ c ∈ p.commands, Command.Lossless source c) : Pipeline.Lossless source p

/-- The texts of a command fit together: a group is blanks, an opening parenthesis and its body, and
ends there unless it is closed. -/
inductive Command.Lossless (source : Text) : Command Span → Prop where
  /-- a command that is no group -/
  | simple {mark : Span} {words : Words} (span : mark.Exact source) :
      Command.Lossless source (.simple mark words)
  /-- a group -/
  | group {mark : Span} {body : Line Span} {words : Words} {blanks rest : Text}
      (span : mark.Exact source)
      (gap : Gap blanks)
      (covers : mark.text = blanks ++ '(' :: body.mark.text ++ rest)
      (place : body.mark.start = mark.start + blanks.length + 1)
      (ends : GroupEnd body.mark.text rest)
      (inner : Line.Lossless source body) : Command.Lossless source (.group mark body words)

end

namespace Text

theorem interleave_append_singleton {α : Type} (f g : α → Text) (init : List α) (last : α) :
    interleave ((init ++ [last]).map f) (init.map g) =
      init.flatMap (fun a => f a ++ g a) ++ f last := by
  induction init with
  | nil => simp [interleave]
  | cons a init ih =>
    rw [List.cons_append, List.map_cons, List.map_cons, interleave, ih, List.flatMap_cons]
    simp only [List.append_assoc]

theorem join_append_singleton {α : Type} (separator : Text) (f : α → Text) (init : List α)
    (last : α) :
    join separator ((init ++ [last]).map f) =
      init.flatMap (fun a => f a ++ separator) ++ f last := by
  induction init with
  | nil => simp [join]
  | cons a init ih =>
    obtain ⟨b, bs, hb⟩ : ∃ b bs, (init ++ [last]).map f = b :: bs := by
      cases init <;> simp
    rw [List.cons_append, List.map_cons, List.flatMap_cons, List.append_assoc, ← ih, hb,
      join_cons_cons, List.append_assoc]

end Text

namespace Region

theorem span_exact (r : Region) : r.span.Exact r.source :=
  ⟨r.start_le_stop, Nat.le_trans r.stop_le_limit r.limit_le_length, rfl⟩

/-- A region without tokens holds blanks only. -/
theorem gap_of_tokens_eq_nil {r : Region} (h : r.tokens = []) : Gap r.text := by
  have hnone : Lexeme.first? r.text = none := tokensOf_eq_nil_iff.mp h
  have hgap := gap_take_gapWidth r.text
  rw [Lexeme.first?_eq_none_iff.mp hnone, List.take_length] at hgap
  exact hgap

/-- The text of a region has tokens of the same kinds. -/
theorem map_kind_tokenize_text (r : Region) : (tokenize r.text).map Token.kind = r.kinds :=
  map_kind_tokensOf _ _ _ _ _

/-! ## The text of a region and the texts of its segments -/

/-- **The segments of a region are its text** together with the operators after all but the last. -/
theorem exists_parts {delimiters : List Kind} (hcontrol : ∀ k ∈ delimiters, k.isControl)
    (r : Region) :
    ∃ init last, r.divide delimiters = init ++ [last] ∧
      (∀ s ∈ init, s.nextOperator ∈ delimiters ∧ s.nextOperator ≠ .eol) ∧
      last.nextOperator = .eol ∧
      r.text = init.flatMap (fun s => s.text ++ s.nextOperator.spelling) ++ last.text := by
  induction r using cut_induction delimiters with
  | last r hfree =>
    refine ⟨[], r.closed, divide_of_undivided hfree, ?_, nextOperator_closed r, rfl⟩
    intro s hs
    cases hs
  | cut r c ih =>
    obtain ⟨init, last, hdivide, hinit, hlast, htext⟩ := ih
    refine ⟨c.left :: init, last, ?_, ?_, hlast, ?_⟩
    · rw [divide_of_cut c, hdivide]
      rfl
    · intro s hs
      rcases List.mem_cons.mp hs with rfl | hs
      · rw [c.nextOperator_left]
        exact ⟨c.kind_mem, kind_ne_eol c.mem⟩
      · exact hinit s hs
    · rw [c.text_eq, c.raw_token (hcontrol _ c.kind_mem), htext, List.flatMap_cons,
        c.nextOperator_left]
      simp only [List.append_assoc]

namespace Opening

variable {r : Region} (o : Opening r)

/-- Nothing but blanks stands in front of the parenthesis that a region starts with. -/
theorem gap_left : Gap o.left.text := gap_of_tokens_eq_nil (by rw [o.tokens_left, o.first])

theorem start_right : o.right.start = r.start + o.left.text.length + 1 := by
  have hlen := congrArg List.length o.text_eq_append
  have hb := o.bounds
  rw [List.length_append, List.length_cons, length_text, length_text, length_text, length, length,
    length] at hlen
  rw [length_text, length]
  change r.stop - r.start = (o.token.start - r.start) + ((r.stop - o.token.stop) + 1) at hlen
  change o.token.stop = r.start + (o.token.start - r.start) + 1
  omega

end Opening

/-- A group ends with the parenthesis that closes it. -/
theorem Closing.groupEnd {r : Region} {o : Opening r} (c : Closing o) :
    GroupEnd c.left.text (')' :: c.right.text) := by
  refine .closed ?_
  rw [map_kind_tokenize_text]
  exact balanced_iff.mpr c.depth?_left

/-- A group that nothing closes ends with the region. -/
theorem groupEnd_of_unclosed {r : Region} (h : closing? 0 r.tokens = none) :
    GroupEnd r.text [] := by
  have hclosing : closing? 0 (tokenize r.text) = none := by
    rw [closing?_eq_none_iff, map_kind_tokenize_text]
    exact closing?_eq_none_iff.mp h
  refine .unclosed fun before c after htokens hc => ?_
  rw [htokens] at hclosing
  exact not_balanced_of_closing? hclosing hc

/-- **The text of a group**: blanks, the opening parenthesis, the body, and the end of the region or
a closing parenthesis. -/
theorem exists_group_text {r body : Region} (h : r.groupBody? = some body) :
    ∃ blanks rest, Gap blanks ∧ r.text = blanks ++ '(' :: body.text ++ rest ∧
      body.start = r.start + blanks.length + 1 ∧ GroupEnd body.text rest := by
  obtain ⟨o, ⟨c, rfl⟩ | ⟨hnone, rfl⟩⟩ := exists_opening h
  · refine ⟨o.left.text, ')' :: c.right.text, o.gap_left, ?_, o.start_right, c.groupEnd⟩
    rw [o.text_eq_append, c.text_eq_append, List.append_assoc]
    rfl
  · refine ⟨o.left.text, [], o.gap_left, ?_, o.start_right, groupEnd_of_unclosed hnone⟩
    rw [o.text_eq_append, List.append_nil]

/-! ## Trees -/

/-- A command is lossless if the body of a group is. -/
theorem toCommand_lossless {r : Region}
    (hbody : ∀ body, r.groupBody? = some body → body.toLine.Lossless r.source) :
    r.toCommand.Lossless r.source := by
  cases h : r.groupBody? with
  | none =>
    rw [toCommand_of_none h]
    exact .simple r.span_exact
  | some body =>
    obtain ⟨blanks, rest, hgap, htext, hstart, hrest⟩ := exists_group_text h
    rw [toCommand_of_some h]
    have hmark : body.toLine.mark.text = body.text := by
      rw [mark_toLine]
      rfl
    rw [← hmark] at htext hrest
    refine .group r.span_exact hgap htext ?_ hrest (hbody body h)
    rw [mark_toLine]
    exact hstart

/-- A pipeline is lossless if its commands are. -/
theorem toPipeline_lossless {r : Region}
    (hparts : ∀ s ∈ r.divide Level.command.delimiters, s.toCommand.Lossless r.source) :
    r.toPipeline.Lossless r.source := by
  have hcontrol : ∀ k ∈ Level.command.delimiters, k.isControl := by decide
  obtain ⟨init, last, hdivide, hinit, -, htext⟩ := r.exists_parts hcontrol
  rw [toPipeline_eq]
  refine .intro r.span_exact ?_ ?_ ?_
  · have hpipe : ∀ s ∈ init, s.text ++ s.nextOperator.spelling = s.text ++ ['|'] := by
      intro s hs
      have hmem := (hinit s hs).1
      rw [Level.delimiters, List.mem_singleton] at hmem
      rw [hmem]
      rfl
    change r.text = _
    rw [htext, List.flatMap_congr hpipe, hdivide, List.map_map]
    simp only [Function.comp_def, mark_toCommand]
    exact (Text.join_append_singleton ['|'] text init last).symm
  · rw [hdivide]
    simp
  · intro c hc
    obtain ⟨s, hs, rfl⟩ := List.mem_map.mp hc
    exact hparts s hs

/-- A conditional is lossless if its pipelines are. -/
theorem toConditional_lossless {r : Region}
    (hparts : ∀ s ∈ r.divide Level.pipeline.delimiters, s.toPipeline.Lossless r.source) :
    r.toConditional.Lossless r.source := by
  have hcontrol : ∀ k ∈ Level.pipeline.delimiters, k.isControl := by decide
  obtain ⟨init, last, hdivide, hinit, -, htext⟩ := r.exists_parts hcontrol
  rw [toConditional_eq]
  refine .intro r.span_exact ?_ ?_ ?_ ?_
  · change r.text = _
    rw [htext, hdivide, List.dropLast_concat, List.map_map, List.map_map]
    simp only [Function.comp_def, mark_toPipeline]
    exact (Text.interleave_append_singleton text (fun s => s.nextOperator.spelling) init last).symm
  · rw [hdivide]
    simp
  · intro k hk
    rw [hdivide, List.dropLast_concat] at hk
    obtain ⟨s, hs, rfl⟩ := List.mem_map.mp hk
    have hmem := (hinit s hs).1
    simpa [Level.delimiters] using hmem
  · intro p hp
    obtain ⟨s, hs, rfl⟩ := List.mem_map.mp hp
    exact hparts s hs

/-- A line is lossless if its conditionals are. -/
theorem toLine_lossless_of_parts {r : Region}
    (hparts : ∀ s ∈ r.divide Level.conditional.delimiters, s.toConditional.Lossless r.source) :
    r.toLine.Lossless r.source := by
  have hcontrol : ∀ k ∈ Level.conditional.delimiters, k.isControl := by decide
  obtain ⟨init, last, hdivide, hinit, hlast, htext⟩ := r.exists_parts hcontrol
  rw [toLine_eq]
  refine .intro r.span_exact ?_ ?_ ?_
  · have hwritten : ∀ s ∈ init, s.text ++ s.nextOperator.spelling =
        s.text ++ s.nextOperator.written := by
      intro s hs
      rw [Kind.written_of_ne_eol (hinit s hs).2]
    change r.text = _
    rw [htext, hdivide, List.flatMap_congr hwritten, List.map_append, List.flatMap_append,
      List.flatMap_map, List.map_singleton, List.flatMap_singleton, separator_toConditional, hlast,
      mark_toConditional]
    simp only [mark_toConditional, separator_toConditional, Kind.written, List.append_nil]
    rfl
  · refine ⟨init.map toConditional, last.toConditional, ?_, ?_, ?_⟩
    · rw [hdivide, List.map_append]
      rfl
    · intro c hc
      obtain ⟨s, hs, rfl⟩ := List.mem_map.mp hc
      obtain ⟨hmem, hne⟩ := hinit s hs
      rw [separator_toConditional]
      simp only [Level.delimiters, List.mem_cons, List.not_mem_nil, or_false] at hmem
      rcases hmem with h | h | h
      · exact .inr h
      · exact absurd h hne
      · exact .inl h
    · rw [separator_toConditional, hlast]
  · intro c hc
    obtain ⟨s, hs, rfl⟩ := List.mem_map.mp hc
    exact hparts s hs

/-- Every region is read as a lossless line. -/
theorem toLine_lossless (r : Region) : r.toLine.Lossless r.source := by
  induction r using line_induction with
  | line r ih =>
    refine toLine_lossless_of_parts fun c hc => ?_
    rw [← (mem_divide hc).2.2.1]
    refine toConditional_lossless fun p hp => ?_
    rw [← (mem_divide hp).2.2.1]
    refine toPipeline_lossless fun m hm => ?_
    rw [← (mem_divide hm).2.2.1]
    refine toCommand_lossless fun body hbody => ?_
    rw [← (groupBody?_bounds hbody).2.2]
    exact ih c hc p hp m hm body hbody

end Region

/-- **The tree of a text is lossless**: its text is the whole text, and the texts of its nodes fit
together at every level, in the bodies of groups as well. -/
theorem Line.ofText_lossless (t : Text) :
    (Line.ofText t).mark.text = t ∧ (Line.ofText t).Lossless t := by
  refine ⟨?_, (Region.ofText t).toLine_lossless⟩
  rw [Line.ofText, Region.mark_toLine]
  exact Text.slice_self t

end CommandLine
