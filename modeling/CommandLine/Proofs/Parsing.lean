import CommandLine.Proofs.Grouping
import CommandLine.Proofs.Parts
import CommandLine.Proofs.Watching

/-!
# Parsing well-formed lines

A line whose tokens are the symbols of a derivation is read as the tree of the derivation, and
nothing is wrong with it. The levels are read one inside the other, and each of them cuts the
characters anew; the induction is on the derivation, so that every cut falls where two parts of it
meet.

* `Region.Spells` — the tokens of a region are those of some symbols.
* `Region.Spells.exists_cut`, `Region.Spells.exists_group` — where symbols are joined the region is
  cut, and around symbols in parentheses it is a group.
* `Grammar.Body.parse` … `Grammar.Cmd.parse` — the regions of a derivation.
* `Line.ofText_of_sentence` — the lines of the grammar.
-/

namespace CommandLine

open Grammar

namespace Region

/-- The symbols of the tokens of a region. -/
def symbols (r : Region) : List Symbol := r.tokens.map Token.symbol

theorem map_fst_symbols (r : Region) : r.symbols.map Prod.fst = r.kinds := by
  rw [symbols, List.map_map]
  rfl

/-- The tokens of a region are those of some symbols, and leave nothing open. -/
structure Spells (r : Region) (ss : List Symbol) : Prop where
  /-- the symbols of the region -/
  symbols_eq : r.symbols = ss
  /-- no token leaves something open -/
  terminated : ∀ t ∈ r.tokens, t.isTerminated

namespace Spells

variable {r : Region} {xs ys : List Symbol} {k : Kind}

theorem kinds_eq {ss : List Symbol} (h : r.Spells ss) : r.kinds = ss.map Prod.fst := by
  rw [← r.map_fst_symbols, h.symbols_eq]

theorem tokens_eq_nil_iff {ss : List Symbol} (h : r.Spells ss) : r.tokens = [] ↔ ss = [] := by
  rw [← h.symbols_eq, symbols, List.map_eq_nil_iff]

/-- What a region spells is spelled on the sides of every token of it. -/
theorem exists_split {ss : List Symbol} (h : r.Spells ss) (hss : ss = xs ++ k.symbol :: ys) :
    ∃ c : Split r, c.left.Spells xs ∧ c.token.kind = k ∧ c.right.Spells ys ∧
      c.before.map Token.kind = xs.map Prod.fst := by
  obtain ⟨before, rest, htokens, hbefore, hrest⟩ :=
    List.map_eq_append_iff.mp (h.symbols_eq.trans hss)
  obtain ⟨t, after, rfl, ht, hafter⟩ := List.map_eq_cons_iff.mp hrest
  let c : Split r := ⟨before, t, after, htokens⟩
  refine ⟨c, ⟨?_, ?_⟩, congrArg Prod.fst ht, ⟨?_, ?_⟩, ?_⟩
  · rw [symbols, c.tokens_left]
    exact hbefore
  · exact fun u hu => h.terminated u (c.tokens_left_prefix.subset hu)
  · rw [symbols, c.tokens_right]
    exact hafter
  · exact fun u hu => h.terminated u (c.tokens_right_suffix.subset hu)
  · rw [← hbefore, List.map_map]
    rfl

/-- **Where symbols are joined by a delimiter the region is cut.** -/
theorem exists_cut {delimiters : List Kind} (h : r.Spells (xs ++ k.symbol :: ys))
    (hfree : Undivided delimiters 0 (xs.map Prod.fst))
    (hdepth : depth? 0 (xs.map Prod.fst) = some 0) (hk : k ∈ delimiters) :
    ∃ c : Cut delimiters r, c.left.Spells xs ∧ c.token.kind = k ∧ c.right.Spells ys := by
  obtain ⟨c, hleft, htoken, hright, hkinds⟩ := h.exists_split rfl
  refine ⟨⟨c, ?_, ?_, ?_⟩, hleft, htoken, hright⟩
  · rw [hkinds]
    exact hfree
  · rw [hkinds]
    exact depthAlong_of_depth? hdepth
  · rw [htoken]
    exact hk

/-- **Symbols in parentheses are the body of a group.** -/
theorem exists_group
    (h : r.Spells (Kind.lparen.symbol :: (xs ++ Kind.rparen.symbol :: ys)))
    (hdepth : depth? 0 (xs.map Prod.fst) = some 0) :
    ∃ (o : Opening r) (c : Closing o), c.left.Spells xs ∧ c.right.Spells ys := by
  obtain ⟨s, -, hopens, hright, hfirst⟩ := h.exists_split (List.nil_append _).symm
  let o : Opening r := ⟨s, List.map_eq_nil_iff.mp hfirst, hopens⟩
  obtain ⟨c, hleft, hcloses, hafter, hkinds⟩ := hright.exists_split rfl
  refine ⟨o, ⟨c, ?_, hcloses⟩, hleft, hafter⟩
  rw [hkinds]
  exact hdepth

end Spells

/-! ## Commands -/

variable {r : Region}

theorem ownIssues_eq_nil_iff : r.ownIssues = [] ↔ Watch.start.Accepts r.tokens :=
  Watch.accepts_iff.symm

/-- Where no issue is left at the end of a command, its parentheses are closed. -/
theorem isClosed_of_ownIssues (h : r.ownIssues = []) : r.isClosed := by
  have hend := (List.append_eq_nil_iff.mp h).2
  have hopened := (List.append_eq_nil_iff.mp hend).2
  rw [List.map_eq_nil_iff, List.reverse_eq_nil_iff] at hopened
  rw [isClosed, hopened]
  rfl

/-- A group that is closed has no issues exactly if its tokens raise none and it encloses a line
that is not empty and has none. -/
theorem commandIssues_of_closing {o : Opening r} (c : Closing o) :
    r.commandIssues = [] ↔
      Watch.start.Accepts r.tokens ∧ c.left.tokens ≠ [] ∧ c.left.closed.lineIssues = [] := by
  rw [commandIssues_of_some (o.groupBody?_of_closing c), List.append_eq_nil_iff,
    List.append_eq_nil_iff, and_assoc, ← ownIssues_eq_nil_iff]
  refine and_congr_right fun hown => and_congr_left fun _ => ?_
  rw [isClosed_of_ownIssues hown, Bool.true_and]
  by_cases hblank : c.left.tokens = []
  · have hbody : c.left.closed.isBlank := isBlank_iff.mpr hblank
    simp [hbody, hblank]
  · have hbody : ¬ c.left.closed.isBlank := fun hb => hblank (isBlank_iff.mp hb)
    simp [hbody, hblank]

/-- **The parts of a command** are read as a command without parentheses. -/
theorem parse_items {first : Item} {rest : List Item} (h : r.Spells (Cmd.items first rest).yield) :
    r.toCommand.erase = (Cmd.items first rest).command ∧ r.commandIssues = [] := by
  rw [Cmd.yield] at h
  -- no part of the command is a parenthesis
  have hnone : r.groupBody? = none := by
    refine groupBody?_eq_none_of_kinds fun hmem => ?_
    rw [h.kinds_eq] at hmem
    rcases Item.kind_of_mem_yield hmem with hk | hk <;> cases hk
  refine ⟨?_, ?_⟩
  · rw [toCommand_of_none hnone, Command.erase_simple, words, Words.collect_items h.symbols_eq,
      Cmd.command]
  · have haccepts : (Watch.outside false false).Accepts r.tokens := by
      refine Watch.accepts_items h.symbols_eq h.terminated fun hafter => ?_
      cases hafter
    rw [commandIssues_of_none hnone]
    exact ownIssues_eq_nil_iff.mpr haccepts

/-- **A line in parentheses** is read as a group around it. -/
theorem parse_group {body : Body} {after : List Redir} (h : r.Spells (Cmd.group body after).yield)
    (hbody : ∀ s : Region, s.Spells body.yield →
      s.toLine.conditionals.map Conditional.erase = body.conditionals ∧ s.lineIssues = []) :
    r.toCommand.erase = (Cmd.group body after).command ∧ r.commandIssues = [] := by
  rw [Cmd.yield, Redir.flatMap_yield] at h
  obtain ⟨o, c, hinner, hafter⟩ := h.exists_group body.depth?_yield
  obtain ⟨htree, hissues⟩ := hbody c.left.closed ⟨hinner.symbols_eq, hinner.terminated⟩
  -- words and watch pass over the body; both see the redirections behind it
  refine ⟨?_, ?_⟩
  · have hwords : r.words = ⟨[], after.map Redir.redirection⟩ := by
      rw [words, c.tokens_eq_group, Words.collect_group o.opens c.closes c.depth?_left,
        Words.collect_items hafter.symbols_eq, Item.words_redirs]
    rw [toCommand_of_some (o.groupBody?_of_closing c), Command.erase_group, Line.erase_eq, htree,
      hwords, Cmd.command]
  · refine (commandIssues_of_closing c).mpr ⟨?_, ?_, hissues⟩
    · rw [c.tokens_eq_group, Watch.accepts_group o.opens c.closes c.depth?_left]
      refine Watch.accepts_items hafter.symbols_eq hafter.terminated fun _ raw hmem => ?_
      obtain ⟨redir, -, heq⟩ := List.mem_map.mp hmem
      cases heq
    · rw [Ne, hinner.tokens_eq_nil_iff]
      exact body.yield_ne_nil

/-! ## Lines -/

/-- A region without operators and groups is read as one command. -/
theorem toLine_of_single (hfree : ∀ level : Level, Undivided level.delimiters 0 r.kinds)
    (hnone : r.groupBody? = none) :
    r.toLine.conditionals.map Conditional.erase =
      [⟨(), [⟨(), [.simple () r.words]⟩], [], .eol⟩] := by
  rw [toLine_of_single_command hfree, toCommand_of_none (r := r.closed.closed.closed) hnone]
  simp only [List.map_singleton, Conditional.erase_eq, Pipeline.erase_eq, Command.erase_simple]
  rfl

/-- Nothing is wrong with it if nothing is wrong with the command. -/
theorem lineIssues_of_single (hfree : ∀ level : Level, Undivided level.delimiters 0 r.kinds)
    (hnone : r.groupBody? = none) (hown : r.ownIssues = []) : r.lineIssues = [] := by
  rw [lineIssues_of_undivided (hfree .conditional)]
  intro hne
  rw [conditionalIssues_of_undivided (r := r.closed) (hfree .pipeline)]
  refine ⟨hne, ?_⟩
  rw [pipelineIssues_of_undivided (r := r.closed.closed) (hfree .command)]
  refine ⟨hne, ?_⟩
  rw [commandIssues_of_none (r := r.closed.closed.closed) hnone]
  exact hown

/-- A region without tokens is read as one blank conditional, and as a line nothing is wrong with
it. -/
theorem parse_blank (h : r.Spells []) :
    r.toLine.conditionals.map Conditional.erase = [blankConditional] ∧ r.lineIssues = [] := by
  have htokens : r.tokens = [] := h.tokens_eq_nil_iff.mpr rfl
  have hfree : ∀ level : Level, Undivided level.delimiters 0 r.kinds := by
    intro level
    rw [h.kinds_eq]
    trivial
  have hnone : r.groupBody? = none := by
    refine groupBody?_eq_none_of_kinds ?_
    rw [h.kinds_eq]
    exact List.not_mem_nil
  refine ⟨?_, lineIssues_of_single hfree hnone (ownIssues_eq_nil_iff.mpr ?_)⟩
  · rw [toLine_of_single hfree hnone, words, htokens]
    rfl
  · rw [htokens]
    rfl

theorem Spells.closed {ss : List Symbol} (h : r.Spells ss) : r.closed.Spells ss :=
  ⟨h.symbols_eq, h.terminated⟩

theorem Spells.tokens_ne_nil {ss : List Symbol} (h : r.Spells ss) (hss : ss ≠ []) :
    r.tokens ≠ [] :=
  fun hnil => hss (h.tokens_eq_nil_iff.mp hnil)

theorem Spells.undivided {delimiters : List Kind} {ss : List Symbol} (h : r.Spells ss)
    (hfree : Undivided delimiters 0 (ss.map Prod.fst)) : Undivided delimiters 0 r.kinds := by
  rw [h.kinds_eq]
  exact hfree

/-- A conditional in front of a separator is read as it is, and the rest of the line is read behind
the separator. -/
theorem parse_separated {c : Chain} {s : Separator} {ys : List Symbol}
    (h : r.Spells (c.yield ++ s.kind.symbol :: ys))
    (hchain : ∀ q : Region, q.Spells c.yield →
      q.toConditional.pipelines.map Pipeline.erase = c.pipelines ∧
        q.toConditional.joins = c.joins ∧ q.conditionalIssues = []) :
    ∃ q : Region, q.Spells ys ∧
      r.toLine.conditionals.map Conditional.erase =
        ⟨(), c.pipelines, c.joins, s.kind⟩ :: q.toLine.conditionals.map Conditional.erase ∧
      (q.lineIssues = [] → r.lineIssues = []) := by
  have hmem : s.kind ∈ Level.conditional.delimiters := by cases s <;> decide
  obtain ⟨cut, hleft, htoken, hright⟩ := h.exists_cut c.undivided c.depth?_yield hmem
  obtain ⟨hpipelines, hjoins, hissues⟩ := hchain cut.left hleft
  refine ⟨cut.right, hright, ?_, fun hrest => ?_⟩
  · rw [conditionals_of_cut cut, List.map_cons, Conditional.erase_eq, hpipelines, hjoins,
      separator_toConditional, cut.nextOperator_left, htoken]
  · rw [lineIssues_of_cut cut]
    exact ⟨⟨hleft.tokens_ne_nil c.yield_ne_nil, hissues⟩, hrest⟩

end Region

namespace Grammar

open Region

mutual

/-- **The regions of a line** that is not empty are read as its conditionals. -/
theorem Body.parse : ∀ (b : Body) {r : Region}, r.Spells b.yield →
    r.toLine.conditionals.map Conditional.erase = b.conditionals ∧ r.lineIssues = []
  | .last c, r, h => by
    rw [Body.yield] at h
    have hfree := h.undivided c.undivided
    obtain ⟨hpipelines, hjoins, hissues⟩ := c.parse h.closed
    refine ⟨?_, (lineIssues_of_undivided hfree).mpr fun _ => hissues⟩
    rw [conditionals_of_undivided hfree, List.map_singleton, Conditional.erase_eq, hpipelines,
      hjoins, separator_toConditional, nextOperator_closed, Body.conditionals]
  | .ended c s, r, h => by
    rw [Body.yield] at h
    obtain ⟨q, hright, htree, hissues⟩ := parse_separated h fun _ hq => c.parse hq
    obtain ⟨htree_right, hissues_right⟩ := parse_blank hright
    refine ⟨?_, hissues hissues_right⟩
    rw [htree, htree_right, Body.conditionals]
  | .followed c s rest, r, h => by
    rw [Body.yield] at h
    obtain ⟨q, hright, htree, hissues⟩ := parse_separated h fun _ hq => c.parse hq
    obtain ⟨htree_right, hissues_right⟩ := rest.parse hright
    refine ⟨?_, hissues hissues_right⟩
    rw [htree, htree_right, Body.conditionals]

/-- The regions of a conditional are read as its pipelines and the operators between them. -/
theorem Chain.parse : ∀ (c : Chain) {r : Region}, r.Spells c.yield →
    r.toConditional.pipelines.map Pipeline.erase = c.pipelines ∧
      r.toConditional.joins = c.joins ∧ r.conditionalIssues = []
  | .last p, r, h => by
    rw [Chain.yield] at h
    have hfree := h.undivided (p.undivided .pipeline (by decide))
    obtain ⟨hcommands, hissues⟩ := p.parse h.closed
    obtain ⟨hpipelines, hjoins⟩ := pipelines_of_undivided hfree
    refine ⟨?_, ?_, ?_⟩
    · rw [hpipelines, List.map_singleton, Pipeline.erase_eq, hcommands, Chain.pipelines]
    · rw [hjoins, Chain.joins]
    · rw [conditionalIssues_of_undivided hfree]
      exact ⟨h.tokens_ne_nil p.yield_ne_nil, hissues⟩
  | .joined p j rest, r, h => by
    rw [Chain.yield] at h
    have hmem : j.kind ∈ Level.pipeline.delimiters := by cases j <;> decide
    obtain ⟨cut, hleft, htoken, hright⟩ :=
      h.exists_cut (p.undivided .pipeline (by decide)) p.depth?_yield hmem
    obtain ⟨hcommands, hissues⟩ := p.parse hleft
    obtain ⟨hrest, hjoins_rest, hissues_right⟩ := rest.parse hright
    obtain ⟨hpipelines, hjoins⟩ := pipelines_of_cut cut
    refine ⟨?_, ?_, ?_⟩
    · rw [hpipelines, List.map_cons, hrest, Pipeline.erase_eq, hcommands, Chain.pipelines]
    · rw [hjoins, hjoins_rest, htoken, Chain.joins]
    · rw [conditionalIssues_of_cut cut]
      exact ⟨⟨hleft.tokens_ne_nil p.yield_ne_nil, hissues⟩, hissues_right⟩

/-- The regions of a pipeline are read as its commands. -/
theorem Pipe.parse : ∀ (p : Pipe) {r : Region}, r.Spells p.yield →
    r.toPipeline.commands.map Command.erase = p.commands ∧ r.pipelineIssues = []
  | .last c, r, h => by
    rw [Pipe.yield] at h
    have hfree := h.undivided (c.undivided .command)
    obtain ⟨hcommand, hissues⟩ := c.parse h.closed
    refine ⟨?_, ?_⟩
    · rw [commands_of_undivided hfree, List.map_singleton, hcommand, Pipe.commands]
    · rw [pipelineIssues_of_undivided hfree]
      exact ⟨h.tokens_ne_nil c.yield_ne_nil, hissues⟩
  | .piped c rest, r, h => by
    rw [Pipe.yield] at h
    obtain ⟨cut, hleft, -, hright⟩ :=
      h.exists_cut (c.undivided .command) c.depth?_yield (by decide)
    obtain ⟨hcommand, hissues⟩ := c.parse hleft
    obtain ⟨hrest, hissues_right⟩ := rest.parse hright
    refine ⟨?_, ?_⟩
    · rw [commands_of_cut cut, List.map_cons, hcommand, hrest, Pipe.commands]
    · rw [pipelineIssues_of_cut cut]
      exact ⟨⟨hleft.tokens_ne_nil c.yield_ne_nil, hissues⟩, hissues_right⟩

/-- The region of a command is read as the command. -/
theorem Cmd.parse : ∀ (c : Cmd) {r : Region}, r.Spells c.yield →
    r.toCommand.erase = c.command ∧ r.commandIssues = []
  | .items _ _, _, h => parse_items h
  | .group body _, _, h => parse_group h fun _ hs => body.parse hs

end

end Grammar

/-- **Lines of the grammar.** A text whose tokens leave nothing open and are the symbols of a
derivation is read as the tree of the derivation, and nothing is wrong with it. -/
theorem Line.ofText_of_sentence (s : Sentence) (t : Text)
    (hterminated : ∀ u ∈ tokenize t, u.isTerminated)
    (hyield : (tokenize t).map Token.symbol = s.yield) :
    (Line.ofText t).erase = s.tree ∧ diagnose (Region.ofText t) = [] := by
  have hspells : (Region.ofText t).Spells s.yield := by
    refine ⟨?_, ?_⟩
    · rw [Region.symbols, Region.tokens_ofText, hyield]
    · rw [Region.tokens_ofText]
      exact hterminated
  rw [Line.ofText, Line.erase_eq, diagnose_eq_nil_iff]
  cases s with
  | empty =>
    obtain ⟨htree, hissues⟩ := Region.parse_blank hspells
    rw [htree]
    exact ⟨rfl, hissues⟩
  | body b =>
    obtain ⟨htree, hissues⟩ := b.parse hspells
    rw [htree]
    exact ⟨rfl, hissues⟩

/-- A group in the background, with a redirection and a separator inside it. -/
theorem Line.ofText_group_in_background :
    (Line.ofText "(a;b >c) 2>>d &".toList).erase =
        (Sentence.body (.ended (.last (.last (.group
          (.followed (.last (.last (.items (.word ['a']) []))) .sequence
            (.last (.last (.last (.items (.word ['b']) [.redir ⟨.write, ['c']⟩])))))
          [⟨.stderrAppend, ['d']⟩]))) .background)).tree ∧
      diagnose (Region.ofText "(a;b >c) 2>>d &".toList) = [] :=
  Line.ofText_of_sentence _ _ (by decide +kernel) (by decide +kernel)

end CommandLine
