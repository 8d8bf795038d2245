import CommandLine.Proofs.Targets

/-!
# Lines that can be executed

A shell that executes a tree relies on what its nodes hold: a command to run or at least a
redirection, a target for each of them, a line inside of each group. None of this is checked where
trees are built. It holds of every line without issues, though the issues are looked for in another
walk over the segments and from other facts about the tokens.

* `Line.Executable` … `Command.Executable` — what a shell relies on at the four levels.
* `Watch.depth?_of_accepts`, `Watch.args_of_accepts` — parentheses and arguments of a command without
  issues.
* `Region.executable_toCommand` … `Region.executable_toLine` — the nodes of the four levels.
* `Line.executable_of_diagnose` — a text without issues.
-/

namespace CommandLine

/-! ## What a shell relies on -/

/-- A span without tokens. -/
def Span.IsBlank (s : Span) : Prop := tokenize s.text = []

/-- Every redirection has a target. -/
def Words.Complete (w : Words) : Prop := ∀ x ∈ w.redirections, x.target ≠ none

/-- A conditional in which there is nothing to run. -/
structure Conditional.Vacant (c : Conditional Span) : Prop where
  /-- it holds no token -/
  blank : c.mark.IsBlank
  /-- its commands have no words, and none is a group -/
  idle : ∀ p ∈ c.pipelines, ∀ m ∈ p.commands, ∃ mark, m = .simple mark ⟨[], []⟩

mutual

/-- A line that can be executed. Only behind its last separator there may be nothing to run. -/
inductive Line.Executable : Line Span → Prop where
  /-- all conditionals can be executed -/
  | full {l : Line Span} (hne : l.conditionals ≠ [])
      (hparts : ∀ c ∈ l.conditionals, c.Executable) : Line.Executable l
  /-- the last conditional is vacant, and all others can be executed -/
  | ended {mark : Span} {init : List (Conditional Span)} {last : Conditional Span}
      (hinit : ∀ c ∈ init, c.Executable) (hlast : last.Vacant) :
      Line.Executable ⟨mark, init ++ [last]⟩

/-- A conditional that can be executed. -/
inductive Conditional.Executable : Conditional Span → Prop where
  /-- it is not blank, and neither are its pipelines, which can all be executed -/
  | conditional {c : Conditional Span} (hmark : ¬ c.mark.IsBlank) (hne : c.pipelines ≠ [])
      (hparts : ∀ p ∈ c.pipelines, p.Executable) : Conditional.Executable c

/-- A pipeline that can be executed. -/
inductive Pipeline.Executable : Pipeline Span → Prop where
  /-- it is not blank, and neither are its commands, which can all be executed -/
  | pipeline {p : Pipeline Span} (hmark : ¬ p.mark.IsBlank) (hne : p.commands ≠ [])
      (hparts : ∀ m ∈ p.commands, m.Executable) : Pipeline.Executable p

/-- A command that can be executed. -/
inductive Command.Executable : Command Span → Prop where
  /-- it is not blank, has arguments or redirections, and all targets -/
  | simple {mark : Span} {words : Words} (hmark : ¬ mark.IsBlank)
      (hwords : words.args ≠ [] ∨ words.redirections ≠ []) (htargets : words.Complete) :
      Command.Executable (.simple mark words)
  /-- a group has redirections with all targets beside it, no arguments, and a line in it that is not
  blank and can be executed -/
  | group {mark : Span} {body : Line Span} {words : Words} (hmark : ¬ mark.IsBlank)
      (hargs : words.args = []) (htargets : words.Complete) (hinner : ¬ body.mark.IsBlank)
      (hbody : body.Executable) : Command.Executable (.group mark body words)

end

/-! ## One command -/

namespace Watch

variable {w : Watch} {t : Token} {ts : List Token}

/-- **The parentheses of a command without issues** match: one that closes nothing is reported where
it stands, and one that stays open at the end. -/
theorem depth?_of_accepts (h : w.Accepts ts) :
    depth? w.opened.length (ts.map Token.kind) = some 0 := by
  induction ts generalizing w with
  | nil =>
    have hopened := (List.append_eq_nil_iff.mp h).2
    rw [List.map_eq_nil_iff, List.reverse_eq_nil_iff] at hopened
    rw [hopened]
    rfl
  | cons t ts ih =>
    obtain ⟨hissues, hrest⟩ := h
    have hstray : ¬ (t.kind = .rparen ∧ w.opened.length = 0) := by
      rintro ⟨hk, hlength⟩
      have htoken := (List.append_eq_nil_iff.mp hissues).2
      simp [tokenIssues, hk, List.eq_nil_of_length_eq_zero hlength] at htoken
    have hlength : (w.step t).opened.length = depthAfter w.opened.length t.kind :=
      length_openedAfter
    rw [List.map_cons, depth?, if_neg hstray, ← hlength]
    exact ih hrest

/-- **Behind a group** without issues there are no arguments. -/
theorem args_of_accepts {hasWords : Bool} (h : (outside hasWords true).Accepts ts)
    (hspelled : ∀ t ∈ ts, t.kind = .redirect → ∃ op, t.redirectOp? = some op) :
    (Words.collect 0 none ts).args = [] := by
  -- a redirect operator takes its target along, so the induction is on the number of tokens
  induction hn : ts.length using Nat.strongRecOn generalizing ts with
  | ind n ih =>
    subst hn
    cases ts with
    | nil => rfl
    | cons t us =>
      obtain ⟨ht, hus⟩ := List.forall_mem_cons.mp hspelled
      cases hk : t.kind with
      | word =>
        obtain ⟨⟨-, hbefore⟩, -⟩ := (accepts_word us hk).mp h
        cases hbefore
      | redirect =>
        obtain ⟨op, hop⟩ := ht hk
        obtain ⟨u, vs, rfl, hu, -, hrest⟩ := (accepts_redirect us hk).mp h
        have hlt : vs.length < (t :: u :: vs).length := Nat.lt_succ_of_lt (Nat.lt_succ_self _)
        have hargs := ih _ hlt hrest (List.forall_mem_cons.mp hus).2 rfl
        simp [Words.collect, Words.addRedirections, hk, hop, hu, hargs]
      | lparen => exact absurd h (not_accepts_paren us (.inr ⟨hk, rfl⟩))
      | rparen => exact absurd h (not_accepts_paren us (.inl hk))
      | _ =>
        have hstep : (outside hasWords true).step t = outside hasWords true := by
          simp [step, openedAfter, outside, hk]
        have hrest := h.2
        rw [hstep] at hrest
        have hargs := ih _ (Nat.lt_succ_self _) hrest hus rfl
        simp [Words.collect, Words.addRedirections, Words.targetless, hk, hargs]

end Watch

namespace Region

variable {r c p m : Region}

/-- The node of a region is blank if the region has no tokens. -/
theorem isBlank_span : r.span.IsBlank ↔ r.tokens = [] := by
  rw [Span.IsBlank, tokenize, tokensOf_eq_nil_iff, tokens, tokensOf_eq_nil_iff]
  rfl

theorem isBlank_span_iff : r.span.IsBlank ↔ r.isBlank := isBlank_span.trans isBlank_iff.symm

/-- A command without issues has a target for each redirection. -/
theorem complete_words (h : m.ownIssues = []) : m.words.Complete := by
  have hle := m.agree_ownIssues.le
  rw [h, List.countP_nil, Nat.le_zero, List.countP_eq_zero] at hle
  intro x hx hnone
  apply hle x hx
  rw [Redirection.isTargetless, hnone]
  rfl

/-- A command without issues that is no group starts with a word or a redirection. -/
theorem words_of_ownIssues (hne : m.tokens ≠ []) (hown : m.ownIssues = [])
    (hfree : ∀ level : Level, Undivided level.delimiters 0 m.kinds) (hnone : m.groupBody? = none) :
    m.words.args ≠ [] ∨ m.words.redirections ≠ [] := by
  obtain ⟨t, ts, htokens⟩ := List.exists_cons_of_ne_nil hne
  rw [kinds, htokens] at hfree
  rw [ownIssues_eq_nil_iff, htokens] at hown
  rcases kind_of_undivided hfree with hk | hk | hk | hk
  · left
    have hsymbol : t.symbol = (.word, t.raw) := by
      rw [Token.symbol, hk]
    rw [words, htokens, Words.collect_word ts hsymbol]
    exact List.cons_ne_nil _ _
  · right
    have hmem : (t, ts) ∈ Words.redirects 0 m.tokens := by
      rw [htokens, Words.redirects, if_pos ⟨rfl, hk⟩]
      exact List.mem_cons_self
    obtain ⟨op, hop⟩ := exists_redirectOp_of_mem hmem
    rw [redirections_words]
    apply List.ne_nil_of_mem
    exact List.mem_filterMap.mpr ⟨_, hmem, by rw [Words.redirection?, hop]; rfl⟩
  · exact (groupBody?_eq_none_iff.mp hnone).elim ⟨⟨[], t, ts, htokens⟩, rfl, hk⟩
  · exact absurd hown (Watch.not_accepts_paren ts (.inl hk))

/-- A group without issues has no arguments. -/
theorem args_of_closing {o : Opening m} (c : Closing o) (hown : m.ownIssues = []) :
    m.words.args = [] := by
  rw [ownIssues_eq_nil_iff, c.tokens_eq_group,
    Watch.accepts_group o.opens c.closes c.depth?_left] at hown
  rw [words, c.tokens_eq_group, Words.collect_group o.opens c.closes c.depth?_left]
  refine Watch.args_of_accepts hown fun t ht hk => ?_
  obtain ⟨op, hop, -⟩ := Token.exists_redirectOp ht hk
  exact ⟨op, hop⟩

/-! ## Nodes -/

/-- **A command without issues** can be executed if the line in its parentheses can. -/
theorem executable_toCommand (hne : m.tokens ≠ []) (hissues : m.commandIssues = [])
    (hfree : ∀ level : Level, Undivided level.delimiters 0 m.kinds)
    (hbody : ∀ body, m.groupBody? = some body → body.lineIssues = [] → body.toLine.Executable) :
    m.toCommand.Executable := by
  have hown := ownIssues_of_commandIssues hissues
  have hmark : ¬ m.span.IsBlank := mt isBlank_span.mp hne
  cases hm : m.groupBody? with
  | none =>
    rw [toCommand_of_none hm]
    exact .simple hmark (words_of_ownIssues hne hown hfree hm) (complete_words hown)
  | some body =>
    rw [toCommand_of_some hm]
    obtain ⟨o, ⟨c, rfl⟩ | ⟨hopen, rfl⟩⟩ := exists_opening hm
    · obtain ⟨-, hinner, hinside⟩ := (commandIssues_of_closing c).mp hissues
      refine .group hmark (args_of_closing c hown) (complete_words hown) ?_ (hbody _ hm hinside)
      rw [mark_toLine]
      exact mt isBlank_span.mp hinner
    · -- a parenthesis that stays open is an issue
      rw [ownIssues_eq_nil_iff, o.tokens_eq_cons] at hown
      exact absurd hown (Watch.not_accepts_unclosed o.opens hopen)

/-- A pipeline without issues can be executed if its commands can. -/
theorem executable_toPipeline (hne : p.tokens ≠ []) (hissues : p.pipelineIssues = [])
    (hcommand : ∀ m ∈ p.divide Level.command.delimiters, m.tokens ≠ [] → m.commandIssues = [] →
      m.toCommand.Executable) :
    p.toPipeline.Executable := by
  rw [toPipeline_eq]
  refine .pipeline (mt isBlank_span.mp hne) (by simp [divide_ne_nil]) ?_
  intro m' hm'
  obtain ⟨m, hm, rfl⟩ := List.mem_map.mp hm'
  obtain ⟨hmark, hclean⟩ := pipelineIssues_eq_nil_iff.mp hissues m hm
  exact hcommand m hm hmark hclean

/-- A conditional without issues can be executed if its commands can. -/
theorem executable_toConditional (hne : c.tokens ≠ []) (hissues : c.conditionalIssues = [])
    (hcommand : ∀ p ∈ c.divide Level.pipeline.delimiters, ∀ m ∈ p.divide Level.command.delimiters,
      m.tokens ≠ [] → m.commandIssues = [] → m.toCommand.Executable) :
    c.toConditional.Executable := by
  rw [toConditional_eq]
  refine .conditional (mt isBlank_span.mp hne) (by simp [divide_ne_nil]) ?_
  intro p' hp'
  obtain ⟨p, hp, rfl⟩ := List.mem_map.mp hp'
  obtain ⟨hmark, hclean⟩ := conditionalIssues_eq_nil_iff.mp hissues p hp
  exact executable_toPipeline hmark hclean (hcommand p hp)

/-- A conditional without tokens has nothing to run. -/
theorem vacant_toConditional (h : c.tokens = []) : c.toConditional.Vacant := by
  rw [toConditional_eq]
  refine ⟨isBlank_span.mpr h, ?_⟩
  intro p' hp' m' hm'
  obtain ⟨p, hp, rfl⟩ := List.mem_map.mp hp'
  rw [toPipeline_eq] at hm'
  obtain ⟨m, hm, rfl⟩ := List.mem_map.mp hm'
  have htokens : m.tokens = [] := tokens_eq_nil_of_mem_divide (tokens_eq_nil_of_mem_divide h hp) hm
  refine ⟨m.span, ?_⟩
  rw [toCommand_of_none (groupBody?_of_tokens_eq_nil htokens), words, htokens]
  rfl

/-- A line without issues can be executed if its commands can. -/
theorem executable_toLine_of_commands (h : r.lineIssues = [])
    (hcommand : ∀ m ∈ r.commands, m.tokens ≠ [] → m.commandIssues = [] → m.toCommand.Executable) :
    r.toLine.Executable := by
  rw [lineIssues_eq, List.flatMap_eq_nil_iff] at h
  have hconditional : ∀ c ∈ r.divide Level.conditional.delimiters, c.tokens ≠ [] →
      c.toConditional.Executable := by
    intro c hc hne
    have hplace := h c hc
    rw [conditionalPlaceIssues, if_neg (mt isBlank_iff.mp hne)] at hplace
    refine executable_toConditional hne hplace fun p hp m hm => ?_
    exact hcommand m (mem_commands.mpr ⟨c, hc, p, hp, hm⟩)
  obtain ⟨init, last, hdivide, hinit, -⟩ := exists_last_segment Level.conditional.delimiters r
  rw [hdivide, List.forall_mem_append, List.forall_mem_singleton] at h hconditional
  have hexecutable : ∀ c ∈ init.map toConditional, c.Executable := by
    intro c' hc'
    obtain ⟨c, hc, rfl⟩ := List.mem_map.mp hc'
    -- a separator stands behind it, so it is reported if it is blank
    have hplace := h.1 c hc
    rw [conditionalPlaceIssues, if_pos (separator_of_mem (hinit c hc)),
      ite_isBlank_eq_nil_iff] at hplace
    exact hconditional.1 c hc hplace.1
  rw [toLine_eq, hdivide, List.map_append, List.map_singleton]
  by_cases hblank : last.tokens = []
  · exact .ended hexecutable (vacant_toConditional hblank)
  · refine .full (by simp) (List.forall_mem_append.mpr ⟨hexecutable, ?_⟩)
    exact List.forall_mem_singleton.mpr (hconditional.2 hblank)

/-- **A line without issues** can be executed. -/
theorem executable_toLine (h : r.lineIssues = []) : r.toLine.Executable := by
  induction r using command_induction with
  | line r ih =>
    refine executable_toLine_of_commands h fun m hm hne hissues => ?_
    exact executable_toCommand hne hissues (undivided_of_mem_commands hm) (ih m hm)

/-! ## Parentheses of a line -/

/-- Where the parentheses of all segments match, those of the region do: no delimiter is one. -/
theorem depth?_of_divide (level : Level)
    (h : ∀ s ∈ r.divide level.delimiters, depth? 0 s.kinds = some 0) :
    depth? 0 r.kinds = some 0 := by
  induction r using cut_induction level.delimiters with
  | last r hfree =>
    rw [divide_of_undivided hfree, List.forall_mem_singleton] at h
    exact h
  | cut r c ih =>
    rw [divide_of_cut c, List.forall_mem_cons] at h
    obtain ⟨hopen, hclose⟩ := c.kind_ne_paren
    rw [kinds, c.tokens_eq_append, List.map_append, depth?_append]
    change (depth? 0 c.left.kinds).bind _ = _
    rw [h.1, Option.bind_some, List.map_cons, depth?, if_neg fun hk => hclose hk.1,
      depthAfter_zero hopen]
    exact ih h.2

/-- **The parentheses of a line without issues** match. -/
theorem depth?_of_lineIssues (h : r.lineIssues = []) : depth? 0 r.kinds = some 0 := by
  refine depth?_of_divide .conditional fun c hc => ?_
  refine depth?_of_divide .pipeline fun p hp => ?_
  refine depth?_of_divide .command fun m hm => ?_
  have hmem : m ∈ r.commands := mem_commands.mpr ⟨c, hc, p, hp, hm⟩
  by_cases hne : m.tokens = []
  · rw [kinds, hne]
    rfl
  · have hissues := commandIssues_of_lineIssues h hmem hne
    exact Watch.depth?_of_accepts (ownIssues_eq_nil_iff.mp (ownIssues_of_commandIssues hissues))

end Region

/-- **A text without issues can be executed**: its tokens leave nothing open, its parentheses match,
and its tree has everything that a shell relies on. -/
theorem Line.executable_of_diagnose (t : Text) (h : diagnose (Region.ofText t) = []) :
    (∀ u ∈ tokenize t, u.isTerminated) ∧
      depth? 0 ((tokenize t).map Token.kind) = some 0 ∧ (Line.ofText t).Executable := by
  rw [diagnose_eq_nil_iff] at h
  rw [← Region.tokens_ofText]
  exact ⟨Region.terminated_of_lineIssues h, Region.depth?_of_lineIssues h,
    Region.executable_toLine h⟩

/-- A group in the background that ends with a separator, with a redirection behind it. -/
theorem Line.executable_of_diagnose_group :
    diagnose (Region.ofText "(a 'b c';) >f &".toList) = [] ∧
      (∀ u ∈ tokenize "(a 'b c';) >f &".toList, u.isTerminated) ∧
      depth? 0 ((tokenize "(a 'b c';) >f &".toList).map Token.kind) = some 0 ∧
      (Line.ofText "(a 'b c';) >f &".toList).Executable := by
  have hspells : (Region.ofText "(a 'b c';) >f &".toList).Spells
      (Grammar.Body.ended (.last (.last (.group
        (.ended (.last (.last (.items (.word ['a']) [.word "'b c'".toList]))) .sequence)
        [⟨.write, ['f']⟩]))) .background).yield :=
    ⟨by decide +kernel, by decide +kernel⟩
  have hissues := diagnose_eq_nil_iff.mpr (Grammar.Body.parse _ hspells).2
  exact ⟨hissues, executable_of_diagnose _ hissues⟩

end CommandLine
