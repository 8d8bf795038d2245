import CommandLine.Proofs.Parsing

/-!
# What is accepted

A line without issues leaves nothing open, and is a line of the grammar if no parenthesis is opened
right behind a word. The watch over the tokens of a command lets one case pass: a group behind
redirections only, which is neither an argument nor a group of its own. Its parentheses are counted,
but what they enclose is never read.

* `Region.undivided_of_mem_commands` — a command is divided at no level.
* `Region.terminated_of_lineIssues` — a line without issues leaves nothing open.
* `Region.exists_cmd` … `Region.exists_sentence` — the derivations of regions without issues.
* `derivable_iff_detached` — the lines without issues that the grammar has.
-/

namespace CommandLine

open Grammar

/-- A redirect token spells a redirect operator. -/
theorem Region.exists_op {r : Region} {t : Token} (ht : t ∈ r.tokens) (hk : t.kind = .redirect) :
    ∃ op : RedirectOp, t.raw = op.spelling := by
  obtain ⟨op, -, hspelling⟩ := Token.exists_redirectOp ht hk
  exact ⟨op, hspelling.symm⟩

namespace Region

variable {r m : Region}

/-! ## Commands -/

/-- No operator of any level stands outside the parentheses of a command. -/
theorem undivided_of_mem_commands (hm : m ∈ r.commands) (level : Level) :
    Undivided level.delimiters 0 m.kinds := by
  obtain ⟨c, hc, p, hp, hm⟩ := mem_commands.mp hm
  have hpipeline : Undivided Level.conditional.delimiters 0 p.kinds :=
    undivided_of_mem_divide_of (undivided_of_mem_divide hc) (by decide) hp
  cases level with
  | commandLine => exact undivided_of_forall fun _ _ => List.not_mem_nil
  | conditional => exact undivided_of_mem_divide_of hpipeline (by decide) hm
  | pipeline => exact undivided_of_mem_divide_of (undivided_of_mem_divide hp) (by decide) hm
  | command => exact undivided_of_mem_divide hm

theorem tokens_infix_of_mem_commands (hm : m ∈ r.commands) : m.tokens <:+: r.tokens := by
  obtain ⟨c, hc, p, hp, hm⟩ := mem_commands.mp hm
  exact (tokens_infix_of_mem_divide hm).trans
    ((tokens_infix_of_mem_divide hp).trans (tokens_infix_of_mem_divide hc))

/-- A line without issues has none in a command, unless the command is empty. -/
theorem commandIssues_of_lineIssues (h : r.lineIssues = []) (hm : m ∈ r.commands)
    (hne : m.tokens ≠ []) : m.commandIssues = [] := by
  obtain ⟨c, hc, p, hp, hm⟩ := mem_commands.mp hm
  have hblank : ¬ c.isBlank := by
    intro hb
    have hinfix := (tokens_infix_of_mem_divide hm).trans (tokens_infix_of_mem_divide hp)
    rw [isBlank_iff.mp hb, List.infix_nil] at hinfix
    exact hne hinfix
  rw [lineIssues_eq, List.flatMap_eq_nil_iff] at h
  have hplace := h c hc
  rw [conditionalPlaceIssues, if_neg hblank] at hplace
  have hpipeline := (conditionalIssues_eq_nil_iff.mp hplace p hp).2
  exact (pipelineIssues_eq_nil_iff.mp hpipeline m hm).2

/-! ## Nothing is left open -/

/-- Tokens that no segment of a region leaves open are not left open in the region: a delimiter is
no word. -/
theorem terminated_of_divide {delimiters : List Kind} (hword : .word ∉ delimiters)
    (h : ∀ s ∈ r.divide delimiters, ∀ t ∈ s.tokens, t.isTerminated) :
    ∀ t ∈ r.tokens, t.isTerminated := by
  induction r using cut_induction delimiters with
  | last r hfree =>
    rw [divide_of_undivided hfree] at h
    exact h r.closed (List.mem_singleton_self _)
  | cut r c ih =>
    rw [divide_of_cut c, List.forall_mem_cons] at h
    intro t ht
    rw [c.tokens_eq_append] at ht
    rcases List.mem_append.mp ht with ht | ht
    · exact h.1 t ht
    · rcases List.mem_cons.mp ht with rfl | ht
      · exact Token.isTerminated_of_ne_word fun hk => hword (hk ▸ c.kind_mem)
      · exact ih h.2 t ht

theorem ownIssues_of_commandIssues (h : m.commandIssues = []) : m.ownIssues = [] := by
  cases hbody : m.groupBody? with
  | none =>
    rw [commandIssues_of_none hbody] at h
    exact h
  | some body =>
    rw [commandIssues_of_some hbody, List.append_eq_nil_iff, List.append_eq_nil_iff] at h
    exact h.1.1

/-- A token leaves nothing open if another one stands behind it: it is cut off there. -/
theorem isTerminated_of_next {before after : List Token} {t u : Token}
    (h : r.tokens = before ++ t :: u :: after) : t.isTerminated := by
  -- the token ends before the next one starts, and so before the region ends
  let c : Split r := ⟨before, t, u :: after, h⟩
  have hu : u ∈ c.right.tokens := by
    rw [c.tokens_right]
    exact List.mem_cons_self
  have hbounds : t.stop ≤ u.start ∧ u.start < u.stop ∧ u.stop ≤ r.stop := tokens_bounds hu
  exact Token.isTerminated_of_lt c.mem (by omega) (Nat.le_trans r.stop_le_limit r.limit_le_length)

/-- A command that is accepted leaves nothing open. Only its last token could. -/
theorem terminated_of_accepts (h : Watch.start.Accepts m.tokens) :
    ∀ t ∈ m.tokens, t.isTerminated := by
  intro t ht
  obtain ⟨before, after, htokens⟩ := List.append_of_mem ht
  cases after with
  | nil =>
    rw [htokens] at h
    exact Watch.isTerminated_of_accepts_concat h
  | cons u us => exact isTerminated_of_next htokens

/-- **A line without issues leaves nothing open**, in no group either. -/
theorem terminated_of_lineIssues (h : r.lineIssues = []) : ∀ t ∈ r.tokens, t.isTerminated := by
  have hword : ∀ level : Level, .word ∉ level.delimiters := by
    intro level
    cases level <;> decide
  refine terminated_of_divide (hword .conditional) fun c hc => ?_
  refine terminated_of_divide (hword .pipeline) fun p hp => ?_
  refine terminated_of_divide (hword .command) fun m hm t ht => ?_
  have hmem : m ∈ r.commands := mem_commands.mpr ⟨c, hc, p, hp, hm⟩
  have hissues := commandIssues_of_lineIssues h hmem (List.ne_nil_of_mem ht)
  exact terminated_of_accepts (ownIssues_eq_nil_iff.mp (ownIssues_of_commandIssues hissues)) t ht

/-! ## Derivations -/

/-- Around an operator the symbols of a region are those of both sides. -/
theorem Split.symbols_eq (c : Split r) (hk : c.token.kind.isControl) :
    r.symbols = c.left.symbols ++ c.token.kind.symbol :: c.right.symbols := by
  rw [symbols, c.tokens_eq_append, List.map_append, List.map_cons, Token.symbol, c.raw_token hk]
  rfl

/-- The tokens of a closed group behind it. -/
theorem Closing.plain {o : Opening m} (c : Closing o)
    (hfree : ∀ level : Level, Undivided level.delimiters 0 m.kinds) (hdetached : Detached m.kinds) :
    Watch.Plain true c.right.tokens := by
  have hkinds : m.kinds = o.token.kind :: (c.left.kinds ++ c.token.kind :: c.right.kinds) := by
    rw [kinds, c.tokens_eq_group, List.map_cons, List.map_append, List.map_cons]
    rfl
  have hdepth := depthAlong_of_depth? (depth?_succ c.depth?_left)
  refine ⟨fun level => ?_, fun t ht => exists_op ht, ?_, .inl rfl⟩
  · have hlevel := hfree level
    rw [hkinds, o.opens] at hlevel
    have hbehind := (undivided_append.mp hlevel.2).2
    change Undivided _ (depthAlong 1 c.left.kinds) _ at hbehind
    rw [hdepth, c.closes] at hbehind
    exact hbehind.2
  · rw [hkinds] at hdetached
    exact (detached_cons.mp hdetached).2.right_of_append.tail

/-- A command without issues that starts with no parenthesis is made of words and redirections. -/
theorem exists_items (hne : m.tokens ≠ []) (haccepts : Watch.start.Accepts m.tokens)
    (hempty : IsEmpty (Opening m))
    (hfree : ∀ level : Level, Undivided level.delimiters 0 m.kinds) (hdetached : Detached m.kinds) :
    ∃ c : Cmd, c.yield = m.symbols := by
  have hfirst : ∀ t ∈ m.tokens.head?, t.kind ≠ .lparen := by
    intro t ht hk
    obtain ⟨ts, hts⟩ := List.head?_eq_some_iff.mp ht
    exact hempty.elim ⟨⟨[], t, ts, hts⟩, rfl, hk⟩
  have hplain : Watch.Plain false m.tokens :=
    ⟨hfree, fun t ht => exists_op ht, hdetached, .inr hfirst⟩
  obtain ⟨items, hyield, -⟩ := Watch.exists_items haccepts hplain
  cases items with
  | nil => exact absurd (List.map_eq_nil_iff.mp hyield.symm) hne
  | cons first rest =>
    refine ⟨.items first rest, ?_⟩
    rw [Cmd.yield, hyield, symbols]

/-- A command without issues that starts with a parenthesis is a group with redirections behind
it. -/
theorem exists_group_cmd (o : Opening m) (hissues : m.commandIssues = [])
    (hfree : ∀ level : Level, Undivided level.delimiters 0 m.kinds) (hdetached : Detached m.kinds)
    (hbody : ∀ body, m.groupBody? = some body → body.lineIssues = [] →
      ∃ s : Sentence, s.yield = body.symbols) :
    ∃ c : Cmd, c.yield = m.symbols := by
  have haccepts := ownIssues_eq_nil_iff.mp (ownIssues_of_commandIssues hissues)
  cases hclosing : closing? 0 o.right.tokens with
  | none =>
    -- an open parenthesis is left at the end
    rw [o.tokens_eq_cons] at haccepts
    exact absurd haccepts (Watch.not_accepts_unclosed o.opens hclosing)
  | some t =>
    obtain ⟨c, -⟩ := exists_closing hclosing
    obtain ⟨-, hinner, hinside⟩ := (commandIssues_of_closing c).mp hissues
    rw [c.tokens_eq_group, Watch.accepts_group o.opens c.closes c.depth?_left] at haccepts
    obtain ⟨items, hyield, hredirs⟩ := Watch.exists_items haccepts (c.plain hfree hdetached)
    obtain ⟨after, rfl⟩ := Item.exists_redirs (hredirs rfl)
    obtain ⟨s, hs⟩ := hbody c.left.closed (o.groupBody?_of_closing c) hinside
    cases s with
    | empty => exact absurd (List.map_eq_nil_iff.mp hs.symm) hinner
    | body b =>
      refine ⟨.group b after, ?_⟩
      have ho : o.token.symbol = Kind.lparen.symbol := by
        rw [Token.symbol, o.opens, o.raw_eq]
        rfl
      have hc : c.token.symbol = Kind.rparen.symbol := by
        rw [Token.symbol, c.closes, c.raw_eq]
        rfl
      have hb : b.yield = c.left.tokens.map Token.symbol := hs
      rw [Cmd.yield, Redir.flatMap_yield, hyield, hb, symbols, c.tokens_eq_group, List.map_cons,
        List.map_append, List.map_cons, ho, hc]

/-- **A command without issues is one of the grammar**, if no parenthesis is opened behind a word
and the body of a group is a line of the grammar. -/
theorem exists_cmd (hne : m.tokens ≠ []) (hissues : m.commandIssues = [])
    (hfree : ∀ level : Level, Undivided level.delimiters 0 m.kinds) (hdetached : Detached m.kinds)
    (hbody : ∀ body, m.groupBody? = some body → body.lineIssues = [] →
      ∃ s : Sentence, s.yield = body.symbols) :
    ∃ c : Cmd, c.yield = m.symbols := by
  rcases isEmpty_or_nonempty (Opening m) with hempty | ⟨⟨o⟩⟩
  · have haccepts := ownIssues_eq_nil_iff.mp (ownIssues_of_commandIssues hissues)
    exact exists_items hne haccepts hempty hfree hdetached
  · exact exists_group_cmd o hissues hfree hdetached hbody

/-- A pipeline without issues is one of the grammar if its commands are. -/
theorem exists_pipe {p : Region} (hissues : p.pipelineIssues = [])
    (hcmd : ∀ m ∈ p.divide Level.command.delimiters, m.tokens ≠ [] → m.commandIssues = [] →
      ∃ c : Cmd, c.yield = m.symbols) :
    ∃ q : Pipe, q.yield = p.symbols := by
  induction p using cut_induction Level.command.delimiters with
  | last p hfree =>
    obtain ⟨hne, hclosed⟩ := (pipelineIssues_of_undivided hfree).mp hissues
    rw [divide_of_undivided hfree, List.forall_mem_singleton] at hcmd
    obtain ⟨c, hc⟩ := hcmd hne hclosed
    exact ⟨.last c, hc⟩
  | cut p cut ih =>
    obtain ⟨⟨hne, hleft⟩, hright⟩ := (pipelineIssues_of_cut cut).mp hissues
    rw [divide_of_cut cut, List.forall_mem_cons] at hcmd
    obtain ⟨c, hc⟩ := hcmd.1 hne hleft
    obtain ⟨rest, hrest⟩ := ih hright hcmd.2
    have hk : cut.token.kind = .pipe := List.mem_singleton.mp cut.kind_mem
    refine ⟨.piped c rest, ?_⟩
    rw [Pipe.yield, hc, hrest, cut.symbols_eq (by rw [hk]; rfl), hk]

/-- A conditional without issues is one of the grammar if its pipelines are. -/
theorem exists_chain {c : Region} (hissues : c.conditionalIssues = [])
    (hpipe : ∀ p ∈ c.divide Level.pipeline.delimiters, p.pipelineIssues = [] →
      ∃ q : Pipe, q.yield = p.symbols) :
    ∃ q : Chain, q.yield = c.symbols := by
  induction c using cut_induction Level.pipeline.delimiters with
  | last c hfree =>
    obtain ⟨-, hclosed⟩ := (conditionalIssues_of_undivided hfree).mp hissues
    rw [divide_of_undivided hfree, List.forall_mem_singleton] at hpipe
    obtain ⟨p, hp⟩ := hpipe hclosed
    exact ⟨.last p, hp⟩
  | cut c cut ih =>
    obtain ⟨⟨-, hleft⟩, hright⟩ := (conditionalIssues_of_cut cut).mp hissues
    rw [divide_of_cut cut, List.forall_mem_cons] at hpipe
    obtain ⟨p, hp⟩ := hpipe.1 hleft
    obtain ⟨rest, hrest⟩ := ih hright hpipe.2
    obtain ⟨j, hj⟩ : ∃ j : Join, j.kind = cut.token.kind := by
      have hmem := cut.kind_mem
      simp only [Level.delimiters, List.mem_cons, List.not_mem_nil, or_false] at hmem
      rcases hmem with h | h
      · exact ⟨.and, h.symm⟩
      · exact ⟨.or, h.symm⟩
    have hcontrol : cut.token.kind.isControl := by
      rw [← hj]
      cases j <;> rfl
    refine ⟨.joined p j rest, ?_⟩
    rw [Chain.yield, hp, hrest, cut.symbols_eq hcontrol, hj]

/-- A line without issues is one of the grammar if its conditionals are. -/
theorem exists_sentence_of_chains (hissues : r.lineIssues = [])
    (hchain : ∀ c ∈ r.divide Level.conditional.delimiters, c.conditionalIssues = [] →
      ∃ q : Chain, q.yield = c.symbols) :
    ∃ s : Sentence, s.yield = r.symbols := by
  induction r using cut_induction Level.conditional.delimiters with
  | last r hfree =>
    rw [divide_of_undivided hfree, List.forall_mem_singleton] at hchain
    by_cases hne : r.tokens = []
    · refine ⟨.empty, ?_⟩
      rw [symbols, hne]
      rfl
    · obtain ⟨c, hc⟩ := hchain ((lineIssues_of_undivided hfree).mp hissues hne)
      exact ⟨.body (.last c), hc⟩
  | cut r cut ih =>
    obtain ⟨⟨-, hleft⟩, hright⟩ := (lineIssues_of_cut cut).mp hissues
    rw [divide_of_cut cut, List.forall_mem_cons] at hchain
    obtain ⟨c, hc⟩ := hchain.1 hleft
    obtain ⟨rest, hrest⟩ := ih hright hchain.2
    obtain ⟨s, hs⟩ : ∃ s : Separator, s.kind = cut.token.kind := by
      rcases cut.kind_separator with h | h
      · exact ⟨.sequence, h.symm⟩
      · exact ⟨.background, h.symm⟩
    have hcontrol : cut.token.kind.isControl := by
      rw [← hs]
      cases s <;> rfl
    -- nothing behind a separator makes it the one that ends the line
    cases rest with
    | empty =>
      refine ⟨.body (.ended c s), ?_⟩
      rw [Sentence.yield, Body.yield, hc, cut.symbols_eq hcontrol, hs, ← hrest]
      rfl
    | body b =>
      refine ⟨.body (.followed c s b), ?_⟩
      rw [Sentence.yield, Body.yield, hc, cut.symbols_eq hcontrol, hs, ← hrest]
      rfl

/-- **A line without issues is one of the grammar**, if no parenthesis is opened behind a word. -/
theorem exists_sentence (hissues : r.lineIssues = []) (hdetached : Detached r.kinds) :
    ∃ s : Sentence, s.yield = r.symbols := by
  induction r using line_induction with
  | line r ih =>
    refine exists_sentence_of_chains hissues fun c hc hchain => ?_
    refine exists_chain hchain fun p hp hpipe => ?_
    refine exists_pipe hpipe fun m hm hne hcmd => ?_
    have hmem : m ∈ r.commands := mem_commands.mpr ⟨c, hc, p, hp, hm⟩
    have hdetached_m : Detached m.kinds :=
      hdetached.infix ((tokens_infix_of_mem_commands hmem).map Token.kind)
    refine exists_cmd hne hcmd (undivided_of_mem_commands hmem) hdetached_m ?_
    intro body hbody hinside
    have hdetached_body : Detached body.kinds :=
      hdetached_m.infix ((tokens_infix_of_groupBody? hbody).map Token.kind)
    exact ih c hc p hp m hm body hbody hinside hdetached_body

end Region

/-- In a text that the grammar has, no parenthesis is opened right behind a word. -/
theorem detached_of_yield {t : Text} {s : Sentence}
    (h : s.yield = (tokenize t).map Token.symbol) : Detached ((tokenize t).map Token.kind) := by
  have hdetached := s.detached
  rw [h, List.map_map] at hdetached
  exact hdetached

/-- **What is accepted.** A text without issues leaves nothing open. It is a line of the grammar
exactly if no parenthesis is opened right behind a word. -/
theorem derivable_iff_detached (t : Text) (h : diagnose (Region.ofText t) = []) :
    (∀ u ∈ tokenize t, u.isTerminated) ∧
      ((∃ s : Sentence, s.yield = (tokenize t).map Token.symbol) ↔
        Detached ((tokenize t).map Token.kind)) := by
  rw [diagnose_eq_nil_iff] at h
  refine ⟨?_, ?_, fun hdetached => ?_⟩
  · rw [← Region.tokens_ofText]
    exact Region.terminated_of_lineIssues h
  · rintro ⟨s, hs⟩
    exact detached_of_yield hs
  · rw [← Region.tokens_ofText] at hdetached ⊢
    exact Region.exists_sentence h hdetached

/-- A group of two conditionals with a redirection behind it: there is no issue, and nothing is left
open. -/
theorem derivable_iff_detached_group :
    diagnose (Region.ofText "(a;'b c') >f".toList) = [] ∧
      (∀ u ∈ tokenize "(a;'b c') >f".toList, u.isTerminated) ∧
      ((∃ s : Sentence, s.yield = (tokenize "(a;'b c') >f".toList).map Token.symbol) ↔
        Detached ((tokenize "(a;'b c') >f".toList).map Token.kind)) := by
  have hspells : (Region.ofText "(a;'b c') >f".toList).Spells
      (Body.last (.last (.last (.group
        (.followed (.last (.last (.items (.word ['a']) []))) .sequence
          (.last (.last (.last (.items (.word "'b c'".toList) [])))))
        [⟨.write, ['f']⟩])))).yield :=
    ⟨by decide +kernel, by decide +kernel⟩
  have hissues := diagnose_eq_nil_iff.mpr (Body.parse _ hspells).2
  exact ⟨hissues, derivable_iff_detached _ hissues⟩

/-- **A group behind a redirection** is accepted, though the grammar has no such command, and
nothing of it is left in the tree. -/
theorem group_behind_redirection :
    diagnose (Region.ofText "> f (a)".toList) = [] ∧
      (¬ ∃ s : Sentence, s.yield = (tokenize "> f (a)".toList).map Token.symbol) ∧
      (Line.ofText "> f (a)".toList).erase =
        (Sentence.body (.last (.last (.last (.items (.redir ⟨.write, ['f']⟩) []))))).tree := by
  have hfree : ∀ level : Level,
      Undivided level.delimiters 0 (Region.ofText "> f (a)".toList).kinds := by
    intro level
    cases level <;> decide +kernel
  have hnone : (Region.ofText "> f (a)".toList).groupBody? = none := by
    rw [Region.groupBody?, if_neg (by decide +kernel)]
  have hown : (Region.ofText "> f (a)".toList).ownIssues = [] := by decide +kernel
  have hwords : (Region.ofText "> f (a)".toList).words = ⟨[], [⟨.write, 1, false, some ['f']⟩]⟩ := by
    decide +kernel
  have hattached : ¬ Detached ((tokenize "> f (a)".toList).map Token.kind) := by decide +kernel
  refine ⟨?_, ?_, ?_⟩
  · exact diagnose_eq_nil_iff.mpr (Region.lineIssues_of_single hfree hnone hown)
  · rintro ⟨s, hs⟩
    exact hattached (detached_of_yield hs)
  · rw [Line.ofText, Line.erase_eq, Region.toLine_of_single hfree hnone, hwords]
    rfl

end CommandLine
