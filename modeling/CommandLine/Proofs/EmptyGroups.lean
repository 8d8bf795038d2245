import CommandLine.Proofs.Balancing
import CommandLine.Proofs.Evidence
import CommandLine.Proofs.Executable
import CommandLine.Proofs.Matching
import CommandLine.Proofs.Shifting

/-!
# Empty groups

What a group holds is found by the parenthesis that closes it, and whether it is closed by what its
command leaves open at the end. The two agree on a group that is never closed, which is not reported
to be empty. They part where a group is closed and another one behind it is not: then an empty group
is not reported either. In all other commands it is, whatever stands beside it.

* `ClosesFirst`, `ClosesAll` — the first parenthesis of a command is closed in it, and all are.
* `Line.HasCommand` — the commands of a tree at any depth, and `Region.hasCommand_toLine` for where
  they come from.
* `Region.eq_of_mem_commands` — commands of one line do not overlap.
* `Region.HasCommand.eq_of_stop` — no other group ends where one that is closed does.
* `Region.emptyGroup_mem_lineIssues_iff` — the report of one group.
* `Line.reportsEmptyGroup_iff` — the groups of a text that are reported to be empty.
-/

namespace CommandLine

/-! ## What a command closes -/

/-- Some tokens start with a parenthesis that is closed among them. -/
def ClosesFirst (ks : List Kind) : Prop :=
  ∃ inner after, ks = .lparen :: (inner ++ .rparen :: after) ∧ Balanced inner

/-- Some tokens close every parenthesis that they open: no back of them opens more than it
closes. -/
def ClosesAll (ks : List Kind) : Prop :=
  ∀ back, back <:+ ks → back.count .lparen ≤ back.count .rparen

/-- Behind some tokens no parenthesis stands open exactly if they close all that they open and those
that stood open before them. -/
theorem depthAlong_eq_zero_iff {depth : Nat} {ks : List Kind} :
    depthAlong depth ks = 0 ↔
      ClosesAll ks ∧ depth + ks.count .lparen ≤ ks.count .rparen := by
  induction ks generalizing depth with
  | nil =>
    simp only [ClosesAll, depthAlong, List.foldl_nil, List.suffix_nil, forall_eq, List.count_nil]
    omega
  | cons k ks ih =>
    have hback : ClosesAll (k :: ks) ↔
        (k :: ks).count .lparen ≤ (k :: ks).count .rparen ∧ ClosesAll ks := by
      simp only [ClosesAll, List.suffix_cons_iff, forall_eq_or_imp]
    have hall : ClosesAll ks → ks.count .lparen ≤ ks.count .rparen :=
      fun h => h ks (List.suffix_refl ks)
    rw [depthAlong_cons, ih, hback]
    cases k <;> simp only [depthAfter, List.count_cons] <;> grind

theorem closesAll_iff {ks : List Kind} : ClosesAll ks ↔ depthAlong 0 ks = 0 := by
  rw [depthAlong_eq_zero_iff, Nat.zero_add]
  exact ⟨fun h => ⟨h, h ks (List.suffix_refl ks)⟩, fun h => h.1⟩

instance (ks : List Kind) : Decidable (ClosesAll ks) := decidable_of_iff _ closesAll_iff.symm

/-! ## Commands of a tree -/

/-- The kinds of the tokens of a node. -/
def Span.kinds (s : Span) : List Kind := (tokenize s.text).map Token.kind

/-- The second is a command of the line, or of a line in its parentheses, at any depth. -/
inductive Line.HasCommand {σ : Type} : Line σ → Command σ → Prop where
  /-- a command of the line -/
  | own {l : Line σ} {c : Conditional σ} {p : Pipeline σ} {m : Command σ}
      (hc : c ∈ l.conditionals) (hp : p ∈ c.pipelines) (hm : m ∈ p.commands) : HasCommand l m
  /-- a command inside the parentheses of one -/
  | inside {l : Line σ} {c : Conditional σ} {p : Pipeline σ} {mark : σ} {body : Line σ}
      {words : Words} {m : Command σ} (hc : c ∈ l.conditionals) (hp : p ∈ c.pipelines)
      (hg : .group mark body words ∈ p.commands) (h : HasCommand body m) : HasCommand l m

namespace Region

variable {r m m' body body' : Region}

theorem kinds_span (r : Region) : r.span.kinds = r.kinds := by
  rw [kinds, tokens_eq_shift, List.map_map]
  rfl

/-- **The commands in the tree of a region**, at any depth, are those of the region. -/
theorem hasCommand_toLine {n : Command Span} :
    r.toLine.HasCommand n ↔ ∃ m, r.HasCommand m ∧ m.toCommand = n := by
  constructor
  · intro h
    generalize hl : r.toLine = l at h
    induction h generalizing r with
    | own hc hp hm =>
      subst hl
      obtain ⟨m, hm, hn⟩ := mem_commands_toLine.mp ⟨_, hc, _, hp, hm⟩
      exact ⟨m, .own hm, hn⟩
    | inside hc hp hg _ ih =>
      subst hl
      obtain ⟨g, hg, hgroup⟩ := mem_commands_toLine.mp ⟨_, hc, _, hp, hg⟩
      obtain ⟨body, hbody, -, hline, -⟩ := toCommand_eq_group_iff.mp hgroup
      obtain ⟨m, hm, hn⟩ := ih hline
      exact ⟨m, .inside hg hbody hm, hn⟩
  · rintro ⟨m, hm, rfl⟩
    induction hm with
    | own hm =>
      obtain ⟨c, hc, p, hp, hn⟩ := mem_commands_toLine.mpr ⟨_, hm, rfl⟩
      exact .own hc hp hn
    | inside hg hbody _ ih =>
      obtain ⟨c, hc, p, hp, hn⟩ := mem_commands_toLine.mpr ⟨_, hg, rfl⟩
      rw [toCommand_of_some hbody] at hn
      exact .inside hc hp hn ih

/-! ## Places of commands -/

/-- Segments follow one another. -/
theorem pairwise_divide (delimiters : List Kind) (r : Region) :
    (r.divide delimiters).Pairwise fun s s' => s.stop ≤ s'.start := by
  induction r using cut_induction delimiters with
  | last r hfree =>
    rw [divide_of_undivided hfree]
    exact List.pairwise_singleton _ _
  | cut r c ih =>
    rw [divide_of_cut c]
    refine List.pairwise_cons.mpr ⟨fun s' hs' => ?_, ih⟩
    have hb := c.bounds
    have hs' : c.token.stop ≤ s'.start := (mem_divide hs').1
    change c.token.start ≤ s'.start
    omega

/-- So do the segments of segments. -/
theorem pairwise_flatMap_divide (delimiters : List Kind) {rs : List Region}
    (h : rs.Pairwise fun s s' => s.stop ≤ s'.start) :
    (rs.flatMap fun s => s.divide delimiters).Pairwise fun s s' => s.stop ≤ s'.start := by
  refine List.pairwise_flatMap.mpr ⟨fun s _ => pairwise_divide delimiters s, h.imp ?_⟩
  intro a b hab s hs s' hs'
  have hstop := (mem_divide hs).2.1
  have hstart := (mem_divide hs').1
  omega

/-- And so do commands. -/
theorem pairwise_commands (r : Region) :
    r.commands.Pairwise fun s s' => s.stop ≤ s'.start := by
  have hpipelines := pairwise_flatMap_divide Level.pipeline.delimiters
    (pairwise_divide Level.conditional.delimiters r)
  have hcommands := pairwise_flatMap_divide Level.command.delimiters hpipelines
  rwa [List.flatMap_assoc] at hcommands

/-- At most one command goes on at a position. -/
theorem eq_of_mem_commands (hm : m ∈ r.commands) (hm' : m' ∈ r.commands) {n : Nat}
    (h : m.start < n ∧ n ≤ m.stop) (h' : m'.start < n ∧ n ≤ m'.stop) : m = m' := by
  let Around (s : Region) : Prop := s.start < n ∧ n ≤ s.stop
  have hsymm : Std.Symm fun s s' : Region => Around s → Around s' → s = s' :=
    ⟨fun _ _ heq hs' hs => (heq hs hs').symm⟩
  have hone : r.commands.Pairwise fun s s' => Around s → Around s' → s = s' := by
    refine r.pairwise_commands.imp fun hle hs hs' => ?_
    exact absurd (Nat.lt_of_lt_of_le (Nat.lt_of_le_of_lt hle hs'.1) hs.2) (Nat.lt_irrefl _)
  exact hone.forall_of_forall (fun _ _ _ _ => rfl) hm hm' h h'

theorem bounds_of_mem_commands (hm : m ∈ r.commands) : r.start ≤ m.start ∧ m.stop ≤ r.stop := by
  obtain ⟨c, hc, p, hp, hm⟩ := mem_commands.mp hm
  have hconditional := mem_divide hc
  have hpipeline := mem_divide hp
  have hcommand := mem_divide hm
  omega

theorem HasCommand.bounds (h : r.HasCommand m) : r.start ≤ m.start ∧ m.stop ≤ r.stop := by
  induction h with
  | own hm => exact bounds_of_mem_commands hm
  | inside hg hbody _ ih =>
    have hgroup := bounds_of_mem_commands hg
    have hinner := groupBody?_bounds hbody
    omega

/-- A command at any depth is one of the line, or stands in the parentheses of one. -/
theorem HasCommand.exists_around (h : r.HasCommand m) :
    ∃ g ∈ r.commands, g.start ≤ m.start ∧ m.stop ≤ g.stop ∧
      (m = g ∨ ∃ inner, g.groupBody? = some inner ∧ inner.HasCommand m) := by
  cases h with
  | own hm => exact ⟨m, hm, Nat.le_refl _, Nat.le_refl _, .inl rfl⟩
  | inside hg hinner h =>
    have hgroup := groupBody?_bounds hinner
    have hwithin := h.bounds
    exact ⟨_, hg, by omega, by omega, .inr ⟨_, hinner, h⟩⟩

/-- Where every parenthesis has a partner, it has it in its command. -/
theorem HasCommand.unmatched_eq_nil (h : r.HasCommand m) (hr : unmatched [] r.tokens = []) :
    unmatched [] m.tokens = [] := by
  induction h with
  | own hm =>
    rw [unmatched_commands, List.flatMap_eq_nil_iff] at hr
    exact hr _ hm
  | inside hg hbody _ ih => exact ih (shut_of_matched hr _ hg _ hbody)

/-! ## Where groups end -/

/-- The body of a group that is closed ends before its command does, and leaves no parenthesis
without a partner. Otherwise it ends with the command, which does. -/
theorem stop_of_groupBody? (h : m.groupBody? = some body) :
    (body.stop < m.stop ∧ unmatched [] body.tokens = [] ∧ ClosesFirst m.kinds) ∨
      (body.stop = m.stop ∧ unmatched [] m.tokens ≠ [] ∧ m.isClosed = false) := by
  obtain ⟨o, ⟨c, rfl⟩ | ⟨hopen, rfl⟩⟩ := exists_opening h
  · have hends : c.token.start < c.token.stop ∧ c.token.stop ≤ m.stop := c.bounds.2
    have hkinds : m.kinds = .lparen :: (c.left.kinds ++ .rparen :: c.right.kinds) := by
      rw [kinds, c.tokens_eq_group, List.map_cons, List.map_append, List.map_cons, o.opens,
        c.closes]
      rfl
    exact .inl ⟨Nat.lt_of_lt_of_le hends.1 hends.2, unmatched_of_balanced c.depth?_left,
      c.left.kinds, c.right.kinds, hkinds, balanced_iff.mpr c.depth?_left⟩
  · refine .inr ⟨rfl, ?_, o.isClosed_of_unclosed hopen⟩
    rw [o.unmatched_eq hopen]
    exact List.cons_ne_nil _ _

/-- **No other group ends where one that is closed does.** -/
theorem HasCommand.eq_of_stop (h : r.HasCommand m) (h' : r.HasCommand m')
    (hbody : m.groupBody? = some body) (hbody' : m'.groupBody? = some body')
    (hclosed : body'.stop < m'.stop) (hstop : body.stop = body'.stop) : m = m' := by
  have hb := groupBody?_bounds hbody
  have hb' := groupBody?_bounds hbody'
  have hle := body.start_le_stop
  have hle' := body'.start_le_stop
  induction r using command_induction with
  | line r ih =>
    -- the two are in the same command of the line, the one that goes on where the bodies end
    obtain ⟨g, hg, hstart, hend, hm⟩ := h.exists_around
    obtain ⟨g', hg', hstart', hend', hm'⟩ := h'.exists_around
    obtain rfl := eq_of_mem_commands hg hg' (n := body.stop) (by omega) (by omega)
    rcases hm with rfl | ⟨inner, hinner, hm⟩
    · rcases hm' with rfl | ⟨inner, hinner, hm'⟩
      · rfl
      · cases hbody.symm.trans hinner
        have hwithin := hm'.bounds
        omega
    · rcases hm' with rfl | ⟨inner', hinner', hm'⟩
      · -- in the body of a group that is closed, every group is
        cases hbody'.symm.trans hinner
        have hwithin := hm.bounds
        rcases stop_of_groupBody? hbody' with ⟨-, hmatched, -⟩ | ⟨heq, -, -⟩
        · rcases stop_of_groupBody? hbody with ⟨hlt, -, -⟩ | ⟨-, hopen, -⟩
          · omega
          · exact absurd (hm.unmatched_eq_nil hmatched) hopen
        · omega
      · cases hinner.symm.trans hinner'
        exact ih _ hg _ hinner hm hm'

/-! ## Reports -/

/-- What is reported of a command is reported of the line, at any depth. -/
theorem HasCommand.mem_lineIssues {p : Issue → Bool} (hp : Issue.Passes p) {x : Issue} (hpx : p x)
    (h : r.HasCommand m) (hx : x ∈ m.commandIssues) : x ∈ r.lineIssues := by
  have hcommand : ∀ {r m : Region}, m ∈ r.commands → x ∈ m.commandIssues → x ∈ r.lineIssues := by
    intro r m hm hx
    have hfilter : x ∈ r.lineIssues.filter p := by
      rw [filter_lineIssues hp]
      exact List.mem_flatMap.mpr ⟨m, hm, List.mem_filter.mpr ⟨hx, hpx⟩⟩
    exact (List.mem_filter.mp hfilter).1
  induction h with
  | own hm => exact hcommand hm hx
  | inside hg hbody _ ih =>
    refine hcommand hg ?_
    rw [commandIssues_of_some hbody]
    exact List.mem_append_right _ (ih hx)

/-- A command is closed if it closes every parenthesis that it opens. -/
theorem isClosed_iff : m.isClosed ↔ ClosesAll m.kinds := by
  have hlength : m.watch.2.opened.length = depthAlong 0 m.kinds :=
    Watch.length_opened_run Watch.start m.tokens
  rw [closesAll_iff, ← hlength, isClosed, List.isEmpty_iff, List.length_eq_zero_iff]

/-- A report of an empty group is that of a group whose command is closed. -/
theorem exists_group_of_mem_lineIssues {n : Nat} (h : ⟨.emptyGroup, n⟩ ∈ r.lineIssues) :
    ∃ m body, r.HasCommand m ∧ m.groupBody? = some body ∧ m.isClosed ∧ body.isBlank ∧
      body.stop = n := by
  obtain ⟨m, hm, hown | ⟨body, hbody, hempty, hissue⟩⟩ :=
    exists_command_of_passes (Issue.passes_reports (f := .group) (by decide)) h rfl
  · exact absurd (List.mem_filter.mpr ⟨hown, rfl⟩) Watch.not_mem_run_group
  · rw [Bool.and_eq_true] at hempty
    exact ⟨m, body, hm, hbody, hempty.1, hempty.2, (congrArg Issue.position hissue).symm⟩

/-- **An empty group** is reported where its body ends, if its command is closed. -/
theorem emptyGroup_mem_lineIssues_iff (h : r.HasCommand m) (hbody : m.groupBody? = some body) :
    ⟨.emptyGroup, body.stop⟩ ∈ r.lineIssues ↔ m.isClosed ∧ body.isBlank := by
  constructor
  · intro hx
    obtain ⟨m', body', h', hbody', hclosed, hblank, hstop⟩ := exists_group_of_mem_lineIssues hx
    -- its command is closed, so the group is, and no other one ends there
    rcases stop_of_groupBody? hbody' with ⟨hlt, -, -⟩ | ⟨-, -, hopen⟩
    · obtain rfl := h.eq_of_stop h' hbody hbody' hlt hstop.symm
      cases hbody.symm.trans hbody'
      exact ⟨hclosed, hblank⟩
    · rw [hopen] at hclosed
      cases hclosed
  · rintro ⟨hclosed, hblank⟩
    refine h.mem_lineIssues (Issue.passes_reports (f := .group) (by decide)) rfl ?_
    rw [commandIssues_of_some hbody, hclosed, hblank]
    simp

/-- A region without operators of any level is a command of its own. -/
theorem closed_mem_commands (h : ∀ level : Level, Undivided level.delimiters 0 r.kinds) :
    r.closed ∈ r.commands := by
  rw [commands_of_free h]
  exact List.mem_singleton_self _

end Region

/-! ## Groups of a text -/

/-- An empty group is reported at a position of a text. -/
def ReportsEmptyGroup (t : Text) (n : Nat) : Prop :=
  ∃ i ∈ diagnose (Region.ofText t), i.problem.code = "empty_group".toList ∧ i.position = n

theorem reportsEmptyGroup_eq (t : Text) (n : Nat) :
    ReportsEmptyGroup t n ↔ ⟨.emptyGroup, n⟩ ∈ (Region.ofText t).lineIssues := by
  have hproblem : ∀ p : Problem, p.family = .group → p = .emptyGroup := by
    intro p hp
    cases p with
    | emptyGroup => rfl
    | nothingBefore level => cases level <;> cases hp
    | nothingAfter level => cases level <;> cases hp
    | _ => cases hp
  simp only [ReportsEmptyGroup, diagnose, List.mem_mergeSort]
  constructor
  · rintro ⟨⟨p, n⟩, hi, hcode, rfl⟩
    have hfamily := beq_iff_eq.mp ((Issue.code_eq_iff (f := .group)).mp hcode)
    cases hproblem p hfamily
    exact hi
  · intro hi
    exact ⟨_, hi, rfl, rfl⟩

/-- **The groups that are reported to be empty.** A group of the tree of a text, at any depth, is
reported where its body ends exactly if its parenthesis is closed in its command, its body holds no
token, and its command closes all other parentheses that it opens. Nothing else is reported to be an
empty group. -/
theorem Line.reportsEmptyGroup_iff (t : Text) :
    (∀ mark body words, (ofText t).HasCommand (.group mark body words) →
      (ReportsEmptyGroup t body.mark.stop ↔
        ClosesFirst mark.kinds ∧ body.mark.IsBlank ∧ ClosesAll mark.kinds)) ∧
    ∀ n, ReportsEmptyGroup t n →
      ∃ mark body words, (ofText t).HasCommand (.group mark body words) ∧ body.mark.stop = n := by
  constructor
  · intro mark line words h
    obtain ⟨m, hm, hgroup⟩ := Region.hasCommand_toLine.mp h
    obtain ⟨body, hbody, rfl, rfl, -⟩ := Region.toCommand_eq_group_iff.mp hgroup
    have hreport : ReportsEmptyGroup t body.stop ↔ m.isClosed ∧ body.isBlank :=
      (reportsEmptyGroup_eq t body.stop).trans (Region.emptyGroup_mem_lineIssues_iff hm hbody)
    rw [Region.mark_toLine, Region.kinds_span, Region.isBlank_span_iff, ← Region.isClosed_iff]
    refine hreport.trans ⟨fun ⟨hclosed, hblank⟩ => ⟨?_, hblank, hclosed⟩,
      fun ⟨_, hblank, hclosed⟩ => ⟨hclosed, hblank⟩⟩
    -- a command that closes all its parentheses closes the first
    rcases Region.stop_of_groupBody? hbody with ⟨-, -, hfirst⟩ | ⟨-, -, hopen⟩
    · exact hfirst
    · rw [hopen] at hclosed
      cases hclosed
  · intro n h
    obtain ⟨m, body, hm, hbody, -, -, rfl⟩ :=
      Region.exists_group_of_mem_lineIssues ((reportsEmptyGroup_eq t n).mp h)
    refine ⟨m.span, body.toLine, m.words, ?_, by rw [Region.mark_toLine]; rfl⟩
    exact Region.hasCommand_toLine.mpr ⟨m, hm, Region.toCommand_of_some hbody⟩

/-- An empty group in the parentheses of another one, with a word beside it. -/
theorem Line.reportsEmptyGroup_beside :
    ∃ mark body words,
      (ofText "(() b) > f".toList).HasCommand (.group mark body words) ∧ body.mark.stop = 2 ∧
      ClosesFirst mark.kinds ∧ body.mark.IsBlank ∧ ClosesAll mark.kinds ∧
      ReportsEmptyGroup "(() b) > f".toList 2 := by
  let outer : Region := (Region.ofText "(() b) > f".toList).closed
  let inner : Region := ⟨"(() b) > f".toList, 1, 5, 5, by decide, by decide, by decide⟩
  let body : Region := ⟨"(() b) > f".toList, 2, 2, 2, by decide, by decide, by decide⟩
  have houter : outer ∈ (Region.ofText "(() b) > f".toList).commands :=
    Region.closed_mem_commands fun level => by cases level <;> decide +kernel
  have hinner : inner.closed ∈ inner.commands :=
    Region.closed_mem_commands fun level => by cases level <;> decide +kernel
  have hinside : outer.groupBody? = some inner := by decide +kernel
  have hbody : inner.closed.groupBody? = some body := by decide +kernel
  have hgroup : (ofText "(() b) > f".toList).HasCommand
      (.group inner.span body.toLine inner.words) :=
    Region.hasCommand_toLine.mpr
      ⟨_, .inside houter hinside (.own hinner), Region.toCommand_of_some hbody⟩
  have hkinds : inner.span.kinds = [.lparen, .rparen, .word] := by decide +kernel
  have hfirst : ClosesFirst inner.span.kinds := by
    rw [hkinds]
    exact ⟨[], [.word], rfl, balanced_iff.mpr rfl⟩
  have hall : ClosesAll inner.span.kinds := by
    rw [hkinds]
    decide
  have hmark : body.toLine.mark = ⟨[], 2, 2⟩ := by
    rw [Region.mark_toLine]
    decide
  have hblank : body.toLine.mark.IsBlank := by
    rw [hmark]
    exact tokensOf_nil _ _
  have hreport := ((reportsEmptyGroup_iff _).1 _ _ _ hgroup).mpr ⟨hfirst, hblank, hall⟩
  rw [hmark] at hreport
  exact ⟨_, _, _, hgroup, by rw [hmark], hfirst, hblank, hall, hreport⟩

/-- **An empty group in front of one that is not closed** is not reported, though its own
parenthesis is closed. -/
theorem Line.empty_group_before_open :
    ∃ mark body words,
      (ofText "() (".toList).HasCommand (.group mark body words) ∧ body.mark.stop = 1 ∧
      ClosesFirst mark.kinds ∧ body.mark.IsBlank ∧ ¬ ReportsEmptyGroup "() (".toList 1 := by
  let command : Region := (Region.ofText "() (".toList).closed
  let body : Region := ⟨"() (".toList, 1, 1, 1, by decide, by decide, by decide⟩
  have hcommand : (Region.ofText "() (".toList).HasCommand command :=
    .own (Region.closed_mem_commands fun level => by cases level <;> decide +kernel)
  have hbody : command.groupBody? = some body := by decide +kernel
  have hkinds : command.span.kinds = [.lparen, .rparen, .lparen] := by decide +kernel
  have hmark : body.toLine.mark = ⟨[], 1, 1⟩ := by
    rw [Region.mark_toLine]
    decide
  refine ⟨command.span, body.toLine, command.words, ?_, by rw [hmark], ?_, ?_, ?_⟩
  · exact Region.hasCommand_toLine.mpr ⟨_, hcommand, Region.toCommand_of_some hbody⟩
  · rw [hkinds]
    exact ⟨[], [.lparen], rfl, balanced_iff.mpr rfl⟩
  · rw [hmark]
    exact tokensOf_nil _ _
  · intro hreport
    have hclosed := ((Region.emptyGroup_mem_lineIssues_iff hcommand hbody).mp
      ((reportsEmptyGroup_eq _ _).mp hreport)).1
    exact absurd hclosed (by decide +kernel)

end CommandLine
