import CommandLine.Proofs.Acceptance
import CommandLine.Proofs.Placing
import Mathlib.Data.List.Nodup

/-!
# Gathering from commands

What a tree and a diagnosis say of commands they say of each command on its own, down through the
bodies of groups. So what is gathered from a whole line is what is gathered from its commands, one
after the other.

* `Region.HasCommand` — the commands of a line at any depth.
* `Line.redirections` — the redirections of a tree, and `Region.redirections_toLine` for where they
  come from.
* `Problem.Family`, `Problem.code_eq` — the problems that share a code.
* `Region.filter_lineIssues` — the issues of a line that do not report an empty segment.
-/

namespace CommandLine

namespace Region

/-- The second region is a command of the first, or of the body of a group among its commands, at
any depth. -/
inductive HasCommand : Region → Region → Prop where
  /-- a command of the line -/
  | own {r m : Region} (hm : m ∈ r.commands) : HasCommand r m
  /-- a command inside the parentheses of one -/
  | inside {r g body m : Region} (hg : g ∈ r.commands) (hbody : g.groupBody? = some body)
      (h : HasCommand body m) : HasCommand r m

variable {r m : Region}

/-- A region without operators of any level is its own only command. -/
theorem commands_of_free (h : ∀ level : Level, Undivided level.delimiters 0 r.kinds) :
    r.commands = [r.closed] := by
  have hpipeline : r.closed.divide Level.pipeline.delimiters = [r.closed] :=
    divide_of_undivided (h .pipeline)
  have hcommand : r.closed.divide Level.command.delimiters = [r.closed] :=
    divide_of_undivided (h .command)
  rw [commands, divide_of_undivided (h .conditional), List.flatMap_singleton, hpipeline,
    List.flatMap_singleton, hcommand]

/-- What holds of all commands of a line holds of those outside and inside of parentheses. -/
theorem forall_hasCommand_iff {P : Region → Prop} :
    (∀ m, r.HasCommand m → P m) ↔
      ∀ g ∈ r.commands, P g ∧ ∀ body, g.groupBody? = some body → ∀ m, body.HasCommand m → P m := by
  constructor
  · intro h g hg
    exact ⟨h g (.own hg), fun body hbody m hm => h m (.inside hg hbody hm)⟩
  · rintro h m (hm | ⟨hg, hbody, hm⟩)
    · exact (h m hm).1
    · exact (h _ hg).2 _ hbody m hm

/-- **Induction over the commands of a line**: a property holds of every region if it holds of a
region whenever it holds of the bodies of the groups among its commands. -/
@[elab_as_elim]
theorem command_induction {motive : Region → Prop}
    (line : ∀ r : Region,
      (∀ m ∈ r.commands, ∀ body, m.groupBody? = some body → motive body) → motive r)
    (r : Region) : motive r := by
  induction r using line_induction with
  | line r ih =>
    apply line
    intro m hm body hbody
    obtain ⟨c, hc, p, hp, hm⟩ := mem_commands.mp hm
    exact ih c hc p hp m hm body hbody

end Region

/-! ## Redirections of a tree -/

mutual

/-- Every redirection of a line, those inside of parentheses included. -/
def Line.redirections {σ : Type} (l : Line σ) : List Redirection :=
  l.conditionals.flatMap fun c => c.redirections
termination_by sizeOf l
decreasing_by
  cases l
  have := List.sizeOf_lt_of_mem (by assumption)
  simp at *
  omega

/-- Every redirection of a conditional. -/
def Conditional.redirections {σ : Type} (c : Conditional σ) : List Redirection :=
  c.pipelines.flatMap fun p => p.redirections
termination_by sizeOf c
decreasing_by
  cases c
  have := List.sizeOf_lt_of_mem (by assumption)
  simp at *
  omega

/-- Every redirection of a pipeline. -/
def Pipeline.redirections {σ : Type} (p : Pipeline σ) : List Redirection :=
  p.commands.flatMap fun c => c.redirections
termination_by sizeOf p
decreasing_by
  cases p
  have := List.sizeOf_lt_of_mem (by assumption)
  simp at *
  omega

/-- Every redirection of a command: its own, and those inside of its parentheses. -/
def Command.redirections {σ : Type} : Command σ → List Redirection
  | .simple _ words => words.redirections
  | .group _ body words => words.redirections ++ body.redirections
termination_by c => sizeOf c

end

namespace Region

variable {r m : Region}

theorem redirections_toLine (r : Region) :
    r.toLine.redirections = r.commands.flatMap fun m => m.toCommand.redirections := by
  have hpipeline : ∀ p : Region, p.toPipeline.redirections =
      (p.divide Level.command.delimiters).flatMap fun m => m.toCommand.redirections := by
    intro p
    rw [Pipeline.redirections, toPipeline_eq, List.flatMap_map]
  have hconditional : ∀ c : Region, c.toConditional.redirections =
      (c.divide Level.pipeline.delimiters).flatMap fun p => p.toPipeline.redirections := by
    intro c
    rw [Conditional.redirections, toConditional_eq, List.flatMap_map]
  rw [Line.redirections, toLine_eq, List.flatMap_map, commands]
  simp only [List.flatMap_assoc, hconditional, hpipeline]

theorem redirections_of_none (h : m.groupBody? = none) :
    m.toCommand.redirections = m.words.redirections := by
  rw [toCommand_of_none h, Command.redirections]

theorem redirections_of_some {body : Region} (h : m.groupBody? = some body) :
    m.toCommand.redirections = m.words.redirections ++ body.toLine.redirections := by
  rw [toCommand_of_some h, Command.redirections]

end Region

/-! ## Families of problems -/

/-- What problems are about. -/
inductive Problem.Family where
  /-- a quote that is not closed -/
  | quote
  /-- a backslash that escapes nothing -/
  | escape
  /-- an empty command -/
  | command
  /-- an empty pipeline -/
  | pipeline
  /-- an empty conditional -/
  | conditional
  /-- a redirection without a target -/
  | target
  /-- a parenthesis that matches no other one -/
  | parenthesis
  /-- parentheses without a token between them -/
  | group
  /-- something beside a group -/
  | beside
  deriving DecidableEq

namespace Problem

/-- The code of the problems of a family. -/
def Family.code : Family → Text
  | quote => "unterminated_quote".toList
  | escape => "trailing_escape".toList
  | command => "empty_command".toList
  | pipeline => "empty_pipeline".toList
  | conditional => "empty_conditional".toList
  | target => "missing_redirect_target".toList
  | parenthesis => "unbalanced_group".toList
  | group => "empty_group".toList
  | beside => "mixed_group".toList

/-- Every family. -/
def Family.all : List Family :=
  [quote, escape, command, pipeline, conditional, target, parenthesis, group, beside]

/-- No two families have the same code. -/
theorem Family.code_injective : Function.Injective code := by
  have hmem : ∀ f : Family, f ∈ all := by
    intro f
    cases f <;> decide
  have hnodup : (all.map code).Nodup := by decide +kernel
  intro f g h
  exact List.inj_on_of_nodup_map hnodup (hmem f) (hmem g) h

/-- The family of a problem. -/
def family : Problem → Family
  | openQuote _ => .quote
  | trailingEscape => .escape
  | nothingBefore .command _ | nothingAfter .command _ => .command
  | nothingBefore .pipeline _ | nothingAfter .pipeline _ => .pipeline
  | nothingBefore _ _ | nothingAfter _ _ => .conditional
  | noTarget _ => .target
  | strayClose | unclosedGroup => .parenthesis
  | emptyGroup => .group
  | besideGroup _ => .beside

/-- **The code of a problem says its family**, and nothing else. -/
theorem code_eq (p : Problem) : p.code = p.family.code := by
  cases p with
  | nothingBefore level => cases level <;> rfl
  | nothingAfter level => cases level <;> rfl
  | _ => rfl

end Problem

/-- Whether an issue reports a problem of a family. -/
def Issue.reports (f : Problem.Family) (i : Issue) : Bool := i.problem.family == f

/-- These are the issues with its code. -/
theorem Issue.code_eq_iff {i : Issue} {f : Problem.Family} :
    i.problem.code = f.code ↔ i.reports f = true := by
  rw [Problem.code_eq, Problem.Family.code_injective.eq_iff, reports, beq_iff_eq]

/-- Issues of other families are not among those of one. -/
theorem Issue.filter_reports_eq_nil {f : Problem.Family} {is : List Issue}
    (h : ∀ x ∈ is, x.problem.family ≠ f) : is.filter (reports f) = [] := by
  rw [List.filter_eq_nil_iff]
  intro x hx
  rw [reports, beq_iff_eq]
  exact h x hx

namespace Watch

variable {w : Watch} {t : Token}

/-- But for missing targets, the issues found at a token are those that it raises itself. -/
theorem filter_issuesAt {f : Problem.Family} (hf : f ≠ .target) (w : Watch) (t : Token) :
    (w.issuesAt t).filter (Issue.reports f) = (w.tokenIssues t).filter (Issue.reports f) := by
  rw [issuesAt, List.filter_append, Issue.filter_reports_eq_nil, List.nil_append]
  cases w.redirect with
  | none => exact List.forall_mem_nil _
  | some r =>
    dsimp only
    split
    · exact List.forall_mem_nil _
    · exact List.forall_mem_singleton.mpr hf.symm

/-- Those found at the end are the parentheses that stand open. -/
theorem filter_endIssues {f : Problem.Family} (hf : f ≠ .target) (w : Watch) :
    w.endIssues.filter (Issue.reports f) =
      (w.opened.reverse.map fun p => (⟨.unclosedGroup, p⟩ : Issue)).filter (Issue.reports f) := by
  rw [endIssues, List.filter_append, Issue.filter_reports_eq_nil, List.nil_append]
  cases w.redirect with
  | none => exact List.forall_mem_nil _
  | some r => exact List.forall_mem_singleton.mpr hf.symm

/-- What a word leaves open is a quote, or a backslash. -/
theorem family_openEnd : ∀ x ∈ openEnd t, x.problem.family ∈ [.quote, .escape] := by
  rw [openEnd]
  cases t.unclosed? with
  | none => exact List.forall_mem_nil _
  | some o => cases o <;> exact List.forall_mem_singleton.mpr (by simp [Problem.family])

/-- What a token itself raises is what it leaves open, or that it stands where it should not. -/
theorem family_tokenIssues : ∀ x ∈ w.tokenIssues t,
    x.problem.family ∈ [.quote, .escape] ∨ x.problem.family ∈ [.parenthesis, .beside] := by
  rw [tokenIssues]
  cases t.kind with
  | lparen => exact forall_mem_ite _ (.inr (by simp [Problem.family]))
  | rparen => exact forall_mem_ite _ (.inr (by simp [Problem.family]))
  | word =>
    dsimp only
    split
    · refine List.forall_mem_append.mpr ⟨?_, forall_mem_ite _ (.inr (by simp [Problem.family]))⟩
      exact fun x hx => .inl (family_openEnd x hx)
    · exact List.forall_mem_nil _
  | _ => exact List.forall_mem_nil _

end Watch

/-! ## Issues of a line -/

/-- A test that passes over the issues of empty segments. -/
def Issue.Passes (p : Issue → Bool) : Prop :=
  ∀ x : Issue, x.problem.isEmptySegment = true → p x = false

/-- The empty segments are three families of their own. -/
theorem Issue.passes_reports {f : Problem.Family} (h : f ∉ [.command, .pipeline, .conditional]) :
    Passes (reports f) := by
  rintro ⟨problem, position⟩ hsegment
  rw [reports, beq_eq_false_iff_ne]
  rintro rfl
  cases problem with
  | nothingBefore level => cases level <;> exact h (by simp [Problem.family])
  | nothingAfter level => cases level <;> exact h (by simp [Problem.family])
  | _ => cases hsegment

variable {p : Issue → Bool}

/-- Where an empty segment is reported and any other one for what is inside it, a test that passes
over the report leaves what it leaves of the inside, if that is nothing for an empty one. -/
theorem filter_report (hp : Issue.Passes p) {s : Region} {inside : List Issue} {i : Issue}
    (hi : i.problem.isEmptySegment = true) (hblank : s.tokens = [] → inside.filter p = []) :
    (if s.isBlank then [i] else inside).filter p = inside.filter p := by
  split
  · next hs =>
    rw [hblank (Region.isBlank_iff.mp hs), List.filter_singleton, hp i hi]
    rfl
  · rfl

/-- Of the issues of some segments such a test leaves those inside of each. -/
theorem filter_segmentIssues (hp : Issue.Passes p) {level : Level} {previous : Option Kind}
    {parts : List (Region × List Issue)}
    (hblank : ∀ q ∈ parts, q.1.tokens = [] → q.2.filter p = []) :
    (segmentIssues level previous parts).filter p = parts.flatMap fun q => q.2.filter p := by
  induction parts generalizing previous with
  | nil => rfl
  | cons q rest ih =>
    obtain ⟨s, inside⟩ := q
    obtain ⟨hs, hrest⟩ := List.forall_mem_cons.mp hblank
    cases rest with
    | nil =>
      rw [segmentIssues, filter_report hp rfl hs, List.flatMap_singleton]
    | cons q rest =>
      rw [segmentIssues_cons (List.cons_ne_nil _ _), List.filter_append, filter_report hp rfl hs,
        ih hrest]
      simp only [List.flatMap_cons]

namespace Region

variable {r m : Region}

/-- A command without tokens has no issues. -/
theorem commandIssues_of_tokens_eq_nil (h : m.tokens = []) : m.commandIssues = [] := by
  rw [commandIssues_of_none (groupBody?_of_tokens_eq_nil h), ownIssues, watch, h]
  rfl

variable (hp : Issue.Passes p)

include hp

theorem filter_pipelineIssues (r : Region) :
    r.pipelineIssues.filter p =
      (r.divide Level.command.delimiters).flatMap fun m => m.commandIssues.filter p := by
  rw [pipelineIssues_eq, filter_segmentIssues hp, List.flatMap_map]
  intro q hq hblank
  obtain ⟨m, -, rfl⟩ := List.mem_map.mp hq
  rw [commandIssues_of_tokens_eq_nil hblank]
  rfl

theorem filter_conditionalIssues (r : Region) :
    r.conditionalIssues.filter p =
      (r.divide Level.pipeline.delimiters).flatMap fun s => s.pipelineIssues.filter p := by
  rw [conditionalIssues_eq, filter_segmentIssues hp, List.flatMap_map]
  intro q hq hblank
  obtain ⟨s, -, rfl⟩ := List.mem_map.mp hq
  rw [filter_pipelineIssues hp, List.flatMap_eq_nil_iff]
  intro m hm
  rw [commandIssues_of_tokens_eq_nil (tokens_eq_nil_of_mem_divide hblank hm)]
  rfl

/-- **The issues of a line are those of its commands**, but for those that report an empty
segment. -/
theorem filter_lineIssues (r : Region) :
    r.lineIssues.filter p = r.commands.flatMap fun m => m.commandIssues.filter p := by
  have hplace : ∀ c : Region, (conditionalPlaceIssues c c.conditionalIssues).filter p =
      c.conditionalIssues.filter p := by
    intro c
    have hblank : c.tokens = [] → c.conditionalIssues.filter p = [] := by
      intro hc
      rw [filter_conditionalIssues hp, List.flatMap_eq_nil_iff]
      intro s hs
      rw [filter_pipelineIssues hp, List.flatMap_eq_nil_iff]
      intro m hm
      have hs := tokens_eq_nil_of_mem_divide hc hs
      rw [commandIssues_of_tokens_eq_nil (tokens_eq_nil_of_mem_divide hs hm)]
      rfl
    rw [conditionalPlaceIssues]
    by_cases hop : c.nextOperator = .sequence ∨ c.nextOperator = .background
    · rw [if_pos hop, filter_report hp rfl hblank]
    · rw [if_neg hop]
      split
      · next hc => exact (hblank (isBlank_iff.mp hc)).symm
      · rfl
  rw [lineIssues_eq, List.filter_flatMap, commands]
  simp only [hplace, filter_conditionalIssues hp, filter_pipelineIssues hp, List.flatMap_assoc]

end Region

end CommandLine
