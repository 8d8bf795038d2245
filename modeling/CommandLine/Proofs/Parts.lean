import CommandLine.Proofs.Division
import CommandLine.Tree
import CommandLine.Diagnosis

/-!
# Trees and issues, part by part

Trees and issues are made of the segments of a region. Here they are followed along the induction
over the segments: a region that is its own only segment has one part, and a region that is cut at
its first delimiter has the part before it in front of the parts of what follows it.

* `Line.map`, `Line.erase` — a tree with other marks, a tree without marks.
* `Region.conditionals_of_cut`, `Region.pipelines_of_cut`, `Region.commands_of_cut` — the parts of
  a tree.
* `Region.commands`, `Region.mem_commands_toLine` — the commands of a region and those of its tree.
* `Region.lineIssues_of_cut`, `Region.conditionalIssues_of_cut`, `Region.pipelineIssues_of_cut` —
  where nothing is wrong with a region, nothing is wrong with its parts, and none is empty.
* `Region.toLine_of_single_command`, `Region.lineIssues_of_single_command` — a region without an
  operator outside parentheses.
* `diagnose_eq_nil_iff` — a line has no issues in order exactly if it has none.
-/

namespace CommandLine

/-! ## The marks of a tree -/

/-- The mark of a command. -/
def Command.mark {σ : Type} : Command σ → σ
  | .simple mark _ => mark
  | .group mark _ _ => mark

mutual

/-- The line with other marks. -/
def Line.map {σ τ : Type} (f : σ → τ) (l : Line σ) : Line τ :=
  ⟨f l.mark, l.conditionals.map fun c => c.map f⟩
termination_by sizeOf l
decreasing_by
  cases l
  have := List.sizeOf_lt_of_mem (by assumption)
  simp at *
  omega

/-- The conditional with other marks. -/
def Conditional.map {σ τ : Type} (f : σ → τ) (c : Conditional σ) : Conditional τ :=
  ⟨f c.mark, c.pipelines.map fun p => p.map f, c.joins, c.separator⟩
termination_by sizeOf c
decreasing_by
  cases c
  have := List.sizeOf_lt_of_mem (by assumption)
  simp at *
  omega

/-- The pipeline with other marks. -/
def Pipeline.map {σ τ : Type} (f : σ → τ) (p : Pipeline σ) : Pipeline τ :=
  ⟨f p.mark, p.commands.map fun c => c.map f⟩
termination_by sizeOf p
decreasing_by
  cases p
  have := List.sizeOf_lt_of_mem (by assumption)
  simp at *
  omega

/-- The command with other marks. -/
def Command.map {σ τ : Type} (f : σ → τ) : Command σ → Command τ
  | .simple mark words => .simple (f mark) words
  | .group mark body words => .group (f mark) (body.map f) words
termination_by c => sizeOf c

end

/-! With its own marks a tree is the same. -/

mutual

theorem Line.map_id {σ : Type} (l : Line σ) : l.map id = l := by
  obtain ⟨mark, conditionals⟩ := l
  have hparts : ∀ c ∈ conditionals, c.map id = c := fun c hc => Conditional.map_id c
  rw [Line.map, List.map_congr_left hparts, List.map_id']
  rfl
termination_by sizeOf l
decreasing_by
  have := List.sizeOf_lt_of_mem hc
  simp
  omega

theorem Conditional.map_id {σ : Type} (c : Conditional σ) : c.map id = c := by
  obtain ⟨mark, pipelines, joins, separator⟩ := c
  have hparts : ∀ p ∈ pipelines, p.map id = p := fun p hp => Pipeline.map_id p
  rw [Conditional.map, List.map_congr_left hparts, List.map_id']
  rfl
termination_by sizeOf c
decreasing_by
  have := List.sizeOf_lt_of_mem hp
  simp
  omega

theorem Pipeline.map_id {σ : Type} (p : Pipeline σ) : p.map id = p := by
  obtain ⟨mark, commands⟩ := p
  have hparts : ∀ c ∈ commands, c.map id = c := fun c hc => Command.map_id c
  rw [Pipeline.map, List.map_congr_left hparts, List.map_id']
  rfl
termination_by sizeOf p
decreasing_by
  have := List.sizeOf_lt_of_mem hc
  simp
  omega

theorem Command.map_id {σ : Type} (c : Command σ) : c.map id = c := by
  cases c with
  | simple mark words =>
    rw [Command.map]
    rfl
  | group mark body words =>
    rw [Command.map, Line.map_id body]
    rfl
termination_by sizeOf c

end

/-- The line without marks. -/
def Line.erase {σ : Type} (l : Line σ) : Line Unit := l.map fun _ => ()

/-- The conditional without marks. -/
def Conditional.erase {σ : Type} (c : Conditional σ) : Conditional Unit := c.map fun _ => ()

/-- The pipeline without marks. -/
def Pipeline.erase {σ : Type} (p : Pipeline σ) : Pipeline Unit := p.map fun _ => ()

/-- The command without marks. -/
def Command.erase {σ : Type} (c : Command σ) : Command Unit := c.map fun _ => ()

theorem Line.erase_eq {σ : Type} (l : Line σ) :
    l.erase = ⟨(), l.conditionals.map Conditional.erase⟩ := by
  rw [erase, map]
  rfl

theorem Conditional.erase_eq {σ : Type} (c : Conditional σ) :
    c.erase = ⟨(), c.pipelines.map Pipeline.erase, c.joins, c.separator⟩ := by
  rw [erase, map]
  rfl

theorem Pipeline.erase_eq {σ : Type} (p : Pipeline σ) :
    p.erase = ⟨(), p.commands.map Command.erase⟩ := by
  rw [erase, map]
  rfl

theorem Command.erase_simple {σ : Type} (mark : σ) (words : Words) :
    (Command.simple mark words).erase = .simple () words := by
  rw [erase, map]

theorem Command.erase_group {σ : Type} (mark : σ) (body : Line σ) (words : Words) :
    (Command.group mark body words).erase = .group () body.erase words := by
  rw [erase, map]
  rfl

namespace Region

variable {r m : Region}

theorem divide_ne_nil (delimiters : List Kind) (r : Region) : r.divide delimiters ≠ [] := by
  obtain ⟨init, last, hdivide, -, -⟩ := r.exists_last_segment delimiters
  rw [hdivide]
  simp

@[simp] theorem mark_toLine (r : Region) : r.toLine.mark = r.span := by rw [toLine_eq]

@[simp] theorem mark_toConditional (r : Region) : r.toConditional.mark = r.span := by
  rw [toConditional_eq]

@[simp] theorem separator_toConditional (r : Region) :
    r.toConditional.separator = r.nextOperator := by
  rw [toConditional_eq]

@[simp] theorem mark_toPipeline (r : Region) : r.toPipeline.mark = r.span := by rw [toPipeline_eq]

@[simp] theorem mark_toCommand (r : Region) : r.toCommand.mark = r.span := by
  cases h : r.groupBody? with
  | none => rw [toCommand_of_none h]; rfl
  | some body => rw [toCommand_of_some h]; rfl

/-! ## The parts of a tree -/

theorem conditionals_of_undivided (h : Undivided Level.conditional.delimiters 0 r.kinds) :
    r.toLine.conditionals = [r.closed.toConditional] := by
  rw [toLine_eq, divide_of_undivided h]
  rfl

theorem conditionals_of_cut (c : Cut Level.conditional.delimiters r) :
    r.toLine.conditionals = c.left.toConditional :: c.right.toLine.conditionals := by
  rw [toLine_eq, toLine_eq, divide_of_cut c]
  rfl

theorem pipelines_of_undivided (h : Undivided Level.pipeline.delimiters 0 r.kinds) :
    r.toConditional.pipelines = [r.closed.toPipeline] ∧ r.toConditional.joins = [] := by
  rw [toConditional_eq, divide_of_undivided h]
  exact ⟨rfl, rfl⟩

theorem pipelines_of_cut (c : Cut Level.pipeline.delimiters r) :
    r.toConditional.pipelines = c.left.toPipeline :: c.right.toConditional.pipelines ∧
      r.toConditional.joins = c.token.kind :: c.right.toConditional.joins := by
  rw [toConditional_eq, toConditional_eq, divide_of_cut c,
    List.dropLast_cons_of_ne_nil (divide_ne_nil _ _), List.map_cons, List.map_cons,
    c.nextOperator_left]
  exact ⟨rfl, rfl⟩

theorem commands_of_undivided (h : Undivided Level.command.delimiters 0 r.kinds) :
    r.toPipeline.commands = [r.closed.toCommand] := by
  rw [toPipeline_eq, divide_of_undivided h]
  rfl

theorem commands_of_cut (c : Cut Level.command.delimiters r) :
    r.toPipeline.commands = c.left.toCommand :: c.right.toPipeline.commands := by
  rw [toPipeline_eq, toPipeline_eq, divide_of_cut c]
  rfl

/-! ### The commands of a line -/

/-- The commands of a region that is read as a line. -/
def commands (r : Region) : List Region :=
  (r.divide Level.conditional.delimiters).flatMap fun c =>
    (c.divide Level.pipeline.delimiters).flatMap fun p => p.divide Level.command.delimiters

theorem mem_commands : m ∈ r.commands ↔
    ∃ c ∈ r.divide Level.conditional.delimiters, ∃ p ∈ c.divide Level.pipeline.delimiters,
      m ∈ p.divide Level.command.delimiters := by
  simp only [commands, List.mem_flatMap]

/-- The commands in the tree of a region are those of the region. -/
theorem mem_commands_toLine {n : Command Span} :
    (∃ c ∈ r.toLine.conditionals, ∃ p ∈ c.pipelines, n ∈ p.commands) ↔
      ∃ m ∈ r.commands, m.toCommand = n := by
  constructor
  · rintro ⟨c', hc, p', hp, hn⟩
    rw [toLine_eq, List.mem_map] at hc
    obtain ⟨c, hc, rfl⟩ := hc
    rw [toConditional_eq, List.mem_map] at hp
    obtain ⟨p, hp, rfl⟩ := hp
    rw [toPipeline_eq, List.mem_map] at hn
    obtain ⟨m, hm, rfl⟩ := hn
    exact ⟨m, mem_commands.mpr ⟨c, hc, p, hp, hm⟩, rfl⟩
  · rintro ⟨m, hm, rfl⟩
    obtain ⟨c, hc, p, hp, hm⟩ := mem_commands.mp hm
    refine ⟨c.toConditional, ?_, p.toPipeline, ?_, ?_⟩
    · rw [toLine_eq]
      exact List.mem_map_of_mem hc
    · rw [toConditional_eq]
      exact List.mem_map_of_mem hp
    · rw [toPipeline_eq]
      exact List.mem_map_of_mem hm

/-- Only a group is a group in the tree. -/
theorem toCommand_eq_group_iff {mark : Span} {line : Line Span} {words : Words} :
    m.toCommand = .group mark line words ↔
      ∃ body, m.groupBody? = some body ∧ m.span = mark ∧ body.toLine = line ∧ m.words = words := by
  cases hbody : m.groupBody? with
  | none => simp [toCommand_of_none hbody]
  | some body => simp [toCommand_of_some hbody]

/-! ## The issues of the parts -/

/-- Where an empty segment is reported and any other one for what is inside it, nothing is wrong
exactly with segments that are neither empty nor wrong inside. -/
theorem ite_isBlank_eq_nil_iff {i : Issue} {inside : List Issue} :
    (if r.isBlank then [i] else inside) = [] ↔ r.tokens ≠ [] ∧ inside = [] := by
  by_cases hr : r.tokens = []
  · rw [if_pos (isBlank_iff.mpr hr)]
    exact ⟨fun h => absurd h (List.cons_ne_nil _ _), fun h => absurd hr h.1⟩
  · rw [if_neg fun hb => hr (isBlank_iff.mp hb)]
    exact ⟨fun h => ⟨hr, h⟩, fun h => h.2⟩

/-- Segments raise no issue exactly if none is empty and none has an issue inside it. -/
theorem segmentIssues_eq_nil_iff {level : Level} {previous : Option Kind}
    {parts : List (Region × List Issue)} :
    segmentIssues level previous parts = [] ↔ ∀ p ∈ parts, p.1.tokens ≠ [] ∧ p.2 = [] := by
  induction parts generalizing previous with
  | nil => exact ⟨fun _ p hp => absurd hp List.not_mem_nil, fun _ => rfl⟩
  | cons p parts ih =>
    obtain ⟨s, inside⟩ := p
    rw [List.forall_mem_cons]
    -- the last segment is reported by the operator before it, every other one by the one after it
    cases parts with
    | nil =>
      rw [segmentIssues, ite_isBlank_eq_nil_iff]
      exact ⟨fun h => ⟨h, fun p hp => absurd hp List.not_mem_nil⟩, fun h => h.1⟩
    | cons q rest =>
      rw [segmentIssues, List.append_eq_nil_iff, ih, ite_isBlank_eq_nil_iff]
      intro hnil
      cases hnil

theorem pipelineIssues_eq_nil_iff :
    r.pipelineIssues = [] ↔
      ∀ s ∈ r.divide Level.command.delimiters, s.tokens ≠ [] ∧ s.commandIssues = [] := by
  rw [pipelineIssues_eq, segmentIssues_eq_nil_iff, List.forall_mem_map]

theorem conditionalIssues_eq_nil_iff :
    r.conditionalIssues = [] ↔
      ∀ s ∈ r.divide Level.pipeline.delimiters, s.tokens ≠ [] ∧ s.pipelineIssues = [] := by
  rw [conditionalIssues_eq, segmentIssues_eq_nil_iff, List.forall_mem_map]

theorem pipelineIssues_of_undivided (h : Undivided Level.command.delimiters 0 r.kinds) :
    r.pipelineIssues = [] ↔ r.tokens ≠ [] ∧ r.closed.commandIssues = [] := by
  rw [pipelineIssues_eq_nil_iff, divide_of_undivided h, List.forall_mem_singleton]
  rfl

theorem pipelineIssues_of_cut (c : Cut Level.command.delimiters r) :
    r.pipelineIssues = [] ↔
      (c.left.tokens ≠ [] ∧ c.left.commandIssues = []) ∧ c.right.pipelineIssues = [] := by
  rw [pipelineIssues_eq_nil_iff, pipelineIssues_eq_nil_iff, divide_of_cut c, List.forall_mem_cons]

theorem conditionalIssues_of_undivided (h : Undivided Level.pipeline.delimiters 0 r.kinds) :
    r.conditionalIssues = [] ↔ r.tokens ≠ [] ∧ r.closed.pipelineIssues = [] := by
  rw [conditionalIssues_eq_nil_iff, divide_of_undivided h, List.forall_mem_singleton]
  rfl

theorem conditionalIssues_of_cut (c : Cut Level.pipeline.delimiters r) :
    r.conditionalIssues = [] ↔
      (c.left.tokens ≠ [] ∧ c.left.pipelineIssues = []) ∧ c.right.conditionalIssues = [] := by
  rw [conditionalIssues_eq_nil_iff, conditionalIssues_eq_nil_iff, divide_of_cut c,
    List.forall_mem_cons]

/-- The last conditional of a line may be empty. -/
theorem lineIssues_of_undivided (h : Undivided Level.conditional.delimiters 0 r.kinds) :
    r.lineIssues = [] ↔ (r.tokens ≠ [] → r.closed.conditionalIssues = []) := by
  rw [lineIssues_eq, divide_of_undivided h, List.flatMap_singleton, conditionalPlaceIssues,
    nextOperator_closed]
  by_cases hs : r.tokens = []
  · have hblank : r.closed.isBlank := isBlank_iff.mpr hs
    simp [hblank, hs]
  · have hblank : ¬ r.closed.isBlank := fun hb => hs (isBlank_iff.mp hb)
    rw [if_neg hblank]
    exact ⟨fun hc _ => hc, fun hc => hc hs⟩

/-- Conditionals are separated by semicolons and single ampersands, unless the line ends. -/
theorem separator_of_mem {k : Kind} (h : k ∈ Level.conditional.delimiters ∧ k ≠ .eol) :
    k = .sequence ∨ k = .background := by
  obtain ⟨hmem, heol⟩ := h
  cases k <;> simp [Level.delimiters] at hmem heol ⊢

/-- The end of the line is no token of a region. -/
theorem Cut.kind_separator (c : Cut Level.conditional.delimiters r) :
    c.token.kind = .sequence ∨ c.token.kind = .background :=
  separator_of_mem ⟨c.kind_mem, kind_ne_eol c.mem⟩

/-- A conditional in front of a separator may not. -/
theorem lineIssues_of_cut (c : Cut Level.conditional.delimiters r) :
    r.lineIssues = [] ↔
      (c.left.tokens ≠ [] ∧ c.left.conditionalIssues = []) ∧ c.right.lineIssues = [] := by
  rw [lineIssues_eq, lineIssues_eq, divide_of_cut c, List.flatMap_cons, List.append_eq_nil_iff]
  refine and_congr_left fun _ => ?_
  rw [conditionalPlaceIssues, c.nextOperator_left, if_pos c.kind_separator]
  exact ite_isBlank_eq_nil_iff

/-! ## A single command -/

/-- **A region without operators** of any level is read as one command. -/
theorem toLine_of_single_command (hfree : ∀ level : Level, Undivided level.delimiters 0 r.kinds) :
    r.toLine =
      ⟨r.span, [⟨r.span, [⟨r.span, [r.closed.closed.closed.toCommand]⟩], [], .eol⟩]⟩ := by
  have hpipeline : r.closed.closed.toPipeline = ⟨r.span, [r.closed.closed.closed.toCommand]⟩ := by
    rw [toPipeline_eq, divide_of_undivided (r := r.closed.closed) (hfree .command)]
    rfl
  have hconditional : r.closed.toConditional =
      ⟨r.span, [⟨r.span, [r.closed.closed.closed.toCommand]⟩], [], .eol⟩ := by
    rw [toConditional_eq, divide_of_undivided (r := r.closed) (hfree .pipeline),
      nextOperator_closed, List.map_singleton, hpipeline]
    rfl
  rw [toLine_eq, divide_of_undivided (hfree .conditional), List.map_singleton, hconditional]

/-- If it holds a token, its issues are those of the command. -/
theorem lineIssues_of_single_command (hne : r.tokens ≠ [])
    (hfree : ∀ level : Level, Undivided level.delimiters 0 r.kinds) :
    r.lineIssues = r.closed.closed.closed.commandIssues := by
  have hblank : ∀ s : Region, s.tokens = r.tokens → ¬ s.isBlank := fun s hs hb =>
    hne (hs ▸ isBlank_iff.mp hb)
  rw [lineIssues_eq, divide_of_undivided (hfree .conditional), List.flatMap_singleton,
    conditionalPlaceIssues, if_neg (hblank r.closed rfl), conditionalIssues_eq,
    divide_of_undivided (r := r.closed) (hfree .pipeline), List.map_singleton, segmentIssues,
    if_neg (hblank r.closed.closed rfl), pipelineIssues_eq,
    divide_of_undivided (r := r.closed.closed) (hfree .command), List.map_singleton, segmentIssues,
    if_neg (hblank r.closed.closed.closed rfl)]

end Region

/-- Sorting neither hides nor invents an issue. -/
theorem diagnose_eq_nil_iff {r : Region} : diagnose r = [] ↔ r.lineIssues = [] := by
  rw [diagnose]
  constructor
  · intro h
    have hperm := List.mergeSort_perm r.lineIssues fun a b => decide (a.position ≤ b.position)
    rw [h] at hperm
    exact hperm.symm.eq_nil
  · intro h
    rw [h]
    exact List.mergeSort_nil

end CommandLine
