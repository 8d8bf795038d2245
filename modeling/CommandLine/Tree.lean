import CommandLine.View

/-!
# Trees

The whole structure of a line at once. A tree carries a mark at each node: `Span` for the trees
that are built from a region, the exact place and text of the segment.

* `Line`, `Conditional`, `Pipeline`, `Command` — the nodes of the four levels.
* `Line.depth` — how many groups stand inside one another.
* `Region.toLine` — the tree of a region.

Empty segments are kept, so that the nodes of a level and the operators between them cover the
node they are parts of.
-/

namespace CommandLine

mutual

/-- A line: conditionals, the last of which ends it. -/
structure Line (σ : Type) where
  /-- the mark of the node -/
  mark : σ
  /-- the conditionals in order -/
  conditionals : List (Conditional σ)

/-- Pipelines with the operators between them and the operator that ends them all. -/
structure Conditional (σ : Type) where
  /-- the mark of the node -/
  mark : σ
  /-- the pipelines in order -/
  pipelines : List (Pipeline σ)
  /-- the operator after each pipeline but the last -/
  joins : List Kind
  /-- the operator after the last pipeline -/
  separator : Kind

/-- Commands that feed one another. -/
structure Pipeline (σ : Type) where
  /-- the mark of the node -/
  mark : σ
  /-- the commands in order -/
  commands : List (Command σ)

/-- A command. -/
inductive Command (σ : Type) where
  /-- a command without parentheses around it -/
  | simple (mark : σ) (words : Words)
  /-- a line in parentheses, with the words outside of them -/
  | group (mark : σ) (body : Line σ) (words : Words)

end

/-- Whether a conditional runs in the background. -/
def Conditional.isBackground {σ : Type} (c : Conditional σ) : Bool := c.separator == .background

/-! ## Depth -/

/-- The greatest of some numbers, or zero if there are none. -/
def greatest (ns : List Nat) : Nat := ns.foldr max 0

theorem greatest_le_iff {ns : List Nat} {n : Nat} : greatest ns ≤ n ↔ ∀ m ∈ ns, m ≤ n := by
  induction ns with
  | nil => simp [greatest]
  | cons m ns ih => rw [greatest, List.foldr_cons, Nat.max_le, List.forall_mem_cons, ← ih, greatest]

mutual

/-- How many groups stand inside one another in a line, at most. -/
def Line.depth {σ : Type} (l : Line σ) : Nat := greatest (l.conditionals.map fun c => c.depth)
termination_by sizeOf l
decreasing_by
  cases l
  have := List.sizeOf_lt_of_mem (by assumption)
  simp at *
  omega

/-- How many groups stand inside one another in a conditional, at most. -/
def Conditional.depth {σ : Type} (c : Conditional σ) : Nat :=
  greatest (c.pipelines.map fun p => p.depth)
termination_by sizeOf c
decreasing_by
  cases c
  have := List.sizeOf_lt_of_mem (by assumption)
  simp at *
  omega

/-- How many groups stand inside one another in a pipeline, at most. -/
def Pipeline.depth {σ : Type} (p : Pipeline σ) : Nat := greatest (p.commands.map fun c => c.depth)
termination_by sizeOf p
decreasing_by
  cases p
  have := List.sizeOf_lt_of_mem (by assumption)
  simp at *
  omega

/-- A group is one more than those in its body. -/
def Command.depth {σ : Type} : Command σ → Nat
  | .simple _ _ => 0
  | .group _ body _ => body.depth + 1
termination_by c => sizeOf c

end

theorem Line.depth_le_iff {σ : Type} {l : Line σ} {n : Nat} :
    l.depth ≤ n ↔ ∀ c ∈ l.conditionals, c.depth ≤ n := by
  rw [depth, greatest_le_iff, List.forall_mem_map]

theorem Conditional.depth_le_iff {σ : Type} {c : Conditional σ} {n : Nat} :
    c.depth ≤ n ↔ ∀ p ∈ c.pipelines, p.depth ≤ n := by
  rw [depth, greatest_le_iff, List.forall_mem_map]

theorem Pipeline.depth_le_iff {σ : Type} {p : Pipeline σ} {n : Nat} :
    p.depth ≤ n ↔ ∀ c ∈ p.commands, c.depth ≤ n := by
  rw [depth, greatest_le_iff, List.forall_mem_map]

/-! ## The tree of a region -/

/-- The place of a segment and its text. -/
structure Span where
  /-- the characters of the segment -/
  text : Text
  /-- the position of the first character -/
  start : Nat
  /-- the position after the last character -/
  stop : Nat
  deriving DecidableEq

namespace Region

/-- The span of a region. -/
def span (r : Region) : Span := ⟨r.text, r.start, r.stop⟩

mutual

/-- The tree of a region that is read as a line. -/
def toLine (r : Region) : Line Span :=
  ⟨r.span, (r.divide Level.conditional.delimiters).attach.map fun c => c.1.toConditional⟩
termination_by (r.length, 3)
decreasing_by
  have := length_le_of_mem_divide c.2
  simp only [Prod.lex_def]
  omega

/-- The tree of a region that is read as a conditional. -/
def toConditional (r : Region) : Conditional Span :=
  let parts := r.divide Level.pipeline.delimiters
  ⟨r.span, parts.attach.map fun p => p.1.toPipeline, parts.dropLast.map nextOperator,
    r.nextOperator⟩
termination_by (r.length, 2)
decreasing_by
  have := length_le_of_mem_divide p.2
  simp only [Prod.lex_def]
  omega

/-- The tree of a region that is read as a pipeline. -/
def toPipeline (r : Region) : Pipeline Span :=
  ⟨r.span, (r.divide Level.command.delimiters).attach.map fun c => c.1.toCommand⟩
termination_by (r.length, 1)
decreasing_by
  have := length_le_of_mem_divide c.2
  simp only [Prod.lex_def]
  omega

/-- The tree of a region that is read as a command. -/
def toCommand (r : Region) : Command Span :=
  match _ : r.groupBody? with
  | some body => .group r.span body.toLine r.words
  | none => .simple r.span r.words
termination_by (r.length, 0)
decreasing_by
  have : body.length < r.length := length_groupBody?_lt (by assumption)
  simp only [Prod.lex_def]
  omega

end

/-! The same equations without the evidence that the parts lie in the region. -/

theorem toLine_eq (r : Region) :
    r.toLine = ⟨r.span, (r.divide Level.conditional.delimiters).map toConditional⟩ := by
  rw [toLine, List.attach_map_val]

theorem toConditional_eq (r : Region) :
    r.toConditional =
      ⟨r.span, (r.divide Level.pipeline.delimiters).map toPipeline,
        (r.divide Level.pipeline.delimiters).dropLast.map nextOperator, r.nextOperator⟩ := by
  rw [toConditional]
  simp only [List.attach_map_val]

theorem toPipeline_eq (r : Region) :
    r.toPipeline = ⟨r.span, (r.divide Level.command.delimiters).map toCommand⟩ := by
  rw [toPipeline, List.attach_map_val]

theorem toCommand_of_some {r body : Region} (h : r.groupBody? = some body) :
    r.toCommand = .group r.span body.toLine r.words := by
  rw [toCommand]
  split
  · next b hb =>
    rw [h] at hb
    cases hb
    rfl
  · next hb => rw [h] at hb; cases hb

theorem toCommand_of_none {r : Region} (h : r.groupBody? = none) :
    r.toCommand = .simple r.span r.words := by
  rw [toCommand]
  split
  · next b hb => rw [h] at hb; cases hb
  · rfl

end Region

/-- The tree of a text. -/
def Line.ofText (t : Text) : Line Span := (Region.ofText t).toLine

end CommandLine
