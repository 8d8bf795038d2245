import CommandLine.Issue
import CommandLine.View

/-!
# Diagnosis

Segments may be anything, so odd input shows as empty segments, redirections without a target and
groups that are not closed. Diagnosis reports them in the words of a shell that refuses to run the
line.

* `Watch.step` — what one token of a command gives away, given what has been seen before it.
* `Region.commandIssues` … `Region.lineIssues` — the issues of the four levels, group bodies
  included.
* `diagnose` — the issues of a line in source order. Issues at one position keep the order in which
  they are found.
* `check` — a line, or the refusal of it.
-/

namespace CommandLine

/-! ## One command -/

/-- What is known of a command after some of its tokens. -/
structure Watch where
  /-- the positions of the parentheses that stand open, the innermost first -/
  opened : List Nat
  /-- the redirect token that the last token was, if it was one outside of parentheses -/
  redirect : Option Token
  /-- whether there has been a word that is not a target -/
  hasWords : Bool
  /-- whether a group has been closed -/
  afterGroup : Bool

namespace Watch

/-- Nothing has been seen yet. -/
def start : Watch := ⟨[], none, false, false⟩

/-- The issue of a redirect token without a target. -/
def missingTarget (t : Token) : Issue := ⟨.noTarget t.raw, t.start⟩

/-- The issue of a word that leaves something open. -/
def openEnd (t : Token) : List Issue :=
  match t.unclosed? with
  | some .escape => [⟨.trailingEscape, t.stop - 1⟩]
  | some u => [⟨.openQuote u.mark, t.start⟩]
  | none => []

/-- The issues that a token itself raises, apart from a target that is missing before it. Nothing
inside parentheses is reported here: the body of a group is diagnosed as a line. -/
def tokenIssues (w : Watch) (t : Token) : List Issue :=
  match t.kind with
  | .lparen =>
    if w.opened.isEmpty && (w.hasWords || w.afterGroup) then [⟨.besideGroup t.raw, t.start⟩] else []
  | .rparen => if w.opened.isEmpty then [⟨.strayClose, t.start⟩] else []
  | .word =>
    if w.opened.isEmpty then
      openEnd t ++
        (if w.redirect.isNone && w.afterGroup then [⟨.besideGroup t.raw, t.start⟩] else [])
    else []
  | _ => []

/-- The issues found at a token. -/
def issuesAt (w : Watch) (t : Token) : List Issue :=
  (match w.redirect with
    | some r => if t.kind = .word then [] else [missingTarget r]
    | none => []) ++ w.tokenIssues t

/-- The parentheses that stand open after a token. -/
def openedAfter (w : Watch) (t : Token) : List Nat :=
  match t.kind with
  | .lparen => t.start :: w.opened
  | .rparen => w.opened.tail
  | _ => w.opened

/-- What is known after one more token. -/
def step (w : Watch) (t : Token) : Watch :=
  let opened := w.openedAfter t
  { opened
    redirect := if opened.isEmpty && t.kind == .redirect then some t else none
    hasWords := w.hasWords || (t.kind == .word && w.opened.isEmpty && w.redirect.isNone)
    afterGroup := w.afterGroup || (t.kind == .rparen && !w.opened.isEmpty && opened.isEmpty) }

/-- The issues found along some tokens, and what is known after the last. -/
def run (w : Watch) : List Token → List Issue × Watch
  | [] => ([], w)
  | t :: ts =>
    let (found, last) := (w.step t).run ts
    (w.issuesAt t ++ found, last)

/-- The issues found at the end of a command: a target that is still missing, and the parentheses
that stand open, the outermost first. -/
def endIssues (w : Watch) : List Issue :=
  (match w.redirect with
    | some r => [missingTarget r]
    | none => []) ++ w.opened.reverse.map fun p => ⟨.unclosedGroup, p⟩

end Watch

/-! ## Segments -/

/-- The issues of the segments of a level, each given with the issues inside it. A segment without
tokens is reported instead: by the operator after it, or if it is the last by the one before it. -/
def segmentIssues (level : Level) : Option Kind → List (Region × List Issue) → List Issue
  | _, [] => []
  | previous, [(s, inside)] =>
    if s.isBlank then [⟨.nothingAfter level (previous.getD s.nextOperator), s.start⟩] else inside
  | _, (s, inside) :: rest =>
    (if s.isBlank then [⟨.nothingBefore level s.nextOperator, s.stop⟩] else inside)
      ++ segmentIssues level (some s.nextOperator) rest

/-- The issues of a conditional of a line, given the issues inside it. The last conditional may be
empty, since a separator may end a line. -/
def conditionalPlaceIssues (s : Region) (inside : List Issue) : List Issue :=
  if s.isBlank then
    if s.nextOperator = .sequence ∨ s.nextOperator = .background then
      [⟨.nothingBefore .conditional s.nextOperator, s.stop⟩]
    else []
  else inside

namespace Region

/-- What the tokens of a command give away. -/
def watch (r : Region) : List Issue × Watch := Watch.start.run r.tokens

/-- The issues of a command that are not inside its parentheses. -/
def ownIssues (r : Region) : List Issue := r.watch.1 ++ r.watch.2.endIssues

/-- Whether every parenthesis of a command is closed in it. -/
def isClosed (r : Region) : Bool := r.watch.2.opened.isEmpty

mutual

/-- The issues of a region that is read as a line. -/
def lineIssues (r : Region) : List Issue :=
  (r.divide Level.conditional.delimiters).attach.flatMap fun s =>
    conditionalPlaceIssues s.1 s.1.conditionalIssues
termination_by (r.length, 3)
decreasing_by
  have := length_le_of_mem_divide s.2
  simp only [Prod.lex_def]
  omega

/-- The issues of a region that is read as a conditional. -/
def conditionalIssues (r : Region) : List Issue :=
  segmentIssues .pipeline none
    ((r.divide Level.pipeline.delimiters).attach.map fun s => (s.1, s.1.pipelineIssues))
termination_by (r.length, 2)
decreasing_by
  have := length_le_of_mem_divide s.2
  simp only [Prod.lex_def]
  omega

/-- The issues of a region that is read as a pipeline. -/
def pipelineIssues (r : Region) : List Issue :=
  segmentIssues .command none
    ((r.divide Level.command.delimiters).attach.map fun s => (s.1, s.1.commandIssues))
termination_by (r.length, 1)
decreasing_by
  have := length_le_of_mem_divide s.2
  simp only [Prod.lex_def]
  omega

/-- The issues of a region that is read as a command. A group that is closed must hold a token. -/
def commandIssues (r : Region) : List Issue :=
  match _ : r.groupBody? with
  | some body =>
    r.ownIssues ++ (if r.isClosed && body.isBlank then [⟨.emptyGroup, body.stop⟩] else [])
      ++ body.lineIssues
  | none => r.ownIssues
termination_by (r.length, 0)
decreasing_by
  have : body.length < r.length := length_groupBody?_lt (by assumption)
  simp only [Prod.lex_def]
  omega

end

/-! The same equations without the evidence that the parts lie in the region. -/

theorem lineIssues_eq (r : Region) :
    r.lineIssues = (r.divide Level.conditional.delimiters).flatMap fun s =>
      conditionalPlaceIssues s s.conditionalIssues := by
  rw [lineIssues, List.flatMap_def, List.flatMap_def]
  exact congrArg List.flatten
    (List.attach_map_val (f := fun s => conditionalPlaceIssues s s.conditionalIssues))

theorem conditionalIssues_eq (r : Region) :
    r.conditionalIssues =
      segmentIssues .pipeline none
        ((r.divide Level.pipeline.delimiters).map fun s => (s, s.pipelineIssues)) := by
  rw [conditionalIssues]
  congr 1
  exact List.attach_map_val (f := fun s : Region => (s, s.pipelineIssues))

theorem pipelineIssues_eq (r : Region) :
    r.pipelineIssues =
      segmentIssues .command none
        ((r.divide Level.command.delimiters).map fun s => (s, s.commandIssues)) := by
  rw [pipelineIssues]
  congr 1
  exact List.attach_map_val (f := fun s : Region => (s, s.commandIssues))

theorem commandIssues_of_some {r body : Region} (h : r.groupBody? = some body) :
    r.commandIssues =
      r.ownIssues ++ (if r.isClosed && body.isBlank then [⟨.emptyGroup, body.stop⟩] else [])
        ++ body.lineIssues := by
  rw [commandIssues]
  split
  · next b hb =>
    rw [h] at hb
    cases hb
    rfl
  · next hb => rw [h] at hb; cases hb

theorem commandIssues_of_none {r : Region} (h : r.groupBody? = none) :
    r.commandIssues = r.ownIssues := by
  rw [commandIssues]
  split
  · next b hb => rw [h] at hb; cases hb
  · rfl

end Region

/-- The issues of a line in source order. -/
def diagnose (r : Region) : List Issue :=
  r.lineIssues.mergeSort fun a b => a.position ≤ b.position

/-- The refusal of a line: its first issue, and the others. -/
structure Refusal where
  /-- the issue that comes first -/
  first : Issue
  /-- all other issues -/
  others : List Issue
  deriving DecidableEq

/-- Every issue of a refused line. -/
def Refusal.issues (e : Refusal) : List Issue := e.first :: e.others

/-- What is said about a refused line. -/
def Refusal.message (e : Refusal) : Text := "syntax error at ".toList ++ e.first.toText

/-- Refuses a line that has issues. -/
def check (r : Region) : Except Refusal Unit :=
  match diagnose r with
  | [] => .ok ()
  | first :: others => .error ⟨first, others⟩

end CommandLine
