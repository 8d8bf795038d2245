import CommandLine.Proofs.Checking
import CommandLine.Proofs.Grouping
import CommandLine.Proofs.Parts

/-!
# Descents into a line

The tree of a line and its issues are found by descents: a line is divided into the segments of the
three levels, and where a command is a group the line in its parentheses is next. Here both are done
with every check, and with a budget for the lines inside of one another. A descent comes to its end
exactly if the budget is greater than the number of groups inside one another, and nothing else goes
wrong. A group is longer than its body, so there are never more of them than characters.

* `Checked.tree?`, `Checked.issues?` — the tree of a line and its issues, with every check.
* `within` — what is found if there is room for it, and else that the budget has run out.
* `Checked.tree?_eq`, `Checked.issues?_eq` — how deep a descent goes and what it finds.
* `Region.depth_toLine_le` — the groups inside one another are no more than the characters.
-/

namespace CommandLine

/-! ## Depth -/

namespace Region

variable {r m : Region} {n : Nat}

theorem depth_toLine_le_iff : r.toLine.depth ≤ n ↔
    ∀ c ∈ r.divide Level.conditional.delimiters, c.toConditional.depth ≤ n := by
  rw [Line.depth_le_iff, toLine_eq, List.forall_mem_map]

theorem depth_toConditional_le_iff : r.toConditional.depth ≤ n ↔
    ∀ p ∈ r.divide Level.pipeline.delimiters, p.toPipeline.depth ≤ n := by
  rw [Conditional.depth_le_iff, toConditional_eq, List.forall_mem_map]

theorem depth_toPipeline_le_iff : r.toPipeline.depth ≤ n ↔
    ∀ m ∈ r.divide Level.command.delimiters, m.toCommand.depth ≤ n := by
  rw [Pipeline.depth_le_iff, toPipeline_eq, List.forall_mem_map]

theorem depth_toCommand_of_none (h : m.groupBody? = none) : m.toCommand.depth = 0 := by
  rw [toCommand_of_none h, Command.depth]

theorem depth_toCommand_le_of_none (h : m.groupBody? = none) : m.toCommand.depth ≤ n :=
  Nat.le_trans (Nat.le_of_eq (depth_toCommand_of_none h)) (Nat.zero_le n)

theorem depth_toCommand_of_some {body : Region} (h : m.groupBody? = some body) :
    m.toCommand.depth = body.toLine.depth + 1 := by
  rw [toCommand_of_some h, Command.depth]

/-- The groups of a line go no deeper than those among its commands. -/
theorem depth_toLine_le_iff_commands : r.toLine.depth ≤ n ↔
    ∀ m ∈ r.commands, ∀ body, m.groupBody? = some body → body.toLine.depth < n := by
  have hcommand : ∀ m : Region, m.toCommand.depth ≤ n ↔
      ∀ body, m.groupBody? = some body → body.toLine.depth < n := by
    intro m
    cases hm : m.groupBody? with
    | none => simp [depth_toCommand_of_none hm]
    | some body =>
      rw [depth_toCommand_of_some hm, Nat.succ_le_iff]
      simp only [Option.some.injEq, forall_eq']
  simp only [depth_toLine_le_iff, depth_toConditional_le_iff, depth_toPipeline_le_iff, hcommand]
  constructor
  · intro h m hm
    obtain ⟨c, hc, p, hp, hm⟩ := mem_commands.mp hm
    exact h c hc p hp m hm
  · exact fun h c hc p hp m hm => h m (mem_commands.mpr ⟨c, hc, p, hp, hm⟩)

/-- **A line is as long as it is deep**: each group has a character that its body has not. -/
theorem depth_toLine_le (r : Region) : r.toLine.depth ≤ r.length := by
  induction r using line_induction with
  | line r ih =>
    rw [depth_toLine_le_iff_commands]
    intro m hm body hbody
    obtain ⟨c, hc, p, hp, hm⟩ := mem_commands.mp hm
    have hdepth := ih c hc p hp m hm body hbody
    have hcr := length_le_of_mem_divide hc
    have hpc := length_le_of_mem_divide hp
    have hmp := length_le_of_mem_divide hm
    have hlt := length_groupBody?_lt hbody
    omega

/-- A pipeline without tokens has no group. -/
theorem depth_toPipeline_of_tokens_eq_nil (h : r.tokens = []) : r.toPipeline.depth ≤ n := by
  rw [depth_toPipeline_le_iff]
  intro m hm
  exact depth_toCommand_le_of_none (groupBody?_of_tokens_eq_nil (tokens_eq_nil_of_mem_divide h hm))

/-- A conditional without tokens has no group. -/
theorem depth_toConditional_of_tokens_eq_nil (h : r.tokens = []) : r.toConditional.depth ≤ n := by
  rw [depth_toConditional_le_iff]
  exact fun p hp => depth_toPipeline_of_tokens_eq_nil (tokens_eq_nil_of_mem_divide h hp)

end Region

namespace Checked

/-! ## Descents with every check -/

section

variable (inner : Region → Except Fault (Line Span))

/-- The tree of a command. -/
def command? (m : Region) : Except Fault (Command Span) := do
  let words ← words? m
  match ← groupBody? m with
  | some body =>
    let inside ← inner body
    return .group m.span inside words
  | none => return .simple m.span words

/-- The tree of a pipeline. -/
def pipeline? (p : Region) : Except Fault (Pipeline Span) := do
  let commands ← divide? Level.command.delimiters p
  let parts ← commands.mapM (command? inner)
  return ⟨p.span, parts⟩

/-- The tree of a conditional. -/
def conditional? (c : Region) : Except Fault (Conditional Span) := do
  let pipelines ← divide? Level.pipeline.delimiters c
  let parts ← pipelines.mapM (pipeline? inner)
  let joins ← pipelines.dropLast.mapM nextOperator?
  let separator ← nextOperator? c
  return ⟨c.span, parts, joins, separator⟩

/-- The tree of a line. -/
def line? (r : Region) : Except Fault (Line Span) := do
  let conditionals ← divide? Level.conditional.delimiters r
  let parts ← conditionals.mapM (conditional? inner)
  return ⟨r.span, parts⟩

end

/-- The tree of a line, with a budget for the lines inside of one another. -/
def tree? : Nat → Region → Except Fault (Line Span)
  | 0, _ => .error .unfinished
  | budget + 1, r => line? (tree? budget) r

/-- The issue of a word that leaves something open. -/
def openIssue? (t : Token) : Except Fault (List Issue) := do
  match ← unclosed? t with
  | some .escape => return [⟨.trailingEscape, t.stop - 1⟩]
  | some u => return [⟨.openQuote u.mark, t.start⟩]
  | none => return []

/-- The issues that a token itself raises, apart from a target that is missing before it. -/
def tokenIssues? (w : Watch) (t : Token) : Except Fault (List Issue) :=
  if t.kind = .word ∧ w.opened.isEmpty then do
    let found ← openIssue? t
    return found ++
      (if w.redirect.isNone && w.afterGroup then [⟨.besideGroup t.raw, t.start⟩] else [])
  else return w.tokenIssues t

/-- The issues found along some tokens, and what is known after the last. -/
def watch? (w : Watch) : List Token → Except Fault (List Issue × Watch)
  | [] => return ([], w)
  | t :: ts => do
    let found ← tokenIssues? w t
    let (rest, last) ← watch? (w.step t) ts
    return ((match w.redirect with
      | some r => if t.kind = .word then [] else [Watch.missingTarget r]
      | none => []) ++ found ++ rest, last)

/-- The segment in front of the one at an index; in front of the first stands the last. -/
def segmentBefore? (segments : List Region) (index : Nat) : Except Fault Region :=
  let before := if index = 0 then segments.length - 1 else index - 1
  match segments[before]? with
  | some s => .ok s
  | none => .error (.missing before)

/-- The issues of a segment of a level, given its index and how it is checked inside. -/
def segmentIssues? (level : Level) (check : Region → Except Fault (List Issue))
    (segments : List Region) (index : Nat) (s : Region) : Except Fault (List Issue) := do
  if ← isBlank? s then
    if index + 1 < segments.length then
      let operator ← nextOperator? s
      return [⟨.nothingBefore level operator, s.stop⟩]
    else
      let before ← segmentBefore? segments index
      let operator ← nextOperator? before
      return [⟨.nothingAfter level operator, s.start⟩]
  else check s

/-- The issues of the segments of a level from an index on. -/
def segmentsIssues? (level : Level) (check : Region → Except Fault (List Issue))
    (segments : List Region) : Nat → List Region → Except Fault (List Issue)
  | _, [] => return []
  | index, s :: rest => do
    let found ← segmentIssues? level check segments index s
    let others ← segmentsIssues? level check segments (index + 1) rest
    return found ++ others

section

variable (inner : Region → Except Fault (List Issue))

/-- The issues of a command. -/
def commandIssues? (m : Region) : Except Fault (List Issue) := do
  let ts ← tokens? m.source m.stop (m.stop - m.start + 1) m.start
  let (found, last) ← watch? Watch.start ts
  match ← groupBody? m with
  | some body =>
    let blank ← isBlank? body
    let inside ← inner body
    return found ++ last.endIssues ++
      (if last.opened.isEmpty && blank then [⟨.emptyGroup, body.stop⟩] else []) ++ inside
  | none => return found ++ last.endIssues

/-- The issues of a pipeline. -/
def pipelineIssues? (p : Region) : Except Fault (List Issue) := do
  let segments ← divide? Level.command.delimiters p
  segmentsIssues? .command (commandIssues? inner) segments 0 segments

/-- The issues of a conditional. -/
def conditionalIssues? (c : Region) : Except Fault (List Issue) := do
  let segments ← divide? Level.pipeline.delimiters c
  segmentsIssues? .pipeline (pipelineIssues? inner) segments 0 segments

/-- The issues of a conditional where it stands. -/
def placeIssues? (c : Region) : Except Fault (List Issue) := do
  if ← isBlank? c then
    let separator ← nextOperator? c
    if separator = .sequence ∨ separator = .background then
      return [⟨.nothingBefore .conditional separator, c.stop⟩]
    else return []
  else conditionalIssues? inner c

/-- The issues of a line. -/
def lineIssues? (r : Region) : Except Fault (List Issue) := do
  let conditionals ← divide? Level.conditional.delimiters r
  let parts ← conditionals.mapM (placeIssues? inner)
  return parts.flatten

end

/-- The issues of a line, with a budget for the lines inside of one another. -/
def issues? : Nat → Region → Except Fault (List Issue)
  | 0, _ => .error .unfinished
  | budget + 1, r => lineIssues? (issues? budget) r

/-- The issues of a line in source order. -/
def diagnose? (budget : Nat) (r : Region) : Except Fault (List Issue) := do
  let found ← issues? budget r
  return found.mergeSort fun a b => a.position ≤ b.position

/-! ## Room for a descent -/

/-- What is found if there is room for it, and else that the budget has run out. -/
def within {α : Type} (room : Prop) [Decidable room] (a : α) : Except Fault α :=
  if room then .ok a else .error .unfinished

section

variable {α β : Type} {room room' : Prop} [Decidable room] [Decidable room'] {a : α}

theorem within_of (h : room) : within room a = .ok a := if_pos h

theorem within_of_not (h : ¬room) : within room a = .error .unfinished := if_neg h

theorem within_congr (h : room ↔ room') : within room a = within room' a := by
  rw [within, within]
  exact if_congr h rfl rfl

theorem within_bind_ok (a : α) (f : α → β) :
    (within room a >>= fun a => .ok (f a)) = within room (f a) := by
  rw [within, within]
  split <;> rfl

/-- Two parts of a computation have room together if each of them has. -/
theorem within_bind_within (a : α) (b : β) {γ : Type} (f : α → β → γ) :
    (within room a >>= fun a => within room' b >>= fun b => .ok (f a b)) =
      within (room ∧ room') (f a b) := by
  by_cases h : room
  · rw [within_of h, ok_bind, within_bind_ok]
    exact within_congr (and_iff_right h).symm
  · have hboth : ¬(room ∧ room') := fun hboth => h hboth.1
    rw [within_of_not h, within_of_not hboth]
    rfl

/-- There is room for a list if there is room for each element. -/
theorem mapM_within {l : List α} {f : α → Except Fault β} {g : α → β} {P : α → Prop}
    [DecidablePred P] (h : ∀ a ∈ l, f a = within (P a) (g a)) :
    l.mapM f = within (∀ a ∈ l, P a) (l.map g) := by
  induction l with
  | nil => exact (within_of nofun).symm
  | cons a l ih =>
    obtain ⟨ha, hl⟩ := List.forall_mem_cons.mp h
    rw [List.mapM_cons, ha, ih hl]
    exact (within_bind_within _ _ List.cons).trans (within_congr List.forall_mem_cons.symm)

end

/-! ## How deep a descent goes -/

section

variable {inner : Region → Except Fault (Line Span)} {n : Nat}
  (h : ∀ r, inner r = within (r.toLine.depth < n) r.toLine)

include h

theorem command?_eq (m : Region) : command? inner m = within (m.toCommand.depth ≤ n) m.toCommand := by
  rw [command?, words?_eq, ok_bind, groupBody?_eq, ok_bind]
  cases hm : m.groupBody? with
  | none =>
    rw [within_of (Region.depth_toCommand_le_of_none hm), Region.toCommand_of_none hm]
    rfl
  | some body =>
    simp only [h body]
    rw [Region.toCommand_of_some hm]
    refine (within_bind_ok _ _).trans (within_congr ?_)
    rw [Command.depth, Nat.succ_le_iff]

theorem pipeline?_eq (p : Region) :
    pipeline? inner p = within (p.toPipeline.depth ≤ n) p.toPipeline := by
  rw [pipeline?, divide?_eq, ok_bind, mapM_within fun m _ => command?_eq h m]
  refine (within_bind_ok _ _).trans ?_
  rw [← Region.toPipeline_eq]
  exact within_congr Region.depth_toPipeline_le_iff.symm

theorem conditional?_eq (c : Region) :
    conditional? inner c = within (c.toConditional.depth ≤ n) c.toConditional := by
  have hjoins (l : List Region) : l.mapM nextOperator? = .ok (l.map Region.nextOperator) := by
    rw [funext nextOperator?_eq]
    exact List.mapM_pure
  rw [conditional?, divide?_eq, ok_bind, mapM_within fun p _ => pipeline?_eq h p]
  simp only [hjoins, nextOperator?_eq, ok_bind]
  refine (within_bind_ok _ _).trans ?_
  rw [← Region.toConditional_eq]
  exact within_congr Region.depth_toConditional_le_iff.symm

theorem line?_eq (r : Region) : line? inner r = within (r.toLine.depth ≤ n) r.toLine := by
  rw [line?, divide?_eq, ok_bind, mapM_within fun c _ => conditional?_eq h c]
  refine (within_bind_ok _ _).trans ?_
  rw [← Region.toLine_eq]
  exact within_congr Region.depth_toLine_le_iff.symm

end

/-- **The tree of a line** is found exactly if the budget is greater than its depth, and nothing
else goes wrong. -/
theorem tree?_eq (budget : Nat) (r : Region) :
    tree? budget r = within (r.toLine.depth < budget) r.toLine := by
  induction budget generalizing r with
  | zero => exact (within_of_not (Nat.not_lt_zero _)).symm
  | succ budget ih =>
    rw [tree?, line?_eq ih]
    exact within_congr Nat.lt_succ_iff.symm

/-! ### Issues -/

section

variable {t : Token} {r : Region}

theorem openIssue?_eq (h : t.stop ≤ t.source.length) : openIssue? t = .ok (Watch.openEnd t) := by
  rw [openIssue?, unclosed?_eq h, ok_bind, Watch.openEnd]
  cases t.unclosed? with
  | none => rfl
  | some u => cases u <;> rfl

theorem tokenIssues?_eq (w : Watch) (h : t.stop ≤ t.source.length) :
    tokenIssues? w t = .ok (w.tokenIssues t) := by
  rw [tokenIssues?]
  split
  · next hword =>
    rw [openIssue?_eq h, ok_bind, Watch.tokenIssues, hword.1]
    simp only [if_pos hword.2]
    rfl
  · rfl

theorem watch?_eq {ts : List Token} (hts : ∀ t ∈ ts, t ∈ r.tokens) (w : Watch) :
    watch? w ts = .ok (w.run ts) := by
  induction ts generalizing w with
  | nil => rfl
  | cons t ts ih =>
    obtain ⟨ht, hts⟩ := List.forall_mem_cons.mp hts
    rw [watch?, tokenIssues?_eq w (stop_le_of_mem_tokens ht), ok_bind, ih hts]
    rfl

end

section

variable {level : Level} {check : Region → Except Fault (List Issue)} {inside : Region → List Issue}
  {P : Region → Prop} [DecidablePred P] {before rest : List Region} {s : Region}

/-- In front of the first segment stands the last, which is the same if it is the only one. -/
theorem segmentBefore?_eq (before : List Region) (s : Region) :
    segmentBefore? (before ++ [s]) before.length = .ok (before.getLast?.getD s) := by
  rcases List.eq_nil_or_concat before with rfl | ⟨front, b, rfl⟩
  · rfl
  · simp [segmentBefore?]

/-- A segment that others follow. -/
theorem segmentIssues?_of_lt (h : check s = within (P s) (inside s)) (hblank : s.isBlank → P s)
    {segments : List Region} {index : Nat} (hindex : index + 1 < segments.length) :
    segmentIssues? level check segments index s = within (P s)
      (if s.isBlank then [⟨.nothingBefore level s.nextOperator, s.stop⟩] else inside s) := by
  rw [segmentIssues?, isBlank?_eq, ok_bind]
  by_cases hs : s.isBlank
  · rw [if_pos hs, if_pos hs, if_pos hindex, nextOperator?_eq, ok_bind, within_of (hblank hs)]
    rfl
  · rw [if_neg hs, if_neg hs, h]

/-- The last segment. -/
theorem segmentIssues?_last (h : check s = within (P s) (inside s)) (hblank : s.isBlank → P s)
    (before : List Region) :
    segmentIssues? level check (before ++ [s]) before.length s = within (P s)
      (if s.isBlank then [⟨.nothingAfter level (before.getLast?.getD s).nextOperator, s.start⟩]
        else inside s) := by
  have hindex : ¬before.length + 1 < (before ++ [s]).length := by simp
  rw [segmentIssues?, isBlank?_eq, ok_bind]
  by_cases hs : s.isBlank
  · rw [if_pos hs, if_pos hs, if_neg hindex, segmentBefore?_eq, ok_bind, nextOperator?_eq, ok_bind,
      within_of (hblank hs)]
    rfl
  · rw [if_neg hs, if_neg hs, h]

theorem segmentsIssues?_eq (h : ∀ s, check s = within (P s) (inside s))
    (hblank : ∀ s, s.isBlank → P s) (before rest : List Region) :
    segmentsIssues? level check (before ++ rest) before.length rest =
      within (∀ s ∈ rest, P s) (segmentIssues level (before.getLast?.map Region.nextOperator)
        (rest.map fun s => (s, inside s))) := by
  induction rest generalizing before with
  | nil => exact (within_of nofun).symm
  | cons s rest ih =>
    have hrest := ih (before ++ [s])
    rw [List.append_assoc, List.singleton_append, List.length_append, List.length_singleton,
      List.getLast?_concat, Option.map_some] at hrest
    rw [segmentsIssues?, hrest]
    cases rest with
    | nil =>
      rw [segmentIssues?_last (h s) (hblank s)]
      refine (within_bind_within _ _ _).trans ((within_congr List.forall_mem_cons.symm).trans ?_)
      rw [List.map_singleton, List.map_nil, segmentIssues, segmentIssues, List.append_nil,
        Option.getD_map]
    | cons s' rest =>
      rw [segmentIssues?_of_lt (h s) (hblank s) (by simp)]
      exact (within_bind_within _ _ _).trans (within_congr List.forall_mem_cons.symm)

end

section

variable {inner : Region → Except Fault (List Issue)} {n : Nat}
  (h : ∀ r, inner r = within (r.toLine.depth < n) r.lineIssues)

include h

theorem commandIssues?_eq (m : Region) :
    commandIssues? inner m = within (m.toCommand.depth ≤ n) m.commandIssues := by
  rw [commandIssues?, tokens?_region, ok_bind, watch?_eq fun _ ht => ht, ok_bind]
  simp only [groupBody?_eq, ok_bind]
  cases hm : m.groupBody? with
  | none =>
    rw [within_of (Region.depth_toCommand_le_of_none hm), Region.commandIssues_of_none hm]
    rfl
  | some body =>
    simp only [isBlank?_eq, ok_bind, h body]
    rw [Region.commandIssues_of_some hm]
    refine (within_bind_ok _ _).trans (within_congr ?_)
    rw [Region.depth_toCommand_of_some hm, Nat.succ_le_iff]

theorem pipelineIssues?_eq (p : Region) :
    pipelineIssues? inner p = within (p.toPipeline.depth ≤ n) p.pipelineIssues := by
  have hblank (m : Region) (hm : m.isBlank) : m.toCommand.depth ≤ n :=
    Region.depth_toCommand_le_of_none (Region.groupBody?_of_tokens_eq_nil (Region.isBlank_iff.mp hm))
  rw [pipelineIssues?, divide?_eq, ok_bind, Region.pipelineIssues_eq]
  refine (segmentsIssues?_eq (commandIssues?_eq h) hblank [] _).trans ?_
  exact within_congr Region.depth_toPipeline_le_iff.symm

theorem conditionalIssues?_eq (c : Region) :
    conditionalIssues? inner c = within (c.toConditional.depth ≤ n) c.conditionalIssues := by
  have hblank (p : Region) (hp : p.isBlank) : p.toPipeline.depth ≤ n :=
    Region.depth_toPipeline_of_tokens_eq_nil (Region.isBlank_iff.mp hp)
  rw [conditionalIssues?, divide?_eq, ok_bind, Region.conditionalIssues_eq]
  refine (segmentsIssues?_eq (pipelineIssues?_eq h) hblank [] _).trans ?_
  exact within_congr Region.depth_toConditional_le_iff.symm

theorem placeIssues?_eq (c : Region) : placeIssues? inner c =
    within (c.toConditional.depth ≤ n) (conditionalPlaceIssues c c.conditionalIssues) := by
  rw [placeIssues?, isBlank?_eq, ok_bind, conditionalPlaceIssues]
  by_cases hc : c.isBlank
  · rw [if_pos hc, if_pos hc, nextOperator?_eq, ok_bind,
      within_of (Region.depth_toConditional_of_tokens_eq_nil (Region.isBlank_iff.mp hc))]
    split <;> rfl
  · rw [if_neg hc, if_neg hc, conditionalIssues?_eq h]

theorem lineIssues?_eq (r : Region) :
    lineIssues? inner r = within (r.toLine.depth ≤ n) r.lineIssues := by
  rw [lineIssues?, divide?_eq, ok_bind, mapM_within fun c _ => placeIssues?_eq h c]
  refine (within_bind_ok _ _).trans ?_
  rw [Region.lineIssues_eq, List.flatMap_def]
  exact within_congr Region.depth_toLine_le_iff.symm

end

/-- **The issues of a line** are found exactly if the budget is greater than its depth, and nothing
else goes wrong. -/
theorem issues?_eq (budget : Nat) (r : Region) :
    issues? budget r = within (r.toLine.depth < budget) r.lineIssues := by
  induction budget generalizing r with
  | zero => exact (within_of_not (Nat.not_lt_zero _)).symm
  | succ budget ih =>
    rw [issues?, lineIssues?_eq ih]
    exact within_congr Nat.lt_succ_iff.symm

theorem diagnose?_eq (budget : Nat) (r : Region) :
    diagnose? budget r = within (r.toLine.depth < budget) (diagnose r) := by
  rw [diagnose?, issues?_eq]
  exact within_bind_ok _ _

/-! ### A budget of the characters -/

/-- A budget of more than the characters is enough. -/
theorem tree?_of_length_lt {budget : Nat} {r : Region} (h : r.length < budget) :
    tree? budget r = .ok r.toLine :=
  (tree?_eq budget r).trans (within_of (Nat.lt_of_le_of_lt r.depth_toLine_le h))

theorem diagnose?_of_length_lt {budget : Nat} {r : Region} (h : r.length < budget) :
    diagnose? budget r = .ok (diagnose r) :=
  (diagnose?_eq budget r).trans (within_of (Nat.lt_of_le_of_lt r.depth_toLine_le h))

end Checked

end CommandLine
