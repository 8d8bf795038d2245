import CommandLine.Proofs.Executable
import Mathlib.Data.List.Perm.Basic

/-!
# Empty segments

Where two operators follow one another, or one stands at an end, there is a segment without tokens
between or beside them. Diagnosis reports it in passing, by the operator behind it, or by the one
before it if nothing follows at its level. In the tree of the line it is a blank node, and its place
among its neighbours says where it is reported.

* `Line.everyConditional` — the conditionals of a line, those inside of parentheses included.
* `blankPlaces`, `Conditional.vacancies`, `Line.vacancies` — the blank nodes of a tree, with the
  codes and positions of their reports.
* `emptyPlaces` — the reports of empty segments among some issues.
* `Issue.NamesDelimiter` — such a report names an operator that stands beside the segment.
* `Region.emptyPlaces_lineIssues`, `Region.names_of_mem_lineIssues` — the issues of a line.
* `Line.vacancies_reported` — the reports of a text are the blank nodes of its tree.
-/

namespace CommandLine

/-! ## Blank nodes of a tree -/

mutual

/-- The conditionals of a line, those inside of parentheses included. -/
def Line.everyConditional {σ : Type} (l : Line σ) : List (Conditional σ) :=
  l.conditionals.flatMap fun c => c.everyConditional
termination_by sizeOf l
decreasing_by
  cases l
  have := List.sizeOf_lt_of_mem (by assumption)
  simp at *
  omega

/-- A conditional and those inside of it. -/
def Conditional.everyConditional {σ : Type} (c : Conditional σ) : List (Conditional σ) :=
  c :: c.pipelines.flatMap fun p => p.everyConditional
termination_by sizeOf c
decreasing_by
  cases c
  have := List.sizeOf_lt_of_mem (by assumption)
  simp at *
  omega

/-- The conditionals inside of a pipeline. -/
def Pipeline.everyConditional {σ : Type} (p : Pipeline σ) : List (Conditional σ) :=
  p.commands.flatMap fun c => c.everyConditional
termination_by sizeOf p
decreasing_by
  cases p
  have := List.sizeOf_lt_of_mem (by assumption)
  simp at *
  omega

/-- The conditionals inside of the parentheses of a command. -/
def Command.everyConditional {σ : Type} : Command σ → List (Conditional σ)
  | .simple _ _ => []
  | .group _ body _ => body.everyConditional
termination_by c => sizeOf c

end

instance (s : Span) : Decidable s.IsBlank := inferInstanceAs (Decidable (tokenize s.text = []))

/-- The places of the blank ones among the parts of a node: where they end, and for the last one
where it starts. -/
def blankPlaces : List Span → List Nat
  | [] => []
  | [s] => if s.IsBlank then [s.start] else []
  | s :: rest => (if s.IsBlank then [s.stop] else []) ++ blankPlaces rest

/-- The blank commands of a pipeline that is not blank itself. -/
def Pipeline.vacancies (p : Pipeline Span) : List (Text × Nat) :=
  if p.mark.IsBlank then []
  else (blankPlaces (p.commands.map Command.mark)).map ("empty_command".toList, ·)

/-- A blank conditional in front of a separator, the blank pipelines of one that is not blank, and
the blank commands of its pipelines. -/
def Conditional.vacancies (c : Conditional Span) : List (Text × Nat) :=
  (if c.mark.IsBlank then
      if c.separator = .eol then [] else [("empty_conditional".toList, c.mark.stop)]
    else (blankPlaces (c.pipelines.map Pipeline.mark)).map ("empty_pipeline".toList, ·))
    ++ c.pipelines.flatMap Pipeline.vacancies

/-- The blank nodes of a line and of the lines in its parentheses. -/
def Line.vacancies (l : Line Span) : List (Text × Nat) :=
  l.everyConditional.flatMap Conditional.vacancies

/-! ## Reports of empty segments -/

namespace Issue

/-- What an issue is about, and where. -/
def place (i : Issue) : Text × Nat := (i.problem.code, i.position)

/-- Whether an issue has a code of empty segments. -/
def isVacancy (i : Issue) : Bool :=
  i.problem.code ∈
    ["empty_conditional".toList, "empty_pipeline".toList, "empty_command".toList]

/-- The operators beside segments, each with the code of the empty ones and as it is written. -/
inductive Delimits : Text → Kind → Text → Prop where
  /-- a semicolon stands between conditionals -/
  | sequence : Delimits "empty_conditional".toList .sequence [';']
  /-- so does an ampersand -/
  | background : Delimits "empty_conditional".toList .background ['&']
  /-- two ampersands stand between pipelines -/
  | and : Delimits "empty_pipeline".toList .and ['&', '&']
  /-- so do two bars -/
  | or : Delimits "empty_pipeline".toList .or ['|', '|']
  /-- a bar stands between commands -/
  | pipe : Delimits "empty_command".toList .pipe ['|']

/-- An issue of some tokens names one of them that delimits the segments of its level: the token
that starts where the issue stands, or the one that ends there. -/
def NamesDelimiter (ts : List Token) (i : Issue) : Prop :=
  ∃ t ∈ ts, ∃ spelling : Text, Delimits i.problem.code t.kind spelling ∧
    (i.problem.message = "syntax error near unexpected token `".toList ++ spelling ++ ['\''] ∧
        i.position = t.start ∨
      i.problem.message = "missing command after `".toList ++ spelling ++ ['\''] ∧
        i.position = t.stop)

/-- The codes of empty segments are those of the problems with them. -/
theorem isVacancy_eq (i : Issue) : i.isVacancy = i.problem.isEmptySegment := by
  obtain ⟨problem, position⟩ := i
  cases problem with
  | nothingBefore level => cases level <;> rfl
  | nothingAfter level => cases level <;> rfl
  | _ => rfl

theorem NamesDelimiter.mono {ts us : List Token} {i : Issue} (h : i.NamesDelimiter ts)
    (hsub : ts ⊆ us) : i.NamesDelimiter us := by
  obtain ⟨t, ht, hnames⟩ := h
  exact ⟨t, hsub ht, hnames⟩

section

variable {ts : List Token} {t : Token} {level : Level}

/-- The operators of a level are written as they are called. -/
theorem delimits_of_mem {k : Kind} (hmem : k ∈ level.delimiters) (heol : k ≠ .eol) :
    Delimits (Problem.emptyCode level) k k.spelling := by
  cases level with
  | commandLine => cases hmem
  | conditional =>
    simp only [Level.delimiters, List.mem_cons, List.not_mem_nil, or_false] at hmem
    rcases hmem with rfl | rfl | rfl
    · exact .background
    · exact absurd rfl heol
    · exact .sequence
  | pipeline =>
    simp only [Level.delimiters, List.mem_cons, List.not_mem_nil, or_false] at hmem
    rcases hmem with rfl | rfl
    · exact .and
    · exact .or
  | command =>
    obtain rfl := List.mem_singleton.mp hmem
    exact .pipe

/-- An operator is named by the empty segment before it. -/
theorem namesDelimiter_before (ht : t ∈ ts) (hmem : t.kind ∈ level.delimiters)
    (heol : t.kind ≠ .eol) : NamesDelimiter ts ⟨.nothingBefore level t.kind, t.start⟩ := by
  refine ⟨t, ht, t.kind.spelling, delimits_of_mem hmem heol, .inl ⟨?_, rfl⟩⟩
  have htext : "syntax error near unexpected token `".toList =
      "syntax error near unexpected token ".toList ++ ['\x60'] := by decide +kernel
  rw [htext, List.append_assoc, List.append_assoc]
  rfl

/-- It is named by the empty segment behind it. -/
theorem namesDelimiter_after (ht : t ∈ ts) (hmem : t.kind ∈ level.delimiters)
    (heol : t.kind ≠ .eol) : NamesDelimiter ts ⟨.nothingAfter level t.kind, t.stop⟩ := by
  refine ⟨t, ht, t.kind.spelling, delimits_of_mem hmem heol, .inr ⟨?_, rfl⟩⟩
  have htext : "missing command after `".toList = "missing command after ".toList ++ ['\x60'] := by
    decide +kernel
  rw [htext, List.append_assoc, List.append_assoc]
  rfl

end

end Issue

/-- The reports of empty segments among some issues. -/
def emptyPlaces (is : List Issue) : List (Text × Nat) := (is.filter Issue.isVacancy).map Issue.place

theorem emptyPlaces_append (is js : List Issue) :
    emptyPlaces (is ++ js) = emptyPlaces is ++ emptyPlaces js := by
  rw [emptyPlaces, List.filter_append, List.map_append]
  rfl

theorem emptyPlaces_flatMap {α : Type} (xs : List α) (f : α → List Issue) :
    emptyPlaces (xs.flatMap f) = xs.flatMap fun x => emptyPlaces (f x) := by
  rw [emptyPlaces, List.filter_flatMap, List.map_flatMap]
  rfl

theorem emptyPlaces_nothingBefore (level : Level) (k : Kind) (n : Nat) :
    emptyPlaces [⟨.nothingBefore level k, n⟩] = [(Problem.emptyCode level, n)] := by
  rw [emptyPlaces, List.filter_singleton, Issue.isVacancy_eq]
  rfl

theorem emptyPlaces_nothingAfter (level : Level) (k : Kind) (n : Nat) :
    emptyPlaces [⟨.nothingAfter level k, n⟩] = [(Problem.emptyCode level, n)] := by
  rw [emptyPlaces, List.filter_singleton, Issue.isVacancy_eq]
  rfl

/-- **The segments of a level** are reported where they are blank, and otherwise for what is inside
of them. -/
theorem perm_segmentIssues (level : Level) (previous : Option Kind)
    (parts : List (Region × List Issue)) :
    (emptyPlaces (segmentIssues level previous parts)).Perm
      ((blankPlaces (parts.map fun q => q.1.span)).map (Problem.emptyCode level, ·) ++
        parts.flatMap fun q => if q.1.isBlank then [] else emptyPlaces q.2) := by
  induction parts generalizing previous with
  | nil => exact .refl []
  | cons q rest ih =>
    obtain ⟨s, inside⟩ := q
    cases rest with
    | nil =>
      rw [segmentIssues, List.map_singleton, blankPlaces, List.flatMap_singleton]
      by_cases hs : s.isBlank
      · rw [if_pos hs, if_pos (Region.isBlank_span_iff.mpr hs), if_pos hs, emptyPlaces_nothingAfter]
        exact .refl _
      · rw [if_neg hs, if_neg (mt Region.isBlank_span_iff.mp hs), if_neg hs]
        exact .refl _
    | cons q rest =>
      have hplaces : blankPlaces (((s, inside) :: q :: rest).map fun q => q.1.span) =
          (if s.span.IsBlank then [s.stop] else []) ++
            blankPlaces ((q :: rest).map fun q => q.1.span) := rfl
      rw [segmentIssues_cons (List.cons_ne_nil q rest), emptyPlaces_append, hplaces,
        List.flatMap_cons, List.map_append, List.append_assoc]
      -- the report of the segment itself goes in front, that of its inside behind the other places
      by_cases hs : s.isBlank
      · rw [if_pos hs, if_pos (Region.isBlank_span_iff.mpr hs), if_pos hs,
          emptyPlaces_nothingBefore, List.nil_append]
        exact (ih _).append_left _
      · rw [if_neg hs, if_neg (mt Region.isBlank_span_iff.mp hs), if_neg hs, List.map_nil,
          List.nil_append]
        exact ((ih _).append_left _).trans (List.perm_append_comm_assoc _ _ _)

namespace Region

variable {r c p m body : Region}

/-! ## The four levels -/

theorem isVacancy_ownIssues (m : Region) : ∀ x ∈ m.ownIssues, x.isVacancy = false := by
  intro x hx
  rw [Issue.isVacancy_eq]
  exact Watch.isEmptySegment_run x hx

/-- A command reports the empty segments of its body. -/
theorem emptyPlaces_commandIssues (m : Region) :
    emptyPlaces m.commandIssues =
      m.groupBody?.elim [] fun body => emptyPlaces body.lineIssues := by
  have hown : emptyPlaces m.ownIssues = [] := by
    rw [emptyPlaces, List.filter_eq_nil_iff.mpr, List.map_nil]
    intro x hx
    rw [m.isVacancy_ownIssues x hx]
    exact Bool.false_ne_true
  cases hm : m.groupBody? with
  | none => rw [commandIssues_of_none hm, hown, Option.elim_none]
  | some body =>
    have hempty : emptyPlaces (if m.isClosed && body.isBlank then [⟨.emptyGroup, body.stop⟩] else [])
        = [] := by
      split <;> rfl
    rw [commandIssues_of_some hm, emptyPlaces_append, emptyPlaces_append, hown, hempty,
      Option.elim_some]
    rfl

theorem everyConditional_toCommand (m : Region) :
    m.toCommand.everyConditional =
      m.groupBody?.elim [] fun body => body.toLine.everyConditional := by
  cases hm : m.groupBody? with
  | none =>
    rw [toCommand_of_none hm, Command.everyConditional]
    rfl
  | some body =>
    rw [toCommand_of_some hm, Command.everyConditional]
    rfl

theorem everyConditional_toPipeline (p : Region) :
    p.toPipeline.everyConditional =
      (p.divide Level.command.delimiters).flatMap fun m => m.toCommand.everyConditional := by
  rw [Pipeline.everyConditional, toPipeline_eq, List.flatMap_map]

theorem everyConditional_toConditional (c : Region) :
    c.toConditional.everyConditional = c.toConditional ::
      (c.divide Level.pipeline.delimiters).flatMap fun p => p.toPipeline.everyConditional := by
  rw [Conditional.everyConditional]
  conv_lhs => arg 2; rw [toConditional_eq, List.flatMap_map]

theorem everyConditional_toLine (r : Region) :
    r.toLine.everyConditional =
      (r.divide Level.conditional.delimiters).flatMap fun c => c.toConditional.everyConditional := by
  rw [Line.everyConditional, toLine_eq, List.flatMap_map]

theorem marks_toPipeline (p : Region) :
    p.toPipeline.commands.map Command.mark = (p.divide Level.command.delimiters).map span := by
  rw [toPipeline_eq, List.map_map]
  exact List.map_congr_left fun m _ => mark_toCommand m

theorem pipelines_toConditional (c : Region) :
    c.toConditional.pipelines = (c.divide Level.pipeline.delimiters).map toPipeline := by
  rw [toConditional_eq]

theorem marks_toConditional (c : Region) :
    c.toConditional.pipelines.map Pipeline.mark = (c.divide Level.pipeline.delimiters).map span := by
  rw [pipelines_toConditional, List.map_map]
  exact List.map_congr_left fun p _ => mark_toPipeline p

/-- A pipeline without tokens has no blank commands to be reported, and no line inside of it. -/
theorem everyConditional_of_blank (h : p.tokens = []) :
    p.toPipeline.vacancies = [] ∧ p.toPipeline.everyConditional = [] := by
  constructor
  · rw [Pipeline.vacancies, mark_toPipeline, if_pos (isBlank_span.mpr h)]
  · rw [everyConditional_toPipeline, List.flatMap_eq_nil_iff]
    intro m hm
    have hgroup := groupBody?_of_tokens_eq_nil (tokens_eq_nil_of_mem_divide h hm)
    rw [everyConditional_toCommand, hgroup, Option.elim_none]

/-- **A pipeline** reports its blank commands and what the others report, if each of these reports
the blank nodes inside of it. -/
theorem perm_pipelineIssues
    (hparts : ∀ m ∈ p.divide Level.command.delimiters, (emptyPlaces m.commandIssues).Perm
      (m.toCommand.everyConditional.flatMap Conditional.vacancies)) :
    (if p.isBlank then [] else emptyPlaces p.pipelineIssues).Perm
      (p.toPipeline.vacancies ++ p.toPipeline.everyConditional.flatMap Conditional.vacancies) := by
  by_cases hp : p.isBlank
  · obtain ⟨hvacancies, hinner⟩ := everyConditional_of_blank (isBlank_iff.mp hp)
    rw [if_pos hp, hvacancies, hinner]
    exact .refl []
  · rw [if_neg hp, pipelineIssues_eq, Pipeline.vacancies, mark_toPipeline,
      if_neg (mt isBlank_span_iff.mp hp), marks_toPipeline, everyConditional_toPipeline,
      List.flatMap_assoc]
    refine (perm_segmentIssues .command none _).trans ?_
    rw [List.map_map, List.flatMap_map]
    refine List.Perm.append_left _ (List.Perm.flatMap_left _ fun m hm => ?_)
    -- a blank command has nothing inside of it either
    by_cases hblank : m.isBlank
    · have hgroup := groupBody?_of_tokens_eq_nil (isBlank_iff.mp hblank)
      rw [if_pos hblank, everyConditional_toCommand, hgroup, Option.elim_none]
      exact .refl []
    · rw [if_neg hblank]
      exact hparts m hm

/-- A segment that does not end the region ends at a delimiter. -/
theorem exists_delimiter_of_mem_divide {delimiters : List Kind} {s : Region}
    (hs : s ∈ r.divide delimiters) (h : s.nextOperator ≠ .eol) :
    ∃ t ∈ r.tokens, t.start = s.stop ∧ t.kind = s.nextOperator ∧ t.kind ∈ delimiters := by
  induction r using cut_induction delimiters with
  | last r hfree =>
    rw [divide_of_undivided hfree, List.mem_singleton] at hs
    subst hs
    exact absurd (nextOperator_closed r) h
  | cut r c ih =>
    rw [divide_of_cut c] at hs
    rcases List.mem_cons.mp hs with rfl | hs
    · exact ⟨c.token, c.mem, rfl, c.nextOperator_left.symm, c.kind_mem⟩
    · obtain ⟨t, ht, hnames⟩ := ih hs
      exact ⟨t, c.tokens_right_suffix.subset ht, hnames⟩

/-- A conditional without tokens may be reported itself. Nothing inside of it is. -/
theorem vacancies_of_blank (h : c.tokens = []) :
    c.toConditional.everyConditional.flatMap Conditional.vacancies =
      if c.nextOperator = .eol then [] else [(Problem.emptyCode .conditional, c.stop)] := by
  have hinside : ∀ p ∈ c.divide Level.pipeline.delimiters,
      p.toPipeline.vacancies = [] ∧ p.toPipeline.everyConditional = [] := fun p hp =>
    everyConditional_of_blank (tokens_eq_nil_of_mem_divide h hp)
  have hvacancies : c.toConditional.pipelines.flatMap Pipeline.vacancies = [] := by
    rw [pipelines_toConditional, List.flatMap_map, List.flatMap_eq_nil_iff]
    exact fun p hp => (hinside p hp).1
  have hinner : ((c.divide Level.pipeline.delimiters).flatMap fun p =>
      p.toPipeline.everyConditional) = [] :=
    List.flatMap_eq_nil_iff.mpr fun p hp => (hinside p hp).2
  rw [everyConditional_toConditional, hinner, List.flatMap_singleton, Conditional.vacancies,
    hvacancies, mark_toConditional, separator_toConditional, if_pos (isBlank_span.mpr h),
    List.append_nil]
  rfl

/-- **A conditional of a line** is reported itself if it is blank and a separator follows. Otherwise
it reports its blank pipelines and what the others report. -/
theorem perm_conditionalPlaceIssues (hc : c ∈ r.divide Level.conditional.delimiters)
    (hparts : ∀ p ∈ c.divide Level.pipeline.delimiters,
      (if p.isBlank then [] else emptyPlaces p.pipelineIssues).Perm
        (p.toPipeline.vacancies ++ p.toPipeline.everyConditional.flatMap Conditional.vacancies)) :
    (emptyPlaces (conditionalPlaceIssues c c.conditionalIssues)).Perm
      (c.toConditional.everyConditional.flatMap Conditional.vacancies) := by
  rw [conditionalPlaceIssues]
  by_cases hblank : c.isBlank
  · rw [if_pos hblank, vacancies_of_blank (isBlank_iff.mp hblank)]
    by_cases hnext : c.nextOperator = .eol
    · rw [hnext]
      exact .refl []
    · obtain ⟨t, -, -, hkind, hmem⟩ := exists_delimiter_of_mem_divide hc hnext
      rw [hkind] at hmem
      rw [if_pos (separator_of_mem ⟨hmem, hnext⟩), if_neg hnext, emptyPlaces_nothingBefore]
  · rw [if_neg hblank, conditionalIssues_eq, everyConditional_toConditional, List.flatMap_cons,
      List.flatMap_assoc, Conditional.vacancies, mark_toConditional,
      if_neg (mt isBlank_span_iff.mp hblank), marks_toConditional, pipelines_toConditional,
      List.flatMap_map, List.append_assoc]
    refine (perm_segmentIssues .pipeline none _).trans ?_
    rw [List.map_map, List.flatMap_map]
    refine List.Perm.append_left _ ?_
    exact (List.Perm.flatMap_left _ hparts).trans (List.flatMap_append_perm _ _ _).symm

/-- **The empty segments that are reported** of a line are the blank nodes of its tree. -/
theorem emptyPlaces_lineIssues (r : Region) : (emptyPlaces r.lineIssues).Perm r.toLine.vacancies := by
  induction r using line_induction with
  | line r ih =>
    rw [lineIssues_eq, emptyPlaces_flatMap, Line.vacancies, everyConditional_toLine,
      List.flatMap_assoc]
    refine List.Perm.flatMap_left _ fun c hc => ?_
    refine perm_conditionalPlaceIssues hc fun p hp => perm_pipelineIssues fun m hm => ?_
    rw [emptyPlaces_commandIssues, everyConditional_toCommand]
    cases hbody : m.groupBody? with
    | none => exact .refl []
    | some body => exact ih c hc p hp m hm body hbody

/-! ## The operators that are named -/

/-- **The segments of a level** name operators between them: the first one is not the only one
unless it has tokens, and before any other one there is an operator. -/
theorem names_of_mem_segmentIssues {level : Level} {previous : Option Kind} {ts : List Token}
    {inside : Region → List Issue} (hsub : r.tokens ⊆ ts)
    (hfirst : previous = none → r.tokens ≠ [])
    (hbefore : ∀ k, previous = some k →
      ∃ t ∈ ts, t.stop = r.start ∧ t.kind = k ∧ k ∈ level.delimiters ∧ k ≠ .eol)
    (hinside : ∀ s ∈ r.divide level.delimiters, s.tokens ≠ [] →
      ∀ x ∈ inside s, x.isVacancy → x.NamesDelimiter ts) :
    ∀ x ∈ segmentIssues level previous
        ((r.divide level.delimiters).map fun s => (s, inside s)),
      x.isVacancy → x.NamesDelimiter ts := by
  induction r using cut_induction level.delimiters generalizing previous with
  | last r hfree =>
    rw [divide_of_undivided hfree, List.forall_mem_singleton] at hinside
    rw [divide_of_undivided hfree, List.map_singleton, segmentIssues]
    split
    · next hblank =>
      have htokens : r.tokens = [] := isBlank_iff.mp hblank
      refine List.forall_mem_singleton.mpr fun _ => ?_
      cases previous with
      | none => exact absurd htokens (hfirst rfl)
      | some k =>
        obtain ⟨t, ht, hstop, rfl, hmem, heol⟩ := hbefore k rfl
        have hnames := Issue.namesDelimiter_after ht hmem heol
        rw [hstop] at hnames
        exact hnames
    · next hblank => exact hinside fun h => hblank (isBlank_iff.mpr h)
  | cut r c ih =>
    rw [divide_of_cut c, List.forall_mem_cons] at hinside
    rw [divide_of_cut c, List.map_cons, segmentIssues_cons (by simp [divide_ne_nil])]
    have hmem : c.token ∈ ts := hsub c.mem
    have heol : c.token.kind ≠ .eol := kind_ne_eol c.mem
    refine List.forall_mem_append.mpr ⟨?_, ?_⟩
    · split
      · refine List.forall_mem_singleton.mpr fun _ => ?_
        rw [c.nextOperator_left]
        exact Issue.namesDelimiter_before hmem c.kind_mem heol
      · next hblank => exact hinside.1 fun h => hblank (isBlank_iff.mpr h)
    · have hright : c.right.tokens ⊆ ts := List.Subset.trans c.tokens_right_suffix.subset hsub
      refine ih hright (fun h => absurd h (Option.some_ne_none _)) ?_ hinside.2
      intro k hk
      rw [c.nextOperator_left, Option.some.injEq] at hk
      subst hk
      exact ⟨c.token, hmem, rfl, rfl, c.kind_mem, heol⟩

/-- The segments of a whole level name operators of the region if each one does inside of it. -/
theorem names_of_mem_level {level : Level} {inside : Region → List Issue} (h : r.tokens ≠ [])
    (hparts : ∀ s ∈ r.divide level.delimiters, s.tokens ≠ [] →
      ∀ x ∈ inside s, x.isVacancy → x.NamesDelimiter s.tokens) :
    ∀ x ∈ segmentIssues level none ((r.divide level.delimiters).map fun s => (s, inside s)),
      x.isVacancy → x.NamesDelimiter r.tokens := by
  refine names_of_mem_segmentIssues (List.Subset.refl _) (fun _ => h) nofun ?_
  intro s hs htokens x hx hvacancy
  exact (hparts s hs htokens x hx hvacancy).mono (tokens_infix_of_mem_divide hs).subset

/-- A command names what its body names. -/
theorem names_of_mem_commandIssues
    (hbody : ∀ body, m.groupBody? = some body →
      ∀ x ∈ body.lineIssues, x.isVacancy → x.NamesDelimiter body.tokens) :
    ∀ x ∈ m.commandIssues, x.isVacancy → x.NamesDelimiter m.tokens := by
  have hown : ∀ x ∈ m.ownIssues, x.isVacancy → x.NamesDelimiter m.tokens := by
    intro x hx hvacancy
    rw [m.isVacancy_ownIssues x hx] at hvacancy
    cases hvacancy
  cases hm : m.groupBody? with
  | none =>
    rw [commandIssues_of_none hm]
    exact hown
  | some body =>
    rw [commandIssues_of_some hm]
    refine List.forall_mem_append.mpr
      ⟨List.forall_mem_append.mpr ⟨hown, Watch.forall_mem_ite _ nofun⟩, ?_⟩
    intro x hx hvacancy
    exact (hbody body hm x hx hvacancy).mono (tokens_infix_of_groupBody? hm).subset

/-- **Every report of an empty segment names an operator of its level** that stands in the line. -/
theorem names_of_mem_lineIssues (r : Region) :
    ∀ x ∈ r.lineIssues, x.isVacancy → x.NamesDelimiter r.tokens := by
  induction r using line_induction with
  | line r ih =>
    rw [lineIssues_eq]
    refine List.forall_mem_flatMap.mpr fun c hc => ?_
    rw [conditionalPlaceIssues]
    split
    · split
      · next hnext =>
        have heol : c.nextOperator ≠ .eol := by
          rcases hnext with hk | hk <;> rw [hk] <;> decide
        obtain ⟨t, ht, hstart, hkind, hmem⟩ := exists_delimiter_of_mem_divide hc heol
        rw [← hkind] at heol ⊢
        refine List.forall_mem_singleton.mpr fun _ => ?_
        rw [← hstart]
        exact Issue.namesDelimiter_before ht hmem heol
      · exact List.forall_mem_nil _
    · next hblank =>
      intro x hx hvacancy
      refine Issue.NamesDelimiter.mono ?_ (tokens_infix_of_mem_divide hc).subset
      rw [conditionalIssues_eq] at hx
      refine names_of_mem_level (fun h => hblank (isBlank_iff.mpr h)) ?_ x hx hvacancy
      intro p hp htokens
      rw [pipelineIssues_eq]
      refine names_of_mem_level htokens fun m hm _ => ?_
      exact names_of_mem_commandIssues fun body hbody => ih c hc p hp m hm body hbody

end Region

/-- **The empty segments that are reported** of a text are the blank nodes of its tree, each once:
conditionals in front of a separator, pipelines of conditionals that are not blank, and commands of
pipelines that are not blank. What is said of one names an operator of its level, which stands
where the issue is: behind the segment, or before it. -/
theorem Line.vacancies_reported (t : Text) :
    (((diagnose (Region.ofText t)).filter Issue.isVacancy).map Issue.place).Perm
        (Line.ofText t).vacancies ∧
      ∀ i ∈ diagnose (Region.ofText t), i.isVacancy → i.NamesDelimiter (tokenize t) := by
  have hperm : (diagnose (Region.ofText t)).Perm (Region.ofText t).lineIssues :=
    List.mergeSort_perm _ _
  constructor
  · exact ((hperm.filter _).map _).trans (Region.emptyPlaces_lineIssues _)
  · intro i hi hvacancy
    rw [← Region.tokens_ofText]
    exact Region.names_of_mem_lineIssues _ i (hperm.mem_iff.mp hi) hvacancy

/-- Between two semicolons, and before the first, there is no command. Behind the second there need
not be one. -/
theorem Line.vacancies_reported_between :
    ∃ i ∈ diagnose (Region.ofText ";;".toList), i.isVacancy ∧ i.position = 1 ∧
      i.NamesDelimiter (tokenize ";;".toList) := by
  have hissues : (Region.ofText ";;".toList).lineIssues =
      [⟨.nothingBefore .conditional .sequence, 0⟩, ⟨.nothingBefore .conditional .sequence, 1⟩] := by
    rw [Region.lineIssues_eq]
    decide +kernel
  have hmem : (⟨.nothingBefore .conditional .sequence, 1⟩ : Issue) ∈
      diagnose (Region.ofText ";;".toList) := by
    rw [diagnose, List.mem_mergeSort, hissues]
    exact List.mem_cons_of_mem _ (List.mem_singleton_self _)
  have hvacancy : Issue.isVacancy ⟨.nothingBefore .conditional .sequence, 1⟩ := by decide
  exact ⟨_, hmem, hvacancy, rfl, (Line.vacancies_reported _).2 _ hmem hvacancy⟩

end CommandLine
