import CommandLine.Proofs.Allotting
import CommandLine.Proofs.Endings

/-!
# What issues point at

An issue is found in a command, which is cut out of the line: nothing behind the command is read
with it, at any depth of groups. Still what it says is true of the line. A command is cut off in
front of an operator or a parenthesis and never in front of a word, so a redirect operator that
lacks a target there lacks it in the line.

* `Region.Stretch` — tokens that follow one another in a region, with no word right behind them.
* `Watch.exists_of_mem_run` — the token of a command that an issue is found at.
* `Region.exists_command_of_passes` — the command that an issue is found in.
* `Region.exists_redirect_of_mem_lineIssues`, `Region.exists_parens_of_mem_lineIssues` and
  `Region.exists_beside_of_mem_lineIssues` — the tokens of the line that it is found at.
* `Issue.Evident` — what an issue says of the tokens of its line.
* `diagnose_evident` — every issue of a line.
-/

namespace CommandLine

/-! ## Commands among the tokens of a line -/

/-- No level is divided at a word. -/
theorem Level.word_not_mem_delimiters (level : Level) : .word ∉ level.delimiters := by
  cases level <;> decide

namespace Region

variable {r s m : Region}

/-- The tokens of the second region follow one another in the first one, and no word stands right
behind them there. -/
def Stretch (r s : Region) : Prop :=
  ∃ before after, r.tokens = before ++ (s.tokens ++ after) ∧ ∀ u ∈ after.head?, u.kind ≠ .word

namespace Stretch

theorem refl (r : Region) : r.Stretch r :=
  ⟨[], [], by rw [List.nil_append, List.append_nil], by simp⟩

theorem trans (h : r.Stretch s) (h' : s.Stretch m) : r.Stretch m := by
  obtain ⟨before, after, htokens, hafter⟩ := h
  obtain ⟨before', after', htokens', hafter'⟩ := h'
  refine ⟨before ++ before', after' ++ after, ?_, ?_⟩
  · rw [htokens, htokens']
    simp only [List.append_assoc]
  · cases after' with
    | nil => exact hafter
    | cons v vs => exact hafter'

end Stretch

theorem Split.stretch_left (c : Split r) (hk : c.token.kind ≠ .word) : r.Stretch c.left := by
  refine ⟨[], c.token :: c.right.tokens, c.tokens_eq_append, ?_⟩
  rw [List.head?_cons]
  rintro u ⟨rfl⟩
  exact hk

theorem Split.stretch_right (c : Split r) : r.Stretch c.right := by
  refine ⟨c.left.tokens ++ [c.token], [], ?_, by simp⟩
  rw [c.tokens_eq_append, List.append_nil, List.append_assoc, List.singleton_append]

/-- A segment is cut off in front of a delimiter. -/
theorem stretch_of_mem_divide {delimiters : List Kind} (hword : .word ∉ delimiters)
    (hs : s ∈ r.divide delimiters) : r.Stretch s := by
  induction r using cut_induction delimiters with
  | last r hfree =>
    rw [divide_of_undivided hfree, List.mem_singleton] at hs
    rw [hs]
    exact Stretch.refl r
  | cut r c ih =>
    rw [divide_of_cut c] at hs
    rcases List.mem_cons.mp hs with rfl | hs
    · exact c.stretch_left fun hk => hword (hk ▸ c.kind_mem)
    · exact c.stretch_right.trans (ih hs)

/-- The body of a group is cut off in front of the parenthesis that closes it. -/
theorem stretch_of_groupBody? {body : Region} (h : m.groupBody? = some body) : m.Stretch body := by
  obtain ⟨o, ⟨c, rfl⟩ | ⟨-, rfl⟩⟩ := exists_opening h
  · refine o.stretch_right.trans (c.stretch_left ?_)
    rw [c.closes]
    decide
  · exact o.stretch_right

theorem stretch_of_mem_commands (hm : m ∈ r.commands) : r.Stretch m := by
  obtain ⟨c, hc, p, hp, hm⟩ := mem_commands.mp hm
  have hconditional := stretch_of_mem_divide (Level.word_not_mem_delimiters .conditional) hc
  have hpipeline := stretch_of_mem_divide (Level.word_not_mem_delimiters .pipeline) hp
  have hcommand := stretch_of_mem_divide (Level.word_not_mem_delimiters .command) hm
  exact hconditional.trans (hpipeline.trans hcommand)

/-- **A command of a line**, at any depth, is cut off in front of no word. -/
theorem HasCommand.stretch (h : r.HasCommand m) : r.Stretch m := by
  induction h with
  | own hm => exact stretch_of_mem_commands hm
  | inside hg hbody _ ih =>
    exact (stretch_of_mem_commands hg).trans ((stretch_of_groupBody? hbody).trans ih)

theorem HasCommand.undivided (h : r.HasCommand m) (level : Level) :
    Undivided level.delimiters 0 m.kinds := by
  induction h with
  | own hm => exact undivided_of_mem_commands hm level
  | inside _ _ _ ih => exact ih

end Region

/-! ## Issues of one command -/

namespace Watch

variable {w : Watch} {t : Token} {ts : List Token}

/-- An issue of a command that reports no missing target is raised by a token, or by a parenthesis
that stands open at the end. -/
theorem exists_of_mem_run {x : Issue} {f : Problem.Family} (hf : f ≠ .target)
    (hx : x ∈ ((w.run ts).1 ++ (w.run ts).2.endIssues).filter (Issue.reports f)) :
    (∃ (before : List Token) (t : Token) (after : List Token),
      ts = before ++ t :: after ∧ x ∈ (w.run before).2.tokenIssues t) ∨
      f = .parenthesis := by
  induction ts generalizing w with
  | nil =>
    rw [run, List.nil_append, filter_endIssues hf, List.mem_filter] at hx
    obtain ⟨p, -, rfl⟩ := List.mem_map.mp hx.1
    exact .inr (beq_iff_eq.mp hx.2).symm
  | cons t ts ih =>
    rw [run_cons, List.append_assoc, List.filter_append, List.mem_append, filter_issuesAt hf] at hx
    rcases hx with hx | hx
    · exact .inl ⟨[], t, ts, rfl, (List.mem_filter.mp hx).1⟩
    · rcases ih hx with ⟨before, u, after, rfl, hu⟩ | hparen
      · exact .inl ⟨t :: before, u, after, rfl, hu⟩
      · exact .inr hparen

/-- None of them reports an empty group. -/
theorem not_mem_run_group {x : Issue} :
    x ∉ ((w.run ts).1 ++ (w.run ts).2.endIssues).filter (Issue.reports .group) := by
  intro hx
  rcases exists_of_mem_run (by decide) hx with ⟨before, t, after, -, ht⟩ | hparen
  · have hfamily := family_tokenIssues x ht
    rw [beq_iff_eq.mp (List.mem_filter.mp hx).2] at hfamily
    exact absurd hfamily (by decide)
  · cases hparen

/-- As many parentheses stand open behind some tokens as they leave open. -/
theorem length_opened_run (w : Watch) (ts : List Token) :
    (w.run ts).2.opened.length = depthAlong w.opened.length (ts.map Token.kind) := by
  induction ts generalizing w with
  | nil => rfl
  | cons t ts ih =>
    rw [run_cons, ih, List.map_cons, depthAlong_cons, ← length_openedAfter]
    rfl

/-- What is reported to stand beside a group is a word or a parenthesis that is opened, outside of
parentheses and behind a word or a group. -/
theorem of_mem_tokenIssues_beside {x : Issue} (hx : x ∈ w.tokenIssues t)
    (hf : x.reports .beside) :
    w.opened = [] ∧ (w.hasWords = true ∨ w.afterGroup = true) ∧ t.kind ∈ [.lparen, .word] ∧
      x = ⟨.besideGroup t.raw, t.start⟩ := by
  rw [tokenIssues] at hx
  cases hk : t.kind with
  | lparen =>
    rw [hk] at hx
    simpa [and_assoc] using hx
  | rparen =>
    rw [hk] at hx
    obtain ⟨-, rfl⟩ : _ ∧ x = _ := by simpa using hx
    cases hf
  | word =>
    rw [hk] at hx
    obtain ⟨hopened, hx | ⟨⟨-, hafter⟩, rfl⟩⟩ : w.opened = [] ∧ (x ∈ openEnd t ∨ _ ∧ x = _) := by
      simpa using hx
    · have hopen := family_openEnd x hx
      rw [beq_iff_eq.mp hf] at hopen
      exact absurd hopen (by decide)
    · exact ⟨hopened, .inr hafter, by decide, rfl⟩
  | _ =>
    rw [hk] at hx
    cases hx

end Watch

/-! ## Issues and their commands -/

namespace Region

variable {r m : Region} {x : Issue}

/-- **An issue that reports no empty segment** is found in a command, at any depth: outside of its
parentheses, or as a group that is closed and holds no token. -/
theorem exists_command_of_passes {p : Issue → Bool} (hp : Issue.Passes p) (hx : x ∈ r.lineIssues)
    (hpx : p x) :
    ∃ m, r.HasCommand m ∧ (x ∈ m.ownIssues ∨
      ∃ body, m.groupBody? = some body ∧ (m.isClosed && body.isBlank) = true ∧
        x = ⟨.emptyGroup, body.stop⟩) := by
  induction r using command_induction with
  | line r ih =>
    have hfilter : x ∈ r.lineIssues.filter p := List.mem_filter.mpr ⟨hx, hpx⟩
    rw [filter_lineIssues hp, List.mem_flatMap] at hfilter
    obtain ⟨m, hm, hxm⟩ := hfilter
    replace hxm := (List.mem_filter.mp hxm).1
    cases hbody : m.groupBody? with
    | none =>
      rw [commandIssues_of_none hbody] at hxm
      exact ⟨m, .own hm, .inl hxm⟩
    | some body =>
      rw [commandIssues_of_some hbody, List.mem_append, List.mem_append] at hxm
      rcases hxm with (hown | hempty) | hinside
      · exact ⟨m, .own hm, .inl hown⟩
      · rw [List.mem_ite_nil_right, List.mem_singleton] at hempty
        exact ⟨m, .own hm, .inr ⟨body, hbody, hempty⟩⟩
      · obtain ⟨m', hm', hissue⟩ := ih m hm body hbody hinside
        exact ⟨m', .inside hm hbody hm', hissue⟩

/-- The issues of a family that reports neither an empty segment nor an empty group are found
outside of parentheses. -/
theorem exists_command_of_reports {f : Problem.Family} (hx : x ∈ r.lineIssues) (hf : x.reports f)
    (hsegment : f ∉ [.command, .pipeline, .conditional]) (hgroup : f ≠ .group) :
    ∃ m, r.HasCommand m ∧ x ∈ m.ownIssues.filter (Issue.reports f) := by
  obtain ⟨m, hm, hown | ⟨body, -, -, rfl⟩⟩ :=
    exists_command_of_passes (Issue.passes_reports hsegment) hx hf
  · exact ⟨m, hm, List.mem_filter.mpr ⟨hown, hf⟩⟩
  · exact absurd (beq_iff_eq.mp hf).symm hgroup

/-! ### Missing targets -/

/-- **A missing target** is reported at a redirect operator with no word right behind it. -/
theorem exists_redirect_of_mem_lineIssues (hx : x ∈ r.lineIssues) (hf : x.reports .target) :
    ∃ (before : List Token) (u : Token) (after : List Token),
      r.tokens = before ++ u :: after ∧ u.kind = .redirect ∧
      (∀ v ∈ after.head?, v.kind ≠ .word) ∧ x = ⟨.noTarget u.raw, u.start⟩ := by
  obtain ⟨m, hm, hown⟩ := exists_command_of_reports hx hf (by decide) (by decide)
  rw [filter_ownIssues_target, Watch.unanswered, List.mem_map] at hown
  obtain ⟨p, hp, rfl⟩ := hown
  rw [List.mem_filter, Option.isNone_iff_eq_none, Words.next?, Option.bind_eq_none_iff] at hp
  obtain ⟨hp, hnext⟩ := hp
  obtain ⟨before', after', hline, hafter⟩ := hm.stretch
  obtain ⟨before, hcommand, -⟩ := Words.exists_before_of_mem_redirects hp
  refine ⟨before' ++ before, p.1, p.2 ++ after', ?_, (Words.mem_of_mem_redirects hp).2, ?_, rfl⟩
  · rw [hline, hcommand]
    simp only [List.append_assoc, List.cons_append]
  · cases hbehind : p.2 with
    | nil => exact hafter
    | cons v vs =>
      rw [hbehind] at hnext
      rintro u ⟨rfl⟩ hk
      have hnone := hnext v rfl
      rw [Token.word?_eq_some hk] at hnone
      cases hnone

/-! ### Empty groups -/

/-- **An empty group** is reported at a closing parenthesis right behind an opening one. -/
theorem exists_parens_of_mem_lineIssues (hx : x ∈ r.lineIssues) (hf : x.reports .group) :
    ∃ (before : List Token) (o c : Token) (after : List Token),
      r.tokens = before ++ o :: c :: after ∧ o.kind = .lparen ∧
      c.kind = .rparen ∧ x = ⟨.emptyGroup, c.start⟩ := by
  obtain ⟨m, hm, hown | ⟨body, hbody, hempty, rfl⟩⟩ :=
    exists_command_of_passes (Issue.passes_reports (by decide)) hx hf
  · exact absurd (List.mem_filter.mpr ⟨hown, hf⟩) Watch.not_mem_run_group
  · obtain ⟨hclosed, hblank⟩ := Bool.and_eq_true_iff.mp hempty
    obtain ⟨o, ⟨c, rfl⟩ | ⟨hopen, rfl⟩⟩ := exists_opening hbody
    · -- the parentheses follow one another in the command, and so in the line
      have hleft : c.left.tokens = [] := isBlank_iff.mp hblank
      obtain ⟨before, after, hline, -⟩ := hm.stretch
      refine ⟨before, o.token, c.token, c.right.tokens ++ after, ?_, o.opens, c.closes, rfl⟩
      rw [hline, c.tokens_eq_group, hleft]
      rfl
    · -- a group that is not closed is not reported to be empty
      rw [o.isClosed_of_unclosed hopen] at hclosed
      cases hclosed

/-! ### Words and parentheses beside a group -/

/-- **What stands beside a group** is reported at a word or a parenthesis that is opened, right
behind a word, a redirect operator or a parenthesis that is closed. -/
theorem exists_beside_of_mem_lineIssues (hx : x ∈ r.lineIssues) (hf : x.reports .beside) :
    ∃ (before : List Token) (u v : Token) (after : List Token),
      r.tokens = before ++ u :: v :: after ∧
      u.kind ∈ [.word, .redirect, .rparen] ∧ v.kind ∈ [.lparen, .word] ∧
      x = ⟨.besideGroup v.raw, v.start⟩ := by
  obtain ⟨m, hm, hown⟩ := exists_command_of_reports hx hf (by decide) (by decide)
  obtain ⟨before, v, after, htokens, hissue⟩ :=
    (Watch.exists_of_mem_run (by decide) hown).resolve_right (by decide)
  obtain ⟨hopened, hseen, hkind, rfl⟩ := Watch.of_mem_tokenIssues_beside hissue hf
  rcases List.eq_nil_or_concat' before with rfl | ⟨front, u, rfl⟩
  · -- nothing is known at the front
    rcases hseen with hseen | hseen <;> cases hseen
  · obtain ⟨before', after', hline, -⟩ := hm.stretch
    refine ⟨before' ++ front, u, v, after ++ after', ?_, ?_, hkind, rfl⟩
    · rw [hline, htokens]
      simp only [List.append_assoc, List.cons_append, List.nil_append]
    · have hdepth : depthAlong 0 (front.map Token.kind ++ [u.kind]) = 0 := by
        have hlength := Watch.length_opened_run Watch.start (front ++ [u])
        rw [hopened, List.map_append] at hlength
        exact hlength.symm
      refine kind_of_depthAlong (fun level => ?_) hdepth
      have hlevel := hm.undivided level
      rw [kinds, htokens, List.map_append, undivided_append, List.map_append] at hlevel
      exact hlevel.1

end Region

/-! ## The issues of a line -/

/-- What an issue says of the tokens of its line. -/
structure Issue.Evident (t : Text) (i : Issue) : Prop where
  /-- no word stands right behind a redirect operator -/
  target : i.problem.code = "missing_redirect_target".toList →
    ∃ (before : List Token) (u : Token) (after : List Token),
      tokenize t = before ++ u :: after ∧ u.kind = .redirect ∧
      (∀ v ∈ after.head?, v.kind ≠ .word) ∧ i = ⟨.noTarget u.raw, u.start⟩
  /-- the last token is a word that leaves a quote open -/
  quote : i.problem.code = "unterminated_quote".toList →
    ∃ (before : List Token) (u : Token) (o : Unclosed),
      tokenize t = before ++ [u] ∧ u.kind = .word ∧ u.unclosed? = some o ∧
      o ∈ [.single, .double] ∧ i = ⟨.openQuote o.mark, u.start⟩
  /-- the last token is a word with a backslash at the end of the line that escapes nothing -/
  escape : i.problem.code = "trailing_escape".toList →
    ∃ (before : List Token) (u : Token) (front : Text),
      tokenize t = before ++ [u] ∧ u.kind = .word ∧ u.unclosed? = some .escape ∧
      u.raw = front ++ ['\\'] ∧ Word.unclosed front = none ∧
      i = ⟨.trailingEscape, t.length - 1⟩
  /-- a parenthesis is closed right behind one that is opened -/
  group : i.problem.code = "empty_group".toList →
    ∃ (before : List Token) (o c : Token) (after : List Token),
      tokenize t = before ++ o :: c :: after ∧ o.kind = .lparen ∧
      c.kind = .rparen ∧ i = ⟨.emptyGroup, c.start⟩
  /-- a parenthesis is opened, or a word stands, right behind a word, a redirect operator or a
  parenthesis that is closed -/
  beside : i.problem.code = "mixed_group".toList →
    ∃ (before : List Token) (u v : Token) (after : List Token),
      tokenize t = before ++ u :: v :: after ∧
      u.kind ∈ [.word, .redirect, .rparen] ∧ v.kind ∈ [.lparen, .word] ∧
      i = ⟨.besideGroup v.raw, v.start⟩

/-- **Every issue points at tokens of the line**, at any depth: the operator without a target, the
word that is left open, which is the last token, the parentheses of an empty group and what stands
beside a group. That something is left open is reported once at most. -/
theorem diagnose_evident (t : Text) :
    (∀ i ∈ diagnose (Region.ofText t), i.Evident t) ∧
      ((diagnose (Region.ofText t)).countP fun i =>
        i.problem.code = "unterminated_quote".toList ∨
          i.problem.code = "trailing_escape".toList) ≤ 1 := by
  have hperm : (diagnose (Region.ofText t)).Perm (Region.ofText t).lineIssues :=
    List.mergeSort_perm _ _
  constructor
  · intro i hi
    rw [hperm.mem_iff] at hi
    have htokens := Region.tokens_ofText t
    constructor
    · intro hcode
      have hf := (Issue.code_eq_iff (f := .target)).mp hcode
      exact htokens ▸ Region.exists_redirect_of_mem_lineIssues hi hf
    · intro hcode
      have hf := (Issue.code_eq_iff (f := .quote)).mp hcode
      exact htokens ▸ Region.exists_quote_of_mem_lineIssues hi hf
    · intro hcode
      have hf := (Issue.code_eq_iff (f := .escape)).mp hcode
      exact htokens ▸ Region.exists_escape_of_mem_lineIssues hi hf
    · intro hcode
      have hf := (Issue.code_eq_iff (f := .group)).mp hcode
      exact htokens ▸ Region.exists_parens_of_mem_lineIssues hi hf
    · intro hcode
      have hf := (Issue.code_eq_iff (f := .beside)).mp hcode
      exact htokens ▸ Region.exists_beside_of_mem_lineIssues hi hf
  · have hopen : (fun i : Issue => decide (i.problem.code = "unterminated_quote".toList ∨
        i.problem.code = "trailing_escape".toList)) = Issue.isOpenEnd := by
      funext i
      rw [Bool.eq_iff_iff, decide_eq_true_iff, Issue.isOpenEnd, Bool.or_eq_true]
      exact or_congr (Issue.code_eq_iff (f := .quote)) (Issue.code_eq_iff (f := .escape))
    rw [hperm.countP_eq, hopen]
    exact Region.countP_isOpenEnd_le _

/-- **An empty group and an open quote** behind it: both are reported, and both can be seen. -/
theorem diagnose_evident_open_quote :
    (⟨.emptyGroup, 1⟩ ∈ diagnose (Region.ofText "() 'b".toList) ∧
      Issue.Evident "() 'b".toList ⟨.emptyGroup, 1⟩) ∧
    ⟨.openQuote '\'', 3⟩ ∈ diagnose (Region.ofText "() 'b".toList) ∧
      Issue.Evident "() 'b".toList ⟨.openQuote '\'', 3⟩ := by
  have hfree : ∀ level : Level,
      Undivided level.delimiters 0 (Region.ofText "() 'b".toList).kinds := by
    intro level
    cases level <;> decide +kernel
  have hbody : (Region.ofText "() 'b".toList).closed.groupBody? =
      some ⟨"() 'b".toList, 1, 1, 1, by decide, by decide, by decide⟩ := by
    decide +kernel
  have hfound : ∀ i ∈ [⟨.emptyGroup, 1⟩, ⟨.openQuote '\'', 3⟩],
      i ∈ diagnose (Region.ofText "() 'b".toList) := by
    intro i hi
    have hpasses : Issue.Passes fun i => !i.problem.isEmptySegment :=
      fun i hi => congrArg Bool.not hi
    have hfilter : i ∈ (Region.ofText "() 'b".toList).lineIssues.filter
        fun i => !i.problem.isEmptySegment := by
      rw [Region.filter_lineIssues hpasses, Region.commands_of_free hfree, List.flatMap_singleton,
        Region.commandIssues_of_some hbody, List.filter_append]
      refine List.mem_append_left _ ?_
      revert i
      decide +kernel
    rw [diagnose, List.mem_mergeSort]
    exact (List.mem_filter.mp hfilter).1
  have hgroup := hfound ⟨.emptyGroup, 1⟩ (by decide)
  have hquote := hfound ⟨.openQuote '\'', 3⟩ (by decide)
  exact ⟨⟨hgroup, (diagnose_evident _).1 _ hgroup⟩, hquote, (diagnose_evident _).1 _ hquote⟩

end CommandLine
