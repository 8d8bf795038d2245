import CommandLine.Proofs.Gathering

/-!
# Targets of redirections

Targets are looked for twice. A redirect operator is reported unless a word stands right behind it;
but the words of a command pass over parentheses, so there an operator takes the next word outside
of them. The two agree on every operator that no parenthesis stands right behind, and on those
behind whose parentheses no word comes next.

* `Words.redirects` — the redirect operators of a command, each with the tokens behind it.
* `Words.collect_cons` — what one token outside of parentheses gives.
* `Words.redirections_collect` — the targets that operators take.
* `Prompt` — no operator takes a word that stands behind parentheses.
* `Watch.filter_run_target` — the operators that are reported.
* `Agree` — targets that are reported against targets that are missing, part by part.
* `Region.missing_targets_iff` — the two are as many exactly if all commands are prompt.
-/

namespace CommandLine

/-! ## Operators and targets -/

/-- The text of a word. -/
def Token.word? (t : Token) : Option Text := if t.kind = .word then some t.text else none

theorem Token.word?_eq_some {t : Token} (h : t.kind = .word) : t.word? = some t.text := if_pos h

theorem Token.word?_eq_none {t : Token} (h : t.kind ≠ .word) : t.word? = none := if_neg h

namespace Words

/-- The redirect operators of some tokens outside parentheses, each with the tokens behind it. -/
def redirects : Nat → List Token → List (Token × List Token)
  | _, [] => []
  | depth, t :: ts =>
    if depth = 0 ∧ t.kind = .redirect then (t, ts) :: redirects depth ts
    else redirects (depthAfter depth t.kind) ts

/-- The first token outside parentheses that is no parenthesis. -/
def firstOutside : Nat → List Token → Option Token
  | _, [] => none
  | depth, t :: ts =>
    if 0 < depth ∨ t.kind = .lparen ∨ t.kind = .rparen then firstOutside (depthAfter depth t.kind) ts
    else some t

/-- The word right behind an operator. -/
def next? (p : Token × List Token) : Option Text := p.2.head?.bind Token.word?

/-- The word behind an operator that comes next when parentheses are passed over. -/
def reached? (p : Token × List Token) : Option Text := (firstOutside 0 p.2).bind Token.word?

/-- An operator with the target that a rule finds for it. -/
def redirection? (target : Token × List Token → Option Text) (p : Token × List Token) :
    Option Redirection :=
  p.1.redirectOp?.map fun op => op.onto (target p)

section

variable {depth : Nat} {t : Token}

/-- A token is passed over, as a parenthesis or between parentheses, or it stands outside. -/
theorem passed_or_outside (depth : Nat) (t : Token) :
    (0 < depth ∨ t.kind = .lparen ∨ t.kind = .rparen) ∨
      depth = 0 ∧ t.kind ≠ .lparen ∧ t.kind ≠ .rparen := by
  rcases Nat.eq_zero_or_pos depth with rfl | hpos
  · rw [← not_or]
    exact (em _).imp .inr fun hparen => ⟨rfl, hparen⟩
  · exact .inl (.inl hpos)

theorem redirects_skip (ts : List Token) (h : 0 < depth ∨ t.kind = .lparen ∨ t.kind = .rparen) :
    redirects depth (t :: ts) = redirects (depthAfter depth t.kind) ts := by
  rw [redirects, if_neg]
  rintro ⟨rfl, hk⟩
  simp [hk] at h

theorem redirects_cons (ts : List Token) (h : t.kind = .redirect) :
    redirects 0 (t :: ts) = (t, ts) :: redirects 0 ts := by
  rw [redirects, if_pos ⟨rfl, h⟩]

theorem redirects_cons_of_ne (ts : List Token) (hopen : t.kind ≠ .lparen)
    (h : t.kind ≠ .redirect) : redirects 0 (t :: ts) = redirects 0 ts := by
  rw [redirects, if_neg fun ht => h ht.2, depthAfter_zero hopen]

/-- Only a redirect token is an operator. -/
theorem redirectOp?_eq_none (h : t.kind ≠ .redirect) : t.redirectOp? = none := by
  rw [Token.redirectOp?]
  split
  · contradiction
  · rfl

/-- A token outside of parentheses gives a redirection if an operator waits, and an argument if it
is a word and none does. -/
theorem collect_cons (pending : Option RedirectOp) (ts : List Token)
    (hopen : t.kind ≠ .lparen) (hclose : t.kind ≠ .rparen) :
    collect 0 pending (t :: ts) =
      ⟨(if pending = none then t.word?.toList else []) ++ (collect 0 t.redirectOp? ts).args,
        (pending.map fun op => op.onto t.word?).toList ++
          (collect 0 t.redirectOp? ts).redirections⟩ := by
  have hword : t.word? = if t.kind = .word then some t.text else none := rfl
  rw [collect.eq_def]
  cases hk : t.kind with
  | lparen => exact absurd hk hopen
  | rparen => exact absurd hk hclose
  | redirect => cases pending <;> simp [hk, hword, addRedirections, targetless]
  | _ =>
    cases pending <;>
      simp [hk, hword, redirectOp?_eq_none, addArg, addRedirections, targetless]

end

/-- **The targets that operators take**: the next word outside parentheses, if no other token stands
outside of them before it. -/
theorem redirections_collect (depth : Nat) (pending : Option RedirectOp) (ts : List Token) :
    (collect depth pending ts).redirections =
      (pending.map fun op => op.onto ((firstOutside depth ts).bind Token.word?)).toList ++
        (redirects depth ts).filterMap (redirection? reached?) := by
  induction ts generalizing depth pending with
  | nil => cases pending <;> rfl
  | cons t ts ih =>
    rcases passed_or_outside depth t with hpassed | ⟨rfl, hopen, hclose⟩
    · rw [collect_skip pending ts hpassed, ih, firstOutside, if_pos hpassed,
        redirects_skip ts hpassed]
    · have hfirst : firstOutside 0 (t :: ts) = some t := by
        simp [firstOutside, hopen, hclose]
      rw [collect_cons pending ts hopen hclose, ih, hfirst, Option.bind_some]
      -- an operator among the tokens is one that waits for what is behind it
      by_cases hk : t.kind = .redirect
      · rw [redirects_cons ts hk, List.filterMap_cons, redirection?]
        cases t.redirectOp? <;> rfl
      · rw [redirects_cons_of_ne ts hopen hk, redirectOp?_eq_none hk]
        rfl

end Words

/-! ## Prompt commands -/

/-- No redirect operator of some tokens has parentheses behind it and then a word. -/
def Prompt (ts : List Token) : Prop :=
  ∀ p ∈ Words.redirects 0 ts, ∀ u ∈ Words.firstOutside 0 p.2, u.kind = .word → p.2.head? = some u

namespace Words

variable {p : Token × List Token}

/-- A word right behind an operator is the first token outside parentheses. -/
theorem firstOutside_of_word {t : Token} (ts : List Token) (h : t.kind = .word) :
    firstOutside 0 (t :: ts) = some t := by
  rw [firstOutside, if_neg]
  simp [h]

theorem bind_word?_eq_some_iff {o : Option Token} {target : Text} :
    o.bind Token.word? = some target ↔ ∃ u, o = some u ∧ u.kind = .word ∧ u.text = target := by
  rw [Option.bind_eq_some_iff]
  refine exists_congr fun u => and_congr_right fun _ => ?_
  rw [Token.word?, Option.ite_none_right_eq_some, Option.some.injEq]

/-- The word right behind an operator is the one that it takes. -/
theorem reached?_of_next? {target : Text} (h : next? p = some target) :
    reached? p = some target := by
  obtain ⟨u, hu, hk, htext⟩ := bind_word?_eq_some_iff.mp h
  obtain ⟨us, hus⟩ := List.head?_eq_some_iff.mp hu
  refine bind_word?_eq_some_iff.mpr ⟨u, ?_, hk, htext⟩
  rw [hus]
  exact firstOutside_of_word us hk

/-- An operator takes another word than the one right behind it only over parentheses. -/
theorem reached?_eq_next?_iff :
    reached? p = next? p ↔ ∀ u ∈ firstOutside 0 p.2, u.kind = .word → p.2.head? = some u := by
  constructor
  · intro h u hu hk
    have hnext : next? p = some u.text := by
      rw [← h]
      exact bind_word?_eq_some_iff.mpr ⟨u, hu, hk, rfl⟩
    obtain ⟨v, hv, hkv, -⟩ := bind_word?_eq_some_iff.mp hnext
    obtain ⟨vs, hvs⟩ := List.head?_eq_some_iff.mp hv
    rw [Option.mem_def, hvs, firstOutside_of_word vs hkv, Option.some.injEq] at hu
    rw [hv, hu]
  · intro h
    cases hnext : next? p with
    | some target => exact reached?_of_next? hnext
    | none =>
      by_contra hreached
      obtain ⟨target, htarget⟩ := Option.ne_none_iff_exists'.mp hreached
      obtain ⟨u, hu, hk, htext⟩ := bind_word?_eq_some_iff.mp htarget
      have hsome : next? p = some target := bind_word?_eq_some_iff.mpr ⟨u, h u hu hk, hk, htext⟩
      rw [hnext] at hsome
      cases hsome

/-- A command is prompt if all its operators take the word right behind them. -/
theorem prompt_iff {ts : List Token} :
    Prompt ts ↔ ∀ p ∈ redirects 0 ts, reached? p = next? p :=
  forall₂_congr fun _ _ => reached?_eq_next?_iff.symm

/-- What is collected are redirect operators of the tokens. -/
theorem mem_of_mem_redirects {depth : Nat} {ts : List Token} (h : p ∈ redirects depth ts) :
    p.1 ∈ ts ∧ p.1.kind = .redirect := by
  induction ts generalizing depth with
  | nil => cases h
  | cons t ts ih =>
    rw [redirects] at h
    split at h
    · next ht =>
      rcases List.mem_cons.mp h with rfl | h
      · exact ⟨List.mem_cons_self, ht.2⟩
      · exact (ih h).imp_left (List.mem_cons_of_mem _)
    · exact (ih h).imp_left (List.mem_cons_of_mem _)

/-- Operators have the same targets by two rules exactly if the rules agree on each of them. -/
theorem filterMap_redirection?_eq_iff {a b : Token × List Token → Option Text}
    {ps : List (Token × List Token)} (hop : ∀ p ∈ ps, ∃ op, p.1.redirectOp? = some op) :
    ps.filterMap (redirection? a) = ps.filterMap (redirection? b) ↔ ∀ p ∈ ps, a p = b p := by
  induction ps with
  | nil => exact iff_of_true rfl (List.forall_mem_nil _)
  | cons p ps ih =>
    obtain ⟨⟨op, hp⟩, hps⟩ := List.forall_mem_cons.mp hop
    rw [List.forall_mem_cons, ← ih hps]
    simp [redirection?, hp]

end Words

/-! ## Operators that are reported -/

/-- Missing targets are reported under one code. -/
theorem Issue.reports_target :
    (fun i : Issue => decide (i.problem.code = "missing_redirect_target".toList)) =
      reports .target := by
  funext i
  rw [Bool.eq_iff_iff, decide_eq_true_iff]
  exact code_eq_iff (f := .target)

namespace Watch

variable {w : Watch} {t : Token} {ts : List Token}

/-- The operators that a word may still come behind: the last token, if it is one, and those of the
tokens to come. -/
def awaiting (w : Watch) (ts : List Token) : List (Token × List Token) :=
  w.redirect.toList.map (fun t => (t, ts)) ++ Words.redirects w.opened.length ts

theorem length_openedAfter : (w.openedAfter t).length = depthAfter w.opened.length t.kind := by
  rw [openedAfter]
  cases t.kind <;> simp [depthAfter]

/-- Behind a token an operator is awaited if the token is one outside parentheses. -/
theorem awaiting_step (w : Watch) (t : Token) (ts : List Token) :
    (w.step t).awaiting ts = Words.redirects w.opened.length (t :: ts) := by
  have hlength : (w.step t).opened.length = depthAfter w.opened.length t.kind :=
    length_openedAfter
  rw [awaiting, hlength, Words.redirects]
  by_cases hk : t.kind = .redirect
  · have hopened : w.openedAfter t = w.opened := by
      rw [openedAfter, hk]
    cases hw : w.opened <;> simp [step, hopened, hw, hk, depthAfter]
  · simp [step, hk]

theorem filter_tokenIssues_target : (w.tokenIssues t).filter (Issue.reports .target) = [] := by
  apply Issue.filter_reports_eq_nil
  intro x hx hfamily
  have hother := family_tokenIssues x hx
  rw [hfamily] at hother
  simp at hother

/-- The operators of some tokens without a word right behind them. -/
def unanswered (ps : List (Token × List Token)) : List Issue :=
  (ps.filter fun p => (Words.next? p).isNone).map fun p => missingTarget p.1

theorem unanswered_append (ps qs : List (Token × List Token)) :
    unanswered (ps ++ qs) = unanswered ps ++ unanswered qs := by
  rw [unanswered, List.filter_append, List.map_append]
  rfl

/-- **The operators that are reported** are those without a word right behind them. -/
theorem filter_run_target (w : Watch) (ts : List Token) :
    ((w.run ts).1 ++ (w.run ts).2.endIssues).filter (Issue.reports .target) =
      unanswered (w.awaiting ts) := by
  induction ts generalizing w with
  | nil =>
    have hopened : (w.opened.reverse.map fun p => (⟨.unclosedGroup, p⟩ : Issue)).filter
        (Issue.reports .target) = [] := by
      rw [List.filter_map, List.map_eq_nil_iff, List.filter_eq_nil_iff]
      exact fun _ _ => Bool.false_ne_true
    rw [run, List.nil_append, endIssues, List.filter_append, hopened, List.append_nil, awaiting]
    cases w.redirect <;> rfl
  | cons t ts ih =>
    rw [run_cons, List.append_assoc, List.filter_append, ih, awaiting_step, awaiting,
      unanswered_append, issuesAt, List.filter_append, filter_tokenIssues_target, List.append_nil]
    congr 1
    cases w.redirect with
    | none => rfl
    | some r =>
      by_cases hk : t.kind = .word
      · simp [unanswered, Words.next?, hk, Token.word?_eq_some]
      · simp [unanswered, Words.next?, hk, Token.word?_eq_none, Issue.reports, missingTarget,
          Problem.family]

end Watch

/-! ## Commands and lines -/

/-- Whether a redirection has no target. -/
def Redirection.isTargetless (x : Redirection) : Bool := x.target.isNone

theorem Redirection.isTargetless_eq :
    (fun x : Redirection => decide (x.target = none)) = isTargetless := by
  funext x
  rw [Bool.eq_iff_iff, decide_eq_true_iff, isTargetless, Option.isNone_iff_eq_none]

/-- At least as many targets are reported by some issues as some redirections miss, and as many
exactly if a condition holds. -/
structure Agree (is : List Issue) (xs : List Redirection) (P : Prop) : Prop where
  /-- what is missing is reported -/
  le : xs.countP Redirection.isTargetless ≤ is.countP (Issue.reports .target)
  /-- what is reported is missing -/
  eq_iff : is.countP (Issue.reports .target) = xs.countP Redirection.isTargetless ↔ P

namespace Agree

variable {is js : List Issue} {xs ys : List Redirection} {P Q : Prop}

theorem append (hP : Agree is xs P) (hQ : Agree js ys Q) : Agree (is ++ js) (xs ++ ys) (P ∧ Q) := by
  have hle := hP.le
  have hle' := hQ.le
  constructor
  · rw [List.countP_append, List.countP_append]
    exact Nat.add_le_add hle hle'
  · rw [List.countP_append, List.countP_append, ← hP.eq_iff, ← hQ.eq_iff]
    omega

theorem flatMap {α : Type} {l : List α} {f : α → List Issue} {g : α → List Redirection}
    {P : α → Prop} (h : ∀ a ∈ l, Agree (f a) (g a) (P a)) :
    Agree (l.flatMap f) (l.flatMap g) (∀ a ∈ l, P a) := by
  induction l with
  | nil => exact ⟨Nat.le_refl _, iff_of_true rfl (List.forall_mem_nil _)⟩
  | cons a l ih =>
    obtain ⟨ha, hl⟩ := List.forall_mem_cons.mp h
    rw [List.flatMap_cons, List.flatMap_cons, List.forall_mem_cons]
    exact ha.append (ih hl)

/-- Only the issues that report a missing target matter. -/
theorem filter_iff : Agree (is.filter (Issue.reports .target)) xs P ↔ Agree is xs P := by
  have hcount : (is.filter (Issue.reports .target)).countP (Issue.reports .target) =
      is.countP (Issue.reports .target) := by
    simp only [List.countP_filter, Bool.and_self]
  constructor
  · rintro ⟨hle, hiff⟩
    rw [hcount] at hle hiff
    exact ⟨hle, hiff⟩
  · rintro ⟨hle, hiff⟩
    rw [← hcount] at hle hiff
    exact ⟨hle, hiff⟩

/-- An operator is reported if it has no word right behind it, and may take another one. -/
theorem singleton {p : Token × List Token} (op : RedirectOp) :
    Agree (Watch.unanswered [p]) [op.onto (Words.reached? p)] (Words.reached? p = Words.next? p) := by
  cases hnext : Words.next? p with
  | some target =>
    -- the word right behind the operator is its target, and nothing is reported
    have hreached := Words.reached?_of_next? hnext
    have hreports : Watch.unanswered [p] = [] := by
      simp [Watch.unanswered, hnext]
    rw [hreports, hreached]
    exact ⟨Nat.le_refl _, iff_of_true rfl rfl⟩
  | none =>
    have hreports : Watch.unanswered [p] = [Watch.missingTarget p.1] := by
      simp [Watch.unanswered, hnext]
    rw [hreports]
    cases Words.reached? p with
    | none => exact ⟨Nat.le_refl _, iff_of_true rfl rfl⟩
    | some target =>
      exact ⟨Nat.zero_le _, iff_of_false Nat.one_ne_zero (Option.some_ne_none target)⟩

/-- **The operators of a command** take as many targets as are not reported to be missing, if each
takes the word right behind it. -/
theorem unanswered {ps : List (Token × List Token)}
    (hop : ∀ p ∈ ps, ∃ op, p.1.redirectOp? = some op) :
    Agree (Watch.unanswered ps) (ps.filterMap (Words.redirection? Words.reached?))
      (∀ p ∈ ps, Words.reached? p = Words.next? p) := by
  induction ps with
  | nil => exact ⟨Nat.le_refl _, iff_of_true rfl (List.forall_mem_nil _)⟩
  | cons p ps ih =>
    obtain ⟨⟨op, hp⟩, hps⟩ := List.forall_mem_cons.mp hop
    have hhead : Words.redirection? Words.reached? p = some (op.onto (Words.reached? p)) := by
      rw [Words.redirection?, hp, Option.map_some]
    rw [← List.singleton_append, Watch.unanswered_append, List.singleton_append,
      List.filterMap_cons_some hhead, List.forall_mem_cons]
    exact (singleton op).append (ih hps)

end Agree

namespace Region

variable {r m : Region}

/-- The redirections of a command are its redirect operators, each with the target it takes. -/
theorem redirections_words (m : Region) :
    m.words.redirections =
      (Words.redirects 0 m.tokens).filterMap (Words.redirection? Words.reached?) :=
  Words.redirections_collect 0 none m.tokens

/-- The reports of a command are those of its redirect operators without a word right behind. -/
theorem filter_ownIssues_target (m : Region) :
    m.ownIssues.filter (Issue.reports .target) = Watch.unanswered (Words.redirects 0 m.tokens) :=
  Watch.filter_run_target Watch.start m.tokens

/-- The redirect operators of a command are such. -/
theorem exists_redirectOp_of_mem {p : Token × List Token} (h : p ∈ Words.redirects 0 m.tokens) :
    ∃ op, p.1.redirectOp? = some op := by
  obtain ⟨ht, hk⟩ := Words.mem_of_mem_redirects h
  obtain ⟨op, hop, -⟩ := Token.exists_redirectOp ht hk
  exact ⟨op, hop⟩

/-- The redirections of a command take the word right behind each if the command is prompt. -/
theorem redirections_words_eq_iff (m : Region) :
    m.words.redirections =
        (Words.redirects 0 m.tokens).filterMap (Words.redirection? Words.next?) ↔
      Prompt m.tokens := by
  rw [redirections_words, Words.prompt_iff]
  exact Words.filterMap_redirection?_eq_iff fun p hp => exists_redirectOp_of_mem hp

theorem agree_ownIssues (m : Region) :
    Agree m.ownIssues m.words.redirections (Prompt m.tokens) := by
  rw [← Agree.filter_iff, filter_ownIssues_target, redirections_words, Words.prompt_iff]
  exact Agree.unanswered fun p hp => exists_redirectOp_of_mem hp

theorem agree_commandIssues {P : Region → Prop}
    (hbody : ∀ body, m.groupBody? = some body →
      Agree body.lineIssues body.toLine.redirections (P body)) :
    Agree m.commandIssues m.toCommand.redirections
      (Prompt m.tokens ∧ ∀ body, m.groupBody? = some body → P body) := by
  cases hm : m.groupBody? with
  | none =>
    rw [commandIssues_of_none hm, redirections_of_none hm]
    simpa using m.agree_ownIssues
  | some body =>
    rw [commandIssues_of_some hm, redirections_of_some hm]
    have hempty : Agree (if m.isClosed && body.isBlank then [⟨.emptyGroup, body.stop⟩] else []) []
        True := by
      split <;> exact ⟨Nat.le_refl _, iff_of_true rfl trivial⟩
    simpa using (m.agree_ownIssues.append hempty).append (hbody body hm)

/-- **Along a whole line** as many targets are reported as are missing, if its commands are prompt.
-/
theorem agree_lineIssues (r : Region) :
    Agree r.lineIssues r.toLine.redirections (∀ m, r.HasCommand m → Prompt m.tokens) := by
  induction r using command_induction with
  | line r ih =>
    have hpasses : Issue.Passes (Issue.reports .target) := Issue.passes_reports (by decide)
    rw [← Agree.filter_iff, filter_lineIssues hpasses, redirections_toLine, forall_hasCommand_iff]
    refine Agree.flatMap fun m hm => Agree.filter_iff.mpr ?_
    exact agree_commandIssues fun body hbody => ih m hm body hbody

/-- **Missing targets.** The issues that report one are as many as the redirections of the tree
without one, in groups or outside, exactly if no command has parentheses between a redirect operator
and the next word. In such commands each operator takes the word right behind it, and in every
command those are reported that have no word right behind them. -/
theorem missing_targets_iff (r : Region) :
    (((diagnose r).countP fun i => i.problem.code = "missing_redirect_target".toList) =
        r.toLine.redirections.countP (fun x => x.target = none) ↔
      ∀ m, r.HasCommand m → Prompt m.tokens) ∧
    ∀ m : Region,
      (m.words.redirections =
          (Words.redirects 0 m.tokens).filterMap (Words.redirection? Words.next?) ↔
        Prompt m.tokens) ∧
      (m.ownIssues.filter fun i => i.problem.code = "missing_redirect_target".toList) =
        Watch.unanswered (Words.redirects 0 m.tokens) := by
  have hperm : (diagnose r).Perm r.lineIssues := List.mergeSort_perm _ _
  rw [Issue.reports_target, Redirection.isTargetless_eq, hperm.countP_eq]
  exact ⟨r.agree_lineIssues.eq_iff, fun m => ⟨m.redirections_words_eq_iff, m.filter_ownIssues_target⟩⟩

/-- **A target behind parentheses**: it is reported to be missing, but none is. -/
theorem target_behind_parentheses :
    ((diagnose (Region.ofText "> (a) f".toList)).countP
        fun i => i.problem.code = "missing_redirect_target".toList) = 1 ∧
      (Line.ofText "> (a) f".toList).redirections = [⟨.write, 1, false, some ['f']⟩] := by
  have hfree : ∀ level : Level,
      Undivided level.delimiters 0 (Region.ofText "> (a) f".toList).kinds := by
    intro level
    cases level <;> decide +kernel
  have hnone : (Region.ofText "> (a) f".toList).closed.groupBody? = none := by
    rw [groupBody?, if_neg (by decide +kernel)]
  have hperm : (diagnose (Region.ofText "> (a) f".toList)).Perm
      (Region.ofText "> (a) f".toList).lineIssues := List.mergeSort_perm _ _
  constructor
  · rw [Issue.reports_target, hperm.countP_eq, List.countP_eq_length_filter,
      filter_lineIssues (Issue.passes_reports (by decide)), commands_of_free hfree,
      List.flatMap_singleton, commandIssues_of_none hnone]
    decide +kernel
  · rw [Line.ofText, redirections_toLine, commands_of_free hfree, List.flatMap_singleton,
      redirections_of_none hnone]
    decide +kernel

end Region

end CommandLine
