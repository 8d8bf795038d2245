import CommandLine.Proofs.Matching
import CommandLine.Proofs.Targets

/-!
# Issues that are reported twice

The tokens of a group are seen twice, along the command and again as the line in its parentheses. No
issue is found in both passes, with one exception: the parentheses that a group which is not closed
leaves open in its body.

* `Issue.key` — what can be told of an issue.
* `Issue.Apart` — issues that differ in their code or their position.
* `Region.apart_ownIssues` — the issues along a command.
* `Region.Distinct` — issues in a region that stand apart from one another.
* `Region.nodup_iff_shut` — no issue of a line is reported twice exactly if no group leaves a
  parenthesis open in its body.
-/

namespace CommandLine

/-! ## Issues apart -/

namespace Issue

/-- What can be told of an issue: its code, its message and its position. -/
def key (i : Issue) : Text × Text × Nat := (i.problem.code, i.problem.message, i.position)

/-- Two issues of one family do not stand at the same position. -/
def Apart (x y : Issue) : Prop := x.problem.family = y.problem.family → x.position ≠ y.position

theorem Apart.symm {x y : Issue} (h : x.Apart y) : y.Apart x :=
  fun hfamily hpos => h hfamily.symm hpos.symm

theorem Apart.of_lt {x y : Issue} (h : x.position < y.position) : x.Apart y :=
  fun _ => Nat.ne_of_lt h

/-- Issues that are apart can be told apart. -/
theorem Apart.key_ne {x y : Issue} (h : x.Apart y) : x.key ≠ y.key := by
  intro heq
  have hcode : x.problem.code = y.problem.code := congrArg Prod.fst heq
  have hpos : x.position = y.position := congrArg (fun k => k.2.2) heq
  rw [Problem.code_eq, Problem.code_eq] at hcode
  exact h (Problem.Family.code_injective hcode) hpos

/-- Issues are apart if those of each family are. -/
theorem pairwise_apart_of_reports {is : List Issue}
    (h : ∀ f, (is.filter (reports f)).Pairwise Apart) : is.Pairwise Apart := by
  simp only [List.pairwise_filter] at h
  induction is with
  | nil => exact .nil
  | cons x is ih =>
    simp only [List.pairwise_cons] at h
    rw [List.pairwise_cons]
    refine ⟨?_, ih fun f => (h f).2⟩
    intro y hy hfamily
    refine (h x.problem.family).1 y hy ?_ ?_ hfamily
    · simp [reports]
    · simp [reports, hfamily]

end Issue

/-! ## One command -/

namespace Watch

variable {w : Watch} {t : Token} {ts : List Token}

/-- The issues of a token stand in it, and apart. -/
theorem apart_tokenIssues (w : Watch) (ht : t.start < t.stop) :
    (w.tokenIssues t).Pairwise Issue.Apart ∧
      ∀ x ∈ w.tokenIssues t, t.start ≤ x.position ∧ x.position < t.stop := by
  have hend : (openEnd t).Pairwise Issue.Apart ∧
      ∀ x ∈ openEnd t, t.start ≤ x.position ∧ x.position < t.stop := by
    rw [openEnd]
    cases t.unclosed? with
    | none => exact ⟨.nil, List.forall_mem_nil _⟩
    | some o =>
      cases o <;> refine ⟨List.pairwise_singleton _ _, List.forall_mem_singleton.mpr ?_⟩ <;>
        dsimp only <;> omega
  have hsingle : ∀ (c : Prop) [Decidable c] (p : Problem),
      (if c then [(⟨p, t.start⟩ : Issue)] else []).Pairwise Issue.Apart ∧
        ∀ x ∈ (if c then [(⟨p, t.start⟩ : Issue)] else []),
          t.start ≤ x.position ∧ x.position < t.stop := by
    intro c _ p
    split
    · exact ⟨List.pairwise_singleton _ _, List.forall_mem_singleton.mpr ⟨Nat.le_refl _, ht⟩⟩
    · exact ⟨.nil, List.forall_mem_nil _⟩
  rw [tokenIssues]
  cases t.kind with
  | lparen => exact hsingle _ _
  | rparen => exact hsingle _ _
  | word =>
    dsimp only
    split
    · refine ⟨List.pairwise_append.mpr ⟨hend.1, (hsingle _ _).1, ?_⟩,
        List.forall_mem_append.mpr ⟨hend.2, (hsingle _ _).2⟩⟩
      -- what a word leaves open is one thing, and that it stands beside a group is another
      intro x hx y hy hfamily
      have hopen := family_openEnd x hx
      split at hy
      · obtain rfl := List.mem_singleton.mp hy
        rw [hfamily] at hopen
        simp [Problem.family] at hopen
      · cases hy
    · exact ⟨.nil, List.forall_mem_nil _⟩
  | _ => exact ⟨.nil, List.forall_mem_nil _⟩

/-- Apart from missing targets and parentheses, what is found along tokens stands in them. -/
theorem apart_run_of_ne {f : Problem.Family} (htarget : f ≠ .target) (hparen : f ≠ .parenthesis)
    (hts : ts.Pairwise fun t u => t.stop ≤ u.start) (hpos : ∀ t ∈ ts, t.start < t.stop) :
    (((w.run ts).1 ++ (w.run ts).2.endIssues).filter (Issue.reports f)).Pairwise Issue.Apart ∧
      ∀ x ∈ ((w.run ts).1 ++ (w.run ts).2.endIssues).filter (Issue.reports f),
        ∃ t ∈ ts, t.start ≤ x.position ∧ x.position < t.stop := by
  induction ts generalizing w with
  | nil =>
    have hnone : w.endIssues.filter (Issue.reports f) = [] := by
      rw [filter_endIssues htarget]
      apply Issue.filter_reports_eq_nil
      exact List.forall_mem_map.mpr fun _ _ => hparen.symm
    rw [run, List.nil_append, hnone]
    exact ⟨.nil, List.forall_mem_nil _⟩
  | cons t ts ih =>
    obtain ⟨hbehind, hts⟩ := List.pairwise_cons.mp hts
    obtain ⟨ht, hpos⟩ := List.forall_mem_cons.mp hpos
    obtain ⟨hrest, hplace⟩ := ih (w := w.step t) hts hpos
    obtain ⟨htoken, hwithin⟩ := w.apart_tokenIssues ht
    rw [run_cons, List.append_assoc, List.filter_append, filter_issuesAt htarget]
    constructor
    · refine List.pairwise_append.mpr ⟨htoken.sublist List.filter_sublist, hrest, ?_⟩
      intro x hx y hy
      obtain ⟨u, hu, hy, -⟩ := hplace y hy
      obtain ⟨-, hx⟩ := hwithin x (List.mem_of_mem_filter hx)
      have hle := hbehind u hu
      exact .of_lt (by omega)
    · intro x hx
      rcases List.mem_append.mp hx with hx | hx
      · exact ⟨t, List.mem_cons_self, hwithin x (List.mem_of_mem_filter hx)⟩
      · obtain ⟨u, hu, hx⟩ := hplace x hx
        exact ⟨u, List.mem_cons_of_mem _ hu, hx⟩

end Watch

/-- Redirect operators keep their order. -/
theorem Words.redirects_sublist (depth : Nat) (ts : List Token) :
    ((redirects depth ts).map Prod.fst).Sublist ts := by
  induction ts generalizing depth with
  | nil => exact List.Sublist.refl _
  | cons t ts ih =>
    rw [redirects]
    split
    · exact (ih depth).cons_cons t
    · exact (ih _).cons t

namespace Region

variable {r m body : Region} {is js : List Issue}

theorem pairwise_start (m : Region) : m.tokens.Pairwise fun t u => t.start < u.start := by
  refine (pairwise_tokensOf m.source m.start m.text).imp_of_mem fun ht _ h => ?_
  exact Nat.lt_of_lt_of_le (tokens_bounds ht).2.1 h

/-- **The issues along a command are apart.** -/
theorem apart_ownIssues (m : Region) : m.ownIssues.Pairwise Issue.Apart := by
  apply Issue.pairwise_apart_of_reports
  intro f
  by_cases htarget : f = .target
  · subst htarget
    have hoperators := m.pairwise_start.sublist (Words.redirects_sublist 0 m.tokens)
    rw [List.pairwise_map] at hoperators
    rw [filter_ownIssues_target, Watch.unanswered, List.pairwise_map]
    exact (hoperators.sublist List.filter_sublist).imp fun h => .of_lt h
  · by_cases hparen : f = .parenthesis
    · subst hparen
      have hparens := m.pairwise_start.sublist (unmatched_sublist [] m.tokens)
      rw [filter_ownIssues_parenthesis, List.pairwise_map]
      exact hparens.imp fun h => .of_lt h
    · exact (Watch.apart_run_of_ne htarget hparen (pairwise_tokensOf _ _ _)
        fun t ht => (tokens_bounds ht).2.1).1

/-! ## A whole line -/

/-- Issues in a region that stand apart from one another. -/
structure Distinct (r : Region) (is : List Issue) : Prop where
  /-- they stand in the region -/
  within : ∀ x ∈ is, r.start ≤ x.position ∧ x.position ≤ r.stop
  /-- they are apart -/
  apart : is.Pairwise Issue.Apart

theorem distinct_singleton {x : Issue} (h : r.start ≤ x.position ∧ x.position ≤ r.stop) :
    r.Distinct [x] :=
  ⟨List.forall_mem_singleton.mpr h, List.pairwise_singleton _ _⟩

/-- Around a token the issues before it and after it are apart. -/
theorem Distinct.append (c : Split r) (hleft : c.left.Distinct is) (hright : c.right.Distinct js) :
    r.Distinct (is ++ js) := by
  have hb := c.bounds
  have hbefore : ∀ x ∈ is, r.start ≤ x.position ∧ x.position ≤ c.token.start := hleft.within
  have hbehind : ∀ y ∈ js, c.token.stop ≤ y.position ∧ y.position ≤ r.stop := hright.within
  refine ⟨within_append c hbefore hbehind, ?_⟩
  refine List.pairwise_append.mpr ⟨hleft.apart, hright.apart, ?_⟩
  intro x hx y hy
  have := hbefore x hx
  have := hbehind y hy
  exact .of_lt (by omega)

theorem Distinct.comm (h : r.Distinct (is ++ js)) : r.Distinct (js ++ is) where
  within := List.forall_mem_append.mpr (List.forall_mem_append.mp h.within).symm
  apart := (List.pairwise_append_comm Issue.Apart.symm).mp h.apart

/-- Behind the parenthesis that a region starts with. -/
theorem Distinct.of_right (o : Opening r) (h : o.right.Distinct is) : r.Distinct is :=
  ⟨within_of_right o h.within, h.apart⟩

/-- The parenthesis itself may be reported besides. -/
theorem Distinct.cons (o : Opening r) (h : o.right.Distinct is) :
    r.Distinct (o.token.unmatchedIssue :: is) where
  within := by
    have hb := o.bounds
    refine List.forall_mem_cons.mpr ⟨?_, (h.of_right o).within⟩
    change r.start ≤ o.token.start ∧ o.token.start ≤ r.stop
    omega
  apart := by
    refine List.pairwise_cons.mpr ⟨?_, h.apart⟩
    intro x hx
    have hb := o.bounds
    have hx : o.token.stop ≤ x.position ∧ x.position ≤ r.stop := h.within x hx
    apply Issue.Apart.of_lt
    change o.token.start < x.position
    omega

theorem composes_distinct : Composes Distinct where
  closed := fun h => ⟨h.within, h.apart⟩
  append := fun c _ => Distinct.append c
  nil := fun _ => ⟨List.forall_mem_nil _, .nil⟩
  nothingBefore := fun r _ _ => distinct_singleton ⟨r.start_le_stop, Nat.le_refl _⟩
  nothingAfter := fun {r} _ _ _ => distinct_singleton ⟨Nat.le_refl _, r.start_le_stop⟩

/-- The issue of a group that is not closed and leaves nothing else open. -/
theorem Opening.ownIssues_of_matched (o : Opening m) (h : closing? 0 o.right.tokens = none)
    (hbody : unmatched [] o.right.tokens = []) : m.ownIssues = [o.token.unmatchedIssue] := by
  obtain ⟨inner, hrun⟩ := Watch.run_unclosed o.opens h
  -- there are no issues but those of parentheses
  have hall : m.ownIssues.filter (Issue.reports .parenthesis) = m.ownIssues := by
    rw [ownIssues, watch, o.tokens_eq_cons, hrun, List.filter_eq_self]
    exact List.forall_mem_map.mpr fun _ _ => rfl
  rw [← hall, filter_ownIssues_parenthesis, o.unmatched_eq h, hbody, List.map_singleton]

/-- The issues inside the parentheses of a group stand in its body: one without tokens is reported
at its end, and then there are no others. -/
theorem distinct_inside (hbody : body.Distinct body.lineIssues) :
    body.Distinct ((if m.isClosed && body.isBlank then [⟨.emptyGroup, body.stop⟩] else [])
      ++ body.lineIssues) := by
  split
  · next hblank =>
    have htokens := isBlank_iff.mp (Bool.and_eq_true_iff.mp hblank).2
    rw [lineIssues_of_tokens_eq_nil htokens, List.append_nil]
    exact distinct_singleton ⟨body.start_le_stop, Nat.le_refl _⟩
  · exact hbody

/-- **The issues of a command**, if its body leaves no parenthesis open. -/
theorem distinct_commandIssues
    (hbody : ∀ body, m.groupBody? = some body →
      unmatched [] body.tokens = [] ∧ body.Distinct body.lineIssues) :
    m.Distinct m.commandIssues := by
  cases hm : m.groupBody? with
  | none =>
    rw [commandIssues_of_none hm]
    exact ⟨m.settled_ownIssues.within, m.apart_ownIssues⟩
  | some body =>
    obtain ⟨hmatched, hdistinct⟩ := hbody body hm
    have hinside := distinct_inside (m := m) hdistinct
    rw [commandIssues_of_some hm, List.append_assoc]
    obtain ⟨o, ⟨c, rfl⟩ | ⟨hopen, rfl⟩⟩ := exists_opening hm
    · -- what is found along the command stands behind the parenthesis that closes the group
      have hown : c.right.Distinct m.ownIssues := by
        refine ⟨?_, m.apart_ownIssues⟩
        rw [c.ownIssues_eq]
        exact (c.right.settled_run false true).within
      exact (Distinct.append c.toSplit ⟨hinside.within, hinside.apart⟩ hown).comm.of_right o
    · -- the parenthesis that is not closed stands in front of all others
      rw [o.ownIssues_of_matched hopen hmatched]
      exact hinside.cons o

/-- **Where no group leaves a parenthesis open in its body** the issues of a line are apart. -/
theorem distinct_lineIssues (h : r.Shut) : r.Distinct r.lineIssues := by
  induction r using command_induction with
  | line r ih =>
    refine composes_distinct.lineIssues fun c hc p hp m hm => ?_
    have hm : m ∈ r.commands := mem_commands.mpr ⟨c, hc, p, hp, hm⟩
    refine distinct_commandIssues fun body hbody => ⟨h m hm body hbody, ?_⟩
    exact ih m hm body hbody (shut_of_matched (h m hm body hbody))

/-- Some issues of a line are the same unless its groups are shut. -/
theorem shut_of_nodup (h : (r.lineIssues.map Issue.key).Nodup) : r.Shut := by
  by_contra hopen
  obtain ⟨t, -, hrepeated⟩ := exists_repeated hopen
  have hkeys := (hrepeated.trans List.filter_sublist).map Issue.key
  exact List.nodup_iff_sublist.mp h _ hkeys

/-- The reports of parentheses at a position. -/
theorem countP_diagnose (r : Region) (n : Nat) :
    ((diagnose r).countP fun i => i.problem.code = "unbalanced_group".toList ∧ i.position = n) =
      (r.lineIssues.filter (Issue.reports .parenthesis)).countP fun i => i.position = n := by
  have hperm : (diagnose r).Perm r.lineIssues := List.mergeSort_perm _ _
  rw [hperm.countP_eq, List.countP_filter]
  refine List.countP_congr fun i _ => ?_
  rw [decide_eq_true_iff, Bool.and_eq_true, decide_eq_true_iff, and_comm]
  exact and_congr_right fun _ => Issue.code_eq_iff (f := .parenthesis)

/-- Where the groups of a line are shut, each parenthesis without a partner is reported once. -/
theorem countP_of_shut {t : Token} (h : r.Shut) (ht : t ∈ unmatched [] r.tokens) :
    ((r.lineIssues.filter (Issue.reports .parenthesis)).countP fun i => i.position = t.start) = 1 := by
  have hstarts : ((unmatched [] r.tokens).map Token.start).Nodup := by
    rw [List.Nodup, List.pairwise_map]
    exact (r.pairwise_start.sublist (unmatched_sublist [] r.tokens)).imp Nat.ne_of_lt
  have hcount := List.count_eq_one_of_mem hstarts (List.mem_map_of_mem ht)
  rw [List.count, List.countP_map] at hcount
  rw [filter_lineIssues_of_shut h, List.countP_map, ← hcount]
  refine List.countP_congr fun u _ => ?_
  rw [Function.comp, Function.comp, decide_eq_true_iff, beq_iff_eq]
  rfl

/-- Otherwise some is reported more than once. -/
theorem shut_of_countP (h : ∀ t ∈ unmatched [] r.tokens,
    ((r.lineIssues.filter (Issue.reports .parenthesis)).countP fun i => i.position = t.start) = 1) :
    r.Shut := by
  by_contra hopen
  obtain ⟨t, ht, hrepeated⟩ := exists_repeated hopen
  have htwice := hrepeated.countP_le (p := fun i => i.position = t.start)
  rw [h t ht] at htwice
  simp [Token.unmatchedIssue] at htwice

/-- **Nothing is reported twice** exactly if no group leaves a parenthesis open in its body: then no
two issues have the same code, message and position, and every parenthesis without a partner is
reported once. -/
theorem nodup_iff_shut (r : Region) :
    (((diagnose r).map Issue.key).Nodup ↔ r.Shut) ∧
      ((∀ t ∈ unmatched [] r.tokens,
          ((diagnose r).countP fun i =>
            i.problem.code = "unbalanced_group".toList ∧ i.position = t.start) = 1) ↔ r.Shut) := by
  have hperm : (diagnose r).Perm r.lineIssues := List.mergeSort_perm _ _
  rw [(hperm.map Issue.key).nodup_iff]
  simp only [countP_diagnose]
  refine ⟨⟨shut_of_nodup, fun h => ?_⟩, shut_of_countP, fun h t ht => countP_of_shut h ht⟩
  exact List.pairwise_map.mpr ((distinct_lineIssues h).apart.imp Issue.Apart.key_ne)

/-- **A parenthesis in a group that is not closed** is reported twice: along the command, and again
along the line that the group takes up. -/
theorem parenthesis_reported_twice :
    ¬ ((diagnose (Region.ofText "((".toList)).map Issue.key).Nodup ∧
      ((diagnose (Region.ofText "((".toList)).countP fun i =>
        i.problem.code = "unbalanced_group".toList ∧ i.position = 1) = 2 := by
  have hfree : ∀ level : Level,
      Undivided level.delimiters 0 (Region.ofText "((".toList).kinds := by
    intro level
    cases level <;> decide +kernel
  have hbehind : ∀ level : Level,
      Undivided level.delimiters 0 (Region.ofText "((".toList).closed.afterFirst.kinds := by
    intro level
    cases level <;> decide +kernel
  -- nothing closes the first parenthesis, nor the second one, behind which there are no tokens
  have hbody : (Region.ofText "((".toList).closed.groupBody? =
      some (Region.ofText "((".toList).closed.afterFirst := by decide +kernel
  have hinner : (Region.ofText "((".toList).closed.afterFirst.closed.groupBody? =
      some (Region.ofText "((".toList).closed.afterFirst.closed.afterFirst := by decide +kernel
  have hempty :
      (Region.ofText "((".toList).closed.afterFirst.closed.afterFirst.lineIssues = [] :=
    lineIssues_of_tokens_eq_nil (by decide +kernel)
  have hreports : (Region.ofText "((".toList).lineIssues.filter (Issue.reports .parenthesis) =
      [⟨.unclosedGroup, 0⟩, ⟨.unclosedGroup, 1⟩, ⟨.unclosedGroup, 1⟩] := by
    rw [filter_lineIssues_parenthesis, commands_of_free hfree, List.flatMap_singleton, hbody,
      Option.elim_some, filter_lineIssues_parenthesis, commands_of_free hbehind,
      List.flatMap_singleton, hinner, Option.elim_some, hempty]
    decide +kernel
  constructor
  · intro hnodup
    have hshut := shut_of_nodup (((List.mergeSort_perm _ _).map Issue.key).nodup_iff.mp hnodup)
    have hcommand : (Region.ofText "((".toList).closed ∈ (Region.ofText "((".toList).commands := by
      rw [commands_of_free hfree]
      exact List.mem_singleton_self _
    exact absurd (hshut _ hcommand _ hbody) (by decide +kernel)
  · rw [countP_diagnose, hreports]
    decide

end Region

end CommandLine
