import CommandLine.Proofs.Gathering

/-!
# Parentheses without a partner

Over a whole line a closing parenthesis matches the innermost one that stands open. Diagnosis never
matches parentheses that way: it cuts the line into commands, counts the parentheses of each, and
goes on with the bodies of groups. Every parenthesis without a partner is found in the command it
stands in. A group that is not closed reports again what its body leaves open.

* `unmatched` — the parentheses of some tokens that match no other one.
* `Region.unmatched_commands` — those of a line are those of its commands.
* `Watch.filter_run_parenthesis` — they are what is reported of the parentheses of a command.
* `Region.Shut` — no group leaves a parenthesis open in its body.
* `Region.filter_lineIssues_of_shut`, `Region.exists_repeated` — what is reported of a line whose
  groups are shut, and of one where some group is not.
* `Region.positions_unmatched` — parentheses are reported exactly where they have no partner.
-/

namespace CommandLine

/-- The parentheses of some tokens that match no other one, where others stand open before them, the
innermost first. -/
def unmatched : List Token → List Token → List Token
  | opened, [] => opened.reverse
  | opened, t :: ts =>
    match t.kind with
    | .lparen => unmatched (t :: opened) ts
    | .rparen =>
      match opened with
      | [] => t :: unmatched [] ts
      | _ :: outer => unmatched outer ts
    | _ => unmatched opened ts

section

variable {opened : List Token} {t : Token} {ts : List Token}

theorem unmatched_lparen (h : t.kind = .lparen) :
    unmatched opened (t :: ts) = unmatched (t :: opened) ts := by
  rw [unmatched.eq_def]
  simp only [h]

theorem unmatched_stray (h : t.kind = .rparen) :
    unmatched [] (t :: ts) = t :: unmatched [] ts := by
  rw [unmatched.eq_def]
  simp only [h]

theorem unmatched_rparen {o : Token} (h : t.kind = .rparen) :
    unmatched (o :: opened) (t :: ts) = unmatched opened ts := by
  rw [unmatched.eq_def]
  simp only [h]

theorem unmatched_other (hopen : t.kind ≠ .lparen) (hclose : t.kind ≠ .rparen) :
    unmatched opened (t :: ts) = unmatched opened ts := by
  rw [unmatched.eq_def]
  split <;> simp_all

/-- A token that is no parenthesis leaves the nesting as it is. -/
theorem depthAfter_other {depth : Nat} {k : Kind} (hopen : k ≠ .lparen) (hclose : k ≠ .rparen) :
    depthAfter depth k = depth := by
  cases k <;> first | rfl | contradiction

/-- Parentheses without a partner keep their order. -/
theorem unmatched_sublist (opened ts : List Token) :
    (unmatched opened ts).Sublist (opened.reverse ++ ts) := by
  fun_induction unmatched opened ts with
  | case1 opened => simp
  | case2 opened t ts hk ih => simpa using ih
  | case3 t ts hk ih => exact ih.cons_cons t
  | case4 t ts hk o outer ih =>
    refine ih.trans ?_
    simp
  | case5 opened t ts hopen hclose ih =>
    refine ih.trans ?_
    simp

/-- Behind tokens that leave nothing open, what stood open before them does not matter. -/
theorem unmatched_append (us : List Token)
    (h : depthAlong opened.length (ts.map Token.kind) = 0) :
    unmatched opened (ts ++ us) = unmatched opened ts ++ unmatched [] us := by
  fun_induction unmatched opened ts with
  | case1 opened =>
    obtain rfl : opened = [] := List.eq_nil_of_length_eq_zero h
    rfl
  | case2 opened t ts hk ih =>
    rw [List.map_cons, depthAlong_cons, hk] at h
    rw [List.cons_append, unmatched_lparen hk]
    exact ih h
  | case3 t ts hk ih =>
    rw [List.map_cons, depthAlong_cons, hk] at h
    rw [List.cons_append, unmatched_stray hk, ih h, List.cons_append]
  | case4 t ts hk o outer ih =>
    rw [List.map_cons, depthAlong_cons, hk] at h
    rw [List.cons_append, unmatched_rparen hk]
    exact ih h
  | case5 opened t ts hopen hclose ih =>
    rw [List.map_cons, depthAlong_cons, depthAfter_other hopen hclose] at h
    rw [List.cons_append, unmatched_other hopen hclose]
    exact ih h

/-- Tokens that close nothing further out leave as many open as the count says, and what is further
out besides. -/
theorem unmatched_of_depth? {d : Nat} (opened outer : List Token)
    (h : depth? opened.length (ts.map Token.kind) = some d) :
    unmatched (opened ++ outer) ts = outer.reverse ++ unmatched opened ts ∧
      (unmatched opened ts).length = d := by
  fun_induction unmatched opened ts with
  | case1 opened =>
    have hlength := Option.some.inj h
    rw [unmatched, List.reverse_append, List.length_reverse]
    exact ⟨rfl, hlength⟩
  | case2 opened t ts hk ih =>
    rw [List.map_cons, depth?, if_neg (by simp [hk]), hk] at h
    rw [unmatched_lparen hk]
    exact ih h
  | case3 t ts hk ih =>
    rw [List.map_cons, depth?, if_pos ⟨hk, rfl⟩] at h
    cases h
  | case4 t ts hk o opened ih =>
    rw [List.map_cons, depth?, if_neg (by simp), hk] at h
    rw [List.cons_append, unmatched_rparen hk]
    exact ih h
  | case5 opened t ts hopen hclose ih =>
    rw [List.map_cons, depth?, if_neg (fun hk => hclose hk.1), depthAfter_other hopen hclose] at h
    rw [unmatched_other hopen hclose]
    exact ih h

/-- Tokens whose parentheses match leave none without a partner. -/
theorem unmatched_of_balanced (h : depth? 0 (ts.map Token.kind) = some 0) : unmatched [] ts = [] :=
  List.eq_nil_of_length_eq_zero (unmatched_of_depth? [] [] h).2

/-- Tokens that leave no parenthesis without a partner close all that stand open before them, and
nothing further out. -/
theorem depth?_of_unmatched (h : unmatched opened ts = []) :
    depth? opened.length (ts.map Token.kind) = some 0 := by
  fun_induction unmatched opened ts with
  | case1 opened =>
    obtain rfl := List.reverse_eq_nil_iff.mp h
    rfl
  | case2 opened t ts hk ih =>
    rw [List.map_cons, depth?, if_neg (by simp [hk]), hk]
    exact ih h
  | case3 t ts hk ih => cases h
  | case4 t ts hk o outer ih =>
    rw [List.map_cons, depth?, if_neg (by simp), hk]
    exact ih h
  | case5 opened t ts hopen hclose ih =>
    rw [List.map_cons, depth?, if_neg (fun hk => hclose hk.1), depthAfter_other hopen hclose]
    exact ih h

end

/-! ## Commands of a line -/

namespace Region

variable {r m body : Region}

/-- The parentheses of a region without a partner are those of its segments. -/
theorem unmatched_divide (r : Region) (level : Level) :
    unmatched [] r.tokens =
      (r.divide level.delimiters).flatMap fun s => unmatched [] s.tokens := by
  induction r using cut_induction level.delimiters with
  | last r hfree =>
    rw [divide_of_undivided hfree, List.flatMap_singleton]
    rfl
  | cut r c ih =>
    obtain ⟨hopen, hclose⟩ := c.kind_ne_paren
    have hdepth : depthAlong ([] : List Token).length (c.left.tokens.map Token.kind) = 0 := by
      rw [c.tokens_left]
      exact c.outside
    rw [divide_of_cut c, List.flatMap_cons, ← ih, c.tokens_eq_append, unmatched_append _ hdepth,
      unmatched_other hopen hclose]

/-- **The parentheses of a line without a partner** are those of its commands. -/
theorem unmatched_commands (r : Region) :
    unmatched [] r.tokens = r.commands.flatMap fun m => unmatched [] m.tokens := by
  rw [r.unmatched_divide .conditional, commands, List.flatMap_assoc]
  apply List.flatMap_congr
  intro c _
  rw [c.unmatched_divide .pipeline, List.flatMap_assoc]
  apply List.flatMap_congr
  intro p _
  exact p.unmatched_divide .command

/-- In a closed group every parenthesis has its partner. -/
theorem Closing.depth?_group {o : Opening m} (c : Closing o) :
    depth? 0 ((o.token :: (c.left.tokens ++ [c.token])).map Token.kind) = some 0 := by
  rw [List.map_cons, depth?, if_neg (by simp [o.opens]), o.opens, List.map_append, depth?_append]
  change (depth? 1 c.left.kinds).bind _ = _
  rw [depth?_succ c.depth?_left, Option.bind_some, List.map_singleton, c.closes]
  rfl

/-- The parentheses without a partner of a group that is closed stand behind it. -/
theorem Closing.unmatched_eq {o : Opening m} (c : Closing o) :
    unmatched [] m.tokens = unmatched [] c.right.tokens := by
  have htokens : m.tokens = (o.token :: (c.left.tokens ++ [c.token])) ++ c.right.tokens := by
    rw [c.tokens_eq_group]
    simp
  have hdepth : depthAlong ([] : List Token).length
      ((o.token :: (c.left.tokens ++ [c.token])).map Token.kind) = 0 :=
    depthAlong_of_depth? c.depth?_group
  rw [htokens, unmatched_append _ hdepth, unmatched_of_balanced c.depth?_group, List.nil_append]

/-- A group that is not closed has its own parenthesis, and those of its body. -/
theorem Opening.unmatched_eq (o : Opening m) (h : closing? 0 o.right.tokens = none) :
    unmatched [] m.tokens = o.token :: unmatched [] o.right.tokens := by
  obtain ⟨d, hd⟩ := closing?_eq_none_iff.mp h
  rw [o.tokens_eq_cons, unmatched_lparen o.opens]
  exact (unmatched_of_depth? [] [o.token] hd).1

/-- Without a partner in the body of a group are only parentheses that have none in the group, which
is not closed then. -/
theorem unmatched_groupBody? (h : m.groupBody? = some body) :
    unmatched [] body.tokens = [] ∨
      ∃ t, unmatched [] m.tokens = t :: unmatched [] body.tokens := by
  obtain ⟨o, ⟨c, rfl⟩ | ⟨hopen, rfl⟩⟩ := exists_opening h
  · exact .inl (unmatched_of_balanced c.depth?_left)
  · exact .inr ⟨o.token, o.unmatched_eq hopen⟩

end Region

/-! ## Reports of a command -/

/-- The issue of a parenthesis without a partner. -/
def Token.unmatchedIssue (t : Token) : Issue :=
  ⟨if t.kind = .rparen then .strayClose else .unclosedGroup, t.start⟩

namespace Watch

variable {w : Watch} {t : Token} {ts : List Token}

/-- A parenthesis is reported where it closes nothing. -/
theorem filter_tokenIssues_parenthesis (w : Watch) (t : Token) :
    (w.tokenIssues t).filter (Issue.reports .parenthesis) =
      if t.kind = .rparen ∧ w.opened = [] then [⟨.strayClose, t.start⟩] else [] := by
  have hend : (openEnd t).filter (Issue.reports .parenthesis) = [] := by
    apply Issue.filter_reports_eq_nil
    intro x hx hfamily
    have hmem := family_openEnd x hx
    rw [hfamily] at hmem
    simp at hmem
  rw [tokenIssues]
  cases t.kind with
  | rparen => cases w.opened <;> simp [Issue.reports, Problem.family]
  | word =>
    dsimp only
    split
    · rw [List.filter_append, hend, List.nil_append]
      split <;> simp [Issue.reports, Problem.family]
    · simp
  | lparen => dsimp only; split <;> simp [Issue.reports, Problem.family]
  | _ => simp

theorem filter_cons_parenthesis (w : Watch) (t : Token) (ts : List Token) :
    ((w.run (t :: ts)).1 ++ (w.run (t :: ts)).2.endIssues).filter (Issue.reports .parenthesis) =
      (if t.kind = .rparen ∧ w.opened = [] then [⟨.strayClose, t.start⟩] else []) ++
        (((w.step t).run ts).1 ++ ((w.step t).run ts).2.endIssues).filter
          (Issue.reports .parenthesis) := by
  rw [run_cons, List.append_assoc, List.filter_append, filter_issuesAt (by decide),
    filter_tokenIssues_parenthesis]

/-- **The parentheses that are reported** along a command are those without a partner, and in their
order. -/
theorem filter_run_parenthesis {opened : List Token} (hw : w.opened = opened.map Token.start)
    (hopens : ∀ o ∈ opened, o.kind = .lparen) :
    ((w.run ts).1 ++ (w.run ts).2.endIssues).filter (Issue.reports .parenthesis) =
      (unmatched opened ts).map Token.unmatchedIssue := by
  fun_induction unmatched opened ts generalizing w with
  | case1 opened =>
    have hissue : ∀ o ∈ opened.reverse, (⟨.unclosedGroup, o.start⟩ : Issue) = o.unmatchedIssue := by
      intro o ho
      rw [Token.unmatchedIssue, hopens o (List.mem_reverse.mp ho)]
      rfl
    rw [run, List.nil_append, filter_endIssues (by decide), hw, ← List.map_reverse, List.map_map,
      ← List.map_congr_left hissue]
    exact List.filter_eq_self.mpr (List.forall_mem_map.mpr fun _ _ => rfl)
  | case2 opened t ts hk ih =>
    have hopened : (w.step t).opened = (t :: opened).map Token.start := by
      simp [step, openedAfter, hk, hw]
    rw [filter_cons_parenthesis, ih hopened (List.forall_mem_cons.mpr ⟨hk, hopens⟩)]
    simp [hk]
  | case3 t ts hk ih =>
    have hopened : (w.step t).opened = ([] : List Token).map Token.start := by
      simp [step, openedAfter, hk, hw]
    rw [filter_cons_parenthesis, ih hopened hopens, if_pos ⟨hk, hw⟩, List.map_cons,
      Token.unmatchedIssue, if_pos hk]
    rfl
  | case4 t ts hk o outer ih =>
    have hopened : (w.step t).opened = outer.map Token.start := by
      simp [step, openedAfter, hk, hw]
    rw [filter_cons_parenthesis, ih hopened (List.forall_mem_cons.mp hopens).2]
    simp [hw]
  | case5 opened t ts hopen hclose ih =>
    have hopened : (w.step t).opened = opened.map Token.start := by
      change w.openedAfter t = _
      rw [openedAfter, ← hw]
      cases hk : t.kind <;> first | rfl | contradiction
    rw [filter_cons_parenthesis, ih hopened hopens, if_neg fun h => hclose h.1, List.nil_append]

end Watch

/-! ## Reports of a line -/

namespace Region

variable {r m body : Region}

/-- Along its tokens a command reports those without a partner. -/
theorem filter_ownIssues_parenthesis (m : Region) :
    m.ownIssues.filter (Issue.reports .parenthesis) =
      (unmatched [] m.tokens).map Token.unmatchedIssue :=
  Watch.filter_run_parenthesis (w := Watch.start) rfl (List.forall_mem_nil _)

/-- Behind these it reports those of its body. -/
theorem filter_commandIssues_parenthesis (m : Region) :
    m.commandIssues.filter (Issue.reports .parenthesis) =
      (unmatched [] m.tokens).map Token.unmatchedIssue ++
        m.groupBody?.elim [] fun body => body.lineIssues.filter (Issue.reports .parenthesis) := by
  have hown := m.filter_ownIssues_parenthesis
  cases hm : m.groupBody? with
  | none =>
    rw [commandIssues_of_none hm, hown, Option.elim_none, List.append_nil]
  | some body =>
    have hempty : (if m.isClosed && body.isBlank then [(⟨.emptyGroup, body.stop⟩ : Issue)]
        else []).filter (Issue.reports .parenthesis) = [] := by
      split <;> rfl
    rw [commandIssues_of_some hm, List.filter_append, List.filter_append, hown, hempty,
      List.append_nil, Option.elim_some]

/-- **The parentheses that are reported** of a line are those of its commands without a partner, and
those that the bodies of its groups report. -/
theorem filter_lineIssues_parenthesis (r : Region) :
    r.lineIssues.filter (Issue.reports .parenthesis) =
      r.commands.flatMap fun m => (unmatched [] m.tokens).map Token.unmatchedIssue ++
        m.groupBody?.elim [] fun body => body.lineIssues.filter (Issue.reports .parenthesis) := by
  rw [filter_lineIssues (Issue.passes_reports (by decide))]
  exact List.flatMap_congr fun m _ => m.filter_commandIssues_parenthesis

/-- Every parenthesis without a partner is reported. -/
theorem mem_filter_of_mem_unmatched {t : Token} (h : t ∈ unmatched [] r.tokens) :
    t.unmatchedIssue ∈ r.lineIssues.filter (Issue.reports .parenthesis) := by
  rw [unmatched_commands] at h
  obtain ⟨m, hm, ht⟩ := List.mem_flatMap.mp h
  rw [filter_lineIssues_parenthesis, List.mem_flatMap]
  exact ⟨m, hm, List.mem_append_left _ (List.mem_map_of_mem ht)⟩

/-- No group of a line leaves a parenthesis open in its body. -/
def Shut (r : Region) : Prop :=
  ∀ m ∈ r.commands, ∀ body, m.groupBody? = some body → unmatched [] body.tokens = []

/-- Where every parenthesis has a partner, none is left open in a body. -/
theorem shut_of_matched (h : unmatched [] r.tokens = []) : r.Shut := by
  intro m hm body hbody
  rw [unmatched_commands, List.flatMap_eq_nil_iff] at h
  rcases unmatched_groupBody? hbody with hmatched | ⟨t, ht⟩
  · exact hmatched
  · rw [h m hm] at ht
    cases ht

/-- Where every parenthesis has a partner, none is reported. -/
theorem filter_lineIssues_of_matched (h : unmatched [] r.tokens = []) :
    r.lineIssues.filter (Issue.reports .parenthesis) = [] := by
  induction r using command_induction with
  | line r ih =>
    have hshut := shut_of_matched h
    rw [unmatched_commands, List.flatMap_eq_nil_iff] at h
    rw [filter_lineIssues_parenthesis, List.flatMap_eq_nil_iff]
    intro m hm
    rw [h m hm, List.map_nil, List.nil_append]
    cases hbody : m.groupBody? with
    | none => rfl
    | some body => exact ih m hm body hbody (hshut m hm body hbody)

/-- **Where no group leaves a parenthesis open in its body** each one without a partner is reported
once, in source order. -/
theorem filter_lineIssues_of_shut (h : r.Shut) :
    r.lineIssues.filter (Issue.reports .parenthesis) =
      (unmatched [] r.tokens).map Token.unmatchedIssue := by
  rw [filter_lineIssues_parenthesis, unmatched_commands, List.map_flatMap]
  apply List.flatMap_congr
  intro m hm
  cases hbody : m.groupBody? with
  | none => rw [Option.elim_none, List.append_nil]
  | some body =>
    rw [Option.elim_some, filter_lineIssues_of_matched (h m hm body hbody), List.append_nil]

/-- **A parenthesis that a group leaves open in its body** is reported there and with the group. -/
theorem exists_repeated (h : ¬ r.Shut) :
    ∃ t ∈ unmatched [] r.tokens,
      [t.unmatchedIssue, t.unmatchedIssue].Sublist
        (r.lineIssues.filter (Issue.reports .parenthesis)) := by
  simp only [Shut, not_forall] at h
  obtain ⟨m, hm, body, hbody, hopen⟩ := h
  rcases unmatched_groupBody? hbody with hmatched | ⟨o, ho⟩
  · exact absurd hmatched hopen
  · obtain ⟨t, ht⟩ := List.exists_mem_of_ne_nil _ hopen
    have hcommand : t ∈ unmatched [] m.tokens := by
      rw [ho]
      exact List.mem_cons_of_mem _ ht
    have htwice : [t.unmatchedIssue, t.unmatchedIssue].Sublist
        (m.commandIssues.filter (Issue.reports .parenthesis)) := by
      have hown : [t.unmatchedIssue].Sublist
          ((unmatched [] m.tokens).map Token.unmatchedIssue) :=
        List.singleton_sublist.mpr (List.mem_map_of_mem hcommand)
      have hinside : [t.unmatchedIssue].Sublist
          (body.lineIssues.filter (Issue.reports .parenthesis)) :=
        List.singleton_sublist.mpr (mem_filter_of_mem_unmatched ht)
      rw [filter_commandIssues_parenthesis, hbody, Option.elim_some]
      exact hown.append hinside
    refine ⟨t, ?_, ?_⟩
    · rw [unmatched_commands]
      exact List.mem_flatMap.mpr ⟨m, hm, hcommand⟩
    · rw [filter_lineIssues (Issue.passes_reports (by decide)), List.flatMap_def]
      exact htwice.trans (List.sublist_flatten_of_mem (List.mem_map_of_mem hm))

/-- Of the parentheses nothing is reported but that one has no partner in the line. -/
theorem exists_unmatched_of_mem_filter {i : Issue}
    (h : i ∈ r.lineIssues.filter (Issue.reports .parenthesis)) :
    ∃ t ∈ unmatched [] r.tokens, t.unmatchedIssue = i := by
  induction r using command_induction with
  | line r ih =>
    rw [filter_lineIssues_parenthesis] at h
    obtain ⟨m, hm, hi⟩ := List.mem_flatMap.mp h
    have hcommand : ∀ t ∈ unmatched [] m.tokens, t ∈ unmatched [] r.tokens := by
      intro t ht
      rw [unmatched_commands]
      exact List.mem_flatMap.mpr ⟨m, hm, ht⟩
    rcases List.mem_append.mp hi with hown | hinside
    · obtain ⟨t, ht, rfl⟩ := List.mem_map.mp hown
      exact ⟨t, hcommand t ht, rfl⟩
    · cases hbody : m.groupBody? with
      | none => simp [hbody] at hinside
      | some body =>
        rw [hbody, Option.elim_some] at hinside
        obtain ⟨t, ht, rfl⟩ := ih m hm body hbody hinside
        -- what the body leaves without a partner, the command does too
        rcases unmatched_groupBody? hbody with hmatched | ⟨o, ho⟩
        · rw [hmatched] at ht
          cases ht
        · refine ⟨t, hcommand t ?_, rfl⟩
          rw [ho]
          exact List.mem_cons_of_mem o ht

/-- **Parentheses are reported exactly where they have no partner.** The positions at which some are
reported are those of the parentheses that match no other one of the text. -/
theorem positions_unmatched (t : Text) :
    {n | ∃ i ∈ diagnose (ofText t),
        i.problem.code = "unbalanced_group".toList ∧ i.position = n} =
      {n | ∃ u ∈ unmatched [] (tokenize t), u.start = n} := by
  have hmem : ∀ i : Issue, i ∈ diagnose (ofText t) ∧ i.problem.code = "unbalanced_group".toList ↔
      i ∈ (ofText t).lineIssues.filter (Issue.reports .parenthesis) := by
    intro i
    rw [List.mem_filter, diagnose, List.mem_mergeSort]
    exact and_congr_right fun _ => Issue.code_eq_iff (f := .parenthesis)
  ext n
  constructor
  · rintro ⟨i, hi, hcode, rfl⟩
    obtain ⟨u, hu, rfl⟩ := exists_unmatched_of_mem_filter ((hmem i).mp ⟨hi, hcode⟩)
    rw [tokens_ofText] at hu
    exact ⟨u, hu, rfl⟩
  · rintro ⟨u, hu, rfl⟩
    rw [← tokens_ofText] at hu
    obtain ⟨hi, hcode⟩ := (hmem u.unmatchedIssue).mpr (mem_filter_of_mem_unmatched hu)
    exact ⟨u.unmatchedIssue, hi, hcode, rfl⟩

end Region

end CommandLine
