import CommandLine.Proofs.Likeness

/-!
# Where issues stand

Every issue stands at a token, and all but one kind of them in it: that nothing comes after an
operator is reported behind the operator. Without blanks the next token starts there, and an issue
with that token would stand at the same position. It never does. What is missing is missing in front
of an operator of a level further out or of the parenthesis that closes a group, with which nothing
else is wrong, or at the end.

* `Problem.isBehind` — the one kind of problems that is reported behind a token.
* `Watch.isEmptySegment_run` — the issues of a command, which are of other kinds.
* `Region.Composes` — a property of issues that a line has if its commands have it.
* `Watch.run_outside_like` — what is found along some tokens stands at these tokens.
* `Region.Settled` — issues of a region, with those behind an operator apart from all others.
* `Region.settled_lineIssues` — the issues of a line.
-/

namespace CommandLine

/-- Whether a problem with a token is reported behind it. -/
def Problem.isBehind : Problem → Bool
  | nothingAfter _ _ => true
  | _ => false

/-- Whether a problem is that a segment is empty. -/
def Problem.isEmptySegment : Problem → Bool
  | nothingBefore _ _ | nothingAfter _ _ => true
  | _ => false

namespace Problem

variable {p : Problem} {t : Token}

theorem anchor_of_isBehind (h : p.isBehind = true) (t : Token) : p.anchor t = t.stop := by
  cases p with
  | nothingAfter => rfl
  | _ => cases h

/-- What is reported behind a token is that a segment is empty. -/
theorem isBehind_eq_false (h : p.isEmptySegment = false) : p.isBehind = false := by
  cases p with
  | nothingAfter => cases h
  | _ => rfl

/-- Every other problem is reported at a character of the token. -/
theorem anchor_lt_stop (h : p.isBehind = false) (ht : t.start < t.stop) : p.anchor t < t.stop := by
  cases p with
  | nothingAfter => cases h
  | trailingEscape => exact Nat.sub_lt (by omega) Nat.one_pos
  | _ => exact ht

theorem anchor_bounds (p : Problem) (ht : t.start < t.stop) :
    t.start ≤ p.anchor t ∧ p.anchor t ≤ t.stop := by
  cases p with
  | nothingAfter => exact ⟨Nat.le_of_lt ht, Nat.le_refl _⟩
  | trailingEscape => exact ⟨Nat.le_sub_one_of_lt ht, Nat.sub_le _ _⟩
  | _ => exact ⟨Nat.le_refl _, Nat.le_of_lt ht⟩

/-- In tokens of the same length a problem is reported at the same distance from the start. -/
theorem anchor_sub_start (p : Problem) {u : Token} (h : t.stop - t.start = u.stop - u.start) :
    p.anchor t - t.start = p.anchor u - u.start := by
  cases p with
  | nothingAfter => exact h
  | trailingEscape =>
    change t.stop - 1 - t.start = u.stop - 1 - u.start
    omega
  | _ => exact (Nat.sub_self _).trans (Nat.sub_self _).symm

end Problem

/-! ## Composing -/

namespace Region

variable {r : Region} {is js : List Issue}

/-- A property of the issues of a region that holds of the whole where it holds of the parts, and
where an empty segment is reported. -/
structure Composes (P : Region → List Issue → Prop) : Prop where
  /-- the limit of a region does not matter -/
  closed : ∀ {r : Region} {is : List Issue}, P r.closed is → P r is
  /-- around a token that opens no parenthesis -/
  append : ∀ {r : Region} {is js : List Issue} (c : Split r), c.token.kind ≠ .lparen →
    P c.left is → P c.right js → P r (is ++ js)
  /-- nothing is reported -/
  nil : ∀ r : Region, P r []
  /-- an empty segment is reported by the operator after it -/
  nothingBefore : ∀ (r : Region) (level : Level) (k : Kind), P r [⟨.nothingBefore level k, r.stop⟩]
  /-- an empty segment is reported by the operator before it -/
  nothingAfter : ∀ {r : Region} (level : Level) (k : Kind), r.tokens = [] →
    P r [⟨.nothingAfter level k, r.start⟩]

namespace Composes

variable {P : Region → List Issue → Prop} (hP : Composes P)

include hP

/-- **The segments of a level** have the property if what is inside of each has it. -/
theorem segmentIssues {level : Level} {inside : Region → List Issue} {previous : Option Kind}
    (hparts : ∀ m ∈ r.divide level.delimiters, P m (inside m)) :
    P r (CommandLine.segmentIssues level previous
      ((r.divide level.delimiters).map fun m => (m, inside m))) := by
  induction r using cut_induction level.delimiters generalizing previous with
  | last r hfree =>
    rw [divide_of_undivided hfree, List.forall_mem_singleton] at hparts
    rw [divide_of_undivided hfree, List.map_singleton, CommandLine.segmentIssues]
    split
    · next hblank => exact hP.closed (hP.nothingAfter level _ (isBlank_iff.mp hblank))
    · exact hP.closed hparts
  | cut r c ih =>
    rw [divide_of_cut c, List.forall_mem_cons] at hparts
    rw [divide_of_cut c, List.map_cons, segmentIssues_cons (by simp [divide_ne_nil])]
    refine hP.append c.toSplit c.kind_ne_paren.1 ?_ (ih hparts.2)
    split
    · exact hP.nothingBefore c.left level _
    · exact hparts.1

/-- The conditionals of a line, if what is inside of each has the property. -/
theorem lineIssues_of_parts
    (hparts : ∀ c ∈ r.divide Level.conditional.delimiters, P c c.conditionalIssues) :
    P r r.lineIssues := by
  have hplace : ∀ c : Region, P c c.conditionalIssues →
      P c (conditionalPlaceIssues c c.conditionalIssues) := by
    intro c hc
    rw [conditionalPlaceIssues]
    split
    · split
      · exact hP.nothingBefore c .conditional _
      · exact hP.nil c
    · exact hc
  rw [lineIssues_eq]
  induction r using cut_induction Level.conditional.delimiters with
  | last r hfree =>
    rw [divide_of_undivided hfree, List.forall_mem_singleton] at hparts
    rw [divide_of_undivided hfree, List.flatMap_singleton]
    exact hP.closed (hplace _ hparts)
  | cut r c ih =>
    rw [divide_of_cut c, List.forall_mem_cons] at hparts
    rw [divide_of_cut c, List.flatMap_cons]
    exact hP.append c.toSplit c.kind_ne_paren.1 (hplace _ hparts.1) (ih hparts.2)

/-- **A line has the property if its commands have it.** -/
theorem lineIssues
    (hcommand : ∀ c ∈ r.divide Level.conditional.delimiters,
      ∀ p ∈ c.divide Level.pipeline.delimiters, ∀ m ∈ p.divide Level.command.delimiters,
        P m m.commandIssues) :
    P r r.lineIssues := by
  refine hP.lineIssues_of_parts fun c hc => ?_
  rw [conditionalIssues_eq]
  refine hP.segmentIssues fun p hp => ?_
  rw [pipelineIssues_eq]
  refine hP.segmentIssues fun m hm => ?_
  exact hcommand c hc p hp m hm

end Composes

end Region

/-! ## One command -/

namespace Watch

variable {w : Watch} {t : Token} {ts : List Token}

/-- What may be reported under a condition. -/
theorem forall_mem_ite {p : Issue → Prop} {i : Issue} (c : Prop) [Decidable c] (h : p i) :
    ∀ x ∈ (if c then [i] else []), p x := by
  split
  · exact List.forall_mem_singleton.mpr h
  · exact List.forall_mem_nil _

theorem isEmptySegment_openEnd : ∀ x ∈ openEnd t, x.problem.isEmptySegment = false := by
  rw [openEnd]
  cases t.unclosed? with
  | none => exact List.forall_mem_nil _
  | some o => cases o <;> exact List.forall_mem_singleton.mpr rfl

theorem isEmptySegment_tokenIssues :
    ∀ x ∈ w.tokenIssues t, x.problem.isEmptySegment = false := by
  rw [tokenIssues]
  cases t.kind with
  | lparen => exact forall_mem_ite _ rfl
  | rparen => exact forall_mem_ite _ rfl
  | word =>
    dsimp only
    split
    · exact List.forall_mem_append.mpr ⟨isEmptySegment_openEnd, forall_mem_ite _ rfl⟩
    · exact List.forall_mem_nil _
  | _ => exact List.forall_mem_nil _

theorem isEmptySegment_issuesAt : ∀ x ∈ w.issuesAt t, x.problem.isEmptySegment = false := by
  rw [issuesAt]
  refine List.forall_mem_append.mpr ⟨?_, isEmptySegment_tokenIssues⟩
  cases w.redirect with
  | none => exact List.forall_mem_nil _
  | some r =>
    dsimp only
    split
    · exact List.forall_mem_nil _
    · exact List.forall_mem_singleton.mpr rfl

/-- Along the tokens of a command no empty segment is reported. -/
theorem isEmptySegment_run : ∀ x ∈ (w.run ts).1 ++ (w.run ts).2.endIssues,
    x.problem.isEmptySegment = false := by
  induction ts generalizing w with
  | nil =>
    rw [run, List.nil_append, endIssues]
    refine List.forall_mem_append.mpr ⟨?_, List.forall_mem_map.mpr fun _ _ => rfl⟩
    cases w.redirect with
    | none => exact List.forall_mem_nil _
    | some r => exact List.forall_mem_singleton.mpr rfl
  | cons t ts ih =>
    rw [run_cons, List.append_assoc]
    exact List.forall_mem_append.mpr ⟨isEmptySegment_issuesAt, ih⟩

/-- So no issue of a command is one that is reported behind a token. -/
theorem isBehind_run : ∀ x ∈ (w.run ts).1 ++ (w.run ts).2.endIssues,
    x.problem.isBehind = false :=
  fun x hx => Problem.isBehind_eq_false (isEmptySegment_run x hx)

/-- What is found along some tokens, and what is known behind them, is found at these tokens: they
are read like themselves. -/
theorem run_outside_like (ts : List Token) (hasWords afterGroup : Bool) :
    List.Forall₂ (Issue.Like fun t u => t ∈ ts ∧ t = u)
        ((outside hasWords afterGroup).run ts).1 ((outside hasWords afterGroup).run ts).1 ∧
      Like (fun t u => t ∈ ts ∧ t = u)
        ((outside hasWords afterGroup).run ts).2 ((outside hasWords afterGroup).run ts).2 := by
  refine run_like (fun h => congrArg Token.symbol h.2)
    (List.forall₂_same.mpr fun t ht => ⟨ht, rfl⟩) ?_
  exact ⟨.nil, .none, rfl, rfl⟩

/-- The issues of a command stand at its tokens. -/
theorem exists_anchor_of_mem_run {hasWords afterGroup : Bool} {x : Issue}
    (h : x ∈ ((outside hasWords afterGroup).run ts).1
      ++ ((outside hasWords afterGroup).run ts).2.endIssues) :
    ∃ t ∈ ts, x.position = x.problem.anchor t := by
  obtain ⟨hfound, hlast⟩ := run_outside_like ts hasWords afterGroup
  have hend := endIssues_like (fun h => congrArg Token.symbol h.2) hlast
  have hissues := List.rel_append hfound hend
  obtain ⟨-, t, u, ⟨ht, -⟩, hx, -⟩ := List.forall₂_same.mp hissues x h
  exact ⟨t, ht, hx⟩

/-- The parentheses that stand open are tokens of the command. -/
theorem exists_lparen_of_mem_opened {p : Nat} (h : p ∈ (start.run ts).2.opened) :
    ∃ t ∈ ts, t.kind = .lparen ∧ p = t.start := by
  obtain ⟨-, hlast⟩ := run_outside_like ts false false
  obtain ⟨t, u, ⟨ht, -⟩, hk, hp, -⟩ := List.forall₂_same.mp hlast.opened p h
  exact ⟨t, ht, hk, hp⟩

end Watch

namespace Region

variable {r : Region} {is js : List Issue}

/-- Some issues stand in a region, and at the position of one that is reported behind a token there
are only such, and no opening parenthesis. -/
structure Settled (r : Region) (is : List Issue) : Prop where
  /-- they stand in the region -/
  within : ∀ x ∈ is, r.start ≤ x.position ∧ x.position ≤ r.stop
  /-- those behind a token stand apart from all others -/
  apart : ∀ x ∈ is, ∀ y ∈ is, y.problem.isBehind = true → x.position = y.position →
    x.problem.isBehind = true
  /-- where one is reported behind a token no parenthesis is opened -/
  unopened : ∀ y ∈ is, y.problem.isBehind = true → ∀ t ∈ r.tokens, t.kind = .lparen →
    y.position ≠ t.start

/-- Issues on both sides of a token stand in the region. -/
theorem within_append (c : Split r)
    (hleft : ∀ x ∈ is, r.start ≤ x.position ∧ x.position ≤ c.token.start)
    (hright : ∀ x ∈ js, c.token.stop ≤ x.position ∧ x.position ≤ r.stop) :
    ∀ x ∈ is ++ js, r.start ≤ x.position ∧ x.position ≤ r.stop := by
  have hb := c.bounds
  intro x hx
  rcases List.mem_append.mp hx with hx | hx
  · have := hleft x hx
    omega
  · have := hright x hx
    omega

/-- So do those behind the parenthesis that it starts with. -/
theorem within_of_right (o : Opening r)
    (h : ∀ x ∈ is, o.token.stop ≤ x.position ∧ x.position ≤ r.stop) :
    ∀ x ∈ is, r.start ≤ x.position ∧ x.position ≤ r.stop := by
  have hb := o.bounds
  intro x hx
  have := h x hx
  omega

namespace Settled

/-- Issues none of which is reported behind a token. -/
theorem of_forall (hwithin : ∀ x ∈ is, r.start ≤ x.position ∧ x.position ≤ r.stop)
    (h : ∀ x ∈ is, x.problem.isBehind = false) : r.Settled is where
  within := hwithin
  apart := by
    intro x _ y hy hbehind
    rw [h y hy] at hbehind
    cases hbehind
  unopened := by
    intro y hy hbehind
    rw [h y hy] at hbehind
    cases hbehind

/-- The limit of a region does not matter. -/
theorem of_closed (h : r.closed.Settled is) : r.Settled is :=
  ⟨h.within, h.apart, h.unopened⟩

theorem mono (h : r.Settled js) (hsub : ∀ x ∈ is, x ∈ js) : r.Settled is where
  within := fun x hx => h.within x (hsub x hx)
  apart := fun x hx y hy => h.apart x (hsub x hx) y (hsub y hy)
  unopened := fun y hy => h.unopened y (hsub y hy)

/-- **Around a token** that opens no parenthesis: the issues before it and after it are apart. -/
theorem append (c : Split r) (hk : c.token.kind ≠ .lparen) (hleft : c.left.Settled is)
    (hright : c.right.Settled js) : r.Settled (is ++ js) := by
  have hb := c.bounds
  have hbefore : ∀ x ∈ is, r.start ≤ x.position ∧ x.position ≤ c.token.start := hleft.within
  have hbehind : ∀ y ∈ js, c.token.stop ≤ y.position ∧ y.position ≤ r.stop := hright.within
  refine ⟨within_append c hbefore hbehind, ?_, ?_⟩
  · intro x hx y hy hy' hpos
    rcases List.mem_append.mp hx with hx | hx <;> rcases List.mem_append.mp hy with hy | hy
    · exact hleft.apart x hx y hy hy' hpos
    · have := hbefore x hx
      have := hbehind y hy
      omega
    · have := hbefore y hy
      have := hbehind x hx
      omega
    · exact hright.apart x hx y hy hy' hpos
  · intro y hy hy' t ht htk
    rw [c.tokens_eq_append, List.mem_append, List.mem_cons] at ht
    rcases ht with ht | rfl | ht
    · rcases List.mem_append.mp hy with hy | hy
      · exact hleft.unopened y hy hy' t ht htk
      · have := hbehind y hy
        have hstop : t.stop ≤ c.token.start := (tokens_bounds ht).2.2
        have := (tokens_bounds ht).2.1
        omega
    · exact absurd htk hk
    · rcases List.mem_append.mp hy with hy | hy
      · have := hbefore y hy
        have hstart : c.token.stop ≤ t.start := (tokens_bounds ht).1
        omega
      · exact hright.unopened y hy hy' t ht htk

/-- Behind the parenthesis that a region starts with. -/
theorem of_right (o : Opening r) (h : o.right.Settled is) : r.Settled is where
  within := within_of_right o h.within
  apart := h.apart
  unopened := by
    intro y hy hy' t ht htk
    rw [o.tokens_eq_cons, List.mem_cons] at ht
    rcases ht with rfl | ht
    · have hb := o.bounds
      have hy : o.token.stop ≤ y.position ∧ y.position ≤ r.stop := h.within y hy
      omega
    · exact h.unopened y hy hy' t ht htk

/-- Issues at opening parentheses may be added. -/
theorem add (h : r.Settled is) (hjs : ∀ x ∈ js, x.problem.isBehind = false)
    (hopen : ∀ x ∈ js, ∃ t ∈ r.tokens, t.kind = .lparen ∧ x.position = t.start) :
    r.Settled (js ++ is) := by
  refine ⟨?_, ?_, ?_⟩
  · intro x hx
    rcases List.mem_append.mp hx with hx | hx
    · obtain ⟨t, ht, -, hpos⟩ := hopen x hx
      have := tokens_bounds ht
      omega
    · exact h.within x hx
  · intro x hx y hy hy' hpos
    rcases List.mem_append.mp hy with hy | hy
    · rw [hjs y hy] at hy'
      cases hy'
    · rcases List.mem_append.mp hx with hx | hx
      · obtain ⟨t, ht, hk, hstart⟩ := hopen x hx
        exact absurd (hpos.symm.trans hstart) (h.unopened y hy hy' t ht hk)
      · exact h.apart x hx y hy hy' hpos
  · intro y hy hy'
    rcases List.mem_append.mp hy with hy | hy
    · rw [hjs y hy] at hy'
      cases hy'
    · exact h.unopened y hy hy'

end Settled

/-- Issues along the tokens of a region outside parentheses. -/
theorem settled_run (r : Region) (hasWords afterGroup : Bool) :
    r.Settled (((Watch.outside hasWords afterGroup).run r.tokens).1
      ++ ((Watch.outside hasWords afterGroup).run r.tokens).2.endIssues) := by
  refine Settled.of_forall (fun x hx => ?_) Watch.isBehind_run
  obtain ⟨t, ht, hpos⟩ := Watch.exists_anchor_of_mem_run hx
  have hb := tokens_bounds ht
  have ha := x.problem.anchor_bounds hb.2.1
  omega

/-- The issues of a command outside its parentheses. -/
theorem settled_ownIssues (r : Region) : r.Settled r.ownIssues :=
  r.settled_run false false

/-- The issues of a closed group outside its parentheses are those of what follows it. -/
theorem Closing.ownIssues_eq {o : Opening r} (c : Closing o) :
    r.ownIssues = ((Watch.outside false true).run c.right.tokens).1
      ++ ((Watch.outside false true).run c.right.tokens).2.endIssues := by
  rw [ownIssues, watch, c.tokens_eq_group, Watch.run_group _ o.opens c.closes c.depth?_left]

/-- The issues of a group that is not closed stand at opening parentheses. -/
theorem Opening.exists_lparen_of_mem_ownIssues (o : Opening r)
    (h : closing? 0 o.right.tokens = none) {x : Issue} (hx : x ∈ r.ownIssues) :
    ∃ t ∈ r.tokens, t.kind = .lparen ∧ x.position = t.start := by
  obtain ⟨inner, hrun⟩ := Watch.run_unclosed o.opens h
  have hopened : ∀ p ∈ inner ++ [o.token.start],
      ∃ t ∈ r.tokens, t.kind = .lparen ∧ p = t.start := by
    intro p hp
    refine Watch.exists_lparen_of_mem_opened ?_
    rw [o.tokens_eq_cons, hrun]
    exact hp
  rw [ownIssues, watch, o.tokens_eq_cons, hrun, List.nil_append, Watch.endIssues,
    List.nil_append, List.mem_map] at hx
  obtain ⟨p, hp, rfl⟩ := hx
  exact hopened p (List.mem_reverse.mp hp)

/-- A line without tokens has no issues. -/
theorem lineIssues_of_tokens_eq_nil (h : r.tokens = []) : r.lineIssues = [] := by
  have hfree : Undivided Level.conditional.delimiters 0 r.kinds := by
    rw [kinds, h]
    trivial
  exact (lineIssues_of_undivided hfree).mpr fun hne => absurd h hne

/-- The issues of a command, if the body of a group has settled ones. -/
theorem settled_commandIssues
    (hbody : ∀ body, r.groupBody? = some body → body.Settled body.lineIssues) :
    r.Settled r.commandIssues := by
  cases hr : r.groupBody? with
  | none =>
    rw [commandIssues_of_none hr]
    exact r.settled_ownIssues
  | some body =>
    have hinside := hbody body hr
    rw [commandIssues_of_some hr]
    by_cases hblank : body.tokens = []
    · -- a group without tokens may be reported where it ends, and nothing is reported inside
      have hb := groupBody?_bounds hr
      have hle := body.start_le_stop
      rw [lineIssues_of_tokens_eq_nil hblank, List.append_nil]
      refine Settled.of_forall (List.forall_mem_append.mpr ⟨r.settled_ownIssues.within, ?_⟩)
        (List.forall_mem_append.mpr ⟨Watch.isBehind_run, Watch.forall_mem_ite _ rfl⟩)
      split
      · rw [List.forall_mem_singleton]
        exact ⟨by dsimp only; omega, hb.2.1⟩
      · exact List.forall_mem_nil _
    · have hnot : ¬ (r.isClosed && body.isBlank) = true := by
        intro h
        exact hblank (isBlank_iff.mp (Bool.and_eq_true_iff.mp h).2)
      rw [if_neg hnot, List.append_nil]
      obtain ⟨o, ⟨c, rfl⟩ | ⟨hopen, rfl⟩⟩ := exists_opening hr
      · -- the body lies before the parenthesis that closes the group, the other issues after it
        have hown := c.right.settled_run false true
        rw [← c.ownIssues_eq] at hown
        have hk : c.token.kind ≠ .lparen := by
          rw [c.closes]
          decide
        refine (Settled.append c.toSplit hk hinside.of_closed hown).of_right.mono ?_
        simp only [List.mem_append]
        exact fun x hx => hx.symm
      · exact hinside.of_right.add Watch.isBehind_run
          fun x hx => o.exists_lparen_of_mem_ownIssues hopen hx

/-! ## Lines -/

theorem composes_settled : Composes Settled where
  closed := Settled.of_closed
  append := Settled.append
  nil := fun _ => Settled.of_forall (List.forall_mem_nil _) (List.forall_mem_nil _)
  nothingBefore := by
    intro r level k
    refine Settled.of_forall ?_ (List.forall_mem_singleton.mpr rfl)
    exact List.forall_mem_singleton.mpr ⟨r.start_le_stop, Nat.le_refl _⟩
  nothingAfter := by
    -- nothing else is in an empty segment
    intro r level k h
    refine ⟨List.forall_mem_singleton.mpr ⟨Nat.le_refl _, r.start_le_stop⟩, ?_, ?_⟩
    · intro x hx _ _ _ _
      rw [List.mem_singleton.mp hx]
      rfl
    · intro _ _ _ t ht
      rw [h] at ht
      cases ht

/-- **The issues of a line** stand in it, and those that are reported behind an operator stand apart
from all others. -/
theorem settled_lineIssues (r : Region) : r.Settled r.lineIssues := by
  induction r using line_induction with
  | line r ih =>
    refine composes_settled.lineIssues fun c hc p hp m hm => ?_
    exact settled_commandIssues fun body hbody => ih c hc p hp m hm body hbody

end Region

end CommandLine
