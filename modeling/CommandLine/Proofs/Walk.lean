import CommandLine.Proofs.Division
import CommandLine.View

/-!
# Walking through the levels

A walk goes down from a line to its conditionals, from each of them to its pipelines and from each
of these to its commands. Every step reads the characters of one segment again, with a nearer limit
and with the parentheses counted from nothing. It meets the segments that one pass along the line
finds with the operators of all levels as delimiters, and nothing stands between two of them but the
operator that the levels agree on.

* `View.walk` — the commands of a view in order, each with the pipeline and conditional around it.
* `Visit.operator` — the operator after a command, by the levels that it ends.
* `Region.map_link_divide` — a region is divided at a delimiter into what both sides are divided
  into.
* `Region.flatMap_divide` — dividing by some delimiters and the parts by more of them is dividing by
  all.
* `View.walk_eq_pass` — the walk and the pass.
-/

namespace CommandLine

/-! ## The walk -/

/-- A command that is met on a walk, with what it is in. -/
structure Visit where
  /-- the conditional around the pipeline -/
  conditional : View
  /-- the pipeline around the command -/
  pipeline : View
  /-- the command -/
  command : View

namespace Visit

/-- The operator after a command: a bar if another command of the pipeline follows, else the one
that joins the pipeline to the next, else what separates the conditional from the next. -/
def operator (v : Visit) : Token :=
  if v.command.region.nextOperator = .pipe then v.command.region.endToken
  else if v.pipeline.region.nextOperator = .and ∨ v.pipeline.region.nextOperator = .or then
    v.pipeline.region.endToken
  else v.conditional.region.endToken

end Visit

namespace View

/-- The commands of a pipeline of a conditional. -/
def walkPipeline (c p : View) : Except LevelError (List Visit) := do
  let commands ← p.children?
  pure (commands.map (Visit.mk c p))

/-- The commands of a conditional, pipeline by pipeline. -/
def walkConditional (c : View) : Except LevelError (List Visit) := do
  let pipelines ← c.children?
  let visits ← pipelines.mapM (walkPipeline c)
  pure visits.flatten

/-- The commands of a line, conditional by conditional. -/
def walk (v : View) : Except LevelError (List Visit) := do
  let conditionals ← v.children?
  let visits ← conditionals.mapM walkConditional
  pure visits.flatten

end View

/-- Where a segment lies, what it holds and what follows it. -/
structure Link where
  /-- the position of the first character -/
  start : Nat
  /-- the position after the last character -/
  stop : Nat
  /-- the tokens of the segment -/
  tokens : List Token
  /-- the token after it -/
  next : Token

/-- The link of a command that is met on a walk. -/
def Visit.link (v : Visit) : Link :=
  ⟨v.command.region.start, v.command.region.stop, v.command.region.tokens, v.operator⟩

/-- Lists of tokens with the token given after each but the last. -/
def joinTokens : List (List Token × Token) → List Token
  | [] => []
  | [(ts, _)] => ts
  | (ts, t) :: rest => ts ++ t :: joinTokens rest

/-- The operators of all levels. -/
def operatorKinds : List Kind := [.sequence, .background, .and, .or, .pipe]

namespace Region

variable {delimiters : List Kind}

/-! ## Dividing by more delimiters -/

/-- The token after a segment, where the last segment is followed by a given one. -/
def followedBy (last : Token) (s : Region) : Token :=
  if s.nextOperator = .eol then last else s.endToken

/-- The link of a segment, where the last segment is followed by a given token. -/
def link (last : Token) (s : Region) : Link := ⟨s.start, s.stop, s.tokens, s.followedBy last⟩

theorem followedBy_closed (last : Token) (r : Region) : r.closed.followedBy last = last :=
  if_pos r.nextOperator_closed

theorem followedBy_left {r : Region} (last : Token) (c : Split r) :
    c.left.followedBy last = c.token := by
  rw [followedBy, c.nextOperator_left, if_neg (kind_ne_eol c.mem), c.endToken_left]

/-- Delimiters that a region has none of outside parentheses do not matter for its division. -/
theorem divide_eq_of_undivided {others all : List Kind} {r : Region}
    (h : Undivided others 0 r.kinds) (hparen : .lparen ∉ delimiters)
    (hsub : ∀ k ∈ delimiters, k ∈ all) (hall : ∀ k ∈ all, k ∈ delimiters ∨ k ∈ others) :
    r.divide all = r.divide delimiters := by
  induction r using cut_induction delimiters with
  | last r hfree => rw [divide_of_undivided hfree, divide_of_undivided (hfree.union h hall)]
  | cut r c ih =>
    obtain ⟨hleft, hright⟩ := c.undivided_sides h c.outside (c.ne_lparen hparen)
    rw [kinds, c.tokens_left] at hleft
    let d : Cut all r := ⟨c.toSplit, c.undivided.union hleft hall, c.outside, hsub _ c.kind_mem⟩
    rw [divide_of_cut c, divide_of_cut d, ← ih hright]

/-- **A region is divided at a delimiter** outside parentheses, whichever it is, into what the part
before it and the part after it are divided into. -/
theorem map_link_divide {r : Region} (last : Token) (c : Split r)
    (houtside : depthAlong 0 (c.before.map Token.kind) = 0) (hmem : c.token.kind ∈ delimiters)
    (hparen : .lparen ∉ delimiters) :
    (r.divide delimiters).map (link last) =
      (c.left.divide delimiters).map (link c.token) ++
        (c.right.divide delimiters).map (link last) := by
  induction hn : c.before.length using Nat.strongRecOn generalizing r c with
  | ind n ih =>
    subst hn
    by_cases hfree : Undivided delimiters 0 (c.before.map Token.kind)
    · -- the delimiter is the first one, and the part before it is a single segment
      let d : Cut delimiters r := ⟨c, hfree, houtside, hmem⟩
      have hleft : Undivided delimiters 0 c.left.kinds := by
        rw [kinds, c.tokens_left]
        exact hfree
      rw [divide_of_cut d, divide_of_undivided hleft, List.map_cons, List.map_singleton, link, link,
        followedBy_closed, followedBy_left]
      rfl
    · -- an earlier delimiter is the first one on both sides of the equation
      obtain ⟨before, t, between, htokens, hbefore, hdepth, ht⟩ := exists_first_delimiter hfree
      have hr : r.tokens = before ++ t :: (between ++ c.token :: c.after) := by
        rw [c.tokens_eq, htokens, List.append_assoc]
        rfl
      let d : Cut delimiters r := ⟨⟨before, t, _, hr⟩, hbefore, hdepth, ht⟩
      let e : Cut delimiters c.left :=
        ⟨⟨before, t, between, c.tokens_left.trans htokens⟩, hbefore, hdepth, ht⟩
      let f : Split d.right := ⟨between, c.token, c.after, d.tokens_right⟩
      have hf : depthAlong 0 (f.before.map Token.kind) = 0 := by
        rw [htokens, List.map_append, depthAlong_append, hdepth, List.map_cons, depthAlong_cons,
          depthAfter_zero (d.ne_lparen hparen)] at houtside
        exact houtside
      have hlt : between.length < c.before.length := by
        rw [htokens, List.length_append, List.length_cons]
        omega
      have hrest := ih _ hlt f hf hmem rfl
      have hdivide : f.left.divide delimiters = e.right.divide delimiters := rfl
      have hlink : link last d.left = link c.token e.left := by
        rw [link, link, followedBy_left, followedBy_left]
        rfl
      rw [divide_of_cut d, divide_of_cut e, List.map_cons, List.map_cons, hrest, hdivide, hlink]
      rfl

/-- **Dividing the parts again**: to divide a region by some delimiters and every part by more of
them is to divide it by all at once. -/
theorem flatMap_divide (few all : List Kind) (last : Token) (r : Region)
    (hsub : ∀ k ∈ few, k ≠ .eol → k ∈ all) (hparen : .lparen ∉ all) :
    (r.divide few).flatMap (fun s => (s.divide all).map (link (s.followedBy last))) =
      (r.divide all).map (link last) := by
  induction r using cut_induction few with
  | last r hfree =>
    rw [divide_of_undivided hfree, List.flatMap_singleton, followedBy_closed]
    rfl
  | cut r c ih =>
    have hmem := hsub _ c.kind_mem (kind_ne_eol c.mem)
    rw [divide_of_cut c, List.flatMap_cons, ih, followedBy_left,
      map_link_divide last c.toSplit c.outside hmem hparen]

/-- The tokens of the segments, with the token after each but the last, are the tokens of the
region. -/
theorem joinTokens_divide (last : Token) (r : Region) :
    joinTokens ((r.divide delimiters).map fun s => (s.tokens, s.followedBy last)) = r.tokens := by
  induction r using cut_induction delimiters with
  | last r hfree =>
    rw [divide_of_undivided hfree]
    rfl
  | cut r c ih =>
    have hne : (c.right.divide delimiters).map (fun s => (s.tokens, s.followedBy last)) ≠ [] := by
      obtain ⟨init, s, hdivide, -⟩ := c.right.exists_last_segment delimiters
      rw [hdivide]
      simp
    rw [divide_of_cut c, List.map_cons, followedBy_left, joinTokens, ih, ← c.tokens_eq_append]
    exact hne

/-- What follows a segment is the token at its end, the end of the line for the last one. -/
theorem followedBy_of_mem_divide {r s : Region} (hs : s ∈ r.divide delimiters) :
    s.followedBy (Token.endOfLine r.source r.stop) = s.endToken := by
  obtain ⟨-, -, hsource, hlimit⟩ := mem_divide hs
  rw [followedBy]
  split
  · next h =>
    rw [endToken, Token.scan_eq_endOfLine h, hsource, hlimit]
  · rfl

/-- What follows a segment of a level is one of its delimiters or the end of the region. -/
theorem nextOperator_of_mem_divide {r s : Region} (hs : s ∈ r.divide delimiters) :
    s.nextOperator ∈ delimiters ∨ s.nextOperator = .eol := by
  obtain ⟨init, last, hdivide, hinit, hlast⟩ := r.exists_last_segment delimiters
  rw [hdivide, List.mem_append, List.mem_singleton] at hs
  rcases hs with hs | rfl
  · exact .inl (hinit s hs).1
  · exact .inr hlast

/-! ## The walk and the pass -/

/-- The commands of a pipeline of a conditional, each with what it is in. -/
def pipelineVisits (c p : Region) : List Visit :=
  (p.divide Level.command.delimiters).map fun m =>
    ⟨⟨.conditional, c⟩, ⟨.pipeline, p⟩, ⟨.command, m⟩⟩

/-- The commands of a region that is read as a conditional, each with what it is in. -/
def conditionalVisits (c : Region) : List Visit :=
  (c.divide Level.pipeline.delimiters).flatMap c.pipelineVisits

/-- The commands of a region that is read as a line, each with what it is in. -/
def visits (r : Region) : List Visit :=
  (r.divide Level.conditional.delimiters).flatMap conditionalVisits

/-- The operator after a command, found by asking each level whether it goes on. -/
theorem operator_eq {c p m : Region} (hp : p ∈ c.divide Level.pipeline.delimiters)
    (hm : m ∈ p.divide Level.command.delimiters) :
    Visit.operator ⟨⟨.conditional, c⟩, ⟨.pipeline, p⟩, ⟨.command, m⟩⟩ =
      m.followedBy (p.followedBy c.endToken) := by
  have hm := nextOperator_of_mem_divide hm
  have hp := nextOperator_of_mem_divide hp
  simp only [Level.delimiters, List.mem_cons, List.not_mem_nil, or_false] at hm hp
  rw [Visit.operator, followedBy, followedBy]
  dsimp only
  rcases hm with hm | hm
  · rw [if_pos hm, hm]
    rfl
  · rcases hp with hp | hp
    · have hne : p.nextOperator ≠ .eol := by
        rcases hp with hp | hp <;> simp [hp]
      rw [hm, if_neg (by decide), if_pos hp, if_pos rfl, if_neg hne]
    · rw [hm, hp, if_neg (by decide), if_neg (by decide), if_pos rfl, if_pos rfl]

/-- The commands of a conditional are its segments by the operators of all levels. -/
theorem map_link_conditionalVisits {c : Region}
    (h : Undivided Level.conditional.delimiters 0 c.kinds) :
    c.conditionalVisits.map Visit.link = (c.divide operatorKinds).map (link c.endToken) := by
  rw [← flatMap_divide Level.pipeline.delimiters operatorKinds _ c (by decide) (by decide),
    conditionalVisits, List.map_flatMap]
  refine List.flatMap_congr fun p hp => ?_
  have hothers : Undivided (Level.conditional.delimiters ++ Level.pipeline.delimiters) 0 p.kinds :=
    (undivided_of_mem_divide_of h (by decide) hp).union (undivided_of_mem_divide hp)
      fun k hk => List.mem_append.mp hk
  have hsame : p.divide operatorKinds = p.divide Level.command.delimiters :=
    divide_eq_of_undivided hothers (by decide) (by decide) (by decide)
  rw [hsame, pipelineVisits, List.map_map]
  refine List.map_congr_left fun m hm => ?_
  rw [Function.comp_apply, Visit.link, operator_eq hp hm]
  rfl

/-- **The commands of a line are its segments** by the operators of all levels, followed by the same
tokens. -/
theorem map_link_visits (r : Region) :
    r.visits.map Visit.link =
      (r.divide operatorKinds).map (link (Token.endOfLine r.source r.stop)) := by
  rw [← flatMap_divide Level.conditional.delimiters operatorKinds _ r (by decide) (by decide),
    visits, List.map_flatMap]
  refine List.flatMap_congr fun c hc => ?_
  rw [map_link_conditionalVisits (undivided_of_mem_divide hc), followedBy_of_mem_divide hc]

end Region

/-- A function that gives a result for every value of a list gives the results of all. -/
theorem mapM_eq_ok {ε α β : Type} {f : α → Except ε β} {g : α → β} {l : List α}
    (h : ∀ a ∈ l, f a = .ok (g a)) : l.mapM f = .ok (l.map g) := by
  induction l with
  | nil => rfl
  | cons a l ih =>
    rw [List.mapM_cons, h a List.mem_cons_self, ih fun b hb => h b (List.mem_cons_of_mem a hb)]
    rfl

namespace View

theorem walkPipeline_pipeline (c p : Region) :
    walkPipeline ⟨.conditional, c⟩ ⟨.pipeline, p⟩ = .ok (c.pipelineVisits p) := by
  change Except.ok (((p.divide Level.command.delimiters).map (View.mk .command)).map (Visit.mk _ _))
    = _
  rw [List.map_map]
  rfl

theorem walkConditional_conditional (c : Region) :
    walkConditional ⟨.conditional, c⟩ = .ok c.conditionalVisits := by
  have hparts : ∀ p ∈ (c.divide Level.pipeline.delimiters).map (View.mk .pipeline),
      walkPipeline ⟨.conditional, c⟩ p = .ok (c.pipelineVisits p.region) := by
    intro p hp
    obtain ⟨s, -, rfl⟩ := List.mem_map.mp hp
    exact walkPipeline_pipeline c s
  change (((c.divide Level.pipeline.delimiters).map (View.mk .pipeline)).mapM (walkPipeline _)
    >>= fun visits => pure visits.flatten) = _
  rw [mapM_eq_ok hparts, List.map_map]
  rfl

/-- A walk from a line never fails. -/
theorem walk_commandLine (r : Region) : walk ⟨.commandLine, r⟩ = .ok r.visits := by
  have hparts : ∀ c ∈ (r.divide Level.conditional.delimiters).map (View.mk .conditional),
      walkConditional c = .ok c.region.conditionalVisits := by
    intro c hc
    obtain ⟨s, -, rfl⟩ := List.mem_map.mp hc
    exact walkConditional_conditional s
  change (((r.divide Level.conditional.delimiters).map (View.mk .conditional)).mapM walkConditional
    >>= fun visits => pure visits.flatten) = _
  rw [mapM_eq_ok hparts, List.map_map]
  rfl

/-- **The walk and the pass agree**: a walk through conditionals, pipelines and commands meets the
segments that one pass along the text finds with the operators of all levels as delimiters; the
token that the levels give as the operator after a command is the token that the pass finds there;
and the tokens of the commands with these tokens between them are the tokens of the text. -/
theorem walk_eq_pass (t : Text) :
    ∃ visits, walk ⟨.commandLine, Region.ofText t⟩ = .ok visits ∧
      visits.map (fun v => (v.command.region.start, v.command.region.stop)) =
        ((Region.ofText t).segments operatorKinds).map (fun s => (s.start, s.stop)) ∧
      visits.map Visit.operator =
        ((Region.ofText t).segments operatorKinds).map Region.endToken ∧
      joinTokens (visits.map fun v => (v.command.region.tokens, v.operator)) = tokenize t := by
  have hlinks := (Region.ofText t).map_link_visits
  have project : ∀ {α : Type} (f : Link → α),
      (Region.ofText t).visits.map (fun v => f v.link) =
        ((Region.ofText t).divide operatorKinds).map fun s =>
          f (s.link (Token.endOfLine t t.length)) := by
    intro α f
    have h := congrArg (List.map f) hlinks
    rw [List.map_map, List.map_map] at h
    exact h
  refine ⟨(Region.ofText t).visits, walk_commandLine _, ?_, ?_, ?_⟩
  · exact project fun l => (l.start, l.stop)
  · refine (project Link.next).trans (List.map_congr_left fun s hs => ?_)
    exact Region.followedBy_of_mem_divide hs
  · refine (congrArg joinTokens (project fun l => (l.tokens, l.next))).trans ?_
    exact (Region.joinTokens_divide _ _).trans (Region.tokens_ofText t)

end View

end CommandLine
