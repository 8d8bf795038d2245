import CommandLine.Proofs.Grammar
import CommandLine.Proofs.Grouping
import CommandLine.Proofs.Parts
import CommandLine.Proofs.Watching
import Mathlib.Data.List.Forall2

/-!
# Regions that are read alike

Two regions are read alike if their tokens agree one by one in kind and characters. Every cut and
every group of the one is then found at the same place in the other, and so they have the same tree
up to marks, and the same issues at the same tokens. How far the marks and positions agree depends
on what else is known of the tokens and of the regions, so both are parameters.

* `Region.Likeness` — a relation between regions that follows their tokens through every split.
* `Region.Likeness.exists_cut`, `Region.Likeness.exists_opening`, `Region.Likeness.exists_closing` —
  what is found in the one is found in the other.
* `Region.Likeness.map_toLine` — the trees.
* `Problem.anchor`, `Issue.Like` — the place of an issue at a token.
* `Region.Likeness.lineIssues` — the issues.
-/

namespace CommandLine

/-- Of two lists that are related one by one, the second is split where the first is. -/
theorem forall₂_append_cons {α β : Type} {R : α → β → Prop} {xs zs : List α} {y : α} {us : List β}
    (h : List.Forall₂ R (xs ++ y :: zs) us) :
    ∃ xs' y' zs', us = xs' ++ y' :: zs' ∧ List.Forall₂ R xs xs' ∧ R y y' ∧
      List.Forall₂ R zs zs' := by
  induction xs generalizing us with
  | nil =>
    obtain ⟨y', zs', hy, hzs, rfl⟩ := List.forall₂_cons_left_iff.mp h
    exact ⟨[], y', zs', rfl, .nil, hy, hzs⟩
  | cons x xs ih =>
    obtain ⟨x', us', hx, hus, rfl⟩ := List.forall₂_cons_left_iff.mp h
    obtain ⟨xs', y', zs', rfl, hxs, hy, hzs⟩ := ih hus
    exact ⟨x' :: xs', y', zs', rfl, .cons hx hxs, hy, hzs⟩

/-- Functions that agree on related members of two lists give the same list. -/
theorem map_eq_map_of_forall₂ {α β γ : Type} {R : α → β → Prop} {f : α → γ} {g : β → γ}
    {xs : List α} {ys : List β} (h : List.Forall₂ R xs ys)
    (hfg : ∀ x ∈ xs, ∀ y, R x y → f x = g y) : xs.map f = ys.map g := by
  induction h with
  | nil => rfl
  | cons hxy _ ih =>
    rw [List.forall_mem_cons] at hfg
    rw [List.map_cons, List.map_cons, hfg.1 _ hxy, ih hfg.2]

/-- Lists with the same values under two functions are related one by one. -/
theorem forall₂_of_map_eq {α β γ : Type} {f : α → γ} {g : β → γ} {xs : List α} {ys : List β}
    (h : xs.map f = ys.map g) :
    List.Forall₂ (fun x y => x ∈ xs ∧ y ∈ ys ∧ f x = g y) xs ys := by
  induction xs generalizing ys with
  | nil =>
    obtain rfl := List.map_eq_nil_iff.mp h.symm
    exact .nil
  | cons x xs ih =>
    obtain ⟨y, ys, rfl, hy, hys⟩ := List.map_eq_cons_iff.mp h.symm
    refine .cons ⟨List.mem_cons_self, List.mem_cons_self, hy.symm⟩ ((ih hys.symm).imp ?_)
    rintro x' y' ⟨hx', hy', hxy⟩
    exact ⟨List.mem_cons_of_mem _ hx', List.mem_cons_of_mem _ hy', hxy⟩

/-! ## What is read off a symbol -/

namespace Token

variable {t u : Token}

theorem kind_eq_of_symbol (h : t.symbol = u.symbol) : t.kind = u.kind := congrArg Prod.fst h

theorem raw_eq_of_symbol (h : t.symbol = u.symbol) : t.raw = u.raw := congrArg Prod.snd h

/-- Tokens of one symbol stand for the same text. -/
theorem text_eq_of_symbol (h : t.symbol = u.symbol) : t.text = u.text := by
  rw [text, text, kind_eq_of_symbol h, raw_eq_of_symbol h]

theorem redirectOp?_eq_of_symbol (h : t.symbol = u.symbol) : t.redirectOp? = u.redirectOp? := by
  rw [redirectOp?, redirectOp?, kind_eq_of_symbol h, raw_eq_of_symbol h]

theorem unclosed?_eq_of_symbol (h : t.symbol = u.symbol) : t.unclosed? = u.unclosed? := by
  rw [unclosed?, unclosed?, kind_eq_of_symbol h, raw_eq_of_symbol h]

end Token

variable {R : Token → Token → Prop}

/-- Words are collected from symbols. -/
theorem Words.collect_eq_of_symbols (hR : ∀ {t u}, R t u → t.symbol = u.symbol) {ts us : List Token}
    (h : List.Forall₂ R ts us) (depth : Nat) (pending : Option RedirectOp) :
    collect depth pending ts = collect depth pending us := by
  induction h generalizing depth pending with
  | nil => rfl
  | cons ht _ ih =>
    have hsymbol := hR ht
    rw [collect.eq_def, collect.eq_def]
    simp only [Token.kind_eq_of_symbol hsymbol, Token.text_eq_of_symbol hsymbol,
      Token.redirectOp?_eq_of_symbol hsymbol, ih]

/-! ## Issues at tokens -/

/-- The position at which a problem with a token is reported: where the token starts, but for an
operator with nothing after it, which is reported where it ends, and a backslash at the end of a
word, which is the last character of the word. -/
def Problem.anchor : Problem → Token → Nat
  | nothingAfter _ _, t => t.stop
  | trailingEscape, t => t.stop - 1
  | _, t => t.start

/-- The same problem with related tokens. -/
structure Issue.Like (R : Token → Token → Prop) (i j : Issue) : Prop where
  /-- what is wrong is the same -/
  problem_eq : i.problem = j.problem
  /-- it is wrong with related tokens -/
  anchored : ∃ t u, R t u ∧ i.position = i.problem.anchor t ∧ j.position = j.problem.anchor u

theorem Issue.like_of {p : Problem} {t u : Token} (h : R t u) :
    Issue.Like R ⟨p, p.anchor t⟩ ⟨p, p.anchor u⟩ :=
  ⟨rfl, t, u, h, rfl, rfl⟩

namespace Watch

/-- The positions of related opening parentheses. -/
def Opened (R : Token → Token → Prop) (p q : Nat) : Prop :=
  ∃ t u, R t u ∧ t.kind = .lparen ∧ p = t.start ∧ q = u.start

/-- What is known of two commands that are read alike. -/
structure Like (R : Token → Token → Prop) (w v : Watch) : Prop where
  /-- related parentheses stand open -/
  opened : List.Forall₂ (Opened R) w.opened v.opened
  /-- related redirect operators wait for a target -/
  redirect : Option.Rel R w.redirect v.redirect
  /-- the same is known of words -/
  hasWords : w.hasWords = v.hasWords
  /-- the same is known of groups -/
  afterGroup : w.afterGroup = v.afterGroup

theorem start_like : Like R start start := ⟨.nil, .none, rfl, rfl⟩

variable (hR : ∀ {t u}, R t u → t.symbol = u.symbol) {w v : Watch} {t u : Token}

include hR

theorem missingTarget_like (h : R t u) : Issue.Like R (missingTarget t) (missingTarget u) := by
  rw [missingTarget, missingTarget, Token.raw_eq_of_symbol (hR h)]
  exact Issue.like_of h

theorem openEnd_like (h : R t u) : List.Forall₂ (Issue.Like R) (openEnd t) (openEnd u) := by
  rw [openEnd, openEnd, Token.unclosed?_eq_of_symbol (hR h)]
  cases u.unclosed? with
  | none => exact .nil
  | some o => cases o <;> exact .cons (Issue.like_of h) .nil

omit hR in
theorem Like.isEmpty_eq (h : Like R w v) : w.opened.isEmpty = v.opened.isEmpty := by
  rw [Bool.eq_iff_iff, List.isEmpty_iff_length_eq_zero, List.isEmpty_iff_length_eq_zero,
    h.opened.length_eq]

omit hR in
theorem Like.isNone_eq (h : Like R w v) : w.redirect.isNone = v.redirect.isNone := by
  have hredirect := h.redirect
  generalize w.redirect = a, v.redirect = b at hredirect
  cases hredirect <;> rfl

/-- Related tokens raise the same issues. -/
theorem tokenIssues_like (h : Like R w v) (ht : R t u) :
    List.Forall₂ (Issue.Like R) (w.tokenIssues t) (v.tokenIssues u) := by
  rw [tokenIssues, tokenIssues, ← Token.kind_eq_of_symbol (hR ht),
    ← Token.raw_eq_of_symbol (hR ht), h.isEmpty_eq, h.isNone_eq, h.hasWords, h.afterGroup]
  cases t.kind with
  | lparen =>
    dsimp only
    split
    · exact .cons (Issue.like_of ht) .nil
    · exact .nil
  | rparen =>
    dsimp only
    split
    · exact .cons (Issue.like_of ht) .nil
    · exact .nil
  | word =>
    dsimp only
    split
    · refine List.rel_append (openEnd_like hR ht) ?_
      split
      · exact .cons (Issue.like_of ht) .nil
      · exact .nil
    · exact .nil
  | _ => exact .nil

theorem issuesAt_like (h : Like R w v) (ht : R t u) :
    List.Forall₂ (Issue.Like R) (w.issuesAt t) (v.issuesAt u) := by
  rw [issuesAt, issuesAt, ← Token.kind_eq_of_symbol (hR ht)]
  refine List.rel_append ?_ (tokenIssues_like hR h ht)
  have hredirect := h.redirect
  generalize w.redirect = a, v.redirect = b at hredirect
  cases hredirect with
  | none => exact .nil
  | some hr =>
    dsimp only
    split
    · exact .nil
    · exact .cons (missingTarget_like hR hr) .nil

/-- Related tokens leave the same known. -/
theorem step_like (h : Like R w v) (ht : R t u) : Like R (w.step t) (v.step u) := by
  have hkind := Token.kind_eq_of_symbol (hR ht)
  have hopened : List.Forall₂ (Opened R) (w.openedAfter t) (v.openedAfter u) := by
    rw [openedAfter, openedAfter, ← hkind]
    cases hk : t.kind with
    | lparen => exact .cons ⟨t, u, ht, hk, rfl, rfl⟩ h.opened
    | rparen =>
      rw [← List.drop_one, ← List.drop_one]
      exact List.forall₂_drop 1 h.opened
    | _ => exact h.opened
  have hempty : (w.openedAfter t).isEmpty = (v.openedAfter u).isEmpty := by
    rw [Bool.eq_iff_iff, List.isEmpty_iff_length_eq_zero, List.isEmpty_iff_length_eq_zero,
      hopened.length_eq]
  refine ⟨hopened, ?_, ?_, ?_⟩
  · rw [step, step]
    dsimp only
    rw [hempty, hkind]
    split
    · exact .some ht
    · exact .none
  · simp only [step, h.hasWords, hkind, h.isEmpty_eq, h.isNone_eq]
  · simp only [step, h.afterGroup, hkind, h.isEmpty_eq, hempty]

/-- **Along related tokens** there are the same issues, and the same is known at their end. -/
theorem run_like {ts us : List Token} (hts : List.Forall₂ R ts us) (h : Like R w v) :
    List.Forall₂ (Issue.Like R) (w.run ts).1 (v.run us).1 ∧ Like R (w.run ts).2 (v.run us).2 := by
  induction hts generalizing w v with
  | nil => exact ⟨.nil, h⟩
  | cons ht _ ih =>
    obtain ⟨hfound, hlast⟩ := ih (step_like hR h ht)
    rw [run_cons, run_cons]
    exact ⟨List.rel_append (issuesAt_like hR h ht) hfound, hlast⟩

theorem endIssues_like (h : Like R w v) :
    List.Forall₂ (Issue.Like R) w.endIssues v.endIssues := by
  rw [endIssues, endIssues]
  refine List.rel_append ?_ ?_
  · have hredirect := h.redirect
    generalize w.redirect = a, v.redirect = b at hredirect
    cases hredirect with
    | none => exact .nil
    | some hr => exact .cons (missingTarget_like hR hr) .nil
  · rw [List.forall₂_map_left_iff, List.forall₂_map_right_iff]
    refine (List.forall₂_reverse_iff.mpr h.opened).imp ?_
    rintro p q ⟨t, u, ht, -, rfl, rfl⟩
    exact Issue.like_of ht

end Watch

/-- The issues of a segment that others follow, and the issues of those. -/
theorem segmentIssues_cons {level : Level} {previous : Option Kind} {s : Region}
    {inside : List Issue} {rest : List (Region × List Issue)} (h : rest ≠ []) :
    segmentIssues level previous ((s, inside) :: rest) =
      (if s.isBlank then [⟨.nothingBefore level s.nextOperator, s.stop⟩] else inside)
        ++ segmentIssues level (some s.nextOperator) rest := by
  cases rest with
  | nil => exact absurd rfl h
  | cons p rest => rfl

namespace Region

/-- A region is no group unless its first token opens one. -/
theorem groupBody?_eq_none_iff_head {r : Region} :
    r.groupBody? = none ↔ r.kinds.head? ≠ some .lparen := by
  rw [groupBody?_eq_none_iff]
  constructor
  · rintro ⟨hempty⟩ hhead
    obtain ⟨t, ht, hk⟩ := Option.map_eq_some_iff.mp (List.head?_map.symm.trans hhead)
    obtain ⟨ts, htokens⟩ := List.head?_eq_some_iff.mp ht
    exact hempty ⟨⟨[], t, ts, htokens⟩, rfl, hk⟩
  · intro hhead
    refine ⟨fun o => hhead ?_⟩
    rw [kinds, o.tokens_eq_cons, List.map_cons, List.head?_cons, o.opens]

/-- A group whose parenthesis is never closed leaves it open at the end. -/
theorem Opening.isClosed_of_unclosed {r : Region} (o : Opening r)
    (h : closing? 0 o.right.tokens = none) : r.isClosed = false := by
  obtain ⟨inner, hrun⟩ := Watch.run_unclosed o.opens h
  rw [isClosed, watch, o.tokens_eq_cons, hrun]
  simp

/-- A relation between regions that are read alike: their tokens are related one by one and have the
same symbols, and what stands on both sides of related tokens is related again. -/
structure Likeness (R : Token → Token → Prop) (Q : Region → Region → Prop) : Prop where
  /-- related tokens have the same symbol -/
  symbol_eq : ∀ {t u}, R t u → t.symbol = u.symbol
  /-- related regions have related tokens -/
  tokens : ∀ {r s}, Q r s → List.Forall₂ R r.tokens s.tokens
  /-- limits do not matter -/
  closed : ∀ {r s}, Q r s → Q r.closed s.closed
  /-- both sides of related tokens are related -/
  sides : ∀ {r s}, Q r s → ∀ (c : Split r) (d : Split s), List.Forall₂ R c.before d.before →
    R c.token d.token → List.Forall₂ R c.after d.after → Q c.left d.left ∧ Q c.right d.right

/-- Regions whose tokens are related are read alike if related tokens have the same symbol. -/
theorem likeness_of_symbols (hR : ∀ {t u}, R t u → t.symbol = u.symbol) :
    Likeness R fun r s => List.Forall₂ R r.tokens s.tokens where
  symbol_eq := hR
  tokens := fun h => h
  closed := fun h => h
  sides := by
    intro r s _ c d hbefore _ hafter
    rw [c.tokens_left, d.tokens_left, c.tokens_right, d.tokens_right]
    exact ⟨hbefore, hafter⟩

namespace Likeness

variable {Q : Region → Region → Prop} (L : Likeness R Q) {r s : Region}

include L

/-! ## Cuts and groups -/

theorem map_kind_eq {ts us : List Token} (h : List.Forall₂ R ts us) :
    ts.map Token.kind = us.map Token.kind :=
  map_eq_map_of_forall₂ h fun _ _ _ ht => Token.kind_eq_of_symbol (L.symbol_eq ht)

theorem kinds_eq (h : Q r s) : r.kinds = s.kinds := L.map_kind_eq (L.tokens h)

theorem words_eq (h : Q r s) : r.words = s.words :=
  Words.collect_eq_of_symbols L.symbol_eq (L.tokens h) 0 none

theorem tokens_eq_nil_iff (h : Q r s) : r.tokens = [] ↔ s.tokens = [] := by
  rw [← List.length_eq_zero_iff, ← List.length_eq_zero_iff, (L.tokens h).length_eq]

theorem isBlank_iff (h : Q r s) : r.isBlank ↔ s.isBlank := by
  rw [Region.isBlank_iff, Region.isBlank_iff]
  exact L.tokens_eq_nil_iff h

/-- Every split of the one region is one of the other. -/
theorem exists_split (h : Q r s) (c : Split r) :
    ∃ d : Split s, c.before.map Token.kind = d.before.map Token.kind ∧ R c.token d.token ∧
      Q c.left d.left ∧ Q c.right d.right := by
  have htokens := L.tokens h
  rw [c.tokens_eq] at htokens
  obtain ⟨before, token, after, hs, hbefore, htoken, hafter⟩ := forall₂_append_cons htokens
  let d : Split s := ⟨before, token, after, hs⟩
  obtain ⟨hleft, hright⟩ := L.sides h c d hbefore htoken hafter
  exact ⟨d, L.map_kind_eq hbefore, htoken, hleft, hright⟩

/-- **Regions that are read alike are cut alike.** -/
theorem exists_cut {delimiters : List Kind} (h : Q r s) (c : Cut delimiters r) :
    ∃ d : Cut delimiters s, R c.token d.token ∧ Q c.left d.left ∧ Q c.right d.right := by
  obtain ⟨d, hbefore, htoken, hleft, hright⟩ := L.exists_split h c.toSplit
  refine ⟨⟨d, ?_, ?_, ?_⟩, htoken, hleft, hright⟩
  · rw [← hbefore]
    exact c.undivided
  · rw [← hbefore]
    exact c.outside
  · rw [← Token.kind_eq_of_symbol (L.symbol_eq htoken)]
    exact c.kind_mem

theorem exists_opening (h : Q r s) (o : Opening r) :
    ∃ p : Opening s, R o.token p.token ∧ Q o.right p.right := by
  obtain ⟨p, hbefore, htoken, -, hright⟩ := L.exists_split h o.toSplit
  rw [o.first, List.map_nil, eq_comm, List.map_eq_nil_iff] at hbefore
  refine ⟨⟨p, hbefore, ?_⟩, htoken, hright⟩
  rw [← Token.kind_eq_of_symbol (L.symbol_eq htoken)]
  exact o.opens

theorem exists_closing {o : Opening r} {p : Opening s} (h : Q o.right p.right) (c : Closing o) :
    ∃ d : Closing p, R c.token d.token ∧ Q c.left d.left ∧ Q c.right d.right := by
  obtain ⟨d, hbefore, htoken, hleft, hright⟩ := L.exists_split h c.toSplit
  refine ⟨⟨d, ?_, ?_⟩, htoken, hleft, hright⟩
  · rw [← hbefore]
    exact c.balanced
  · rw [← Token.kind_eq_of_symbol (L.symbol_eq htoken)]
    exact c.closes

theorem closing?_eq_none_iff (h : Q r s) :
    closing? 0 r.tokens = none ↔ closing? 0 s.tokens = none := by
  rw [CommandLine.closing?_eq_none_iff, CommandLine.closing?_eq_none_iff]
  exact iff_of_eq (congrArg (fun ks => ∃ d, depth? 0 ks = some d) (L.kinds_eq h))

/-- **Groups that are read alike have bodies that are.** -/
theorem exists_groupBody {body : Region} (h : Q r s) (hbody : r.groupBody? = some body) :
    ∃ body', s.groupBody? = some body' ∧ Q body body' ∧
      (r.isClosed → ∃ t u, R t u ∧ body.stop = t.start ∧ body'.stop = u.start) := by
  obtain ⟨o, ⟨c, rfl⟩ | ⟨hopen, rfl⟩⟩ := Region.exists_opening hbody
  · obtain ⟨p, -, hright⟩ := L.exists_opening h o
    obtain ⟨d, htoken, hleft, -⟩ := L.exists_closing hright c
    exact ⟨d.left.closed, p.groupBody?_of_closing d, L.closed hleft,
      fun _ => ⟨c.token, d.token, htoken, rfl, rfl⟩⟩
  · obtain ⟨p, -, hright⟩ := L.exists_opening h o
    have hopen' := (L.closing?_eq_none_iff hright).mp hopen
    refine ⟨p.right, p.groupBody?_of_unclosed hopen', hright, ?_⟩
    intro hclosed
    rw [o.isClosed_of_unclosed hopen] at hclosed
    cases hclosed

theorem groupBody?_eq_none (h : Q r s) (hnone : r.groupBody? = none) : s.groupBody? = none := by
  rw [groupBody?_eq_none_iff_head, ← L.kinds_eq h, ← groupBody?_eq_none_iff_head]
  exact hnone

/-- Regions that are read alike are divided into regions that are, with the same operators behind
them. -/
theorem divide (delimiters : List Kind) (h : Q r s) :
    List.Forall₂ (fun m n => Q m n ∧ m.nextOperator = n.nextOperator)
      (r.divide delimiters) (s.divide delimiters) := by
  induction r using cut_induction delimiters generalizing s with
  | last r hfree =>
    have hfree' : Undivided delimiters 0 s.kinds := L.kinds_eq h ▸ hfree
    rw [divide_of_undivided hfree, divide_of_undivided hfree']
    exact .cons ⟨L.closed h, by rw [nextOperator_closed, nextOperator_closed]⟩ .nil
  | cut r c ih =>
    obtain ⟨d, htoken, hleft, hright⟩ := L.exists_cut h c
    rw [divide_of_cut c, divide_of_cut d]
    refine .cons ⟨hleft, ?_⟩ (ih hright)
    rw [c.nextOperator_left, d.nextOperator_left]
    exact Token.kind_eq_of_symbol (L.symbol_eq htoken)

/-! ## Trees -/

section Trees

variable {τ : Type} {f g : Span → τ} (hspan : ∀ {r s}, Q r s → f r.span = g s.span)

include hspan

/-- Commands have the same tree if the bodies of groups have. -/
theorem map_toCommand (h : Q r s)
    (hbody : ∀ body, r.groupBody? = some body → ∀ body', Q body body' →
      body.toLine.map f = body'.toLine.map g) : r.toCommand.map f = s.toCommand.map g := by
  cases hr : r.groupBody? with
  | none =>
    rw [toCommand_of_none hr, toCommand_of_none (L.groupBody?_eq_none h hr), Command.map,
      Command.map, hspan h, L.words_eq h]
  | some body =>
    obtain ⟨body', hs, hbodies, -⟩ := L.exists_groupBody h hr
    rw [toCommand_of_some hr, toCommand_of_some hs, Command.map, Command.map, hspan h,
      L.words_eq h, hbody body hr body' hbodies]

/-- Pipelines have the same tree if their commands have. -/
theorem map_toPipeline (h : Q r s)
    (hparts : ∀ m ∈ r.divide Level.command.delimiters, ∀ n, Q m n →
      m.toCommand.map f = n.toCommand.map g) : r.toPipeline.map f = s.toPipeline.map g := by
  rw [toPipeline_eq, toPipeline_eq, Pipeline.map, Pipeline.map, List.map_map, List.map_map, hspan h]
  congr 1
  exact map_eq_map_of_forall₂ (L.divide _ h) fun m hm n hmn => hparts m hm n hmn.1

/-- Conditionals that the same operator ends have the same tree if their pipelines have. -/
theorem map_toConditional (h : Q r s) (hnext : r.nextOperator = s.nextOperator)
    (hparts : ∀ p ∈ r.divide Level.pipeline.delimiters, ∀ q, Q p q →
      p.toPipeline.map f = q.toPipeline.map g) : r.toConditional.map f = s.toConditional.map g := by
  have hdivide := L.divide Level.pipeline.delimiters h
  have hjoins := map_eq_map_of_forall₂ hdivide fun _ _ _ hpq => hpq.2
  rw [toConditional_eq, toConditional_eq, Conditional.map, Conditional.map, hspan h, hnext,
    List.map_dropLast, List.map_dropLast, hjoins, List.map_map, List.map_map]
  congr 1
  exact map_eq_map_of_forall₂ hdivide fun p hp q hpq => hparts p hp q hpq.1

/-- Lines have the same tree if their conditionals have. -/
theorem map_toLine_of_parts (h : Q r s)
    (hparts : ∀ c ∈ r.divide Level.conditional.delimiters, ∀ d, Q c d →
      c.nextOperator = d.nextOperator → c.toConditional.map f = d.toConditional.map g) :
    r.toLine.map f = s.toLine.map g := by
  rw [toLine_eq, toLine_eq, Line.map, Line.map, List.map_map, List.map_map, hspan h]
  congr 1
  exact map_eq_map_of_forall₂ (L.divide _ h) fun c hc d hcd => hparts c hc d hcd.1 hcd.2

/-- **Regions that are read alike have the same tree**, up to marks that agree on regions that are
read alike. -/
theorem map_toLine (h : Q r s) : r.toLine.map f = s.toLine.map g := by
  induction r using line_induction generalizing s with
  | line r ih =>
    refine L.map_toLine_of_parts hspan h fun c hc d hcd hnext => ?_
    refine L.map_toConditional hspan hcd hnext fun p hp q hpq => ?_
    refine L.map_toPipeline hspan hpq fun m hm k hmk => ?_
    exact L.map_toCommand hspan hmk fun body hbody _ => ih c hc p hp m hm body hbody

end Trees

/-! ## Issues -/

theorem watch_like (h : Q r s) :
    List.Forall₂ (Issue.Like R) r.watch.1 s.watch.1 ∧ Watch.Like R r.watch.2 s.watch.2 :=
  Watch.run_like L.symbol_eq (L.tokens h) Watch.start_like

theorem ownIssues (h : Q r s) : List.Forall₂ (Issue.Like R) r.ownIssues s.ownIssues := by
  obtain ⟨hfound, hlast⟩ := L.watch_like h
  exact List.rel_append hfound (Watch.endIssues_like L.symbol_eq hlast)

theorem isClosed_eq (h : Q r s) : r.isClosed = s.isClosed := (L.watch_like h).2.isEmpty_eq

/-- Commands have the same issues if the bodies of groups have. -/
theorem commandIssues (h : Q r s)
    (hbody : ∀ body, r.groupBody? = some body → ∀ body', Q body body' →
      List.Forall₂ (Issue.Like R) body.lineIssues body'.lineIssues) :
    List.Forall₂ (Issue.Like R) r.commandIssues s.commandIssues := by
  cases hr : r.groupBody? with
  | none =>
    rw [commandIssues_of_none hr, commandIssues_of_none (L.groupBody?_eq_none h hr)]
    exact L.ownIssues h
  | some body =>
    obtain ⟨body', hs, hbodies, hend⟩ := L.exists_groupBody h hr
    rw [commandIssues_of_some hr, commandIssues_of_some hs]
    refine List.rel_append (List.rel_append (L.ownIssues h) ?_) (hbody body hr body' hbodies)
    have hblank : body.isBlank = body'.isBlank := Bool.eq_iff_iff.mpr (L.isBlank_iff hbodies)
    rw [← L.isClosed_eq h, ← hblank]
    split
    · next hempty =>
      -- a group that is closed ends before a token: the parenthesis that closes it
      obtain ⟨t, u, ht, hbodystop, hbodystop'⟩ := hend (Bool.and_eq_true_iff.mp hempty).1
      rw [hbodystop, hbodystop']
      exact .cons (Issue.like_of ht) .nil
    · exact .nil

/-- Segments that are read alike are both empty or both not. -/
theorem ite_isBlank {P : Issue → Issue → Prop} {xs xs' ys ys' : List Issue} (h : Q r s)
    (hblank : r.tokens = [] → List.Forall₂ P xs ys)
    (hinside : r.tokens ≠ [] → List.Forall₂ P xs' ys') :
    List.Forall₂ P (if r.isBlank then xs else xs') (if s.isBlank then ys else ys') := by
  have heq : r.isBlank = s.isBlank := Bool.eq_iff_iff.mpr (L.isBlank_iff h)
  rw [← heq]
  by_cases hr : r.tokens = []
  · rw [if_pos (Region.isBlank_iff.mpr hr), if_pos (Region.isBlank_iff.mpr hr)]
    exact hblank hr
  · have hb : ¬ r.isBlank := fun hb => hr (Region.isBlank_iff.mp hb)
    rw [if_neg hb, if_neg hb]
    exact hinside hr

/-- **The segments of a level** have the same issues if the same is inside of them. The first of
them starts behind a token if there has been an operator. -/
theorem segmentIssues {level : Level} {inside : Region → List Issue} {previous : Option Kind}
    (h : Q r s) (hne : r.tokens = [] → previous ≠ none)
    (hbehind : previous ≠ none → ∃ t u, R t u ∧ r.start = t.stop ∧ s.start = u.stop)
    (hparts : ∀ m ∈ r.divide level.delimiters, ∀ n, Q m n → m.tokens ≠ [] →
      List.Forall₂ (Issue.Like R) (inside m) (inside n)) :
    List.Forall₂ (Issue.Like R)
      (CommandLine.segmentIssues level previous
        ((r.divide level.delimiters).map fun m => (m, inside m)))
      (CommandLine.segmentIssues level previous
        ((s.divide level.delimiters).map fun m => (m, inside m))) := by
  induction r using cut_induction level.delimiters generalizing s previous with
  | last r hfree =>
    have hfree' : Undivided level.delimiters 0 s.kinds := L.kinds_eq h ▸ hfree
    rw [divide_of_undivided hfree, List.forall_mem_singleton] at hparts
    rw [divide_of_undivided hfree, divide_of_undivided hfree', List.map_singleton,
      List.map_singleton, CommandLine.segmentIssues, CommandLine.segmentIssues]
    refine L.ite_isBlank (L.closed h) (fun hr => .cons ?_ .nil) (hparts s.closed (L.closed h))
    -- an empty segment that is the last one stands behind an operator
    obtain ⟨k, rfl⟩ := Option.ne_none_iff_exists'.mp (hne hr)
    obtain ⟨t, u, ht, hstart, hstart'⟩ := hbehind (by simp)
    change Issue.Like R ⟨.nothingAfter level k, r.start⟩ ⟨.nothingAfter level k, s.start⟩
    rw [hstart, hstart']
    exact Issue.like_of ht
  | cut r c ih =>
    obtain ⟨d, htoken, hleft, hright⟩ := L.exists_cut h c
    have hkind := Token.kind_eq_of_symbol (L.symbol_eq htoken)
    rw [divide_of_cut c, List.forall_mem_cons] at hparts
    rw [divide_of_cut c, divide_of_cut d, List.map_cons, List.map_cons,
      segmentIssues_cons (by simp [divide_ne_nil]), segmentIssues_cons (by simp [divide_ne_nil]),
      c.nextOperator_left, d.nextOperator_left, ← hkind]
    refine List.rel_append ?_ (ih hright (by simp) (fun _ => ⟨_, _, htoken, rfl, rfl⟩) hparts.2)
    exact L.ite_isBlank hleft (fun _ => .cons (Issue.like_of htoken) .nil) (hparts.1 d.left hleft)

/-- The conditionals of a line have the same issues if the same is inside of them. -/
theorem lineIssues_of_parts (h : Q r s)
    (hparts : ∀ c ∈ r.divide Level.conditional.delimiters, ∀ d, Q c d → c.tokens ≠ [] →
      List.Forall₂ (Issue.Like R) c.conditionalIssues d.conditionalIssues) :
    List.Forall₂ (Issue.Like R) r.lineIssues s.lineIssues := by
  rw [lineIssues_eq, lineIssues_eq]
  induction r using cut_induction Level.conditional.delimiters generalizing s with
  | last r hfree =>
    have hfree' : Undivided Level.conditional.delimiters 0 s.kinds := L.kinds_eq h ▸ hfree
    rw [divide_of_undivided hfree, List.forall_mem_singleton] at hparts
    rw [divide_of_undivided hfree, divide_of_undivided hfree', List.flatMap_singleton,
      List.flatMap_singleton, conditionalPlaceIssues, conditionalPlaceIssues, nextOperator_closed,
      nextOperator_closed]
    refine L.ite_isBlank (L.closed h) (fun _ => ?_) (hparts s.closed (L.closed h))
    rw [if_neg (by decide), if_neg (by decide)]
    exact .nil
  | cut r c ih =>
    obtain ⟨d, htoken, hleft, hright⟩ := L.exists_cut h c
    have hkind := Token.kind_eq_of_symbol (L.symbol_eq htoken)
    rw [divide_of_cut c, List.forall_mem_cons] at hparts
    rw [divide_of_cut c, divide_of_cut d, List.flatMap_cons, List.flatMap_cons,
      conditionalPlaceIssues, conditionalPlaceIssues, c.nextOperator_left, d.nextOperator_left,
      if_pos c.kind_separator, if_pos d.kind_separator, ← hkind]
    refine List.rel_append ?_ (ih hright hparts.2)
    exact L.ite_isBlank hleft (fun _ => .cons (Issue.like_of htoken) .nil) (hparts.1 d.left hleft)

/-- **Regions that are read alike have the same issues** at related tokens, in the same order. -/
theorem lineIssues (h : Q r s) : List.Forall₂ (Issue.Like R) r.lineIssues s.lineIssues := by
  induction r using line_induction generalizing s with
  | line r ih =>
    refine L.lineIssues_of_parts h fun c hc d hcd hcne => ?_
    rw [conditionalIssues_eq, conditionalIssues_eq]
    refine L.segmentIssues hcd (fun hnil => absurd hnil hcne) (by simp) fun p hp q hpq hpne => ?_
    rw [pipelineIssues_eq, pipelineIssues_eq]
    refine L.segmentIssues hpq (fun hnil => absurd hnil hpne) (by simp) fun m hm k hmk _ => ?_
    exact L.commandIssues hmk fun body hbody _ => ih c hc p hp m hm body hbody

end Likeness

end Region

end CommandLine
