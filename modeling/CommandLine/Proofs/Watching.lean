import CommandLine.Proofs.Grammar
import CommandLine.Diagnosis

/-!
# Watching a command

The words of a command and the issues of its tokens are found by two machines that go along the
tokens and count parentheses on their own. Both pass over what stands in parentheses, and outside of
them both agree with the grammar on what a part of a command is.

* `Words.collect_items`, `Words.collect_group` — the words along the parts of a command, and along a
  group that is closed.
* `Watch.Accepts` — no issue along some tokens and none at their end.
* `Watch.run_inside`, `Watch.run_group`, `Watch.run_unclosed` — in parentheses that stay open, along
  a group that is closed and along one that is not.
* `Watch.accepts_items`, `Watch.exists_items` — outside parentheses the parts of a command are
  accepted, and nothing else is.
-/

namespace CommandLine

open Grammar

/-- A token whose symbol is that of a word stands for what the word is rendered as. -/
theorem Token.text_of_symbol {t : Token} {raw : Text} (h : t.symbol = (.word, raw)) :
    t.text = Word.render raw := by
  rw [symbol, Prod.mk.injEq] at h
  rw [text, h.1, h.2]

/-- A token whose symbol is that of a redirect operator spells the operator. -/
theorem Token.redirectOp?_of_symbol {t : Token} {op : RedirectOp}
    (h : t.symbol = (.redirect, op.spelling)) : t.redirectOp? = some op := by
  rw [symbol, Prod.mk.injEq] at h
  rw [redirectOp?, h.1, h.2]
  exact RedirectOp.ofSpelling?_spelling op

/-- Only words leave something open. -/
theorem Token.isTerminated_of_ne_word {t : Token} (h : t.kind ≠ .word) : t.isTerminated :=
  isTerminated_iff.mpr fun hk => absurd hk h

/-- The first part of some tokens is a word, or a redirect operator and the word after it. -/
theorem Grammar.Item.exists_tokens {ts : List Token} {i : Item} {is : List Item}
    (h : ts.map Token.symbol = (i :: is).flatMap Item.yield) :
    (∃ raw t us, i = .word raw ∧ ts = t :: us ∧ t.symbol = (.word, raw) ∧
        us.map Token.symbol = is.flatMap Item.yield) ∨
      (∃ r t u us, i = .redir r ∧ ts = t :: u :: us ∧ t.symbol = (.redirect, r.op.spelling) ∧
        u.symbol = (.word, r.target) ∧ us.map Token.symbol = is.flatMap Item.yield) := by
  rw [List.flatMap_cons] at h
  cases i with
  | word raw =>
    obtain ⟨t, us, rfl, ht, hus⟩ := List.map_eq_cons_iff.mp h
    exact .inl ⟨raw, t, us, rfl, rfl, ht, hus⟩
  | redir r =>
    obtain ⟨t, us, rfl, ht, hus⟩ := List.map_eq_cons_iff.mp h
    obtain ⟨u, vs, rfl, hu, hvs⟩ := List.map_eq_cons_iff.mp hus
    exact .inr ⟨r, t, u, vs, rfl, rfl, ht, hu, hvs⟩

/-! ## Words -/

namespace Words

/-- Parentheses and what they enclose are passed over. -/
theorem collect_skip {depth : Nat} {t : Token} (pending : Option RedirectOp) (ts : List Token)
    (h : 0 < depth ∨ t.kind = .lparen ∨ t.kind = .rparen) :
    collect depth pending (t :: ts) = collect (depthAfter depth t.kind) pending ts := by
  rw [collect.eq_def]
  exact if_pos h

/-- A word that no redirect operator waits for is an argument. -/
theorem collect_word {t : Token} {raw : Text} (ts : List Token) (h : t.symbol = (.word, raw)) :
    collect 0 none (t :: ts) = (collect 0 none ts).addArg (Word.render raw) := by
  have hk : t.kind = .word := congrArg Prod.fst h
  rw [← Token.text_of_symbol h, collect.eq_def]
  simp [hk]

/-- A redirect operator takes the word after it as its target. -/
theorem collect_redir {t u : Token} {r : Redir} (ts : List Token)
    (ht : t.symbol = (.redirect, r.op.spelling)) (hu : u.symbol = (.word, r.target)) :
    collect 0 none (t :: u :: ts) = (collect 0 none ts).addRedirections [r.redirection] := by
  have hkt : t.kind = .redirect := congrArg Prod.fst ht
  have hku : u.kind = .word := congrArg Prod.fst hu
  have hop : collect 0 none (t :: u :: ts) = collect 0 (some r.op) (u :: ts) := by
    rw [collect.eq_def]
    simp [hkt, Token.redirectOp?_of_symbol ht, targetless, addRedirections]
  rw [hop, Redir.redirection, redirectionOf, ← onto_eq, ← Token.text_of_symbol hu, collect.eq_def]
  simp [hku]

/-- **Along the parts of a command** its words are collected as the grammar has them. -/
theorem collect_items {ts : List Token} {items : List Item}
    (h : ts.map Token.symbol = items.flatMap Item.yield) :
    collect 0 none ts = Item.words items := by
  induction items generalizing ts with
  | nil =>
    rw [List.flatMap_nil, List.map_eq_nil_iff] at h
    subst h
    rfl
  | cons i is ih =>
    rcases Item.exists_tokens h with ⟨raw, t, us, rfl, rfl, ht, hus⟩ |
      ⟨r, t, u, us, rfl, rfl, ht, hu, hus⟩
    · rw [collect_word us ht, ih hus]
      rfl
    · rw [collect_redir us ht hu, ih hus]
      rfl

/-- Tokens in parentheses are passed over. -/
theorem collect_inside {depth d : Nat} {ts : List Token} (us : List Token)
    (h : depth? depth (ts.map Token.kind) = some d) :
    collect (depth + 1) none (ts ++ us) = collect (d + 1) none us := by
  induction ts generalizing depth with
  | nil =>
    obtain rfl := Option.some.inj h
    rfl
  | cons t ts ih =>
    rw [List.map_cons, depth?] at h
    by_cases ht : t.kind = .rparen ∧ depth = 0
    · rw [if_pos ht] at h
      cases h
    · rw [if_neg ht] at h
      rw [List.cons_append, collect_skip _ _ (.inl (Nat.succ_pos _)), depthAfter_succ ht]
      exact ih h

/-- The words of a closed group are those behind it. -/
theorem collect_group {before after : List Token} {o c : Token} (ho : o.kind = .lparen)
    (hc : c.kind = .rparen) (h : depth? 0 (before.map Token.kind) = some 0) :
    collect 0 none (o :: (before ++ c :: after)) = collect 0 none after := by
  rw [collect_skip none _ (.inr (.inl ho)), ho]
  change collect 1 none _ = _
  rw [collect_inside (c :: after) h, collect_skip none _ (.inl Nat.one_pos), hc]
  rfl

end Words

/-! ## Issues -/

namespace Watch

/-! ### Runs -/

theorem run_cons (w : Watch) (t : Token) (ts : List Token) :
    w.run (t :: ts) = (w.issuesAt t ++ ((w.step t).run ts).1, ((w.step t).run ts).2) := rfl

/-- What is found along two lists of tokens is found along one and then along the other. -/
theorem run_append (w : Watch) (ts us : List Token) :
    w.run (ts ++ us) = ((w.run ts).1 ++ ((w.run ts).2.run us).1, ((w.run ts).2.run us).2) := by
  induction ts generalizing w with
  | nil => rfl
  | cons t ts ih => rw [List.cons_append, run_cons, ih, run_cons, List.append_assoc]

/-- No token raises an issue, and none is left at the end. -/
def Accepts (w : Watch) : List Token → Prop
  | [] => w.endIssues = []
  | t :: ts => w.issuesAt t = [] ∧ (w.step t).Accepts ts

theorem accepts_iff {w : Watch} {ts : List Token} :
    w.Accepts ts ↔ (w.run ts).1 ++ (w.run ts).2.endIssues = [] := by
  induction ts generalizing w with
  | nil => exact Iff.rfl
  | cons t ts ih =>
    rw [Accepts, ih, run_cons, List.append_assoc]
    exact List.append_eq_nil_iff.symm

/-- Only a word that leaves something open raises an issue for it. -/
theorem openEnd_eq_nil_iff {t : Token} : openEnd t = [] ↔ t.isTerminated := by
  rw [openEnd, Token.isTerminated]
  cases t.unclosed? with
  | none => simp
  | some u => cases u <;> simp

/-- The last token of a command leaves nothing open: in parentheses one of them would stay open. -/
theorem isTerminated_of_accepts_concat {w : Watch} {ts : List Token} {t : Token}
    (h : w.Accepts (ts ++ [t])) : t.isTerminated := by
  induction ts generalizing w with
  | nil =>
    obtain ⟨hissues, hend⟩ := h
    by_cases ht : t.kind = .word
    · -- a word closes no parenthesis, so one that is open would be left open
      have hopened : w.opened = [] := by
        have hopened := (List.append_eq_nil_iff.mp hend).2
        rw [List.map_eq_nil_iff, List.reverse_eq_nil_iff] at hopened
        simpa [step, openedAfter, ht] using hopened
      have htoken : w.tokenIssues t = [] := (List.append_eq_nil_iff.mp hissues).2
      rw [tokenIssues, ht, hopened] at htoken
      exact openEnd_eq_nil_iff.mp (List.append_eq_nil_iff.mp htoken).1
    · exact Token.isTerminated_of_ne_word ht
  | cons u us ih => exact ih h.2

/-! ### In parentheses -/

/-- A token in parentheses raises no issue, and changes nothing but the parentheses that stand
open. -/
theorem step_inside {w : Watch} {t : Token} {inner base : List Nat}
    (hopened : w.opened = inner ++ base) (hbase : base ≠ []) (hredirect : w.redirect = none)
    (h : ¬ (t.kind = .rparen ∧ inner.length = 0)) :
    w.issuesAt t = [] ∧ ∃ inner', inner'.length = depthAfter inner.length t.kind ∧
      w.step t = { w with opened := inner' ++ base } := by
  obtain ⟨opened, redirect, hasWords, afterGroup⟩ := w
  obtain rfl : opened = inner ++ base := hopened
  obtain rfl : redirect = none := hredirect
  -- the inner parentheses are those of the tokens seen, and only they may be closed
  cases hk : t.kind with
  | lparen =>
    refine ⟨?_, t.start :: inner, rfl, ?_⟩
    · simp [issuesAt, tokenIssues, hk, hbase]
    · simp [step, openedAfter, hk]
  | rparen =>
    obtain ⟨p, ps, rfl⟩ : ∃ p ps, inner = p :: ps := by
      refine List.exists_cons_of_ne_nil fun hnil => h ⟨hk, ?_⟩
      rw [hnil]
      rfl
    refine ⟨?_, ps, rfl, ?_⟩
    · simp [issuesAt, tokenIssues, hk]
    · simp [step, openedAfter, hk, hbase]
  | _ =>
    refine ⟨?_, inner, rfl, ?_⟩
    · simp [issuesAt, tokenIssues, hk, hbase]
    · simp [step, openedAfter, hk, hbase]

/-- **Along tokens in parentheses** that stay open there is no issue. Behind them the innermost
parentheses are those that the tokens leave open. -/
theorem run_inside {w : Watch} {ts : List Token} {inner base : List Nat} {d : Nat}
    (hopened : w.opened = inner ++ base) (hbase : base ≠ []) (hredirect : w.redirect = none)
    (h : depth? inner.length (ts.map Token.kind) = some d) :
    ∃ inner', inner'.length = d ∧ w.run ts = ([], { w with opened := inner' ++ base }) := by
  induction ts generalizing w inner with
  | nil =>
    refine ⟨inner, Option.some.inj h, ?_⟩
    rw [← hopened]
    rfl
  | cons t ts ih =>
    rw [List.map_cons, depth?] at h
    by_cases ht : t.kind = .rparen ∧ inner.length = 0
    · rw [if_pos ht] at h
      cases h
    · rw [if_neg ht] at h
      obtain ⟨hissues, inner₁, hlength, hstep⟩ := step_inside hopened hbase hredirect ht
      rw [← hlength] at h
      obtain ⟨inner₂, hd, hrun⟩ := ih (w := { w with opened := inner₁ ++ base }) rfl hredirect h
      refine ⟨inner₂, hd, ?_⟩
      rw [run_cons, hissues, hstep, hrun]
      rfl

/-- What is known of a command behind its opening parenthesis. -/
def inGroup (o : Token) : Watch := ⟨[o.start], none, false, false⟩

theorem inGroup_opened (o : Token) : (inGroup o).opened = [] ++ [o.start] := rfl

/-- What is known of a command outside parentheses, where no operator waits for its target. -/
def outside (hasWords afterGroup : Bool) : Watch := ⟨[], none, hasWords, afterGroup⟩

/-- A command that starts with an opening parenthesis goes on inside it. -/
theorem run_open {o : Token} (ts : List Token) (ho : o.kind = .lparen) :
    start.run (o :: ts) = (inGroup o).run ts := by
  have hissues : start.issuesAt o = [] := by
    simp [issuesAt, tokenIssues, start, ho]
  have hstep : start.step o = inGroup o := by
    simp [step, openedAfter, start, inGroup, ho]
  rw [run_cons, hissues, hstep]
  rfl

/-- **Along a closed group** there is no issue, and what is known behind it is that it was one. -/
theorem run_group {before : List Token} {o c : Token} (after : List Token) (ho : o.kind = .lparen)
    (hc : c.kind = .rparen) (h : depth? 0 (before.map Token.kind) = some 0) :
    start.run (o :: (before ++ c :: after)) = (outside false true).run after := by
  have hissues : (inGroup o).issuesAt c = [] := by
    simp [issuesAt, tokenIssues, inGroup, hc]
  have hstep : (inGroup o).step c = outside false true := by
    simp [step, openedAfter, inGroup, outside, hc]
  obtain ⟨inner, hlength, hinside⟩ :=
    run_inside (inGroup_opened o) (List.cons_ne_nil _ _) rfl h
  obtain rfl : inner = [] := List.eq_nil_of_length_eq_zero hlength
  change (inGroup o).run before = ([], inGroup o) at hinside
  rw [run_open _ ho, run_append, hinside, run_cons, hissues, hstep]
  rfl

/-- **A group that is not closed** raises no issue at its tokens, and its first parenthesis stands
open at the end. -/
theorem run_unclosed {ts : List Token} {o : Token} (ho : o.kind = .lparen)
    (h : closing? 0 ts = none) :
    ∃ inner, start.run (o :: ts) = ([], ⟨inner ++ [o.start], none, false, false⟩) := by
  obtain ⟨d, hd⟩ := closing?_eq_none_iff.mp h
  obtain ⟨inner, -, hinside⟩ := run_inside (inGroup_opened o) (List.cons_ne_nil _ _) rfl hd
  refine ⟨inner, ?_⟩
  rw [run_open _ ho, hinside]
  rfl

theorem accepts_group {before after : List Token} {o c : Token} (ho : o.kind = .lparen)
    (hc : c.kind = .rparen) (h : depth? 0 (before.map Token.kind) = some 0) :
    start.Accepts (o :: (before ++ c :: after)) ↔ (outside false true).Accepts after := by
  rw [accepts_iff, accepts_iff, run_group after ho hc h]

/-- A group that is not closed leaves an issue at the end. -/
theorem not_accepts_unclosed {ts : List Token} {o : Token} (ho : o.kind = .lparen)
    (h : closing? 0 ts = none) : ¬ start.Accepts (o :: ts) := by
  obtain ⟨inner, hrun⟩ := run_unclosed ho h
  rw [accepts_iff, hrun]
  simp [endIssues]

/-! ### Outside parentheses -/

/-- A word outside parentheses must leave nothing open, and is an argument: none may stand behind a
group. -/
theorem accepts_word {hasWords afterGroup : Bool} {t : Token} (ts : List Token)
    (ht : t.kind = .word) :
    (outside hasWords afterGroup).Accepts (t :: ts) ↔
      (t.isTerminated ∧ afterGroup = false) ∧ (outside true afterGroup).Accepts ts := by
  have hissues : (outside hasWords afterGroup).issuesAt t = [] ↔
      t.isTerminated ∧ afterGroup = false := by
    rw [← openEnd_eq_nil_iff]
    simp [issuesAt, tokenIssues, outside, ht]
  have hstep : (outside hasWords afterGroup).step t = outside true afterGroup := by
    simp [step, openedAfter, outside, ht]
  rw [Accepts, hissues, hstep]

/-- A redirect operator outside parentheses must have a word behind it, which is no argument. -/
theorem accepts_redirect {hasWords afterGroup : Bool} {t : Token} (ts : List Token)
    (ht : t.kind = .redirect) :
    (outside hasWords afterGroup).Accepts (t :: ts) ↔
      ∃ u us, ts = u :: us ∧ u.kind = .word ∧ u.isTerminated ∧
        (outside hasWords afterGroup).Accepts us := by
  have hissues : (outside hasWords afterGroup).issuesAt t = [] := by
    simp [issuesAt, tokenIssues, outside, ht]
  have hstep : (outside hasWords afterGroup).step t = ⟨[], some t, hasWords, afterGroup⟩ := by
    simp [step, openedAfter, outside, ht]
  rw [Accepts, hstep, and_iff_right hissues]
  cases ts with
  | nil =>
    -- the operator still waits for its target
    simp [Accepts, endIssues]
  | cons u us =>
    have htarget : (Watch.mk [] (some t) hasWords afterGroup).issuesAt u = [] ↔
        u.kind = .word ∧ u.isTerminated := by
      rw [← openEnd_eq_nil_iff]
      by_cases hu : u.kind = .word
      · simp [issuesAt, tokenIssues, hu]
      · simp [issuesAt, hu]
    rw [Accepts, htarget]
    constructor
    · rintro ⟨⟨hu, hterminated⟩, hrest⟩
      refine ⟨u, us, rfl, hu, hterminated, ?_⟩
      simpa [step, openedAfter, outside, hu] using hrest
    · rintro ⟨u', us', heq, hu, hterminated, hrest⟩
      obtain ⟨rfl, rfl⟩ := List.cons.inj heq
      refine ⟨⟨hu, hterminated⟩, ?_⟩
      simpa [step, openedAfter, outside, hu] using hrest

/-- Outside parentheses no closing one may stand, and no opening one behind a group. -/
theorem not_accepts_paren {hasWords afterGroup : Bool} {t : Token} (ts : List Token)
    (ht : t.kind = .rparen ∨ t.kind = .lparen ∧ afterGroup = true) :
    ¬ (outside hasWords afterGroup).Accepts (t :: ts) := by
  rintro ⟨hissues, -⟩
  rcases ht with ht | ⟨ht, rfl⟩
  · simp [issuesAt, tokenIssues, outside, ht] at hissues
  · simp [issuesAt, tokenIssues, outside, ht] at hissues

/-- **The parts of a command are accepted.** Behind a group they must be redirections. -/
theorem accepts_items {ts : List Token} {items : List Item} {hasWords afterGroup : Bool}
    (h : ts.map Token.symbol = items.flatMap Item.yield) (hterminated : ∀ t ∈ ts, t.isTerminated)
    (hbeside : afterGroup = true → ∀ raw, .word raw ∉ items) :
    (outside hasWords afterGroup).Accepts ts := by
  induction items generalizing ts hasWords with
  | nil =>
    rw [List.flatMap_nil, List.map_eq_nil_iff] at h
    subst h
    rfl
  | cons i is ih =>
    have hbeside_tail : afterGroup = true → ∀ raw, Item.word raw ∉ is :=
      fun ha raw hmem => hbeside ha raw (List.mem_cons_of_mem _ hmem)
    rcases Item.exists_tokens h with ⟨raw, t, us, rfl, rfl, ht, hus⟩ |
      ⟨r, t, u, us, rfl, rfl, ht, hu, hus⟩
    · rw [List.forall_mem_cons] at hterminated
      have hbefore : afterGroup = false := by
        rw [← Bool.not_eq_true]
        exact fun ha => hbeside ha raw List.mem_cons_self
      refine (accepts_word us (congrArg Prod.fst ht)).mpr ⟨⟨hterminated.1, hbefore⟩, ?_⟩
      exact ih hus hterminated.2 hbeside_tail
    · rw [List.forall_mem_cons, List.forall_mem_cons] at hterminated
      refine (accepts_redirect (u :: us) (congrArg Prod.fst ht)).mpr
        ⟨u, us, rfl, congrArg Prod.fst hu, hterminated.2.1, ?_⟩
      exact ih hus hterminated.2.2 hbeside_tail

/-- Tokens of a command from outside parentheses on: no operator of any level stands among them
outside parentheses, every redirect token spells an operator, and an opening parenthesis stands
neither right behind a word nor, if no group has been closed, at the front. -/
structure Plain (afterGroup : Bool) (ts : List Token) : Prop where
  /-- no operator stands outside parentheses -/
  free : ∀ level : Level, Undivided level.delimiters 0 (ts.map Token.kind)
  /-- redirect tokens spell operators -/
  spelled : ∀ t ∈ ts, t.kind = .redirect → ∃ op : RedirectOp, t.raw = op.spelling
  /-- no parenthesis is opened right behind a word -/
  detached : Detached (ts.map Token.kind)
  /-- none is opened at the front if no group has been closed -/
  first : afterGroup = true ∨ ∀ t ∈ ts.head?, t.kind ≠ .lparen

namespace Plain

variable {afterGroup : Bool} {t : Token} {ts : List Token}

/-- What is behind a word. -/
theorem tail (h : Plain afterGroup (t :: ts)) (ht : t.kind = .word) : Plain afterGroup ts := by
  obtain ⟨hbehind, hdetached⟩ := detached_cons.mp h.detached
  refine ⟨fun level => ?_, (List.forall_mem_cons.mp h.spelled).2, hdetached, .inr fun u hu => ?_⟩
  · have hlevel := (h.free level).2
    rw [ht] at hlevel
    exact hlevel
  · refine hbehind ht u.kind ?_
    rw [List.head?_map]
    exact Option.mem_map_of_mem _ hu

/-- What is behind a redirect operator and a word. -/
theorem tail_redirect {u : Token} (h : Plain afterGroup (t :: u :: ts)) (ht : t.kind = .redirect)
    (hu : u.kind = .word) : Plain afterGroup ts := by
  have hrest : Plain afterGroup (u :: ts) := by
    refine ⟨fun level => ?_, (List.forall_mem_cons.mp h.spelled).2,
      (detached_cons.mp h.detached).2, .inr fun v hv => ?_⟩
    · have hlevel := (h.free level).2
      rw [ht] at hlevel
      exact hlevel
    · obtain rfl := Option.some.inj hv
      rw [hu]
      decide
  exact hrest.tail hu

/-- The first token is a word, a redirect operator or a parenthesis. -/
theorem head (h : Plain afterGroup (t :: ts)) :
    t.kind = .word ∨ t.kind = .redirect ∨ t.kind = .rparen ∨
      t.kind = .lparen ∧ afterGroup = true := by
  rcases kind_of_undivided h.free with ht | ht | ht | ht
  · exact .inl ht
  · exact .inr (.inl ht)
  · rcases h.first with hafter | hfirst
    · exact .inr (.inr (.inr ⟨ht, hafter⟩))
    · exact absurd ht (hfirst t rfl)
  · exact .inr (.inr (.inl ht))

end Plain

/-- **What is accepted are the parts of a command**, and behind a group they are redirections. -/
theorem exists_items {ts : List Token} {hasWords afterGroup : Bool}
    (h : (outside hasWords afterGroup).Accepts ts) (hplain : Plain afterGroup ts) :
    ∃ items : List Item, items.flatMap Item.yield = ts.map Token.symbol ∧
      (afterGroup = true → ∀ raw, .word raw ∉ items) := by
  -- a redirect operator takes its target along, so the induction is on the number of tokens
  induction hn : ts.length using Nat.strongRecOn generalizing ts hasWords with
  | ind n ih =>
    subst hn
    cases ts with
    | nil => exact ⟨[], rfl, fun _ _ => List.not_mem_nil⟩
    | cons t us =>
      rcases hplain.head with ht | ht | hparen
      · obtain ⟨⟨-, hbefore⟩, hrest⟩ := (accepts_word us ht).mp h
        obtain ⟨items, hyield, -⟩ := ih _ (Nat.lt_succ_self _) hrest (hplain.tail ht) rfl
        refine ⟨.word t.raw :: items, ?_, ?_⟩
        · rw [List.flatMap_cons, hyield, List.map_cons, Token.symbol, ht]
          rfl
        · intro hafter
          rw [hbefore] at hafter
          cases hafter
      · obtain ⟨u, vs, rfl, hu, -, hrest⟩ := (accepts_redirect us ht).mp h
        obtain ⟨op, hop⟩ := hplain.spelled t List.mem_cons_self ht
        have hlt : vs.length < (t :: u :: vs).length := Nat.lt_succ_of_lt (Nat.lt_succ_self _)
        obtain ⟨items, hyield, hredirs⟩ := ih _ hlt hrest (hplain.tail_redirect ht hu) rfl
        refine ⟨.redir ⟨op, u.raw⟩ :: items, ?_, ?_⟩
        · rw [List.flatMap_cons, hyield, List.map_cons, List.map_cons, Token.symbol, Token.symbol,
            ht, hu, hop]
          rfl
        · intro hafter raw hmem
          rcases List.mem_cons.mp hmem with heq | hmem
          · cases heq
          · exact hredirs hafter raw hmem
      · exact absurd h (not_accepts_paren us hparen)

end Watch

end CommandLine
