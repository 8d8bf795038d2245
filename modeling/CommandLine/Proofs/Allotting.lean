import CommandLine.Proofs.Targets

/-!
# Arguments and targets

Outside of parentheses every word is either an argument or the target of the redirect operator
before it, and every redirect operator is a redirection. What stands in parentheses is not read at
all, and neither are the parentheses.

* `Words.outside` — the tokens outside of parentheses.
* `Words.collect_outside` — nothing but these is read.
* `Interleaved` — the elements of two lists in one, in the order of each.
* `Words.Takes` — the word that a redirect operator takes, or that there is none for it.
* `Words.exists_arguments` — what no operator takes are the arguments.
* `Region.words_allotted` — the words of a region.
-/

namespace CommandLine

/-- The elements of two lists, each in its order and each once, are those of a third one. -/
inductive Interleaved {α : Type} : List α → List α → List α → Prop where
  /-- there are none -/
  | nil : Interleaved [] [] []
  /-- the first is the first of the left list -/
  | left {a : α} {xs ys zs : List α} (rest : Interleaved xs ys zs) :
      Interleaved (a :: xs) ys (a :: zs)
  /-- the first is the first of the right list -/
  | right {a : α} {xs ys zs : List α} (rest : Interleaved xs ys zs) :
      Interleaved xs (a :: ys) (a :: zs)

namespace Words

/-- The tokens outside of parentheses that are no parentheses. -/
def outside : Nat → List Token → List Token
  | _, [] => []
  | depth, t :: ts =>
    if 0 < depth ∨ t.kind = .lparen ∨ t.kind = .rparen then outside (nestingAfter depth t) ts
    else t :: outside depth ts

/-- What a redirect operator among some tokens takes as its target. -/
inductive Takes (ts : List Token) (t : Token) : Option Token → Prop where
  /-- the word that comes first behind it, if parentheses are passed over -/
  | word {before between after : List Token} {u : Token}
      (place : ts = before ++ t :: (between ++ u :: after))
      (depth : nesting before = 0)
      (passed : outside 0 between = [])
      (depth_between : nesting between = 0)
      (kind : u.kind = .word) : Takes ts t (some u)
  /-- nothing, if no word comes first -/
  | nothing {before after : List Token}
      (place : ts = before ++ t :: after)
      (depth : nesting before = 0)
      (first : ∀ u ∈ (outside 0 after).head?, u.kind ≠ .word) : Takes ts t none

/-- A redirection is the operator of a redirect token, does what its characters say, and goes to
what the target stands for. -/
structure Applied (t : Token) (target : Option Token) (x : Redirection) : Prop where
  /-- the operator is that of the token -/
  op : t.redirectOp? = some x.op
  /-- the stream is the one that the characters name -/
  fd : x.fd = Grammar.streamOf t.raw
  /-- the target is added to if the characters say so -/
  append : x.append = Grammar.appendsOf t.raw
  /-- the target is a word's text -/
  target : target.map Token.text = x.target

/-! ## Tokens outside of parentheses -/

section

variable {depth : Nat} {t u : Token} {ts : List Token}

theorem outside_skip (ts : List Token) (h : 0 < depth ∨ t.kind = .lparen ∨ t.kind = .rparen) :
    outside depth (t :: ts) = outside (depthAfter depth t.kind) ts := by
  rw [outside, if_pos h, nestingAfter_eq]

theorem outside_cons (ts : List Token) (hopen : t.kind ≠ .lparen) (hclose : t.kind ≠ .rparen) :
    outside 0 (t :: ts) = t :: outside 0 ts := by
  rw [outside, if_neg]
  rintro (hpos | h | h)
  exacts [Nat.lt_irrefl 0 hpos, hopen h, hclose h]

theorem firstOutside_eq_head? (depth : Nat) (ts : List Token) :
    firstOutside depth ts = (outside depth ts).head? := by
  induction ts generalizing depth with
  | nil => rfl
  | cons t ts ih =>
    rw [firstOutside, outside, nestingAfter_eq]
    split
    · exact ih _
    · rfl

/-- The redirect operators are among these tokens. -/
theorem map_fst_redirects (depth : Nat) (ts : List Token) :
    (redirects depth ts).map Prod.fst =
      (outside depth ts).filter fun t => t.kind = .redirect := by
  induction ts generalizing depth with
  | nil => rfl
  | cons t ts ih =>
    rcases passed_or_outside depth t with hpassed | ⟨rfl, hopen, hclose⟩
    · rw [redirects_skip ts hpassed, outside_skip ts hpassed, ih]
    · rw [outside_cons ts hopen hclose]
      by_cases hk : t.kind = .redirect
      · rw [redirects_cons ts hk, List.map_cons, ih, List.filter_cons_of_pos (by simpa using hk)]
      · rw [redirects_cons_of_ne ts hopen hk, ih, List.filter_cons_of_neg (by simpa using hk)]

/-- Each of them stands outside of parentheses, with the tokens behind it. -/
theorem exists_before_of_mem_redirects {p : Token × List Token} (h : p ∈ redirects depth ts) :
    ∃ before, ts = before ++ p.1 :: p.2 ∧ depthAlong depth (before.map Token.kind) = 0 := by
  induction ts generalizing depth with
  | nil => cases h
  | cons t ts ih =>
    rw [redirects] at h
    split at h
    · next ht =>
      rcases List.mem_cons.mp h with rfl | h
      · exact ⟨[], rfl, ht.1⟩
      · obtain ⟨before, rfl, hdepth⟩ := ih h
        refine ⟨t :: before, rfl, ?_⟩
        rw [List.map_cons, depthAlong_cons, ht.2]
        exact hdepth
    · obtain ⟨before, rfl, hdepth⟩ := ih h
      exact ⟨t :: before, rfl, hdepth⟩

/-- The first token outside of parentheses stands behind some that are passed over. -/
theorem exists_between_of_firstOutside (h : firstOutside depth ts = some u) :
    ∃ between after, ts = between ++ u :: after ∧ outside depth between = [] ∧
      depthAlong depth (between.map Token.kind) = 0 := by
  induction ts generalizing depth with
  | nil => cases h
  | cons t ts ih =>
    rw [firstOutside] at h
    split at h
    · next hpassed =>
      obtain ⟨between, after, rfl, hbetween, hdepth⟩ := ih h
      refine ⟨t :: between, after, rfl, ?_, hdepth⟩
      rw [outside_skip between hpassed, hbetween]
    · next houtside =>
      obtain rfl := Option.some.inj h
      exact ⟨[], ts, rfl, rfl, Nat.eq_zero_of_not_pos fun hpos => houtside (.inl hpos)⟩

/-- The word that an operator in front of some tokens takes. -/
def awaited? (depth : Nat) (ts : List Token) : Option Token :=
  (firstOutside depth ts).filter fun u => u.kind = .word

theorem awaited?_skip (ts : List Token) (h : 0 < depth ∨ t.kind = .lparen ∨ t.kind = .rparen) :
    awaited? depth (t :: ts) = awaited? (depthAfter depth t.kind) ts := by
  rw [awaited?, firstOutside, if_pos h, awaited?]

theorem awaited?_of_word (ts : List Token) (h : t.kind = .word) :
    awaited? 0 (t :: ts) = some t := by
  rw [awaited?, firstOutside_of_word ts h]
  exact Option.filter_some_pos (by simpa using h)

theorem awaited?_eq_none (ts : List Token) (hopen : t.kind ≠ .lparen) (hclose : t.kind ≠ .rparen)
    (h : t.kind ≠ .word) : awaited? 0 (t :: ts) = none := by
  rw [awaited?, firstOutside_eq_head?, outside_cons ts hopen hclose, List.head?_cons]
  exact Option.filter_some_neg (by simpa using h)

/-- Its text is the target. -/
theorem map_text_awaited? (p : Token × List Token) :
    (awaited? 0 p.2).map Token.text = reached? p := by
  rw [awaited?, reached?]
  cases firstOutside 0 p.2 with
  | none => rfl
  | some u =>
    by_cases hk : u.kind = .word
    · rw [Option.filter_some_pos (by simpa using hk), Option.bind_some, Token.word?_eq_some hk,
        Option.map_some]
    · rw [Option.filter_some_neg (by simpa using hk), Option.bind_some, Token.word?_eq_none hk,
        Option.map_none]

/-- An operator takes this word. -/
theorem takes_of_mem_redirects {p : Token × List Token} (h : p ∈ redirects 0 ts) :
    Takes ts p.1 (awaited? 0 p.2) := by
  obtain ⟨before, hplace, hdepth⟩ := exists_before_of_mem_redirects h
  rw [← nesting_eq] at hdepth
  cases hu : awaited? 0 p.2 with
  | none =>
    refine .nothing hplace hdepth fun u hfirst hk => ?_
    rw [← firstOutside_eq_head?] at hfirst
    rw [awaited?, Option.filter_eq_none_iff] at hu
    exact hu u hfirst (by simpa using hk)
  | some u =>
    rw [awaited?, Option.filter_eq_some_iff] at hu
    obtain ⟨between, after, hbehind, hpassed, hdepth'⟩ := exists_between_of_firstOutside hu.1
    rw [hbehind] at hplace
    rw [← nesting_eq] at hdepth'
    exact .word hplace hdepth hpassed hdepth' (by simpa using hu.2)

end

/-! ## What is read -/

/-- **Nothing is read but the tokens outside of parentheses.** -/
theorem collect_outside (depth : Nat) (pending : Option RedirectOp) (ts : List Token) :
    collect depth pending ts = collect 0 pending (outside depth ts) := by
  induction ts generalizing depth pending with
  | nil => rfl
  | cons t ts ih =>
    rcases passed_or_outside depth t with hpassed | ⟨rfl, hopen, hclose⟩
    · rw [collect_skip pending ts hpassed, ih, outside_skip ts hpassed]
    · rw [outside_cons ts hopen hclose, collect_cons pending ts hopen hclose,
        collect_cons pending (outside 0 ts) hopen hclose, ← ih]

/-- **What no operator takes are the arguments.** The words outside of parentheses are these and
those that the operators take: the one that waits, and those among the tokens. -/
theorem exists_arguments {ts : List Token}
    (hspelled : ∀ t ∈ ts, t.kind = .redirect → ∃ op, t.redirectOp? = some op) (depth : Nat)
    (pending : Option RedirectOp) :
    ∃ args, (collect depth pending ts).args = args.map Token.text ∧
      Interleaved args
        ((pending.bind fun _ => awaited? depth ts).toList ++
          (redirects depth ts).filterMap fun p => awaited? 0 p.2)
        ((outside depth ts).filter fun t => t.kind = .word) := by
  induction ts generalizing depth pending with
  | nil =>
    refine ⟨[], rfl, ?_⟩
    cases pending <;> exact .nil
  | cons t ts ih =>
    obtain ⟨ht, hts⟩ := List.forall_mem_cons.mp hspelled
    rcases passed_or_outside depth t with hpassed | ⟨rfl, hopen, hclose⟩
    · obtain ⟨args, hargs, hwords⟩ := ih hts (depthAfter depth t.kind) pending
      refine ⟨args, ?_, ?_⟩
      · rw [collect_skip pending ts hpassed, hargs]
      · rw [redirects_skip ts hpassed, outside_skip ts hpassed, awaited?_skip ts hpassed]
        exact hwords
    · obtain ⟨args, hargs, hwords⟩ := ih hts 0 t.redirectOp?
      rw [collect_cons pending ts hopen hclose, outside_cons ts hopen hclose, hargs]
      by_cases hword : t.kind = .word
      · -- a word is taken by the operator that waits, if one does
        have hk : t.kind ≠ .redirect := by
          rw [hword]
          decide
        rw [redirectOp?_eq_none hk, Option.bind_none, Option.toList_none, List.nil_append] at hwords
        rw [redirects_cons_of_ne ts hopen hk, awaited?_of_word ts hword, Token.word?_eq_some hword,
          List.filter_cons_of_pos (by simpa using hword)]
        cases pending with
        | none => exact ⟨t :: args, rfl, hwords.left⟩
        | some op => exact ⟨args, rfl, hwords.right⟩
      · -- of another token nothing is read but the operator that waits behind it
        rw [awaited?_eq_none ts hopen hclose hword, Option.bind_fun_none, Option.toList_none,
          List.nil_append, Token.word?_eq_none hword,
          List.filter_cons_of_neg (by simpa using hword)]
        refine ⟨args, by rw [Option.toList_none, ite_self, List.nil_append], ?_⟩
        by_cases hk : t.kind = .redirect
        · obtain ⟨op, hop⟩ := ht hk
          rw [hop, Option.bind_some] at hwords
          rw [redirects_cons ts hk]
          cases hu : awaited? 0 ts <;> simpa [hu] using hwords
        · rw [redirectOp?_eq_none hk, Option.bind_none, Option.toList_none,
            List.nil_append] at hwords
          rw [redirects_cons_of_ne ts hopen hk]
          exact hwords

end Words

/-! ## Regions -/

namespace Region

/-- The redirections of a region, operator by operator. -/
theorem forall₂_redirections_words (r : Region) :
    List.Forall₂ (fun p x => Words.Applied p.1 (Words.awaited? 0 p.2) x)
      (Words.redirects 0 r.tokens) r.words.redirections := by
  rw [redirections_words]
  have hop : ∀ p ∈ Words.redirects 0 r.tokens, ∃ op, p.1.redirectOp? = some op ∧
      op.spelling = p.1.raw := by
    intro p hp
    obtain ⟨ht, hk⟩ := Words.mem_of_mem_redirects hp
    exact Token.exists_redirectOp ht hk
  generalize Words.redirects 0 r.tokens = ps at hop
  induction ps with
  | nil => exact .nil
  | cons p ps ih =>
    obtain ⟨⟨op, hp, hspelling⟩, hps⟩ := List.forall_mem_cons.mp hop
    have hhead : Words.redirection? Words.reached? p = some (op.onto (Words.reached? p)) := by
      rw [Words.redirection?, hp, Option.map_some]
    have happlied : Words.Applied p.1 (Words.awaited? 0 p.2) (op.onto (Words.reached? p)) := by
      rw [Grammar.onto_eq, hspelling]
      exact ⟨hp, rfl, rfl, Words.map_text_awaited? p⟩
    rw [List.filterMap_cons_some hhead]
    exact .cons happlied (ih hps)

/-- **Every word once.** Only the tokens of a region outside of parentheses are read. The words
among them are the arguments and the targets, each in the order of the tokens, and the redirect
operators are the redirections. Each operator takes the word that comes first behind it when
parentheses are passed over, if one does. -/
theorem words_allotted (r : Region) :
    r.words = Words.collect 0 none (Words.outside 0 r.tokens) ∧
    ∃ (args : List Token) (redirs : List (Token × Option Token)),
      Interleaved args (redirs.filterMap Prod.snd)
        ((Words.outside 0 r.tokens).filter fun t => t.kind = .word) ∧
      r.words.args = args.map Token.text ∧
      redirs.map Prod.fst = ((Words.outside 0 r.tokens).filter fun t => t.kind = .redirect) ∧
      List.Forall₂ (fun p x => Words.Applied p.1 p.2 x) redirs r.words.redirections ∧
      ∀ p ∈ redirs, Words.Takes r.tokens p.1 p.2 := by
  have hspelled : ∀ t ∈ r.tokens, t.kind = .redirect → ∃ op, t.redirectOp? = some op := by
    intro t ht hk
    obtain ⟨op, hop, -⟩ := Token.exists_redirectOp ht hk
    exact ⟨op, hop⟩
  obtain ⟨args, hargs, hwords⟩ := Words.exists_arguments hspelled 0 none
  refine ⟨Words.collect_outside 0 none r.tokens, args,
    (Words.redirects 0 r.tokens).map fun p => (p.1, Words.awaited? 0 p.2), ?_, hargs, ?_, ?_, ?_⟩
  · rw [List.filterMap_map]
    exact hwords
  · rw [List.map_map]
    exact Words.map_fst_redirects 0 r.tokens
  · rw [List.forall₂_map_left_iff]
    exact r.forall₂_redirections_words
  · rw [List.forall_mem_map]
    exact fun p hp => Words.takes_of_mem_redirects hp

/-- **A target behind a group**: the operator takes the word behind the parentheses, and the word in
them is neither an argument nor a target. -/
theorem words_allotted_around_group :
    (Region.ofText "> (a) f b".toList).words =
        ⟨["b".toList], [⟨.write, 1, false, some "f".toList⟩]⟩ ∧
      ∃ t u, t.redirectOp? = some .write ∧ u.text = "f".toList ∧
        Words.Takes (Region.ofText "> (a) f b".toList).tokens t (some u) := by
  have hwords : (Region.ofText "> (a) f b".toList).words =
      ⟨["b".toList], [⟨.write, 1, false, some "f".toList⟩]⟩ := by
    decide +kernel
  refine ⟨hwords, ?_⟩
  obtain ⟨-, args, redirs, -, -, -, hredirs, htakes⟩ :=
    words_allotted (Region.ofText "> (a) f b".toList)
  rw [hwords] at hredirs
  obtain ⟨p, rest, happlied, -, rfl⟩ := List.forall₂_cons_right_iff.mp hredirs
  obtain ⟨u, hu, htext⟩ := Option.map_eq_some_iff.mp happlied.target
  have hp := htakes p List.mem_cons_self
  rw [hu] at hp
  exact ⟨p.1, u, happlied.op, htext, hp⟩

end Region

end CommandLine
