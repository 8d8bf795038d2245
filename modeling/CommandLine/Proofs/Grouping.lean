import CommandLine.Level
import CommandLine.Proofs.Division

/-!
# Groups

A region is a group if its first token is an opening parenthesis. The parenthesis that closes it is
the first one behind which as many are closed as opened; without one the group takes the whole
region.

* `Region.Opening` — the opening parenthesis that a region starts with.
* `Region.Closing` — the parenthesis that closes it.
* `Region.exists_opening` — the body of a group, between the two or up to the end.
* `Region.line_induction` — what holds of a region if it holds of the bodies of its groups holds of
  every region.
-/

namespace CommandLine

namespace Region

/-- The opening parenthesis that a region starts with. -/
structure Opening (r : Region) extends Split r where
  /-- nothing stands before it -/
  first : before = []
  /-- it is an opening parenthesis -/
  opens : token.kind = .lparen

/-- The parenthesis that closes a group. -/
structure Closing {r : Region} (o : Opening r) extends Split o.right where
  /-- as many parentheses are opened before it as are closed -/
  balanced : depth? 0 (before.map Token.kind) = some 0
  /-- it is a closing parenthesis -/
  closes : token.kind = .rparen

variable {r : Region}

/-- No operator between segments is a parenthesis. -/
theorem Cut.kind_ne_paren {level : Level} (c : Cut level.delimiters r) :
    c.token.kind ≠ .lparen ∧ c.token.kind ≠ .rparen := by
  have hne : ∀ k ∈ level.delimiters, k ≠ .lparen ∧ k ≠ .rparen := by
    cases level <;> decide
  exact hne _ c.kind_mem

namespace Opening

variable (o : Opening r)

theorem tokens_eq_cons : r.tokens = o.token :: o.right.tokens := by
  rw [o.tokens_eq_append, o.tokens_left, o.first, List.nil_append]

theorem raw_eq : o.token.raw = ['('] := by
  rw [o.raw_token (by rw [o.opens]; rfl), o.opens]
  rfl

theorem text_eq_append : r.text = o.left.text ++ '(' :: o.right.text := by
  rw [o.text_eq, o.raw_eq, List.append_assoc]
  rfl

/-- The first token of a region that starts with a parenthesis is the parenthesis. -/
theorem firstToken_eq : r.firstToken = o.token := by
  have htokens := r.tokens_eq
  rw [o.tokens_eq_cons] at htokens
  split at htokens
  · cases htokens
  · rw [List.cons.injEq] at htokens
    exact htokens.1.symm

theorem afterFirst_eq : r.afterFirst = o.right :=
  eq_of_bounds rfl (congrArg Token.stop o.firstToken_eq) rfl rfl

/-- The body of a closed group lies between the parentheses. -/
theorem groupBody?_of_closing (c : Closing o) : r.groupBody? = some c.left.closed := by
  have hclosing : closing? 0 r.afterFirst.tokens = some c.token := by
    rw [o.afterFirst_eq, c.tokens_eq]
    exact closing?_append c.balanced c.closes
  rw [groupBody?, if_pos (o.firstToken_eq ▸ o.opens)]
  split
  · next t ht =>
    rw [hclosing, Option.some.injEq] at ht
    subst ht
    rw [Option.some.injEq]
    exact eq_of_bounds rfl (congrArg Token.stop o.firstToken_eq) rfl rfl
  · next ht => rw [hclosing] at ht; cases ht

/-- The body of a group that is not closed takes the rest of the region. -/
theorem groupBody?_of_unclosed (h : closing? 0 o.right.tokens = none) :
    r.groupBody? = some o.right := by
  rw [groupBody?, if_pos (o.firstToken_eq ▸ o.opens)]
  rw [← o.afterFirst_eq] at h
  split
  · next t ht => rw [h] at ht; cases ht
  · rw [o.afterFirst_eq]

end Opening

namespace Closing

variable {o : Opening r} (c : Closing o)

/-- What a group encloses closes every parenthesis that it opens, and no other. -/
theorem depth?_left : depth? 0 c.left.kinds = some 0 := by
  rw [kinds, c.tokens_left]
  exact c.balanced

/-- The tokens of a group that is closed. -/
theorem tokens_eq_group : r.tokens = o.token :: (c.left.tokens ++ c.token :: c.right.tokens) := by
  rw [o.tokens_eq_cons, c.tokens_eq_append]

theorem raw_eq : c.token.raw = [')'] := by
  rw [c.raw_token (by rw [c.closes]; rfl), c.closes]
  rfl

theorem text_eq_append : o.right.text = c.left.text ++ ')' :: c.right.text := by
  rw [c.text_eq, c.raw_eq, List.append_assoc]
  rfl

end Closing

/-- Where a group is closed there is a parenthesis that closes it. -/
theorem exists_closing {o : Opening r} {t : Token}
    (h : closing? 0 o.right.tokens = some t) : ∃ c : Closing o, c.token = t := by
  obtain ⟨before, after, htokens, hbalanced, ht⟩ := closing?_eq_some h
  exact ⟨⟨⟨before, t, after, htokens⟩, hbalanced, ht⟩, rfl⟩

/-- Only a region that starts with an opening parenthesis is a group. -/
theorem exists_opening_of_firstToken (h : r.firstToken.kind = .lparen) : Nonempty (Opening r) := by
  have htokens := r.tokens_eq
  rw [if_neg (by rw [h]; decide)] at htokens
  exact ⟨⟨[], r.firstToken, r.afterFirst.tokens, htokens⟩, rfl, h⟩

theorem groupBody?_eq_none_iff : r.groupBody? = none ↔ IsEmpty (Opening r) := by
  constructor
  · intro h
    refine ⟨fun o => ?_⟩
    rw [groupBody?, if_pos (o.firstToken_eq ▸ o.opens)] at h
    split at h <;> cases h
  · intro h
    rw [groupBody?, if_neg]
    intro hk
    exact h.elim (exists_opening_of_firstToken hk).some

/-- A region without opening parentheses is no group. -/
theorem groupBody?_eq_none_of_kinds (h : .lparen ∉ r.kinds) : r.groupBody? = none := by
  refine groupBody?_eq_none_iff.mpr ⟨fun o => h ?_⟩
  rw [kinds, o.tokens_eq_cons]
  exact List.mem_map.mpr ⟨o.token, List.mem_cons_self, o.opens⟩

/-- A region without tokens is no group. -/
theorem groupBody?_of_tokens_eq_nil (h : r.tokens = []) : r.groupBody? = none := by
  apply groupBody?_eq_none_of_kinds
  rw [kinds, h]
  exact List.not_mem_nil

/-- **The body of a group** lies behind the parenthesis that the region starts with. It ends before
the parenthesis that closes it, or with the region if there is none. -/
theorem exists_opening {body : Region} (h : r.groupBody? = some body) :
    ∃ o : Opening r, (∃ c : Closing o, body = c.left.closed) ∨
      (closing? 0 o.right.tokens = none ∧ body = o.right) := by
  have hk : r.firstToken.kind = .lparen := by
    by_contra hk
    rw [groupBody?, if_neg hk] at h
    cases h
  obtain ⟨o⟩ := exists_opening_of_firstToken hk
  refine ⟨o, ?_⟩
  cases hc : closing? 0 o.right.tokens with
  | none =>
    rw [o.groupBody?_of_unclosed hc, Option.some.injEq] at h
    exact .inr ⟨rfl, h.symm⟩
  | some t =>
    obtain ⟨c, -⟩ := exists_closing hc
    rw [o.groupBody?_of_closing c, Option.some.injEq] at h
    exact .inl ⟨c, h.symm⟩

/-- The tokens of the body of a group follow one another in the group. -/
theorem tokens_infix_of_groupBody? {body : Region} (h : r.groupBody? = some body) :
    body.tokens <:+: r.tokens := by
  obtain ⟨o, ⟨c, rfl⟩ | ⟨-, rfl⟩⟩ := exists_opening h
  · change c.left.tokens <:+: r.tokens
    rw [c.tokens_eq_group]
    exact (List.prefix_append _ _).isInfix.trans (List.suffix_cons _ _).isInfix
  · rw [o.tokens_eq_cons]
    exact (List.suffix_cons _ _).isInfix

/-- **Induction over a line**: a property holds of every region if it holds of a region whenever it
holds of the bodies of the groups among its commands. -/
@[elab_as_elim]
theorem line_induction {motive : Region → Prop}
    (line : ∀ r : Region,
      (∀ c ∈ r.divide Level.conditional.delimiters, ∀ p ∈ c.divide Level.pipeline.delimiters,
        ∀ m ∈ p.divide Level.command.delimiters, ∀ body, m.groupBody? = some body → motive body) →
      motive r) (r : Region) : motive r := by
  induction h : r.length using Nat.strongRecOn generalizing r with
  | ind n ih =>
    subst h
    refine line r fun c hc p hp m hm body hbody => ih _ ?_ body rfl
    -- no part is longer than what it is a part of, and a body is shorter than its group
    have hcr := length_le_of_mem_divide hc
    have hpc := length_le_of_mem_divide hp
    have hmp := length_le_of_mem_divide hm
    have hlt := length_groupBody?_lt hbody
    omega

end Region

end CommandLine
