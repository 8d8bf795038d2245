import CommandLine.Proofs.Grouping
import CommandLine.Proofs.Watching

/-!
# Bodies of groups

A group is taken apart by two counts of parentheses, and its body is read a third time, up to the
parenthesis that closes it. All of them agree on where that is: at the first closing parenthesis
behind which the group has closed as many as it has opened.

* `Words.collect_unclosed` — a group that is not closed has no words.
* `View.groupBody?_decomposition` — a group, the parenthesis that closes it and what stands behind.
-/

namespace CommandLine

/-- The words of a group that is not closed are all inside of it. -/
theorem Words.collect_unclosed {o : Token} {ts : List Token} (ho : o.kind = .lparen)
    (h : closing? 0 ts = none) : collect 0 none (o :: ts) = ⟨[], []⟩ := by
  obtain ⟨d, hd⟩ := closing?_eq_none_iff.mp h
  have hinside := collect_inside [] hd
  rw [List.append_nil] at hinside
  rw [collect_skip none _ (.inr (.inl ho)), ho]
  exact hinside

namespace View

/-- **Groups.** A view whose first token is an opening parenthesis has a body, which starts behind
it. Either some parenthesis closes it: then the body ends where that one starts, its own parentheses
match, and the words of the view are those of what stands behind the group. Or none does: then the
body is all that stands behind the opening parenthesis, and there are no words. A view that starts
with anything else has no body, and neither has one without tokens. -/
theorem groupBody?_decomposition (v : View) :
    (∀ o behind, v.region.tokens = o :: behind → o.kind = .lparen →
      ∃ body : Region, v.groupBody? = some ⟨.commandLine, body⟩ ∧
        body.source = v.region.source ∧ body.start = o.stop ∧ body.limit = body.stop ∧
        ((∃ (c : Token) (rest : Region),
            v.region.tokens = o :: (body.tokens ++ c :: rest.tokens) ∧ c.kind = .rparen ∧
            Balanced body.kinds ∧ body.stop = c.start ∧
            rest.source = v.region.source ∧ rest.start = c.stop ∧ rest.stop = v.region.stop ∧
            v.region.words = rest.words) ∨
          ((∀ before c after, behind = before ++ c :: after → c.kind = .rparen →
              ¬ Balanced (before.map Token.kind)) ∧
            v.region.tokens = o :: body.tokens ∧ body.stop = v.region.stop ∧
            v.region.words = ⟨[], []⟩))) ∧
    ((∀ o ∈ v.region.tokens.head?, o.kind ≠ .lparen) → v.groupBody? = none) := by
  obtain ⟨level, r⟩ := v
  constructor
  · intro o behind htokens ho
    let p : Region.Opening r := ⟨⟨[], o, behind, htokens⟩, rfl, ho⟩
    have hbehind : p.right.tokens = behind := p.tokens_right
    cases hclosing : closing? 0 p.right.tokens with
    | some t =>
      obtain ⟨c, -⟩ := Region.exists_closing hclosing
      refine ⟨c.left.closed, ?_, rfl, rfl, rfl, .inl ⟨c.token, c.right, c.tokens_eq_group, c.closes,
        balanced_iff.mpr c.depth?_left, rfl, rfl, rfl, rfl, ?_⟩⟩
      · rw [groupBody?, p.groupBody?_of_closing c]
        rfl
      · change Words.collect 0 none r.tokens = _
        rw [c.tokens_eq_group, Words.collect_group p.opens c.closes c.depth?_left]
        rfl
    | none =>
      refine ⟨p.right, ?_, rfl, rfl, rfl, .inr ⟨?_, p.tokens_eq_cons, rfl, ?_⟩⟩
      · rw [groupBody?, p.groupBody?_of_unclosed hclosing]
        rfl
      · intro before c after hafter hc
        rw [hbehind, hafter] at hclosing
        exact not_balanced_of_closing? hclosing hc
      · change Words.collect 0 none r.tokens = _
        rw [p.tokens_eq_cons, Words.collect_unclosed p.opens hclosing]
  · intro hfirst
    have hnone : r.groupBody? = none := by
      refine Region.groupBody?_eq_none_iff.mpr ⟨fun p => ?_⟩
      refine hfirst p.token ?_ p.opens
      rw [p.tokens_eq_cons]
      rfl
    rw [groupBody?, hnone]
    rfl

/-- A group with another one inside it, a quoted and an escaped parenthesis, and a further group
behind it. -/
theorem groupBody?_decomposition_nested :
    (∃ (body : Region) (c : Token) (rest : Region),
      groupBody? ⟨.command, Region.ofText "(a '(' \\) (b)) > f (c) d".toList⟩ =
          some ⟨.commandLine, body⟩ ∧
        Balanced body.kinds ∧ body.stop = c.start ∧ rest.start = c.stop ∧
        rest.words = ⟨[['d']], [⟨.write, 1, false, some ['f']⟩]⟩) ∧
      groupBody? ⟨.command, Region.ofText "a (b)".toList⟩ = none := by
  constructor
  · have htokens : (Region.ofText "(a '(' \\) (b)) > f (c) d".toList).tokens =
        ⟨.lparen, 0, 1, false, "(a '(' \\) (b)) > f (c) d".toList⟩ ::
          (Region.ofText "(a '(' \\) (b)) > f (c) d".toList).tokens.tail := by decide +kernel
    have hwords : (Region.ofText "(a '(' \\) (b)) > f (c) d".toList).words =
        ⟨[['d']], [⟨.write, 1, false, some ['f']⟩]⟩ := by decide +kernel
    obtain ⟨body, hbody, -, -, -, ⟨c, rest, -, -, hbalanced, hstop, -, hstart, -, hrest⟩ |
      ⟨-, -, -, hnone⟩⟩ := (groupBody?_decomposition ⟨.command, _⟩).1 _ _ htokens rfl
    · exact ⟨body, c, rest, hbody, hbalanced, hstop, hstart, hrest.symm.trans hwords⟩
    · cases hwords.symm.trans hnone
  · exact (groupBody?_decomposition _).2 (by decide +kernel)

end View

end CommandLine
