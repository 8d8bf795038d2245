import CommandLine.Proofs.Sequencing

/-!
# Lines in parentheses

A line in parentheses is a group, and nothing stands beside it. If no token of the line is left
open, and every parenthesis of it has its partner, then the parentheses around it match each other.
The pass over the outer line finds nothing to report: whatever is wrong with the line is found when
it is read as the body, where it looks as if it stood alone. What is in parentheses can be put in
parentheses again, so lines are nested to any depth.

* `Text.enclose`, `Line.enclose` — a text in parentheses, and its tree.
* `Region.Whole` — a group that is closed by its last token.
* `Region.Whole.toLine_eq`, `Region.Whole.lineIssues_eq` — its tree and its issues are those of its
  body.
* `Text.Closed`, `Region.exists_whole` — a text that leaves nothing open is such a group in
  parentheses.
* `Line.ofText_enclose` — a line in parentheses, any number of times.
-/

namespace CommandLine

/-- A text in parentheses. -/
def Text.enclose (t : Text) : Text := '(' :: (t ++ [')'])

/-- A line that consists of one group. All its nodes but those of the body have the same mark. -/
def Line.enclose {σ : Type} (mark : σ) (body : Line σ) : Line σ :=
  ⟨mark, [⟨mark, [⟨mark, [.group mark body ⟨[], []⟩]⟩], [], .eol⟩]⟩

theorem Line.map_enclose {σ τ : Type} (f : σ → τ) (mark : σ) (body : Line σ) :
    (Line.enclose mark body).map f = Line.enclose (f mark) (body.map f) := by
  simp [Line.enclose, Line.map, Conditional.map, Pipeline.map, Command.map]

@[simp] theorem Line.depth_enclose {σ : Type} (mark : σ) (body : Line σ) :
    (Line.enclose mark body).depth = body.depth + 1 := by
  simp [Line.enclose, Line.depth, Conditional.depth, Pipeline.depth, Command.depth, greatest]

@[simp] theorem Text.length_enclose (t : Text) : t.enclose.length = t.length + 2 := by
  simp [Text.enclose]

/-! ## Groups that take the whole region -/

namespace Region

variable {r : Region}

/-- A group that is closed by the last token of the region. -/
structure Whole (r : Region) where
  /-- the parenthesis at the front -/
  opening : Opening r
  /-- the parenthesis that closes the group -/
  closing : Closing opening
  /-- nothing stands behind it -/
  last : closing.right.tokens = []

namespace Whole

/-- What the parentheses enclose. -/
def body (w : Whole r) : Region := w.closing.left.closed

/-- No operator of any level stands outside the parentheses. -/
theorem undivided (w : Whole r) (level : Level) : Undivided level.delimiters 0 r.kinds := by
  have hopen : .lparen ∉ level.delimiters := by cases level <;> decide
  have hdepth : depthAlong 1 w.closing.left.kinds = 1 :=
    depthAlong_of_depth? (depth?_succ w.closing.depth?_left)
  rw [kinds, w.closing.tokens_eq_group, w.last, List.map_cons, w.opening.opens, List.map_append]
  refine ⟨fun h => hopen h.2, undivided_append.mpr ⟨?_, ?_⟩⟩
  · exact undivided_of_depth? _ w.closing.depth?_left
  · change Undivided _ (depthAlong 1 w.closing.left.kinds) _
    rw [hdepth]
    exact ⟨fun h => absurd h.1 Nat.one_ne_zero, trivial⟩

/-- Outside of the parentheses there are no words. -/
theorem words_eq (w : Whole r) : r.words = ⟨[], []⟩ := by
  rw [words, w.closing.tokens_eq_group,
    Words.collect_group w.opening.opens w.closing.closes w.closing.depth?_left, w.last]
  rfl

/-- **The pass over the tokens of the group** finds nothing. -/
theorem ownIssues_eq (w : Whole r) : r.ownIssues = [] := by
  rw [w.closing.ownIssues_eq, w.last]
  rfl

/-- **The tree of the group** is that of its body, in parentheses. -/
theorem toLine_eq (w : Whole r) : r.toLine = Line.enclose r.span w.body.toLine := by
  have hbody : r.closed.closed.closed.groupBody? = some w.body :=
    w.opening.groupBody?_of_closing w.closing
  have hwords : r.closed.closed.closed.words = ⟨[], []⟩ := w.words_eq
  rw [toLine_of_single_command w.undivided, toCommand_of_some hbody, hwords]
  rfl

/-- **The issues of the group** are those of its body, which must hold a token. -/
theorem lineIssues_eq (w : Whole r) :
    r.lineIssues =
      if w.body.tokens = [] then [⟨.emptyGroup, w.body.stop⟩] else w.body.lineIssues := by
  have hbody : r.closed.closed.closed.groupBody? = some w.body :=
    w.opening.groupBody?_of_closing w.closing
  have hown : r.closed.closed.closed.ownIssues = [] := w.ownIssues_eq
  have hne : r.tokens ≠ [] := by
    rw [w.opening.tokens_eq_cons]
    exact List.cons_ne_nil _ _
  rw [lineIssues_of_single_command hne w.undivided, commandIssues_of_some hbody, hown,
    isClosed_of_ownIssues hown, Bool.true_and, List.nil_append]
  by_cases hblank : w.body.tokens = []
  · rw [if_pos hblank, if_pos (isBlank_iff.mpr hblank), lineIssues_of_tokens_eq_nil hblank]
    rfl
  · rw [if_neg hblank, if_neg fun hb => hblank (isBlank_iff.mp hb), List.nil_append]

/-- So in source order. -/
theorem diagnose_eq (w : Whole r) :
    diagnose r = if w.body.tokens = [] then [⟨.emptyGroup, w.body.stop⟩] else diagnose w.body := by
  rw [diagnose, w.lineIssues_eq]
  split
  · exact List.mergeSort_singleton _
  · rfl

end Whole

/-! ## Texts in parentheses -/

/-- What leaves nothing open where it stands alone leaves nothing open where it is read in place. -/
theorem isTerminated_of_text (h : ∀ t ∈ tokenize r.text, t.isTerminated) :
    ∀ t ∈ r.tokens, t.isTerminated := by
  intro t ht
  have hmoved := r.moved_ofText.tokens
  rw [r.moved_ofText.tokens_eq] at ht hmoved
  obtain ⟨u, hu, rfl⟩ := List.mem_map.mp ht
  rw [List.forall₂_map_left_iff, List.forall₂_same] at hmoved
  rw [Token.isTerminated, Token.unclosed?_eq_of_symbol (hmoved u hu).symbol_eq]
  exact h u (by rwa [tokens_ofText] at hu)

end Region

/-- A text that leaves nothing open: no token of it, and no parenthesis, and closes only what it
opens. -/
structure Text.Closed (t : Text) : Prop where
  /-- every token is terminated -/
  terminated : ∀ u ∈ tokenize t, u.isTerminated
  /-- every parenthesis has its partner -/
  matched : unmatched [] (tokenize t) = []

/-- **A text in parentheses** that leaves nothing open is one group. -/
theorem Region.exists_whole {r : Region} {t : Text} (ht : t.Closed) (htext : r.text = t.enclose) :
    ∃ w : Whole r, w.body.text = t ∧ w.body.start = r.start + 1 := by
  have hnil : tokenize [] = [] := tokensOf_nil _ _
  obtain ⟨first, hfirst, hbefore, -, hbehind⟩ :=
    exists_split_of_text (a := []) Operator.lone_lparen htext (by simp [hnil])
  rw [hnil] at hbefore
  let o : Opening r := ⟨first, List.map_eq_nil_iff.mp hbefore, by rw [hfirst]; rfl⟩
  obtain ⟨last, hlast, hkinds, hleft, hright⟩ :=
    exists_split_of_text (r := o.right) Operator.lone_rparen hbehind ht.terminated
  have hbalanced : depth? 0 (last.before.map Token.kind) = some 0 := by
    rw [hkinds]
    exact @depth?_of_unmatched [] _ ht.matched
  let c : Closing o := ⟨last, hbalanced, by rw [hlast]; rfl⟩
  refine ⟨⟨o, c, ?_⟩, hleft, congrArg Token.stop hfirst⟩
  change last.right.tokens = []
  rw [tokens, hright, tokensOf_nil]

/-- What leaves nothing open leaves nothing open in parentheses. -/
theorem Text.Closed.enclose {t : Text} (ht : t.Closed) : t.enclose.Closed := by
  obtain ⟨w, hbody, -⟩ :=
    Region.exists_whole (r := Region.ofText t.enclose) ht (Text.slice_self _)
  rw [← hbody] at ht
  have hinner : ∀ u ∈ w.closing.left.tokens, u.isTerminated :=
    Region.isTerminated_of_text (r := w.body) ht.terminated
  have hparen : ∀ {u : Token}, u.kind = .lparen ∨ u.kind = .rparen → u.isTerminated := by
    intro u hu
    refine Token.isTerminated_of_ne_word ?_
    rcases hu with hu | hu <;> rw [hu] <;> decide
  constructor
  · rw [← Region.tokens_ofText, w.closing.tokens_eq_group, w.last]
    simp only [List.forall_mem_cons, List.forall_mem_append]
    exact ⟨hparen (.inl w.opening.opens), hinner, hparen (.inr w.closing.closes),
      List.forall_mem_nil _⟩
  · rw [← Region.tokens_ofText, w.closing.unmatched_eq, w.last]
    rfl

/-- So it does in any number of parentheses. -/
theorem Text.Closed.iterate {t : Text} (ht : t.Closed) (n : Nat) : (Text.enclose^[n] t).Closed := by
  induction n with
  | zero => exact ht
  | succ n ih =>
    rw [Function.iterate_succ_apply']
    exact ih.enclose

/-- Each time there is a group more around the others. -/
theorem Text.Closed.le_depth_iterate {t : Text} (ht : t.Closed) (n : Nat) {r : Region}
    (htext : r.text = Text.enclose^[n] t) : n ≤ r.toLine.depth := by
  induction n generalizing r with
  | zero => exact Nat.zero_le _
  | succ n ih =>
    rw [Function.iterate_succ_apply'] at htext
    obtain ⟨w, hbody, -⟩ := Region.exists_whole (ht.iterate n) htext
    rw [w.toLine_eq, Line.depth_enclose]
    exact Nat.succ_le_succ (ih hbody)

theorem Text.length_iterate_enclose (t : Text) (n : Nat) :
    (Text.enclose^[n] t).length = t.length + 2 * n := by
  induction n with
  | zero => rfl
  | succ n ih => rw [Function.iterate_succ_apply', length_enclose, ih]; rfl

section

variable {t : Text}

/-- **The tree of a text in parentheses** is the tree of the text, further on and in parentheses. -/
theorem Text.Closed.toLine_enclose (ht : t.Closed) :
    Line.ofText t.enclose =
      Line.enclose ⟨t.enclose, 0, t.length + 2⟩ ((Line.ofText t).map (Span.shift 1)) := by
  obtain ⟨w, htext, hstart⟩ :=
    Region.exists_whole (r := Region.ofText t.enclose) ht (Text.slice_self _)
  have hspan : (Region.ofText t.enclose).span = ⟨t.enclose, 0, t.length + 2⟩ := by
    rw [Region.span, Region.text]
    exact congrArg₂ (Span.mk · 0 ·) (Text.slice_self _) t.length_enclose
  rw [Line.ofText, w.toLine_eq, w.body.toLine_eq_shift, htext, hstart, hspan]
  rfl

/-- Without marks it is the same tree in parentheses. -/
theorem Text.Closed.erase_enclose (ht : t.Closed) :
    (Line.ofText t.enclose).erase = Line.enclose () (Line.ofText t).erase := by
  obtain ⟨w, htext, -⟩ :=
    Region.exists_whole (r := Region.ofText t.enclose) ht (Text.slice_self _)
  have hbody : w.body.toLine.erase = (Region.ofText w.body.text).toLine.erase :=
    (Region.moved_likeness _ _).map_toLine (fun _ => rfl) w.body.moved_ofText
  rw [Line.ofText, w.toLine_eq, Line.erase, Line.map_enclose]
  change Line.enclose () w.body.toLine.erase = _
  rw [hbody, htext]
  rfl

/-- **The issues of a text in parentheses** are those of the text, which must hold a token. -/
theorem Text.Closed.diagnose_enclose (ht : t.Closed) :
    diagnose (Region.ofText t.enclose) =
      if tokenize t = [] then [⟨.emptyGroup, t.length + 1⟩]
      else (diagnose (Region.ofText t)).map (Issue.shift 1) := by
  obtain ⟨w, htext, hstart⟩ :=
    Region.exists_whole (r := Region.ofText t.enclose) ht (Text.slice_self _)
  have hstop : w.body.stop = t.length + 1 := by
    have hlength := w.body.length_text
    have hle := w.body.start_le_stop
    rw [htext, Region.length] at hlength
    change w.body.start = 0 + 1 at hstart
    omega
  have htokens : w.body.tokens = [] ↔ tokenize t = [] := by
    rw [w.body.tokens_eq_shift, htext, List.map_eq_nil_iff]
  rw [w.diagnose_eq, w.body.diagnose_eq_shift, htext, hstart, hstop]
  simp only [htokens]
  rfl

/-- In parentheses there is a token. -/
theorem Text.Closed.tokenize_enclose_ne_nil (ht : t.Closed) : tokenize t.enclose ≠ [] := by
  obtain ⟨w, -⟩ := Region.exists_whole (r := Region.ofText t.enclose) ht (Text.slice_self _)
  rw [← Region.tokens_ofText, w.opening.tokens_eq_cons]
  exact List.cons_ne_nil _ _

/-- **A line in parentheses**, any number of times, of whose tokens and parentheses none is left
without its end. Each time the tree is that of the line inside, further on by one, as the body of a
group that is the whole line, so without marks there are only as many levels more. The issues are
those of the line, as far on as there are parentheses in front of it; if it holds no token the one
issue is that the innermost group is empty. -/
theorem Line.ofText_enclose (ht : t.Closed) (n : Nat) :
    Line.ofText (Text.enclose^[n + 1] t) =
        Line.enclose ⟨Text.enclose^[n + 1] t, 0, t.length + 2 * (n + 1)⟩
          ((Line.ofText (Text.enclose^[n] t)).map (Span.shift 1)) ∧
      (Line.ofText (Text.enclose^[n + 1] t)).erase =
        (Line.enclose ())^[n + 1] (Line.ofText t).erase ∧
      diagnose (Region.ofText (Text.enclose^[n + 1] t)) =
        if tokenize t = [] then [⟨.emptyGroup, t.length + (n + 1)⟩]
        else (diagnose (Region.ofText t)).map (Issue.shift (n + 1)) := by
  refine ⟨?_, ?_, ?_⟩
  · rw [Function.iterate_succ_apply', (ht.iterate n).toLine_enclose,
      Text.length_iterate_enclose]
    rfl
  · induction n with
    | zero => exact ht.erase_enclose
    | succ n ih =>
      rw [Function.iterate_succ_apply', (ht.iterate (n + 1)).erase_enclose, ih]
      exact (Function.iterate_succ_apply' _ _ _).symm
  · induction n with
    | zero => exact ht.diagnose_enclose
    | succ n ih =>
      have hne : tokenize (Text.enclose^[n + 1] t) ≠ [] := by
        rw [Function.iterate_succ_apply']
        exact (ht.iterate n).tokenize_enclose_ne_nil
      rw [Function.iterate_succ_apply', (ht.iterate (n + 1)).diagnose_enclose, if_neg hne, ih]
      split
      · rfl
      · rw [List.map_map]
        rfl

/-- A line with a bar that nothing follows, an empty group beside a word, and a redirection without
a target, in one pair of parentheses and in three. -/
theorem Line.ofText_enclose_malformed :
    Text.Closed "a | ; () b >".toList ∧
      (Line.ofText "(a | ; () b >)".toList).erase =
        Line.enclose () (Line.ofText "a | ; () b >".toList).erase ∧
      diagnose (Region.ofText "(((a | ; () b >)))".toList) =
        (diagnose (Region.ofText "a | ; () b >".toList)).map (Issue.shift 3) := by
  have hclosed : Text.Closed "a | ; () b >".toList := ⟨by decide +kernel, by decide +kernel⟩
  have hthree := (Line.ofText_enclose hclosed 2).2.2
  rw [if_neg (by decide +kernel)] at hthree
  exact ⟨hclosed, (Line.ofText_enclose hclosed 0).2.1, hthree⟩

end

end CommandLine
