import CommandLine.Proofs.Executable
import CommandLine.Proofs.Matching
import CommandLine.Proofs.Rereading
import CommandLine.Proofs.Shifting
import CommandLine.Proofs.Walk

/-!
# Lines in sequence

Behind a line comes a semicolon, and behind the semicolon another line. If no token of the first one
is left open the semicolon belongs to none of them, and if it leaves no parenthesis open the
semicolon stands outside of all. Then the two lines are read as if each stood alone, whatever else
is wrong with them: their trees stand one behind the other, and so do their issues.

* `Operator.Lone` — operators of one character that no other one starts or goes on with.
* `tokensOf_append` — such an operator behind some characters changes none of their tokens.
* `depthAlong_of_unmatched` — parentheses that are all closed leave no depth.
* `Region.exists_divide_append` — a region is divided at a delimiter into what both sides are
  divided into.
* `Region.exists_conditionals_append`, `Region.diagnose_of_split` — the conditionals and the issues
  on both sides of a separator.
* `mergeSort_append` — sorting keeps apart what stands apart.
* `Line.ofText_sequence` — two lines with a semicolon between them.
-/

namespace CommandLine

/-! ## An operator behind some characters -/

/-- A character that is an operator by itself: no other one starts with it or goes on with it. -/
structure Operator.Lone (c : Char) (k : Kind) : Prop where
  /-- it ends a word -/
  ends : isOperatorChar c = true
  /-- no operator goes on with it -/
  behind : ∀ p ∈ spellings, c ∉ p.1.tail
  /-- nothing that follows makes another operator of it -/
  front : ∀ cs, match? (c :: cs) = some ([c], k)

theorem Operator.lone_semicolon : Lone ';' .sequence := ⟨by decide, by decide, fun _ => rfl⟩

theorem Operator.lone_lparen : Lone '(' .lparen := ⟨by decide, by decide, fun _ => rfl⟩

theorem Operator.lone_rparen : Lone ')' .rparen := ⟨by decide, by decide, fun _ => rfl⟩

/-- No operator starts with a blank, or with a backslash. -/
theorem Operator.not_blank {c : Char} (h : isOperatorChar c = true) : isSpace c = false ∧ c ≠ '\\' := by
  simp only [isOperatorChar, Bool.or_eq_true, beq_iff_eq, or_assoc] at h
  rcases h with rfl | rfl | rfl | rfl | rfl | rfl | rfl <;> decide

section

variable {c : Char} {k : Kind}

/-- An operator of one character is a border. -/
theorem Operator.Lone.border (hc : Lone c k) : Border c where
  ends := by
    rw [endsWord, hc.ends, Bool.or_true]
  behind := hc.behind
  ne_newline := by
    rintro rfl
    exact absurd hc.ends (by decide)

/-- An operator ends the gap in front of it. -/
theorem gapWidth_append (cs b : Text) (hc : Operator.Lone c k) :
    gapWidth (cs ++ c :: b) = gapWidth cs := by
  obtain ⟨hspace, hescape⟩ := Operator.not_blank hc.ends
  have hfront : gapWidth (c :: b) = 0 := by
    rw [gapWidth, if_neg (by simp [hspace])]
    exact fun _ hc _ => hescape hc
  rcases Nat.lt_or_ge (gapWidth cs) cs.length with hlt | hge
  · exact gapWidth_append_of_lt b hc.border.ne_newline hlt
  · have hgap := Nat.le_antisymm (gapWidth_le cs) hge
    rw [gapWidth_append_gap _ hgap, hfront, hgap, Nat.add_zero]

/-- Behind a gap an operator is the first lexeme. -/
theorem Lexeme.first?_append_gap {cs : Text} (b : Text) (hc : Operator.Lone c k)
    (h : first? cs = none) :
    first? (cs ++ c :: b) = some ⟨cs.length, k, 1, false⟩ := by
  have hgap : gapWidth (cs ++ c :: b) = cs.length :=
    (gapWidth_append cs b hc).trans (first?_eq_none_iff.mp h)
  rw [first?_operator (p := ([c], k)), hgap]
  · rfl
  · rw [hgap, List.drop_left, hc.front]

end

/-- A word that is a token with nothing left open leaves nothing open. -/
theorem Token.unclosed_lexeme {source : Text} {pos stop : Nat} {l : Lexeme}
    (hl : Lexeme.first? (source.slice pos stop) = some l)
    (h : (Token.ofLexeme source pos l).isTerminated) (hk : l.kind = .word) :
    Word.unclosed (((source.slice pos stop).drop l.gap).take l.length) = none := by
  rw [← raw_ofLexeme hl]
  exact isTerminated_iff.mp h hk

/-- The token of an operator of one character. -/
def Token.lone (k : Kind) (source : Text) (pos : Nat) : Token := ⟨k, pos, pos + 1, false, source⟩

/-- The token of a semicolon. -/
def Token.semicolon (source : Text) (pos : Nat) : Token := ⟨.sequence, pos, pos + 1, false, source⟩

/-- **An operator behind some characters**, of whose tokens none is left open, is the token behind
these. -/
theorem tokensOf_append {a : Text} {c : Char} {k : Kind} (source b : Text) {pos : Nat}
    (hc : Operator.Lone c k) (hpos : pos ≤ a.length)
    (h : ∀ t ∈ tokensOf a pos (a.slice pos a.length), t.isTerminated) :
    tokensOf source pos (a.slice pos a.length ++ c :: b) =
      tokensOf source pos (a.slice pos a.length) ++
        Token.lone k source a.length :: tokensOf source (a.length + 1) b := by
  induction hts : tokensOf a pos (a.slice pos a.length) generalizing pos with
  | nil =>
    have hnone := tokensOf_eq_nil_iff.mp hts
    have hstop : pos + (a.slice pos a.length).length = a.length := by
      rw [Text.length_slice_of_le (Nat.le_refl _)]
      omega
    have hrest : (a.slice pos a.length ++ c :: b).drop ((a.slice pos a.length).length + 1) = b := by
      rw [← List.drop_drop, List.drop_left]
      rfl
    rw [tokensOf_none hnone, tokensOf_some (Lexeme.first?_append_gap b hc hnone), List.nil_append]
    simp only [Token.ofLexeme, Lexeme.width, hrest, ← Nat.add_assoc, hstop]
    rfl
  | cons t ts ih =>
    obtain ⟨l, hl, rfl, hrest⟩ := tokensOf_eq_cons hts
    have hwidth := Lexeme.width_le hl
    rw [hts] at h
    obtain ⟨hfirst, h⟩ := List.forall_mem_cons.mp h
    have hdrop : (a.slice pos a.length ++ c :: b).drop l.width =
        a.slice (pos + l.width) a.length ++ c :: b := by
      rw [List.drop_append_of_le_length hwidth, Text.drop_slice]
    have hle : pos + l.width ≤ a.length := by
      rw [Text.length_slice_of_le (Nat.le_refl _)] at hwidth
      omega
    rw [Text.drop_slice] at hrest
    rw [hrest] at h
    rw [tokensOf_some (Lexeme.first?_append b hc.border hl (Token.unclosed_lexeme hl hfirst)),
      tokensOf_some hl, hdrop, Text.drop_slice, ih hle h hrest.symm, List.cons_append]

/-- Parentheses that are all closed leave no depth. -/
theorem depthAlong_of_unmatched {opened ts : List Token} (hopens : ∀ o ∈ opened, o.kind = .lparen)
    (h : ∀ t ∈ unmatched opened ts, t.kind ≠ .lparen) :
    depthAlong opened.length (ts.map Token.kind) = 0 := by
  fun_induction unmatched opened ts with
  | case1 opened =>
    cases opened with
    | nil => rfl
    | cons o outer =>
      have ho := List.forall_mem_cons.mp hopens
      exact absurd ho.1 (h o (List.mem_reverse.mpr List.mem_cons_self))
  | case2 opened t ts hk ih =>
    rw [List.map_cons, depthAlong_cons, hk]
    exact ih (List.forall_mem_cons.mpr ⟨hk, hopens⟩) h
  | case3 t ts hk ih =>
    rw [List.map_cons, depthAlong_cons, hk]
    exact ih hopens (List.forall_mem_cons.mp h).2
  | case4 t ts hk o outer ih =>
    rw [List.map_cons, depthAlong_cons, hk]
    exact ih (List.forall_mem_cons.mp hopens).2 h
  | case5 opened t ts hopen hclose ih =>
    rw [List.map_cons, depthAlong_cons, depthAfter_other hopen hclose]
    exact ih hopens h

/-! ## Dividing at a separator -/

namespace Region

variable {r s : Region} {delimiters : List Kind}

/-- The same span of a text with the same operator behind it. The limit may be another one. -/
structure SameSegment (r s : Region) : Prop where
  /-- the spans are the same -/
  closed_eq : r.closed = s.closed
  /-- the operators are the same -/
  nextOperator_eq : r.nextOperator = s.nextOperator

/-- Behind a segment that does not end the region stands its own operator. -/
theorem kind_followedBy {t : Token} (h : s.nextOperator ≠ .eol) :
    (s.followedBy t).kind = s.nextOperator := by
  rw [followedBy, if_neg h]
  rfl

/-- So does behind any other one, if nothing else does. -/
theorem kind_followedBy_endOfLine (source : Text) (stop : Nat) (s : Region) :
    (s.followedBy (Token.endOfLine source stop)).kind = s.nextOperator := by
  by_cases h : s.nextOperator = .eol
  · rw [followedBy, if_pos h, h]
    rfl
  · exact kind_followedBy h

/-- A segment is given by its span and its limit. -/
theorem eq_of_closed (h : r.closed = s.closed) (hlimit : r.limit = s.limit) : r = s := by
  have hsource : r.closed.source = s.closed.source := by rw [h]
  have hstart : r.closed.start = s.closed.start := by rw [h]
  have hstop : r.closed.stop = s.closed.stop := by rw [h]
  exact eq_of_bounds hsource hstart hstop hlimit

/-- Segments with the same links are the same spans of a text, followed by the same tokens. -/
theorem forall₂_of_map_link {xs ys : List Region} {t u : Token} {source : Text}
    (h : xs.map (link t) = ys.map (link u)) (hxs : ∀ x ∈ xs, x.source = source)
    (hys : ∀ y ∈ ys, y.source = source) :
    List.Forall₂ (fun x y => (x ∈ xs ∧ y ∈ ys) ∧ x.closed = y.closed ∧
      x.followedBy t = y.followedBy u) xs ys := by
  refine (forall₂_of_map_eq h).imp ?_
  rintro x y ⟨hx, hy, hlink⟩
  have hsource : x.source = y.source := (hxs x hx).trans (hys y hy).symm
  have hstop : x.stop = y.stop := congrArg Link.stop hlink
  exact ⟨⟨hx, hy⟩, eq_of_bounds hsource (congrArg Link.start hlink) hstop hstop,
    congrArg Link.next hlink⟩

/-- **A region is divided at a delimiter** outside parentheses into the segments in front of it, the
last of which the delimiter ends, and the segments behind it. -/
theorem exists_divide_append (c : Split r)
    (houtside : depthAlong 0 (c.before.map Token.kind) = 0) (hmem : c.token.kind ∈ delimiters)
    (hparen : .lparen ∉ delimiters) :
    ∃ init last parts s, c.left.divide delimiters = init ++ [last] ∧ last.nextOperator = .eol ∧
      r.divide delimiters = parts ++ s :: c.right.divide delimiters ∧
      List.Forall₂ SameSegment init parts ∧ last.closed = s.closed ∧
      s.nextOperator = c.token.kind := by
  obtain ⟨fronts, behind, hdivide, hfronts, hbehind⟩ := List.map_eq_append_iff.mp
    (map_link_divide (Token.endOfLine r.source r.stop) c houtside hmem hparen)
  obtain ⟨init, last, hleft, hinit, hlast⟩ := c.left.exists_last_segment delimiters
  have hsource : ∀ x ∈ fronts ++ behind, x.source = r.source := fun x hx =>
    (mem_divide (hdivide ▸ hx)).2.2.1
  -- the segments behind are the same even in their limit
  have hsame : behind = c.right.divide delimiters := by
    rw [← List.forall₂_eq_eq_eq]
    refine (forall₂_of_map_link hbehind (fun x hx => hsource x (List.mem_append_right _ hx))
      fun y hy => (mem_divide hy).2.2.1).imp ?_
    rintro x y ⟨⟨hx, hy⟩, hclosed, -⟩
    have hlimit : x.limit = r.stop :=
      (mem_divide (hdivide ▸ List.mem_append_right fronts hx)).2.2.2
    exact eq_of_closed hclosed (hlimit.trans (mem_divide hy).2.2.2.symm)
  -- those in front are the same spans, and the delimiter stands where they end
  have hlinks := forall₂_of_map_link hfronts.symm (fun x hx => (mem_divide hx).2.2.1)
    fun y hy => hsource y (List.mem_append_left _ hy)
  rw [hleft] at hlinks
  obtain ⟨parts, s, rest, rfl, hparts, ⟨-, hs, hnext⟩, hrest⟩ := forall₂_append_cons hlinks
  obtain rfl := List.forall₂_nil_left_iff.mp hrest
  refine ⟨init, last, parts, s, hleft, hlast, ?_, ?_, hs, ?_⟩
  · rw [hdivide, hsame, List.append_assoc]
    rfl
  · refine ((List.forall₂_and_left _ _).mpr ⟨hinit, hparts⟩).imp ?_
    rintro x y ⟨⟨-, hne⟩, -, hclosed, hnext⟩
    exact ⟨hclosed, by
      rw [← kind_followedBy_endOfLine r.source r.stop y, ← hnext, kind_followedBy hne]⟩
  · rw [← kind_followedBy_endOfLine r.source r.stop s, ← hnext, followedBy, if_pos hlast]

/-- Conditionals of the same span differ in nothing but the operator behind them. -/
theorem toConditional_of_closed (h : r.closed = s.closed) :
    s.toConditional = { r.toConditional with separator := s.nextOperator } := by
  have hspan : s.closed.span = r.closed.span := by rw [h]
  have hdivide : s.divide Level.pipeline.delimiters = r.divide Level.pipeline.delimiters :=
    congrArg (segments Level.pipeline.delimiters) h.symm
  rw [toConditional_eq, toConditional_eq, hdivide]
  congr 1

theorem conditionalIssues_of_closed (h : r.closed = s.closed) :
    r.conditionalIssues = s.conditionalIssues := by
  have hdivide : r.divide Level.pipeline.delimiters = s.divide Level.pipeline.delimiters :=
    congrArg (segments Level.pipeline.delimiters) h
  rw [conditionalIssues_eq, conditionalIssues_eq, hdivide]

theorem isBlank_of_closed (h : r.closed = s.closed) : r.isBlank = s.isBlank := by
  change r.closed.isBlank = s.closed.isBlank
  rw [h]

theorem SameSegment.toConditional_eq (h : r.SameSegment s) : r.toConditional = s.toConditional := by
  rw [toConditional_of_closed h.closed_eq, ← h.nextOperator_eq]
  exact toConditional_of_closed rfl

theorem SameSegment.placeIssues_eq (h : r.SameSegment s) :
    conditionalPlaceIssues r r.conditionalIssues =
      conditionalPlaceIssues s s.conditionalIssues := by
  have hstop : r.closed.stop = s.closed.stop := by rw [h.closed_eq]
  rw [conditionalPlaceIssues, conditionalPlaceIssues, isBlank_of_closed h.closed_eq,
    h.nextOperator_eq, conditionalIssues_of_closed h.closed_eq, show r.stop = s.stop from hstop]

/-- Of a conditional that is not blank the issues do not depend on what is behind it. -/
theorem placeIssues_of_closed (h : r.closed = s.closed) (hblank : ¬ r.isBlank) :
    conditionalPlaceIssues r r.conditionalIssues =
      conditionalPlaceIssues s s.conditionalIssues := by
  rw [conditionalPlaceIssues, conditionalPlaceIssues, ← isBlank_of_closed h, if_neg hblank,
    if_neg hblank, conditionalIssues_of_closed h]

/-- **The conditionals on both sides of a separator** are those of the line. The separator ends the
last one in front of it. Unless that one is blank, the issues of both sides are those of the line. -/
theorem exists_conditionals_append (c : Split r)
    (houtside : depthAlong 0 (c.before.map Token.kind) = 0)
    (hmem : c.token.kind ∈ Level.conditional.delimiters) :
    ∃ init last, c.left.toLine.conditionals = init ++ [last] ∧ last.separator = .eol ∧
      r.toLine.conditionals =
        init ++ { last with separator := c.token.kind } :: c.right.toLine.conditionals ∧
      (¬ last.mark.IsBlank → r.lineIssues = c.left.lineIssues ++ c.right.lineIssues) := by
  obtain ⟨init, last, parts, s, hleft, hlast, hdivide, hparts, hs, hnext⟩ :=
    exists_divide_append c houtside hmem (by decide)
  refine ⟨init.map toConditional, last.toConditional, ?_, ?_, ?_, ?_⟩
  · rw [toLine_eq, hleft, List.map_append, List.map_singleton]
  · rw [separator_toConditional, hlast]
  · have hinit := map_eq_map_of_forall₂ hparts fun _ _ _ h => h.toConditional_eq
    rw [toLine_eq, toLine_eq, hdivide, List.map_append, List.map_cons, ← hinit,
      toConditional_of_closed hs, hnext]
  · intro hblank
    have hinit : (init.flatMap fun s => conditionalPlaceIssues s s.conditionalIssues) =
        parts.flatMap fun s => conditionalPlaceIssues s s.conditionalIssues := by
      rw [List.flatMap_def, List.flatMap_def,
        map_eq_map_of_forall₂ hparts fun _ _ _ h => h.placeIssues_eq]
    have hlast : ¬ last.isBlank := by
      rwa [mark_toConditional, isBlank_span_iff] at hblank
    rw [lineIssues_eq, lineIssues_eq, lineIssues_eq, hdivide, hleft, List.flatMap_append,
      List.flatMap_append, List.flatMap_cons, List.flatMap_singleton, hinit,
      placeIssues_of_closed hs hlast, List.append_assoc]

end Region

/-! ## Sorting -/

/-- Lists with two parts that a test tells apart have the same parts if they are the same. -/
theorem append_inj_of_forall {α : Type} {p : α → Bool} {xs ys us vs : List α}
    (h : xs ++ ys = us ++ vs) (hxs : ∀ x ∈ xs, p x = false) (hys : ∀ y ∈ ys, p y)
    (hus : ∀ u ∈ us, p u = false) (hvs : ∀ v ∈ vs, p v) : xs = us ∧ ys = vs := by
  have hnone : ∀ {zs : List α}, (∀ z ∈ zs, p z = false) → zs.filter p = [] := by
    intro zs hzs
    refine List.filter_eq_nil_iff.mpr fun z hz => ?_
    rw [hzs z hz]
    exact Bool.false_ne_true
  have hbehind := congrArg (List.filter p) h
  rw [List.filter_append, List.filter_append, hnone hxs, hnone hus, List.filter_eq_self.mpr hys,
    List.filter_eq_self.mpr hvs] at hbehind
  have hys : ys = vs := hbehind
  subst hys
  exact ⟨List.append_cancel_right h, rfl⟩

/-- **Sorting keeps apart what stands apart**: if nothing in a second list belongs in front of
anything in a first one, both are sorted by themselves. -/
theorem mergeSort_append {α : Type} {le : α → α → Bool}
    (trans : ∀ a b c, le a b → le b c → le a c) (total : ∀ a b, le a b || le b a)
    {xs ys : List α} (h : ∀ x ∈ xs, ∀ y ∈ ys, le x y) :
    (xs ++ ys).mergeSort le = xs.mergeSort le ++ ys.mergeSort le := by
  induction xs with
  | nil => rw [List.mergeSort_nil]; rfl
  | cons x xs ih =>
    obtain ⟨hx, h⟩ := List.forall_mem_cons.mp h
    obtain ⟨l₁, l₂, hall, hrest, hl₁⟩ := List.mergeSort_cons trans total x (xs ++ ys)
    obtain ⟨k₁, k₂, hfirst, hxs, hk₁⟩ := List.mergeSort_cons trans total x xs
    have hl := List.pairwise_mergeSort trans total (x :: (xs ++ ys))
    have hk := List.pairwise_mergeSort trans total (x :: xs)
    rw [hall] at hl
    rw [hfirst] at hk
    have hl₂ := (List.pairwise_cons.mp (List.pairwise_append.mp hl).2.1).1
    have hk₂ := (List.pairwise_cons.mp (List.pairwise_append.mp hk).2.1).1
    -- the head goes in front of the first member that it is not behind, which is the same in both
    have hsame : l₁ ++ l₂ = k₁ ++ (k₂ ++ ys.mergeSort le) := by
      rw [← hrest, ih h, hxs, List.append_assoc]
    obtain ⟨rfl, rfl⟩ := append_inj_of_forall (p := le x) hsame (by simpa using hl₁) hl₂
      (by simpa using hk₁)
      (List.forall_mem_append.mpr ⟨hk₂, fun y hy => hx y (List.mem_mergeSort.mp hy)⟩)
    rw [List.cons_append, hall, hfirst]
    simp

/-! ## Two lines -/

namespace Region

variable {r : Region}

/-- **The issues on both sides of a token** are apart, also in source order. -/
theorem diagnose_of_split (c : Split r) (h : r.lineIssues = c.left.lineIssues ++ c.right.lineIssues) :
    diagnose r = diagnose c.left ++ diagnose c.right := by
  rw [diagnose, h]
  refine mergeSort_append ?_ ?_ ?_
  · simp only [decide_eq_true_eq]
    exact fun _ _ _ => Nat.le_trans
  · simp only [Bool.or_eq_true, decide_eq_true_eq]
    exact fun _ _ => Nat.le_total _ _
  · intro x hx y hy
    have hb := c.bounds
    have hx : c.left.start ≤ x.position ∧ x.position ≤ c.token.start :=
      c.left.settled_lineIssues.within x hx
    have hy : c.token.stop ≤ y.position ∧ y.position ≤ c.right.stop :=
      c.right.settled_lineIssues.within y hy
    rw [decide_eq_true_iff]
    omega

/-- Behind characters of whose tokens none is left open an operator splits the region that goes
on. -/
theorem exists_split_of_text {r : Region} {a b : Text} {c : Char} {k : Kind}
    (hc : Operator.Lone c k) (htext : r.text = a ++ c :: b)
    (hclosed : ∀ t ∈ tokenize a, t.isTerminated) :
    ∃ s : Split r, s.token = Token.lone k r.source (r.start + a.length) ∧
      s.before.map Token.kind = (tokenize a).map Token.kind ∧ s.left.text = a ∧ s.right.text = b := by
  have happend := tokensOf_append (a := a) (a ++ c :: b) b hc (Nat.zero_le _)
  rw [Text.slice_self] at happend
  have htokens : r.tokens =
      (tokensOf (a ++ c :: b) 0 a).map (Token.shift r.source r.start) ++
        Token.lone k r.source (r.start + a.length) ::
          (tokensOf (a ++ c :: b) (a.length + 1) b).map (Token.shift r.source r.start) := by
    rw [r.tokens_eq_shift, htext, tokenize, happend hclosed, List.map_append, List.map_cons]
    simp only [Token.shift, Token.lone, Nat.add_comm r.start, Nat.add_right_comm]
  refine ⟨⟨_, _, _, htokens⟩, rfl, ?_, ?_, ?_⟩
  · have hshift : tokensOf (a ++ c :: b) 0 a = _ := tokensOf_shift (a ++ c :: b) a 0 0 a
    change ((tokensOf (a ++ c :: b) 0 a).map _).map Token.kind = _
    rw [hshift, List.map_map, List.map_map]
    rfl
  · rw [Split.text_left, htext]
    change (a ++ c :: b).take (r.start + a.length - r.start) = a
    rw [Nat.add_sub_cancel_left, List.take_left]
  · rw [Split.text_right, htext]
    change (a ++ c :: b).drop (r.start + a.length + 1 - r.start) = b
    rw [Nat.add_assoc, Nat.add_sub_cancel_left, ← List.drop_drop, List.drop_left]
    rfl

/-- Behind a text of whose tokens none is left open a semicolon splits the text that goes on. -/
theorem exists_split_append (a b : Text) (hclosed : ∀ t ∈ tokenize a, t.isTerminated) :
    ∃ c : Split (ofText (a ++ ';' :: b)), c.token = Token.semicolon (a ++ ';' :: b) a.length ∧
      c.before.map Token.kind = (tokenize a).map Token.kind ∧ c.left.text = a ∧ c.right.text = b := by
  obtain ⟨c, htoken, hsides⟩ := exists_split_of_text (r := ofText (a ++ ';' :: b))
    Operator.lone_semicolon (Text.slice_self _) hclosed
  exact ⟨c, htoken.trans (congrArg (Token.lone _ _) (Nat.zero_add _)), hsides⟩

end Region

/-- **Two lines with a semicolon between them.** If no token of the first one is left open, and no
parenthesis, its conditionals come first, the last of them ended by the semicolon, and then those of
the second one, further on by the first one and the semicolon. Unless that last conditional is blank
so do the issues. -/
theorem Line.ofText_sequence (a b : Text) (hclosed : ∀ t ∈ tokenize a, t.isTerminated)
    (hmatched : ∀ t ∈ unmatched [] (tokenize a), t.kind ≠ .lparen) :
    ∃ init last, (Line.ofText a).conditionals = init ++ [last] ∧ last.separator = .eol ∧
      (Line.ofText (a ++ ';' :: b)).conditionals =
        init ++ { last with separator := .sequence } ::
          (Line.ofText b).conditionals.map (Conditional.map (Span.shift (a.length + 1))) ∧
      (¬ last.mark.IsBlank →
        diagnose (Region.ofText (a ++ ';' :: b)) =
          diagnose (Region.ofText a) ++
            (diagnose (Region.ofText b)).map (Issue.shift (a.length + 1))) := by
  obtain ⟨c, htoken, hbefore, hleft, hright⟩ := Region.exists_split_append a b hclosed
  have houtside : depthAlong 0 (c.before.map Token.kind) = 0 := by
    rw [hbefore]
    exact @depthAlong_of_unmatched [] _ (List.forall_mem_nil _) hmatched
  have hkind : c.token.kind = .sequence := by rw [htoken]; rfl
  have hstart : c.right.start = a.length + 1 := congrArg Token.stop htoken
  -- each side is read as if it stood alone
  have hfirst : c.left.toLine = Line.ofText a := by
    rw [c.left.toLine_eq_shift, hleft]
    exact Line.map_id _
  have hsecond : c.right.toLine.conditionals =
      (Line.ofText b).conditionals.map (Conditional.map (Span.shift (a.length + 1))) := by
    rw [c.right.toLine_eq_shift, hright, hstart, Line.map]
  obtain ⟨init, last, hconditionals, hlast, hall, hissues⟩ :=
    Region.exists_conditionals_append c houtside (by rw [hkind]; decide)
  rw [hfirst] at hconditionals
  rw [hsecond, hkind] at hall
  refine ⟨init, last, hconditionals, hlast, hall, fun hblank => ?_⟩
  rw [Region.diagnose_of_split c (hissues hblank), c.left.diagnose_eq_shift,
    c.right.diagnose_eq_shift, hleft, hright, hstart]
  congr 1
  exact List.map_id _

/-- A line with a parenthesis that nothing opens and a bar that nothing follows, in front of one with
a group that is not closed. -/
theorem Line.ofText_sequence_malformed :
    (∀ t ∈ tokenize ") x |".toList, t.isTerminated) ∧
      (∀ t ∈ unmatched [] (tokenize ") x |".toList), t.kind ≠ .lparen) ∧
      ∃ last, (Line.ofText ") x |".toList).conditionals = [last] ∧ ¬ last.mark.IsBlank ∧
        (Line.ofText (") x |".toList ++ ';' :: "(y".toList)).conditionals =
          { last with separator := .sequence } ::
            (Line.ofText "(y".toList).conditionals.map (Conditional.map (Span.shift 6)) ∧
        diagnose (Region.ofText (") x |".toList ++ ';' :: "(y".toList)) =
          diagnose (Region.ofText ") x |".toList) ++
            (diagnose (Region.ofText "(y".toList)).map (Issue.shift 6) := by
  have hclosed : ∀ t ∈ tokenize ") x |".toList, t.isTerminated := by decide +kernel
  have hmatched : ∀ t ∈ unmatched [] (tokenize ") x |".toList), t.kind ≠ .lparen := by
    decide +kernel
  have hone : (Line.ofText ") x |".toList).conditionals =
      [(Region.ofText ") x |".toList).closed.toConditional] :=
    Region.conditionals_of_undivided (by decide +kernel)
  have hblank : ¬ (Region.ofText ") x |".toList).closed.toConditional.mark.IsBlank := by
    rw [Region.mark_toConditional, Region.isBlank_span_iff]
    decide +kernel
  obtain ⟨init, last, hconditionals, -, hall, hissues⟩ :=
    Line.ofText_sequence _ "(y".toList hclosed hmatched
  rw [hone] at hconditionals
  obtain ⟨rfl, hlast⟩ | ⟨-, hnil⟩ := List.singleton_eq_append_iff.mp hconditionals
  · obtain rfl := List.singleton_inj.mp hlast
    exact ⟨hclosed, hmatched, _, hone, hblank, hall, hissues hblank⟩
  · cases hnil

end CommandLine
