import CommandLine.Proofs.Cutting
import CommandLine.Proofs.Nesting
import CommandLine.Words

/-!
# Dividing a region

Segments are found by reading characters; here they are found in the list of tokens. A region has
either no delimiter outside parentheses, and then it is its own only segment, or a first one, and
then its segments are the part before that delimiter and the segments of the part after it.

* `Region.Split` — a token of a region, with the regions on both sides of it.
* `Region.Cut` — a split at the first delimiter outside parentheses.
* `Region.divide_of_undivided`, `Region.divide_of_cut` — the segments in the two cases.
* `Region.cut_induction` — what holds of an undivided region, and of a region if it holds of what
  follows the first delimiter, holds of every region.
-/

namespace CommandLine

/-- Without a delimiter among the tokens, all characters stand before the first delimiter. -/
theorem undelimited_of_undivided {delimiters : List Kind} {depth : Nat} {source : Text} {pos : Nat}
    {cs : Text} (h : Undivided delimiters depth ((tokensOf source pos cs).map Token.kind)) :
    undelimited delimiters depth cs = cs.length := by
  induction hts : tokensOf source pos cs generalizing depth pos cs with
  | nil => exact undelimited_none (tokensOf_eq_nil_iff.mp hts)
  | cons t ts ih =>
    obtain ⟨l, hl, rfl, rfl⟩ := tokensOf_eq_cons hts
    have hw := Lexeme.width_le hl
    rw [hts, List.map_cons, Undivided, Token.kind_ofLexeme] at h
    rw [undelimited_some hl, if_neg h.1, ih h.2 rfl, List.length_drop]
    omega

/-- The characters before the first delimiter end where that token starts. -/
theorem undelimited_of_delimiter {delimiters : List Kind} {depth : Nat} {source : Text} {pos : Nat}
    {cs : Text} {before after : List Token} {t : Token}
    (h : tokensOf source pos cs = before ++ t :: after)
    (hfree : Undivided delimiters depth (before.map Token.kind))
    (hdepth : depthAlong depth (before.map Token.kind) = 0) (ht : t.kind ∈ delimiters) :
    undelimited delimiters depth cs = t.start - pos := by
  -- along the tokens in front of the delimiter, none of which is one
  induction before generalizing depth pos cs with
  | nil =>
    obtain ⟨l, hl, rfl, -⟩ := tokensOf_eq_cons h
    rw [undelimited_some hl, if_pos ⟨hdepth, ht⟩]
    simp [Token.ofLexeme]
  | cons x before ih =>
    obtain ⟨l, hl, rfl, hrest⟩ := tokensOf_eq_cons h
    have hb := bounds_of_split hrest.symm
    rw [List.map_cons, Undivided, Token.kind_ofLexeme] at hfree
    rw [undelimited_some hl, if_neg hfree.1, ih hrest.symm hfree.2 hdepth]
    omega

namespace Region

/-- The kinds of the tokens of a region. -/
def kinds (r : Region) : List Kind := r.tokens.map Token.kind

/-- Regions with the same text and the same bounds are the same. -/
theorem eq_of_bounds {a b : Region} (hsource : a.source = b.source) (hstart : a.start = b.start)
    (hstop : a.stop = b.stop) (hlimit : a.limit = b.limit) : a = b := by
  cases a
  cases b
  simp_all

/-- The tokens of a text as a region are all its tokens. -/
theorem tokens_ofText (t : Text) : (ofText t).tokens = tokenize t := by
  rw [tokens, text, tokenize]
  exact congrArg (tokensOf t 0) (Text.slice_self t)

/-- No token of a region is the end of the line. -/
theorem kind_ne_eol {r : Region} {t : Token} (ht : t ∈ r.tokens) : t.kind ≠ .eol := by
  obtain ⟨l, hl, -, htl⟩ := Token.exists_lexeme_of_mem ht
  rw [htl]
  exact Lexeme.kind_ne_eol hl

/-- Nothing follows a region that is its own limit. -/
theorem endToken_closed (r : Region) : r.closed.endToken = Token.endOfLine r.source r.stop := by
  refine Token.scan_none ?_
  change Lexeme.first? (r.source.slice r.stop r.stop) = none
  rw [Text.slice_of_le _ (Nat.le_refl _)]
  exact Lexeme.first?_eq_none_iff.mpr (by simp [gapWidth])

theorem nextOperator_closed (r : Region) : r.closed.nextOperator = .eol :=
  congrArg Token.kind r.endToken_closed

/-! ## Splitting a region at a token -/

/-- A token of a region, with the tokens before and after it. -/
structure Split (r : Region) where
  /-- the tokens before it -/
  before : List Token
  /-- the token -/
  token : Token
  /-- the tokens after it -/
  after : List Token
  /-- together they are the tokens of the region -/
  tokens_eq : r.tokens = before ++ token :: after

namespace Split

variable {r : Region} (c : Split r)

theorem mem : c.token ∈ r.tokens := by
  rw [c.tokens_eq]
  exact List.mem_append_right _ List.mem_cons_self

theorem bounds : r.start ≤ c.token.start ∧ c.token.start < c.token.stop ∧ c.token.stop ≤ r.stop :=
  tokens_bounds c.mem

/-- The part of the region before the token. It can be left over the token up to the end of the
region. -/
def left : Region :=
  { r.closed with
    stop := c.token.start
    start_le_stop := c.bounds.1
    stop_le_limit := Nat.le_trans (Nat.le_of_lt c.bounds.2.1) c.bounds.2.2 }

/-- The part of the region after the token. -/
def right : Region :=
  { r.closed with
    start := c.token.stop
    start_le_stop := c.bounds.2.2 }

theorem text_left : c.left.text = r.text.take (c.token.start - r.start) := by
  have hb := c.bounds
  change _ = (r.source.slice r.start r.stop).take (c.token.start - r.start)
  rw [Text.take_slice (by omega), Nat.add_sub_cancel' hb.1]
  rfl

theorem text_right : c.right.text = r.text.drop (c.token.stop - r.start) := by
  have hb := c.bounds
  change _ = (r.source.slice r.start r.stop).drop (c.token.stop - r.start)
  rw [Text.drop_slice, Nat.add_sub_cancel' (by omega)]
  rfl

theorem tokens_left : c.left.tokens = c.before := by
  rw [tokens, c.text_left]
  exact (tokensOf_split c.tokens_eq).1

theorem tokens_right : c.right.tokens = c.after := by
  rw [tokens, c.text_right]
  exact (tokensOf_split c.tokens_eq).2.2

theorem endToken_left : c.left.endToken = c.token := Token.scan_start_of_mem c.mem

theorem nextOperator_left : c.left.nextOperator = c.token.kind :=
  congrArg Token.kind c.endToken_left

/-- The tokens around the token, and the token, are the tokens of the region. -/
theorem tokens_eq_append : r.tokens = c.left.tokens ++ c.token :: c.right.tokens := by
  rw [c.tokens_left, c.tokens_right, c.tokens_eq]

theorem tokens_left_prefix : c.left.tokens <+: r.tokens := by
  rw [c.tokens_eq_append]
  exact List.prefix_append _ _

theorem tokens_right_suffix : c.right.tokens <:+ r.tokens := by
  rw [c.tokens_eq_append]
  exact (List.suffix_cons _ _).trans (List.suffix_append _ _)

/-- Delimiters that a region has none of outside parentheses are missing on both sides of a token
that stands outside parentheses. -/
theorem undivided_sides {delimiters : List Kind} (h : Undivided delimiters 0 r.kinds)
    (houtside : depthAlong 0 (c.before.map Token.kind) = 0) (hk : c.token.kind ≠ .lparen) :
    Undivided delimiters 0 c.left.kinds ∧ Undivided delimiters 0 c.right.kinds := by
  rw [kinds, c.tokens_eq, List.map_append, undivided_append, houtside, List.map_cons, Undivided,
    depthAfter_zero hk] at h
  rw [kinds, kinds, c.tokens_left, c.tokens_right]
  exact ⟨h.1, h.2.2⟩

/-- A control operator is written with its spelling. -/
theorem raw_token (hk : c.token.kind.isControl) : c.token.raw = c.token.kind.spelling := by
  have hspelled : ∀ p ∈ Operator.spellings, p.2.isControl → p.1 = p.2.spelling := by decide
  refine hspelled (c.token.raw, c.token.kind) (Token.raw_mem_spellings c.mem ?_) hk
  intro hword
  rw [hword] at hk
  cases hk

/-- The characters of a region are those before the token, those of the token and those after it. -/
theorem text_eq : r.text = c.left.text ++ c.token.raw ++ c.right.text := by
  have hb := c.bounds
  change r.source.slice r.start r.stop = r.source.slice r.start c.token.start
    ++ c.token.source.slice c.token.start c.token.stop ++ r.source.slice c.token.stop r.stop
  rw [source_of_mem_tokensOf c.mem, Text.slice_append (by omega) (by omega),
    Text.slice_append (by omega) (by omega)]

end Split

/-! ## Cutting a region at its first delimiter -/

/-- A split of a region at the first delimiter outside parentheses. -/
structure Cut (delimiters : List Kind) (r : Region) extends Split r where
  /-- no delimiter stands before it -/
  undivided : Undivided delimiters 0 (before.map Token.kind)
  /-- it stands outside parentheses -/
  outside : depthAlong 0 (before.map Token.kind) = 0
  /-- it is a delimiter -/
  kind_mem : token.kind ∈ delimiters

variable {delimiters : List Kind}

theorem Cut.ne_lparen {r : Region} (c : Cut delimiters r) (hparen : .lparen ∉ delimiters) :
    c.token.kind ≠ .lparen :=
  fun h => hparen (h ▸ c.kind_mem)

/-- A region without a delimiter outside parentheses is its own only segment. -/
theorem divide_of_undivided {r : Region} (h : Undivided delimiters 0 r.kinds) :
    r.divide delimiters = [r.closed] := by
  -- the first segment takes all characters, and at the limit no other one follows
  have hfirst : r.closed.firstSegment delimiters = r.closed := by
    refine eq_of_bounds rfl rfl ?_ rfl
    have hall := undelimited_of_undivided h
    rw [length_text, length] at hall
    have := r.start_le_stop
    change r.start + undelimited delimiters 0 r.text = r.stop
    omega
  have hge : ¬ r.closed.stop < r.closed.limit := Nat.lt_irrefl _
  rw [divide, segments, hfirst, segmentsFrom, if_neg hge]

/-- The segments of a region with a delimiter outside parentheses are the part before the first one
and the segments of the part after it. -/
theorem divide_of_cut {r : Region} (c : Cut delimiters r) :
    r.divide delimiters = c.left :: c.right.divide delimiters := by
  have hb := c.bounds
  have hfirst : r.closed.firstSegment delimiters = c.left := by
    refine eq_of_bounds rfl rfl ?_ rfl
    have hall := undelimited_of_delimiter c.tokens_eq c.undivided c.outside c.kind_mem
    change r.start + undelimited delimiters 0 r.text = c.token.start
    omega
  -- the next segment is looked for behind the token at the end of the first: the delimiter
  have hnext : c.left.nextSegment delimiters = c.right.closed.firstSegment delimiters := by
    have hend : c.left.endToken.stop = c.token.stop := congrArg Token.stop c.endToken_left
    refine eq_of_bounds rfl hend ?_ rfl
    simp only [nextSegment, firstSegment, hend]
    rfl
  have hlt : c.left.stop < c.left.limit := Nat.lt_of_lt_of_le hb.2.1 hb.2.2
  rw [divide, segments, hfirst, segmentsFrom, if_pos hlt, hnext]
  rfl

/-- **Induction over the segments of a region**: a property holds of every region if it holds of
those without a delimiter outside parentheses, and of a region whenever it holds of what follows its
first delimiter. -/
@[elab_as_elim]
theorem cut_induction (delimiters : List Kind) {motive : Region → Prop}
    (last : ∀ r : Region, Undivided delimiters 0 r.kinds → motive r)
    (cut : ∀ (r : Region) (c : Cut delimiters r), motive c.right → motive r) (r : Region) :
    motive r := by
  induction h : r.length using Nat.strongRecOn generalizing r with
  | ind n ih =>
    subst h
    by_cases hfree : Undivided delimiters 0 r.kinds
    · exact last r hfree
    · obtain ⟨before, t, after, htokens, hbefore, hdepth, ht⟩ := exists_first_delimiter hfree
      let c : Cut delimiters r := ⟨⟨before, t, after, htokens⟩, hbefore, hdepth, ht⟩
      -- the delimiter takes a character, so what follows it is shorter
      have hb := c.bounds
      refine cut r c (ih _ ?_ _ rfl)
      change r.stop - c.token.stop < r.stop - r.start
      omega

/-! ## What the segments are -/

/-- Every segment but the last ends at a delimiter, and the last one ends the region. -/
theorem exists_last_segment (delimiters : List Kind) (r : Region) :
    ∃ init last, r.divide delimiters = init ++ [last] ∧
      (∀ s ∈ init, s.nextOperator ∈ delimiters ∧ s.nextOperator ≠ .eol) ∧
      last.nextOperator = .eol := by
  induction r using cut_induction delimiters with
  | last r hfree =>
    refine ⟨[], r.closed, divide_of_undivided hfree, ?_, nextOperator_closed r⟩
    intro s hs
    cases hs
  | cut r c ih =>
    obtain ⟨init, last, hdivide, hinit, hlast⟩ := ih
    refine ⟨c.left :: init, last, ?_, ?_, hlast⟩
    · rw [divide_of_cut c, hdivide]
      rfl
    · intro s hs
      rcases List.mem_cons.mp hs with rfl | hs
      · rw [c.nextOperator_left]
        exact ⟨c.kind_mem, kind_ne_eol c.mem⟩
      · exact hinit s hs

/-- The tokens of a segment follow one another in the region. -/
theorem tokens_infix_of_mem_divide {r s : Region} (hs : s ∈ r.divide delimiters) :
    s.tokens <:+: r.tokens := by
  induction r using cut_induction delimiters with
  | last r hfree =>
    rw [divide_of_undivided hfree, List.mem_singleton] at hs
    subst hs
    exact List.infix_refl _
  | cut r c ih =>
    rw [divide_of_cut c] at hs
    rcases List.mem_cons.mp hs with rfl | hs
    · exact c.tokens_left_prefix.isInfix
    · exact (ih hs).trans c.tokens_right_suffix.isInfix

/-- The segments of a region without tokens have none. -/
theorem tokens_eq_nil_of_mem_divide {r s : Region} (h : r.tokens = [])
    (hs : s ∈ r.divide delimiters) : s.tokens = [] := by
  have hinfix := tokens_infix_of_mem_divide hs
  rwa [h, List.infix_nil] at hinfix

/-- No delimiter stands outside parentheses in a segment. -/
theorem undivided_of_mem_divide {r s : Region} (hs : s ∈ r.divide delimiters) :
    Undivided delimiters 0 s.kinds := by
  induction r using cut_induction delimiters with
  | last r hfree =>
    rw [divide_of_undivided hfree, List.mem_singleton] at hs
    subst hs
    exact hfree
  | cut r c ih =>
    rw [divide_of_cut c] at hs
    rcases List.mem_cons.mp hs with rfl | hs
    · rw [kinds, c.tokens_left]
      exact c.undivided
    · exact ih hs

/-- Delimiters that a region has none of are in no segment of it, however it is divided. -/
theorem undivided_of_mem_divide_of {others : List Kind} {r s : Region}
    (h : Undivided others 0 r.kinds) (hparen : .lparen ∉ delimiters)
    (hs : s ∈ r.divide delimiters) : Undivided others 0 s.kinds := by
  induction r using cut_induction delimiters with
  | last r hfree =>
    rw [divide_of_undivided hfree, List.mem_singleton] at hs
    subst hs
    exact h
  | cut r c ih =>
    obtain ⟨hleft, hright⟩ := c.undivided_sides h c.outside (c.ne_lparen hparen)
    rw [divide_of_cut c] at hs
    rcases List.mem_cons.mp hs with rfl | hs
    · exact hleft
    · exact ih hright hs

end Region

end CommandLine
