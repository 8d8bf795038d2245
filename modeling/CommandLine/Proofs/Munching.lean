import CommandLine.Proofs.Automaton
import CommandLine.Proofs.Lossless
import Mathlib.Logic.Function.Iterate

/-!
# Longest tokens

The tokens of a region and the gaps between them are its text. A gap is as long as it can be, so no
blank is left in front of a token; an operator is the longest spelling that stands where it starts;
and a word, which starts where no operator does, goes on until something ends it. A cursor that is
moved on comes past every token and then to the end.

* `Operator.length_le_of_match?` — the spelling that matches first is the longest.
* `Token.Munches` — what a token takes of the characters up to a limit.
* `Token.scan_eq_eol_iff` — the end of the line is found where only blanks are left.
* `Text.gaps`, `tokensOf_interleave` — what stands around the tokens of a window.
* `Cursor.iterate_advance` — the way of a cursor.
* `Region.tokens_munch` — the tokens of a region.
-/

namespace CommandLine

/-! ## Gaps -/

/-- Blanks at the front of some characters are no more than their gap. -/
theorem Gap.length_le_gapWidth {gap cs : Text} (h : Gap gap) (hfront : gap <+: cs) :
    gap.length ≤ gapWidth cs := by
  obtain ⟨rest, rfl⟩ := hfront
  induction h with
  | nil => exact Nat.zero_le _
  | @space c cs hc _ ih =>
    rw [List.cons_append, gapWidth_cons_space (isSpace_iff.mpr hc)]
    exact Nat.succ_le_succ ih
  | continuation _ ih => exact Nat.add_le_add_right ih 2

/-- Some characters are blanks if their gap takes all of them. -/
theorem gap_iff {cs : Text} : Gap cs ↔ gapWidth cs = cs.length := by
  constructor
  · intro h
    exact Nat.le_antisymm (gapWidth_le cs) (h.length_le_gapWidth (List.prefix_refl cs))
  · intro h
    have hgap := gap_take_gapWidth cs
    rwa [h, List.take_length] at hgap

theorem first?_eq_none_iff_gap {cs : Text} : Lexeme.first? cs = none ↔ Gap cs := by
  rw [Lexeme.first?_eq_none_iff, gap_iff]

/-! ## Operators -/

namespace Operator

/-- The spelling that matches first is the longest of those that match. -/
theorem length_le_of_match? {cs : Text} {p q : Text × Kind} (h : match? cs = some p)
    (hq : q ∈ spellings) (hfront : q.1 <+: cs) : q.1.length ≤ p.1.length := by
  -- no spelling begins one that is listed behind it
  have hfree : spellings.Pairwise fun p q => ¬ p.1 <+: q.1 := by decide
  obtain ⟨hp, before, after, hlist, hbefore⟩ := List.find?_eq_some_iff_append.mp h
  rw [hlist] at hq hfree
  rcases List.mem_append.mp hq with hmem | hmem
  · have hnot := hbefore q hmem
    rw [Bool.not_eq_true', ← Bool.not_eq_true, List.isPrefixOf_iff_prefix] at hnot
    exact absurd hfront hnot
  · rcases List.mem_cons.mp hmem with rfl | hmem
    · exact Nat.le_refl _
    · by_contra hlt
      have hbehind := (List.pairwise_cons.mp (List.pairwise_append.mp hfree).2.1).1 q hmem
      rw [List.isPrefixOf_iff_prefix] at hp
      exact hbehind (List.prefix_of_prefix_length_le hp hfront (by omega))

theorem not_prefix_of_match?_eq_none {cs : Text} {q : Text × Kind} (h : match? cs = none)
    (hq : q ∈ spellings) : ¬ q.1 <+: cs := by
  have hnot := List.find?_eq_none.mp h q hq
  rwa [List.isPrefixOf_iff_prefix] at hnot

end Operator

/-! ## What a token takes -/

namespace Token

/-- A token takes all that it can of the characters up to a limit, and can be read. -/
structure Munches (t : Token) (limit : Nat) : Prop where
  /-- it takes at least one character -/
  nonempty : t.raw ≠ []
  /-- no blanks are left in front of it -/
  settled : ∀ gap, Gap gap → gap <+: t.source.slice t.start limit → gap = []
  /-- an operator is a spelling of its kind, and none that matches where it starts is longer -/
  operator : t.kind ≠ .word → (t.raw, t.kind) ∈ Operator.spellings ∧
    ∀ p ∈ Operator.spellings, p.1 <+: t.source.slice t.start limit → p.1.length ≤ t.raw.length
  /-- a word starts where no operator matches, and ends with the characters or at one that ends
  words -/
  word : t.kind = .word →
    (∀ p ∈ Operator.spellings, ¬ p.1 <+: t.source.slice t.start limit) ∧
      (t.stop = limit ∨ ∃ c ∈ t.source[t.stop]?, c ∈ Word.terminators)
  /-- a redirect token spells an operator -/
  redirect : t.kind = .redirect → ∃ op, t.redirectOp? = some op ∧ op.spelling = t.raw
  /-- it is read without an error -/
  readable : ∃ reading, t.read = .ok reading

/-- Only the end of the line is found where only blanks are left, and nowhere else. -/
theorem scan_eq_eol_iff (source : Text) (pos stop : Nat) :
    (scan source pos stop).kind = .eol ↔ Gap (source.slice pos stop) := by
  rw [← first?_eq_none_iff_gap]
  constructor
  · intro h
    cases hl : Lexeme.first? (source.slice pos stop) with
    | none => rfl
    | some l =>
      rw [scan_some hl] at h
      exact absurd h (Lexeme.kind_ne_eol hl)
  · intro h
    rw [scan_none h]
    rfl

variable {r : Region} {t : Token}

/-- No blanks stand in front of a token. -/
theorem gap_eq_nil (ht : t ∈ r.tokens) {gap : Text} (hgap : Gap gap)
    (hfront : gap <+: r.source.slice t.start r.stop) : gap = [] := by
  obtain ⟨l, hl, hzero, -⟩ := exists_lexeme_of_mem ht
  have hle := hgap.length_le_gapWidth hfront
  rw [← Lexeme.gap_eq hl, hzero] at hle
  exact List.eq_nil_of_length_eq_zero (Nat.le_zero.mp hle)

/-- Every token of a region is read without an error. -/
theorem read_eq_ok (ht : t ∈ r.tokens) : t.read = .ok ⟨t.text, t.unclosed?, t.redirectOp?⟩ := by
  obtain ⟨-, -, hstop⟩ := Region.tokens_bounds ht
  have hlen := Nat.le_trans r.stop_le_limit r.limit_le_length
  have hwithin : t.overruns = false := by
    have hle : ¬ max t.start t.source.length < t.stop := by
      rw [source_of_mem_tokensOf ht]
      omega
    simp [overruns, hle]
  rw [read, hwithin, if_neg Bool.false_ne_true, if_neg]
  rintro ⟨hk, hnone⟩
  obtain ⟨op, hop, -⟩ := exists_redirectOp ht hk
  rw [hop] at hnone
  cases hnone

/-- **The tokens of a region take all they can.** -/
theorem munches (ht : t ∈ r.tokens) : t.Munches r.stop := by
  have hsource := source_of_mem_tokensOf ht
  obtain ⟨-, hpos, -⟩ := Region.tokens_bounds ht
  refine ⟨?_, ?_, ?_, ?_, exists_redirectOp ht, ⟨_, read_eq_ok ht⟩⟩
  · intro hnil
    have hlen := length_raw ht
    rw [hnil, List.length_nil] at hlen
    omega
  · intro gap hgap hfront
    rw [hsource] at hfront
    exact gap_eq_nil ht hgap hfront
  · intro hk
    rw [hsource]
    exact ⟨raw_mem_spellings ht hk,
      fun p hp hfront => Operator.length_le_of_match? (match?_of_mem ht hk) hp hfront⟩
  · intro hk
    obtain ⟨hnone, -⟩ := word_of_mem ht hk
    rw [hsource]
    refine ⟨fun p hp => Operator.not_prefix_of_match?_eq_none hnone hp, ?_⟩
    rcases (isLeast_stop ht hk).1.2 with hend | ⟨-, -, hends⟩
    · exact .inl hend
    · exact .inr hends

end Token

/-! ## What stands around the tokens -/

/-- What stands before, between and after some tokens of the window `[pos, stop)`. -/
def Text.gaps (source : Text) (pos stop : Nat) : List Token → List Text
  | [] => [source.slice pos stop]
  | t :: ts => source.slice pos t.start :: gaps source t.stop stop ts

/-- There is one gap more than there are tokens. -/
theorem Text.length_gaps (source : Text) (pos stop : Nat) (ts : List Token) :
    (gaps source pos stop ts).length = ts.length + 1 := by
  induction ts generalizing pos with
  | nil => rfl
  | cons t ts ih => rw [gaps, List.length_cons, ih, List.length_cons]

/-- The first token of a window, with the gap before it. -/
theorem tokensOf_slice_eq_cons {source : Text} {pos stop : Nat} {t : Token} {ts : List Token}
    (h : tokensOf source pos (source.slice pos stop) = t :: ts) :
    Gap (source.slice pos t.start) ∧ ts = tokensOf source t.stop (source.slice t.stop stop) := by
  obtain ⟨l, hl, rfl, rfl⟩ := tokensOf_eq_cons h
  refine ⟨?_, ?_⟩
  · have hgap := gap_take_gapWidth (source.slice pos stop)
    have hw := Lexeme.width_le hl
    have hpos := Lexeme.length_pos hl
    rw [Text.length_slice, Lexeme.width] at hw
    rwa [← Lexeme.gap_eq hl, Text.take_slice (by omega)] at hgap
  · rw [Text.drop_slice]
    rfl

/-- Nothing but blanks stands around the tokens of a window. -/
theorem gap_of_mem_gaps {source : Text} {pos stop : Nat} {gap : Text}
    (h : gap ∈ Text.gaps source pos stop (tokensOf source pos (source.slice pos stop))) :
    Gap gap := by
  induction hts : tokensOf source pos (source.slice pos stop) generalizing pos with
  | nil =>
    rw [hts, Text.gaps, List.mem_singleton] at h
    rw [h, ← first?_eq_none_iff_gap, ← tokensOf_eq_nil_iff]
    exact hts
  | cons t ts ih =>
    obtain ⟨hgap, hrest⟩ := tokensOf_slice_eq_cons hts
    rw [hts, Text.gaps, List.mem_cons] at h
    rcases h with rfl | h
    · exact hgap
    · rw [hrest] at h
      exact ih h hrest.symm

/-- **The tokens of a window and the gaps around them are its characters.** -/
theorem tokensOf_interleave {source : Text} {pos stop : Nat} (hs : stop ≤ source.length) :
    Text.interleave (Text.gaps source pos stop (tokensOf source pos (source.slice pos stop)))
      ((tokensOf source pos (source.slice pos stop)).map Token.raw) = source.slice pos stop := by
  induction hts : tokensOf source pos (source.slice pos stop) generalizing pos with
  | nil => simp [Text.gaps, Text.interleave]
  | cons t ts ih =>
    have hmem : t ∈ tokensOf source pos (source.slice pos stop) := by
      rw [hts]
      exact List.mem_cons_self
    obtain ⟨hstart, hpos, hstop⟩ := tokensOf_bounds hmem
    obtain ⟨-, hrest⟩ := tokensOf_slice_eq_cons hts
    have hraw : t.raw = source.slice t.start t.stop := by
      rw [Token.raw, source_of_mem_tokensOf hmem]
    rw [Text.length_slice] at hstop
    rw [Text.gaps, List.map_cons, Text.interleave, ih hrest.symm, hraw,
      Text.slice_append (by omega) (by omega), Text.slice_append (by omega) (by omega)]

/-! ## The way of a cursor -/

/-- **A cursor that is moved on** stands at one token after the other, and after the last of them at
the end. -/
theorem Cursor.iterate_advance (c : Cursor) :
    (∀ n < c.rest.length, (advance^[n] c).isEmpty = false) ∧
      (advance^[c.rest.length] c).isEmpty = true ∧
      (List.range c.rest.length).map (fun n => (advance^[n] c).token) = c.rest := by
  induction hts : c.rest generalizing c with
  | nil =>
    refine ⟨fun n hn => absurd hn (Nat.not_lt_zero n), ?_, rfl⟩
    rw [rest_eq] at hts
    split at hts
    · next he => exact he
    · cases hts
  | cons t ts ih =>
    rw [rest_eq] at hts
    split at hts
    · cases hts
    · next he =>
      obtain ⟨rfl, hrest⟩ := List.cons.inj hts
      obtain ⟨hbefore, hend, htokens⟩ := ih c.advance hrest
      refine ⟨fun n hn => ?_, hend, ?_⟩
      · cases n with
        | zero => exact Bool.eq_false_iff.mpr he
        | succ n => exact hbefore n (Nat.lt_of_succ_lt_succ hn)
      · rw [List.length_cons, List.range_succ_eq_map, List.map_cons, List.map_map]
        exact congrArg (c.token :: ·) htokens

/-! ## The tokens of a region -/

/-- **The tokens of a region.** The cursor of a region comes past its tokens and then to the end of
the line. They are exact spans of its text, one after the other, and what stands around them, which
together with them is the text, are blanks. Each of them takes all it can; and from any place on,
the end of the line is found exactly if only blanks are left up to the end of the region. -/
theorem Region.tokens_munch (r : Region) :
    ((∀ n < r.tokens.length, (Cursor.advance^[n] r.cursor).isEmpty = false) ∧
      (Cursor.advance^[r.tokens.length] r.cursor).isEmpty = true ∧
      (List.range r.tokens.length).map (fun n => (Cursor.advance^[n] r.cursor).token) = r.tokens) ∧
    (Text.interleave (r.source.gaps r.start r.stop r.tokens) (r.tokens.map Token.raw) = r.text ∧
      (r.source.gaps r.start r.stop r.tokens).length = r.tokens.length + 1 ∧
      ∀ gap ∈ r.source.gaps r.start r.stop r.tokens, Gap gap) ∧
    (r.tokens.Pairwise (fun t u => t.stop ≤ u.start) ∧
      ∀ t ∈ r.tokens, r.start ≤ t.start ∧ t.start < t.stop ∧ t.stop ≤ r.stop ∧
        t.raw = r.source.slice t.start t.stop ∧ t.Munches r.stop) ∧
    ∀ pos, (Token.scan r.source pos r.stop).kind = .eol ↔ Gap (r.source.slice pos r.stop) := by
  have hs := Nat.le_trans r.stop_le_limit r.limit_le_length
  refine ⟨?_, ⟨tokensOf_interleave hs, r.source.length_gaps _ _ _, fun gap => gap_of_mem_gaps⟩,
    ⟨pairwise_tokensOf _ _ _, fun t ht => ?_⟩, fun pos => Token.scan_eq_eol_iff _ _ _⟩
  · have hway := r.cursor.iterate_advance
    rwa [r.rest_cursor] at hway
  · obtain ⟨hstart, hpos, hstop⟩ := tokens_bounds ht
    refine ⟨hstart, hpos, hstop, ?_, Token.munches ht⟩
    rw [Token.raw, source_of_mem_tokensOf ht]

end CommandLine
