import CommandLine.Proofs.Quoting
import CommandLine.Token
import Mathlib.Data.List.Basic

/-!
# Cutting between tokens

A reader of tokens looks ahead: for the longer spelling of an operator, for the quote that closes a
word, for the character behind a backslash. None of this reaches over the end of a token. So some
characters may be cut in front of a token or behind it, and the tokens of both parts are those that
the whole had there. Everything that is said about segments of a line rests on this.

* `Lexeme.first?_cases` — an operator that matches after the gap, or a word where none does.
* `Lexeme.first?_take`, `Lexeme.first?_take_gap` — a lexeme under a cut behind it and before it.
* `tokensOf_split` — the tokens before a token, up to it and after it.
* `Token.match?_of_mem`, `Token.word_of_mem` — what an operator and a word are written with.
* `Token.isTerminated_of_lt` — a token that another follows leaves nothing open.
-/

namespace CommandLine

/-- Two slices that meet are one. -/
theorem Text.slice_append {t : Text} {a b c : Nat} (hab : a ≤ b) (hbc : b ≤ c) :
    t.slice a b ++ t.slice b c = t.slice a c := by
  rw [← List.take_append_drop (b - a) (t.slice a c), take_slice (by omega), drop_slice,
    Nat.add_sub_cancel' hab]

/-- A gap stays as wide under a cut that does not reach into it. -/
theorem gapWidth_take {cs : Text} {n : Nat} (h : gapWidth cs ≤ n) :
    gapWidth (cs.take n) = gapWidth cs := by
  fun_induction gapWidth cs generalizing n with
  | case1 => rw [List.take_nil, gapWidth]
  | case2 rest ih =>
    obtain ⟨m, rfl⟩ : ∃ m, n = m + 2 := ⟨n - 2, by omega⟩
    rw [List.take_succ_cons, List.take_succ_cons, gapWidth, ih (by omega)]
  | case3 c rest hpair hspace ih =>
    obtain ⟨m, rfl⟩ : ∃ m, n = m + 1 := ⟨n - 1, by omega⟩
    rw [List.take_succ_cons, gapWidth_cons_space hspace, ih (by omega)]
  | case4 c rest hpair hspace =>
    cases n with
    | zero => rw [List.take_zero, gapWidth]
    | succ m =>
      rw [List.take_succ_cons, gapWidth, if_neg hspace]
      -- a cut may take the character behind a backslash away, but puts no newline there
      intro _ hc hr
      cases rest with
      | nil => simp at hr
      | cons d ds =>
        cases m with
        | zero => simp at hr
        | succ k =>
          rw [List.take_succ_cons, List.cons.injEq] at hr
          exact hpair ds hc (by rw [hr.1])

namespace Operator

/-- An operator is matched under a cut behind it: no longer spelling begins to match. -/
theorem match?_take {cs : Text} {p : Text × Kind} {n : Nat} (h : match? cs = some p)
    (hn : p.1.length ≤ n) : match? (cs.take n) = some p := by
  obtain ⟨hp, before, after, hlist, hbefore⟩ := List.find?_eq_some_iff_append.mp h
  refine List.find?_eq_some_iff_append.mpr ⟨?_, before, after, hlist, ?_⟩
  · rw [List.isPrefixOf_iff_prefix] at hp ⊢
    exact List.prefix_take_iff.mpr ⟨hp, hn⟩
  · intro q hq
    have := hbefore q hq
    simp only [Bool.not_eq_true', ← Bool.not_eq_true, List.isPrefixOf_iff_prefix] at this ⊢
    exact fun hpre => this (hpre.trans (List.take_prefix n cs))

/-- A cut makes no operator out of characters that start with none. -/
theorem match?_take_eq_none {cs : Text} {n : Nat} (h : match? cs = none) :
    match? (cs.take n) = none := by
  rw [match?, List.find?_eq_none] at h ⊢
  intro q hq hpre
  rw [List.isPrefixOf_iff_prefix] at hpre
  exact h q hq (List.isPrefixOf_iff_prefix.mpr (hpre.trans (List.take_prefix n cs)))

end Operator

namespace Lexeme

/-- The first lexeme where an operator matches after the gap. -/
theorem first?_operator {cs : Text} {p : Text × Kind}
    (h : Operator.match? (cs.drop (gapWidth cs)) = some p) :
    first? cs = some ⟨gapWidth cs, p.2, p.1.length, false⟩ := by
  have hne : cs.drop (gapWidth cs) ≠ [] := by
    intro hnil
    rw [hnil] at h
    cases h
  obtain ⟨c, rest, hdrop⟩ := List.exists_cons_of_ne_nil hne
  rw [hdrop] at h
  rw [first?, hdrop]
  dsimp only
  rw [h]

/-- The first lexeme where no operator matches after the gap. -/
theorem first?_word {cs : Text} (hgap : gapWidth cs < cs.length)
    (h : Operator.match? (cs.drop (gapWidth cs)) = none) :
    first? cs = some ⟨gapWidth cs, .word, Word.extent (cs.drop (gapWidth cs)),
      Word.isQuoted ((cs.drop (gapWidth cs)).take (Word.extent (cs.drop (gapWidth cs))))⟩ := by
  have hlen : 0 < (cs.drop (gapWidth cs)).length := by
    rw [List.length_drop]
    omega
  obtain ⟨c, rest, hdrop⟩ := List.exists_cons_of_length_pos hlen
  rw [hdrop] at h
  rw [first?, hdrop]
  dsimp only
  rw [h]

/-- A first lexeme is an operator that matches after the gap, or a word where none does. -/
theorem first?_cases {cs : Text} {l : Lexeme} (h : first? cs = some l) :
    (∃ p, Operator.match? (cs.drop (gapWidth cs)) = some p ∧
        l = ⟨gapWidth cs, p.2, p.1.length, false⟩) ∨
      (Operator.match? (cs.drop (gapWidth cs)) = none ∧
        l = ⟨gapWidth cs, .word, Word.extent (cs.drop (gapWidth cs)),
          Word.isQuoted ((cs.drop (gapWidth cs)).take (Word.extent (cs.drop (gapWidth cs))))⟩) := by
  cases hop : Operator.match? (cs.drop (gapWidth cs)) with
  | some p =>
    rw [first?_operator hop, Option.some.injEq] at h
    exact .inl ⟨p, rfl, h.symm⟩
  | none =>
    have hgap : gapWidth cs < cs.length := by
      have := length_pos h
      have := width_le h
      rw [width, gap_eq h] at this
      omega
    rw [first?_word hgap hop, Option.some.injEq] at h
    exact .inr ⟨rfl, h.symm⟩

/-- **Cutting behind a lexeme** leaves it as it is. -/
theorem first?_take {cs : Text} {l : Lexeme} {n : Nat} (h : first? cs = some l)
    (hn : l.width ≤ n) : first? (cs.take n) = some l := by
  have hpos := length_pos h
  have hlen := width_le h
  have hgap : gapWidth (cs.take n) = gapWidth cs := by
    rw [width, gap_eq h] at hn
    exact gapWidth_take (by omega)
  have hdrop : (cs.take n).drop (gapWidth cs) = (cs.drop (gapWidth cs)).take (n - gapWidth cs) :=
    List.drop_take
  obtain ⟨p, hop, rfl⟩ | ⟨hop, rfl⟩ := first?_cases h
  · simp only [width] at hn
    rw [first?_operator (p := p), hgap]
    rw [hgap, hdrop]
    exact Operator.match?_take hop (by omega)
  · simp only [width] at hn hpos hlen
    rw [first?_word, hgap, hdrop, Word.extent_take (by omega), List.take_take,
      Nat.min_eq_left (by omega)]
    · rw [hgap, List.length_take]
      omega
    · rw [hgap, hdrop]
      exact Operator.match?_take_eq_none hop

/-- Cutting before a lexeme leaves no lexeme. -/
theorem first?_take_gap {cs : Text} {l : Lexeme} (h : first? cs = some l) :
    first? (cs.take l.gap) = none := by
  rw [first?_eq_none_iff, gap_eq h, gapWidth_take (Nat.le_refl _), List.length_take,
    Nat.min_eq_left (gapWidth_le cs)]

/-- A lexeme that does not take all characters leaves nothing open if it is a word. -/
theorem unclosed_eq_none {cs : Text} {l : Lexeme} (h : first? cs = some l) (hk : l.kind = .word)
    (hlt : l.width < cs.length) : Word.unclosed ((cs.drop l.gap).take l.length) = none := by
  obtain ⟨p, hop, rfl⟩ | ⟨-, rfl⟩ := first?_cases h
  · exact absurd hk (Operator.spellings_proper p (Operator.mem_of_match? hop).1).2.1
  · refine Word.unclosed_take_extent ?_
    simp only [width] at hlt
    rw [List.length_drop]
    omega

end Lexeme

@[simp] theorem Token.kind_ofLexeme (source : Text) (pos : Nat) (l : Lexeme) :
    (ofLexeme source pos l).kind = l.kind := rfl

theorem tokensOf_nil (source : Text) (pos : Nat) : tokensOf source pos [] = [] :=
  tokensOf_none (Lexeme.first?_eq_none_iff.mpr (by simp [gapWidth]))

/-- There are no tokens where there is no lexeme. -/
theorem tokensOf_eq_nil_iff {source : Text} {pos : Nat} {cs : Text} :
    tokensOf source pos cs = [] ↔ Lexeme.first? cs = none := by
  refine ⟨fun h => ?_, tokensOf_none⟩
  cases hl : Lexeme.first? cs with
  | none => rfl
  | some l =>
    rw [tokensOf_some hl] at h
    cases h

/-- The first of some tokens is a lexeme, and the others are the tokens of what follows it. -/
theorem tokensOf_eq_cons {source : Text} {pos : Nat} {cs : Text} {t : Token} {ts : List Token}
    (h : tokensOf source pos cs = t :: ts) :
    ∃ l, Lexeme.first? cs = some l ∧ t = Token.ofLexeme source pos l ∧
      ts = tokensOf source (pos + l.width) (cs.drop l.width) := by
  cases hl : Lexeme.first? cs with
  | none =>
    rw [tokensOf_none hl] at h
    cases h
  | some l =>
    rw [tokensOf_some hl, List.cons.injEq] at h
    exact ⟨l, rfl, h.1.symm, h.2.symm⟩

/-- The kinds of tokens do not depend on where the characters stand. -/
theorem map_kind_tokensOf (source source' : Text) (pos pos' : Nat) (cs : Text) :
    (tokensOf source pos cs).map Token.kind = (tokensOf source' pos' cs).map Token.kind := by
  induction hts : tokensOf source pos cs generalizing pos pos' cs with
  | nil => rw [tokensOf_none (tokensOf_eq_nil_iff.mp hts), List.map_nil]
  | cons t ts ih =>
    obtain ⟨l, hl, rfl, rfl⟩ := tokensOf_eq_cons hts
    rw [tokensOf_some hl, List.map_cons, List.map_cons, ih _ (pos' + l.width) _ rfl]
    rfl

/-- Tokens are spans of the text that they are read from. -/
theorem source_of_mem_tokensOf {source : Text} {pos : Nat} {cs : Text} {t : Token}
    (ht : t ∈ tokensOf source pos cs) : t.source = source := by
  induction hts : tokensOf source pos cs generalizing pos cs with
  | nil =>
    rw [hts] at ht
    cases ht
  | cons u us ih =>
    obtain ⟨l, -, rfl, rfl⟩ := tokensOf_eq_cons hts
    rw [hts] at ht
    rcases List.mem_cons.mp ht with rfl | ht
    · rfl
    · exact ih ht rfl

/-- A token among others lies where the characters stand, and takes at least one. -/
theorem bounds_of_split {source : Text} {pos : Nat} {cs : Text} {before after : List Token}
    {t : Token} (h : tokensOf source pos cs = before ++ t :: after) :
    pos ≤ t.start ∧ t.start < t.stop ∧ t.stop ≤ pos + cs.length := by
  have ht : t ∈ tokensOf source pos cs := by
    rw [h]
    exact List.mem_append_right _ List.mem_cons_self
  exact tokensOf_bounds ht

/-- Tokens follow one another: each ends before the next ones start. -/
theorem pairwise_tokensOf (source : Text) (pos : Nat) (cs : Text) :
    (tokensOf source pos cs).Pairwise fun t u => t.stop ≤ u.start := by
  induction hts : tokensOf source pos cs generalizing pos cs with
  | nil => exact .nil
  | cons t ts ih =>
    obtain ⟨l, -, rfl, hrest⟩ := tokensOf_eq_cons hts
    refine List.pairwise_cons.mpr ⟨fun u hu => ?_, ih _ _ hrest.symm⟩
    rw [hrest] at hu
    exact (tokensOf_bounds hu).1

/-- **Cutting at a token**: the tokens of the characters before a token, of those up to its end and
of those after it are the tokens before it, up to it and after it. -/
theorem tokensOf_split {source : Text} {pos : Nat} {cs : Text} {before after : List Token}
    {t : Token} (h : tokensOf source pos cs = before ++ t :: after) :
    tokensOf source pos (cs.take (t.start - pos)) = before ∧
      tokensOf source pos (cs.take (t.stop - pos)) = before ++ [t] ∧
      tokensOf source t.stop (cs.drop (t.stop - pos)) = after := by
  induction before generalizing pos cs with
  | nil =>
    obtain ⟨l, hl, rfl, rfl⟩ := tokensOf_eq_cons h
    simp only [Token.ofLexeme, Nat.add_sub_cancel_left, and_true]
    refine ⟨tokensOf_none (Lexeme.first?_take_gap hl), ?_⟩
    rw [tokensOf_some (Lexeme.first?_take hl (Nat.le_refl _)), List.drop_take_self, tokensOf_nil]
    rfl
  | cons x before ih =>
    obtain ⟨l, hl, rfl, hrest⟩ := tokensOf_eq_cons h
    have hb := bounds_of_split hrest.symm
    obtain ⟨hbefore, hupto, hafter⟩ := ih hrest.symm
    have hdrop : ∀ n, pos + l.width ≤ n →
        (cs.take (n - pos)).drop l.width = (cs.drop l.width).take (n - (pos + l.width)) := by
      intro n hn
      rw [List.drop_take]
      congr 1
      omega
    refine ⟨?_, ?_, ?_⟩
    · rw [tokensOf_some (Lexeme.first?_take hl (by omega)), hdrop _ hb.1, hbefore]
    · rw [tokensOf_some (Lexeme.first?_take hl (by omega)), hdrop _ (by omega), hupto]
      rfl
    · rw [← hafter, List.drop_drop]
      congr 2
      omega

namespace Token

/-- A scan from the start of a token of a window finds the token. -/
theorem scan_start_of_mem {source : Text} {pos stop : Nat} {t : Token}
    (ht : t ∈ tokensOf source pos (source.slice pos stop)) : scan source t.start stop = t := by
  induction h : stop - pos using Nat.strongRecOn generalizing pos with
  | ind n ih =>
    subst h
    rw [tokensOf_slice] at ht
    split at ht
    · cases ht
    · next hk =>
      dsimp only at ht
      rcases List.mem_cons.mp ht with rfl | ht
      · exact scan_scan_start source pos stop
      · have hlt : pos < stop := by
          by_contra hge
          apply hk
          rw [scan, Text.slice_of_le _ (by omega)]
          rfl
        have : pos < (scan source pos stop).stop := lt_scan_stop hlt
        exact ih _ (by omega) ht rfl

/-- Only a window without tokens has the end of the line as its first token. -/
theorem scan_eq_endOfLine {source : Text} {pos stop : Nat}
    (h : (scan source pos stop).kind = .eol) : scan source pos stop = endOfLine source stop := by
  cases hl : Lexeme.first? (source.slice pos stop) with
  | none => exact scan_none hl
  | some l =>
    rw [scan_some hl] at h
    exact absurd h (Lexeme.kind_ne_eol hl)

/-- A token of a window is the lexeme that the characters from its start on begin with. -/
theorem exists_lexeme_of_mem {source : Text} {pos stop : Nat} {t : Token}
    (ht : t ∈ tokensOf source pos (source.slice pos stop)) :
    ∃ l, Lexeme.first? (source.slice t.start stop) = some l ∧ l.gap = 0 ∧
      t = ofLexeme source t.start l := by
  have hscan := scan_start_of_mem ht
  cases hl : Lexeme.first? (source.slice t.start stop) with
  | none =>
    rw [scan_none hl] at hscan
    have := tokensOf_bounds ht
    rw [← hscan] at this
    exact absurd this.2.1 (Nat.lt_irrefl _)
  | some l =>
    rw [scan_some hl] at hscan
    refine ⟨l, rfl, ?_, hscan.symm⟩
    have := congrArg Token.start hscan
    simp only [ofLexeme] at this
    omega

/-- The exact characters of a token of a window. -/
theorem raw_ofLexeme {source : Text} {pos stop : Nat} {l : Lexeme}
    (hl : Lexeme.first? (source.slice pos stop) = some l) :
    (ofLexeme source pos l).raw = ((source.slice pos stop).drop l.gap).take l.length := by
  have hw := Lexeme.width_le hl
  have hpos := Lexeme.length_pos hl
  rw [Text.length_slice, Lexeme.width] at hw
  rw [raw, Text.drop_slice, Text.take_slice (by omega)]
  simp only [ofLexeme, Lexeme.width, Nat.add_assoc]

/-- A token of a window has as many characters as its span has positions. -/
theorem length_raw {source : Text} {pos stop : Nat} {t : Token}
    (ht : t ∈ tokensOf source pos (source.slice pos stop)) : t.raw.length = t.stop - t.start := by
  have hb := tokensOf_bounds ht
  rw [Text.length_slice] at hb
  rw [raw, source_of_mem_tokensOf ht]
  exact Text.length_slice_of_le (by omega)

/-- An operator is read where its characters and its kind match. -/
theorem match?_of_mem {source : Text} {pos stop : Nat} {t : Token}
    (ht : t ∈ tokensOf source pos (source.slice pos stop)) (hk : t.kind ≠ .word) :
    Operator.match? (source.slice t.start stop) = some (t.raw, t.kind) := by
  obtain ⟨l, hl, hgap, htl⟩ := exists_lexeme_of_mem ht
  have hraw := raw_ofLexeme hl
  have hkind : l.kind = t.kind := by
    rw [htl]
    rfl
  rw [← htl, hgap, List.drop_zero] at hraw
  obtain ⟨p, hop, rfl⟩ | ⟨-, rfl⟩ := Lexeme.first?_cases hl
  · -- no blanks stand in front of the operator, so nothing is dropped
    dsimp only at hgap hraw hkind
    rw [hgap, List.drop_zero] at hop
    obtain ⟨-, hfront⟩ := Operator.mem_of_match? hop
    rw [hop, hraw, ← hkind, ← List.prefix_iff_eq_take.mp hfront]
  · exact absurd hkind.symm hk

/-- An operator is written with one of the spellings of its kind. -/
theorem raw_mem_spellings {source : Text} {pos stop : Nat} {t : Token}
    (ht : t ∈ tokensOf source pos (source.slice pos stop)) (hk : t.kind ≠ .word) :
    (t.raw, t.kind) ∈ Operator.spellings :=
  (Operator.mem_of_match? (match?_of_mem ht hk)).1

/-- A redirect token spells the operator that is read off it. -/
theorem exists_redirectOp {source : Text} {pos stop : Nat} {t : Token}
    (ht : t ∈ tokensOf source pos (source.slice pos stop)) (hk : t.kind = .redirect) :
    ∃ op, t.redirectOp? = some op ∧ op.spelling = t.raw := by
  have hmem := raw_mem_spellings ht (by rw [hk]; decide)
  obtain ⟨op, hop⟩ := Option.isSome_iff_exists.mp (Operator.isSome_ofSpelling? _ hmem hk)
  refine ⟨op, ?_, ?_⟩
  · rw [redirectOp?, hk]
    exact hop
  · have hspelling := List.find?_some hop
    exact beq_iff_eq.mp hspelling

/-- A word is read where no operator matches, and takes all that a word there extends over. -/
theorem word_of_mem {source : Text} {pos stop : Nat} {t : Token}
    (ht : t ∈ tokensOf source pos (source.slice pos stop)) (hk : t.kind = .word) :
    Operator.match? (source.slice t.start stop) = none ∧
      t.stop = t.start + Word.extent (source.slice t.start stop) ∧
      t.raw = (source.slice t.start stop).take (Word.extent (source.slice t.start stop)) ∧
      t.quoted = Word.isQuoted t.raw := by
  obtain ⟨l, hl, hgap, htl⟩ := exists_lexeme_of_mem ht
  have hraw := raw_ofLexeme hl
  have hkind : l.kind = .word := by
    rw [← hk, htl]
    rfl
  rw [← htl, hgap, List.drop_zero] at hraw
  obtain ⟨p, hop, rfl⟩ | ⟨hop, rfl⟩ := Lexeme.first?_cases hl
  · exact absurd hkind (Operator.spellings_proper p (Operator.mem_of_match? hop).1).2.1
  · -- no blanks stand in front of the word, so nothing is dropped
    dsimp only at hgap hraw
    rw [hgap, List.drop_zero] at hop hraw htl
    refine ⟨hop, ?_, hraw, ?_⟩
    · rw [congrArg Token.stop htl]
      simp [ofLexeme, Lexeme.width]
    · rw [hraw, congrArg Token.quoted htl]
      rfl

/-- A token that does not end with its window leaves nothing open. -/
theorem isTerminated_of_lt {source : Text} {pos stop : Nat} {t : Token}
    (ht : t ∈ tokensOf source pos (source.slice pos stop)) (hlt : t.stop < stop)
    (hs : stop ≤ source.length) : t.isTerminated := by
  obtain ⟨l, hl, hgap, htl⟩ := exists_lexeme_of_mem ht
  refine isTerminated_iff.mpr fun hk => ?_
  rw [htl, raw_ofLexeme hl]
  refine Lexeme.unclosed_eq_none hl ?_ ?_
  · rw [htl] at hk
    exact hk
  · rw [htl] at hlt
    simp only [ofLexeme] at hlt
    rw [Text.length_slice_of_le hs]
    omega

end Token

end CommandLine
