import CommandLine.Cursor
import CommandLine.Proofs.Cutting
import Mathlib.Data.List.Find

/-!
# Reading tokens again

A token is read off its own characters. What stands behind it matters only where a longer operator
or word could begin with it, and what stands before it not at all. So the tokens of a line are found
again when its blanks are taken away and single ones are put between them, and a reader that starts
behind a token, or that has to stop at one, comes past the same tokens as one that reads on.

* `Border` — characters that have no part in what stands in front of them.
* `Lexeme.first?_append` — the first lexeme in front of such a character.
* `Token.first?_raw` — the characters of a token alone.
* `Token.Content` — what can be told of a token but its place.
* `Text.normalize`, `Text.normalize_stable` — single blanks between tokens.
* `Cursor.rest_cut` — cursors that stop at a token, or start behind it.
-/

namespace CommandLine

/-! ## In front of a border -/

/-- A character that has no part in what stands in front of it, as long as nothing is left open
there. -/
structure Border (c : Char) : Prop where
  /-- it ends a word -/
  ends : endsWord c = true
  /-- no operator goes on with it -/
  behind : ∀ p ∈ Operator.spellings, c ∉ p.1.tail
  /-- it makes no blank of a backslash -/
  ne_newline : c ≠ '\n'

theorem border_space : Border ' ' := ⟨by decide, by decide, by decide⟩

/-- Behind blanks the gap goes on with the blanks that follow. -/
theorem gapWidth_append_gap {cs : Text} (b : Text) (h : gapWidth cs = cs.length) :
    gapWidth (cs ++ b) = cs.length + gapWidth b := by
  fun_induction gapWidth cs with
  | case1 => exact (Nat.zero_add _).symm
  | case2 rest ih =>
    rw [List.cons_append, List.cons_append, gapWidth, ih (by simpa using h)]
    simp only [List.length_cons]
    omega
  | case3 d rest hpair hspace ih =>
    rw [List.cons_append, gapWidth_cons_space hspace, ih (by simpa using h), List.length_cons]
    omega
  | case4 d rest hpair hspace => simp at h

/-- A gap in front of something else stays as wide, whatever is put behind that. Only a newline may
make a blank of a backslash. -/
theorem gapWidth_append_of_lt {c : Char} {cs : Text} (b : Text) (hc : c ≠ '\n')
    (h : gapWidth cs < cs.length) : gapWidth (cs ++ c :: b) = gapWidth cs := by
  fun_induction gapWidth cs with
  | case1 => cases h
  | case2 rest ih => simpa [gapWidth] using ih (by simpa using h)
  | case3 d rest hpair hspace ih =>
    rw [List.cons_append, gapWidth_cons_space hspace, ih (by simpa using h)]
  | case4 d rest hpair hspace =>
    rw [List.cons_append, gapWidth, if_neg hspace]
    rintro ds rfl hds
    cases rest with
    | nil =>
      rw [List.nil_append, List.cons.injEq] at hds
      exact hc hds.1
    | cons e rest =>
      rw [List.cons_append, List.cons.injEq] at hds
      exact hpair rest rfl (by rw [hds.1])

/-- No operator goes over a character that none goes on with. -/
theorem Operator.match?_append {c : Char} {cs : Text} (b : Text)
    (hc : ∀ p ∈ spellings, c ∉ p.1.tail) (h : cs ≠ []) : match? (cs ++ c :: b) = match? cs := by
  refine List.find?_congr fun p hp => ?_
  rw [Bool.eq_iff_iff, List.isPrefixOf_iff_prefix, List.isPrefixOf_iff_prefix]
  refine ⟨fun hpre => ?_, fun hpre => hpre.trans (List.prefix_append _ _)⟩
  rcases Nat.lt_or_ge cs.length p.1.length with hlt | hge
  · -- otherwise the spelling reaches over the character
    obtain ⟨us, hus⟩ :=
      List.prefix_of_prefix_length_le (List.prefix_append cs _) hpre (Nat.le_of_lt hlt)
    obtain ⟨d, rest, rfl⟩ := List.exists_cons_of_ne_nil h
    rw [← hus, List.prefix_append_right_inj] at hpre
    cases us with
    | nil =>
      rw [List.append_nil] at hus
      rw [hus] at hlt
      exact absurd hlt (Nat.lt_irrefl _)
    | cons u us =>
      obtain ⟨rfl, -⟩ := List.cons_prefix_cons.mp hpre
      refine absurd ?_ (hc p hp)
      rw [← hus]
      exact List.mem_append_right _ List.mem_cons_self
  · exact List.prefix_of_prefix_length_le hpre (List.prefix_append cs _) hge

/-- A word that leaves nothing open ends in front of a character that ends words. -/
theorem Word.extentFrom_append {c : Char} {s : State} {cs : Text} (b : Text)
    (hc : endsWord c = true) (h : unclosedFrom s (cs.take (extentFrom s cs)) = none) :
    extentFrom s (cs ++ c :: b) = extentFrom s cs := by
  induction cs generalizing s with
  | nil =>
    have hplain : s = .plain := by
      cases s <;> simp [unclosedFrom, unclosedSingle, unclosedDouble] at h ⊢
    rw [List.nil_append, extentFrom_cons, if_pos ⟨hplain, hc⟩, extentFrom_nil]
  | cons d cs ih =>
    rw [extentFrom_cons] at h
    rw [List.cons_append, extentFrom_cons, extentFrom_cons]
    split at h
    · next hend => rw [if_pos hend, if_pos hend]
    · next hend =>
      rw [List.take_succ_cons, unclosedFrom_cons] at h
      rw [if_neg hend, if_neg hend, ih h]

/-- **A lexeme that leaves nothing open** ends in front of a border. -/
theorem Lexeme.first?_append {c : Char} {cs : Text} {l : Lexeme} (b : Text) (hc : Border c)
    (h : first? cs = some l)
    (hclosed : l.kind = .word → Word.unclosed ((cs.drop l.gap).take l.length) = none) :
    first? (cs ++ c :: b) = some l := by
  have hlen := width_le h
  have hpos := length_pos h
  have hlt : gapWidth cs < cs.length := by
    rw [width, gap_eq h] at hlen
    omega
  have hgap : gapWidth (cs ++ c :: b) = gapWidth cs := gapWidth_append_of_lt b hc.ne_newline hlt
  have hdrop : (cs ++ c :: b).drop (gapWidth cs) = cs.drop (gapWidth cs) ++ c :: b :=
    List.drop_append_of_le_length (gapWidth_le cs)
  have hne : cs.drop (gapWidth cs) ≠ [] := by
    rw [Ne, List.drop_eq_nil_iff]
    omega
  obtain ⟨p, hop, rfl⟩ | ⟨hop, rfl⟩ := first?_cases h
  · rw [first?_operator (p := p), hgap]
    rw [hgap, hdrop, Operator.match?_append b hc.behind hne, hop]
  · have hextent : Word.extent (cs.drop (gapWidth cs) ++ c :: b) =
        Word.extent (cs.drop (gapWidth cs)) :=
      Word.extentFrom_append (s := .plain) b hc.ends (hclosed rfl)
    rw [first?_word, hgap, hdrop, hextent,
      List.take_append_of_le_length (Word.extent_le _).1]
    · rw [hgap, List.length_append, List.length_cons]
      omega
    · rw [hgap, hdrop, Operator.match?_append b hc.behind hne, hop]

/-! ## Behind a blank -/

/-- Whitespace in front of some characters makes the gap wider. -/
theorem Lexeme.first?_cons_space {c : Char} (h : isSpace c) (cs : Text) :
    first? (c :: cs) = (first? cs).map fun l => { l with gap := l.gap + 1 } := by
  simp only [first?, gapWidth_cons_space h, List.drop_succ_cons]
  split
  · rfl
  · split <;> rfl

/-- The tokens of some characters stand one place further on behind whitespace. -/
theorem tokensOf_cons_space {c : Char} (h : isSpace c) (source : Text) (pos : Nat) (cs : Text) :
    tokensOf source pos (c :: cs) = tokensOf source (pos + 1) cs := by
  have hfirst := Lexeme.first?_cons_space h cs
  cases hl : Lexeme.first? cs with
  | none =>
    rw [hl, Option.map_none] at hfirst
    rw [tokensOf_none hfirst, tokensOf_none hl]
  | some l =>
    rw [hl, Option.map_some] at hfirst
    have hwidth : pos + (l.gap + 1 + l.length) = pos + 1 + (l.gap + l.length) := by omega
    have hgap : pos + (l.gap + 1) = pos + 1 + l.gap := by omega
    have hdrop : (c :: cs).drop (l.gap + 1 + l.length) = cs.drop (l.gap + l.length) := by
      rw [Nat.add_right_comm, List.drop_succ_cons]
    rw [tokensOf_some hfirst, tokensOf_some hl]
    simp only [Token.ofLexeme, Lexeme.width, hwidth, hgap, hdrop]

/-! ## A token alone -/

namespace Token

/-- **The characters of a token** are a token by themselves. -/
theorem first?_raw {source : Text} {pos stop : Nat} {t : Token}
    (ht : t ∈ tokensOf source pos (source.slice pos stop)) :
    Lexeme.first? t.raw = some ⟨0, t.kind, t.raw.length, t.quoted⟩ := by
  obtain ⟨l, hl, hgap, htl⟩ := exists_lexeme_of_mem ht
  have hraw := raw_ofLexeme hl
  rw [← htl, hgap, List.drop_zero] at hraw
  have hwidth : l.width = l.length := by rw [Lexeme.width, hgap, Nat.zero_add]
  have hlength : t.raw.length = l.length := by
    have hle := Lexeme.width_le hl
    rw [hwidth] at hle
    rw [hraw, List.length_take, Nat.min_eq_left hle]
  have hfirst : Lexeme.first? t.raw = some l := by
    rw [hraw]
    exact Lexeme.first?_take hl (Nat.le_of_eq hwidth)
  rw [hfirst, hlength, htl, ← hgap]
  rfl

/-- A token that others follow leaves nothing open. -/
theorem pairwise_isTerminated {source : Text} {pos stop : Nat} (hs : stop ≤ source.length) :
    (tokensOf source pos (source.slice pos stop)).Pairwise fun t _ => t.isTerminated := by
  refine (pairwise_tokensOf _ _ _).imp_of_mem fun {t u} ht hu hle => ?_
  have hu := tokensOf_bounds hu
  rw [Text.length_slice] at hu
  exact isTerminated_of_lt ht (by omega) hs

/-- What can be told of a token but its place. -/
structure Content where
  /-- what it is -/
  kind : Kind
  /-- its characters -/
  raw : Text
  /-- what it stands for -/
  text : Text
  /-- whether a quote is opened in it -/
  quoted : Bool
  /-- what it leaves open -/
  unclosed : Option Unclosed
  deriving DecidableEq

/-- All that can be told of a token but its place. -/
def content (t : Token) : Content := ⟨t.kind, t.raw, t.text, t.quoted, t.unclosed?⟩

/-- It can be told from three parts of it. -/
theorem content_eq {t u : Token} (hkind : t.kind = u.kind) (hraw : t.raw = u.raw)
    (hquoted : t.quoted = u.quoted) : t.content = u.content := by
  simp only [content, text, unclosed?, hkind, hraw, hquoted]

/-- The first token of a window that starts with the characters of a token. -/
theorem tokensOf_raw_append {source rest : Text} {pos stop : Nat} {t : Token}
    (hwindow : source.slice pos stop = t.raw ++ rest)
    (hfirst : Lexeme.first? (t.raw ++ rest) = some ⟨0, t.kind, t.raw.length, t.quoted⟩) :
    ∃ u : Token, u.content = t.content ∧
      tokensOf source pos (source.slice pos stop) =
        u :: tokensOf source (pos + t.raw.length) rest ∧
      rest = source.slice (pos + t.raw.length) stop := by
  rw [← hwindow] at hfirst
  have hraw := raw_ofLexeme hfirst
  rw [hwindow, List.drop_zero, List.take_left] at hraw
  refine ⟨ofLexeme source pos ⟨0, t.kind, t.raw.length, t.quoted⟩, content_eq rfl hraw rfl, ?_, ?_⟩
  · rw [tokensOf_some hfirst, hwindow, Lexeme.width, Nat.zero_add, List.drop_left]
  · rw [← Text.drop_slice, hwindow, List.drop_left]

/-- **Tokens with single blanks between them** are read as these tokens, if none but the last leaves
something open. -/
theorem map_content_of_join {ts : List Token}
    (halone : ∀ t ∈ ts, Lexeme.first? t.raw = some ⟨0, t.kind, t.raw.length, t.quoted⟩)
    (hclosed : ts.Pairwise fun t _ => t.isTerminated) {source : Text} {pos stop : Nat}
    (hwindow : source.slice pos stop = Text.join [' '] (ts.map raw)) :
    (tokensOf source pos (source.slice pos stop)).map content = ts.map content := by
  induction ts generalizing pos with
  | nil =>
    rw [hwindow, List.map_nil, Text.join, tokensOf_nil, List.map_nil]
  | cons t ts ih =>
    obtain ⟨ht, halone⟩ := List.forall_mem_cons.mp halone
    obtain ⟨hopen, hclosed⟩ := List.pairwise_cons.mp hclosed
    cases ts with
    | nil =>
      have hlast : source.slice pos stop = t.raw ++ [] := by
        rw [hwindow, List.append_nil, List.map_singleton, Text.join]
      obtain ⟨u, hu, htokens, -⟩ := tokensOf_raw_append hlast (by rwa [List.append_nil])
      rw [htokens, tokensOf_nil, List.map_singleton, List.map_singleton, hu]
    | cons v ts =>
      have hnext : source.slice pos stop =
          t.raw ++ ' ' :: Text.join [' '] ((v :: ts).map raw) := by
        rw [hwindow, List.map_cons, List.map_cons, Text.join_cons_cons, List.singleton_append]
      -- the blank belongs to no word, since the token in front of it leaves nothing open
      have hterminated :
          t.kind = .word → Word.unclosed ((t.raw.drop 0).take t.raw.length) = none := by
        rw [List.drop_zero, List.take_length]
        exact isTerminated_iff.mp (hopen v List.mem_cons_self)
      have hfirst := Lexeme.first?_append (Text.join [' '] ((v :: ts).map raw)) border_space ht
        hterminated
      obtain ⟨u, hu, htokens, hrest⟩ := tokensOf_raw_append hnext hfirst
      have hbehind : source.slice (pos + t.raw.length + 1) stop =
          Text.join [' '] ((v :: ts).map raw) := by
        rw [← Text.drop_slice, ← hrest]
        rfl
      rw [htokens, tokensOf_cons_space (by decide), ← hbehind, List.map_cons, hu,
        ih halone hclosed hbehind]
      rfl

end Token

/-! ## Single blanks -/

/-- The tokens of a text with single blanks between them. -/
def Text.normalize (t : Text) : Text := join [' '] ((tokenize t).map Token.raw)

/-- The tokens of a text are those of a window of it. -/
theorem tokenize_eq_slice (t : Text) : tokenize t = tokensOf t 0 (t.slice 0 t.length) := by
  rw [Text.slice_self]
  rfl

/-- Some tokens of a text with single blanks between them. -/
theorem map_content_tokenize_join {t : Text} {ts : List Token} (hts : ts.Sublist (tokenize t)) :
    (tokenize (Text.join [' '] (ts.map Token.raw))).map Token.content =
      ts.map Token.content := by
  rw [tokenize_eq_slice t] at hts
  rw [tokenize_eq_slice]
  refine Token.map_content_of_join (fun u hu => Token.first?_raw (hts.subset hu)) ?_
    (Text.slice_self _)
  exact (Token.pairwise_isTerminated (Nat.le_refl t.length)).sublist hts

/-- **Reading is stable under single blanks.** The tokens of a text with single blanks between them
are read as the same tokens but for their places, so blanks that are single stay as they are; and
each token is read alone from its characters. -/
theorem Text.normalize_stable (t : Text) :
    (tokenize t.normalize).map Token.content = (tokenize t).map Token.content ∧
      t.normalize.normalize = t.normalize ∧
      ∀ u ∈ tokenize t, (tokenize u.raw).map Token.content = [u.content] := by
  have hsame := map_content_tokenize_join (List.Sublist.refl (tokenize t))
  refine ⟨hsame, ?_, fun u hu => ?_⟩
  · have hraws := congrArg (List.map Token.Content.raw) hsame
    rw [List.map_map, List.map_map] at hraws
    exact congrArg (join [' ']) hraws
  · exact map_content_tokenize_join (List.singleton_sublist.mpr hu)

example : Text.normalize "x2>>\\\n'y z'&&&\t2> \\".toList =
    "x2 >> 'y z' && & 2> \\".toList := by decide +kernel

/-! ## Cursors -/

/-- **Cursors that stop or start at a token.** A cursor over a span comes past some tokens, a token
and others behind it. Over the part of the span in front of the token a cursor comes past the
tokens before it; over the part up to its end, past these and the token; and over the part behind
it, past the others. They are the same tokens at the same places of the same text. -/
theorem Cursor.rest_cut {source : Text} {start stop : Nat} (h : start ≤ stop)
    (hs : stop ≤ source.length) {before after : List Token} {t : Token}
    (ht : (ofSpan source start stop h hs).rest = before ++ t :: after) :
    ∃ (hstart : start ≤ t.start) (hpos : t.start ≤ t.stop) (hstop : t.stop ≤ stop),
      (ofSpan source start t.start hstart (hpos.trans (hstop.trans hs))).rest = before ∧
      (ofSpan source start t.stop (hstart.trans hpos) (hstop.trans hs)).rest = before ++ [t] ∧
      (ofSpan source t.stop stop hstop hs).rest = after := by
  rw [rest_ofSpan] at ht
  obtain ⟨hstart, hpos, hstop⟩ := bounds_of_split ht
  rw [Text.length_slice_of_le hs, Nat.add_sub_cancel' h] at hstop
  obtain ⟨hbefore, hupto, hafter⟩ := tokensOf_split ht
  refine ⟨hstart, Nat.le_of_lt hpos, hstop, ?_, ?_, ?_⟩
  · rwa [Text.take_slice (by omega), Nat.add_sub_cancel' hstart, ← rest_ofSpan] at hbefore
  · rwa [Text.take_slice (by omega), Nat.add_sub_cancel' (by omega), ← rest_ofSpan] at hupto
  · rwa [Text.drop_slice, Nat.add_sub_cancel' (by omega), ← rest_ofSpan] at hafter

/-- A word between two operators that begin with a digit, one of them right behind it. -/
theorem Cursor.rest_cut_redirect :
    let source := "(2>>'f )'2\\\n>2)".toList
    (ofSpan source 1 14 (by decide) (by decide)).rest =
        [⟨.redirect, 1, 4, false, source⟩] ++ ⟨.word, 4, 12, true, source⟩ ::
          [⟨.redirect, 12, 13, false, source⟩, ⟨.word, 13, 14, false, source⟩] ∧
      (ofSpan source 1 4 (by decide) (by decide)).rest = [⟨.redirect, 1, 4, false, source⟩] ∧
      (ofSpan source 1 12 (by decide) (by decide)).rest =
        [⟨.redirect, 1, 4, false, source⟩, ⟨.word, 4, 12, true, source⟩] ∧
      (ofSpan source 12 14 (by decide) (by decide)).rest =
        [⟨.redirect, 12, 13, false, source⟩, ⟨.word, 13, 14, false, source⟩] := by
  intro source
  have htokens : (ofSpan source 1 14 (by decide) (by decide)).rest =
      [⟨.redirect, 1, 4, false, source⟩] ++ ⟨.word, 4, 12, true, source⟩ ::
        [⟨.redirect, 12, 13, false, source⟩, ⟨.word, 13, 14, false, source⟩] := by
    decide +kernel
  obtain ⟨_, _, _, hbefore, hupto, hafter⟩ := rest_cut (by decide) (by decide) htokens
  exact ⟨htokens, hbefore, hupto, hafter⟩

end CommandLine
