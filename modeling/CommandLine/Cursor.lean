import CommandLine.Token

/-!
# Cursors

A cursor is a place in the scan of a span of a text. It stands at the start of a token, or at the
end of the span when no token is left. Moving gives a new cursor.
-/

namespace CommandLine

/-- A place in the scan of `[start, stop)`. -/
structure Cursor where
  /-- the text that is scanned -/
  source : Text
  /-- the start of the current token, or `stop` when none is left -/
  start : Nat
  /-- the end of the scanned span -/
  stop : Nat
  /-- the span does not run backwards -/
  start_le_stop : start ≤ stop
  /-- the span lies in the text -/
  stop_le_length : stop ≤ source.length
  /-- no blanks stand before the current token -/
  at_token : (Token.scan source start stop).start = start

namespace Cursor

/-- Cursors are the same if they stand at the same place of the same span. -/
instance : DecidableEq Cursor := fun a b =>
  decidable_of_iff (a.source = b.source ∧ a.start = b.start ∧ a.stop = b.stop) <| by
    cases a; cases b; simp

/-- The cursor at the first token of a span. -/
def ofSpan (source : Text) (start stop : Nat) (h : start ≤ stop) (hs : stop ≤ source.length) :
    Cursor :=
  ⟨source, (Token.scan source start stop).start, stop,
    Nat.le_trans (Token.scan_bounds h).2.1 (Token.scan_bounds h).2.2, hs,
    by rw [Token.scan_scan_start]⟩

/-- The token the cursor stands at; the end of the line when none is left. -/
def token (c : Cursor) : Token := Token.scan c.source c.start c.stop

/-- The current token lies in what the cursor has left. -/
theorem token_bounds (c : Cursor) :
    c.start ≤ c.token.start ∧ c.token.start ≤ c.token.stop ∧ c.token.stop ≤ c.stop :=
  Token.scan_bounds c.start_le_stop

/-- Whether no token is left. -/
def isEmpty (c : Cursor) : Bool := c.start == c.stop

/-- The cursor at the next token. A cursor at the end stays where it is. -/
def advance (c : Cursor) : Cursor :=
  if c.isEmpty then c
  else ofSpan c.source c.token.stop c.stop c.token_bounds.2.2 c.stop_le_length

/-- The tokens from the cursor on. -/
def rest (c : Cursor) : List Token :=
  tokensOf c.source c.start (c.source.slice c.start c.stop)

/-- A cursor is at the end exactly where it stands at no token. -/
theorem isEmpty_iff {c : Cursor} : c.isEmpty ↔ c.token.kind = .eol := by
  rw [isEmpty, beq_iff_eq, token]
  have hat := c.at_token
  cases h : Lexeme.first? (c.source.slice c.start c.stop) with
  | none =>
    rw [Token.scan_none h] at hat ⊢
    exact ⟨fun _ => rfl, fun _ => hat.symm⟩
  | some l =>
    have hpos := Lexeme.length_pos h
    have hw := Lexeme.width_le h
    rw [Text.length_slice_of_le c.stop_le_length] at hw
    rw [Token.scan_some h]
    refine ⟨fun he => ?_, fun hk => absurd hk (Lexeme.kind_ne_eol h)⟩
    rw [Lexeme.width] at hw
    omega

/-- A cursor that is put over a span runs through the tokens of the span. -/
theorem rest_ofSpan {source : Text} {start stop : Nat} (h : start ≤ stop)
    (hs : stop ≤ source.length) :
    (ofSpan source start stop h hs).rest = tokensOf source start (source.slice start stop) := by
  rw [rest, ofSpan, tokensOf_slice, tokensOf_slice, Token.scan_scan_start]

/-- The tokens from a cursor on are the one it stands at and the tokens from the next place on. -/
theorem rest_eq (c : Cursor) : c.rest = if c.isEmpty then [] else c.token :: c.advance.rest := by
  have hfirst : c.rest = if c.token.kind = .eol then []
      else c.token :: tokensOf c.source c.token.stop (c.source.slice c.token.stop c.stop) :=
    tokensOf_slice c.source c.start c.stop
  by_cases he : c.isEmpty
  · rw [hfirst, if_pos (isEmpty_iff.mp he), if_pos he]
  · have hk : ¬ c.token.kind = .eol := fun hk => he (isEmpty_iff.mpr hk)
    rw [hfirst, if_neg hk, if_neg he, advance, if_neg he, rest_ofSpan]

end Cursor

end CommandLine
