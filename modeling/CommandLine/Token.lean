import CommandLine.Lexeme
import CommandLine.RedirectOp

/-!
# Tokens

A token is a classified span of a text. Tokens know the text they are a span of, so two tokens
are equal only if their texts are.

* `Token.raw`, `Token.text` — the exact characters, and what they stand for.
* `Token.scan` — the first token of a window `[pos, stop)` of a text; the end of the line when
  only blanks are left in it.
* `tokensOf`, `tokenize` — every token of some characters, of a whole text.
* `Token.scan?`, `Token.read` — the same for windows and spans that may reach past the end of
  the text, where there are positions without a character.
-/

namespace CommandLine

/-- Every spelling that is scanned as a redirect operator spells one. -/
theorem Operator.isSome_ofSpelling? :
    ∀ p ∈ Operator.spellings, p.2 = .redirect → (RedirectOp.ofSpelling? p.1).isSome := by
  decide

/-- A classified span `[start, stop)` of a text. -/
structure Token where
  /-- what the token is -/
  kind : Kind
  /-- the position of its first character -/
  start : Nat
  /-- the position after its last character -/
  stop : Nat
  /-- whether a quote is opened in it -/
  quoted : Bool
  /-- the text it is a span of -/
  source : Text
  deriving DecidableEq

namespace Token

/-- The characters of the token as they stand in the text. -/
def raw (t : Token) : Text := t.source.slice t.start t.stop

/-- What the token stands for: a word without its quotes and escapes, an operator as it is. -/
def text (t : Token) : Text :=
  match t.kind with
  | .word => Word.render t.raw
  | _ => t.raw

/-- The redirect operator that a redirect token spells. -/
def redirectOp? (t : Token) : Option RedirectOp :=
  match t.kind with
  | .redirect => RedirectOp.ofSpelling? t.raw
  | _ => none

/-- What a word leaves open at its end. Operators leave nothing open. -/
def unclosed? (t : Token) : Option Unclosed :=
  match t.kind with
  | .word => Word.unclosed t.raw
  | _ => none

/-- Whether the token leaves nothing open. -/
def isTerminated (t : Token) : Bool := t.unclosed?.isNone

theorem isTerminated_iff {t : Token} :
    t.isTerminated ↔ (t.kind = .word → Word.unclosed t.raw = none) := by
  rw [isTerminated, Option.isNone_iff_eq_none, unclosed?]
  split
  · next hk => exact ⟨fun h _ => h, fun h => h hk⟩
  · next hk => exact ⟨fun _ hword => absurd hword hk, fun _ => rfl⟩

/-- The token of a lexeme that is read at the position `pos` of a text. -/
def ofLexeme (source : Text) (pos : Nat) (l : Lexeme) : Token :=
  ⟨l.kind, pos + l.gap, pos + l.width, l.quoted, source⟩

/-- The end of the line at a position of a text. -/
def endOfLine (source : Text) (pos : Nat) : Token := ⟨.eol, pos, pos, false, source⟩

/-- The first token of the window `[pos, stop)`. The window says how far a token may reach: no
character at or after `stop` is read. -/
def scan (source : Text) (pos stop : Nat) : Token :=
  match Lexeme.first? (source.slice pos stop) with
  | none => endOfLine source stop
  | some l => ofLexeme source pos l

theorem scan_none {source : Text} {pos stop : Nat}
    (h : Lexeme.first? (source.slice pos stop) = none) :
    scan source pos stop = endOfLine source stop := by
  rw [scan, h]

theorem scan_some {source : Text} {pos stop : Nat} {l : Lexeme}
    (h : Lexeme.first? (source.slice pos stop) = some l) :
    scan source pos stop = ofLexeme source pos l := by
  rw [scan, h]

/-- A scanned token lies in its window. -/
theorem scan_bounds {source : Text} {pos stop : Nat} (h : pos ≤ stop) :
    pos ≤ (scan source pos stop).start ∧ (scan source pos stop).start ≤ (scan source pos stop).stop ∧
      (scan source pos stop).stop ≤ stop := by
  unfold scan
  split
  · simp [endOfLine, h]
  · next l hl =>
    have hw := Lexeme.width_le hl
    rw [Text.length_slice] at hw
    simp only [ofLexeme, Lexeme.width] at *
    omega

/-- A scan of a window that is not empty moves on. -/
theorem lt_scan_stop {source : Text} {pos stop : Nat} (h : pos < stop) :
    pos < (scan source pos stop).stop := by
  unfold scan
  split
  · exact h
  · next l hl =>
    have := Lexeme.length_pos hl
    simp only [ofLexeme, Lexeme.width]
    omega

/-- A scan that starts where the scanned token starts finds the same token. -/
theorem scan_scan_start (source : Text) (pos stop : Nat) :
    scan source (scan source pos stop).start stop = scan source pos stop := by
  cases h : Lexeme.first? (source.slice pos stop) with
  | none =>
    rw [scan_none h, scan, endOfLine, Text.slice_of_le _ (Nat.le_refl _)]
    rfl
  | some l =>
    have hnext := Lexeme.first?_drop_gap h
    rw [Text.drop_slice] at hnext
    rw [scan_some h, scan]
    simp only [ofLexeme, hnext, Lexeme.width]
    congr 1
    omega

end Token

/-- The tokens of the characters `cs`, which stand at the position `pos` of the text. -/
def tokensOf (source : Text) (pos : Nat) (cs : Text) : List Token :=
  match _ : Lexeme.first? cs with
  | none => []
  | some l => Token.ofLexeme source pos l :: tokensOf source (pos + l.width) (cs.drop l.width)
termination_by cs.length
decreasing_by exact Lexeme.drop_width_lt (by assumption)

theorem tokensOf_none {source : Text} {pos : Nat} {cs : Text} (h : Lexeme.first? cs = none) :
    tokensOf source pos cs = [] := by
  rw [tokensOf]
  split
  · rfl
  · next l hl => rw [h] at hl; cases hl

theorem tokensOf_some {source : Text} {pos : Nat} {cs : Text} {l : Lexeme}
    (h : Lexeme.first? cs = some l) :
    tokensOf source pos cs =
      Token.ofLexeme source pos l :: tokensOf source (pos + l.width) (cs.drop l.width) := by
  rw [tokensOf]
  split
  · next hn => rw [h] at hn; cases hn
  · next l' hl =>
    rw [h] at hl
    cases hl
    rfl

/-- The tokens of a window are the first one and the tokens of the window after it. There are none
where the scan gives the end of the line. -/
theorem tokensOf_slice (source : Text) (pos stop : Nat) :
    tokensOf source pos (source.slice pos stop) =
      if (Token.scan source pos stop).kind = .eol then []
      else
        let t := Token.scan source pos stop
        t :: tokensOf source t.stop (source.slice t.stop stop) := by
  cases h : Lexeme.first? (source.slice pos stop) with
  | none =>
    have hk : (Token.endOfLine source stop).kind = .eol := rfl
    rw [tokensOf_none h, Token.scan_none h, if_pos hk]
  | some l =>
    have hk : ¬ (Token.ofLexeme source pos l).kind = .eol := Lexeme.kind_ne_eol h
    rw [tokensOf_some h, Token.scan_some h, if_neg hk, Text.drop_slice]
    rfl

/-- Every token of some characters lies where the characters stand, and takes at least one. -/
theorem tokensOf_bounds {source : Text} {pos : Nat} {cs : Text} {t : Token}
    (ht : t ∈ tokensOf source pos cs) :
    pos ≤ t.start ∧ t.start < t.stop ∧ t.stop ≤ pos + cs.length := by
  induction h : cs.length using Nat.strongRecOn generalizing cs pos with
  | ind n ih =>
    subst h
    cases hl : Lexeme.first? cs with
    | none => simp [tokensOf_none hl] at ht
    | some l =>
      have hpos := Lexeme.length_pos hl
      have hw := Lexeme.width_le hl
      rw [tokensOf_some hl, List.mem_cons] at ht
      rcases ht with rfl | ht
      · simp only [Token.ofLexeme, Lexeme.width] at *
        omega
      · have := ih _ (Lexeme.drop_width_lt hl) ht rfl
        simp only [Lexeme.width, List.length_drop] at *
        omega

/-- Every token of a text. The end of the line is not among them. -/
def tokenize (t : Text) : List Token := tokensOf t 0 t

/-! ## Windows that reach past the end of the text

Positions past the end of a text hold no character. A window or a span may reach over them as
long as none of them has to be looked at. Only an open single quote looks for nothing but its
closing quote, which is not there; every other reading asks for the character at each position. -/

/-- Why a span cannot be read as the token it is declared to be. -/
inductive TokenError where
  /-- a character is asked for at a position that holds none -/
  | pastEnd
  /-- a redirect token whose characters spell no redirect operator -/
  | notRedirect (raw : Text)

namespace Token

/-- The first token of a window whose end may lie past the end of the text. A word that takes all
characters there are reaches the window's end if it leaves a single quote open; all else that
runs out of characters fails. -/
def scan? (source : Text) (pos stop : Nat) : Except TokenError Token :=
  let cs := source.slice pos stop
  if stop ≤ max pos source.length then .ok (scan source pos stop)
  else
    match Lexeme.first? cs with
    | none => .error .pastEnd
    | some l =>
      if l.kind ≠ .word ∨ l.width < cs.length then .ok (ofLexeme source pos l)
      else if Word.unclosed (cs.drop l.gap) = some .single then
        .ok { ofLexeme source pos l with stop := stop }
      else .error .pastEnd

/-- What is read off a token's characters. -/
structure Reading where
  /-- what the token stands for -/
  text : Text
  /-- what it leaves open -/
  unclosed : Option Unclosed
  /-- the redirect operator it spells -/
  redirect : Option RedirectOp

/-- Whether reading the token's characters one by one runs past the end of its text. -/
def overruns (t : Token) : Bool :=
  t.kind == .word && max t.start t.source.length < t.stop && Word.unclosed t.raw != some .single

/-- Reads a token off a span that may have been declared without a scan. -/
def read (t : Token) : Except TokenError Reading :=
  if t.overruns then .error .pastEnd
  else if t.kind = .redirect ∧ t.redirectOp? = none then .error (.notRedirect t.raw)
  else .ok ⟨t.text, t.unclosed?, t.redirectOp?⟩

end Token

end CommandLine
