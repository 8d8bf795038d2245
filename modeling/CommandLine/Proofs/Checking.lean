import CommandLine.Proofs.Division
import CommandLine.Proofs.Indexing

/-!
# Reading with every check

The bounds of a region are part of its type and the loops over its tokens end by a measure, so
nothing is left to be checked where a line is read. Here it is read again as if nothing were known:
characters are looked up by their positions and may be missing, every region and every cursor is made
from numbers that may be refused, and every loop has a budget that may run out, of one step more than
there are characters left. None of this ever happens, and the results are the same.

* `Checked.scan?`, `Checked.tokens?` — tokens with every check.
* `Checked.firstSegment?`, `Checked.nextSegment?`, `Checked.siblings?`, `Checked.divide?` —
  segments with every check.
* `Checked.text?`, `Checked.openEnd?`, `Checked.redirectOp?` — what is read off a token.
* `Checked.words?`, `Checked.groupBody?` — words and groups with every check.
* `Checked.scan?_eq`, `Checked.siblings?_eq`, `Checked.words?_eq`, `Checked.groupBody?_eq` and
  others — they are found as without.
-/

namespace CommandLine

namespace Checked

/-! ## Tokens with every check -/

/-- The first token of a window. -/
def scan? (source : Text) (pos stop : Nat) : Except Fault Token := do
  let start ← blanksStop? source stop (stop - pos + 1) pos
  if stop ≤ start then return Token.endOfLine source stop
  else
    match operator? source start stop with
    | some (spelling, kind) => return ⟨kind, start, start + spelling.length, false, source⟩
    | none =>
      let (behind, quoted) ← wordStop? source stop (stop - start + 1) false start
      return ⟨.word, start, behind, quoted, source⟩

section

variable {source : Text} {pos stop : Nat}

/-- **A token is scanned** without looking for a character that is missing. -/
theorem scan?_eq (h : pos ≤ stop) (hs : stop ≤ source.length) :
    scan? source pos stop = .ok (Token.scan source pos stop) := by
  have hgap := gapWidth_le (source.slice pos stop)
  have hdrop := Text.drop_slice source pos stop (gapWidth (source.slice pos stop))
  rw [Text.length_slice_of_le hs] at hgap
  rw [scan?, blanksStop?_eq h hs (Nat.lt_succ_self _), ok_bind]
  by_cases hend : stop ≤ pos + gapWidth (source.slice pos stop)
  · have hnone : Lexeme.first? (source.slice pos stop) = none := by
      rw [Lexeme.first?_eq_none_iff, Text.length_slice_of_le hs]
      omega
    rw [if_pos hend, Token.scan_none hnone]
    rfl
  · rw [if_neg hend, operator?_eq]
    cases hop : Operator.match? (source.slice (pos + gapWidth (source.slice pos stop)) stop) with
    | some p =>
      rw [Token.scan_some (Lexeme.first?_operator (hdrop ▸ hop)), Token.ofLexeme, Lexeme.width,
        ← Nat.add_assoc]
      rfl
    | none =>
      have hword := @Lexeme.first?_word (source.slice pos stop)
        (by rw [Text.length_slice_of_le hs]; omega) (hdrop ▸ hop)
      rw [hdrop] at hword
      simp only [wordStop?_eq (Nat.le_of_not_le hend) hs (Nat.lt_succ_self _), ok_bind, pure_eq,
        Token.scan_some hword, Token.ofLexeme, Lexeme.width, ← Nat.add_assoc, Bool.false_or]

end

/-! ## Segments and groups with every check -/

/-- The region of some numbers, unless they are out of order. -/
def region? (source : Text) (start stop limit : Nat) : Except Fault Region :=
  (Region.ofBounds? source start stop limit).mapError .bounds

/-- The token at the front of a span, unless its numbers are out of order. -/
def front? (source : Text) (start stop : Nat) : Except Fault Token := do
  let _ ← (Cursor.ofBounds? source start stop).mapError Fault.bounds
  scan? source start stop

/-- The tokens of a span, each scanned behind the one before it. -/
def tokens? (source : Text) (stop : Nat) : Nat → Nat → Except Fault (List Token)
  | 0, _ => .error .unfinished
  | budget + 1, pos => do
    let t ← front? source pos stop
    if t.kind = .eol then return []
    let rest ← tokens? source stop budget t.stop
    return t :: rest

/-- Where the first delimiter outside parentheses stands, or the limit if there is none. -/
def boundary? (delimiters : List Kind) (source : Text) (limit : Nat) :
    Nat → Nat → Nat → Except Fault Nat
  | 0, _, _ => .error .unfinished
  | budget + 1, depth, pos => do
    let t ← scan? source pos limit
    if t.kind = .eol then return limit
    if depth = 0 ∧ t.kind ∈ delimiters then return t.start
    boundary? delimiters source limit budget (depthAfter depth t.kind) t.stop

/-- The segment from the start of a region on. -/
def firstSegment? (delimiters : List Kind) (r : Region) : Except Fault Region := do
  let stop ← boundary? delimiters r.source r.limit (r.limit - r.start + 1) 0 r.start
  region? r.source r.start stop r.limit

/-- The segment behind the token at the end of this one. -/
def nextSegment? (delimiters : List Kind) (r : Region) : Except Fault Region := do
  let t ← scan? r.source r.stop r.limit
  let behind ← region? r.source t.stop t.stop r.limit
  firstSegment? delimiters behind

/-- This segment and those that follow it. -/
def segmentsFrom? (delimiters : List Kind) : Nat → Region → Except Fault (List Region)
  | 0, _ => .error .unfinished
  | budget + 1, r => do
    if r.stop < r.limit then
      let next ← nextSegment? delimiters r
      let rest ← segmentsFrom? delimiters budget next
      return r :: rest
    else return [r]

/-- This segment and those that follow it, with a budget of the characters up to the limit. -/
def siblings? (delimiters : List Kind) (r : Region) : Except Fault (List Region) :=
  segmentsFrom? delimiters (r.limit - r.stop + 1) r

/-- The first segment of a region that is bounded by its own end. -/
def firstWithin? (delimiters : List Kind) (r : Region) : Except Fault Region := do
  let whole ← region? r.source r.start r.stop r.stop
  firstSegment? delimiters whole

/-- The segments that a region is divided into. -/
def divide? (delimiters : List Kind) (r : Region) : Except Fault (List Region) := do
  let first ← firstWithin? delimiters r
  siblings? delimiters first

/-- The kind of the token that follows a region within its limit. -/
def nextOperator? (r : Region) : Except Fault Kind := do
  let t ← scan? r.source r.stop r.limit
  return t.kind

/-- Whether a region holds no token: its first one starts where it ends. -/
def isBlank? (r : Region) : Except Fault Bool := do
  let t ← front? r.source r.start r.stop
  return t.start == r.stop

/-! ## Words and groups with every check -/

/-- What a token stands for. -/
def text? (t : Token) : Except Fault Text :=
  match t.kind with
  | .word => render? t.source t.stop (t.stop - t.start + 1) t.start
  | _ => .ok t.raw

/-- What a token leaves open. -/
def unclosed? (t : Token) : Except Fault (Option Unclosed) :=
  match t.kind with
  | .word => openEnd? t.source t.stop (t.stop - t.start + 1) t.start
  | _ => .ok none

/-- The redirect operator that a token spells. -/
def redirectOp? (t : Token) : Except Fault (Option RedirectOp) :=
  match t.kind with
  | .redirect =>
    match RedirectOp.ofSpelling? t.raw with
    | some op => .ok (some op)
    | none => .error (.spelling t.raw)
  | _ => .ok none

/-- The words of some tokens at a depth of parentheses, with the redirect operator that still waits
for its target. -/
def collect? : Nat → Option RedirectOp → List Token → Except Fault Words
  | _, pending, [] => return ⟨[], Words.targetless pending⟩
  | depth, pending, t :: ts => do
    let depth := depthAfter depth t.kind
    if 0 < depth ∨ t.kind = .rparen then collect? depth pending ts
    else
      match pending, t.kind with
      | some op, .word =>
        let target ← text? t
        let rest ← collect? depth none ts
        return rest.addRedirections [op.onto (some target)]
      | none, .word =>
        let arg ← text? t
        let rest ← collect? depth none ts
        return rest.addArg arg
      | pending, .redirect =>
        let next ← redirectOp? t
        let rest ← collect? depth next ts
        return rest.addRedirections (Words.targetless pending)
      | pending, _ =>
        let rest ← collect? depth none ts
        return rest.addRedirections (Words.targetless pending)

/-- The arguments and redirections of a region. -/
def words? (r : Region) : Except Fault Words := do
  let ts ← tokens? r.source r.stop (r.stop - r.start + 1) r.start
  collect? 0 none ts

/-- The parenthesis after which none of those stands open any more that are opened by some tokens,
or stood open before them. -/
def lastClosing? : Nat → List Token → Option Token
  | _, [] => none
  | depth, t :: ts =>
    match t.kind with
    | .lparen => lastClosing? (depth + 1) ts
    | .rparen => if depth - 1 = 0 then some t else lastClosing? (depth - 1) ts
    | _ => lastClosing? depth ts

/-- The line inside a group. -/
def groupBody? (r : Region) : Except Fault (Option Region) := do
  let t ← front? r.source r.start r.stop
  if t.kind = .lparen then
    let ts ← tokens? r.source r.stop (r.stop - r.start + 1) r.start
    let stop := (lastClosing? 0 ts).elim r.stop Token.start
    let body ← region? r.source t.stop stop stop
    return some body
  else return none

/-! ## Nothing goes wrong -/

section

variable {source : Text} {start stop pos limit depth budget : Nat} {delimiters : List Kind}

theorem region?_eq (r : Region) : region? r.source r.start r.stop r.limit = .ok r := by
  have horder : (0 : Int) ≤ r.start ∧ (r.start : Int) ≤ r.stop ∧ (r.stop : Int) ≤ r.limit ∧
      (r.limit : Int) ≤ r.source.length := by
    have := r.start_le_stop
    have := r.stop_le_limit
    have := r.limit_le_length
    omega
  rw [region?, Region.ofBounds?, dif_pos horder]
  rfl

theorem front?_eq (h : start ≤ stop) (hs : stop ≤ source.length) :
    front? source start stop = .ok (Token.scan source start stop) := by
  have horder : (0 : Int) ≤ start ∧ (start : Int) ≤ stop ∧ (stop : Int) ≤ source.length := by
    omega
  rw [front?, Cursor.ofBounds?, dif_pos horder]
  exact scan?_eq h hs

/-- Behind a token that is not the end of the line there is less left. -/
theorem sub_scan_stop_lt (hk : (Token.scan source pos stop).kind ≠ .eol) :
    stop - (Token.scan source pos stop).stop < stop - pos := by
  rcases Nat.lt_or_ge pos stop with hlt | hge
  · have : pos < (Token.scan source pos stop).stop := Token.lt_scan_stop hlt
    omega
  · refine absurd ?_ hk
    rw [Token.scan, Text.slice_of_le _ hge]
    rfl

theorem tokens?_eq (h : pos ≤ stop) (hs : stop ≤ source.length) (hbudget : stop - pos < budget) :
    tokens? source stop budget pos = .ok (tokensOf source pos (source.slice pos stop)) := by
  induction budget generalizing pos with
  | zero => exact absurd hbudget (Nat.not_lt_zero _)
  | succ budget ih =>
    have hle : (Token.scan source pos stop).stop ≤ stop := (Token.scan_bounds h).2.2
    rw [tokens?, front?_eq h hs, ok_bind, tokensOf_slice]
    split
    · rfl
    · next hk =>
      have hlt := sub_scan_stop_lt hk
      rw [ih hle (by omega), ok_bind, pure_eq]

/-- The first delimiter stands where the characters without one end. -/
theorem boundary?_eq (h : pos ≤ limit) (hs : limit ≤ source.length) (hbudget : limit - pos < budget) :
    boundary? delimiters source limit budget depth pos =
      .ok (pos + undelimited delimiters depth (source.slice pos limit)) := by
  induction budget generalizing depth pos with
  | zero => exact absurd hbudget (Nat.not_lt_zero _)
  | succ budget ih =>
    rw [boundary?, scan?_eq h hs, ok_bind]
    cases hl : Lexeme.first? (source.slice pos limit) with
    | none =>
      rw [Token.scan_none hl, undelimited_none hl, Text.length_slice_of_le hs,
        Nat.add_sub_cancel' h]
      rfl
    | some l =>
      have hwidth := Lexeme.width_le hl
      have hpos : 0 < l.width := Nat.lt_of_lt_of_le (Lexeme.length_pos hl) (Nat.le_add_left _ _)
      rw [Text.length_slice_of_le hs] at hwidth
      rw [Token.scan_some hl, undelimited_some hl, Token.kind_ofLexeme,
        if_neg (Lexeme.kind_ne_eol hl)]
      split
      · rfl
      · have hrest := @ih (pos + l.width) (depthAfter depth l.kind) (by omega) (by omega)
        rw [Text.drop_slice, ← Nat.add_assoc, ← hrest]
        rfl

end

variable {delimiters : List Kind} {r : Region} {budget : Nat}

theorem firstSegment?_eq (delimiters : List Kind) (r : Region) :
    firstSegment? delimiters r = .ok (r.firstSegment delimiters) := by
  have hle := Nat.le_trans r.start_le_stop r.stop_le_limit
  rw [firstSegment?, boundary?_eq hle r.limit_le_length (Nat.lt_succ_self _)]
  exact region?_eq (r.firstSegment delimiters)

theorem nextSegment?_eq (delimiters : List Kind) (r : Region) :
    nextSegment? delimiters r = .ok (r.nextSegment delimiters) := by
  let behind : Region :=
    { r with
      start := r.endToken.stop
      stop := r.endToken.stop
      start_le_stop := Nat.le_refl _
      stop_le_limit := r.endToken_bounds.2.2 }
  have hbehind : region? r.source r.endToken.stop r.endToken.stop r.limit = .ok behind :=
    region?_eq behind
  have htoken : scan? r.source r.stop r.limit = .ok r.endToken :=
    scan?_eq r.stop_le_limit r.limit_le_length
  rw [nextSegment?, htoken, ok_bind, hbehind, ok_bind]
  exact firstSegment?_eq delimiters behind

/-- The segments that follow end within the budget: each one ends further on. -/
theorem segmentsFrom?_eq (hbudget : r.limit - r.stop < budget) :
    segmentsFrom? delimiters budget r = .ok (r.segmentsFrom delimiters) := by
  induction budget generalizing r with
  | zero => exact absurd hbudget (Nat.not_lt_zero _)
  | succ budget ih =>
    rw [segmentsFrom?, Region.segmentsFrom]
    by_cases hlt : r.stop < r.limit
    · have hnext := Region.lt_nextSegment_stop delimiters hlt
      have hlimit := r.nextSegment_limit delimiters
      rw [if_pos hlt, if_pos hlt, nextSegment?_eq, ok_bind, ih (by omega), ok_bind, pure_eq]
    · rw [if_neg hlt, if_neg hlt]
      rfl

theorem siblings?_eq (delimiters : List Kind) (r : Region) :
    siblings? delimiters r = .ok (r.segmentsFrom delimiters) :=
  segmentsFrom?_eq (Nat.lt_succ_self _)

theorem firstWithin?_eq (delimiters : List Kind) (r : Region) :
    firstWithin? delimiters r = .ok (r.closed.firstSegment delimiters) := by
  have hwhole : region? r.source r.start r.stop r.stop = .ok r.closed := region?_eq r.closed
  rw [firstWithin?, hwhole, ok_bind]
  exact firstSegment?_eq delimiters r.closed

theorem divide?_eq (delimiters : List Kind) (r : Region) :
    divide? delimiters r = .ok (r.divide delimiters) := by
  rw [divide?, firstWithin?_eq, ok_bind]
  exact siblings?_eq delimiters _

theorem nextOperator?_eq (r : Region) : nextOperator? r = .ok r.nextOperator := by
  rw [nextOperator?, scan?_eq r.stop_le_limit r.limit_le_length, ok_bind, pure_eq]
  rfl

theorem isBlank?_eq (r : Region) : isBlank? r = .ok r.isBlank := by
  rw [isBlank?, front?_eq r.start_le_stop (Nat.le_trans r.stop_le_limit r.limit_le_length),
    ok_bind, pure_eq]
  rfl

/-- The tokens of a region are found from its start. -/
theorem tokens?_region (r : Region) :
    tokens? r.source r.stop (r.stop - r.start + 1) r.start = .ok r.tokens :=
  tokens?_eq r.start_le_stop (Nat.le_trans r.stop_le_limit r.limit_le_length) (Nat.lt_succ_self _)

/-! ### What is read off a token -/

section

variable {t : Token} {ts : List Token}

theorem text?_eq (h : t.stop ≤ t.source.length) : text? t = .ok t.text := by
  rw [text?, Token.text]
  cases t.kind with
  | word => exact render?_eq h (Nat.lt_succ_self _)
  | _ => rfl

theorem unclosed?_eq (h : t.stop ≤ t.source.length) : unclosed? t = .ok t.unclosed? := by
  rw [unclosed?, Token.unclosed?]
  cases t.kind with
  | word => exact openEnd?_eq h (Nat.lt_succ_self _)
  | _ => rfl

/-- A token of a region lies in the text. -/
theorem stop_le_of_mem_tokens (ht : t ∈ r.tokens) : t.stop ≤ t.source.length := by
  obtain ⟨-, -, hstop⟩ := Region.tokens_bounds ht
  rw [source_of_mem_tokensOf ht]
  exact Nat.le_trans hstop (Nat.le_trans r.stop_le_limit r.limit_le_length)

theorem redirectOp?_eq (ht : t ∈ r.tokens) : redirectOp? t = .ok t.redirectOp? := by
  by_cases hk : t.kind = .redirect
  · obtain ⟨op, hop, -⟩ := Token.exists_redirectOp ht hk
    rw [hop]
    rw [Token.redirectOp?, hk] at hop
    rw [redirectOp?, hk]
    simp only [hop]
  · rw [redirectOp?, Token.redirectOp?]
    cases hkind : t.kind with
    | redirect => exact absurd hkind hk
    | _ => rfl

/-! ### Words -/

/-- The parentheses that stand open after a token and the token itself say whether it is passed
over. -/
theorem passed_iff (depth : Nat) (k : Kind) :
    (0 < depthAfter depth k ∨ k = .rparen) ↔ (0 < depth ∨ k = .lparen ∨ k = .rparen) := by
  cases k <;> simp [depthAfter]

theorem collect?_eq (hts : ∀ t ∈ ts, t ∈ r.tokens) (depth : Nat) (pending : Option RedirectOp) :
    collect? depth pending ts = .ok (Words.collect depth pending ts) := by
  induction ts generalizing depth pending with
  | nil => rfl
  | cons t ts ih =>
    obtain ⟨ht, hts⟩ := List.forall_mem_cons.mp hts
    have hstop := stop_le_of_mem_tokens ht
    rw [collect?.eq_def, Words.collect.eq_def]
    by_cases hpassed : 0 < depth ∨ t.kind = .lparen ∨ t.kind = .rparen
    · simp only [if_pos ((passed_iff depth t.kind).mpr hpassed), if_pos hpassed, ih hts]
    · have hafter : depthAfter depth t.kind = depth := by
        cases hk : t.kind <;> simp_all [depthAfter]
      have hinside := (passed_iff depth t.kind).not.mpr hpassed
      rw [hafter] at hinside
      simp only [hafter, if_neg hinside, if_neg hpassed]
      cases t.kind <;> cases pending <;>
        simp only [text?_eq hstop, redirectOp?_eq ht, ih hts, ok_bind, pure_eq]

/-- **The words of a region** are read without a character that is missing. -/
theorem words?_eq (r : Region) : words? r = .ok r.words := by
  rw [words?, tokens?_region, ok_bind, collect?_eq fun _ ht => ht]
  rfl

/-! ### Groups -/

/-- Behind the opening parenthesis the closing one is looked for with one parenthesis open. -/
theorem lastClosing?_eq (depth : Nat) (ts : List Token) :
    lastClosing? (depth + 1) ts = closing? depth ts := by
  induction ts generalizing depth with
  | nil => rfl
  | cons t ts ih =>
    rw [lastClosing?, closing?]
    cases hk : t.kind with
    | lparen => simpa [depthAfter] using ih (depth + 1)
    | rparen =>
      cases depth with
      | zero => simp
      | succ depth => simpa [depthAfter] using ih depth
    | _ => simpa [depthAfter] using ih depth

end

theorem groupBody?_eq (r : Region) : groupBody? r = .ok r.groupBody? := by
  have hs : r.stop ≤ r.source.length := Nat.le_trans r.stop_le_limit r.limit_le_length
  have hfirst : front? r.source r.start r.stop = .ok r.firstToken := front?_eq r.start_le_stop hs
  rw [groupBody?, hfirst, ok_bind, Region.groupBody?]
  split
  · next hk =>
    have hclosing : lastClosing? 0 r.tokens = closing? 0 r.afterFirst.tokens := by
      have hne : r.firstToken.kind ≠ .eol := by
        rw [hk]
        decide
      rw [r.tokens_eq, if_neg hne, lastClosing?, hk]
      exact lastClosing?_eq 0 _
    simp only [tokens?_region, hclosing, ok_bind]
    split
    · next t ht =>
      have hbody : region? r.source r.firstToken.stop t.start t.start =
          .ok (r.afterFirst.before t (mem_of_closing? ht)) :=
        region?_eq (r.afterFirst.before t (mem_of_closing? ht))
      simp only [ht, Option.elim_some, hbody, ok_bind, pure_eq]
    · next ht =>
      have hbody : region? r.source r.firstToken.stop r.stop r.stop = .ok r.afterFirst :=
        region?_eq r.afterFirst
      simp only [ht, Option.elim_none, hbody, ok_bind, pure_eq]
  · rw [pure_eq]

end Checked

end CommandLine
