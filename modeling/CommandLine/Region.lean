import CommandLine.Cursor
import CommandLine.Text.Decimal

/-!
# Regions

A region is a span `[start, stop)` of a text together with a limit that no navigation from it
passes. For a segment that was cut out of a larger one the limit is the end of the larger one.
That the four numbers stand in order within the text is part of the type, so a region is read
without further checks.

* `Region.ofBounds?` — a region from numbers that are given from outside, refused out of order.
* `Region.tokens` — the tokens of the span; what stands outside of it is never read.
* `Region.closed` — the same span with its own end as the limit.
-/

namespace CommandLine

/-- Why two or three numbers bound no span of a text. -/
inductive BoundsError where
  /-- not the start, end and limit of a region of a text of this length -/
  | region (start stop limit : Int) (length : Nat)
  /-- not the start and end of a scanned span of a text of this length -/
  | cursor (start stop : Int) (length : Nat)

/-- What is said about numbers that bound no span. -/
def BoundsError.message : BoundsError → Text
  | region start stop limit length =>
    "Invalid region [".toList ++ Text.ofInt start ++ ", ".toList ++ Text.ofInt stop
      ++ ") with end ".toList ++ Text.ofInt limit ++ " for buffer of length ".toList
      ++ Text.ofNat length
  | cursor start stop length =>
    "Invalid tokenizer span [".toList ++ Text.ofInt start ++ ", ".toList ++ Text.ofInt stop
      ++ ") for buffer of length ".toList ++ Text.ofNat length

/-- The cursor at the first token of a span that is given from outside. -/
def Cursor.ofBounds? (source : Text) (start stop : Int) : Except BoundsError Cursor :=
  if h : 0 ≤ start ∧ start ≤ stop ∧ stop ≤ source.length then
    .ok (Cursor.ofSpan source start.toNat stop.toNat (by omega) (by omega))
  else .error (.cursor start stop source.length)

/-- A span of a text and the limit of what can be reached from it. -/
structure Region where
  /-- the text the region is a part of -/
  source : Text
  /-- the position of the first character -/
  start : Nat
  /-- the position after the last character -/
  stop : Nat
  /-- the position that navigation never passes -/
  limit : Nat
  /-- the span does not run backwards -/
  start_le_stop : start ≤ stop
  /-- the span ends at its limit or before -/
  stop_le_limit : stop ≤ limit
  /-- the limit lies in the text -/
  limit_le_length : limit ≤ source.length
  deriving DecidableEq

namespace Region

/-- The region of a text with bounds that are given from outside. -/
def ofBounds? (source : Text) (start stop limit : Int) : Except BoundsError Region :=
  if h : 0 ≤ start ∧ start ≤ stop ∧ stop ≤ limit ∧ limit ≤ source.length then
    .ok ⟨source, start.toNat, stop.toNat, limit.toNat, by omega, by omega, by omega⟩
  else .error (.region start stop limit source.length)

/-- A whole text. -/
def ofText (t : Text) : Region :=
  ⟨t, 0, t.length, t.length, Nat.zero_le _, Nat.le_refl _, Nat.le_refl _⟩

/-- The characters of the region. -/
def text (r : Region) : Text := r.source.slice r.start r.stop

/-- How many characters the region has. -/
def length (r : Region) : Nat := r.stop - r.start

/-- Whether the region has no characters. -/
def isEmpty (r : Region) : Bool := r.start == r.stop

theorem length_text (r : Region) : r.text.length = r.length :=
  Text.length_slice_of_le (Nat.le_trans r.stop_le_limit r.limit_le_length)

/-- The region of the same characters that is bounded by its own end. -/
def closed (r : Region) : Region :=
  { r with
    limit := r.stop
    stop_le_limit := Nat.le_refl _
    limit_le_length := Nat.le_trans r.stop_le_limit r.limit_le_length }

/-- The empty region at the end of this one, with the same limit. -/
def atEnd (r : Region) : Region := { r with start := r.stop, start_le_stop := Nat.le_refl _ }

/-- The cursor at the first token of the region. -/
def cursor (r : Region) : Cursor :=
  Cursor.ofSpan r.source r.start r.stop r.start_le_stop
    (Nat.le_trans r.stop_le_limit r.limit_le_length)

/-- The cursor at the end of the region, where no token is left. -/
def endCursor (r : Region) : Cursor :=
  Cursor.ofSpan r.source r.stop r.stop (Nat.le_refl _)
    (Nat.le_trans r.stop_le_limit r.limit_le_length)

/-- The tokens of the region. -/
def tokens (r : Region) : List Token := tokensOf r.source r.start r.text

/-- Whether the region holds no token. -/
def isBlank (r : Region) : Bool := r.cursor.isEmpty

/-- The kind of the token that follows the region within its limit: for a segment, the operator
that ends it. -/
def nextOperator (r : Region) : Kind := (Token.scan r.source r.stop r.limit).kind

/-- Every token of a region lies in it and takes at least one character. -/
theorem tokens_bounds {r : Region} {t : Token} (ht : t ∈ r.tokens) :
    r.start ≤ t.start ∧ t.start < t.stop ∧ t.stop ≤ r.stop := by
  have := tokensOf_bounds ht
  have := r.start_le_stop
  rw [length_text, length] at *
  omega

/-- Whether two regions are the same span. Their limits do not count. -/
def sameSpan (a b : Region) : Bool := a.source == b.source && a.start == b.start && a.stop == b.stop

/-- Whether a region is the span that a cursor has left. -/
def matchesCursor (r : Region) (c : Cursor) : Bool :=
  r.source == c.source && r.start == c.start && r.stop == c.stop

end Region

/-- The region of the tokens that a cursor has left. -/
def Cursor.region (c : Cursor) : Region :=
  ⟨c.source, c.start, c.stop, c.stop, c.start_le_stop, Nat.le_refl _, c.stop_le_length⟩

namespace Region

/-- The tokens of a region are those that its cursor runs through. -/
theorem rest_cursor (r : Region) : r.cursor.rest = r.tokens :=
  Cursor.rest_ofSpan _ _

/-- A region is blank exactly if it has no tokens. -/
theorem isBlank_iff {r : Region} : r.isBlank ↔ r.tokens = [] := by
  rw [isBlank, ← rest_cursor, Cursor.rest_eq]
  split <;> simp_all

end Region

end CommandLine
