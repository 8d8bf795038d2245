import CommandLine.Region

/-!
# Segments

A region is cut into segments at the tokens of given kinds, its delimiters. Only a token outside
every parenthesised group delimits. A segment keeps the limit of the region it is cut from, so the
segment that follows it can be found from it alone.

* `undelimited` — how many characters stand before the first delimiter.
* `Region.firstSegment` — from the start of a region to the first delimiter, or to the limit.
* `Region.nextSegment` — the segment after the one token at the end of this one.
* `Region.segmentsFrom`, `Region.segments` — all segments from a given one on, and all of a
  region.

Each step starts after a token, so the ends of the segments rise until one reaches the limit.
-/

namespace CommandLine

/-- The nesting of parentheses after a token. A closing parenthesis without an opening one leaves
it as it is. -/
def depthAfter (depth : Nat) : Kind → Nat
  | .lparen => depth + 1
  | .rparen => depth - 1
  | _ => depth

/-- How many characters stand before the first delimiter outside parentheses; all of them if there
is none. -/
def undelimited (delimiters : List Kind) (depth : Nat) (cs : Text) : Nat :=
  match _ : Lexeme.first? cs with
  | none => cs.length
  | some l =>
    if depth = 0 ∧ l.kind ∈ delimiters then l.gap
    else l.width + undelimited delimiters (depthAfter depth l.kind) (cs.drop l.width)
termination_by cs.length
decreasing_by exact Lexeme.drop_width_lt (by assumption)

theorem undelimited_none {delimiters : List Kind} {depth : Nat} {cs : Text}
    (h : Lexeme.first? cs = none) : undelimited delimiters depth cs = cs.length := by
  rw [undelimited]
  split
  · rfl
  · next l hl => rw [h] at hl; cases hl

theorem undelimited_some {delimiters : List Kind} {depth : Nat} {cs : Text} {l : Lexeme}
    (h : Lexeme.first? cs = some l) :
    undelimited delimiters depth cs =
      if depth = 0 ∧ l.kind ∈ delimiters then l.gap
      else l.width + undelimited delimiters (depthAfter depth l.kind) (cs.drop l.width) := by
  rw [undelimited]
  split
  · next hn => rw [h] at hn; cases hn
  · next l' hl =>
    rw [h] at hl
    cases hl
    rfl

/-- The characters before the first delimiter are no more than there are. -/
theorem undelimited_le (delimiters : List Kind) (depth : Nat) (cs : Text) :
    undelimited delimiters depth cs ≤ cs.length := by
  induction h : cs.length using Nat.strongRecOn generalizing cs depth with
  | ind n ih =>
    subst h
    cases hl : Lexeme.first? cs with
    | none => exact Nat.le_of_eq (undelimited_none hl)
    | some l =>
      have hw := Lexeme.width_le hl
      have := ih _ (Lexeme.drop_width_lt hl) (depthAfter depth l.kind) _ rfl
      rw [undelimited_some hl]
      simp only [Lexeme.width, List.length_drop] at *
      split <;> omega

namespace Region

/-- The segment from the start of the region to the first delimiter, or to the limit. -/
def firstSegment (delimiters : List Kind) (r : Region) : Region :=
  { r with
    stop := r.start + undelimited delimiters 0 (r.source.slice r.start r.limit)
    start_le_stop := Nat.le_add_right _ _
    stop_le_limit := by
      have := undelimited_le delimiters 0 (r.source.slice r.start r.limit)
      have := Nat.le_trans r.start_le_stop r.stop_le_limit
      rw [Text.length_slice_of_le r.limit_le_length] at *
      omega }

/-- The token at the end of the region: the delimiter, for a segment. -/
def endToken (r : Region) : Token := Token.scan r.source r.stop r.limit

theorem endToken_bounds (r : Region) :
    r.stop ≤ r.endToken.start ∧ r.endToken.start ≤ r.endToken.stop ∧ r.endToken.stop ≤ r.limit :=
  Token.scan_bounds r.stop_le_limit

/-- The segment that follows: the token at the end of this one is skipped, whatever it is. At the
limit it is the empty region there. -/
def nextSegment (delimiters : List Kind) (r : Region) : Region :=
  firstSegment delimiters
    { r with
      start := r.endToken.stop
      stop := r.endToken.stop
      start_le_stop := Nat.le_refl _
      stop_le_limit := r.endToken_bounds.2.2 }

theorem nextSegment_limit (delimiters : List Kind) (r : Region) :
    (r.nextSegment delimiters).limit = r.limit := rfl

/-- Short of the limit, the next segment ends further on. -/
theorem lt_nextSegment_stop (delimiters : List Kind) {r : Region} (h : r.stop < r.limit) :
    r.stop < (r.nextSegment delimiters).stop :=
  Nat.lt_of_lt_of_le (Token.lt_scan_stop h) (Nat.le_add_right _ _)

/-- This segment and every one that follows it up to the limit. A segment that ends at a delimiter
is always followed by another, which may be empty. -/
def segmentsFrom (delimiters : List Kind) (r : Region) : List Region :=
  if r.stop < r.limit then r :: segmentsFrom delimiters (r.nextSegment delimiters) else [r]
termination_by r.limit - r.stop
decreasing_by
  have : r.stop < (r.nextSegment delimiters).stop := lt_nextSegment_stop delimiters (by assumption)
  have := (r.nextSegment delimiters).stop_le_limit
  rw [nextSegment_limit] at *
  omega

/-- The segments of the region from its start to its limit. -/
def segments (delimiters : List Kind) (r : Region) : List Region :=
  segmentsFrom delimiters (r.firstSegment delimiters)

/-- The segments that a region is divided into up to its own end. -/
def divide (delimiters : List Kind) (r : Region) : List Region := r.closed.segments delimiters

/-- A segment that follows starts no earlier than the one it is counted from, and has the same text
and limit. -/
theorem mem_segmentsFrom {delimiters : List Kind} {r s : Region}
    (hs : s ∈ segmentsFrom delimiters r) :
    r.start ≤ s.start ∧ s.source = r.source ∧ s.limit = r.limit := by
  fun_induction segmentsFrom delimiters r with
  | case1 r hlt ih =>
    rcases List.mem_cons.mp hs with rfl | hs
    · exact ⟨Nat.le_refl _, rfl, rfl⟩
    · have := ih hs
      refine ⟨?_, this.2.1, this.2.2⟩
      have hstart : r.stop ≤ (r.nextSegment delimiters).start :=
        Nat.le_trans r.endToken_bounds.1 r.endToken_bounds.2.1
      have := r.start_le_stop
      omega
  | case2 r hge =>
    rw [List.mem_singleton] at hs
    subst hs
    exact ⟨Nat.le_refl _, rfl, rfl⟩

/-- A region is divided into regions within it. -/
theorem mem_divide {delimiters : List Kind} {r s : Region} (hs : s ∈ r.divide delimiters) :
    r.start ≤ s.start ∧ s.stop ≤ r.stop ∧ s.source = r.source ∧ s.limit = r.stop := by
  obtain ⟨hstart, hsource, hlimit⟩ := mem_segmentsFrom hs
  have hstop := s.stop_le_limit
  rw [hlimit] at hstop
  exact ⟨hstart, hstop, hsource, hlimit⟩

/-- A part that a region is divided into is no longer than the region. -/
theorem length_le_of_mem_divide {delimiters : List Kind} {r s : Region}
    (hs : s ∈ r.divide delimiters) : s.length ≤ r.length := by
  have := mem_divide hs
  simp only [length]
  omega

end Region

end CommandLine
