import CommandLine.Proofs.Lossless
import Mathlib.Logic.Function.Iterate

/-!
# Splitting tokens

The segments of a region are found one after the other. Each is read from where the delimiter before
it ends, with the parentheses counted from nothing. One pass along the tokens with a single count
comes to the same delimiters, whatever kinds these are: the segments hold the tokens between them.

* `marked` — some tokens, each with whether the pass takes it for a delimiter.
* `pieces`, `separators` — the tokens between the delimiters, and the delimiters.
* `Separated` — segments with delimiters between them.
* `Region.segmentsFrom_eq_iterate` — the way from segment to segment, which comes to an end.
* `Region.segments_split` — the segments of a region and the pieces of its tokens.
-/

namespace CommandLine

/-! ## One pass along the tokens -/

/-- Some tokens at a depth of parentheses, each with whether it is a delimiter outside of them. A
delimiter leaves the depth as it is, even if it is a parenthesis. -/
def marked (delimiters : List Kind) : Nat → List Token → List (Token × Bool)
  | _, [] => []
  | depth, t :: ts =>
    if depth = 0 ∧ t.kind ∈ delimiters then (t, true) :: marked delimiters depth ts
    else (t, false) :: marked delimiters (nestingAfter depth t) ts

/-- The tokens between the delimiters. -/
def pieces (delimiters : List Kind) (ts : List Token) : List (List Token) :=
  ((marked delimiters 0 ts).splitOnP Prod.snd).map (List.map Prod.fst)

/-- The delimiters. -/
def separators (delimiters : List Kind) (ts : List Token) : List Token :=
  ((marked delimiters 0 ts).filter Prod.snd).map Prod.fst

section

variable {delimiters : List Kind}

/-- Tokens without a delimiter in front of others change nothing but the depth. -/
theorem marked_append {depth : Nat} {ts : List Token} (us : List Token)
    (h : Undivided delimiters depth (ts.map Token.kind)) :
    marked delimiters depth (ts ++ us) =
      ts.map (fun t => (t, false)) ++
        marked delimiters (depthAlong depth (ts.map Token.kind)) us := by
  induction ts generalizing depth with
  | nil => rfl
  | cons t ts ih =>
    rw [List.cons_append, marked, if_neg h.1, nestingAfter_eq, ih h.2]
    rfl

/-- Without a delimiter all tokens are one piece. -/
theorem pieces_of_undivided {ts : List Token} (h : Undivided delimiters 0 (ts.map Token.kind)) :
    pieces delimiters ts = [ts] ∧ separators delimiters ts = [] := by
  have hmarked : marked delimiters 0 ts = ts.map fun t => (t, false) := by
    have happend := marked_append [] h
    rwa [List.append_nil, marked, List.append_nil] at happend
  rw [pieces, separators, hmarked]
  constructor
  · rw [List.splitOnP_eq_singleton (List.forall_mem_map.mpr fun _ _ => rfl), List.map_singleton,
      List.map_map]
    exact congrArg (fun us => [us]) (List.map_id ts)
  · rw [List.map_eq_nil_iff, List.filter_eq_nil_iff]
    exact List.forall_mem_map.mpr fun _ _ => Bool.false_ne_true

/-- Otherwise the first piece stands before the first delimiter, and the others behind it. -/
theorem pieces_of_delimiter {before after : List Token} {t : Token}
    (hfree : Undivided delimiters 0 (before.map Token.kind))
    (hdepth : depthAlong 0 (before.map Token.kind) = 0) (ht : t.kind ∈ delimiters) :
    pieces delimiters (before ++ t :: after) = before :: pieces delimiters after ∧
      separators delimiters (before ++ t :: after) = t :: separators delimiters after := by
  have hmarked : marked delimiters 0 (before ++ t :: after) =
      before.map (fun t => (t, false)) ++ (t, true) :: marked delimiters 0 after := by
    rw [marked_append _ hfree, hdepth, marked, if_pos ⟨rfl, ht⟩]
  have hplain : ∀ p ∈ before.map fun t => (t, false), Prod.snd p = false :=
    List.forall_mem_map.mpr fun _ _ => rfl
  rw [pieces, separators, hmarked]
  constructor
  · rw [List.splitOnP_append_cons _ _ rfl, List.splitOnP_eq_singleton hplain, List.map_append,
      List.map_singleton, List.map_map]
    exact congrArg (fun us => us :: pieces delimiters after) (List.map_id before)
  · have hnone : (before.map fun t => (t, false)).filter Prod.snd = [] := by
      rw [List.filter_eq_nil_iff]
      exact fun p hp => Bool.eq_false_iff.mp (hplain p hp)
    rw [List.filter_append, hnone, List.nil_append, List.filter_cons_of_pos rfl]
    rfl

end

/-! ## Segments -/

/-- Segments from a position to a limit, with a delimiter behind each but the last. -/
inductive Separated (limit : Nat) : Nat → List Region → List Token → Prop where
  /-- the last one ends at the limit, where no token is left -/
  | last {s : Region} (stops : s.stop = limit) (next : s.nextOperator = .eol) :
      Separated limit s.start [s] []
  /-- every other one ends where its delimiter starts, and the next one starts where the delimiter
  ends -/
  | cut {s : Region} {d : Token} {ss : List Region} {ds : List Token} (stops : s.stop = d.start)
      (next : s.nextOperator = d.kind) (rest : Separated limit d.stop ss ds) :
      Separated limit s.start (s :: ss) (d :: ds)

theorem Separated.length_eq {limit pos : Nat} {ss : List Region} {ds : List Token}
    (h : Separated limit pos ss ds) : ss.length = ds.length + 1 := by
  induction h with
  | last => rfl
  | cut _ _ _ ih => rw [List.length_cons, ih, List.length_cons]

namespace Region

variable {delimiters : List Kind}

/-- The region from the start of this one to its limit, which the segments are cut from. -/
def upToLimit (r : Region) : Region :=
  { r with
    stop := r.limit
    start_le_stop := Nat.le_trans r.start_le_stop r.stop_le_limit
    stop_le_limit := Nat.le_refl _ }

theorem segments_eq_divide (delimiters : List Kind) (r : Region) :
    r.segments delimiters = r.upToLimit.divide delimiters := rfl

/-- The segment that is reached from the first one by moving on some times. -/
def segmentAt (delimiters : List Kind) (r : Region) (n : Nat) : Region :=
  (nextSegment delimiters)^[n] (r.firstSegment delimiters)

/-- **The way from segment to segment** comes to an end: it moves on while a segment ends short of
the limit, and does so only so often. -/
theorem segmentsFrom_eq_iterate (delimiters : List Kind) (s : Region) :
    ∃ n, segmentsFrom delimiters s =
        (List.range (n + 1)).map (fun k => (nextSegment delimiters)^[k] s) ∧
      (∀ k < n, ((nextSegment delimiters)^[k] s).stop < s.limit) ∧
      ((nextSegment delimiters)^[n] s).stop = s.limit := by
  fun_induction segmentsFrom delimiters s with
  | case1 s hlt ih =>
    obtain ⟨n, hsegments, hbefore, hend⟩ := ih
    refine ⟨n + 1, ?_, fun k hk => ?_, hend⟩
    · rw [List.range_succ_eq_map, List.map_cons, List.map_map, hsegments]
      rfl
    · cases k with
      | zero => exact hlt
      | succ k => exact hbefore k (Nat.lt_of_succ_lt_succ hk)
  | case2 s hge =>
    refine ⟨0, rfl, fun k hk => absurd hk (Nat.not_lt_zero k), ?_⟩
    exact Nat.le_antisymm s.stop_le_limit (Nat.not_lt.mp hge)

/-- The segments hold the pieces of the tokens. -/
theorem map_tokens_divide (delimiters : List Kind) (r : Region) :
    (r.divide delimiters).map tokens = pieces delimiters r.tokens := by
  induction r using cut_induction delimiters with
  | last r hfree =>
    rw [divide_of_undivided hfree, (pieces_of_undivided hfree).1]
    rfl
  | cut r c ih =>
    rw [divide_of_cut c, List.map_cons, ih, c.tokens_left, c.tokens_right, c.tokens_eq,
      (pieces_of_delimiter c.undivided c.outside c.kind_mem).1]

/-- The delimiters stand between them. -/
theorem separated_divide (delimiters : List Kind) (r : Region) :
    Separated r.stop r.start (r.divide delimiters) (separators delimiters r.tokens) := by
  induction r using cut_induction delimiters with
  | last r hfree =>
    rw [divide_of_undivided hfree, (pieces_of_undivided hfree).2]
    exact .last rfl r.nextOperator_closed
  | cut r c ih =>
    rw [c.tokens_right] at ih
    rw [divide_of_cut c, c.tokens_eq, (pieces_of_delimiter c.undivided c.outside c.kind_mem).2]
    exact .cut rfl c.nextOperator_left ih

/-- The texts of the segments and of the delimiters between them are the text of the region. -/
theorem interleave_divide (delimiters : List Kind) (r : Region) :
    Text.interleave ((r.divide delimiters).map text)
      ((separators delimiters r.tokens).map Token.raw) = r.text := by
  induction r using cut_induction delimiters with
  | last r hfree =>
    rw [divide_of_undivided hfree, (pieces_of_undivided hfree).2]
    simp only [List.map_singleton, List.map_nil, Text.interleave, List.flatten_singleton,
      List.flatten_nil, List.append_nil]
    rfl
  | cut r c ih =>
    rw [c.tokens_right] at ih
    rw [divide_of_cut c, c.tokens_eq, (pieces_of_delimiter c.undivided c.outside c.kind_mem).2,
      List.map_cons, List.map_cons, Text.interleave, ih, c.text_eq]

/-- **The segments of a region** by delimiters of any kinds are what its tokens up to its limit are
split into by one pass along them. Moving on from segment to segment comes to an end after as many
steps as there are delimiters. Each segment but the last ends where its delimiter starts, with the
kind of the delimiter as its operator, and the next one starts where the delimiter ends; the last
one ends at the limit, where no token is left. All of them have the text and the limit of the
region, and their texts with the delimiters between them are what stands there. -/
theorem segments_split (delimiters : List Kind) (r : Region) :
    ((∀ n < (separators delimiters r.upToLimit.tokens).length,
        (r.segmentAt delimiters n).stop < r.limit) ∧
      (r.segmentAt delimiters (separators delimiters r.upToLimit.tokens).length).stop = r.limit ∧
      r.segments delimiters =
        (List.range ((separators delimiters r.upToLimit.tokens).length + 1)).map
          (r.segmentAt delimiters)) ∧
    (r.segments delimiters).map tokens = pieces delimiters r.upToLimit.tokens ∧
    Separated r.limit r.start (r.segments delimiters) (separators delimiters r.upToLimit.tokens) ∧
    (∀ s ∈ r.segments delimiters, s.source = r.source ∧ s.limit = r.limit) ∧
    Text.interleave ((r.segments delimiters).map text)
        ((separators delimiters r.upToLimit.tokens).map Token.raw) =
      r.source.slice r.start r.limit := by
  have hseparated := separated_divide delimiters r.upToLimit
  rw [← segments_eq_divide] at hseparated
  refine ⟨?_, map_tokens_divide delimiters r.upToLimit, hseparated, ?_,
    interleave_divide delimiters r.upToLimit⟩
  · obtain ⟨n, hsegments, hbefore, hend⟩ :=
      segmentsFrom_eq_iterate delimiters (r.firstSegment delimiters)
    have hlength := hseparated.length_eq
    rw [segments, hsegments, List.length_map, List.length_range] at hlength
    rw [← Nat.succ.inj hlength]
    exact ⟨hbefore, hend, hsegments⟩
  · intro s hs
    exact (mem_segmentsFrom hs).2

/-- **Parentheses as delimiters** open nothing: the second one is a delimiter like the first, and the
segments before them end short of the limit. -/
theorem segments_split_at_parentheses :
    ((Region.ofText "a(b(c".toList).segmentAt [.lparen] 1).stop < 5 ∧
      (pieces [.lparen] (Region.ofText "a(b(c".toList).upToLimit.tokens).map (List.map Token.raw) =
        [["a".toList], ["b".toList], ["c".toList]] ∧
      ∃ s ∈ (Region.ofText "a(b(c".toList).segments [.lparen], s.limit = 5 := by
  obtain ⟨⟨hbefore, -, hsegments⟩, -, -, hmem, -⟩ :=
    segments_split [.lparen] (Region.ofText "a(b(c".toList)
  have hfirst : (Region.ofText "a(b(c".toList).segmentAt [.lparen] 0 ∈
      (Region.ofText "a(b(c".toList).segments [.lparen] := by
    rw [hsegments]
    exact List.mem_map_of_mem (List.mem_range.mpr (Nat.succ_pos _))
  exact ⟨hbefore 1 (by decide +kernel), by decide +kernel, _, hfirst, (hmem _ hfirst).2⟩

end Region

end CommandLine
