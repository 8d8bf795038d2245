import CommandLine.Proofs.Descending
import CommandLine.Proofs.Grouping

/-!
# Moving from view to view

A view is left for the segment behind it, for one inside of it, for the line in its parentheses, or
for the same region at another level. However the moves are mixed, and wherever they start, the
regions stay in the bounds of the first one. A move fails only if it asks for a level that is not
inside, and whoever goes on moves forward or inward until nothing is left.

* `Move`, `View.move`, `View.run` — moves, and sequences of them.
* `Checked.move?`, `Checked.run?` — the same with every check; `Checked.run?_eq` says that nothing
  goes wrong but the levels.
* `View.Within` — a view in the bounds of another one, which no move leaves.
* `Level.rank`, `Move.refusal?` — the order of the levels, and when a move is refused.
* `View.Progress` — where moves lead in the end.
* `View.run_safe` — every view that is reached.
-/

namespace CommandLine

/-! ## Moves -/

/-- A move from a view to another one. -/
inductive Move where
  /-- to the next segment of the same level -/
  | advance
  /-- to the empty view at the end -/
  | atEnd
  /-- to the first segment of a level further inside -/
  | first (wanted : Level)
  /-- to the line inside a group -/
  | groupBody
  /-- to the same region at a level -/
  | retag (level : Level)
  /-- to one of the segments of the level below, counted from none -/
  | child (n : Nat)
  /-- to this view or one of those that follow it at its level, counted from none -/
  | sibling (n : Nat)

namespace View

/-- The view that a move leads to. There is none where the view is no group, or has too few segments
or too few behind it. -/
def move (v : View) : Move → Except LevelError (Option View)
  | .advance => .ok (some v.advance)
  | .atEnd => .ok (some v.atEnd)
  | .first wanted => (v.first? wanted).map some
  | .groupBody => .ok v.groupBody?
  | .retag level => .ok (some ⟨level, v.region⟩)
  | .child n => v.children?.map fun vs => vs[n]?
  | .sibling n => .ok v.siblings[n]?

/-- The view that some moves lead to, one after the other. -/
def run (v : View) : List Move → Except LevelError (Option View)
  | [] => .ok (some v)
  | m :: ms => do
    match ← v.move m with
    | some w => w.run ms
    | none => return none

end View

namespace Checked

/-- The first segment of a level, reached through the first segments of the levels given. -/
def firstThrough? (wanted : Level) : List Level → Region → Except Fault (Option Region)
  | [], _ => return none
  | level :: levels, r => do
    let first ← firstWithin? level.delimiters r
    if level = wanted then return some first else firstThrough? wanted levels first

/-- The view that a move leads to, with every check. -/
def move? (v : View) : Move → Except Fault (Option View)
  | .advance => do
    let next ← nextSegment? v.level.delimiters v.region
    return some ⟨v.level, next⟩
  | .atEnd => do
    let rest ← region? v.region.source v.region.stop v.region.stop v.region.limit
    return some ⟨v.level, rest⟩
  | .first wanted => do
    if v.level = wanted then throw (.level (.notNested wanted))
    match ← firstThrough? wanted v.level.below v.region with
    | some first => return some ⟨wanted, first⟩
    | none => throw (.level (.notInside v.level wanted))
  | .groupBody => do
    let body ← groupBody? v.region
    return body.map (View.mk .commandLine)
  | .retag level => return some ⟨level, v.region⟩
  | .child n =>
    match v.level.child? with
    | some level => do
      let parts ← divide? level.delimiters v.region
      return (parts.map (View.mk level))[n]?
    | none => throw (.level (.noParts v.level))
  | .sibling n => do
    let parts ← siblings? v.level.delimiters v.region
    return (parts.map (View.mk v.level))[n]?

/-- The view that some moves lead to, with every check. -/
def run? (v : View) : List Move → Except Fault (Option View)
  | [] => return some v
  | m :: ms => do
    match ← move? v m with
    | some w => run? w ms
    | none => return none

theorem firstThrough?_eq (wanted : Level) (levels : List Level) (r : Region) :
    firstThrough? wanted levels r = .ok (View.firstThrough? wanted levels r) := by
  induction levels generalizing r with
  | nil => rfl
  | cons level levels ih =>
    rw [firstThrough?, firstWithin?_eq, ok_bind, View.firstThrough?]
    split
    · rfl
    · exact ih _

/-- **A move with every check** fails only where the move itself is refused. -/
theorem move?_eq (v : View) (m : Move) : move? v m = (v.move m).mapError .level := by
  cases m with
  | advance =>
    rw [move?, nextSegment?_eq, ok_bind]
    rfl
  | atEnd =>
    have hrest : region? v.region.source v.region.stop v.region.stop v.region.limit =
        .ok v.region.atEnd := region?_eq v.region.atEnd
    rw [move?, hrest, ok_bind]
    rfl
  | first wanted =>
    rw [move?, View.move, View.first?, firstThrough?_eq]
    by_cases hlevel : v.level = wanted
    · rw [if_pos hlevel, if_pos hlevel]
      rfl
    · rw [if_neg hlevel, if_neg hlevel]
      cases View.firstThrough? wanted v.level.below v.region <;> rfl
  | groupBody =>
    rw [move?, groupBody?_eq, ok_bind]
    rfl
  | retag level => rfl
  | child n =>
    rw [move?, View.move, View.children?]
    cases v.level.child? with
    | none => rfl
    | some level =>
      simp only [divide?_eq, ok_bind]
      rfl
  | sibling n =>
    rw [move?, siblings?_eq, ok_bind]
    rfl

/-- **Moves with every check** fail only where one of them is refused. -/
theorem run?_eq (v : View) (ms : List Move) : run? v ms = (v.run ms).mapError .level := by
  induction ms generalizing v with
  | nil => rfl
  | cons m ms ih =>
    rw [run?, View.run, move?_eq]
    cases v.move m with
    | error e => rfl
    | ok reached =>
      cases reached with
      | none => rfl
      | some w => exact ih w

end Checked

/-! ## Bounds -/

/-- The body of a group is bounded by its own end. -/
theorem Region.limit_groupBody? {r body : Region} (h : r.groupBody? = some body) :
    body.limit = body.stop := by
  obtain ⟨o, ⟨c, rfl⟩ | ⟨-, rfl⟩⟩ := Region.exists_opening h <;> rfl

namespace View

variable {v w : View}

/-- A view in the bounds of another one. -/
structure Within (v w : View) : Prop where
  /-- it is a view of the same text -/
  source_eq : w.region.source = v.region.source
  /-- it starts no earlier -/
  start_le : v.region.start ≤ w.region.start
  /-- it is limited no later -/
  limit_le : w.region.limit ≤ v.region.limit

theorem Within.refl (v : View) : v.Within v := ⟨rfl, Nat.le_refl _, Nat.le_refl _⟩

theorem Within.trans {u : View} (h : u.Within v) (h' : v.Within w) : u.Within w :=
  ⟨h'.source_eq.trans h.source_eq, Nat.le_trans h.start_le h'.start_le,
    Nat.le_trans h'.limit_le h.limit_le⟩

/-- Advancing never leads back. -/
theorem start_le_advance (v : View) : v.region.start ≤ v.advance.region.start := by
  have hb := v.region.endToken_bounds
  have := v.region.start_le_stop
  change v.region.start ≤ v.region.endToken.stop
  omega

theorem within_of_first {wanted : Level} {levels : List Level} {r s : Region}
    (h : firstThrough? wanted levels r = some s) :
    s.source = r.source ∧ r.start ≤ s.start ∧ s.limit ≤ r.limit := by
  induction levels generalizing r with
  | nil => cases h
  | cons level levels ih =>
    rw [firstThrough?] at h
    split at h
    · cases h
      exact ⟨rfl, Nat.le_refl _, r.stop_le_limit⟩
    · obtain ⟨hsource, hstart, hlimit⟩ := ih h
      exact ⟨hsource, hstart, Nat.le_trans hlimit r.stop_le_limit⟩

/-- **No move leaves the bounds** of the view that it is made from. -/
theorem within_of_move {m : Move} (h : v.move m = .ok (some w)) : v.Within w := by
  cases m with
  | advance =>
    cases h
    exact ⟨rfl, v.start_le_advance, Nat.le_refl _⟩
  | atEnd =>
    cases h
    exact ⟨rfl, v.region.start_le_stop, Nat.le_refl _⟩
  | first wanted =>
    rw [move, first?] at h
    split at h
    · cases h
    · split at h
      · next first hfirst =>
        cases h
        obtain ⟨hsource, hstart, hlimit⟩ := within_of_first hfirst
        exact ⟨hsource, hstart, hlimit⟩
      · cases h
  | groupBody =>
    rw [move, Except.ok.injEq, groupBody?, Option.map_eq_some_iff] at h
    obtain ⟨body, hbody, rfl⟩ := h
    obtain ⟨hstart, hstop, hsource⟩ := Region.groupBody?_bounds hbody
    rw [← Region.limit_groupBody? hbody] at hstop
    exact ⟨hsource, Nat.le_of_lt hstart, Nat.le_trans hstop v.region.stop_le_limit⟩
  | retag level =>
    cases h
    exact ⟨rfl, Nat.le_refl _, Nat.le_refl _⟩
  | child n =>
    rw [move, children?] at h
    split at h
    · rw [Except.map, Except.ok.injEq] at h
      obtain ⟨s, hs, rfl⟩ := List.mem_map.mp (List.mem_of_getElem? h)
      obtain ⟨hstart, -, hsource, hlimit⟩ := Region.mem_divide hs
      exact ⟨hsource, hstart, Nat.le_trans (Nat.le_of_eq hlimit) v.region.stop_le_limit⟩
    · cases h
  | sibling n =>
    rw [move, Except.ok.injEq] at h
    obtain ⟨s, hs, rfl⟩ := List.mem_map.mp (List.mem_of_getElem? h)
    obtain ⟨hstart, hsource, hlimit⟩ := Region.mem_segmentsFrom hs
    exact ⟨hsource, hstart, Nat.le_of_eq hlimit⟩

/-- **No sequence of moves leaves the bounds** of the view that it starts from. -/
theorem within_of_run {ms : List Move} (h : v.run ms = .ok (some w)) : v.Within w := by
  induction ms generalizing v with
  | nil =>
    cases h
    exact .refl _
  | cons m ms ih =>
    rw [run] at h
    cases hm : v.move m with
    | error e =>
      rw [hm] at h
      cases h
    | ok reached =>
      rw [hm] at h
      cases reached with
      | none => cases h
      | some u => exact (within_of_move hm).trans (ih h)

/-! ## Refusals -/

/-- A level is reached exactly if it is among the levels that are gone through. -/
theorem firstThrough?_eq_none_iff {wanted : Level} {levels : List Level} {r : Region} :
    firstThrough? wanted levels r = none ↔ wanted ∉ levels := by
  induction levels generalizing r with
  | nil => simp [firstThrough?]
  | cons level levels ih =>
    rw [firstThrough?, List.mem_cons, not_or]
    split
    · next h => simp [h]
    · next h => rw [ih, and_iff_right (Ne.symm h)]

end View

/-- The levels in their order, from the innermost one. -/
def Level.rank : Level → Nat
  | .command => 0
  | .pipeline => 1
  | .conditional => 2
  | .commandLine => 3

/-- The levels inside a level are the lower ones. -/
theorem Level.mem_below_iff {level wanted : Level} :
    wanted ∈ level.below ↔ wanted.rank < level.rank := by
  cases level <;> cases wanted <;> decide

/-- Nothing is inside the lowest level. -/
theorem Level.below_eq_nil_iff {level : Level} : level.below = [] ↔ level.rank = 0 := by
  cases level <;> decide

/-- Why a move from a view of a level is refused: it asks for parts of the lowest level, or for a
level that is not lower. -/
def Move.refusal? (level : Level) : Move → Option LevelError
  | .child _ => if level.rank = 0 then some (.noParts level) else none
  | .first wanted =>
    if wanted.rank < level.rank then none
    else if level = wanted then some (.notNested wanted)
    else some (.notInside level wanted)
  | _ => none

namespace View

variable {v w : View}

/-- **A move is refused** exactly if it asks for a level that is not inside. -/
theorem move_eq_error_iff {m : Move} {e : LevelError} :
    v.move m = .error e ↔ m.refusal? v.level = some e := by
  cases m with
  | advance => exact ⟨nofun, nofun⟩
  | atEnd => exact ⟨nofun, nofun⟩
  | first wanted =>
    rw [move, first?, Move.refusal?]
    by_cases hlevel : v.level = wanted
    · rw [if_pos hlevel, if_neg (hlevel ▸ Nat.lt_irrefl _), if_pos hlevel]
      simp [Except.map]
    · rw [if_neg hlevel, if_neg hlevel]
      cases hfirst : firstThrough? wanted v.level.below v.region with
      | none =>
        rw [if_neg (mt Level.mem_below_iff.mpr (firstThrough?_eq_none_iff.mp hfirst))]
        simp [Except.map]
      | some first =>
        have hmem : wanted ∈ v.level.below := by
          by_contra hmem
          rw [firstThrough?_eq_none_iff.mpr hmem] at hfirst
          cases hfirst
        rw [if_pos (Level.mem_below_iff.mp hmem)]
        exact ⟨nofun, nofun⟩
  | groupBody => exact ⟨nofun, nofun⟩
  | retag level => exact ⟨nofun, nofun⟩
  | child n =>
    rw [move, children?, Move.refusal?, Level.child?]
    cases hbelow : v.level.below with
    | nil =>
      rw [if_pos (Level.below_eq_nil_iff.mp hbelow)]
      simp [Except.map]
    | cons level levels =>
      rw [if_neg (mt Level.below_eq_nil_iff.mpr (hbelow ▸ List.cons_ne_nil _ _))]
      exact ⟨nofun, nofun⟩
  | sibling n => exact ⟨nofun, nofun⟩

/-! ## Progress -/

/-- Short of the limit there is a token behind a view, and it takes characters. -/
theorem start_lt_advance (h : v.region.stop < v.region.limit) :
    v.region.start < v.advance.region.start := by
  have hlt : v.region.stop < v.region.endToken.stop := Token.lt_scan_stop h
  exact Nat.lt_of_le_of_lt v.region.start_le_stop hlt

/-- At the limit there is nothing behind a view but the empty one there. -/
theorem advance_of_stop_eq (h : v.region.stop = v.region.limit) :
    v.advance.region.start = v.region.limit ∧ v.advance.region.stop = v.region.limit := by
  have hb := v.region.endToken_bounds
  have hstart : v.advance.region.start = v.region.limit := by
    change v.region.endToken.stop = v.region.limit
    omega
  have hle := v.advance.region.start_le_stop
  have hstop : v.advance.region.stop ≤ v.region.limit := v.advance.region.stop_le_limit
  exact ⟨hstart, by omega⟩

/-- The empty view at the limit is followed by itself. -/
theorem advance_of_start_eq (h : v.region.start = v.region.limit) : v.advance = v := by
  have hle := v.region.start_le_stop
  have hstop := v.region.stop_le_limit
  obtain ⟨hs, ht⟩ := advance_of_stop_eq (v := v) (by omega)
  have hregion : v.advance.region = v.region :=
    Region.eq_of_bounds rfl (by omega) (by omega) rfl
  exact congrArg (View.mk v.level) hregion

/-- Each view that follows ends further on. -/
theorem length_siblings_le (v : View) :
    v.siblings.length ≤ v.region.limit - v.region.stop + 1 := by
  rw [siblings, List.length_map]
  generalize v.region = r
  fun_induction Region.segmentsFrom v.level.delimiters r with
  | case1 r hlt ih =>
    have hnext := Region.lt_nextSegment_stop v.level.delimiters hlt
    have hlimit := r.nextSegment_limit v.level.delimiters
    rw [List.length_cons]
    omega
  | case2 r hge => exact Nat.le_add_left _ _

/-- Where moves from a view lead in the end. -/
structure Progress (v : View) : Prop where
  /-- the view behind it starts no earlier -/
  start_le : v.region.start ≤ v.advance.region.start
  /-- short of the limit it starts further on -/
  start_lt : v.region.stop < v.region.limit → v.region.start < v.advance.region.start
  /-- at the limit it is the empty view there -/
  at_limit : v.region.stop = v.region.limit →
    v.advance.region.start = v.region.limit ∧ v.advance.region.stop = v.region.limit
  /-- the empty view at the limit is not left -/
  fixed : v.region.start = v.region.limit → v.advance = v
  /-- the body of a group is shorter -/
  body_lt : ∀ body, v.groupBody? = some body → body.region.length < v.region.length
  /-- only so many views follow it -/
  siblings_le : v.siblings.length ≤ v.region.limit - v.region.stop + 1
  /-- they are found with every check -/
  siblings_eq : (Checked.siblings? v.level.delimiters v.region).map (List.map (View.mk v.level)) =
    .ok v.siblings
  /-- so is the tree, with a line inside of another one for each character at most -/
  tree_eq : Checked.tree? (v.region.length + 1) v.region = .ok v.region.toLine
  /-- and so are the issues -/
  diagnose_eq : Checked.diagnose? (v.region.length + 1) v.region = .ok (diagnose v.region)

theorem progress (v : View) : v.Progress where
  start_le := v.start_le_advance
  start_lt := start_lt_advance
  at_limit := advance_of_stop_eq
  fixed := advance_of_start_eq
  body_lt := by
    intro body h
    obtain ⟨s, hs, rfl⟩ := Option.map_eq_some_iff.mp h
    exact Region.length_groupBody?_lt hs
  siblings_le := v.length_siblings_le
  siblings_eq := by
    rw [Checked.siblings?_eq]
    rfl
  tree_eq := Checked.tree?_of_length_lt (Nat.lt_succ_self _)
  diagnose_eq := Checked.diagnose?_of_length_lt (Nat.lt_succ_self _)

/-- **Every view that is reached** from a view by some moves is a region in the bounds of the first
one, whatever moves they are. On the way no numbers are refused, no character is missing and no loop
comes to nothing: only a move that asks for a level which is not inside is refused. From each view
that is reached moves lead forward, and inward, to an end. -/
theorem run_safe (v : View) (ms : List Move) :
    Checked.run? v ms = (v.run ms).mapError .level ∧
      ∀ w, v.run ms = .ok (some w) →
        (w.region.source = v.region.source ∧ v.region.start ≤ w.region.start ∧
          w.region.start ≤ w.region.stop ∧ w.region.stop ≤ w.region.limit ∧
          w.region.limit ≤ v.region.limit) ∧
        (∀ m e, w.move m = .error e ↔ m.refusal? w.level = some e) ∧ w.Progress := by
  refine ⟨Checked.run?_eq v ms, fun w hw => ⟨?_, fun m e => move_eq_error_iff, w.progress⟩⟩
  obtain ⟨hsource, hstart, hlimit⟩ := within_of_run hw
  exact ⟨hsource, hstart, w.region.start_le_stop, w.region.stop_le_limit, hlimit⟩

/-- Into the parentheses of a group, and there to the second command. -/
theorem run_safe_group :
    ∃ w : View, run ⟨.commandLine, Region.ofText "(a;b)|c".toList⟩
        [.first .command, .groupBody, .child 1] = .ok (some w) ∧
      w.region.start = 3 ∧ w.region.limit = 4 ∧ w.region.limit ≤ 7 ∧
      (∀ m e, w.move m = .error e ↔ m.refusal? w.level = some e) ∧ w.Progress := by
  have hreached : ((run ⟨.commandLine, Region.ofText "(a;b)|c".toList⟩
      [.first .command, .groupBody, .child 1]).toOption.join.map
        fun w => (w.region.start, w.region.limit)) = some (3, 4) := by
    decide +kernel
  cases hrun : run ⟨.commandLine, Region.ofText "(a;b)|c".toList⟩
      [.first .command, .groupBody, .child 1] with
  | error e =>
    rw [hrun] at hreached
    cases hreached
  | ok reached =>
    cases reached with
    | none =>
      rw [hrun] at hreached
      cases hreached
    | some w =>
      simp only [hrun, Except.toOption, Option.join_some, Option.map_some, Option.some.injEq,
        Prod.mk.injEq] at hreached
      obtain ⟨⟨-, -, -, -, hwithin⟩, hrefused, hprogress⟩ :=
        (run_safe ⟨.commandLine, Region.ofText "(a;b)|c".toList⟩ _).2 w hrun
      exact ⟨w, rfl, hreached.1, hreached.2, hwithin, hrefused, hprogress⟩

end View

end CommandLine
