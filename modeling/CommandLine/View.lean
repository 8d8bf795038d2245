import CommandLine.Level
import CommandLine.Words

/-!
# Views

A view is a region that is read at one grammar level. Views are made freely: any region may be read
at any level, and a view may be read again at another one.

* `View.children?` — the segments of the level below.
* `View.advance`, `View.siblings` — the segments that follow at the same level.
* `View.first?` — the first segment at a level further inside.
* `LevelError` — the only way in which these fail: the level asked for is not inside.
-/

namespace CommandLine

/-- Why a view has no segments of a level. -/
inductive LevelError where
  /-- nothing is inside a segment of this level -/
  | noParts (level : Level)
  /-- the wanted level is further out -/
  | notInside (level wanted : Level)
  /-- a segment is not part of one of its own level -/
  | notNested (level : Level)
  deriving DecidableEq

/-- What is said about segments that are not there. -/
def LevelError.message : LevelError → Text
  | noParts level => level.name ++ " segments have no sub-segments".toList
  | notInside level wanted =>
    level.name ++ " segments do not contain ".toList ++ wanted.name ++ " segments".toList
  | notNested level => level.name ++ " segments do not nest".toList

/-- A region that is read at a grammar level. -/
structure View where
  /-- the level -/
  level : Level
  /-- the region -/
  region : Region
  deriving DecidableEq

namespace View

/-- The next segment of the same level. -/
def advance (v : View) : View := { v with region := v.region.nextSegment v.level.delimiters }

/-- The empty view at the end of this one. -/
def atEnd (v : View) : View := { v with region := v.region.atEnd }

/-- This view and the ones that follow it at its level. -/
def siblings (v : View) : List View :=
  (v.region.segmentsFrom v.level.delimiters).map (View.mk v.level)

/-- The segments of the level below. -/
def children? (v : View) : Except LevelError (List View) :=
  match v.level.child? with
  | some level => .ok ((v.region.divide level.delimiters).map (View.mk level))
  | none => .error (.noParts v.level)

/-- The first segment of a level, reached through the first segments of the levels given. -/
def firstThrough? (wanted : Level) : List Level → Region → Option Region
  | [], _ => none
  | level :: levels, r =>
    let first := r.closed.firstSegment level.delimiters
    if level = wanted then some first else firstThrough? wanted levels first

/-- The first segment of a level further inside. -/
def first? (wanted : Level) (v : View) : Except LevelError View :=
  if v.level = wanted then .error (.notNested wanted)
  else
    match firstThrough? wanted v.level.below v.region with
    | some r => .ok ⟨wanted, r⟩
    | none => .error (.notInside v.level wanted)

/-- The line inside a group. -/
def groupBody? (v : View) : Option View := v.region.groupBody?.map (View.mk .commandLine)

end View

end CommandLine
