import CommandLine.View

/-!
# Places

Regions, cursors, tokens and views all stand for a place in a text. Values of different kinds are
never the same place, but a region is the same place as a cursor that has exactly its span left.
What bounds the navigation from a region is no part of its place.
-/

namespace CommandLine

/-- A value that stands for a place. -/
inductive Place where
  /-- a region -/
  | region (r : Region)
  /-- a cursor -/
  | cursor (c : Cursor)
  /-- a token -/
  | token (t : Token)
  /-- a view -/
  | view (v : View)

/-- Whether two values stand for the same place. -/
def Place.same : Place → Place → Bool
  | region a, region b => a.sameSpan b
  | region a, cursor b => a.matchesCursor b
  | cursor a, region b => b.matchesCursor a
  | cursor a, cursor b => a == b
  | token a, token b => a == b
  | view a, view b => a.level == b.level && a.region.sameSpan b.region
  | _, _ => false

end CommandLine
