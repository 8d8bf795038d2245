import CommandLine.Text

/-!
# Bindings

Values under names, in the order in which the names were first used. A name that is given another
value keeps its place.
-/

namespace CommandLine

/-- Values under names. -/
abbrev Bindings (α : Type) := List (Text × α)

namespace Bindings

/-- The value under a name. -/
def get? {α : Type} (b : Bindings α) (name : Text) : Option α :=
  (b.find? fun v => v.1 == name).map (·.2)

/-- Puts a value under a name. -/
def set {α : Type} (b : Bindings α) (name : Text) (value : α) : Bindings α :=
  if b.any (·.1 == name) then b.map fun v => if v.1 == name then (name, value) else v
  else b ++ [(name, value)]

/-- Removes a name. -/
def unset {α : Type} (b : Bindings α) (name : Text) : Bindings α := b.filter (·.1 != name)

/-- Bindings made one after the other. -/
def ofList {α : Type} (vs : List (Text × α)) : Bindings α :=
  vs.foldl (fun b v => b.set v.1 v.2) []

end Bindings

end CommandLine
