import CommandLine.Text.Quoted

/-!
# Values in messages

How messages show a JSON value: texts are quoted, truth values and the missing value are written
as words with a capital, lists stand in brackets and fields in braces.
-/

namespace CommandLine

namespace Json

mutual

/-- A value as messages show it. -/
def display : Json → Text
  | null => "None".toList
  | bool b => if b then "True".toList else "False".toList
  | int n => Text.ofInt n
  | float x => x.toText
  | str t => t.quoted
  | arr items => '[' :: displayItems items ++ [']']
  | obj fields => '\x7b' :: displayFields fields ++ ['\x7d']

/-- Values after one another, with commas between them. -/
def displayItems : List Json → Text
  | [] => []
  | [v] => display v
  | v :: vs => display v ++ [',', ' '] ++ displayItems vs

/-- Fields after one another, with commas between them. -/
def displayFields : List (Text × Json) → Text
  | [] => []
  | [(k, v)] => k.quoted ++ [':', ' '] ++ display v
  | (k, v) :: fields => k.quoted ++ [':', ' '] ++ display v ++ [',', ' '] ++ displayFields fields

end

/-- A group of values in parentheses; a comma stands after a value that is alone. -/
def displayTuple : List Json → Text
  | [v] => '(' :: display v ++ [',', ')']
  | vs => '(' :: displayItems vs ++ [')']

/-- The word that says what kind of value it is. -/
def typeName : Json → Text
  | null => "NoneType".toList
  | bool _ => "bool".toList
  | int _ => "int".toList
  | float _ => "float".toList
  | str _ => "str".toList
  | arr _ => "list".toList
  | obj _ => "dict".toList

end Json

end CommandLine
