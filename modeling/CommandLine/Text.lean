/-!
# Texts and their slices

A command line is a list of characters, and every position in it counts characters.

* `Text` — a list of characters.
* `Text.slice` — the characters between two positions.
* `drop_slice`, `take_slice` — cutting a slice is slicing the text elsewhere, so a reader that
  walks along a slice never loses its place in the text.
-/

namespace CommandLine

/-- A text: its characters in order. -/
abbrev Text := List Char

namespace Text

/-- The characters at the positions `[start, stop)`. Positions past the end hold none, and a
range that runs backwards is empty. -/
def slice (t : Text) (start stop : Nat) : Text := (t.drop start).take (stop - start)

theorem length_slice (t : Text) (start stop : Nat) :
    (slice t start stop).length = min (stop - start) (t.length - start) := by
  simp [slice]

/-- A slice within the text has as many characters as its range has positions. -/
theorem length_slice_of_le {t : Text} {start stop : Nat} (h : stop ≤ t.length) :
    (slice t start stop).length = stop - start := by
  rw [length_slice]
  omega

theorem drop_slice (t : Text) (start stop n : Nat) :
    (slice t start stop).drop n = slice t (start + n) stop := by
  rw [slice, slice, List.drop_take, List.drop_drop]
  congr 1
  omega

theorem take_slice {t : Text} {start stop n : Nat} (h : start + n ≤ stop) :
    (slice t start stop).take n = slice t start (start + n) := by
  rw [slice, slice, List.take_take]
  congr 1
  omega

theorem slice_self (t : Text) : slice t 0 t.length = t := by
  simp [slice]

theorem slice_of_le (t : Text) {start stop : Nat} (h : stop ≤ start) : slice t start stop = [] := by
  simp [slice, Nat.sub_eq_zero_of_le h]

/-- Texts with a separator between them. -/
def join (separator : Text) : List Text → Text
  | [] => []
  | [t] => t
  | t :: ts => t ++ separator ++ join separator ts

/-- Behind the first of several texts comes a separator. -/
theorem join_cons_cons (separator t u : Text) (ts : List Text) :
    join separator (t :: u :: ts) = t ++ (separator ++ join separator (u :: ts)) := by
  rw [join, List.append_assoc]
  exact List.cons_ne_nil _ _

theorem length_dropWhile_le (p : Char → Bool) (t : Text) : (t.dropWhile p).length ≤ t.length :=
  (List.dropWhile_suffix p).length_le

/-- What follows the first character that a test does not hold of is shorter than the text. -/
theorem length_lt_of_dropWhile_eq_cons {p : Char → Bool} {t rest : Text} {c : Char}
    (h : t.dropWhile p = c :: rest) : rest.length < t.length := by
  have := length_dropWhile_le p t
  rw [h, List.length_cons] at this
  omega

end Text

end CommandLine
