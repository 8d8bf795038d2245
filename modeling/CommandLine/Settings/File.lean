import CommandLine.Settings.Bindings
import CommandLine.Settings.Reference
import CommandLine.Text.Blank

/-!
# Files of variables

A file of variables has one statement on a line. A statement names a variable, and may give it a
value after an equals sign; the word `export` may stand before the name. A value ends with its
line, or stands between quotes and may then have several lines. A comment starts with a number sign
after blank characters or after a value in quotes. A line that is no statement is passed over.

* `readQuoted?` — a value up to its closing quote: the first one that no backslash stands before.
* `readStatement` — a statement, or what is left where it cannot be read on.
* `statements` — the statements of a file.
* `read` — the variables. A name that is used again keeps its place; one that is used without a
  value has none, even if it had one before.
-/

namespace CommandLine.VariableFile

/-- Whether a character is blank within a line. -/
def isInlineBlank (c : Char) : Bool := isBlank c && c != '\n'

/-- A text whose lines all end with a line feed alone. -/
def unifyLines : Text → Text
  | [] => []
  | '\r' :: '\n' :: rest => '\n' :: unifyLines rest
  | c :: rest => (if c = '\r' then '\n' else c) :: unifyLines rest

/-- What follows the current line. -/
def nextLine (t : Text) : Text := (t.dropWhile (· != '\n')).drop 1

/-- What follows the end of a statement: nothing but blank characters and a comment may be left on
its line. -/
def endLine? (t : Text) : Option Text :=
  match t.dropWhile isInlineBlank with
  | [] => some []
  | c :: rest => if c = '\n' then some rest else if c = '#' then some (nextLine rest) else none

/-! ## Names and values -/

/-- Whether a character may stand in a name without quotes. -/
def isNameChar (c : Char) : Bool := c != '=' && c != '#' && !isBlank c

/-- The name at the front and what follows it. A name in single quotes may have any characters. -/
def readName? (t : Text) : Option (Text × Text) :=
  if t.head? = some '\'' then
    let inside := t.drop 1
    match inside.takeWhile (· != '\''), inside.dropWhile (· != '\'') with
    | n :: ns, _ :: rest => some (n :: ns, rest)
    | _, _ => none
  else
    match t.takeWhile isNameChar with
    | [] => none
    | name => some (name, t.dropWhile isNameChar)

/-- What stands up to the closing quote, and what follows it. A quote after a backslash closes only
if no other quote does. -/
def readQuoted? (quote : Char) : Text → Option (Text × Text)
  | [] => none
  | [c] => if c = quote then some ([], []) else none
  | c :: d :: rest =>
    if c = quote then some ([], d :: rest)
    else if c = '\\' ∧ d = quote then
      match readQuoted? quote rest with
      | some (inside, after) => some (c :: d :: inside, after)
      | none => some ([c], rest)
    else (readQuoted? quote (d :: rest)).map fun r => (c :: r.1, r.2)

/-- The character that stands for itself after a backslash between single quotes. -/
def singleEscape? (c : Char) : Option Char := if c = '\\' ∨ c = '\'' then some c else none

/-- The character that another one stands for after a backslash between double quotes. -/
def doubleEscape? : Char → Option Char
  | '\\' => some '\\'
  | '\'' => some '\''
  | '"' => some '"'
  | 'a' => some '\x07'
  | 'b' => some '\x08'
  | 'f' => some '\x0c'
  | 'n' => some '\n'
  | 'r' => some '\r'
  | 't' => some '\t'
  | 'v' => some '\x0b'
  | _ => none

/-- A text with its escapes resolved. A backslash that starts none stands for itself. -/
def unescape (escape? : Char → Option Char) : Text → Text
  | [] => []
  | [c] => [c]
  | c :: d :: rest =>
    match if c = '\\' then escape? d else none with
    | some e => e :: unescape escape? rest
    | none => c :: unescape escape? (d :: rest)

/-- A value without the comment after it. -/
def dropComment : Text → Text
  | [] => []
  | c :: cs => if isBlank c && cs.head? == some '#' then [] else c :: dropComment cs

/-- The value after an equals sign, and what follows it; none if a quote is not closed. -/
def readValue? (t : Text) : Option (Text × Text) :=
  match t.dropWhile isInlineBlank with
  | '\'' :: rest => (readQuoted? '\'' rest).map fun r => (unescape singleEscape? r.1, r.2)
  | '"' :: rest => (readQuoted? '"' rest).map fun r => (unescape doubleEscape? r.1, r.2)
  | _ => some ((dropComment (t.takeWhile (· != '\n'))).strip, t.dropWhile (· != '\n'))

/-! ## Statements -/

/-- A variable that is named, and the value that it is given. -/
structure Statement where
  /-- the name -/
  name : Text
  /-- the value, if there is an equals sign -/
  value : Option Text

/-- A text without the word `export` in front of it and the blank characters after that. -/
def dropExport (t : Text) : Text :=
  let rest := t.drop 6
  if t.take 6 = "export".toList ∧ (rest.head?.map isInlineBlank).getD false then
    rest.dropWhile isInlineBlank
  else t

/-- The value of a variable after its name, if it is given one, and what follows. Where the value
cannot be read, what is left is the error. -/
def readAssigned (t : Text) : Except Text (Option Text × Text) :=
  match t.dropWhile isInlineBlank with
  | [] => .ok (none, [])
  | c :: rest =>
    if c = '=' then
      match readValue? rest with
      | some (value, rest) => .ok (some value, rest)
      | none => .error rest
    else .ok (none, c :: rest)

/-- The statement at the front, and what follows its line; there is none in a line with a comment
alone. Where the statement cannot be read on, what is left is the error. -/
def readStatement (t : Text) : Except Text (Option Statement × Text) :=
  let t := dropExport t
  if t.head? = some '#' then .ok (none, nextLine t)
  else
    match readName? t with
    | none => .error t
    | some (name, rest) =>
      match readAssigned rest with
      | .error left => .error left
      | .ok (value, rest) =>
        match endLine? rest with
        | some rest => .ok (some ⟨name, value⟩, rest)
        | none => .error rest

/-- The statement at the front, if there is one, and what follows. What cannot be read is passed
over to the end of its line. -/
def statement (t : Text) : Option Statement × Text :=
  match readStatement t with
  | .ok r => r
  | .error left => (none, nextLine left)

/-! Every reader leaves less than it has been given. -/

theorem length_nextLine_le (t : Text) : (nextLine t).length ≤ t.length - 1 := by
  have := Text.length_dropWhile_le (· != '\n') t
  rw [nextLine, List.length_drop]
  omega

theorem length_endLine?_le {t rest : Text} (h : endLine? t = some rest) :
    rest.length ≤ t.length := by
  rw [endLine?] at h
  split at h
  · cases h
    exact Nat.zero_le _
  · next c r hr =>
    have hs := Text.length_lt_of_dropWhile_eq_cons hr
    have := length_nextLine_le r
    split at h
    · cases h
      omega
    · split at h
      · cases h
        omega
      · cases h

theorem length_readName?_lt {t name rest : Text} (h : readName? t = some (name, rest)) :
    rest.length < t.length := by
  rw [readName?] at h
  split at h
  · simp only at h
    split at h
    · next hd =>
      cases h
      have hs := Text.length_lt_of_dropWhile_eq_cons hd
      rw [List.length_drop] at hs
      omega
    · cases h
  · split at h
    · cases h
    · next hne =>
      cases h
      have happ := congrArg List.length (List.takeWhile_append_dropWhile (p := isNameChar) (l := t))
      rw [List.length_append] at happ
      have : 0 < (t.takeWhile isNameChar).length := List.length_pos_iff.mpr hne
      omega

theorem length_readQuoted?_lt {quote : Char} {t inside rest : Text}
    (h : readQuoted? quote t = some (inside, rest)) : rest.length < t.length := by
  fun_induction readQuoted? quote t generalizing inside rest with
  | case1 => cases h
  | case2 => cases h; simp
  | case3 => cases h
  | case4 => cases h; simp
  | case5 _ _ _ _ _ _ _ hq ih =>
    cases h
    have := ih hq
    simp only [List.length_cons]
    omega
  | case6 => cases h; simp only [List.length_cons]; omega
  | case7 _ _ _ _ _ ih =>
    obtain ⟨r, hr, he⟩ := Option.map_eq_some_iff.mp h
    cases he
    have := ih hr
    simp only [List.length_cons] at *
    omega

theorem length_readValue?_le {t value rest : Text} (h : readValue? t = some (value, rest)) :
    rest.length ≤ t.length := by
  rw [readValue?] at h
  split at h
  · next hr =>
    obtain ⟨q, hq, he⟩ := Option.map_eq_some_iff.mp h
    cases he
    have := length_readQuoted?_lt hq
    have := Text.length_lt_of_dropWhile_eq_cons hr
    omega
  · next hr =>
    obtain ⟨q, hq, he⟩ := Option.map_eq_some_iff.mp h
    cases he
    have := length_readQuoted?_lt hq
    have := Text.length_lt_of_dropWhile_eq_cons hr
    omega
  · cases h
    exact Text.length_dropWhile_le _ _

theorem length_dropExport_le (t : Text) : (dropExport t).length ≤ t.length := by
  have := Text.length_dropWhile_le isInlineBlank (t.drop 6)
  rw [List.length_drop] at this
  rw [dropExport]
  split <;> omega

theorem length_readAssigned_le {t left : Text} (h : readAssigned t = .error left) :
    left.length ≤ t.length := by
  rw [readAssigned] at h
  split at h
  · cases h
  · next c r hr =>
    have hs := Text.length_lt_of_dropWhile_eq_cons hr
    split at h
    · split at h
      · cases h
      · cases h
        omega
    · cases h

theorem length_readAssigned_le_of_ok {t rest : Text} {value : Option Text}
    (h : readAssigned t = .ok (value, rest)) : rest.length ≤ t.length := by
  rw [readAssigned] at h
  split at h
  · cases h
    exact Nat.zero_le _
  · next c r hr =>
    have hs := Text.length_lt_of_dropWhile_eq_cons hr
    split at h
    · split at h
      · next hv =>
        cases h
        have := length_readValue?_le hv
        omega
      · cases h
    · cases h
      rw [List.length_cons]
      omega

/-- A statement takes at least one character. -/
theorem length_statement_lt {t : Text} (ht : 0 < t.length) : (statement t).2.length < t.length := by
  have he := length_dropExport_le t
  have hskip : ∀ left : Text, left.length ≤ t.length → (nextLine left).length < t.length := by
    intro left hl
    have := length_nextLine_le left
    omega
  rw [statement, readStatement]
  by_cases hc : (dropExport t).head? = some '#'
  · simp only [hc, if_true]
    exact hskip _ he
  · simp only [hc, if_false]
    cases hn : readName? (dropExport t) with
    | none => exact hskip _ he
    | some r =>
      obtain ⟨name, rest⟩ := r
      have hlt := length_readName?_lt hn
      dsimp only
      cases ha : readAssigned rest with
      | error left =>
        have := length_readAssigned_le ha
        exact hskip _ (by omega)
      | ok r =>
        obtain ⟨value, rest'⟩ := r
        have hle := length_readAssigned_le_of_ok ha
        dsimp only
        cases hend : endLine? rest' with
        | none => exact hskip _ (by omega)
        | some last =>
          have := length_endLine?_le hend
          show last.length < t.length
          omega

/-! ## Files -/

/-- The statements of a file, in order. -/
def statements (t : Text) : List Statement :=
  let front := t.dropWhile isBlank
  if front.isEmpty then []
  else (statement front).1.toList ++ statements (statement front).2
termination_by t.length
decreasing_by
  next h =>
  have hs := Text.length_dropWhile_le isBlank t
  have := length_statement_lt (t := t.dropWhile isBlank)
    (List.length_pos_iff.mpr fun hn => h (List.isEmpty_iff.mpr hn))
  omega

/-- The value of a variable that a value in a file refers to: one that stands further up in the
file comes before one of the environment. A variable without a value is replaced by nothing. -/
def lookup (environment : Bindings Text) (file : Bindings (Option Text)) (name : Text) :
    Option Text :=
  match file.get? name with
  | some value => some (value.getD [])
  | none => environment.get? name

/-- The variables of a file, with the references in their values replaced. -/
def read (environment : Bindings Text) (t : Text) : Bindings (Option Text) :=
  (statements (unifyLines t)).foldl
    (fun file s => file.set s.name (s.value.map (Reference.expand (lookup environment file)))) []

/-- The names of the variables that the values in a file refer to. -/
def references (t : Text) : List Text :=
  (statements (unifyLines t)).flatMap fun s => Reference.names (s.value.getD [])

end CommandLine.VariableFile
