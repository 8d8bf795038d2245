import CommandLine.Text

/-!
# Kinds of tokens

A token is a word, a redirect operator or a control operator. Control operators end a command;
the end of the line counts as one of them.
-/

namespace CommandLine

/-- What a token is. -/
inductive Kind where
  /-- an argument, a command name or the target of a redirection -/
  | word
  /-- one of the redirect operators -/
  | redirect
  /-- a semicolon: the next conditional follows -/
  | sequence
  /-- the end of the line -/
  | eol
  /-- a single ampersand: the conditional before it runs in the background -/
  | background
  /-- a single bar between two commands of a pipeline -/
  | pipe
  /-- a double ampersand between two pipelines -/
  | and
  /-- a double bar between two pipelines -/
  | or
  /-- an opening parenthesis -/
  | lparen
  /-- a closing parenthesis -/
  | rparen
  deriving DecidableEq

namespace Kind

/-- Every kind, in the order in which they are declared. -/
def all : List Kind :=
  [word, redirect, sequence, eol, background, pipe, and, or, lparen, rparen]

/-- The name under which a kind is written out. -/
def name : Kind → Text
  | word => "word".toList
  | redirect => "redirect".toList
  | sequence => "sequence".toList
  | eol => "eol".toList
  | background => "background".toList
  | pipe => "pipe".toList
  | and => "and".toList
  | or => "or".toList
  | lparen => "lparen".toList
  | rparen => "rparen".toList

/-- The kind of a given name. -/
def ofName? (t : Text) : Option Kind := all.find? fun k => k.name == t

/-- Whether tokens of this kind end a command. Words and redirect operators do not. -/
def isControl : Kind → Bool
  | word | redirect => false
  | _ => true

/-- How messages call a token of this kind: a control operator by the characters it is written
with, the end of the line `newline`, and the other two, which have no single spelling, by name. -/
def spelling : Kind → Text
  | word => word.name
  | redirect => redirect.name
  | sequence => [';']
  | eol => "newline".toList
  | background => ['&']
  | pipe => ['|']
  | and => ['&', '&']
  | or => ['|', '|']
  | lparen => ['(']
  | rparen => [')']

/-- Names are read back. -/
theorem ofName?_name (k : Kind) : ofName? k.name = some k := by
  cases k <;> rfl

end Kind

end CommandLine
