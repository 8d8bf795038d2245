import CommandLine.Level
import CommandLine.Lexeme
import CommandLine.Text.Decimal

/-!
# Syntax issues

What can be wrong with a line, as causes. A `Problem` says what is wrong and carries what its
message names; an `Issue` is a problem at a position.

* `Problem.code` — the class of a problem.
* `Problem.message` — its wording.
-/

namespace CommandLine

/-- What is wrong. -/
inductive Problem where
  /-- a word ends inside a quote, opened by this mark -/
  | openQuote (mark : Char)
  /-- a backslash at the end of the line -/
  | trailingEscape
  /-- nothing stands before the operator that ends a segment of this level -/
  | nothingBefore (level : Level) (operator : Kind)
  /-- nothing stands after the last operator between the segments of this level -/
  | nothingAfter (level : Level) (operator : Kind)
  /-- no word follows a redirect operator of this spelling -/
  | noTarget (operator : Text)
  /-- a closing parenthesis that nothing opens -/
  | strayClose
  /-- an opening parenthesis that nothing closes -/
  | unclosedGroup
  /-- parentheses without a token between them -/
  | emptyGroup
  /-- a word or a parenthesis beside a group, where only redirections may stand -/
  | besideGroup (raw : Text)
  deriving DecidableEq

namespace Problem

/-- The code for a segment without tokens: each level has its own. A line may be empty. -/
def emptyCode : Level → Text
  | .command => "empty_command".toList
  | .pipeline => "empty_pipeline".toList
  | _ => "empty_conditional".toList

/-- The class of a problem. -/
def code : Problem → Text
  | openQuote _ => "unterminated_quote".toList
  | trailingEscape => "trailing_escape".toList
  | nothingBefore level _ => emptyCode level
  | nothingAfter level _ => emptyCode level
  | noTarget _ => "missing_redirect_target".toList
  | strayClose => "unbalanced_group".toList
  | unclosedGroup => "unbalanced_group".toList
  | emptyGroup => "empty_group".toList
  | besideGroup _ => "mixed_group".toList

/-- A text between the marks that messages put around what they cite. -/
def cite (t : Text) : Text := '\x60' :: t ++ ['\'']

/-- The wording for a token that should not stand where it does. -/
def unexpected (t : Text) : Text := "syntax error near unexpected token ".toList ++ cite t

/-- The wording of a problem. -/
def message : Problem → Text
  | openQuote mark => "unexpected end of line while looking for matching ".toList ++ cite [mark]
  | trailingEscape => "trailing backslash escapes nothing".toList
  | nothingBefore _ operator => unexpected operator.spelling
  | nothingAfter _ operator => "missing command after ".toList ++ cite operator.spelling
  | noTarget operator => "missing target for redirection ".toList ++ cite operator
  | strayClose => unexpected Kind.rparen.spelling
  | unclosedGroup => "unclosed ".toList ++ cite Kind.lparen.spelling
  | emptyGroup => unexpected Kind.rparen.spelling
  | besideGroup raw => unexpected raw

end Problem

/-- A problem at a position. -/
structure Issue where
  /-- what is wrong -/
  problem : Problem
  /-- where it is -/
  position : Nat
  deriving DecidableEq

/-- An issue as one line: the position and the message. -/
def Issue.toText (i : Issue) : Text :=
  Text.ofNat i.position ++ ':' :: ' ' :: i.problem.message

end CommandLine
