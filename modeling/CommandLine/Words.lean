import CommandLine.Segment

/-!
# Words and groups

What a command says outside of its parentheses, and the line inside of them.

* `Words.collect` — arguments and redirections of some tokens. A redirect operator takes the next
  token outside parentheses as its target if that is a word, and goes without one otherwise: it is
  carried over parentheses and what stands between them.
* `closing?` — the parenthesis that closes a group.
* `Region.groupBody?` — the region between the parentheses of a group, which is everything after
  the opening one if nothing closes it.
-/

namespace CommandLine

/-- A redirect operator with what it does, and the target it is applied to, if it has one. -/
structure Redirection where
  /-- the operator -/
  op : RedirectOp
  /-- the number of the stream that is rerouted -/
  fd : Nat
  /-- whether the target keeps what it held before -/
  append : Bool
  /-- the text of the word that is the target -/
  target : Option Text
  deriving DecidableEq

/-- An operator that is applied to a target, or to none. -/
def RedirectOp.onto (op : RedirectOp) (target : Option Text) : Redirection :=
  ⟨op, op.stream, op.appends, target⟩

@[simp]
theorem RedirectOp.onto_inj {op : RedirectOp} {t u : Option Text} :
    op.onto t = op.onto u ↔ t = u := by
  simp [onto]

/-- The arguments and redirections of a command, each in source order. -/
structure Words where
  /-- the words that are no targets -/
  args : List Text
  /-- the redirect operators with their targets -/
  redirections : List Redirection
  deriving DecidableEq

namespace Words

/-- Whether a command has neither arguments nor redirections. -/
def isEmpty (w : Words) : Bool := w.args.isEmpty && w.redirections.isEmpty

/-- An argument in front of the others. -/
def addArg (t : Text) (w : Words) : Words := { w with args := t :: w.args }

/-- Redirections in front of the others. -/
def addRedirections (rs : List Redirection) (w : Words) : Words :=
  { w with redirections := rs ++ w.redirections }

/-- The redirection of an operator that has found no target. -/
def targetless : Option RedirectOp → List Redirection
  | some op => [op.onto none]
  | none => []

/-- The words of some tokens at a depth of parentheses, with the redirect operator that still waits
for its target. Tokens inside parentheses are passed over, and so are the parentheses, which leave
the waiting operator as it is. -/
def collect : Nat → Option RedirectOp → List Token → Words
  | _, pending, [] => ⟨[], targetless pending⟩
  | depth, pending, t :: ts =>
    if 0 < depth ∨ t.kind = .lparen ∨ t.kind = .rparen then
      collect (depthAfter depth t.kind) pending ts
    else
      match t.kind, pending with
      | .word, some op => (collect depth none ts).addRedirections [op.onto (some t.text)]
      | .word, none => (collect depth none ts).addArg t.text
      | .redirect, _ => (collect depth t.redirectOp? ts).addRedirections (targetless pending)
      | _, _ => (collect depth none ts).addRedirections (targetless pending)

end Words

/-- The closing parenthesis that matches an opening one before the tokens, where a number of further
parentheses stand open. -/
def closing? : Nat → List Token → Option Token
  | _, [] => none
  | depth, t :: ts =>
    if t.kind = .rparen ∧ depth = 0 then some t else closing? (depthAfter depth t.kind) ts

theorem mem_of_closing? {depth : Nat} {ts : List Token} {t : Token}
    (h : closing? depth ts = some t) : t ∈ ts := by
  induction ts generalizing depth with
  | nil => cases h
  | cons u us ih =>
    rw [closing?] at h
    split at h
    · cases h
      exact List.mem_cons_self
    · exact List.mem_cons_of_mem _ (ih h)

namespace Region

/-- The arguments and redirections of the region. -/
def words (r : Region) : Words := Words.collect 0 none r.tokens

/-- The first token of the region, or the end of the line. -/
def firstToken (r : Region) : Token := Token.scan r.source r.start r.stop

/-- The part of the region after its first token, bounded by the end of the region. -/
def afterFirst (r : Region) : Region :=
  { r.closed with
    start := r.firstToken.stop
    start_le_stop := (Token.scan_bounds r.start_le_stop).2.2 }

/-- The tokens of a region are its first token and those after it. -/
theorem tokens_eq (r : Region) :
    r.tokens = if r.firstToken.kind = .eol then [] else r.firstToken :: r.afterFirst.tokens :=
  tokensOf_slice r.source r.start r.stop

/-- The part of the region before one of its tokens, bounded by the token. -/
def before (r : Region) (t : Token) (h : t ∈ r.tokens) : Region :=
  ⟨r.source, r.start, t.start, t.start, (tokens_bounds h).1, Nat.le_refl _, by
    have := tokens_bounds h
    have := r.stop_le_limit
    have := r.limit_le_length
    omega⟩

/-- The line inside a group. Only a region that starts with an opening parenthesis is one; what
stands after the closing parenthesis does not matter. -/
def groupBody? (r : Region) : Option Region :=
  if r.firstToken.kind = .lparen then
    match h : closing? 0 r.afterFirst.tokens with
    | some t => some (r.afterFirst.before t (mem_of_closing? h))
    | none => some r.afterFirst
  else none

/-- The body of a group lies in it after the parenthesis. -/
theorem groupBody?_bounds {r body : Region} (h : r.groupBody? = some body) :
    r.start < body.start ∧ body.stop ≤ r.stop ∧ body.source = r.source := by
  rw [groupBody?] at h
  split at h
  · next hkind =>
    have hstart : r.start < r.firstToken.stop := by
      refine Token.lt_scan_stop ?_
      rcases Nat.lt_or_ge r.start r.stop with hlt | hge
      · exact hlt
      · have hscan : r.firstToken = Token.endOfLine r.source r.stop := by
          rw [firstToken, Token.scan, Text.slice_of_le _ hge]
          rfl
        rw [hscan] at hkind
        cases hkind
    split at h
    · next t ht =>
      cases h
      have := tokens_bounds (mem_of_closing? ht)
      refine ⟨hstart, ?_, rfl⟩
      exact Nat.le_trans (Nat.le_of_lt this.2.1) this.2.2
    · cases h
      exact ⟨hstart, Nat.le_refl _, rfl⟩
  · cases h

/-- A group is longer than its body. -/
theorem length_groupBody?_lt {r body : Region} (h : r.groupBody? = some body) :
    body.length < r.length := by
  have := groupBody?_bounds h
  have := body.start_le_stop
  simp only [length]
  omega

end Region

end CommandLine
