import CommandLine.Proofs.Nesting
import CommandLine.Tree

/-!
# The grammar of lines

What a well-formed line is, said once without positions and without a reader. A derivation of the
grammar is a value of one of the types below, so only well-formed lines can be written down, and
each of them stands for a list of symbols and for a tree without marks.

* `Symbol` — what the grammar sees of a token.
* `Grammar.Sentence` … `Grammar.Cmd` — the derivations of lines, conditionals, pipelines and
  commands.
* `yield` — the symbols of a derivation, in order.
* `Grammar.Sentence.tree` — the tree of a derivation.
* `Grammar.Body.depth?_yield` — every derivation closes the parentheses it opens.
* `Grammar.Chain.undivided`, `Grammar.Pipe.undivided`, `Grammar.Cmd.undivided` — no operator of a
  level further out stands outside parentheses.
* `Grammar.Sentence.detached` — no parenthesis is opened right behind a word.
-/

namespace CommandLine

/-- What the grammar sees of a token: its kind and its exact characters. -/
abbrev Symbol := Kind × Text

/-- The symbol of a token. -/
def Token.symbol (t : Token) : Symbol := (t.kind, t.raw)

/-- The symbol of a control operator. -/
def Kind.symbol (k : Kind) : Symbol := (k, k.spelling)

namespace Grammar

/-! ## Derivations -/

/-- A redirect operator and the word after it. -/
structure Redir where
  /-- the operator -/
  op : RedirectOp
  /-- the word, as it is written -/
  target : Text

/-- A part of a command outside parentheses. -/
inductive Item where
  /-- a word, as it is written -/
  | word (raw : Text)
  /-- a redirection -/
  | redir (r : Redir)

/-- What separates conditionals. -/
inductive Separator where
  /-- a semicolon -/
  | sequence
  /-- a single ampersand -/
  | background

/-- What joins pipelines. -/
inductive Join where
  /-- a double ampersand -/
  | and
  /-- a double bar -/
  | or

mutual

/-- A line that is not empty: conditionals with separators between them and perhaps one after the
last. -/
inductive Body where
  /-- the last conditional -/
  | last (c : Chain)
  /-- the last conditional, and a separator after it -/
  | ended (c : Chain) (s : Separator)
  /-- a conditional in front of others -/
  | followed (c : Chain) (s : Separator) (rest : Body)

/-- A conditional: pipelines with operators between them. -/
inductive Chain where
  /-- the last pipeline -/
  | last (p : Pipe)
  /-- a pipeline in front of others -/
  | joined (p : Pipe) (j : Join) (rest : Chain)

/-- A pipeline: commands with bars between them. -/
inductive Pipe where
  /-- the last command -/
  | last (c : Cmd)
  /-- a command in front of others -/
  | piped (c : Cmd) (rest : Pipe)

/-- A command. -/
inductive Cmd where
  /-- words and redirections -/
  | items (first : Item) (rest : List Item)
  /-- a line in parentheses, and redirections after it -/
  | group (body : Body) (after : List Redir)

end

/-- A line. -/
inductive Sentence where
  /-- a line without a token -/
  | empty
  /-- a line with conditionals -/
  | body (b : Body)

/-! ## Symbols -/

/-- The kind of a separator. -/
def Separator.kind : Separator → Kind
  | sequence => .sequence
  | background => .background

/-- The kind of an operator between pipelines. -/
def Join.kind : Join → Kind
  | and => .and
  | or => .or

/-- The symbols of a redirection. -/
def Redir.yield (r : Redir) : List Symbol := [(.redirect, r.op.spelling), (.word, r.target)]

/-- The symbols of a part of a command. -/
def Item.yield : Item → List Symbol
  | word raw => [(.word, raw)]
  | redir r => r.yield

mutual

/-- The symbols of a line that is not empty. -/
def Body.yield : Body → List Symbol
  | .last c => c.yield
  | .ended c s => c.yield ++ [s.kind.symbol]
  | .followed c s rest => c.yield ++ s.kind.symbol :: rest.yield

/-- The symbols of a conditional. -/
def Chain.yield : Chain → List Symbol
  | .last p => p.yield
  | .joined p j rest => p.yield ++ j.kind.symbol :: rest.yield

/-- The symbols of a pipeline. -/
def Pipe.yield : Pipe → List Symbol
  | .last c => c.yield
  | .piped c rest => c.yield ++ Kind.pipe.symbol :: rest.yield

/-- The symbols of a command. -/
def Cmd.yield : Cmd → List Symbol
  | .items first rest => (first :: rest).flatMap Item.yield
  | .group body after =>
    Kind.lparen.symbol :: (body.yield ++ Kind.rparen.symbol :: after.flatMap Redir.yield)

end

/-- The symbols of a line. -/
def Sentence.yield : Sentence → List Symbol
  | empty => []
  | body b => b.yield

/-! ## Trees -/

/-- The stream that an operator of some characters reroutes: the one whose number stands in front,
else the input for an arrow to the left and the output for one to the right. -/
def streamOf : Text → Nat
  | '2' :: _ => 2
  | '<' :: _ => 0
  | _ => 1

/-- Whether an operator of some characters adds to its target: it ends in two arrows. -/
def appendsOf (raw : Text) : Bool := ['>', '>'].isSuffixOf raw

/-- An operator that is applied to a target. -/
def redirectionOf (op : RedirectOp) (target : Text) : Redirection :=
  ⟨op, streamOf op.spelling, appendsOf op.spelling, some target⟩

/-- Operators do what their characters say. -/
theorem onto_eq (op : RedirectOp) (target : Option Text) :
    op.onto target = ⟨op, streamOf op.spelling, appendsOf op.spelling, target⟩ := by
  cases op <;> rfl

/-- The redirection to what the target stands for. -/
def Redir.redirection (r : Redir) : Redirection := redirectionOf r.op (Word.render r.target)

/-- What a word that is no target stands for. -/
def Item.arg? : Item → Option Text
  | word raw => some (Word.render raw)
  | redir _ => none

/-- The redirection, if the part is one. -/
def Item.redirection? : Item → Option Redirection
  | word _ => none
  | redir r => some r.redirection

/-- The arguments and redirections of the parts of a command. -/
def Item.words (items : List Item) : Words :=
  ⟨items.filterMap arg?, items.filterMap redirection?⟩

/-- The operators between the pipelines of a conditional. -/
def Chain.joins : Chain → List Kind
  | .last _ => []
  | .joined _ j rest => j.kind :: rest.joins

/-- The conditional that is left of a line where nothing follows: one pipeline with one command,
all of them empty. -/
def blankConditional : Conditional Unit := ⟨(), [⟨(), [.simple () ⟨[], []⟩]⟩], [], .eol⟩

mutual

/-- The conditionals of a line that is not empty. A separator at its end is followed by a blank
one. -/
def Body.conditionals : Body → List (Conditional Unit)
  | .last c => [⟨(), c.pipelines, c.joins, .eol⟩]
  | .ended c s => [⟨(), c.pipelines, c.joins, s.kind⟩, blankConditional]
  | .followed c s rest => ⟨(), c.pipelines, c.joins, s.kind⟩ :: rest.conditionals

/-- The pipelines of a conditional. -/
def Chain.pipelines : Chain → List (Pipeline Unit)
  | .last p => [⟨(), p.commands⟩]
  | .joined p _ rest => ⟨(), p.commands⟩ :: rest.pipelines

/-- The commands of a pipeline. -/
def Pipe.commands : Pipe → List (Command Unit)
  | .last c => [c.command]
  | .piped c rest => c.command :: rest.commands

/-- The command of a derivation. -/
def Cmd.command : Cmd → Command Unit
  | .items first rest => .simple () (Item.words (first :: rest))
  | .group body after => .group () ⟨(), body.conditionals⟩ ⟨[], after.map Redir.redirection⟩

end

/-- The tree of a line. An empty line is one blank conditional. -/
def Sentence.tree : Sentence → Line Unit
  | empty => ⟨(), [blankConditional]⟩
  | body b => ⟨(), b.conditionals⟩

/-- Redirections alone have no arguments. -/
theorem Item.words_redirs (rs : List Redir) :
    Item.words (rs.map Item.redir) = ⟨[], rs.map Redir.redirection⟩ := by
  rw [Item.words, List.filterMap_map, List.filterMap_map]
  congr 1
  · exact List.filterMap_eq_nil_iff.mpr fun _ _ => rfl
  · exact congrFun List.filterMap_eq_map rs

/-- Parts among which there is no word are redirections. -/
theorem Item.exists_redirs {items : List Item} (h : ∀ raw, .word raw ∉ items) :
    ∃ rs : List Redir, items = rs.map Item.redir := by
  induction items with
  | nil => exact ⟨[], rfl⟩
  | cons i is ih =>
    obtain ⟨rs, rfl⟩ := ih fun raw hmem => h raw (List.mem_cons_of_mem _ hmem)
    cases i with
    | word raw => exact absurd List.mem_cons_self (h raw)
    | redir r => exact ⟨r :: rs, rfl⟩

theorem Redir.flatMap_yield (rs : List Redir) :
    rs.flatMap Redir.yield = (rs.map Item.redir).flatMap Item.yield := by
  rw [List.flatMap_map]
  rfl

/-! ## Nesting -/

/-- The parts of a command outside parentheses are words and redirect operators. -/
theorem Item.kind_of_mem_yield {items : List Item} {k : Kind}
    (hk : k ∈ (items.flatMap Item.yield).map Prod.fst) : k = .word ∨ k = .redirect := by
  obtain ⟨s, hs, rfl⟩ := List.mem_map.mp hk
  obtain ⟨i, -, hi⟩ := List.mem_flatMap.mp hs
  cases i with
  | word raw =>
    rw [yield, List.mem_singleton] at hi
    exact .inl (congrArg Prod.fst hi)
  | redir r =>
    rw [yield, Redir.yield, List.mem_cons, List.mem_singleton] at hi
    rcases hi with rfl | rfl
    · exact .inr rfl
    · exact .inl rfl

/-- The parts of a command outside parentheses leave the nesting as it is. -/
theorem Item.depth?_yield (depth : Nat) (items : List Item) :
    depth? depth ((items.flatMap Item.yield).map Prod.fst) = some depth := by
  refine depth?_of_forall fun k hk => ?_
  rcases kind_of_mem_yield hk with rfl | rfl
  · exact ⟨by decide, by decide⟩
  · exact ⟨by decide, by decide⟩

/-- No part of a command outside parentheses is an operator between commands. -/
theorem Item.undivided {delimiters : List Kind} (items : List Item)
    (hword : .word ∉ delimiters) (hredirect : .redirect ∉ delimiters) :
    Undivided delimiters 0 ((items.flatMap Item.yield).map Prod.fst) := by
  refine undivided_of_forall fun k hk => ?_
  rcases kind_of_mem_yield hk with rfl | rfl
  · exact hword
  · exact hredirect

/-- A token outside parentheses that is no parenthesis leaves the nesting as it is. -/
theorem depth?_join {xs ys : List Symbol} {k : Kind} (hxs : depth? 0 (xs.map Prod.fst) = some 0)
    (hys : depth? 0 (ys.map Prod.fst) = some 0) (hopen : k ≠ .lparen) (hclose : k ≠ .rparen) :
    depth? 0 ((xs ++ k.symbol :: ys).map Prod.fst) = some 0 := by
  rw [List.map_append, depth?_append, hxs, Option.bind_some, List.map_cons, depth?]
  rw [if_neg (fun h => hclose h.1), Kind.symbol, depthAfter_zero hopen]
  exact hys

theorem Separator.kind_ne (s : Separator) :
    s.kind ≠ .lparen ∧ s.kind ≠ .rparen ∧ s.kind ≠ .word := by
  cases s <;> decide

theorem Join.kind_ne (j : Join) : j.kind ≠ .lparen ∧ j.kind ≠ .rparen ∧ j.kind ≠ .word := by
  cases j <;> decide

mutual

/-- **A line closes every parenthesis** that it opens, and no other. -/
theorem Body.depth?_yield : ∀ b : Body, depth? 0 (b.yield.map Prod.fst) = some 0
  | .last c => by
    rw [Body.yield]
    exact c.depth?_yield
  | .ended c s => by
    rw [Body.yield]
    exact depth?_join c.depth?_yield rfl s.kind_ne.1 s.kind_ne.2.1
  | .followed c s rest => by
    rw [Body.yield]
    exact depth?_join c.depth?_yield rest.depth?_yield s.kind_ne.1 s.kind_ne.2.1

theorem Chain.depth?_yield : ∀ c : Chain, depth? 0 (c.yield.map Prod.fst) = some 0
  | .last p => by
    rw [Chain.yield]
    exact p.depth?_yield
  | .joined p j rest => by
    rw [Chain.yield]
    exact depth?_join p.depth?_yield rest.depth?_yield j.kind_ne.1 j.kind_ne.2.1

theorem Pipe.depth?_yield : ∀ p : Pipe, depth? 0 (p.yield.map Prod.fst) = some 0
  | .last c => by
    rw [Pipe.yield]
    exact c.depth?_yield
  | .piped c rest => by
    rw [Pipe.yield]
    exact depth?_join c.depth?_yield rest.depth?_yield (by decide) (by decide)

theorem Cmd.depth?_yield : ∀ c : Cmd, depth? 0 (c.yield.map Prod.fst) = some 0
  | .items first rest => by
    rw [Cmd.yield]
    exact Item.depth?_yield 0 (first :: rest)
  | .group body after => by
    have hbody := depth?_succ body.depth?_yield
    have hafter := Item.depth?_yield 0 (after.map Item.redir)
    rw [Cmd.yield, Redir.flatMap_yield, List.map_cons, List.map_append, List.map_cons]
    -- the parenthesis in front lifts the body by one, and the one behind takes it back
    change depth? 1 _ = some 0
    rw [depth?_append, hbody]
    exact hafter

end

/-- A delimiter outside parentheses is in one of the parts, or is what stands between them. -/
theorem undivided_join {delimiters : List Kind} {xs ys : List Symbol} {k : Kind}
    (hxs : Undivided delimiters 0 (xs.map Prod.fst)) (hdepth : depth? 0 (xs.map Prod.fst) = some 0)
    (hk : k ∉ delimiters) (hopen : k ≠ .lparen) (hys : Undivided delimiters 0 (ys.map Prod.fst)) :
    Undivided delimiters 0 ((xs ++ k.symbol :: ys).map Prod.fst) := by
  rw [List.map_append, List.map_cons]
  refine undivided_append.mpr ⟨hxs, ?_⟩
  rw [depthAlong_of_depth? hdepth]
  refine ⟨fun h => hk h.2, ?_⟩
  rw [Kind.symbol, depthAfter_zero hopen]
  exact hys

/-- No operator of any level stands outside the parentheses of a command. -/
theorem Cmd.undivided (c : Cmd) (level : Level) :
    Undivided level.delimiters 0 (c.yield.map Prod.fst) := by
  have hword : .word ∉ level.delimiters := by cases level <;> decide
  have hredirect : .redirect ∉ level.delimiters := by cases level <;> decide
  have hopen : .lparen ∉ level.delimiters := by cases level <;> decide
  cases c with
  | items first rest =>
    rw [Cmd.yield]
    exact Item.undivided (first :: rest) hword hredirect
  | group body after =>
    have hbody := undivided_of_depth? level.delimiters body.depth?_yield
    have hdepth := depthAlong_of_depth? (depth?_succ body.depth?_yield)
    have hafter := Item.undivided (after.map Item.redir) hword hredirect
    rw [Cmd.yield, Redir.flatMap_yield, List.map_cons, List.map_append, List.map_cons]
    refine ⟨fun h => hopen h.2, ?_⟩
    refine undivided_append.mpr ⟨hbody, ?_⟩
    change Undivided level.delimiters (depthAlong 1 (body.yield.map Prod.fst)) _
    rw [hdepth]
    exact ⟨fun h => absurd h.1 (by decide), hafter⟩

/-- The only operators outside the parentheses of a pipeline are bars. -/
theorem Pipe.undivided : ∀ (p : Pipe) (level : Level) (_ : .pipe ∉ level.delimiters),
    Undivided level.delimiters 0 (p.yield.map Prod.fst)
  | .last c, level, _ => by
    rw [Pipe.yield]
    exact c.undivided level
  | .piped c rest, level, hpipe => by
    rw [Pipe.yield]
    exact undivided_join (c.undivided level) c.depth?_yield hpipe (by decide)
      (rest.undivided level hpipe)

/-- No separator stands outside the parentheses of a conditional. -/
theorem Chain.undivided :
    ∀ c : Chain, Undivided Level.conditional.delimiters 0 (c.yield.map Prod.fst)
  | .last p => by
    rw [Chain.yield]
    exact p.undivided .conditional (by decide)
  | .joined p j rest => by
    have hjoin : j.kind ∉ Level.conditional.delimiters := by cases j <;> decide
    rw [Chain.yield]
    exact undivided_join (p.undivided .conditional (by decide)) p.depth?_yield hjoin j.kind_ne.1
      rest.undivided

/-! ## Words and parentheses -/

/-- Among the parts of a command outside parentheses nothing is opened. -/
theorem Item.detached (items : List Item) :
    Detached ((items.flatMap Item.yield).map Prod.fst) := by
  refine detached_of_forall fun k hk => ?_
  rcases kind_of_mem_yield hk with rfl | rfl <;> decide

/-- Around an operator no word meets a parenthesis. -/
theorem detached_joined {xs ys : List Symbol} {k : Kind} (hxs : Detached (xs.map Prod.fst))
    (hys : Detached (ys.map Prod.fst)) (hopen : k ≠ .lparen) (hword : k ≠ .word) :
    Detached ((xs ++ k.symbol :: ys).map Prod.fst) := by
  rw [List.map_append, List.map_cons]
  exact detached_join hxs hys hopen hword

mutual

/-- **No group of a line is opened behind a word**: groups stand at the front of their commands. -/
theorem Body.detached : ∀ b : Body, Detached (b.yield.map Prod.fst)
  | .last c => by
    rw [Body.yield]
    exact c.detached
  | .ended c s => by
    rw [Body.yield]
    exact detached_joined c.detached (Item.detached []) s.kind_ne.1 s.kind_ne.2.2
  | .followed c s rest => by
    rw [Body.yield]
    exact detached_joined c.detached rest.detached s.kind_ne.1 s.kind_ne.2.2

theorem Chain.detached : ∀ c : Chain, Detached (c.yield.map Prod.fst)
  | .last p => by
    rw [Chain.yield]
    exact p.detached
  | .joined p j rest => by
    rw [Chain.yield]
    exact detached_joined p.detached rest.detached j.kind_ne.1 j.kind_ne.2.2

theorem Pipe.detached : ∀ p : Pipe, Detached (p.yield.map Prod.fst)
  | .last c => by
    rw [Pipe.yield]
    exact c.detached
  | .piped c rest => by
    rw [Pipe.yield]
    exact detached_joined c.detached rest.detached (by decide) (by decide)

theorem Cmd.detached : ∀ c : Cmd, Detached (c.yield.map Prod.fst)
  | .items first rest => by
    rw [Cmd.yield]
    exact Item.detached (first :: rest)
  | .group body after => by
    have hafter := Item.detached (after.map Item.redir)
    rw [Cmd.yield, Redir.flatMap_yield, List.map_cons]
    refine detached_cons.mpr ⟨fun hk => absurd hk (by decide), ?_⟩
    exact detached_joined body.detached hafter (by decide) (by decide)

end

theorem Sentence.detached (s : Sentence) : Detached (s.yield.map Prod.fst) := by
  cases s with
  | empty => exact .nil
  | body b => exact b.detached

/-! ## Derivations are not empty -/

theorem Cmd.yield_ne_nil (c : Cmd) : c.yield ≠ [] := by
  cases c with
  | items first rest => cases first <;> simp [Cmd.yield, Item.yield, Redir.yield]
  | group body after => simp [Cmd.yield]

theorem Pipe.yield_ne_nil (p : Pipe) : p.yield ≠ [] := by
  cases p with
  | last c => exact c.yield_ne_nil
  | piped c rest => simp [Pipe.yield]

theorem Chain.yield_ne_nil (c : Chain) : c.yield ≠ [] := by
  cases c with
  | last p => exact p.yield_ne_nil
  | joined p j rest => simp [Chain.yield]

theorem Body.yield_ne_nil (b : Body) : b.yield ≠ [] := by
  cases b with
  | last c => exact c.yield_ne_nil
  | ended c s => simp [Body.yield]
  | followed c s rest => simp [Body.yield]

end Grammar

end CommandLine
