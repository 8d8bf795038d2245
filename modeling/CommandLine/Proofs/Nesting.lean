import CommandLine.Level
import CommandLine.Words
import Mathlib.Data.List.Chain

/-!
# Nesting of parentheses

How deep tokens stand in parentheses depends on nothing but their kinds. Two counts are kept: one
that a closing parenthesis without an opening one leaves as it is, which finds the delimiters, and
one that has no value behind such a parenthesis, which finds the end of a group.

* `nesting` — how many parentheses stand open behind some tokens.
* `depthAlong`, `depth?` — the two counts after some kinds of tokens.
* `Undivided` — no delimiter stands outside parentheses.
* `exists_first_delimiter` — otherwise there is a first one.
* `Detached` — no opening parenthesis stands right behind a word.
* `closing?_eq_some`, `closing?_eq_none_iff` — the end of a group by the second count.
* `Balanced` — kinds of tokens whose parentheses match, by how many there are of them.
* `depth?_eq_some_iff` — the second count is the number of parentheses that are not closed.
-/

namespace CommandLine

/-- The nesting of parentheses after tokens of some kinds. -/
def depthAlong (depth : Nat) (ks : List Kind) : Nat := ks.foldl depthAfter depth

theorem depthAlong_cons (depth : Nat) (k : Kind) (ks : List Kind) :
    depthAlong depth (k :: ks) = depthAlong (depthAfter depth k) ks := rfl

theorem depthAlong_append (depth : Nat) (xs ys : List Kind) :
    depthAlong depth (xs ++ ys) = depthAlong (depthAlong depth xs) ys :=
  List.foldl_append

/-- Outside parentheses only an opening one leads inside. -/
theorem depthAfter_zero {k : Kind} (h : k ≠ .lparen) : depthAfter 0 k = 0 := by
  cases k <;> first | rfl | exact absurd rfl h

/-- Parentheses further out change nothing but the count, as long as none of them is closed. -/
theorem depthAfter_succ {depth : Nat} {k : Kind} (h : ¬ (k = .rparen ∧ depth = 0)) :
    depthAfter (depth + 1) k = depthAfter depth k + 1 := by
  cases k with
  | rparen =>
    have hpos : depth ≠ 0 := fun hd => h ⟨rfl, hd⟩
    simp only [depthAfter]
    omega
  | _ => rfl

/-- The nesting behind one more token: an opening parenthesis adds one, and a closing one takes one
away if there is one. -/
def nestingAfter (depth : Nat) (t : Token) : Nat :=
  if t.kind = .lparen then depth + 1
  else if t.kind = .rparen ∧ 0 < depth then depth - 1
  else depth

/-- The nesting behind some tokens. -/
def nesting (ts : List Token) : Nat := ts.foldl nestingAfter 0

theorem nestingAfter_eq (depth : Nat) (t : Token) : nestingAfter depth t = depthAfter depth t.kind := by
  rw [nestingAfter]
  cases t.kind with
  | rparen => cases depth <;> rfl
  | _ => rfl

theorem nesting_eq (ts : List Token) : nesting ts = depthAlong 0 (ts.map Token.kind) := by
  rw [nesting, depthAlong, List.foldl_map]
  exact congrArg (fun f => ts.foldl f 0) (funext fun _ => funext fun _ => nestingAfter_eq _ _)

/-- The nesting after tokens of some kinds, unless one of them closes what nothing opens. -/
def depth? : Nat → List Kind → Option Nat
  | depth, [] => some depth
  | depth, k :: ks => if k = .rparen ∧ depth = 0 then none else depth? (depthAfter depth k) ks

theorem depth?_append (depth : Nat) (xs ys : List Kind) :
    depth? depth (xs ++ ys) = (depth? depth xs).bind fun d => depth? d ys := by
  induction xs generalizing depth with
  | nil => rfl
  | cons k ks ih =>
    rw [List.cons_append, depth?, depth?]
    split
    · rfl
    · exact ih _

/-- Where both counts have a value they agree. -/
theorem depthAlong_of_depth? {depth d : Nat} {ks : List Kind} (h : depth? depth ks = some d) :
    depthAlong depth ks = d := by
  induction ks generalizing depth with
  | nil => exact Option.some.inj h
  | cons k ks ih =>
    rw [depth?] at h
    split at h
    · cases h
    · exact ih h

/-- Parentheses further out add to the count after some kinds. -/
theorem depth?_succ {depth d : Nat} {ks : List Kind} (h : depth? depth ks = some d) :
    depth? (depth + 1) ks = some (d + 1) := by
  induction ks generalizing depth with
  | nil => exact congrArg (fun n => some (n + 1)) (Option.some.inj h)
  | cons k ks ih =>
    rw [depth?] at h ⊢
    rw [if_neg (by omega)]
    by_cases hk : k = .rparen ∧ depth = 0
    · rw [if_pos hk] at h
      cases h
    · rw [if_neg hk] at h
      rw [depthAfter_succ hk]
      exact ih h

/-- Kinds without parentheses leave the count as it is. -/
theorem depth?_of_forall {depth : Nat} {ks : List Kind} (h : ∀ k ∈ ks, k ≠ .lparen ∧ k ≠ .rparen) :
    depth? depth ks = some depth := by
  induction ks with
  | nil => rfl
  | cons k ks ih =>
    obtain ⟨hopen, hclose⟩ := h k List.mem_cons_self
    have hafter : depthAfter depth k = depth := by
      cases k <;> first | rfl | contradiction
    rw [depth?, if_neg (fun hk => hclose hk.1), hafter]
    exact ih fun k hk => h k (List.mem_cons_of_mem _ hk)

/-! ## Delimiters -/

/-- No token of some kinds is a delimiter outside parentheses. -/
def Undivided (delimiters : List Kind) : Nat → List Kind → Prop
  | _, [] => True
  | depth, k :: ks =>
    ¬ (depth = 0 ∧ k ∈ delimiters) ∧ Undivided delimiters (depthAfter depth k) ks

instance Undivided.decidable (delimiters : List Kind) :
    ∀ (depth : Nat) (ks : List Kind), Decidable (Undivided delimiters depth ks)
  | _, [] => .isTrue trivial
  | depth, k :: ks =>
    have := Undivided.decidable delimiters (depthAfter depth k) ks
    inferInstanceAs (Decidable (¬ (depth = 0 ∧ k ∈ delimiters) ∧
      Undivided delimiters (depthAfter depth k) ks))

theorem undivided_append {delimiters : List Kind} {depth : Nat} {xs ys : List Kind} :
    Undivided delimiters depth (xs ++ ys) ↔
      Undivided delimiters depth xs ∧ Undivided delimiters (depthAlong depth xs) ys := by
  induction xs generalizing depth with
  | nil => exact ⟨fun h => ⟨trivial, h⟩, fun h => h.2⟩
  | cons k ks ih => rw [List.cons_append, Undivided, Undivided, ih, and_assoc, depthAlong_cons]

/-- Where no kind is a delimiter, none is one outside parentheses. -/
theorem undivided_of_forall {delimiters : List Kind} {depth : Nat} {ks : List Kind}
    (h : ∀ k ∈ ks, k ∉ delimiters) : Undivided delimiters depth ks := by
  induction ks generalizing depth with
  | nil => trivial
  | cons k ks ih =>
    refine ⟨fun hk => h k List.mem_cons_self hk.2, ?_⟩
    exact ih fun k hk => h k (List.mem_cons_of_mem _ hk)

/-- Without delimiters of two sorts there are none of both. -/
theorem Undivided.union {delimiters others all : List Kind} {depth : Nat} {ks : List Kind}
    (hd : Undivided delimiters depth ks) (ho : Undivided others depth ks)
    (hall : ∀ k ∈ all, k ∈ delimiters ∨ k ∈ others) : Undivided all depth ks := by
  induction ks generalizing depth with
  | nil => trivial
  | cons k ks ih =>
    refine ⟨fun hk => ?_, ih hd.2 ho.2⟩
    rcases hall k hk.2 with hmem | hmem
    · exact hd.1 ⟨hk.1, hmem⟩
    · exact ho.1 ⟨hk.1, hmem⟩

/-- Outside parentheses every kind but four is a delimiter of some level. -/
theorem kind_of_undivided {k : Kind} {ks : List Kind}
    (h : ∀ level : Level, Undivided level.delimiters 0 (k :: ks)) :
    k = .word ∨ k = .redirect ∨ k = .lparen ∨ k = .rparen := by
  have hnot : ∀ level : Level, k ∉ level.delimiters := fun level hmem => (h level).1 ⟨rfl, hmem⟩
  cases k with
  | word => exact .inl rfl
  | redirect => exact .inr (.inl rfl)
  | lparen => exact .inr (.inr (.inl rfl))
  | rparen => exact .inr (.inr (.inr rfl))
  | sequence | eol | background => exact absurd (by decide) (hnot .conditional)
  | and | or => exact absurd (by decide) (hnot .pipeline)
  | pipe => exact absurd (by decide) (hnot .command)

/-- Without a delimiter of any level, the last of some kinds that leave no parenthesis open is one of
three. -/
theorem kind_of_depthAlong {ks : List Kind} {k : Kind}
    (hfree : ∀ level : Level, Undivided level.delimiters 0 (ks ++ [k]))
    (hdepth : depthAlong 0 (ks ++ [k]) = 0) : k ∈ [.word, .redirect, .rparen] := by
  rw [depthAlong_append] at hdepth
  cases hd : depthAlong 0 ks with
  | zero =>
    rw [hd] at hdepth
    have hk : ∀ level : Level, Undivided level.delimiters 0 [k] := by
      intro level
      have hlevel := (undivided_append.mp (hfree level)).2
      rwa [hd] at hlevel
    rcases kind_of_undivided hk with rfl | rfl | rfl | rfl
    · decide
    · decide
    · cases hdepth
    · decide
  | succ d =>
    rw [hd] at hdepth
    cases k with
    | rparen => decide
    | _ => cases hdepth

/-- Nothing inside parentheses that stay open is a delimiter. -/
theorem undivided_of_depth? (delimiters : List Kind) {depth d : Nat} {ks : List Kind}
    (h : depth? depth ks = some d) : Undivided delimiters (depth + 1) ks := by
  induction ks generalizing depth with
  | nil => exact trivial
  | cons k ks ih =>
    refine ⟨fun hk => absurd hk.1 (Nat.succ_ne_zero _), ?_⟩
    rw [depth?] at h
    by_cases hk : k = .rparen ∧ depth = 0
    · rw [if_pos hk] at h
      cases h
    · rw [if_neg hk] at h
      rw [depthAfter_succ hk]
      exact ih h

/-- Where some delimiter stands outside parentheses, one is the first. -/
theorem exists_first_delimiter {delimiters : List Kind} {depth : Nat} {ts : List Token}
    (h : ¬ Undivided delimiters depth (ts.map Token.kind)) :
    ∃ before t after, ts = before ++ t :: after ∧
      Undivided delimiters depth (before.map Token.kind) ∧
      depthAlong depth (before.map Token.kind) = 0 ∧ t.kind ∈ delimiters := by
  induction ts generalizing depth with
  | nil => exact absurd trivial h
  | cons t ts ih =>
    by_cases ht : depth = 0 ∧ t.kind ∈ delimiters
    · exact ⟨[], t, ts, rfl, trivial, ht.1, ht.2⟩
    · -- the head is none, so there is one among the others
      have hrest : ¬ Undivided delimiters (depthAfter depth t.kind) (ts.map Token.kind) :=
        fun hr => h ⟨ht, hr⟩
      obtain ⟨before, u, after, rfl, hfree, hdepth, hu⟩ := ih hrest
      exact ⟨t :: before, u, after, rfl, ⟨ht, hfree⟩, hdepth, hu⟩

/-! ## Words and parentheses -/

/-- No opening parenthesis stands right behind a word. -/
def Detached (ks : List Kind) : Prop := ks.IsChain fun a b => a = .word → b ≠ .lparen

instance (ks : List Kind) : Decidable (Detached ks) :=
  inferInstanceAs (Decidable (ks.IsChain fun a b => a = .word → b ≠ .lparen))

theorem detached_cons {k : Kind} {ks : List Kind} :
    Detached (k :: ks) ↔ (k = .word → ∀ l ∈ ks.head?, l ≠ .lparen) ∧ Detached ks := by
  rw [Detached, List.isChain_cons]
  exact and_congr_left fun _ => ⟨fun h hk l hl => h l hl hk, fun h l hl hk => h hk l hl⟩

/-- Where nothing is opened, nothing is opened behind a word. -/
theorem detached_of_forall {ks : List Kind} (h : ∀ k ∈ ks, k ≠ .lparen) : Detached ks := by
  induction ks with
  | nil => exact .nil
  | cons k ks ih =>
    have htail : ∀ l ∈ ks, l ≠ .lparen := (List.forall_mem_cons.mp h).2
    exact detached_cons.mpr ⟨fun _ l hl => htail l (List.mem_of_mem_head? hl), ih htail⟩

/-- Around a kind that is neither, no word meets a parenthesis. -/
theorem detached_join {xs ys : List Kind} {k : Kind} (hxs : Detached xs) (hys : Detached ys)
    (hopen : k ≠ .lparen) (hword : k ≠ .word) : Detached (xs ++ k :: ys) := by
  refine hxs.append (detached_cons.mpr ⟨fun hk => absurd hk hword, hys⟩) ?_
  intro a _ b hb _
  obtain rfl := Option.some.inj hb
  exact hopen

/-! ## The end of a group -/

/-- The parenthesis that closes a group stands behind tokens that open and close as many. -/
theorem closing?_eq_some {depth : Nat} {ts : List Token} {t : Token}
    (h : closing? depth ts = some t) :
    ∃ before after, ts = before ++ t :: after ∧ depth? depth (before.map Token.kind) = some 0 ∧
      t.kind = .rparen := by
  induction ts generalizing depth with
  | nil => cases h
  | cons u us ih =>
    rw [closing?] at h
    by_cases hu : u.kind = .rparen ∧ depth = 0
    · rw [if_pos hu, Option.some.injEq] at h
      subst h
      exact ⟨[], us, rfl, congrArg some hu.2, hu.1⟩
    · rw [if_neg hu] at h
      obtain ⟨before, after, rfl, hdepth, ht⟩ := ih h
      refine ⟨u :: before, after, rfl, ?_, ht⟩
      rw [List.map_cons, depth?, if_neg hu]
      exact hdepth

theorem closing?_append {depth : Nat} {before after : List Token} {t : Token}
    (h : depth? depth (before.map Token.kind) = some 0) (ht : t.kind = .rparen) :
    closing? depth (before ++ t :: after) = some t := by
  induction before generalizing depth with
  | nil =>
    have hdepth : depth = 0 := Option.some.inj h
    rw [List.nil_append, closing?, if_pos ⟨ht, hdepth⟩]
  | cons u us ih =>
    rw [List.map_cons, depth?] at h
    by_cases hu : u.kind = .rparen ∧ depth = 0
    · rw [if_pos hu] at h
      cases h
    · rw [if_neg hu] at h
      rw [List.cons_append, closing?, if_neg hu]
      exact ih h

/-- A group is not closed exactly if every parenthesis behind it closes another one. -/
theorem closing?_eq_none_iff {depth : Nat} {ts : List Token} :
    closing? depth ts = none ↔ ∃ d, depth? depth (ts.map Token.kind) = some d := by
  induction ts generalizing depth with
  | nil => exact ⟨fun _ => ⟨depth, rfl⟩, fun _ => rfl⟩
  | cons u us ih =>
    rw [closing?, List.map_cons, depth?]
    by_cases hu : u.kind = .rparen ∧ depth = 0
    · rw [if_pos hu, if_pos hu]
      constructor
      · intro h
        cases h
      · rintro ⟨d, h⟩
        cases h
    · rw [if_neg hu, if_neg hu]
      exact ih

/-! ## Balance -/

/-- The parentheses of some kinds of tokens match one another. -/
structure Balanced (ks : List Kind) : Prop where
  /-- no front of them closes more than it opens -/
  le : ∀ front, front <+: ks → front.count .rparen ≤ front.count .lparen
  /-- they close as many as they open -/
  eq : ks.count .rparen = ks.count .lparen

/-- One token more or less: the depth changes by what it opens and closes. -/
theorem depthAfter_add_count {depth : Nat} {k : Kind} (h : ¬ (k = .rparen ∧ depth = 0)) :
    depthAfter depth k + [k].count .rparen = depth + [k].count .lparen := by
  cases k with
  | rparen =>
    have hpos : depth ≠ 0 := fun hd => h ⟨rfl, hd⟩
    change depth - 1 + 1 = depth + 0
    omega
  | _ => rfl

/-- **The depth of parentheses** behind some tokens counts those that are opened and not closed. It
has no value if some front of the tokens closes more than stand open. -/
theorem depth?_eq_some_iff {depth d : Nat} {ks : List Kind} :
    depth? depth ks = some d ↔
      (∀ front, front <+: ks → front.count .rparen ≤ depth + front.count .lparen) ∧
        d + ks.count .rparen = depth + ks.count .lparen := by
  induction ks generalizing depth with
  | nil =>
    simp only [depth?, Option.some.injEq, List.prefix_nil, forall_eq, List.count_nil]
    omega
  | cons k ks ih =>
    have hcount : ∀ (a : Kind) (front : List Kind),
        (k :: front).count a = [k].count a + front.count a := by
      intro a front
      rw [← List.count_append, List.singleton_append]
    rw [depth?]
    by_cases hk : k = .rparen ∧ depth = 0
    · -- the first token alone closes what nothing opens
      rw [if_pos hk]
      refine iff_of_false (Option.some_ne_none d).symm fun h => ?_
      have hfront := h.1 [k] ((List.prefix_cons_inj k).mpr List.nil_prefix)
      obtain ⟨rfl, rfl⟩ := hk
      exact absurd hfront (by decide)
    · have hstep := depthAfter_add_count hk
      have hopen := hcount .lparen
      have hclose := hcount .rparen
      rw [if_neg hk, ih, hopen ks, hclose ks]
      constructor
      · rintro ⟨hle, heq⟩
        refine ⟨fun front hfront => ?_, by omega⟩
        rcases List.prefix_cons_iff.mp hfront with rfl | ⟨rest, rfl, hrest⟩
        · exact Nat.zero_le _
        · have := hle rest hrest
          rw [hopen rest, hclose rest]
          omega
      · rintro ⟨hle, heq⟩
        refine ⟨fun front hfront => ?_, by omega⟩
        have := hle (k :: front) ((List.prefix_cons_inj k).mpr hfront)
        rw [hopen front, hclose front] at this
        omega

theorem balanced_iff {ks : List Kind} : Balanced ks ↔ depth? 0 ks = some 0 := by
  rw [depth?_eq_some_iff]
  simp only [Nat.zero_add]
  exact ⟨fun h => ⟨h.le, h.eq⟩, fun h => ⟨h.1, h.2⟩⟩

/-- Where a group is not closed, no parenthesis behind it closes it. -/
theorem not_balanced_of_closing? {before after : List Token} {c : Token}
    (h : closing? 0 (before ++ c :: after) = none) (hc : c.kind = .rparen) :
    ¬ Balanced (before.map Token.kind) := by
  intro hbalanced
  rw [closing?_append (balanced_iff.mp hbalanced) hc] at h
  cases h

end CommandLine
