import CommandLine.Proofs.Placing

/-!
# Layout

Two texts are layouts of the same tokens if these agree in kind and characters; the blanks between
them may differ in any way. They have the same tree up to marks, and the same issues in the same
order. That order is the order of positions, and two positions that differ in one layout may be the
same in another: an operator ends where the next token starts if no blank is between them. Still no
issues change places, since one that is reported behind an operator never stands where the next
token starts with one of its own.

* `Token.Paired` — tokens that stand for one another.
* `Region.position_lt` — the issues of a later token come later.
* `Region.position_le_iff` — issues are in the same order in all layouts.
* `forall₂_mergeSort` — lists that are in the same order are sorted alike.
* `Line.layout_independent` — trees and issues do not depend on the layout.
-/

namespace CommandLine

/-! ## Tokens -/

/-- Tokens with the same symbol that stand at the same place of two lists. -/
def Token.Paired (ts us : List Token) (t u : Token) : Prop :=
  (t, u) ∈ ts.zip us ∧ t.symbol = u.symbol

theorem Token.forall₂_paired {ts us : List Token}
    (h : ts.map Token.symbol = us.map Token.symbol) :
    List.Forall₂ (Token.Paired ts us) ts us := by
  have hsymbols : List.Forall₂ (fun t u => t.symbol = u.symbol) ts us := by
    rwa [← List.forall₂_eq_eq_eq, List.forall₂_map_left_iff, List.forall₂_map_right_iff] at h
  exact List.forall₂_iff_zip.mpr
    ⟨hsymbols.length_eq, fun hmem => ⟨hmem, List.forall₂_zip hsymbols hmem⟩⟩

namespace Region

variable {r s : Region} {t u t' u' : Token}

/-- Two pairs of tokens are the same, or one of them stands before the other in both regions. -/
theorem paired_order (hlength : r.tokens.length = s.tokens.length)
    (h : Token.Paired r.tokens s.tokens t u) (h' : Token.Paired r.tokens s.tokens t' u') :
    (t = t' ∧ u = u') ∨ (t.stop ≤ t'.start ∧ u.stop ≤ u'.start) ∨
      (t'.stop ≤ t.start ∧ u'.stop ≤ u.start) := by
  let Apart (p q : Token × Token) : Prop :=
    (p.1 = q.1 ∧ p.2 = q.2) ∨ (p.1.stop ≤ q.1.start ∧ p.2.stop ≤ q.2.start) ∨
      (q.1.stop ≤ p.1.start ∧ q.2.stop ≤ p.2.start)
  have hsymm : Std.Symm Apart := by
    refine ⟨?_⟩
    rintro p q (hsame | hbefore | hbehind)
    · exact .inl ⟨hsame.1.symm, hsame.2.symm⟩
    · exact .inr (.inr hbefore)
    · exact .inr (.inl hbehind)
  have hleft : (r.tokens.zip s.tokens).Pairwise fun p q => p.1.stop ≤ q.1.start := by
    have htokens : r.tokens.Pairwise fun t t' => t.stop ≤ t'.start := pairwise_tokensOf _ _ _
    rwa [← List.map_fst_zip (Nat.le_of_eq hlength), List.pairwise_map] at htokens
  have hright : (r.tokens.zip s.tokens).Pairwise fun p q => p.2.stop ≤ q.2.start := by
    have htokens : s.tokens.Pairwise fun u u' => u.stop ≤ u'.start := pairwise_tokensOf _ _ _
    rwa [← List.map_snd_zip (Nat.le_of_eq hlength.symm), List.pairwise_map] at htokens
  have hapart : (r.tokens.zip s.tokens).Pairwise Apart :=
    (hleft.and hright).imp fun hbefore => .inr (.inl hbefore)
  exact hapart.forall_of_forall (fun _ _ => .inl ⟨rfl, rfl⟩) h.1 h'.1

/-- Paired tokens have as many characters. -/
theorem paired_length (h : Token.Paired r.tokens s.tokens t u) :
    t.stop - t.start = u.stop - u.start := by
  obtain ⟨ht, hu⟩ := List.of_mem_zip h.1
  rw [← Token.length_raw ht, ← Token.length_raw hu, Token.raw_eq_of_symbol h.2]

/-! ## Issues -/

/-- **The issues of a later token** come later. If the two tokens touch, an issue behind the first
of them would meet one of the second, but such issues stand apart. -/
theorem position_lt {x x' : Issue} (hx : x ∈ r.lineIssues) (hx' : x' ∈ r.lineIssues)
    (ht : t ∈ r.tokens) (ht' : t' ∈ r.tokens) (hpos : x.position = x.problem.anchor t)
    (hpos' : x'.position = x'.problem.anchor t') (hlt : t.stop ≤ t'.start) :
    x.position < x'.position := by
  have hb := (tokens_bounds ht).2.1
  have hb' := (tokens_bounds ht').2.1
  have ha := x.problem.anchor_bounds hb
  have ha' := x'.problem.anchor_bounds hb'
  by_contra hge
  have hmeet : x'.position = x.position := by omega
  cases hbehind : x.problem.isBehind with
  | false =>
    have := Problem.anchor_lt_stop hbehind hb
    omega
  | true =>
    have hbehind' := r.settled_lineIssues.apart x' hx' x hx hbehind hmeet
    have := Problem.anchor_of_isBehind hbehind' t'
    omega

end Region

/-- Sorting related lists by orders that agree on them gives related lists. -/
theorem forall₂_mergeSort {α β : Type} {R : α → β → Prop} {le : α → α → Bool}
    {le' : β → β → Bool} {xs : List α} {ys : List β} (h : List.Forall₂ R xs ys)
    (hle : ∀ p ∈ xs.zip ys, ∀ q ∈ xs.zip ys, le p.1 q.1 = le' p.2 q.2) :
    List.Forall₂ R (xs.mergeSort le) (ys.mergeSort le') := by
  -- both are columns of the list of pairs, sorted by the first of each
  have hxs : ((xs.zip ys).mergeSort fun p q => le p.1 q.1).map Prod.fst = xs.mergeSort le := by
    rw [List.map_mergeSort (s := le) fun _ _ _ _ => rfl,
      List.map_fst_zip (Nat.le_of_eq h.length_eq)]
  have hys : ((xs.zip ys).mergeSort fun p q => le p.1 q.1).map Prod.snd = ys.mergeSort le' := by
    rw [List.map_mergeSort hle, List.map_snd_zip (Nat.le_of_eq h.length_eq.symm)]
  rw [← hxs, ← hys, List.forall₂_map_left_iff, List.forall₂_map_right_iff, List.forall₂_same]
  intro p hp
  exact List.forall₂_zip h (List.mem_mergeSort.mp hp)

namespace Region

variable {r s : Region}

/-- **Issues are in the same order** in both regions. -/
theorem position_le_iff (hlength : r.tokens.length = s.tokens.length) {x x' y y' : Issue}
    (hxy : Issue.Like (Token.Paired r.tokens s.tokens) x y)
    (hxy' : Issue.Like (Token.Paired r.tokens s.tokens) x' y')
    (hx : x ∈ r.lineIssues) (hx' : x' ∈ r.lineIssues)
    (hy : y ∈ s.lineIssues) (hy' : y' ∈ s.lineIssues) :
    x.position ≤ x'.position ↔ y.position ≤ y'.position := by
  obtain ⟨hproblem, t, u, htu, hxt, hyu⟩ := hxy
  obtain ⟨hproblem', t', u', htu', hxt', hyu'⟩ := hxy'
  obtain ⟨ht, hu⟩ := List.of_mem_zip htu.1
  obtain ⟨ht', hu'⟩ := List.of_mem_zip htu'.1
  rcases paired_order hlength htu htu' with ⟨rfl, rfl⟩ | ⟨hleft, hright⟩ | ⟨hleft, hright⟩
  · have hdist := x.problem.anchor_sub_start (paired_length htu)
    have hdist' := x'.problem.anchor_sub_start (paired_length htu)
    have hbt := (tokens_bounds ht).2.1
    have hbu := (tokens_bounds hu).2.1
    have := x.problem.anchor_bounds hbt
    have := x'.problem.anchor_bounds hbt
    have := x.problem.anchor_bounds hbu
    have := x'.problem.anchor_bounds hbu
    rw [← hproblem] at hyu
    rw [← hproblem'] at hyu'
    omega
  · have := position_lt hx hx' ht ht' hxt hxt' hleft
    have := position_lt hy hy' hu hu' hyu hyu' hright
    omega
  · have := position_lt hx' hx ht' ht hxt' hxt hleft
    have := position_lt hy' hy hu' hu hyu' hyu hright
    omega

/-- Regions whose tokens have the same symbols have the same problems in the same order. -/
theorem map_problem_diagnose (h : r.tokens.map Token.symbol = s.tokens.map Token.symbol) :
    (diagnose r).map Issue.problem = (diagnose s).map Issue.problem := by
  have hpaired := Token.forall₂_paired h
  have hissues := (likeness_of_symbols fun htu => htu.2).lineIssues hpaired
  refine map_eq_map_of_forall₂ (forall₂_mergeSort hissues fun p hp q hq => ?_)
    fun x _ y hxy => hxy.problem_eq
  obtain ⟨hx, hy⟩ := List.of_mem_zip hp
  obtain ⟨hx', hy'⟩ := List.of_mem_zip hq
  exact decide_eq_decide.mpr (position_le_iff hpaired.length_eq (List.forall₂_zip hissues hp)
    (List.forall₂_zip hissues hq) hx hx' hy hy')

end Region

/-- **Independence of the layout.** Texts whose tokens have the same kinds and characters have the
same tree up to marks, and their issues have the same codes and messages in the same order. -/
theorem Line.layout_independent {a b : Text}
    (h : (tokenize a).map Token.symbol = (tokenize b).map Token.symbol) :
    (ofText a).erase = (ofText b).erase ∧
      (diagnose (Region.ofText a)).map (fun i => (i.problem.code, i.problem.message)) =
        (diagnose (Region.ofText b)).map fun i => (i.problem.code, i.problem.message) := by
  rw [← Region.tokens_ofText, ← Region.tokens_ofText] at h
  constructor
  · exact (Region.likeness_of_symbols fun htu => htu.2).map_toLine (fun _ => rfl)
      (Token.forall₂_paired h)
  · have hproblems := congrArg (List.map fun p : Problem => (p.code, p.message))
      (Region.map_problem_diagnose h)
    rwa [List.map_map, List.map_map] at hproblems

/-- A malformed line without a blank, where most issues stand between two tokens that touch, and the
same tokens with blanks of every kind between them. -/
theorem Line.layout_independent_tight :
    let tight := "(x|;>f|)y|".toList
    let loose := " (x\t|\\\n;\n> f | )\\\n y\n|\n".toList
    (tokenize tight).map Token.symbol = (tokenize loose).map Token.symbol ∧
      (ofText tight).erase = (ofText loose).erase ∧
      (diagnose (Region.ofText tight)).map (fun i => (i.problem.code, i.problem.message)) =
        (diagnose (Region.ofText loose)).map fun i => (i.problem.code, i.problem.message) := by
  have hsymbols : (tokenize "(x|;>f|)y|".toList).map Token.symbol =
      (tokenize " (x\t|\\\n;\n> f | )\\\n y\n|\n".toList).map Token.symbol := by
    decide +kernel
  exact ⟨hsymbols, layout_independent hsymbols⟩

end CommandLine
