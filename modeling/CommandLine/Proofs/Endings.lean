import CommandLine.Proofs.Automaton
import CommandLine.Proofs.Gathering
import Mathlib.Data.List.Perm.Subperm

/-!
# Words that are left open

A word that leaves a quote or a backslash open is reported by its command, and a command is read
without what is behind it. But a token leaves nothing open unless the text ends with it: so only the
last token of a line is reported, in whatever group it stands, and once at most.

* `Issue.isOpenEnd` — the issues that report what is left open.
* `Region.LeftOpen` — no more is reported to be left open than the tokens leave open.
* `Region.leftOpen_lineIssues` — the issues of a line.
* `Word.exists_front_of_escape` — where a backslash escapes nothing.
* `Region.exists_quote_of_mem_lineIssues`, `Region.exists_escape_of_mem_lineIssues` — the word that
  is reported.
-/

namespace CommandLine

/-! ## What is reported -/

/-- Whether an issue is that something is left open at the end of a word. -/
def Issue.isOpenEnd (i : Issue) : Bool := i.reports .quote || i.reports .escape

theorem Issue.filter_isOpenEnd_eq_nil {is : List Issue} (h : ∀ x ∈ is, x.isOpenEnd = false) :
    is.filter isOpenEnd = [] := by
  rw [List.filter_eq_nil_iff]
  intro x hx
  rw [h x hx]
  decide

namespace Watch

variable {w : Watch} {t : Token} {ts : List Token}

/-- What is reported to be left open at a token it leaves open. -/
theorem filter_tokenIssues_isOpenEnd :
    ((w.tokenIssues t).filter Issue.isOpenEnd).Sublist (openEnd t) := by
  rw [tokenIssues]
  cases t.kind with
  | lparen =>
    rw [Issue.filter_isOpenEnd_eq_nil (forall_mem_ite _ rfl)]
    exact List.nil_sublist _
  | rparen =>
    rw [Issue.filter_isOpenEnd_eq_nil (forall_mem_ite _ rfl)]
    exact List.nil_sublist _
  | word =>
    dsimp only
    split
    · rw [List.filter_append, Issue.filter_isOpenEnd_eq_nil (forall_mem_ite _ rfl), List.append_nil]
      exact List.filter_sublist
    · exact List.nil_sublist _
  | _ => exact List.nil_sublist _

theorem filter_issuesAt_isOpenEnd :
    ((w.issuesAt t).filter Issue.isOpenEnd).Sublist (openEnd t) := by
  rw [issuesAt, List.filter_append, Issue.filter_isOpenEnd_eq_nil, List.nil_append]
  · exact filter_tokenIssues_isOpenEnd
  · cases w.redirect with
    | none => exact List.forall_mem_nil _
    | some r =>
      dsimp only
      split
      · exact List.forall_mem_nil _
      · exact List.forall_mem_singleton.mpr rfl

theorem isOpenEnd_endIssues : ∀ x ∈ w.endIssues, x.isOpenEnd = false := by
  rw [endIssues]
  refine List.forall_mem_append.mpr ⟨?_, List.forall_mem_map.mpr fun _ _ => rfl⟩
  cases w.redirect with
  | none => exact List.forall_mem_nil _
  | some r => exact List.forall_mem_singleton.mpr rfl

/-- So it is along some tokens. -/
theorem filter_run_isOpenEnd (w : Watch) (ts : List Token) :
    (((w.run ts).1 ++ (w.run ts).2.endIssues).filter Issue.isOpenEnd).Sublist
      (ts.flatMap openEnd) := by
  induction ts generalizing w with
  | nil =>
    rw [run, List.nil_append, Issue.filter_isOpenEnd_eq_nil isOpenEnd_endIssues]
    exact List.nil_sublist _
  | cons t ts ih =>
    rw [run_cons, List.append_assoc, List.filter_append, List.flatMap_cons]
    exact filter_issuesAt_isOpenEnd.append (ih _)

end Watch

namespace Region

variable {r m : Region} {is : List Issue}

/-- What is reported to be left open in a region its tokens leave open, each once at most. -/
def LeftOpen (r : Region) (is : List Issue) : Prop :=
  (is.filter Issue.isOpenEnd).Subperm (r.tokens.flatMap Watch.openEnd)

theorem composes_leftOpen : Composes LeftOpen where
  closed := fun h => h
  append := by
    intro r is js c _ hleft hright
    rw [LeftOpen, List.filter_append, c.tokens_eq_append, List.flatMap_append, List.flatMap_cons]
    exact hleft.append (hright.trans (List.sublist_append_right _ _).subperm)
  nil := fun _ => List.nil_subperm
  nothingBefore := fun _ level _ => by
    cases level <;> exact List.nil_subperm
  nothingAfter := fun level _ _ => by
    cases level <;> exact List.nil_subperm

/-- The issues of a command, if the body of a group leaves open what is reported there. -/
theorem leftOpen_commandIssues
    (hbody : ∀ body, m.groupBody? = some body → body.LeftOpen body.lineIssues) :
    m.LeftOpen m.commandIssues := by
  cases hm : m.groupBody? with
  | none =>
    rw [commandIssues_of_none hm]
    exact (Watch.filter_run_isOpenEnd Watch.start m.tokens).subperm
  | some body =>
    have hinside := hbody body hm
    have hempty : (if m.isClosed && body.isBlank then [(⟨.emptyGroup, body.stop⟩ : Issue)]
        else []).filter Issue.isOpenEnd = [] :=
      Issue.filter_isOpenEnd_eq_nil (Watch.forall_mem_ite _ rfl)
    rw [LeftOpen, commandIssues_of_some hm, List.filter_append, List.filter_append, hempty,
      List.append_nil]
    obtain ⟨o, ⟨c, rfl⟩ | ⟨hopen, rfl⟩⟩ := exists_opening hm
    · -- what is found behind the group stands in front of what is found inside
      have hown := (Watch.filter_run_isOpenEnd (Watch.outside false true) c.right.tokens).subperm
      rw [← c.ownIssues_eq] at hown
      have hboth := (hown.append hinside).trans List.perm_append_comm.subperm
      refine hboth.trans (List.Sublist.subperm ?_)
      rw [c.tokens_eq_group, List.flatMap_cons, List.flatMap_append, List.flatMap_cons]
      refine List.Sublist.trans ?_ (List.sublist_append_right _ _)
      exact (List.Sublist.refl _).append (List.sublist_append_right _ _)
    · -- at the parentheses that stand open nothing else is
      obtain ⟨inner, hrun⟩ := Watch.run_unclosed o.opens hopen
      have hown : m.ownIssues.filter Issue.isOpenEnd = [] := by
        rw [ownIssues, watch, o.tokens_eq_cons, hrun, List.nil_append]
        exact Issue.filter_isOpenEnd_eq_nil Watch.isOpenEnd_endIssues
      rw [hown, List.nil_append, o.tokens_eq_cons, List.flatMap_cons]
      exact hinside.trans (List.sublist_append_right _ _).subperm

/-- **What is reported to be left open** in a line its tokens leave open. -/
theorem leftOpen_lineIssues (r : Region) : r.LeftOpen r.lineIssues := by
  induction r using line_induction with
  | line r ih =>
    refine composes_leftOpen.lineIssues fun c hc p hp m hm => ?_
    exact leftOpen_commandIssues fun body hbody => ih c hc p hp m hm body hbody

/-- Only the last token of a region leaves something open. -/
theorem flatMap_openEnd {before : List Token} {u : Token} (h : r.tokens = before ++ [u]) :
    r.tokens.flatMap Watch.openEnd = Watch.openEnd u := by
  rw [h, List.flatMap_append, List.flatMap_singleton]
  apply List.append_left_eq_self.mpr
  rw [List.flatMap_eq_nil_iff]
  intro t ht
  obtain ⟨front, behind, rfl⟩ := List.append_of_mem ht
  rw [Watch.openEnd_eq_nil_iff]
  obtain ⟨v, vs, hv⟩ := List.exists_cons_of_ne_nil (List.concat_ne_nil u behind)
  have hnext : r.tokens = front ++ t :: v :: vs := by
    rw [h, List.append_assoc, List.cons_append, hv]
  exact isTerminated_of_next hnext

/-- **What is left open** is left open by the last token. -/
theorem exists_last_of_mem_lineIssues {x : Issue} (hx : x ∈ r.lineIssues) (hopen : x.isOpenEnd) :
    ∃ (before : List Token) (u : Token), r.tokens = before ++ [u] ∧ x ∈ Watch.openEnd u := by
  have hmem := r.leftOpen_lineIssues.subset (List.mem_filter.mpr ⟨hx, hopen⟩)
  rcases List.eq_nil_or_concat' r.tokens with hnil | ⟨before, u, hlast⟩
  · rw [hnil] at hmem
    cases hmem
  · rw [flatMap_openEnd hlast] at hmem
    exact ⟨before, u, hlast, hmem⟩

/-- And it is reported once at most. -/
theorem countP_isOpenEnd_le (r : Region) : r.lineIssues.countP Issue.isOpenEnd ≤ 1 := by
  rw [List.countP_eq_length_filter]
  refine r.leftOpen_lineIssues.length_le.trans ?_
  rcases List.eq_nil_or_concat' r.tokens with hnil | ⟨before, u, hlast⟩
  · rw [hnil]
    exact Nat.zero_le 1
  · rw [flatMap_openEnd hlast, Watch.openEnd]
    split <;> simp

end Region

/-! ## The last word -/

namespace Word.State

theorem open?_eq_escape_iff {s : State} : s.open? = some .escape ↔ s = .escape := by
  cases s <;> simp [open?]

/-- Only a backslash outside quotes escapes what is behind it. -/
theorem step_eq_escape_iff {s : State} {c : Char} : s.step c = .escape ↔ s = .plain ∧ c = '\\' := by
  cases s with
  | plain =>
    rw [step]
    split_ifs with hs hd hb
    · simp [hs]
    · simp [hd]
    · simp [hb]
    · simp [hb]
  | single => by_cases hs : c = '\'' <;> simp [step, hs]
  | double => by_cases hd : c = '"' <;> by_cases hb : c = '\\' <;> simp [step, hd, hb]
  | escape => simp [step]
  | doubleEscape => simp [step]

end Word.State

/-- A backslash that escapes nothing is the last character, and what stands before it leaves nothing
open. -/
theorem Word.exists_front_of_escape {cs : Text} (h : Word.unclosed cs = some .escape) :
    ∃ front, cs = front ++ ['\\'] ∧ Word.unclosed front = none := by
  rw [Word.unclosed_eq, Word.State.open?_eq_escape_iff] at h
  rcases List.eq_nil_or_concat' cs with rfl | ⟨front, c, rfl⟩
  · cases h
  · obtain ⟨hfront, rfl⟩ := Word.State.step_eq_escape_iff.mp
      ((Word.State.run_append .plain front [c]).symm.trans h)
    refine ⟨front, rfl, ?_⟩
    rw [Word.unclosed_eq, hfront]
    rfl

/-- What a word leaves open is reported where the word starts, or at the backslash that ends it. -/
theorem Watch.exists_of_mem_openEnd {t : Token} {x : Issue} (hx : x ∈ openEnd t) :
    t.kind = .word ∧ ∃ o, t.unclosed? = some o ∧
      x = if o = .escape then ⟨.trailingEscape, t.stop - 1⟩ else ⟨.openQuote o.mark, t.start⟩ := by
  rw [openEnd] at hx
  cases ho : t.unclosed? with
  | none =>
    rw [ho] at hx
    cases hx
  | some o =>
    rw [ho] at hx
    refine ⟨?_, o, rfl, ?_⟩
    · by_contra hk
      have hterminated := Token.isTerminated_of_ne_word hk
      rw [Token.isTerminated, ho] at hterminated
      cases hterminated
    · cases o <;> exact List.mem_singleton.mp hx

namespace Region

variable {r : Region} {x : Issue}

/-- **A quote that is not closed** is reported at the last token, a word that leaves it open. -/
theorem exists_quote_of_mem_lineIssues (hx : x ∈ r.lineIssues) (hf : x.reports .quote) :
    ∃ (before : List Token) (u : Token) (o : Unclosed),
      r.tokens = before ++ [u] ∧ u.kind = .word ∧ u.unclosed? = some o ∧
      o ∈ [.single, .double] ∧ x = ⟨.openQuote o.mark, u.start⟩ := by
  have hopen : x.isOpenEnd = true := by
    rw [Issue.isOpenEnd, hf, Bool.true_or]
  obtain ⟨before, u, htokens, hu⟩ := exists_last_of_mem_lineIssues hx hopen
  obtain ⟨hk, o, ho, rfl⟩ := Watch.exists_of_mem_openEnd hu
  cases o with
  | escape => cases hf
  | single => exact ⟨before, u, .single, htokens, hk, ho, by decide, rfl⟩
  | double => exact ⟨before, u, .double, htokens, hk, ho, by decide, rfl⟩

/-- **A backslash that escapes nothing** is reported where it ends the last token and the region. -/
theorem exists_escape_of_mem_lineIssues (hx : x ∈ r.lineIssues) (hf : x.reports .escape) :
    ∃ (before : List Token) (u : Token) (front : Text),
      r.tokens = before ++ [u] ∧ u.kind = .word ∧ u.unclosed? = some .escape ∧
      u.raw = front ++ ['\\'] ∧ Word.unclosed front = none ∧
      x = ⟨.trailingEscape, r.stop - 1⟩ := by
  have hopen : x.isOpenEnd = true := by
    rw [Issue.isOpenEnd, hf, Bool.or_true]
  obtain ⟨before, u, htokens, hu⟩ := exists_last_of_mem_lineIssues hx hopen
  obtain ⟨hk, o, ho, rfl⟩ := Watch.exists_of_mem_openEnd hu
  cases o with
  | single => cases hf
  | double => cases hf
  | escape =>
    have hword : Word.unclosed u.raw = some .escape := by
      rw [Token.unclosed?, hk] at ho
      exact ho
    obtain ⟨front, hraw, hfront⟩ := Word.exists_front_of_escape hword
    refine ⟨before, u, front, htokens, hk, ho, hraw, hfront, ?_⟩
    -- what is left open reaches to the end of the region
    have hmem : u ∈ r.tokens := by
      rw [htokens]
      exact List.mem_append_right before (List.mem_singleton_self u)
    have hstop : u.stop = r.stop := by
      refine Nat.le_antisymm (tokens_bounds hmem).2.2 (Nat.le_of_not_lt fun hlt => ?_)
      have hterminated := Token.isTerminated_of_lt hmem hlt
        (Nat.le_trans r.stop_le_limit r.limit_le_length)
      rw [Token.isTerminated, ho] at hterminated
      cases hterminated
    rw [if_pos rfl, hstop]

end Region

end CommandLine
