import CommandLine.Proofs.Numerals
import CommandLine.Proofs.Placing
import CommandLine.Tool
import Mathlib.Data.List.Flatten

/-!
# Reports as lines

The issues of a line are printed below one another, each with its position. What an issue cites are
operators and quotes, which have no line break, but for one kind: what stands beside a group is
cited by its own characters, and if it is a word these may be any. So each issue is one line of the
report unless a word beside a group has a line break in it, and then there are more lines than
issues.

* `Text.splitOn_join` — the lines of a text that is put together of others.
* `Issue.CitesFrom`, `Region.citesFrom_lineIssues` — what the issues of a line cite stands in it.
* `Issue.newline_mem_toText_iff` — where an issue has a line break in it.
* `Issue.ofLine?` — the position and the message, read back.
* `Tool.check_lines` — the lines of the report.
-/

namespace CommandLine

/-! ## Lines of a text -/

/-- No part between separators has a separator in it. -/
theorem not_mem_of_mem_splitOn {c : Char} {t part : Text} (h : part ∈ t.splitOn c) : c ∉ part := by
  induction t generalizing part with
  | nil =>
    rw [List.splitOn_nil, List.mem_singleton] at h
    rw [h]
    exact List.not_mem_nil
  | cons d t ih =>
    rw [List.splitOn_cons_eq_if_modifyHead] at h
    split at h
    · rcases List.mem_cons.mp h with rfl | h
      · exact List.not_mem_nil
      · exact ih h
    · next hd =>
      obtain ⟨first, parts, hparts⟩ := List.exists_cons_of_ne_nil (List.splitOn_ne_nil c t)
      rw [hparts] at ih h
      rw [List.modifyHead_cons, List.mem_cons] at h
      rcases h with rfl | h
      · refine List.not_mem_cons_of_ne_of_not_mem (fun hcd => hd ?_) (ih List.mem_cons_self)
        rw [hcd, beq_self_eq_true]
      · exact ih (List.mem_cons_of_mem _ h)

namespace Text

variable {c : Char} {ts : List Text}

/-- **Texts with a separator between them** have the parts of each, one after another. -/
theorem splitOn_join (h : ts ≠ []) : (join [c] ts).splitOn c = ts.flatMap (List.splitOn c) := by
  induction ts with
  | nil => exact absurd rfl h
  | cons t ts ih =>
    cases ts with
    | nil => rw [join, List.flatMap_singleton]
    | cons u us =>
      rw [join_cons_cons, List.singleton_append, List.splitOn_append_cons_self,
        ih (List.cons_ne_nil _ _), ← List.flatMap_cons]

/-- The first of some texts with a separator between them comes first. -/
theorem prefix_join (separator t : Text) (ts : List Text) : t <+: join separator (t :: ts) := by
  cases ts with
  | nil => exact List.prefix_refl _
  | cons u us =>
    rw [join_cons_cons]
    exact List.prefix_append _ _

/-- They are the parts themselves exactly if no separator stands in any. -/
theorem flatMap_splitOn_eq_self_iff : ts.flatMap (List.splitOn c) = ts ↔ ∀ t ∈ ts, c ∉ t := by
  constructor
  · intro h t ht
    rw [← h] at ht
    obtain ⟨u, -, hu⟩ := List.mem_flatMap.mp ht
    exact not_mem_of_mem_splitOn hu
  · intro h
    rw [List.flatMap_congr fun t ht => List.splitOn_eq_singleton (h t ht), List.flatMap_singleton']

/-- The numeral of a number has no line break. -/
theorem newline_not_mem_ofNat (n : Nat) : '\n' ∉ ofNat n := by
  intro h
  have hdigit := isDigit_of_mem_ofNat h
  exact absurd hdigit (by decide)

end Text

/-! ## What is cited -/

/-- What an issue cites stands among some tokens: a redirect operator, or a word or an opening
parenthesis beside a group. Quotes that are left open are cited by their mark. -/
def Issue.CitesFrom (ts : List Token) (i : Issue) : Prop :=
  match i.problem with
  | .openQuote mark => ∃ u : Unclosed, mark = u.mark
  | .noTarget operator => ∃ t ∈ ts, t.kind = .redirect ∧ t.start = i.position ∧ t.raw = operator
  | .besideGroup raw =>
    ∃ t ∈ ts, (t.kind = .word ∨ t.kind = .lparen) ∧ t.start = i.position ∧ t.raw = raw
  | _ => True

theorem Issue.CitesFrom.mono {ts us : List Token} {i : Issue} (h : i.CitesFrom ts)
    (hsub : ts ⊆ us) : i.CitesFrom us := by
  obtain ⟨problem, position⟩ := i
  cases problem with
  | openQuote => exact h
  | noTarget | besideGroup =>
    obtain ⟨t, ht, hcited⟩ := h
    exact ⟨t, hsub ht, hcited⟩
  | _ => trivial

namespace Watch

variable {w : Watch} {t : Token} {ts us : List Token}

/-- The redirect operator that still waits for its target is among some tokens. -/
def WaitsAmong (w : Watch) (ts : List Token) : Prop :=
  ∀ r, w.redirect = some r → r ∈ ts ∧ r.kind = .redirect

/-- Behind a token only this token waits. -/
theorem waitsAmong_step (w : Watch) (ht : t ∈ ts) : (w.step t).WaitsAmong ts := by
  intro r hr
  rw [step, Option.ite_none_right_eq_some, Bool.and_eq_true, beq_iff_eq] at hr
  obtain ⟨⟨-, hk⟩, hr⟩ := hr
  obtain rfl := Option.some.inj hr
  exact ⟨ht, hk⟩

theorem WaitsAmong.citesFrom_missingTarget {r : Token} (h : w.WaitsAmong ts)
    (hr : w.redirect = some r) : (missingTarget r).CitesFrom ts := by
  obtain ⟨hmem, hk⟩ := h r hr
  exact ⟨r, hmem, hk, rfl, rfl⟩

theorem citesFrom_openEnd : ∀ x ∈ openEnd t, x.CitesFrom ts := by
  rw [openEnd]
  cases t.unclosed? with
  | none => exact List.forall_mem_nil _
  | some o =>
    cases o with
    | escape => exact List.forall_mem_singleton.mpr trivial
    | single => exact List.forall_mem_singleton.mpr ⟨.single, rfl⟩
    | double => exact List.forall_mem_singleton.mpr ⟨.double, rfl⟩

theorem citesFrom_tokenIssues (ht : t ∈ ts) : ∀ x ∈ w.tokenIssues t, x.CitesFrom ts := by
  rw [tokenIssues]
  cases hk : t.kind with
  | lparen => exact forall_mem_ite _ ⟨t, ht, .inr hk, rfl, rfl⟩
  | rparen => exact forall_mem_ite _ trivial
  | word =>
    dsimp only
    split
    · exact List.forall_mem_append.mpr
        ⟨citesFrom_openEnd, forall_mem_ite _ ⟨t, ht, .inl hk, rfl, rfl⟩⟩
    · exact List.forall_mem_nil _
  | _ => exact List.forall_mem_nil _

/-- **One token**: what is found at it is cited from where it and the operator before it are. -/
theorem citesFrom_issuesAt (hw : w.WaitsAmong ts) (ht : t ∈ ts) :
    ∀ x ∈ w.issuesAt t, x.CitesFrom ts := by
  rw [issuesAt]
  refine List.forall_mem_append.mpr ⟨?_, citesFrom_tokenIssues ht⟩
  cases hr : w.redirect with
  | none => exact List.forall_mem_nil _
  | some r =>
    dsimp only
    split
    · exact List.forall_mem_nil _
    · exact List.forall_mem_singleton.mpr (hw.citesFrom_missingTarget hr)

/-- **Along the tokens of a command** what is found is cited from among them. -/
theorem citesFrom_run (hw : w.WaitsAmong ts) (hsub : us ⊆ ts) :
    ∀ x ∈ (w.run us).1 ++ (w.run us).2.endIssues, x.CitesFrom ts := by
  induction us generalizing w with
  | nil =>
    rw [run, List.nil_append, endIssues]
    refine List.forall_mem_append.mpr ⟨?_, List.forall_mem_map.mpr fun _ _ => trivial⟩
    cases hr : w.redirect with
    | none => exact List.forall_mem_nil _
    | some r => exact List.forall_mem_singleton.mpr (hw.citesFrom_missingTarget hr)
  | cons t us ih =>
    obtain ⟨ht, hsub⟩ := List.cons_subset.mp hsub
    rw [run_cons, List.append_assoc]
    exact List.forall_mem_append.mpr
      ⟨citesFrom_issuesAt hw ht, ih (waitsAmong_step w ht) hsub⟩

end Watch

namespace Region

variable {r : Region}

theorem citesFrom_ownIssues (r : Region) : ∀ x ∈ r.ownIssues, x.CitesFrom r.tokens :=
  Watch.citesFrom_run nofun (List.Subset.refl _)

/-- A command cites what its body cites. -/
theorem citesFrom_commandIssues
    (hbody : ∀ body, r.groupBody? = some body → ∀ x ∈ body.lineIssues, x.CitesFrom body.tokens) :
    ∀ x ∈ r.commandIssues, x.CitesFrom r.tokens := by
  cases hr : r.groupBody? with
  | none =>
    rw [commandIssues_of_none hr]
    exact r.citesFrom_ownIssues
  | some body =>
    rw [commandIssues_of_some hr]
    refine List.forall_mem_append.mpr ⟨List.forall_mem_append.mpr
      ⟨r.citesFrom_ownIssues, Watch.forall_mem_ite _ trivial⟩, ?_⟩
    exact fun x hx => (hbody body hr x hx).mono (tokens_infix_of_groupBody? hr).subset

theorem composes_citesFrom : Composes fun r is => ∀ x ∈ is, x.CitesFrom r.tokens where
  closed := id
  append := by
    intro r is js c _ hleft hright
    exact List.forall_mem_append.mpr
      ⟨fun x hx => (hleft x hx).mono c.tokens_left_prefix.subset,
        fun x hx => (hright x hx).mono c.tokens_right_suffix.subset⟩
  nil := fun _ => List.forall_mem_nil _
  nothingBefore := fun _ _ _ => List.forall_mem_singleton.mpr trivial
  nothingAfter := fun _ _ _ => List.forall_mem_singleton.mpr trivial

/-- **What the issues of a line cite** stands in the line. -/
theorem citesFrom_lineIssues (r : Region) : ∀ x ∈ r.lineIssues, x.CitesFrom r.tokens := by
  induction r using line_induction with
  | line r ih =>
    refine composes_citesFrom.lineIssues fun c hc p hp m hm => ?_
    exact citesFrom_commandIssues fun body hbody => ih c hc p hp m hm body hbody

end Region

/-- So does what they cite in order. -/
theorem citesFrom_diagnose (t : Text) :
    ∀ x ∈ diagnose (Region.ofText t), x.CitesFrom (tokenize t) := by
  intro x hx
  rw [← Region.tokens_ofText]
  exact Region.citesFrom_lineIssues _ x (List.mem_mergeSort.mp hx)

/-! ## Issues as lines -/

/-- What the message of a problem cites between its marks. -/
def Problem.cited : Problem → Text
  | openQuote mark => [mark]
  | trailingEscape => []
  | nothingBefore _ operator | nothingAfter _ operator => operator.spelling
  | noTarget operator => operator
  | strayClose | emptyGroup => Kind.rparen.spelling
  | unclosedGroup => Kind.lparen.spelling
  | besideGroup raw => raw

/-- Only what a message cites can have a line break in it. -/
theorem Problem.newline_mem_message_iff (p : Problem) : '\n' ∈ p.message ↔ '\n' ∈ p.cited := by
  have hcite : ∀ (wording cited : Text), '\n' ∉ wording →
      ('\n' ∈ wording ++ cite cited ↔ '\n' ∈ cited) := by
    intro wording cited h
    simp [cite, h]
  cases p with
  | trailingEscape => decide
  | _ =>
    refine hcite _ _ ?_
    decide

/-- How messages call an operator has none. -/
theorem Kind.newline_not_mem_spelling (k : Kind) : '\n' ∉ k.spelling := by
  cases k <;> decide

/-- An operator has none, either. -/
theorem Token.newline_not_mem_raw {t : Text} {u : Token} (hu : u ∈ tokenize t)
    (hk : u.kind ≠ .word) : '\n' ∉ u.raw := by
  have hspellings : ∀ p ∈ Operator.spellings, '\n' ∉ p.1 := by decide
  rw [← Region.tokens_ofText] at hu
  exact hspellings _ (raw_mem_spellings hu hk)

namespace Issue

variable {t : Text} {i : Issue}

/-- **A line break is cited** only from a word beside a group. -/
theorem CitesFrom.exists_word (h : i.CitesFrom (tokenize t)) (hcited : '\n' ∈ i.problem.cited) :
    ∃ u ∈ tokenize t, u.kind = .word ∧ u.start = i.position ∧ i.problem = .besideGroup u.raw := by
  obtain ⟨problem, position⟩ := i
  cases problem with
  | openQuote mark =>
    obtain ⟨u, rfl⟩ := h
    have hmark : '\n' ∉ [u.mark] := by cases u <;> decide
    exact absurd hcited hmark
  | trailingEscape => exact absurd hcited List.not_mem_nil
  | nothingBefore _ k | nothingAfter _ k => exact absurd hcited k.newline_not_mem_spelling
  | strayClose | emptyGroup => exact absurd hcited (Kind.newline_not_mem_spelling .rparen)
  | unclosedGroup => exact absurd hcited (Kind.newline_not_mem_spelling .lparen)
  | noTarget operator =>
    obtain ⟨u, hu, hk, -, rfl⟩ := h
    exact absurd hcited (Token.newline_not_mem_raw hu (by rw [hk]; decide))
  | besideGroup raw =>
    obtain ⟨u, hu, hk, hstart, rfl⟩ := h
    refine ⟨u, hu, hk.resolve_right fun hparen => ?_, hstart, rfl⟩
    exact absurd hcited (Token.newline_not_mem_raw hu (by rw [hparen]; decide))

/-- The one line of an issue has a line break exactly if what it cites has. -/
theorem newline_mem_toText_iff (i : Issue) : '\n' ∈ i.toText ↔ '\n' ∈ i.problem.cited := by
  rw [← Problem.newline_mem_message_iff, toText, List.mem_append, List.mem_cons, List.mem_cons]
  simp [Text.newline_not_mem_ofNat]

/-- The position and the message that a line gives. -/
def ofLine? (line : Text) : Option (Nat × Text) :=
  match line.span isDigit with
  | (digits, ':' :: ' ' :: message) => some (Text.digitsValue digits, message)
  | _ => none

/-- **The line of an issue is read back.** -/
theorem ofLine?_toText (i : Issue) : ofLine? i.toText = some (i.position, i.problem.message) := by
  have hcolon : ∀ c ∈ (':' :: ' ' :: i.problem.message).head?, isDigit c = false := by
    rintro c hc
    obtain rfl := Option.some.inj hc
    rfl
  simp only [ofLine?, toText, Text.span_ofNat i.position hcolon, Text.digitsValue_ofNat]

/-- The line of an issue starts with a digit. -/
theorem exists_digit_toText (i : Issue) : ∃ d ds, i.toText = d :: ds ∧ isDigit d = true := by
  obtain ⟨d, ds, hd⟩ := List.exists_cons_of_ne_nil (Text.ofNat_ne_nil i.position)
  have hmem : d ∈ Text.ofNat i.position := by
    rw [hd]
    exact List.mem_cons_self
  exact ⟨d, _, by rw [toText, hd, List.cons_append], Text.isDigit_of_mem_ofNat hmem⟩

end Issue

/-! ## The report -/

namespace Tool

variable {command : Text}

/-- The report of a line with issues: their texts, one below the other. -/
theorem checkOutput_of_ne_nil (h : diagnose (Region.ofText command) ≠ []) :
    checkOutput command =
      Text.join ['\n'] ((diagnose (Region.ofText command)).map Issue.toText) := by
  rw [checkOutput]
  split
  · next hnil => exact absurd hnil h
  · rfl

/-- A line has no issues exactly if the report is the one word that says so. -/
theorem checkOutput_eq_ok_iff :
    checkOutput command = "OK".toList ↔ diagnose (Region.ofText command) = [] := by
  constructor
  · intro h
    by_contra hne
    -- the report of an issue starts with a digit, and the word does not
    obtain ⟨i, is, his⟩ := List.exists_cons_of_ne_nil hne
    obtain ⟨d, ds, hi, hd⟩ := i.exists_digit_toText
    have hprefix := Text.prefix_join ['\n'] i.toText (is.map Issue.toText)
    rw [checkOutput_of_ne_nil hne, his, List.map_cons] at h
    rw [h, hi] at hprefix
    obtain ⟨rfl, -⟩ := List.cons_prefix_cons.mp hprefix
    exact absurd hd (by decide)
  · intro h
    rw [checkOutput, h]

/-- The lines of a report are the lines of the issues, one after another. -/
theorem splitOn_checkOutput (h : diagnose (Region.ofText command) ≠ []) :
    (checkOutput command).splitOn '\n' =
      ((diagnose (Region.ofText command)).map Issue.toText).flatMap (List.splitOn '\n') := by
  rw [checkOutput_of_ne_nil h, Text.splitOn_join fun hnil => h (List.map_eq_nil_iff.mp hnil)]

/-- **The lines of the report**, whatever the settings. It is the one word that there are none
exactly if there are no issues. Otherwise its lines are those of the issues, one after another, and
there is one for each issue, from which its position and message are read back, exactly if no
message cites a line break. A line break is cited only from a word beside a group. -/
theorem check_lines (s : Settings) (command : Text) :
    let issues := diagnose (Region.ofText command)
    let output := (check.run s command).output
    (output = "OK".toList ↔ issues = []) ∧
      (issues ≠ [] →
        output.splitOn '\n' = (issues.map Issue.toText).flatMap (List.splitOn '\n') ∧
        (output.splitOn '\n' = issues.map Issue.toText ↔
          ∀ i ∈ issues, '\n' ∉ i.problem.cited) ∧
        ((∀ i ∈ issues, '\n' ∉ i.problem.cited) →
          (output.splitOn '\n').map Issue.ofLine? =
            issues.map fun i => some (i.position, i.problem.message))) ∧
      ∀ i ∈ issues, '\n' ∈ i.problem.cited →
        ∃ t ∈ CommandLine.tokenize command,
          t.kind = .word ∧ t.start = i.position ∧ i.problem = .besideGroup t.raw := by
  intro issues output
  have hcited : (∀ t ∈ issues.map Issue.toText, '\n' ∉ t) ↔
      ∀ i ∈ issues, '\n' ∉ i.problem.cited := by
    rw [List.forall_mem_map]
    exact forall₂_congr fun i _ => not_congr i.newline_mem_toText_iff
  refine ⟨checkOutput_eq_ok_iff, fun hne => ?_, fun i hi =>
    (citesFrom_diagnose command i hi).exists_word⟩
  have hlines : output.splitOn '\n' = (issues.map Issue.toText).flatMap (List.splitOn '\n') :=
    splitOn_checkOutput hne
  have hself : output.splitOn '\n' = issues.map Issue.toText ↔
      ∀ i ∈ issues, '\n' ∉ i.problem.cited := by
    rw [hlines, Text.flatMap_splitOn_eq_self_iff, hcited]
  refine ⟨hlines, hself, fun h => ?_⟩
  rw [hself.mpr h, List.map_map]
  exact List.map_congr_left fun i _ => i.ofLine?_toText

/-- **A quoted line break beside a group** makes two lines of one issue. -/
theorem check_breaks_line :
    (diagnose (Region.ofText "(a) 'b\nc'".toList)).length = 1 ∧
      ((check.run {} "(a) 'b\nc'".toList).output.splitOn '\n').length = 2 := by
  have hfree : ∀ level : Level,
      Undivided level.delimiters 0 (Region.ofText "(a) 'b\nc'".toList).kinds := by
    intro level
    cases level <;> decide +kernel
  let body : Region := ⟨"(a) 'b\nc'".toList, 1, 2, 2, by decide, by decide, by decide⟩
  have hbody : (Region.ofText "(a) 'b\nc'".toList).closed.closed.closed.groupBody? = some body := by
    decide +kernel
  have hinside : body.lineIssues = [] := by
    rw [Region.lineIssues_of_single_command (by decide +kernel) (by
      intro level
      cases level <;> decide +kernel), Region.commandIssues_of_none (by decide +kernel)]
    decide +kernel
  have hissues : (Region.ofText "(a) 'b\nc'".toList).lineIssues =
      [⟨.besideGroup "'b\nc'".toList, 4⟩] := by
    rw [Region.lineIssues_of_single_command (by decide +kernel) hfree,
      Region.commandIssues_of_some hbody, hinside, List.append_nil]
    decide +kernel
  have hdiagnose : diagnose (Region.ofText "(a) 'b\nc'".toList) =
      [⟨.besideGroup "'b\nc'".toList, 4⟩] := by
    rw [diagnose, hissues, List.mergeSort_singleton]
  refine ⟨by rw [hdiagnose]; rfl, ?_⟩
  change ((checkOutput _).splitOn '\n').length = 2
  rw [splitOn_checkOutput (by rw [hdiagnose]; exact List.cons_ne_nil _ _), hdiagnose]
  decide +kernel

end Tool

end CommandLine
