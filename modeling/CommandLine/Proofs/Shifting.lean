import CommandLine.Proofs.Likeness

/-!
# Reading in place

A region is read off its own characters: what stands before and behind it, and the limit it may be
left up to, have no part in its tokens, its tree and its issues. They are those of a text that
consists of these characters alone, further on by the position at which the region starts. The body
of a group is such a region wherever it stands, so it is read like a line of its own.

* `Token.shift`, `Span.shift`, `Issue.shift` — tokens, marks and issues further on.
* `tokensOf_shift` — the same characters elsewhere have the same tokens further on.
* `Region.Moved`, `Region.moved_likeness` — regions of the same characters are read alike.
* `Line.Encloses` — the bodies of groups at every depth.
* `View.reads_own_text` — a region is read as its characters alone.
-/

namespace CommandLine

/-- The token `n` positions further on in another text. -/
def Token.shift (source : Text) (n : Nat) (t : Token) : Token :=
  { t with start := t.start + n, stop := t.stop + n, source }

/-- The span `n` positions further on. -/
def Span.shift (n : Nat) (s : Span) : Span := { s with start := s.start + n, stop := s.stop + n }

/-- The issue `n` positions further on. -/
def Issue.shift (n : Nat) (i : Issue) : Issue := { i with position := i.position + n }

/-- **The same characters elsewhere** have the same tokens, further on. -/
theorem tokensOf_shift (source own : Text) (n pos : Nat) (cs : Text) :
    tokensOf source (pos + n) cs = (tokensOf own pos cs).map (Token.shift source n) := by
  induction hts : tokensOf own pos cs generalizing pos cs with
  | nil => exact tokensOf_none (tokensOf_eq_nil_iff.mp hts)
  | cons t ts ih =>
    obtain ⟨l, hl, rfl, hrest⟩ := tokensOf_eq_cons hts
    have hgap : pos + n + l.gap = pos + l.gap + n := by omega
    have hwidth : pos + n + l.width = pos + l.width + n := by omega
    rw [tokensOf_some hl, List.map_cons, hwidth, ih _ _ hrest.symm, Token.ofLexeme, hgap, hwidth]
    rfl

/-- The characters of a token, from where its region starts. -/
theorem Region.raw_eq {r : Region} {t : Token} (ht : t ∈ r.tokens) :
    t.raw = (r.text.drop (t.start - r.start)).take (t.stop - t.start) := by
  have hb := tokens_bounds ht
  rw [text, Text.drop_slice, Nat.add_sub_cancel' hb.1, Text.take_slice (by omega),
    Nat.add_sub_cancel' (Nat.le_of_lt hb.2.1), ← source_of_mem_tokensOf ht]
  rfl

/-- A token with the characters of another one, `n` positions further on. -/
structure Token.Moved (source : Text) (n : Nat) (t u : Token) : Prop where
  /-- it stands further on -/
  eq_shift : t = u.shift source n
  /-- it has the same characters -/
  raw_eq : t.raw = u.raw
  /-- it has some -/
  nonempty : u.start < u.stop

theorem Token.Moved.symbol_eq {source : Text} {n : Nat} {t u : Token} (h : t.Moved source n u) :
    t.symbol = u.symbol := by
  have hkind : t.kind = u.kind := by rw [h.eq_shift, shift]
  rw [symbol, symbol, hkind, h.raw_eq]

/-- A problem with a token is found further on if the token stands further on. -/
theorem Problem.anchor_shift (p : Problem) {source : Text} {n : Nat} {t u : Token}
    (h : t.Moved source n u) : p.anchor t = p.anchor u + n := by
  obtain ⟨rfl, -, hpos⟩ := h
  cases p with
  -- a word that ends with a backslash has a last character
  | trailingEscape => exact Nat.sub_add_comm (by omega)
  | _ => rfl

namespace Region

/-- A region with the characters of another one, `n` positions further on. -/
structure Moved (source : Text) (n : Nat) (r s : Region) : Prop where
  /-- the text it is a part of -/
  source_eq : r.source = source
  /-- it has the same characters -/
  text_eq : r.text = s.text
  /-- it starts further on -/
  start_eq : r.start = s.start + n

variable {source : Text} {n : Nat} {r s : Region}

theorem Moved.span_eq (h : r.Moved source n s) : r.span = s.span.shift n := by
  have hstop : r.stop = s.stop + n := by
    have hlength : r.length = s.length := by rw [← length_text, h.text_eq, length_text]
    have := h.start_eq
    have := r.start_le_stop
    have := s.start_le_stop
    simp only [length] at hlength
    omega
  rw [span, span, Span.shift, h.text_eq, h.start_eq, hstop]

theorem Moved.tokens_eq (h : r.Moved source n s) :
    r.tokens = s.tokens.map (Token.shift source n) := by
  rw [tokens, tokens, h.source_eq, h.start_eq, h.text_eq, tokensOf_shift source s.source]

/-- Their tokens have the same characters one by one. -/
theorem Moved.tokens (h : r.Moved source n s) :
    List.Forall₂ (Token.Moved source n) r.tokens s.tokens := by
  rw [h.tokens_eq, List.forall₂_map_left_iff, List.forall₂_same]
  intro u hu
  refine ⟨rfl, ?_, (tokens_bounds hu).2.1⟩
  have ht : u.shift source n ∈ r.tokens := by
    rw [h.tokens_eq]
    exact List.mem_map_of_mem hu
  rw [raw_eq ht, raw_eq hu, h.text_eq, h.start_eq]
  simp only [Token.shift, Nat.add_sub_add_right]

/-- **Regions of the same characters** are read alike. -/
theorem moved_likeness (source : Text) (n : Nat) :
    Likeness (Token.Moved source n) (Moved source n) where
  symbol_eq := Token.Moved.symbol_eq
  tokens := Moved.tokens
  closed := fun h => ⟨h.source_eq, h.text_eq, h.start_eq⟩
  sides := by
    intro r s h c d _ htoken _
    have htokenstart : c.token.start = d.token.start + n := congrArg Token.start htoken.eq_shift
    have htokenstop : c.token.stop = d.token.stop + n := congrArg Token.stop htoken.eq_shift
    refine ⟨⟨h.source_eq, ?_, h.start_eq⟩, ⟨h.source_eq, ?_, htokenstop⟩⟩
    · rw [c.text_left, d.text_left, h.text_eq, htokenstart, h.start_eq, Nat.add_sub_add_right]
    · rw [c.text_right, d.text_right, h.text_eq, htokenstop, h.start_eq, Nat.add_sub_add_right]

/-- A region has the characters of the text that consists of them. -/
theorem moved_ofText (r : Region) : r.Moved r.source r.start (ofText r.text) := by
  refine ⟨rfl, ?_, (Nat.zero_add _).symm⟩
  rw [text, text]
  exact (Text.slice_self _).symm

/-- The tokens of a region are those of its characters. -/
theorem tokens_eq_shift (r : Region) :
    r.tokens = (tokenize r.text).map (Token.shift r.source r.start) := by
  rw [r.moved_ofText.tokens_eq, tokens_ofText]

/-- The tree of a region is that of its characters. -/
theorem toLine_eq_shift (r : Region) :
    r.toLine = (Line.ofText r.text).map (Span.shift r.start) := by
  have hmap := (moved_likeness r.source r.start).map_toLine (f := id) Moved.span_eq r.moved_ofText
  rwa [Line.map_id] at hmap

/-- The issues of a region are those of its characters. -/
theorem diagnose_eq_shift (r : Region) :
    diagnose r = (diagnose (ofText r.text)).map (Issue.shift r.start) := by
  have hlike := (moved_likeness r.source r.start).lineIssues r.moved_ofText
  have hissues : r.lineIssues = (ofText r.text).lineIssues.map (Issue.shift r.start) := by
    rw [← List.map_id r.lineIssues]
    refine map_eq_map_of_forall₂ hlike fun i _ j hij => ?_
    obtain ⟨hproblem, t, u, htu, hi, hj⟩ := hij
    rw [hproblem, Problem.anchor_shift _ htu, ← hj] at hi
    cases i
    cases hproblem
    cases hi
    rfl
  rw [diagnose, diagnose, hissues]
  refine (List.map_mergeSort fun i _ j _ => ?_).symm
  exact decide_eq_decide.mpr (Nat.add_le_add_iff_right).symm

end Region

/-! ## Groups -/

/-- The second line stands in parentheses in the first, at any depth. -/
inductive Line.Encloses {σ : Type} : Line σ → Line σ → Prop where
  /-- as the body of a group -/
  | body {l body : Line σ} {c : Conditional σ} {p : Pipeline σ} {mark : σ} {words : Words} :
      c ∈ l.conditionals → p ∈ c.pipelines → .group mark body words ∈ p.commands →
      Encloses l body
  /-- in the body of a group -/
  | inside {l body b : Line σ} : Encloses l body → Encloses body b → Encloses l b

/-- What stands in parentheses in the tree of a region is the tree of a region. -/
theorem Region.exists_toLine_of_encloses {r : Region} {b : Line Span} (h : r.toLine.Encloses b) :
    ∃ q : Region, b = q.toLine := by
  generalize hl : r.toLine = l at h
  induction h generalizing r with
  | body hc hp hm =>
    subst hl
    obtain ⟨m, -, hgroup⟩ := mem_commands_toLine.mp ⟨_, hc, _, hp, hm⟩
    obtain ⟨q, -, -, hline, -⟩ := toCommand_eq_group_iff.mp hgroup
    exact ⟨q, hline.symm⟩
  | inside _ _ ihbody ih =>
    obtain ⟨q, rfl⟩ := ihbody hl
    exact ih rfl

/-- **A region is read as its characters alone**, whatever its level, its limit and the text around
it: its tokens, its tree and its issues are those of the text of these characters, further on by
where the region starts, and what is read off its tokens is the same. The bodies of the groups in
its tree are such trees themselves. -/
theorem View.reads_own_text (v : View) :
    v.region.tokens = (tokenize v.region.text).map (Token.shift v.region.source v.region.start) ∧
      (∀ t ∈ tokenize v.region.text,
        (t.shift v.region.source v.region.start).raw = t.raw ∧
          (t.shift v.region.source v.region.start).text = t.text ∧
          (t.shift v.region.source v.region.start).unclosed? = t.unclosed? ∧
          (t.shift v.region.source v.region.start).redirectOp? = t.redirectOp?) ∧
      v.region.toLine = (Line.ofText v.region.text).map (Span.shift v.region.start) ∧
      diagnose v.region =
        (diagnose (Region.ofText v.region.text)).map (Issue.shift v.region.start) ∧
      ∀ b, v.region.toLine.Encloses b →
        b = (Line.ofText b.mark.text).map (Span.shift b.mark.start) := by
  refine ⟨v.region.tokens_eq_shift, fun t ht => ?_, v.region.toLine_eq_shift,
    v.region.diagnose_eq_shift, fun b hb => ?_⟩
  · have hmoved := v.region.moved_ofText.tokens
    rw [v.region.moved_ofText.tokens_eq, List.forall₂_map_left_iff, List.forall₂_same] at hmoved
    have htoken := hmoved t (by rwa [Region.tokens_ofText])
    have hsymbol := htoken.symbol_eq
    exact ⟨htoken.raw_eq, Token.text_eq_of_symbol hsymbol, Token.unclosed?_eq_of_symbol hsymbol,
      Token.redirectOp?_eq_of_symbol hsymbol⟩
  · obtain ⟨q, rfl⟩ := Region.exists_toLine_of_encloses hb
    rw [Region.mark_toLine]
    exact q.toLine_eq_shift

end CommandLine
