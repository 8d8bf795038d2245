import CommandLine.Json.Read
import CommandLine.Json.Write
import CommandLine.Proofs.Numerals

/-!
# Literals read back

Texts and numbers as JSON literals. A character is written in ASCII whatever it is: as itself, by a
short escape, by its code, or beyond the first plane by the codes of two surrogates, which no
character has by itself. So the reader knows which codes belong together, and the characters come
back. A numeral ends where nothing follows that a number could go on with.

* `Text.IsAscii` — texts of ASCII characters.
* `Json.readString_writeString` — a text as a string literal.
* `Json.readNumber_ofInt` — an integer as a numeral.
* `Json.readValue_gap`, `Json.readItems_gap`, `Json.readFields_gap` — the reader passes over line
  breaks and blanks.
* `Json.isAscii_writeString`, `Json.isAscii_ofInt`, `Json.isAscii_comma` — what is written is ASCII.
-/

namespace CommandLine

/-- A text of ASCII characters. -/
def Text.IsAscii (t : Text) : Prop := ∀ c ∈ t, c.toNat < 128

instance (t : Text) : Decidable t.IsAscii := List.decidableBAll (fun c : Char => c.toNat < 128) t

namespace Text.IsAscii

variable {t u : Text}

theorem append (ht : t.IsAscii) (hu : u.IsAscii) : IsAscii (t ++ u) :=
  List.forall_mem_append.mpr ⟨ht, hu⟩

theorem cons {c : Char} (hc : c.toNat < 128) (ht : t.IsAscii) : IsAscii (c :: t) :=
  List.forall_mem_cons.mpr ⟨hc, ht⟩

end Text.IsAscii

namespace Json

/-! ## Characters -/

/-- The codes of sixteen bits that a character is written by: its own, or those of its two
surrogates. -/
def codeUnits (c : Char) : List Nat :=
  if c.toNat < 0x10000 then [c.toNat]
  else [0xD800 + (c.toNat - 0x10000) / 0x400, 0xDC00 + (c.toNat - 0x10000) % 0x400]

/-- No character has the code of a surrogate. -/
theorem toNat_cases (c : Char) :
    c.toNat < 0xD800 ∨ (0xDFFF < c.toNat ∧ c.toNat < 0x110000) := c.valid

theorem hexValue?_hexDigit : ∀ n < 16, hexValue? (hexDigit n) = some n := by decide

/-- The escape of a code is read as the code. -/
theorem readCodes_escapeCode {n : Nat} (h : n < 0x10000) (cs : Text) :
    readCodes (escapeCode n ++ cs) = (readCodes cs).map fun r => (n :: r.1, r.2) := by
  have hdigits : hexValue4? (hexDigit (n / 4096 % 16)) (hexDigit (n / 256 % 16))
      (hexDigit (n / 16 % 16)) (hexDigit (n % 16)) = some n := by
    simp only [hexValue4?, hexValue?_hexDigit _ (Nat.mod_lt _ (by decide : 0 < 16)),
      Option.bind_eq_bind, Option.bind_some, Option.pure_def, Option.some.injEq]
    omega
  change readCodes ('\\' :: 'u' :: _ :: _ :: _ :: _ :: cs) = _
  rw [readCodes, hdigits]
  cases readCodes cs <;> rfl

/-- A short escape is read as the character that it stands for. -/
theorem readCodes_shortEscape {c d : Char} (h : shortEscape? d = some c) (cs : Text) :
    readCodes ('\\' :: d :: cs) = (readCodes cs).map fun r => (c.toNat :: r.1, r.2) := by
  have hd : d ≠ 'u' := by
    rintro rfl
    cases h
  rw [readCodes, h]
  · cases readCodes cs <;> rfl
  · intro a b c e rest hu
    exact absurd hu hd

/-- A printable character is read as itself. -/
theorem readCodes_printable {c : Char} (h : ' ' ≤ c) (hquote : c ≠ '"') (hescape : c ≠ '\\')
    (cs : Text) : readCodes (c :: cs) = (readCodes cs).map fun r => (c.toNat :: r.1, r.2) := by
  rw [readCodes, if_neg (Char.not_lt.mpr h)]
  · cases readCodes cs <;> rfl
  all_goals
    intros
    contradiction

/-- **A character in a string literal** is read as its codes. -/
theorem readCodes_escape (c : Char) (cs : Text) :
    readCodes (escape c ++ cs) = (readCodes cs).map fun r => (codeUnits c ++ r.1, r.2) := by
  rw [escape]
  split_ifs with hquote hescape hn hr ht hb hf hprintable hplane
  · subst hquote; exact readCodes_shortEscape rfl cs
  · subst hescape; exact readCodes_shortEscape rfl cs
  · subst hn; exact readCodes_shortEscape rfl cs
  · subst hr; exact readCodes_shortEscape rfl cs
  · subst ht; exact readCodes_shortEscape rfl cs
  · subst hb; exact readCodes_shortEscape rfl cs
  · subst hf; exact readCodes_shortEscape rfl cs
  · have hlow : c.toNat < 0x10000 := Nat.lt_of_le_of_lt hprintable.2 (by decide)
    rw [codeUnits, if_pos hlow]
    exact readCodes_printable hprintable.1 hquote hescape cs
  · rw [codeUnits, if_pos hplane]
    exact readCodes_escapeCode hplane cs
  · -- beyond the first plane there are two codes
    have hvalid := toNat_cases c
    rw [codeUnits, if_neg hplane, List.append_assoc, readCodes_escapeCode (by omega),
      readCodes_escapeCode (by omega), Option.map_map]
    rfl

/-- A code that is no surrogate stands for its character. -/
theorem joinSurrogates_cons {n : Nat} (h : isHighSurrogate n = false) (ns : List Nat) :
    joinSurrogates (n :: ns) = Char.ofNat n :: joinSurrogates ns := by
  cases ns with
  | nil => rfl
  | cons m ns => rw [joinSurrogates, h, Bool.false_and, if_neg Bool.false_ne_true]

/-- Two surrogates stand for one character together. -/
theorem joinSurrogates_pair {hi lo : Nat} (hhi : isHighSurrogate hi = true)
    (hlo : isLowSurrogate lo = true) (ns : List Nat) :
    joinSurrogates (hi :: lo :: ns) =
      Char.ofNat (0x10000 + (hi - 0xD800) * 0x400 + (lo - 0xDC00)) :: joinSurrogates ns := by
  rw [joinSurrogates, hhi, hlo, Bool.true_and, if_pos rfl]

/-- **The codes of a text** are joined to its characters. -/
theorem joinSurrogates_codeUnits (t : Text) : joinSurrogates (t.flatMap codeUnits) = t := by
  induction t with
  | nil => rfl
  | cons c t ih =>
    have hvalid := toNat_cases c
    rw [List.flatMap_cons, codeUnits]
    split
    · have hhigh : isHighSurrogate c.toNat = false := by
        simp only [isHighSurrogate, Bool.and_eq_false_iff, decide_eq_false_iff_not]
        omega
      rw [List.singleton_append, joinSurrogates_cons hhigh, ih, Char.ofNat_toNat]
    · have hhi : isHighSurrogate (0xD800 + (c.toNat - 0x10000) / 0x400) = true := by
        simp only [isHighSurrogate, Bool.and_eq_true, decide_eq_true_iff]
        omega
      have hlo : isLowSurrogate (0xDC00 + (c.toNat - 0x10000) % 0x400) = true := by
        simp only [isLowSurrogate, Bool.and_eq_true, decide_eq_true_iff]
        omega
      have hcode : 0x10000 + (0xD800 + (c.toNat - 0x10000) / 0x400 - 0xD800) * 0x400 +
          (0xDC00 + (c.toNat - 0x10000) % 0x400 - 0xDC00) = c.toNat := by omega
      rw [List.cons_append, List.cons_append, List.nil_append, joinSurrogates_pair hhi hlo, ih,
        hcode, Char.ofNat_toNat]

/-- **A string literal** is read as its text. -/
theorem readString_writeString (t rest : Text) :
    readString (t.foldr (fun c after => escape c ++ after) ('"' :: rest)) = some (t, rest) := by
  have hcodes : readCodes (t.foldr (fun c after => escape c ++ after) ('"' :: rest)) =
      some (t.flatMap codeUnits, rest) := by
    induction t with
    | nil => rw [List.foldr_nil, readCodes]; rfl
    | cons c t ih => rw [List.foldr_cons, readCodes_escape, ih]; rfl
  rw [readString, hcodes, Option.map_some]
  simp only [joinSurrogates_codeUnits]

theorem length_lt_writeString (t rest : Text) : rest.length < (writeString t rest).length := by
  rw [writeString, List.length_cons]
  induction t with
  | nil =>
    rw [List.foldr_nil, List.length_cons]
    omega
  | cons c t ih =>
    rw [List.foldr_cons, List.length_append]
    omega

/-! ## Numbers -/

/-- What may follow a number: nothing that it could go on with. -/
def EndsNumber (rest : Text) : Prop :=
  ∀ c ∈ rest.head?, isDigit c = false ∧ c ≠ '.' ∧ c ≠ 'e' ∧ c ≠ 'E'

theorem endsNumber_cons {c : Char} (h : isDigit c = false ∧ c ≠ '.' ∧ c ≠ 'e' ∧ c ≠ 'E')
    (cs : Text) : EndsNumber (c :: cs) := by
  intro d hd
  obtain rfl := Option.some.inj hd
  exact h

section

variable {rest : Text}

theorem readFraction_of_endsNumber (h : EndsNumber rest) : readFraction rest = some ([], rest) := by
  rw [readFraction]
  rintro cs rfl
  exact (h '.' rfl).2.1 rfl

theorem readExponent_of_endsNumber (h : EndsNumber rest) :
    readExponent rest = some (none, rest) := by
  cases rest with
  | nil => rfl
  | cons c cs =>
    obtain ⟨-, -, he, hE⟩ := h c rfl
    unfold readExponent
    exact if_neg (not_or.mpr ⟨he, hE⟩)

/-- A numeral is read as its number. -/
theorem readUnsigned_ofNat (negative : Bool) (n : Nat) (h : EndsNumber rest) :
    readUnsigned negative (Text.ofNat n ++ rest) =
      some (int (if negative then -(n : Int) else n), rest) := by
  have hspan : readDigits (Text.ofNat n ++ rest) = (Text.ofNat n, rest) :=
    Text.span_ofNat n fun c hc => (h c hc).1
  have hwhole : ¬ ((Text.ofNat n).isEmpty = true ∨
      ((Text.ofNat n).head? = some '0' ∧ 1 < (Text.ofNat n).length)) := by
    rw [List.isEmpty_iff, not_or]
    refine ⟨Text.ofNat_ne_nil n, fun hzero => ?_⟩
    obtain rfl := Text.eq_zero_of_head?_ofNat hzero.1
    exact absurd hzero.2 (by decide)
  simp only [readUnsigned, hspan, if_neg hwhole, readFraction_of_endsNumber h,
    readExponent_of_endsNumber h, Option.bind_eq_bind, Option.bind_some, Option.pure_def,
    List.isEmpty_nil, Option.isNone_none, and_self, if_true, Text.digitsValue_ofNat]

/-- **The numeral of an integer** is read as the integer. -/
theorem readNumber_ofInt (n : Int) (h : EndsNumber rest) :
    readNumber (Text.ofInt n ++ rest) = some (int n, rest) := by
  have hhead : ∀ {c : Char} {cs : Text}, Text.ofNat n.natAbs ++ rest = c :: cs →
      isDigit c = true := by
    intro c cs hcs
    obtain ⟨d, ds, hds⟩ := List.exists_cons_of_ne_nil (Text.ofNat_ne_nil n.natAbs)
    rw [hds, List.cons_append, List.cons.injEq] at hcs
    exact hcs.1 ▸ Text.isDigit_of_mem_ofNat (hds ▸ List.mem_cons_self)
  rw [Text.ofInt]
  split
  · next hneg =>
    rw [List.cons_append, readNumber, readUnsigned_ofNat true _ h, if_pos rfl,
      Int.ofNat_natAbs_of_nonpos (Int.le_of_lt hneg), Int.neg_neg]
    exact fun _ hcs => absurd (hhead hcs) (by decide)
  · next hpos =>
    rw [readNumber, readUnsigned_ofNat false _ h, if_neg Bool.false_ne_true,
      Int.natAbs_of_nonneg (Int.not_lt.mp hpos)]
    all_goals exact fun _ hcs => absurd (hhead hcs) (by decide)

/-- A numeral starts with a digit or a minus sign. -/
theorem exists_head_ofInt (n : Int) (rest : Text) :
    ∃ c cs, Text.ofInt n ++ rest = c :: cs ∧ (isDigit c = true ∨ c = '-') := by
  obtain ⟨d, ds, hds⟩ := List.exists_cons_of_ne_nil (Text.ofNat_ne_nil n.natAbs)
  have hd : isDigit d = true := Text.isDigit_of_mem_ofNat (hds ▸ List.mem_cons_self)
  rw [Text.ofInt]
  split
  · exact ⟨'-', _, rfl, .inr rfl⟩
  · rw [hds]
    exact ⟨d, _, rfl, .inl hd⟩

end

/-! ## Gaps -/

section

variable {gap : Text}

theorem skipGap_append (h : ∀ c ∈ gap, isGap c = true) (cs : Text) :
    skipGap (gap ++ cs) = skipGap cs :=
  List.dropWhile_append_of_pos h

theorem skipGap_cons {c : Char} (h : isGap c = false) (cs : Text) : skipGap (c :: cs) = c :: cs :=
  List.dropWhile_cons_of_neg (by simp [h])

theorem isGap_lineBreak (indent : Option Int) (level : Nat) :
    ∀ c ∈ lineBreak indent level, isGap c = true := by
  cases indent with
  | none => exact List.forall_mem_nil _
  | some n =>
    refine List.forall_mem_cons.mpr ⟨by decide, fun c hc => ?_⟩
    rw [List.eq_of_mem_replicate hc]
    decide

/-- Behind a comma there is a gap. -/
theorem exists_comma_eq (indent : Option Int) (level : Nat) :
    ∃ gap, comma indent level = ',' :: gap ∧ ∀ c ∈ gap, isGap c = true := by
  cases indent with
  | none => exact ⟨[' '], rfl, List.forall_mem_singleton.mpr rfl⟩
  | some n => exact ⟨_, rfl, isGap_lineBreak (some n) level⟩

/-- Values, items and fields are read over the gap in front of them. -/
theorem readValue_gap (h : ∀ c ∈ gap, isGap c = true) (n : Nat) (cs : Text) :
    readValue n (gap ++ cs) = readValue n cs := by
  cases n with
  | zero => rfl
  | succ n => rw [readValue, readValue, skipGap_append h]

theorem readItems_gap (h : ∀ c ∈ gap, isGap c = true) (n : Nat) (cs : Text) :
    readItems n (gap ++ cs) = readItems n cs := by
  cases n with
  | zero => rfl
  | succ n => rw [readItems, readItems, readValue_gap h]

theorem readFields_gap (h : ∀ c ∈ gap, isGap c = true) (n : Nat) (cs : Text) :
    readFields n (gap ++ cs) = readFields n cs := by
  cases n with
  | zero => rfl
  | succ n => rw [readFields, readFields, skipGap_append h]

theorem endsNumber_gap (h : ∀ c ∈ gap, isGap c = true) {cs : Text} (hcs : EndsNumber cs) :
    EndsNumber (gap ++ cs) := by
  cases gap with
  | nil => exact hcs
  | cons c gap =>
    refine endsNumber_cons ?_ _
    have hc := (List.forall_mem_cons.mp h).1
    simp only [isGap, Bool.or_eq_true, beq_iff_eq, or_assoc] at hc
    rcases hc with rfl | rfl | rfl | rfl <;> decide

end

/-- A digit stands in no gap. -/
theorem isGap_of_isDigit {c : Char} (h : isDigit c = true) : isGap c = false := by
  by_contra hgap
  rw [Bool.not_eq_false, isGap] at hgap
  simp only [Bool.or_eq_true, beq_iff_eq, or_assoc] at hgap
  rcases hgap with rfl | rfl | rfl | rfl <;> exact absurd h (by decide)

/-- Where a value starts with a digit or a minus sign it is a number. -/
theorem readValue_number {c : Char} (h : isDigit c = true ∨ c = '-') (n : Nat) (cs : Text) :
    readValue (n + 1) (c :: cs) = readNumber (c :: cs) := by
  have hgap : isGap c = false := by
    rcases h with h | rfl
    · exact isGap_of_isDigit h
    · decide
  rw [readValue, skipGap_cons hgap]
  split
  all_goals first | rfl | skip
  all_goals
    next heq =>
      obtain ⟨rfl, -⟩ := List.cons.inj heq
      exact absurd h (by decide)

/-! ## What is written is ASCII -/

theorem isAscii_escapeCode (n : Nat) : (escapeCode n).IsAscii := by
  have hdigit : ∀ m < 16, (hexDigit m).toNat < 128 := by decide
  have hmod : ∀ m, (hexDigit (m % 16)).toNat < 128 := fun m => hdigit _ (Nat.mod_lt _ (by decide))
  simp only [escapeCode, Text.IsAscii, List.forall_mem_cons]
  exact ⟨by decide, by decide, hmod _, hmod _, hmod _, hmod _, List.forall_mem_nil _⟩

/-- Whatever a character is, it is written in ASCII characters. -/
theorem isAscii_escape (c : Char) : (escape c).IsAscii := by
  rw [escape]
  split_ifs with hquote hescape hn hr ht hb hf hprintable hplane
  all_goals first | decide | skip
  · exact List.forall_mem_singleton.mpr (Nat.lt_of_le_of_lt hprintable.2 (by decide))
  · exact isAscii_escapeCode _
  · exact (isAscii_escapeCode _).append (isAscii_escapeCode _)

theorem isAscii_writeString (t : Text) {rest : Text} (h : rest.IsAscii) :
    (writeString t rest).IsAscii := by
  refine .cons (by decide) ?_
  induction t with
  | nil => exact .cons (by decide) h
  | cons c t ih => exact (isAscii_escape c).append ih

theorem isAscii_lineBreak (indent : Option Int) (level : Nat) :
    (lineBreak indent level).IsAscii := by
  cases indent with
  | none => exact List.forall_mem_nil _
  | some n =>
    refine .cons (by decide) fun c hc => ?_
    rw [List.eq_of_mem_replicate hc]
    decide

theorem isAscii_comma (indent : Option Int) (level : Nat) : (comma indent level).IsAscii := by
  cases indent with
  | none => exact (by decide : Text.IsAscii [',', ' '])
  | some n => exact .cons (by decide) (isAscii_lineBreak _ _)

theorem isAscii_ofInt (n : Int) : (Text.ofInt n).IsAscii := by
  have hdigits : (Text.ofNat n.natAbs).IsAscii := by
    intro c hc
    have hdigit := Text.isDigit_of_mem_ofNat hc
    rw [isDigit, Bool.and_eq_true, decide_eq_true_iff, decide_eq_true_iff] at hdigit
    exact Nat.lt_of_le_of_lt hdigit.2 (by decide)
  rw [Text.ofInt]
  split
  · exact .cons (by decide) hdigits
  · exact hdigits

end Json

end CommandLine
