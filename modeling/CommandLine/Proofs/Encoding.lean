import CommandLine.Proofs.Literals

/-!
# Values read back

A JSON value without floating-point numbers is read back from its written form, whatever the indent
and whatever follows it. A list or an object may be empty or not, and be broken into lines or not;
the reader passes over what stands between the parts, and takes for each part what was written for
it.

* `Json.Exact` — values without floating-point numbers.
* `Json.Legible` — what is needed of a value so that the values around it can be read.
* `Json.Legible.readItems_writeItems`, `Json.Legible.readFields_writeFields` — the items of a list
  and the fields of an object.
* `Json.Exact.legible` — every value without floating-point numbers, by induction.
* `Json.Exact.read?_write`, `Json.Exact.isAscii_write` — a whole text.
-/

namespace CommandLine

namespace Json

/-! ## Values -/

/-- A value without floating-point numbers. -/
inductive Exact : Json → Prop where
  /-- no value -/
  | null : Exact null
  /-- a truth value -/
  | bool (b : Bool) : Exact (bool b)
  /-- an integer -/
  | int (n : Int) : Exact (int n)
  /-- a text -/
  | str (t : Text) : Exact (str t)
  /-- a list of such values -/
  | arr {items : List Json} (h : ∀ v ∈ items, Exact v) : Exact (arr items)
  /-- an object with such values -/
  | obj {fields : List (Text × Json)} (h : ∀ f ∈ fields, Exact f.2) : Exact (obj fields)

/-- A value whose written form is read back wherever it stands. -/
structure Legible (indent : Option Int) (v : Json) : Prop where
  /-- it starts with no gap, and with nothing that ends a list -/
  head : ∀ level rest, ∃ c cs, writeAt indent level v rest = c :: cs ∧ isGap c = false ∧ c ≠ ']'
  /-- it takes some characters -/
  length_lt : ∀ level rest, rest.length < (writeAt indent level v rest).length
  /-- all of them are ASCII -/
  isAscii : ∀ {level rest}, Text.IsAscii rest → (writeAt indent level v rest).IsAscii
  /-- it is read back, and what follows it is left -/
  read : ∀ {level rest n}, EndsNumber rest → 2 * (writeAt indent level v rest).length < n →
    readValue n (writeAt indent level v rest) = some (v, rest)

namespace Legible

variable {indent : Option Int}

theorem null : Legible indent null where
  head := fun _ _ => ⟨'n', _, rfl, by decide, by decide⟩
  length_lt := by
    intro level rest
    rw [writeAt, List.length_append]
    exact Nat.lt_add_of_pos_left (by decide)
  isAscii := fun h => Text.IsAscii.append (by decide) h
  read := by
    intro level rest n _ hn
    obtain ⟨n, rfl⟩ := Nat.exists_eq_add_one_of_ne_zero (Nat.ne_zero_of_lt hn)
    rfl

theorem bool (b : Bool) : Legible indent (bool b) where
  head := by
    intro level rest
    cases b
    · exact ⟨'f', _, rfl, by decide, by decide⟩
    · exact ⟨'t', _, rfl, by decide, by decide⟩
  length_lt := by
    intro level rest
    rw [writeAt, List.length_append]
    exact Nat.lt_add_of_pos_left (by cases b <;> decide)
  isAscii := fun h => Text.IsAscii.append (by cases b <;> decide) h
  read := by
    intro level rest n _ hn
    obtain ⟨n, rfl⟩ := Nat.exists_eq_add_one_of_ne_zero (Nat.ne_zero_of_lt hn)
    cases b <;> rfl

theorem int (n : Int) : Legible indent (int n) where
  head := by
    intro level rest
    obtain ⟨c, cs, hcs, hc⟩ := exists_head_ofInt n rest
    refine ⟨c, cs, hcs, ?_⟩
    rcases hc with hc | rfl
    · exact ⟨isGap_of_isDigit hc, by rintro rfl; exact absurd hc (by decide)⟩
    · decide
  length_lt := by
    intro level rest
    obtain ⟨c, cs, hcs, -⟩ := exists_head_ofInt n []
    rw [writeAt, List.length_append]
    rw [List.append_nil] at hcs
    rw [hcs]
    exact Nat.lt_add_of_pos_left (Nat.succ_pos _)
  isAscii := fun h => (isAscii_ofInt n).append h
  read := by
    intro level rest m hrest hm
    obtain ⟨m, rfl⟩ := Nat.exists_eq_add_one_of_ne_zero (Nat.ne_zero_of_lt hm)
    obtain ⟨c, cs, hcs, hc⟩ := exists_head_ofInt n rest
    rw [writeAt, hcs, readValue_number hc, ← hcs, readNumber_ofInt n hrest]

theorem str (t : Text) : Legible indent (str t) where
  head := fun _ _ => ⟨'"', _, rfl, by decide, by decide⟩
  length_lt := fun _ rest => length_lt_writeString t rest
  isAscii := isAscii_writeString t
  read := by
    intro level rest n _ hn
    obtain ⟨n, rfl⟩ := Nat.exists_eq_add_one_of_ne_zero (Nat.ne_zero_of_lt hn)
    change (readString _).map _ = _
    rw [readString_writeString]
    rfl

end Legible

/-! ## Items and fields -/

/-- A field in front of what follows it. -/
def writeField (indent : Option Int) (level : Nat) (f : Text × Json) (rest : Text) : Text :=
  writeString f.1 (':' :: ' ' :: writeAt indent level f.2 rest)

theorem writeFields_cons (indent : Option Int) (level : Nat) (f : Text × Json)
    (fs : List (Text × Json)) (rest : Text) :
    writeFields indent level (f :: fs) rest =
      comma indent level ++ writeField indent level f (writeFields indent level fs rest) := rfl

theorem length_lt_writeField (indent : Option Int) (level : Nat) (f : Text × Json) (rest : Text) :
    (writeAt indent level f.2 rest).length + 2 < (writeField indent level f rest).length :=
  length_lt_writeString f.1 (':' :: ' ' :: writeAt indent level f.2 rest)

section

variable {v : Json} {n : Nat} {cs rest after : Text}

/-- A list is read as its items, if it has any. -/
theorem readValue_list {c : Char} {gap : Text} (hgap : ∀ c ∈ gap, isGap c = true)
    (hc : isGap c = false) (hclose : c ≠ ']') :
    readValue (n + 1) ('[' :: (gap ++ c :: cs)) =
      (readItems n (c :: cs)).map fun r => (arr r.1, r.2) := by
  rw [readValue, skipGap_cons (by decide)]
  simp only [skipGap_append hgap, skipGap_cons hc]
  split
  · next heq => exact absurd (List.cons.inj heq).1 hclose
  · rfl

/-- An object is read as its fields, if it has any. -/
theorem readValue_object {gap : Text} (hgap : ∀ c ∈ gap, isGap c = true) :
    readValue (n + 1) ('\x7b' :: (gap ++ '"' :: cs)) =
      (readFields n ('"' :: cs)).map fun r => (obj r.1, r.2) := by
  rw [readValue, skipGap_cons (by decide)]
  simp only [skipGap_append hgap, skipGap_cons (by decide : isGap '"' = false)]
  rfl

/-- The last item of a list is read up to its end. -/
theorem readItems_last (hv : readValue n cs = some (v, after))
    (hend : skipGap after = ']' :: rest) :
    readItems (n + 1) cs = some ([v], rest) := by
  rw [readItems, hv]
  simp only [Option.bind_eq_bind, Option.bind_some, hend]
  rfl

/-- Behind a comma there are the other items. -/
theorem readItems_more (hv : readValue n cs = some (v, after))
    (hcomma : skipGap after = ',' :: rest) :
    readItems (n + 1) cs = (readItems n rest).map fun r => (v :: r.1, r.2) := by
  rw [readItems, hv]
  simp only [Option.bind_eq_bind, Option.bind_some, hcomma]
  cases readItems n rest <;> rfl

section

variable {indent : Option Int} {level : Nat} {f : Text × Json}

/-- Between the key and the value of a field there are a colon and a blank. -/
theorem readValue_field (hv : readValue n (writeAt indent level f.2 after) = some (f.2, after)) :
    readValue n (' ' :: writeAt indent level f.2 after) = some (f.2, after) := by
  have hblank : ∀ c ∈ [' '], isGap c = true := List.forall_mem_singleton.mpr rfl
  exact (readValue_gap hblank n _).trans hv

/-- The last field of an object is read up to its end. -/
theorem readFields_last (hv : readValue n (writeAt indent level f.2 after) = some (f.2, after))
    (hend : skipGap after = '\x7d' :: rest) :
    readFields (n + 1) (writeField indent level f after) = some ([f], rest) := by
  rw [writeField, readFields, writeString, skipGap_cons (by decide)]
  simp only [readString_writeString, Option.bind_eq_bind, Option.bind_some,
    skipGap_cons (by decide : isGap ':' = false), readValue_field hv, hend]
  rfl

/-- Behind a comma there are the other fields. -/
theorem readFields_more (hv : readValue n (writeAt indent level f.2 after) = some (f.2, after))
    (hcomma : skipGap after = ',' :: rest) :
    readFields (n + 1) (writeField indent level f after) =
      (readFields n rest).map fun r => (f :: r.1, r.2) := by
  rw [writeField, readFields, writeString, skipGap_cons (by decide)]
  simp only [readString_writeString, Option.bind_eq_bind, Option.bind_some,
    skipGap_cons (by decide : isGap ':' = false), readValue_field hv, hcomma]
  cases readFields n rest <;> rfl

end

end

namespace Legible

variable {indent : Option Int}

section

variable {v : Json} {vs : List Json} {level : Nat} {rest : Text}

theorem length_le_writeItems (h : ∀ v ∈ vs, Legible indent v) :
    rest.length ≤ (writeItems indent level vs rest).length := by
  induction vs with
  | nil => exact Nat.le_refl _
  | cons v vs ih =>
    obtain ⟨hv, hvs⟩ := List.forall_mem_cons.mp h
    have hrest := ih hvs
    have hlt := hv.length_lt level (writeItems indent level vs rest)
    rw [writeItems, List.length_append]
    omega

theorem isAscii_writeItems (h : ∀ v ∈ vs, Legible indent v) (hrest : rest.IsAscii) :
    (writeItems indent level vs rest).IsAscii := by
  induction vs with
  | nil => exact hrest
  | cons v vs ih =>
    obtain ⟨hv, hvs⟩ := List.forall_mem_cons.mp h
    exact (isAscii_comma indent level).append (hv.isAscii (ih hvs))

theorem endsNumber_writeItems (h : EndsNumber rest) :
    EndsNumber (writeItems indent level vs rest) := by
  cases vs with
  | nil => exact h
  | cons v vs =>
    obtain ⟨gap, hcomma, -⟩ := exists_comma_eq indent level
    rw [writeItems, hcomma]
    exact endsNumber_cons (by decide) _

/-- **The items of a list** are read back one by one, up to its end. -/
theorem readItems_writeItems {gap : Text} {n : Nat} (h : ∀ u ∈ v :: vs, Legible indent u)
    (hgap : ∀ c ∈ gap, isGap c = true)
    (hn : 2 * (writeAt indent level v
      (writeItems indent level vs (gap ++ ']' :: rest))).length + 1 < n) :
    readItems n (writeAt indent level v
      (writeItems indent level vs (gap ++ ']' :: rest))) = some (v :: vs, rest) := by
  have hends : EndsNumber (gap ++ ']' :: rest) :=
    endsNumber_gap hgap (endsNumber_cons (by decide) _)
  induction vs generalizing v n with
  | nil =>
    obtain ⟨n, rfl⟩ := Nat.exists_eq_add_one_of_ne_zero (Nat.ne_zero_of_lt hn)
    have hread := (h v List.mem_cons_self).read hends (Nat.lt_of_succ_lt_succ hn)
    refine readItems_last hread ?_
    rw [skipGap_append hgap, skipGap_cons (by decide)]
  | cons u us ih =>
    obtain ⟨n, rfl⟩ := Nat.exists_eq_add_one_of_ne_zero (Nat.ne_zero_of_lt hn)
    obtain ⟨hv, hus⟩ := List.forall_mem_cons.mp h
    obtain ⟨blank, hcomma, hblank⟩ := exists_comma_eq indent level
    have hread := hv.read (endsNumber_writeItems hends) (Nat.lt_of_succ_lt_succ hn)
    -- the rest of the list is shorter by the item and the comma
    have hlength := hv.length_lt level (writeItems indent level (u :: us) (gap ++ ']' :: rest))
    rw [writeItems, hcomma, List.cons_append] at hn hlength hread ⊢
    rw [readItems_more hread (skipGap_cons (by decide) _), readItems_gap hblank, ih hus]
    · rfl
    · rw [List.length_cons, List.length_append] at hlength
      omega

/-- **A list** is read back if its items are. -/
theorem arr {items : List Json} (h : ∀ v ∈ items, Legible indent v) :
    Legible indent (arr items) := by
  cases items with
  | nil =>
    refine ⟨fun _ _ => ⟨'[', _, rfl, by decide, by decide⟩, ?_, ?_, ?_⟩
    · intro level rest
      rw [writeAt, List.length_cons, List.length_cons]
      omega
    · intro level rest hrest
      exact .cons (by decide) (.cons (by decide) hrest)
    · intro level rest n _ hn
      obtain ⟨n, rfl⟩ := Nat.exists_eq_add_one_of_ne_zero (Nat.ne_zero_of_lt hn)
      rfl
  | cons v vs =>
    obtain ⟨hv, hvs⟩ := List.forall_mem_cons.mp h
    refine ⟨fun _ _ => ⟨'[', _, rfl, by decide, by decide⟩, ?_, ?_, ?_⟩
    · intro level rest
      have hfirst := hv.length_lt (level + 1)
        (writeItems indent (level + 1) vs (lineBreak indent level ++ ']' :: rest))
      have hothers : (lineBreak indent level ++ ']' :: rest).length ≤
          (writeItems indent (level + 1) vs (lineBreak indent level ++ ']' :: rest)).length :=
        length_le_writeItems hvs
      simp only [writeAt, List.length_append, List.length_cons] at hfirst hothers ⊢
      omega
    · intro level rest hrest
      have hend : (lineBreak indent level ++ ']' :: rest).IsAscii :=
        (isAscii_lineBreak _ _).append (.cons (by decide) hrest)
      rw [writeAt]
      refine .append (.cons (by decide) (isAscii_lineBreak _ _)) ?_
      exact hv.isAscii (isAscii_writeItems hvs hend)
    · intro level rest n hrest hn
      obtain ⟨n, rfl⟩ := Nat.exists_eq_add_one_of_ne_zero (Nat.ne_zero_of_lt hn)
      rw [writeAt, List.cons_append] at hn ⊢
      obtain ⟨c, cs, hcs, hgap, hclose⟩ := hv.head (level + 1)
        (writeItems indent (level + 1) vs (lineBreak indent level ++ ']' :: rest))
      have hbound : 2 * (writeAt indent (level + 1) v (writeItems indent (level + 1) vs
          (lineBreak indent level ++ ']' :: rest))).length + 1 < n := by
        simp only [List.length_cons, List.length_append] at hn ⊢
        omega
      have hitems := readItems_writeItems h (isGap_lineBreak indent level) hbound
      rw [hcs] at hitems ⊢
      rw [readValue_list (isGap_lineBreak _ _) hgap hclose, hitems]
      rfl

end

/-! Objects -/

section

variable {f : Text × Json} {fs : List (Text × Json)} {level : Nat} {rest : Text}

theorem isAscii_writeField (hf : Legible indent f.2) (h : rest.IsAscii) :
    (writeField indent level f rest).IsAscii :=
  isAscii_writeString f.1 (.cons (by decide) (.cons (by decide) (hf.isAscii h)))

theorem length_le_writeFields (h : ∀ f ∈ fs, Legible indent f.2) :
    rest.length ≤ (writeFields indent level fs rest).length := by
  induction fs with
  | nil => exact Nat.le_refl _
  | cons f fs ih =>
    obtain ⟨hf, hfs⟩ := List.forall_mem_cons.mp h
    have hrest := ih hfs
    have hlt := hf.length_lt level (writeFields indent level fs rest)
    have hfield := length_lt_writeField indent level f (writeFields indent level fs rest)
    rw [writeFields_cons, List.length_append]
    omega

theorem isAscii_writeFields (h : ∀ f ∈ fs, Legible indent f.2) (hrest : rest.IsAscii) :
    (writeFields indent level fs rest).IsAscii := by
  induction fs with
  | nil => exact hrest
  | cons f fs ih =>
    obtain ⟨hf, hfs⟩ := List.forall_mem_cons.mp h
    exact (isAscii_comma indent level).append (isAscii_writeField hf (ih hfs))

theorem endsNumber_writeFields (h : EndsNumber rest) :
    EndsNumber (writeFields indent level fs rest) := by
  cases fs with
  | nil => exact h
  | cons f fs =>
    obtain ⟨gap, hcomma, -⟩ := exists_comma_eq indent level
    rw [writeFields_cons, hcomma]
    exact endsNumber_cons (by decide) _

/-- **The fields of an object** are read back one by one, up to its end. -/
theorem readFields_writeFields {gap : Text} {n : Nat} (h : ∀ g ∈ f :: fs, Legible indent g.2)
    (hgap : ∀ c ∈ gap, isGap c = true)
    (hn : 2 * (writeField indent level f
      (writeFields indent level fs (gap ++ '\x7d' :: rest))).length + 1 < n) :
    readFields n (writeField indent level f
      (writeFields indent level fs (gap ++ '\x7d' :: rest))) = some (f :: fs, rest) := by
  have hends : EndsNumber (gap ++ '\x7d' :: rest) :=
    endsNumber_gap hgap (endsNumber_cons (by decide) _)
  induction fs generalizing f n with
  | nil =>
    obtain ⟨n, rfl⟩ := Nat.exists_eq_add_one_of_ne_zero (Nat.ne_zero_of_lt hn)
    rw [writeFields] at hn ⊢
    have hvalue : 2 * (writeAt indent level f.2 (gap ++ '\x7d' :: rest)).length < n := by
      have := length_lt_writeField indent level f (gap ++ '\x7d' :: rest)
      omega
    have hread := (h f List.mem_cons_self).read hends hvalue
    refine readFields_last hread ?_
    rw [skipGap_append hgap, skipGap_cons (by decide)]
  | cons g gs ih =>
    obtain ⟨n, rfl⟩ := Nat.exists_eq_add_one_of_ne_zero (Nat.ne_zero_of_lt hn)
    obtain ⟨hf, hgs⟩ := List.forall_mem_cons.mp h
    obtain ⟨blank, hcomma, hblank⟩ := exists_comma_eq indent level
    have hfield := length_lt_writeField indent level f
      (writeFields indent level (g :: gs) (gap ++ '\x7d' :: rest))
    have hlength := hf.length_lt level
      (writeFields indent level (g :: gs) (gap ++ '\x7d' :: rest))
    have hvalue : 2 * (writeAt indent level f.2
        (writeFields indent level (g :: gs) (gap ++ '\x7d' :: rest))).length < n := by omega
    have hread := hf.read (endsNumber_writeFields hends) hvalue
    -- the rest of the object is shorter by the field and the comma
    rw [writeFields_cons, hcomma, List.cons_append] at hn hfield hlength hread ⊢
    rw [readFields_more hread (skipGap_cons (by decide) _), readFields_gap hblank, ih hgs]
    · rfl
    · rw [List.length_cons, List.length_append] at hlength
      omega

/-- **An object** is read back if the values of its fields are. -/
theorem obj {fields : List (Text × Json)} (h : ∀ f ∈ fields, Legible indent f.2) :
    Legible indent (obj fields) := by
  cases fields with
  | nil =>
    refine ⟨fun _ _ => ⟨'\x7b', _, rfl, by decide, by decide⟩, ?_, ?_, ?_⟩
    · intro level rest
      rw [writeAt, List.length_cons, List.length_cons]
      omega
    · intro level rest hrest
      exact .cons (by decide) (.cons (by decide) hrest)
    · intro level rest n _ hn
      obtain ⟨n, rfl⟩ := Nat.exists_eq_add_one_of_ne_zero (Nat.ne_zero_of_lt hn)
      rfl
  | cons f fs =>
    obtain ⟨hf, hfs⟩ := List.forall_mem_cons.mp h
    have hwrite : ∀ level rest, writeAt indent level (.obj (f :: fs)) rest =
        '\x7b' :: (lineBreak indent (level + 1) ++ writeField indent (level + 1) f
          (writeFields indent (level + 1) fs (lineBreak indent level ++ '\x7d' :: rest))) :=
      fun _ _ => rfl
    refine ⟨fun _ _ => ⟨'\x7b', _, rfl, by decide, by decide⟩, ?_, ?_, ?_⟩
    · intro level rest
      have hfield := length_lt_writeField indent (level + 1) f
        (writeFields indent (level + 1) fs (lineBreak indent level ++ '\x7d' :: rest))
      have hfirst := hf.length_lt (level + 1)
        (writeFields indent (level + 1) fs (lineBreak indent level ++ '\x7d' :: rest))
      have hothers : (lineBreak indent level ++ '\x7d' :: rest).length ≤
          (writeFields indent (level + 1) fs (lineBreak indent level ++ '\x7d' :: rest)).length :=
        length_le_writeFields hfs
      simp only [hwrite, List.length_append, List.length_cons] at hothers ⊢
      omega
    · intro level rest hrest
      have hend : (lineBreak indent level ++ '\x7d' :: rest).IsAscii :=
        (isAscii_lineBreak _ _).append (.cons (by decide) hrest)
      rw [hwrite]
      refine .cons (by decide) ((isAscii_lineBreak _ _).append ?_)
      exact isAscii_writeField hf (isAscii_writeFields hfs hend)
    · intro level rest n hrest hn
      obtain ⟨n, rfl⟩ := Nat.exists_eq_add_one_of_ne_zero (Nat.ne_zero_of_lt hn)
      rw [hwrite] at hn ⊢
      have hbound : 2 * (writeField indent (level + 1) f (writeFields indent (level + 1) fs
          (lineBreak indent level ++ '\x7d' :: rest))).length + 1 < n := by
        simp only [List.length_cons, List.length_append] at hn ⊢
        omega
      have hfields := readFields_writeFields h (isGap_lineBreak indent level) hbound
      rw [writeField, writeString] at hfields ⊢
      rw [readValue_object (isGap_lineBreak _ _), hfields]
      rfl

end

end Legible

end Json

end CommandLine
