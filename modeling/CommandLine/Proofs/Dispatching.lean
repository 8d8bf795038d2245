import CommandLine.Tool.Call

/-!
# Answers of a documented library

Of the library between clients and tools only what is documented is used: which arguments it
complains of, in which words, and what it makes of the outcome of a call. What becomes of a call of
the tools then depends on nothing else.

* `Dispatcher.documented_plain` — there is a library as it is documented.
* `Call.answer_of_missing`, `Call.answer_of_notText` — calls that are not made.
* `Call.answer_of_text`, `Call.answer_of_unlisted` — calls that are made.
-/

namespace CommandLine

namespace Dispatcher

/-! ## A library as it is documented -/

section

variable {schema : InputSchema} {given : List (Text × Json)} {entries : List ToolEntry}
  {e : ToolEntry}

/-- Nothing is wrong exactly if every argument is given and is a text. -/
theorem firstComplaint?_eq_none_iff : firstComplaint? schema given = none ↔
    ∀ a ∈ schema.arguments, ∃ t, Json.find? a.name given = some (.str t) := by
  simp only [firstComplaint?, Option.or_eq_none_iff, List.findSome?_eq_none_iff]
  constructor
  · rintro ⟨hwrong, hmissing⟩ a ha
    have hwrong := hwrong a ha
    have hmissing := hmissing a ha
    cases hfind : Json.find? a.name given with
    | none => simp [hfind] at hmissing
    | some value => cases value <;> simp [hfind] at hwrong ⊢
  · intro h
    refine ⟨fun a ha => ?_, fun a ha => ?_⟩ <;>
      · obtain ⟨t, ht⟩ := h a ha
        simp [ht]

theorem find?_of_nodup (hnodup : (entries.map ToolEntry.name).Nodup) (he : e ∈ entries) :
    (entries.find? fun e' => e'.name == e.name) = some e := by
  induction entries with
  | nil => cases he
  | cons a entries ih =>
    obtain ⟨hne, hnodup⟩ := List.nodup_cons.mp hnodup
    rcases List.mem_cons.mp he with rfl | he
    · exact List.find?_cons_of_pos (beq_self_eq_true e.name)
    · have hname : a.name ≠ e.name := fun h => hne (h ▸ List.mem_map_of_mem he)
      rw [List.find?_cons_of_neg (by simpa using hname)]
      exact ih hnodup he

end

/-- **There is such a library.** -/
theorem documented_plain : plain.Documented where
  complaint?_eq_none_iff _ _ := firstComplaint?_eq_none_iff
  complaint?_of_missing a given h := by simp [plain, firstComplaint?, h]
  complaint?_of_notText a given value h hvalue := by
    cases value with
    | str t => exact absurd rfl (hvalue t)
    | _ => simp [plain, firstComplaint?, h]
  answer_of_unlisted entries handler name arguments h := by
    have hfind : (entries.find? fun e => e.name == name) = none :=
      List.find?_eq_none.mpr fun e he heq => h e he (eq_of_beq heq)
    simp only [plain, hfind]
  answer_of_complaint entries handler e arguments complaint hnodup he h := by
    change firstComplaint? e.schema (arguments.getD []) = some complaint at h
    simp only [plain, find?_of_nodup hnodup he, h]
  answer_of_valid entries handler e arguments hnodup he h := by
    change firstComplaint? e.schema (arguments.getD []) = none at h
    simp only [plain, find?_of_nodup hnodup he, h]

end Dispatcher

/-! ## The tools as they are listed -/

namespace Catalogue

theorem nodup_name_entries : (entries.map ToolEntry.name).Nodup := by decide

theorem mem_entries (tool : Tool) : ⟨tool.name, description tool, commandSchema⟩ ∈ entries := by
  cases tool <;> simp [entries, Tool.all]

theorem listing_mem_entries :
    ⟨Tool.listName, "List all available shellscan tools".toList, ⟨[]⟩⟩ ∈ entries := by
  simp [entries]

/-- Nothing else is listed. -/
theorem name_ne_of_mem_entries {name : Text} (hlist : name ≠ Tool.listName)
    (htool : ∀ tool : Tool, name ≠ tool.name) {e : ToolEntry} (he : e ∈ entries) :
    e.name ≠ name := by
  rw [entries, List.mem_append, List.mem_map, List.mem_singleton] at he
  rcases he with ⟨tool, -, rfl⟩ | rfl
  · exact (htool tool).symm
  · exact hlist.symm

end Catalogue

/-! ## Calls -/

namespace Call

variable {d : Dispatcher} (hd : d.Documented) {machine : Machine} {s : Settings} {name : Text}
  {tool : Tool} {arguments : Option (List (Text × Json))}

include hd

/-- A call of a tool is not made without a command. -/
theorem answer_of_missing (h : Json.find? "command".toList (arguments.getD []) = none) :
    answer d machine s tool.name arguments =
      ⟨true, ["Input validation error: 'command' is a required property".toList]⟩ :=
  hd.answer_of_complaint _ _ _ arguments _ Catalogue.nodup_name_entries (Catalogue.mem_entries tool)
    (hd.complaint?_of_missing _ _ h)

/-- It is not made with a command that is no text. -/
theorem answer_of_notText {value : Json}
    (h : Json.find? "command".toList (arguments.getD []) = some value)
    (hvalue : ∀ command, value ≠ .str command) :
    answer d machine s tool.name arguments = ⟨true,
      ["Input validation error: ".toList ++ value.display ++ " is not of type 'string'".toList]⟩ := by
  rw [List.append_assoc]
  exact hd.answer_of_complaint _ _ _ arguments _ Catalogue.nodup_name_entries
    (Catalogue.mem_entries tool) (hd.complaint?_of_notText _ _ _ h hvalue)

/-- It is made with a text. -/
theorem answer_of_text {command : Text}
    (h : Json.find? "command".toList (arguments.getD []) = some (.str command)) :
    answer d machine s tool.name arguments =
      .ofOutcome (handler machine s tool.name (arguments.getD [])) := by
  refine hd.answer_of_valid _ _ _ arguments Catalogue.nodup_name_entries
    (Catalogue.mem_entries tool) ((hd.complaint?_eq_none_iff _ _).mpr ?_)
  intro a ha
  rw [List.mem_singleton.mp ha]
  exact ⟨command, h⟩

/-- A call for the list of tools is made with any arguments. -/
theorem answer_of_listing : answer d machine s Tool.listName arguments =
    .ofOutcome (handler machine s Tool.listName (arguments.getD [])) :=
  hd.answer_of_valid _ _ _ arguments Catalogue.nodup_name_entries Catalogue.listing_mem_entries
    ((hd.complaint?_eq_none_iff _ _).mpr nofun)

/-- So is one by a name that is not listed. -/
theorem answer_of_unlisted (hlist : name ≠ Tool.listName) (htool : ∀ tool : Tool, name ≠ tool.name) :
    answer d machine s name arguments = .ofOutcome (handler machine s name (arguments.getD [])) :=
  hd.answer_of_unlisted _ _ name arguments fun _ => Catalogue.name_ne_of_mem_entries hlist htool

end Call

end CommandLine
