import CommandLine.Proofs.Attempting
import CommandLine.Proofs.Dispatching
import CommandLine.Proofs.Munching

/-!
# Answers to calls

Every call is answered, whatever it names and whatever its arguments are. The answer is an error
unless the call asks for the list of tools, or for a tool with a command that is a text, is not
blank, is not too long, and has room on the machine. Then it is what the tool makes of the command.
Room is all that reading a command may lack.

* `Call.Accepted` — arguments that a tool is run on.
* `Call.Answered`, `Call.Refused` — what is answered to a call, and what is said against one.
* `Call.answered_or_refused` — there is no other call.
* `Call.Guarded` — only arguments that are turned away hold a command that is no text.
* `Checked.Faultless` — a text that is read with every check, and nothing goes wrong but the room.
* `Call.answer_exact` — what is answered.
* `Call.exists_accepted_refused` — on no machine there is room for every command that is accepted.
-/

namespace CommandLine

/-! ## Names -/

namespace Tool

/-- A tool is found by its name. -/
theorem ofName?_name (tool : Tool) : ofName? tool.name = some tool := by cases tool <;> decide

theorem ofName?_eq_none {name : Text} (h : ∀ tool : Tool, name ≠ tool.name) :
    ofName? name = none := by
  rw [ofName?, List.find?_eq_none]
  intro tool _ heq
  exact h tool (eq_of_beq heq).symm

/-- The tools are named otherwise than the one that lists them. -/
theorem name_ne_listName (tool : Tool) : tool.name ≠ listName := by cases tool <;> decide

/-- A tool that is run does not fail. -/
theorem isError_run (s : Settings) (command : Text) (tool : Tool) :
    (tool.run s command).isError = false := by
  cases tool <;> rfl

end Tool

/-! ## Calls that are answered and calls that are refused -/

namespace Call

section

variable {machine : Machine} {s : Settings} {name command text : Text} {tool : Tool}
  {given : List (Text × Json)}

/-- Arguments that a tool is run on. -/
structure Accepted (s : Settings) (given : List (Text × Json)) (command : Text) : Prop where
  /-- the command is a text -/
  find?_eq : Json.find? "command".toList given = some (.str command)
  /-- it is not blank -/
  exists_not_blank : ∃ c ∈ command, isBlank c = false
  /-- it is not too long -/
  length_le : command.length ≤ s.maxCommandLength

/-- What is answered to a call. -/
inductive Answered (machine : Machine) (s : Settings) (name : Text)
    (given : List (Text × Json)) : Text → Prop where
  /-- the tools are listed -/
  | listing (h : name = Tool.listName) : Answered machine s name given Tool.listing
  /-- a tool is run -/
  | run (tool : Tool) (command : Text) (hname : name = tool.name) (h : Accepted s given command)
      (hroom : tool.Fits (machine tool command) s command) :
      Answered machine s name given (tool.run s command).output

/-- What is said against a call. -/
inductive Refused (machine : Machine) (s : Settings) (name : Text)
    (given : List (Text × Json)) : Text → Prop where
  /-- nothing is listed by that name -/
  | unknown (hlist : name ≠ Tool.listName) (htool : ∀ tool : Tool, name ≠ tool.name) :
      Refused machine s name given ("Unknown tool: ".toList ++ name)
  /-- there is no command -/
  | missing (tool : Tool) (hname : name = tool.name)
      (h : Json.find? "command".toList given = none) :
      Refused machine s name given
        "Input validation error: 'command' is a required property".toList
  /-- the command is no text -/
  | notText (tool : Tool) (value : Json) (hname : name = tool.name)
      (h : Json.find? "command".toList given = some value)
      (hvalue : ∀ command, value ≠ .str command) :
      Refused machine s name given
        ("Input validation error: ".toList ++ value.display ++ " is not of type 'string'".toList)
  /-- the command is blank -/
  | blank (tool : Tool) (command : Text) (hname : name = tool.name)
      (h : Json.find? "command".toList given = some (.str command))
      (hblank : ∀ c ∈ command, isBlank c = true) :
      Refused machine s name given "Error: No command provided".toList
  /-- the command is too long -/
  | tooLong (tool : Tool) (command : Text) (hname : name = tool.name)
      (h : Json.find? "command".toList given = some (.str command))
      (hblank : ∃ c ∈ command, isBlank c = false) (hlength : s.maxCommandLength < command.length) :
      Refused machine s name given ("Error: Command is longer than ".toList ++
        Text.ofNat s.maxCommandLength ++ " characters".toList)
  /-- there is no room for what the tool answers -/
  | hindered (tool : Tool) (command message : Text) (hname : name = tool.name)
      (h : Accepted s given command)
      (hroom : tool.Hindered (machine tool command) s command message) :
      Refused machine s name given message

/-- **There is no other call**: one that is not answered is refused. -/
theorem answered_or_refused (machine : Machine) (s : Settings) (name : Text)
    (given : List (Text × Json)) :
    (∃ text, Answered machine s name given text) ∨ ∃ text, Refused machine s name given text := by
  by_cases hlist : name = Tool.listName
  · exact .inl ⟨_, .listing hlist⟩
  by_cases htool : ∃ tool : Tool, name = tool.name
  · obtain ⟨tool, hname⟩ := htool
    cases hfind : Json.find? "command".toList given with
    | none => exact .inr ⟨_, .missing tool hname hfind⟩
    | some value =>
      by_cases hvalue : ∃ command, value = .str command
      · obtain ⟨command, rfl⟩ := hvalue
        by_cases hblank : ∃ c ∈ command, isBlank c = false
        · rcases Nat.lt_or_ge s.maxCommandLength command.length with hlong | hle
          · exact .inr ⟨_, .tooLong tool command hname hfind hblank hlong⟩
          · have h : Accepted s given command := ⟨hfind, hblank, hle⟩
            rcases tool.fits_or_hindered (machine tool command) s command with hroom | ⟨_, hroom⟩
            · exact .inl ⟨_, .run tool command hname h hroom⟩
            · exact .inr ⟨_, .hindered tool command _ hname h hroom⟩
        · refine .inr ⟨_, .blank tool command hname hfind fun c hc => ?_⟩
          exact Bool.of_not_eq_false fun hfalse => hblank ⟨c, hc, hfalse⟩
      · exact .inr ⟨_, .notText tool value hname hfind fun command h => hvalue ⟨command, h⟩⟩
  · exact .inr ⟨_, .unknown hlist fun tool h => htool ⟨tool, h⟩⟩

/-! ## What becomes of a call

The tool is looked up, and the command must neither be blank nor too long. Each of these steps ends
the call or passes it on. -/

/-- What a call of a tool asks for when the command is a text. -/
theorem request_of_text (h : Json.find? "command".toList given = some (.str command)) :
    Tool.request tool.name given =
      if command.isAllBlank then
        .ok (.answered { output := "Error: No command provided".toList, isError := true })
      else .ok (.run tool command) := by
  rw [Tool.request, if_neg tool.name_ne_listName, Tool.ofName?_name, h]
  rfl

/-- A command that is no text is one that cannot be asked whether it is blank. -/
theorem find?_of_request {value : Json}
    (h : Tool.request tool.name given = .error (.notText value)) :
    Json.find? "command".toList given = some value ∧ ∀ command, value ≠ .str command := by
  rw [Tool.request, if_neg tool.name_ne_listName, Tool.ofName?_name] at h
  cases hfind : Json.find? "command".toList given with
  | none =>
    rw [hfind] at h
    cases h
  | some found =>
    rw [hfind] at h
    cases found with
    | str command =>
      simp only [Option.getD_some] at h
      split at h <;> cases h
    | _ =>
      cases h
      exact ⟨rfl, nofun⟩

theorem handler_of_listing :
    handler machine s Tool.listName given = .ok [Tool.listing] := rfl

theorem handler_of_unknown (hlist : name ≠ Tool.listName) (htool : ∀ tool : Tool, name ≠ tool.name) :
    handler machine s name given = .error ("Unknown tool: ".toList ++ name) := by
  simp only [handler, content, Tool.execute, Tool.request, if_neg hlist,
    Tool.ofName?_eq_none htool]
  rfl

theorem handler_of_blank (h : Json.find? "command".toList given = some (.str command))
    (hblank : ∀ c ∈ command, isBlank c = true) :
    handler machine s tool.name given = .error "Error: No command provided".toList := by
  have hall : command.isAllBlank = true := List.all_eq_true.mpr hblank
  rw [handler, content, Option.getD_some, Tool.execute, request_of_text h, if_pos hall]
  rfl

/-- A command that is not blank is read unless it is too long. -/
theorem handler_of_not_blank (h : Json.find? "command".toList given = some (.str command))
    (hblank : ∃ c ∈ command, isBlank c = false) :
    handler machine s tool.name given =
      if s.maxCommandLength < command.length then
        .error ("Error: Command is longer than ".toList ++ Text.ofNat s.maxCommandLength ++
          " characters".toList)
      else match tool.attempt (machine tool command) s command with
        | .ok result => if result.isError then .error result.output else .ok [result.output]
        | .error f => .error f.message := by
  have hnot : ¬ command.isAllBlank = true := by
    obtain ⟨c, hc, hfalse⟩ := hblank
    intro hall
    rw [List.all_eq_true.mp hall c hc] at hfalse
    cases hfalse
  rw [handler, content, Option.getD_some, Tool.execute, request_of_text h, if_neg hnot]
  by_cases hlong : s.maxCommandLength < command.length
  · simp only [Request.answer, if_pos hlong]
    rfl
  · simp only [Request.answer, if_neg hlong]
    cases tool.attempt (machine tool command) s command with
    | error f => rfl
    | ok result =>
      obtain ⟨output, isError⟩ := result
      cases isError <;> rfl

/-- A command that is accepted is read if there is room for the answer. -/
theorem handler_of_fits (h : Accepted s given command)
    (hroom : tool.Fits (machine tool command) s command) :
    handler machine s tool.name given = .ok [(tool.run s command).output] := by
  rw [handler_of_not_blank h.find?_eq h.exists_not_blank, if_neg (Nat.not_lt.mpr h.length_le),
    Tool.attempt_of_fits hroom]
  simp only [Tool.isError_run, Bool.false_eq_true, if_false]

theorem handler_of_hindered (h : Accepted s given command)
    (hroom : tool.Hindered (machine tool command) s command text) :
    handler machine s tool.name given = .error text := by
  obtain ⟨f, hattempt, hmessage⟩ := Tool.attempt_of_hindered hroom
  rw [handler_of_not_blank h.find?_eq h.exists_not_blank, if_neg (Nat.not_lt.mpr h.length_le),
    hattempt]
  exact congrArg Except.error hmessage

end

/-! ## Answers -/

section

variable {d : Dispatcher} (hd : d.Documented) {machine : Machine} {s : Settings}
  {name command text : Text} {arguments : Option (List (Text × Json))} {content : List Text}

include hd

/-- **A call that is answered** gets the list of tools or what the tool makes of the command. -/
theorem answer_of_answered (h : Answered machine s name (arguments.getD []) text) :
    answer d machine s name arguments = ⟨false, [text]⟩ := by
  cases h with
  | listing hlist =>
    rw [hlist, answer_of_listing hd, handler_of_listing]
    rfl
  | run tool command hname h hroom =>
    rw [hname, answer_of_text hd h.find?_eq, handler_of_fits h hroom]
    rfl

/-- **A call that is refused** gets an error. -/
theorem answer_of_refused (h : Refused machine s name (arguments.getD []) text) :
    answer d machine s name arguments = ⟨true, [text]⟩ := by
  cases h with
  | unknown hlist htool =>
    rw [answer_of_unlisted hd hlist htool, handler_of_unknown hlist htool]
    rfl
  | missing tool hname h => rw [hname, answer_of_missing hd h]
  | notText tool value hname h hvalue => rw [hname, answer_of_notText hd h hvalue]
  | blank tool command hname h hblank =>
    rw [hname, answer_of_text hd h, handler_of_blank h hblank]
    rfl
  | tooLong tool command hname h hblank hlength =>
    rw [hname, answer_of_text hd h, handler_of_not_blank h hblank, if_pos hlength]
    rfl
  | hindered tool command _ hname h hroom =>
    rw [hname, answer_of_text hd h.find?_eq, handler_of_hindered h hroom]
    rfl

/-- The items of an answer that is no error. -/
theorem answer_eq_ok_iff : answer d machine s name arguments = ⟨false, content⟩ ↔
    ∃ text, content = [text] ∧ Answered machine s name (arguments.getD []) text := by
  constructor
  · intro h
    rcases answered_or_refused machine s name (arguments.getD []) with
      ⟨text, hanswered⟩ | ⟨text, hrefused⟩
    · rw [answer_of_answered hd hanswered] at h
      cases h
      exact ⟨text, rfl, hanswered⟩
    · rw [answer_of_refused hd hrefused] at h
      cases h
  · rintro ⟨text, rfl, h⟩
    exact answer_of_answered hd h

/-- The items of an error. -/
theorem answer_eq_error_iff : answer d machine s name arguments = ⟨true, content⟩ ↔
    ∃ text, content = [text] ∧ Refused machine s name (arguments.getD []) text := by
  constructor
  · intro h
    rcases answered_or_refused machine s name (arguments.getD []) with
      ⟨text, hanswered⟩ | ⟨text, hrefused⟩
    · rw [answer_of_answered hd hanswered] at h
      cases h
    · rw [answer_of_refused hd hrefused] at h
      cases h
      exact ⟨text, rfl, hrefused⟩
  · rintro ⟨text, rfl, h⟩
    exact answer_of_refused hd h

omit hd in
theorem exists_answered_iff {given : List (Text × Json)} :
    (∃ text, Answered machine s name given text) ↔ name = Tool.listName ∨
      ∃ (tool : Tool) (command : Text), name = tool.name ∧ Accepted s given command ∧
        tool.Fits (machine tool command) s command := by
  constructor
  · rintro ⟨text, hlist | ⟨tool, command, hname, h, hroom⟩⟩
    · exact .inl hlist
    · exact .inr ⟨tool, command, hname, h, hroom⟩
  · rintro (hlist | ⟨tool, command, hname, h, hroom⟩)
    · exact ⟨_, .listing hlist⟩
    · exact ⟨_, .run tool command hname h hroom⟩

theorem isError_answer_iff : (answer d machine s name arguments).isError = false ↔
    ∃ text, Answered machine s name (arguments.getD []) text := by
  constructor
  · intro h
    obtain ⟨text, -, hanswered⟩ := (answer_eq_ok_iff hd).mp
      (show answer d machine s name arguments = ⟨false, _⟩ by rw [← h])
    exact ⟨text, hanswered⟩
  · rintro ⟨text, h⟩
    rw [answer_of_answered hd h]

end

/-- Arguments with a command that cannot be asked whether it is blank are turned away before. -/
def Guarded (d : Dispatcher) (name : Text) (given : List (Text × Json)) : Prop :=
  ∀ value, Tool.request name given = .error (.notText value) →
    ∃ e ∈ Catalogue.entries, e.name = name ∧ (d.complaint? e.schema given).isSome

theorem guarded {d : Dispatcher} (hd : d.Documented) (name : Text) (given : List (Text × Json)) :
    Guarded d name given := by
  intro value hrequest
  by_cases hlist : name = Tool.listName
  · rw [Tool.request, if_pos hlist] at hrequest
    cases hrequest
  by_cases htool : ∃ tool : Tool, name = tool.name
  · obtain ⟨tool, rfl⟩ := htool
    obtain ⟨hfind, hvalue⟩ := find?_of_request hrequest
    refine ⟨_, Catalogue.mem_entries tool, rfl, ?_⟩
    rw [Catalogue.commandSchema, hd.complaint?_of_notText _ _ _ hfind hvalue]
    rfl
  · rw [Tool.request, if_neg hlist, Tool.ofName?_eq_none fun tool h => htool ⟨tool, h⟩] at hrequest
    cases hrequest

end Call

/-! ## Commands that are read -/

namespace Checked

/-- A text that is read with every check, and nothing goes wrong: no character is missing, no
numbers are refused, no operator has an unknown spelling and no loop runs out of its budget. Only
the lines inside of one another need a budget that is greater than their number. -/
structure Faultless (command : Text) : Prop where
  /-- its tokens are found -/
  tokens?_eq : tokens? command command.length (command.length + 1) 0 = .ok (tokenize command)
  /-- every token of every part of it is read -/
  read_eq : ∀ r : Region, r.source = command → ∀ t ∈ r.tokens,
    text? t = .ok t.text ∧ unclosed? t = .ok t.unclosed? ∧ redirectOp? t = .ok t.redirectOp?
  /-- every redirection in it has a known operator -/
  redirectOp?_eq : ∀ r : Region, r.source = command → ∀ t ∈ r.tokens, t.kind = .redirect →
    ∃ op, t.redirectOp? = some op ∧ op.spelling = t.raw
  /-- its tree is built -/
  tree?_eq : ∀ budget, tree? budget (Region.ofText command) =
    if (Line.ofText command).depth < budget then .ok (Line.ofText command) else .error .unfinished
  /-- its issues are found -/
  diagnose?_eq : ∀ budget, diagnose? budget (Region.ofText command) =
    if (Line.ofText command).depth < budget then .ok (diagnose (Region.ofText command))
    else .error .unfinished
  /-- there is a budget that is enough -/
  depth_le : (Line.ofText command).depth ≤ command.length

theorem faultless (command : Text) : Faultless command where
  tokens?_eq := by
    have hbudget : command.length - 0 < command.length + 1 := Nat.lt_succ_self _
    rw [tokens?_eq (Nat.zero_le _) (Nat.le_refl _) hbudget, Text.slice_self]
    rfl
  read_eq r _ t ht :=
    ⟨text?_eq (stop_le_of_mem_tokens ht), unclosed?_eq (stop_le_of_mem_tokens ht),
      redirectOp?_eq ht⟩
  redirectOp?_eq r _ t ht hk := Token.exists_redirectOp ht hk
  tree?_eq budget := tree?_eq budget _
  diagnose?_eq budget := diagnose?_eq budget _
  depth_le := (Region.ofText command).depth_toLine_le

end Checked

namespace Call

/-- **Every call is answered**, with one text, and the answer is an error exactly if the call asks
neither for the list of tools nor for a tool with a command that is a text, is not blank, is not too
long, and has room on the machine. -/
theorem answer_exact (d : Dispatcher) (hd : d.Documented) (machine : Machine) (s : Settings)
    (name : Text) (arguments : Option (List (Text × Json))) :
    ((answer d machine s name arguments).isError = false ↔ name = Tool.listName ∨
      ∃ (tool : Tool) (command : Text), name = tool.name ∧
        Accepted s (arguments.getD []) command ∧ tool.Fits (machine tool command) s command) ∧
    (∀ content, answer d machine s name arguments = ⟨false, content⟩ ↔
      ∃ text, content = [text] ∧ Answered machine s name (arguments.getD []) text) ∧
    (∀ content, answer d machine s name arguments = ⟨true, content⟩ ↔
      ∃ text, content = [text] ∧ Refused machine s name (arguments.getD []) text) ∧
    Guarded d name (arguments.getD []) ∧
    ∀ command, Checked.Faultless command :=
  ⟨(isError_answer_iff hd).trans exists_answered_iff, fun _ => answer_eq_ok_iff hd,
    fun _ => answer_eq_error_iff hd, guarded hd _ _, Checked.faultless⟩

/-- On a machine with room for three groups inside one another there is an answer to a command of
one group, and none to one of four. -/
theorem answer_exact_plain :
    let machine : Machine := fun _ _ => ⟨3, "too deep".toList, 0⟩
    answer .plain machine {} "check_command_line".toList
        (some [("command".toList, .str "(a)".toList)]) = ⟨false, ["OK".toList]⟩ ∧
      answer .plain machine {} "check_command_line".toList
        (some [("command".toList, .str "((((a))))".toList)]) = ⟨true, ["too deep".toList]⟩ := by
  intro machine
  have haccepted (command : Text) (hmem : 'a' ∈ command) (hlength : command.length ≤ 65536) :
      Accepted {} [("command".toList, .str command)] command :=
    ⟨rfl, ⟨'a', hmem, by decide⟩, hlength⟩
  constructor
  · have hissues : (Checked.diagnose? 4 (Region.ofText "(a)".toList)).toOption = some [] := by
      decide +kernel
    have houtput : (Tool.check.run {} "(a)".toList).output = "OK".toList := by
      rw [Checked.diagnose?_of_length_lt (Nat.lt_succ_self 3)] at hissues
      rw [Tool.run, Tool.checkOutput, Option.some.inj hissues]
    have hfits : Tool.check.Fits (machine .check "(a)".toList) {} "(a)".toList :=
      ⟨fun _ => (Region.ofText "(a)".toList).depth_toLine_le, nofun, nofun⟩
    refine ((answer_exact .plain Dispatcher.documented_plain machine {} _ _).2.1 _).mpr
      ⟨_, rfl, ?_⟩
    rw [← houtput]
    exact .run .check _ rfl (haccepted _ (by decide) (by decide)) hfits
  · have hclosed : Text.Closed ['a'] := ⟨by decide +kernel, by decide +kernel⟩
    have hhindered : Tool.check.Hindered (machine .check (Text.enclose^[4] ['a'])) {}
        (Text.enclose^[4] ['a']) "too deep".toList :=
      Tool.hindered_iterate hclosed (Nat.lt_succ_self 3) nofun
    exact ((answer_exact .plain Dispatcher.documented_plain machine {} _ _).2.2.1 _).mpr
      ⟨_, rfl, .hindered .check _ _ rfl (haccepted _ (by decide) (by decide)) hhindered⟩

/-- **An indentation that is no index** is a setting like any other, but no command is answered in
JSON with it. -/
theorem answer_of_indent_below :
    ∃ s, Sources.load { values := [("json_indent".toList, .int (-9223372036854775809))] } = .ok s ∧
      Accepted s [("command".toList, .str ['a'])] ['a'] ∧
      ∀ d : Dispatcher, d.Documented → ∀ machine : Machine,
        answer d machine s "tokenize_command_line".toList
            (some [("command".toList, .str ['a'])]) =
          ⟨true, ["cannot fit 'int' into an index-sized integer".toList]⟩ := by
  have haccepted : Accepted { jsonIndent := some (-9223372036854775809) }
      [("command".toList, .str ['a'])] ['a'] :=
    ⟨rfl, ⟨'a', List.mem_singleton_self _, by decide⟩, by decide⟩
  refine ⟨_, rfl, haccepted, fun d hd machine => ?_⟩
  exact answer_of_refused hd (.hindered .tokenize _ _ rfl haccepted
    (.notIndex (-9223372036854775809) nofun nofun rfl (by decide)))

/-- **No stack is deep enough.** Where the groups that are gone into are never more than some number,
and commands may be long enough, a command that is accepted is refused. -/
theorem exists_accepted_refused {d : Dispatcher} (hd : d.Documented) {machine : Machine}
    {s : Settings} {tool : Tool} (htool : tool ≠ .tokenize) {n : Nat}
    (hlevels : ∀ command, (machine tool command).levels ≤ n)
    (hlength : 2 * n + 3 ≤ s.maxCommandLength) :
    ∃ command, Accepted s [("command".toList, .str command)] command ∧
      (answer d machine s tool.name
        (some [("command".toList, .str command)])).isError = true := by
  have hclosed : Text.Closed ['a'] := ⟨by decide +kernel, by decide +kernel⟩
  let command := Text.enclose^[n + 1] ['a']
  have haccepted : Accepted s [("command".toList, .str command)] command := by
    refine ⟨rfl, ⟨'(', ?_, by decide⟩, ?_⟩
    · simp [command, Function.iterate_succ_apply', Text.enclose]
    · have hcommand : command.length = 1 + 2 * (n + 1) := Text.length_iterate_enclose _ _
      omega
  have hhindered : tool.Hindered (machine tool command) s command (machine tool command).complaint :=
    Tool.hindered_iterate hclosed (Nat.lt_succ_of_le (hlevels command)) htool
  refine ⟨command, haccepted, ?_⟩
  rw [answer_of_refused hd (.hindered tool command _ rfl haccepted hhindered)]

end Call

end CommandLine
