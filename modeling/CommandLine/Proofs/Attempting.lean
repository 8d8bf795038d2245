import CommandLine.Proofs.Descending
import CommandLine.Proofs.Enclosing
import CommandLine.Tool

/-!
# Room for an answer

A tool answers to a command line if there is room for it: if the groups that it goes into do not
stand too deep inside one another, and the JSON that it writes, with its indentation, is not too
long. Otherwise it fails, and there is only one text for each way to fail.

* `Tool.Fits` — there is room for an answer.
* `Tool.Hindered` — what is said if there is none.
* `Tool.fits_or_hindered` — one of both.
* `Tool.attempt_of_fits`, `Tool.attempt_of_hindered` — what is answered.
* `Tool.hindered_iterate` — in enough parentheses there is never room.
-/

namespace CommandLine

/-! ## Writing -/

/-- An index has 64 bits, one of them for the sign. -/
theorem isIndex_iff {n : Int} :
    IsIndex n ↔ -9223372036854775808 ≤ n ∧ n < 9223372036854775808 := Iff.rfl

namespace Room

variable {room : Room} {indent : Option Int} {v : Json} {n : Int}

theorem hold_of_length_le {t : Text} (h : t.length ≤ room.memory) : room.hold t = .ok t := if_pos h

theorem hold_of_lt_length {t : Text} (h : room.memory < t.length) :
    room.hold t = .error .outOfMemory :=
  if_neg (Nat.not_le.mpr h)

theorem enter_of_le {depth : Nat} (h : depth ≤ room.levels) : room.enter depth = .ok () := if_pos h

theorem enter_of_lt {depth : Nat} (h : room.levels < depth) :
    room.enter depth = .error (.tooDeep room.complaint) :=
  if_neg (Nat.not_le.mpr h)

theorem write_of_not_isIndex (h : ¬IsIndex n) : room.write (some n) v = .error .notIndex := if_pos h

theorem write_of_memory_lt (hindex : IsIndex n) (h : room.memory < n) :
    room.write (some n) v = .error .outOfMemory := by
  rw [write, if_neg (not_not_intro hindex), if_neg (Int.not_le.mpr h)]

/-- With an indentation that there is room for, the text alone counts. -/
theorem write_of_indent (h : ∀ n, indent = some n → IsIndex n ∧ n ≤ room.memory) :
    room.write indent v = room.hold (v.write indent) := by
  cases indent with
  | none => rfl
  | some n =>
    obtain ⟨hindex, hle⟩ := h n rfl
    rw [write, if_neg (not_not_intro hindex), if_pos hle]

end Room

/-! ## Attempts -/

namespace Tool

variable {room : Room} {s : Settings} {command message : Text} {tool : Tool}

/-- There is room for what a tool answers to a command line. -/
structure Fits (room : Room) (s : Settings) (command : Text) (tool : Tool) : Prop where
  /-- the groups do not stand too deep inside one another, if the tool goes into them -/
  depth_le : tool ≠ .tokenize → (Line.ofText command).depth ≤ room.levels
  /-- the indentation is an index and is not too long, if the tool writes JSON -/
  indent : tool ≠ .check → ∀ n, s.jsonIndent = some n →
    (-9223372036854775808 ≤ n ∧ n < 9223372036854775808) ∧ n ≤ room.memory
  /-- neither is the JSON -/
  length_le : tool ≠ .check → (tool.run s command).output.length ≤ room.memory

/-- What is said if there is no room for what a tool answers to a command line. -/
inductive Hindered (room : Room) (s : Settings) (command : Text) (tool : Tool) : Text → Prop where
  /-- the groups stand too deep inside one another -/
  | tooDeep (h : tool ≠ .tokenize) (hdepth : room.levels < (Line.ofText command).depth) :
      Hindered room s command tool room.complaint
  /-- the indentation is no index -/
  | notIndex (n : Int) (h : tool ≠ .check)
      (hdepth : tool = .parse → (Line.ofText command).depth ≤ room.levels)
      (hindent : s.jsonIndent = some n)
      (hindex : ¬(-9223372036854775808 ≤ n ∧ n < 9223372036854775808)) :
      Hindered room s command tool "cannot fit 'int' into an index-sized integer".toList
  /-- the indentation is too long -/
  | longIndent (n : Int) (h : tool ≠ .check)
      (hdepth : tool = .parse → (Line.ofText command).depth ≤ room.levels)
      (hindent : s.jsonIndent = some n)
      (hindex : -9223372036854775808 ≤ n ∧ n < 9223372036854775808)
      (hmemory : room.memory < n) :
      Hindered room s command tool []
  /-- the JSON is too long -/
  | longOutput (h : tool ≠ .check)
      (hdepth : tool = .parse → (Line.ofText command).depth ≤ room.levels)
      (hindent : ∀ n, s.jsonIndent = some n →
        (-9223372036854775808 ≤ n ∧ n < 9223372036854775808) ∧ n ≤ room.memory)
      (hmemory : room.memory < (tool.run s command).output.length) :
      Hindered room s command tool []

/-- **There is room for an answer, or there is not.** -/
theorem fits_or_hindered (room : Room) (s : Settings) (command : Text) (tool : Tool) :
    Fits room s command tool ∨ ∃ message, Hindered room s command tool message := by
  by_cases hdeep : tool ≠ .tokenize ∧ room.levels < (Line.ofText command).depth
  · exact .inr ⟨_, .tooDeep hdeep.1 hdeep.2⟩
  have hdepth (h : tool ≠ .tokenize) : (Line.ofText command).depth ≤ room.levels :=
    Nat.not_lt.mp fun hlt => hdeep ⟨h, hlt⟩
  by_cases hcheck : tool = .check
  · exact .inl ⟨hdepth, fun h => absurd hcheck h, fun h => absurd hcheck h⟩
  have hparse (h : tool = .parse) : (Line.ofText command).depth ≤ room.levels :=
    hdepth (h ▸ nofun)
  by_cases hindex : ∃ n, s.jsonIndent = some n ∧
      ¬(-9223372036854775808 ≤ n ∧ n < 9223372036854775808)
  · obtain ⟨n, hn, hindex⟩ := hindex
    exact .inr ⟨_, .notIndex n hcheck hparse hn hindex⟩
  by_cases hlong : ∃ n, s.jsonIndent = some n ∧ (room.memory : Int) < n
  · obtain ⟨n, hn, hlong⟩ := hlong
    exact .inr ⟨_, .longIndent n hcheck hparse hn (by_contra fun h => hindex ⟨n, hn, h⟩) hlong⟩
  have hindent (n : Int) (hn : s.jsonIndent = some n) :
      (-9223372036854775808 ≤ n ∧ n < 9223372036854775808) ∧ n ≤ room.memory :=
    ⟨by_contra fun h => hindex ⟨n, hn, h⟩, Int.not_lt.mp fun h => hlong ⟨n, hn, h⟩⟩
  rcases Nat.lt_or_ge room.memory (tool.run s command).output.length with hlt | hle
  · exact .inr ⟨_, .longOutput hcheck hparse hindent hlt⟩
  · exact .inl ⟨hdepth, fun _ => hindent, fun _ => hle⟩

/-- A tool that writes JSON fails as the writing does, once it has gone into the groups. -/
theorem attempt_of_ne_check (h : tool ≠ .check)
    (hdepth : tool = .parse → (Line.ofText command).depth ≤ room.levels) :
    ∃ payload, (tool.run s command).output = payload.write s.jsonIndent ∧
      tool.attempt room s command =
        (room.write s.jsonIndent payload).map fun output => { output } := by
  cases tool with
  | parse =>
    refine ⟨parsePayload command, rfl, ?_⟩
    rw [attempt, Room.enter_of_le (hdepth rfl)]
    cases room.write s.jsonIndent (parsePayload command) <;> rfl
  | tokenize =>
    refine ⟨tokenizePayload command, rfl, ?_⟩
    rw [attempt]
    cases room.write s.jsonIndent (tokenizePayload command) <;> rfl
  | check => exact absurd rfl h

/-- **Where there is room** a tool answers. -/
theorem attempt_of_fits (h : Fits room s command tool) :
    tool.attempt room s command = .ok (tool.run s command) := by
  by_cases hcheck : tool = .check
  · subst hcheck
    rw [attempt, Room.enter_of_le (h.depth_le nofun)]
    rfl
  · obtain ⟨payload, houtput, hattempt⟩ :=
      attempt_of_ne_check (s := s) hcheck fun hparse => h.depth_le (hparse ▸ nofun)
    have hlength := h.length_le hcheck
    rw [houtput] at hlength
    rw [hattempt, Room.write_of_indent (h.indent hcheck), Room.hold_of_length_le hlength, ← houtput]
    cases tool <;> rfl

/-- **Where there is none** it fails. -/
theorem attempt_of_hindered (h : Hindered room s command tool message) :
    ∃ f : Failure, tool.attempt room s command = .error f ∧ f.message = message := by
  cases h with
  | tooDeep h hdepth =>
    refine ⟨.tooDeep room.complaint, ?_, rfl⟩
    cases tool with
    | tokenize => exact absurd rfl h
    | _ =>
      rw [attempt, Room.enter_of_lt hdepth]
      rfl
  | notIndex n h hdepth hindent hindex =>
    obtain ⟨payload, -, hattempt⟩ := attempt_of_ne_check (s := s) h hdepth
    rw [hindent, Room.write_of_not_isIndex (mt isIndex_iff.mp hindex)] at hattempt
    exact ⟨.notIndex, hattempt, rfl⟩
  | longIndent n h hdepth hindent hindex hmemory =>
    obtain ⟨payload, -, hattempt⟩ := attempt_of_ne_check (s := s) h hdepth
    rw [hindent, Room.write_of_memory_lt (isIndex_iff.mpr hindex) hmemory] at hattempt
    exact ⟨.outOfMemory, hattempt, rfl⟩
  | longOutput h hdepth hindent hmemory =>
    obtain ⟨payload, houtput, hattempt⟩ := attempt_of_ne_check (s := s) h hdepth
    rw [houtput] at hmemory
    rw [Room.write_of_indent hindent, Room.hold_of_lt_length hmemory] at hattempt
    exact ⟨.outOfMemory, hattempt, rfl⟩

/-- A text in enough parentheses is too deep for a tool that goes into them. -/
theorem hindered_iterate {t : Text} (ht : t.Closed) {n : Nat} (hlevels : room.levels < n)
    (h : tool ≠ .tokenize) :
    Hindered room s (Text.enclose^[n] t) tool room.complaint :=
  .tooDeep h (Nat.lt_of_lt_of_le hlevels (ht.le_depth_iterate n (Text.slice_self _)))

end Tool

end CommandLine
