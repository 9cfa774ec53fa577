/-
  PROTOCOL — the command line of the terminal client (`tui/parser.rs`).

  `command_line_round_trips`: arguments that are not empty and have no double quote, each
  in double quotes and with any spaces between them, are read back as they were. The parts of any
  input are not empty and together are the input without its double quotes and without the spaces
  outside of them. A spawn or install command is read back from what is written for it.
-/
import Avix.Lib.Str

namespace Avix.Tui

open Lib List

inductive ParsedCommand where
  | quit
  | connect
  | spawn (name goal : String)
  | kill (pid : UInt64)
  | help
  | toggleLogs
  | toggleNotifications
  | toggleNewAgentForm
  | invalid (s : String)
  | catalog
  | installAgent (source : String)
  | installService (source : String)
  deriving DecidableEq, Repr

/-- `str::trim` -/
def trim (s : String) : String :=
  String.ofList ((s.toList.dropWhile isWhitespace).rdropWhile isWhitespace)

/-- `str::parse::<u64>`: a plus sign may stand in front of the digits. -/
def parseU64 (s : String) : Option UInt64 :=
  let digits := (dropPrefix s (if startsWith s "+" then "+" else "")).toList
  let n := digits.foldl (fun n c => n * 10 + (c.toNat - '0'.toNat)) 0
  if digits ≠ [] ∧ digits.all Char.isDigit ∧ n < 2 ^ 64 then some (.ofNat n) else none

/-- The variables of the loop of `parse_quoted`. -/
structure Quoting where
  parts : List (List Char) := []
  current : List Char := []
  inQuotes : Bool := false

namespace Quoting

variable (s : Quoting)

def flush : Quoting :=
  if s.current = [] then s else { s with parts := s.parts ++ [s.current], current := [] }

def read (ch : Char) : Quoting :=
  if ch = '"' then { s with inQuotes := !s.inQuotes }
  else if ch = ' ' ∧ s.inQuotes = false then s.flush
  else { s with current := s.current ++ [ch] }

end Quoting

def parseQuoted (input : String) : List String :=
  (input.toList.foldl Quoting.read {}).flush.parts.map String.ofList

/-- The command that the parts of an input are. -/
def commandOf (trimmed : String) : List String → Except String ParsedCommand
  | ["quit"] | ["q"] => .ok .quit
  | ["connect"] | ["c"] => .ok .connect
  | ["help"] | ["h"] | ["?"] => .ok .help
  | ["logs"] | ["log"] => .ok .toggleLogs
  | ["notifs"] | ["notifications"] | ["n"] => .ok .toggleNotifications
  | ["new-agent-form"] | ["new"] | ["f"] => .ok .toggleNewAgentForm
  | ["catalog"] => .ok .catalog
  | ["kill", pid] =>
    match parseU64 pid with
    | some pid => .ok (.kill pid)
    | none => .error "kill requires a valid PID (number)"
  | ["spawn", name, goal] =>
    if name = "" ∨ goal = "" then .error "spawn requires name and goal"
    else .ok (.spawn name goal)
  | ["install", target, source] =>
    if source = "" then .error "install requires a source"
    else if target = "agent" then .ok (.installAgent source)
    else if target = "service" then .ok (.installService source)
    else .error ("Unknown install target: " ++ target ++ ". Use 'agent' or 'service'")
  | _ => .error ("Unknown command: " ++ trimmed)

def parse (input : String) : Except String ParsedCommand :=
  if startsWith input "/" then
    let trimmed := trim (dropPrefix input "/")
    if trimmed = "" then .error "Empty command" else commandOf trimmed (parseQuoted trimmed)
  else .error "Command must start with '/'"

/-! ## Statement -/

/-- An argument, and the spaces before it but one. -/
structure Argument where
  text : String
  gap : Nat
  nonempty : text ≠ ""
  noQuote : '"' ∉ text.toList

def Argument.write (a : Argument) : List Char := '"' :: (a.text.toList ++ ['"'])

/-- The arguments, each after its spaces. -/
def writeAfter (args : List Argument) : List Char :=
  args.flatMap fun a => replicate (a.gap + 1) ' ' ++ a.write

def writeAll : List Argument → List Char
  | [] => []
  | a :: args => a.write ++ writeAfter args

/-- The text without double quotes, and without spaces outside of them. -/
def withoutQuotes : Bool → List Char → List Char
  | _, [] => []
  | inQuotes, c :: l =>
    if c = '"' then withoutQuotes (!inQuotes) l
    else if c = ' ' ∧ inQuotes = false then withoutQuotes inQuotes l
    else c :: withoutQuotes inQuotes l

structure RoundTrips : Prop where
  arguments : ∀ args, parseQuoted (String.ofList (writeAll args)) = args.map (·.text)
  nonempty : ∀ input, ∀ part ∈ parseQuoted input, part ≠ ""
  concat : ∀ input, (parseQuoted input).flatMap String.toList = withoutQuotes false input.toList
  spawn : ∀ name goal : Argument,
    parse ("/spawn" ++ String.ofList (writeAfter [name, goal])) = .ok (.spawn name.text goal.text)
  installAgent : ∀ source : Argument,
    parse ("/install agent" ++ String.ofList (writeAfter [source])) =
      .ok (.installAgent source.text)
  installService : ∀ source : Argument,
    parse ("/install service" ++ String.ofList (writeAfter [source])) =
      .ok (.installService source.text)

/-! ## What the loop reads -/

section Reading

variable {parts : List (List Char)} {current l : List Char} (a : Argument) (args : List Argument)

theorem foldl_read_quoted (h : '"' ∉ l) :
    l.foldl Quoting.read ⟨parts, current, true⟩ = ⟨parts, current ++ l, true⟩ := by
  induction l generalizing current with
  | nil => rw [append_nil]; rfl
  | cons c l ih =>
    rw [mem_cons, not_or] at h
    have hread : Quoting.read ⟨parts, current, true⟩ c = ⟨parts, current ++ [c], true⟩ := by
      rw [Quoting.read, if_neg (Ne.symm h.1), if_neg nofun]
    rw [foldl_cons, hread, ih h.2, append_assoc, singleton_append]

theorem foldl_read_write :
    a.write.foldl Quoting.read ⟨parts, [], false⟩ = ⟨parts, a.text.toList, false⟩ := by
  have htext : a.text.toList.foldl Quoting.read ⟨parts, [], true⟩ = _ := foldl_read_quoted a.noQuote
  rw [Argument.write, foldl_cons, foldl_append,
    show Quoting.read ⟨parts, [], false⟩ '"' = ⟨parts, [], true⟩ from rfl, htext]
  rfl

theorem foldl_read_gap (h : current ≠ []) (n : Nat) :
    (replicate (n + 1) ' ').foldl Quoting.read ⟨parts, current, false⟩ =
      ⟨parts ++ [current], [], false⟩ := by
  have hfirst : Quoting.read ⟨parts, current, false⟩ ' ' = ⟨parts ++ [current], [], false⟩ :=
    if_neg h
  rw [replicate_succ, foldl_cons, hfirst]
  induction n with
  | zero => rfl
  | succ n ih => exact ih

theorem flush_foldl_writeAfter (h : current ≠ []) :
    ((writeAfter args).foldl Quoting.read ⟨parts, current, false⟩).flush.parts =
      parts ++ current :: args.map (·.text.toList) := by
  induction args generalizing parts current with
  | nil => exact congrArg Quoting.parts (if_neg h)
  | cons a args ih =>
    rw [writeAfter, flatMap_cons, foldl_append, foldl_append, foldl_read_gap h, foldl_read_write]
    exact (ih (mt String.toList_eq_nil_iff.mp a.nonempty)).trans (append_assoc _ _ _)

theorem parseQuoted_append (h : current ≠ [])
    (hread : l.foldl Quoting.read {} = ⟨parts, current, false⟩) :
    parseQuoted (String.ofList (l ++ writeAfter args)) =
      (parts ++ [current]).map String.ofList ++ args.map (·.text) := by
  rw [parseQuoted, String.toList_ofList, foldl_append, hread, flush_foldl_writeAfter args h]
  simp

theorem parseQuoted_writeAll : parseQuoted (String.ofList (writeAll args)) = args.map (·.text) := by
  cases args with
  | nil => rfl
  | cons a args =>
    rw [writeAll, parseQuoted_append args (mt String.toList_eq_nil_iff.mp a.nonempty)
      (foldl_read_write a)]
    simp

theorem flush_spec {s : Quoting} (h : [] ∉ s.parts) : [] ∉ s.flush.parts ∧
    s.flush.parts.flatten = s.parts.flatten ++ s.current ∧ s.flush.current = [] ∧
      s.flush.inQuotes = s.inQuotes := by
  unfold Quoting.flush
  split_ifs with hcur
  · exact ⟨h, by rw [hcur, append_nil], hcur, rfl⟩
  · exact ⟨by simp [h, Ne.symm hcur], by simp, rfl, rfl⟩

/-- No part is empty, and nothing but quotes and spaces is lost. -/
theorem foldl_read_concat {s : Quoting} (h : [] ∉ s.parts) (l : List Char) :
    [] ∉ (l.foldl Quoting.read s).flush.parts ∧ (l.foldl Quoting.read s).flush.parts.flatten =
      s.parts.flatten ++ s.current ++ withoutQuotes s.inQuotes l := by
  induction l generalizing s with
  | nil =>
    rw [withoutQuotes, append_nil]
    exact ⟨(flush_spec h).1, (flush_spec h).2.1⟩
  | cons c l ih =>
    rw [foldl_cons, Quoting.read, withoutQuotes]
    split_ifs with hquote hspace
    · exact ih h
    · obtain ⟨hparts, hflat, hcur, hq⟩ := flush_spec h
      have hrest := ih hparts
      rwa [hflat, hcur, hq, append_nil] at hrest
    · have hrest := @ih { s with current := s.current ++ [c] } h
      simpa using hrest

theorem parseQuoted_concat (input : String) : (∀ part ∈ parseQuoted input, part ≠ "") ∧
    (parseQuoted input).flatMap String.toList = withoutQuotes false input.toList := by
  obtain ⟨hparts, hflat⟩ := @foldl_read_concat {} not_mem_nil input.toList
  constructor
  · intro part hpart hempty
    obtain ⟨l, hl, rfl⟩ := mem_map.mp hpart
    rw [String.ofList_eq_empty_iff] at hempty
    exact hparts (hempty ▸ hl)
  · rw [parseQuoted, flatMap_map]
    simpa [flatMap_def] using hflat

/-- A line that starts with a letter and ends with an argument loses nothing when it is trimmed. -/
theorem trim_append {c : Char} (h : isWhitespace c = false) :
    trim (String.ofList (c :: l ++ writeAfter (args ++ [a]))) =
      String.ofList (c :: l ++ writeAfter (args ++ [a])) := by
  have hlast : (c :: l ++ writeAfter (args ++ [a])).rdropWhile isWhitespace = _ :=
    rdropWhile_eq_self_iff.mpr fun _ => by simp [writeAfter, Argument.write, isWhitespace]
  rw [trim, String.toList_ofList, cons_append, dropWhile_cons_of_neg (by simp [h]), ← cons_append,
    hlast]

theorem parse_append (c : Char) (l : List Char) (hc : isWhitespace c = false) (h : current ≠ [])
    (hread : (c :: l).foldl Quoting.read {} = ⟨parts, current, false⟩) :
    ∃ trimmed, parse (String.ofList ('/' :: c :: l) ++ String.ofList (writeAfter (args ++ [a]))) =
      commandOf trimmed ((parts ++ [current]).map String.ofList ++ (args ++ [a]).map (·.text)) := by
  refine ⟨String.ofList (c :: l ++ writeAfter (args ++ [a])), ?_⟩
  have hdrop (w : List Char) : dropPrefix (String.ofList ('/' :: c :: l) ++ String.ofList w) "/" =
      String.ofList (c :: l ++ w) := by
    simp [dropPrefix]
  rw [parse, if_pos (by simp [startsWith]), hdrop, trim_append a args hc]
  dsimp only
  rw [if_neg (by simp), parseQuoted_append _ h hread]

end Reading

theorem command_line_round_trips : RoundTrips where
  arguments := parseQuoted_writeAll
  nonempty input := (parseQuoted_concat input).1
  concat input := (parseQuoted_concat input).2
  spawn name goal := by
    obtain ⟨_, h⟩ := parse_append goal [name] 's' "pawn".toList rfl (by decide) rfl
    exact h.trans (if_neg (not_or.mpr ⟨name.nonempty, goal.nonempty⟩))
  installAgent source := by
    obtain ⟨_, h⟩ := parse_append source [] 'i' "nstall agent".toList rfl (by decide) rfl
    exact h.trans (if_neg source.nonempty)
  installService source := by
    obtain ⟨_, h⟩ := parse_append source [] 'i' "nstall service".toList rfl (by decide) rfl
    exact h.trans (if_neg source.nonempty)

/-! ## Reading twice -/

theorem not_mem_withoutQuotes (q : Bool) (l : List Char) : '"' ∉ withoutQuotes q l := by
  induction l generalizing q with
  | nil => exact not_mem_nil
  | cons c l ih =>
    unfold withoutQuotes
    split_ifs with hquote
    · exact ih _
    · exact ih q
    · exact not_mem_cons_of_ne_of_not_mem (Ne.symm hquote) (ih q)

/-- The parts of an input, to be written in quotes. -/
def requoted (input : String) : List Argument :=
  (parseQuoted input).attach.map fun part => ⟨part.1, 0, (parseQuoted_concat input).1 _ part.2,
    fun hquote => not_mem_withoutQuotes false input.toList <|
      (parseQuoted_concat input).2 ▸ mem_flatMap.mpr ⟨_, part.2, hquote⟩⟩

/-- Writing the parts of any input in quotes and reading them again changes nothing. -/
theorem parse_requoted (input : String) :
    parseQuoted (String.ofList (writeAll (requoted input))) = parseQuoted input := by
  rw [parseQuoted_writeAll, requoted, map_map]
  exact attach_map_subtype_val _

end Avix.Tui
