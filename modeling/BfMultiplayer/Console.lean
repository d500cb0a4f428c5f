import BfMultiplayer.AsciiText
import BfMultiplayer.ClientSearch
import BfMultiplayer.GuardedRuns
import BfMultiplayer.SaveRestarts
import Mathlib.Data.List.Nodup

/-!
# The console of the server

A line is split at its spaces, and its first word names the command. An empty
line, and the end of the input, are split into no words at all, of which the
first one is read all the same.
-/

namespace BfMultiplayer.Console

open ByteBuffer Packets ServerState ServerHandlers SaveFile SaveRestarts AsciiText GuardedRuns
open ClientSearch

/-- What the console reads. -/
inductive Input where
  /-- A line, without its end. -/
  | line (text : CString)
  /-- The end of the input. -/
  | endOfInput

/-- `std::getline` from the input, to a new string. -/
def readLine : Input → CString
  | .line text => text
  | .endOfInput => []

/-- The delimiter of words. -/
def space : UInt8 := 32

/-- The loop of `split`, with what has been extracted of the next word. A delimiter at the end is
not followed by another word. -/
def splitLoop (delim : UInt8) : Option CString → CString → List CString
  | none, [] => []
  | some word, [] => [word]
  | word, byte :: rest =>
    if byte = delim then word.getD [] :: splitLoop delim none rest
    else splitLoop delim (some (word.getD [] ++ [byte])) rest

/-- `split`. -/
def split (str : CString) (delim : UInt8) : List CString := splitLoop delim none str

/-- An argument of `printf`. -/
inductive Argument where
  /-- `%s` of a string. -/
  | text (bytes : CString)
  /-- `%s` of `InetNtoa`. -/
  | host (address : UInt32)
  /-- `%d`. -/
  | int (value : ℤ)
  /-- `PE_PRINT_UUID`. -/
  | uid (uid : Uid)
  deriving DecidableEq

/-- What a command does to the outside. -/
inductive ConsoleEffect where
  /-- `printf`. -/
  | printf (format : String) (arguments : List Argument)
  /-- `ServerSaveData::save` of these values. -/
  | save (data : ServerSaveData)
  /-- `sendPacketToAll` of a `ToC_GoalItemInfo`. -/
  | goalItemInfo (packet : ToC_GoalItemInfo)
  /-- `sendPacketToAllExcept` of a `ToC_CheatPacket` of type `Teleport`, to one of the peers. -/
  | teleport (peer : ENetPeer) (trans : Vector3f)

/-- How a command can go wrong. -/
inductive Failure where
  /-- An element that the arguments do not have is read. -/
  | noElement
  /-- `ServerSaveData::reset` goes wrong. -/
  | reset (error : LoadError)

/-- `args[i]`. -/
def readElement (args : List CString) (i : ℕ) : Except Failure CString :=
  match args[i]? with
  | some element => .ok element
  | none => .error .noElement

/-- What a command leaves: the server and its effects. -/
abbrev CommandResult := Except Failure (Server × List ConsoleEffect)

/-- The texts of a `Command`. -/
structure CommandText where
  /-- `name`. -/
  name : String
  /-- `description`. -/
  description : String
  /-- `syntax`. -/
  syntaxText : String

/-- A `Command`. -/
structure Command extends CommandText where
  /-- `func`. -/
  func : SaveFiles → Server → List CString → CommandResult

/-- The texts of `help`. -/
def helpText : CommandText := ⟨"help", "Shows this menu", ""⟩

/-- The texts of `list`. -/
def listText : CommandText := ⟨"list", "Shows the list of clients", ""⟩

/-- The texts of `save`. -/
def saveText : CommandText := ⟨"save", "Saves save data", ""⟩

/-- The texts of `resetsave`. -/
def resetsaveText : CommandText := ⟨"resetsave", "Resets save data", ""⟩

/-- The texts of `setshines`. -/
def setshinesText : CommandText := ⟨"setshines", "Set amount of shines", "<amount>"⟩

/-- The texts of `tpall`. -/
def tpallText : CommandText := ⟨"tpall", "Teleport all players to specified player", "<player>"⟩

/-- The texts of all commands. -/
def commandTexts : List CommandText :=
  [helpText, listText, saveText, resetsaveText, setshinesText, tpallText]

/-- `help`. -/
def help (_ : SaveFiles) (s : Server) (_ : List CString) : CommandResult :=
  .ok (s, .printf "Help Menu\n=========\n" [] :: commandTexts.flatMap fun cmd =>
    [.printf "  %s: %s\n" [.text (ascii cmd.name), .text (ascii cmd.description)],
      .printf "    Syntax: %s %s\n" [.text (ascii cmd.name), .text (ascii cmd.syntaxText)]])

/-- `list`. -/
def list (_ : SaveFiles) (s : Server) (_ : List CString) : CommandResult :=
  .ok (s, s.mClients.flatMap fun entry =>
    [.printf "%s:\n" [.text (nameOf entry.client)],
      .printf "  Connection: %s:%d\n" [.host entry.client.mPeer.address.host,
        .int entry.client.mPeer.address.port.toNat],
      .printf "  User ID: " [], .printf "%s" [.uid entry.client.mUid], .printf "\n" []])

/-- `save`. -/
def saveCommand (_ : SaveFiles) (s : Server) (_ : List CString) : CommandResult :=
  .ok (s, [.save s.mSaveData])

/-- `resetsave`. -/
def resetsave (files : SaveFiles) (s : Server) (_ : List CString) : CommandResult :=
  match reset files s.mSaveData with
  | .ok data => .ok ({ s with mSaveData := data },
      [.save data, .printf "Successfully reset save data\n" []])
  | .error error => .error (.reset error)

/-- The progress with another number of shines. -/
def withShines (data : ServerSaveData) (amount : ℤ) : ServerSaveData :=
  { data with numCollectedGoalItems := amount }

/-- `setshines`. -/
def setshines (_ : SaveFiles) (s : Server) (args : List CString) : CommandResult :=
  if args.length ≠ 2 then .ok (s, [.printf "setshines <amount>\n" []])
  else do
    let argument ← readElement args 1
    match stoi (cstr argument) with
    | none => return (s, [.printf "%s is not a number!" [.text (cstr argument)]])
    | some amount =>
      return ({ s with mSaveData := withShines s.mSaveData amount },
        [.save (withShines s.mSaveData amount),
          .goalItemInfo ⟨Uid.zero, amount, false, none, none⟩,
          .printf "Set shine count to %d\n" [.int amount]])

/-- `tpall`. -/
def tpall (_ : SaveFiles) (s : Server) (args : List CString) : CommandResult :=
  if args.length ≠ 2 then .ok (s, [.printf "tpall <player>\n" []])
  else do
    let argument ← readElement args 1
    match searchClient (cstr argument) s.mClients with
    | none => return (s, [.printf "No player found with query \"%s\"\n" [.text (cstr argument)]])
    | some player =>
      return (s, ((s.mClients.filter fun node => node.ptr != player.ptr).map fun node =>
          .teleport node.client.mPeer player.client.mTrans) ++
        [.printf "Teleported all players to %s\n" [.text (nameOf player.client)]])

/-- `sCommands`. -/
def sCommands : List Command :=
  [⟨helpText, help⟩, ⟨listText, list⟩, ⟨saveText, saveCommand⟩, ⟨resetsaveText, resetsave⟩,
    ⟨setshinesText, setshines⟩, ⟨tpallText, tpall⟩]

/-- What `processCommand` has done. -/
structure Processed where
  /-- The commands whose functions were called. -/
  calls : List String
  /-- The server and the effects, unless something went wrong. -/
  result : CommandResult

/-- The report of an unknown command. -/
def unknownCommand : ConsoleEffect := .printf "Unknown command. Type 'help' for help.\n" []

/-- The loop of `processCommand` over some commands. -/
def processLoop (files : SaveFiles) (s : Server) (args : List CString) : List Command → Processed
  | [] => ⟨[], .ok (s, [unknownCommand])⟩
  | cmd :: cmds =>
    match readElement args 0 with
    | .error failure => ⟨[], .error failure⟩
    | .ok first =>
      if ascii cmd.name = first then ⟨[cmd.name], cmd.func files s args⟩
      else processLoop files s args cmds

/-- `processCommand`. -/
def processCommand (files : SaveFiles) (s : Server) (args : List CString) : Processed :=
  processLoop files s args sCommands

/-- A round of `threadFunc`. -/
def threadRound (files : SaveFiles) (s : Server) (input : Input) : Processed :=
  processCommand files s (split (readLine input) space)

/-- The first word of a line: what is in front of its first space. -/
def firstWord (line : CString) : CString := line.takeWhile (· ≠ space)

/-- The console accepts an input: it reads only elements that the arguments have, and calls the
command that the first word names or, when it names none, reports that and leaves the server. -/
structure AcceptsInput (files : SaveFiles) (s : Server) (input : Input) : Prop where
  /-- All elements that are read are there. -/
  elements : (threadRound files s input).result ≠ .error .noElement
  /-- The command of the first word is called, and no other one. -/
  known : ∀ cmd ∈ sCommands, ascii cmd.name = firstWord (readLine input) →
    (threadRound files s input).calls = [cmd.name]
  /-- Without one, that is reported and nothing else happens. -/
  unknown : (∀ cmd ∈ sCommands, ascii cmd.name ≠ firstWord (readLine input)) →
    (threadRound files s input).calls = [] ∧
      (threadRound files s input).result = .ok (s, [unknownCommand])

/-- The first word that the loop extracts. -/
theorem head_splitLoop (delim : UInt8) (word : Option CString) (str : CString)
    (h : word.isSome ∨ str ≠ []) :
    (splitLoop delim word str).head? = some (word.getD [] ++ str.takeWhile (· ≠ delim)) := by
  induction str generalizing word with
  | nil =>
    cases word with
    | none => exact absurd rfl (h.resolve_left Bool.false_ne_true)
    | some word =>
      rw [splitLoop, List.takeWhile_nil, List.append_nil]
      rfl
  | cons byte rest ih =>
    have hstep : splitLoop delim word (byte :: rest) =
        if byte = delim then word.getD [] :: splitLoop delim none rest
        else splitLoop delim (some (word.getD [] ++ [byte])) rest := by
      cases word <;> rfl
    rw [hstep]
    by_cases hbyte : byte = delim
    · rw [if_pos hbyte, List.takeWhile_cons_of_neg (by simpa using hbyte), List.append_nil]
      rfl
    · rw [if_neg hbyte, ih _ (Or.inl rfl), List.takeWhile_cons_of_pos (by simpa using hbyte),
        Option.getD_some, List.append_assoc]
      rfl

/-- A line that is not empty has its first word as the first element. -/
theorem readElement_split {line : CString} (h : line ≠ []) :
    readElement (split line space) 0 = .ok (firstWord line) := by
  have hhead := head_splitLoop space none line (Or.inr h)
  rw [List.head?_eq_getElem?] at hhead
  rw [readElement, split, hhead]
  rfl

/-- The second element is there when there are two. -/
theorem readElement_one {args : List CString} (h : args.length = 2) :
    ∃ argument, readElement args 1 = .ok argument := by
  have hindex : 1 < args.length := by omega
  refine ⟨args[1], ?_⟩
  rw [readElement, List.getElem?_eq_getElem hindex]

/-- A command with one argument shows its usage or goes on with the second element. -/
theorem argument_cases {args : List CString} {usage : Server × List ConsoleEffect}
    {f : CString → CommandResult} {result : CommandResult}
    (h : (if args.length ≠ 2 then .ok usage else do f (← readElement args 1)) = result) :
    result = .ok usage ∨ ∃ argument, f argument = result := by
  split_ifs at h with hlength
  · exact Or.inl h.symm
  · obtain ⟨argument, hread⟩ := readElement_one (not_not.mp hlength)
    rw [hread] at h
    exact Or.inr ⟨argument, h⟩

/-- No command reads an element that is not there. -/
theorem func_reads_elements {cmd : Command} (h : cmd ∈ sCommands) (files : SaveFiles) (s : Server)
    (args : List CString) : cmd.func files s args ≠ .error .noElement := by
  intro hcall
  simp only [sCommands, List.mem_cons, List.not_mem_nil, or_false] at h
  rcases h with rfl | rfl | rfl | rfl | rfl | rfl
  · cases hcall
  · cases hcall
  · cases hcall
  · dsimp only at hcall
    rw [resetsave] at hcall
    split at hcall <;> cases hcall
  · rcases argument_cases hcall with husage | ⟨argument, hcall⟩
    · cases husage
    · split at hcall <;> cases hcall
  · rcases argument_cases hcall with husage | ⟨argument, hcall⟩
    · cases husage
    · split at hcall <;> cases hcall

/-- The loop calls the first command with the name of the first element, or none. -/
theorem processLoop_cases (files : SaveFiles) (s : Server) {args : List CString} {first : CString}
    (h : readElement args 0 = .ok first) (cmds : List Command) :
    (∃ cmd ∈ cmds, ascii cmd.name = first ∧
      processLoop files s args cmds = ⟨[cmd.name], cmd.func files s args⟩) ∨
    (∀ cmd ∈ cmds, ascii cmd.name ≠ first) ∧
      processLoop files s args cmds = ⟨[], .ok (s, [unknownCommand])⟩ := by
  induction cmds with
  | nil => exact Or.inr ⟨fun cmd hcmd => absurd hcmd List.not_mem_nil, rfl⟩
  | cons cmd cmds ih =>
    rw [processLoop, h]
    dsimp only
    by_cases hname : ascii cmd.name = first
    · rw [if_pos hname]
      exact Or.inl ⟨cmd, List.mem_cons_self, hname, rfl⟩
    · rw [if_neg hname]
      rcases ih with ⟨other, hmem, hother, hcall⟩ | ⟨hnone, hcall⟩
      · exact Or.inl ⟨other, List.mem_cons_of_mem cmd hmem, hother, hcall⟩
      · refine Or.inr ⟨fun other hmem => ?_, hcall⟩
        rcases List.mem_cons.mp hmem with rfl | hmem
        · exact hname
        · exact hnone other hmem

/-- The names of the commands differ. -/
theorem sCommands_names {cmd other : Command} (hcmd : cmd ∈ sCommands) (hother : other ∈ sCommands)
    (h : ascii cmd.name = ascii other.name) : cmd.name = other.name := by
  have hnodup : (sCommands.map fun cmd => ascii cmd.name).Nodup := by decide
  rw [List.inj_on_of_nodup_map hnodup hcmd hother h]

/-- The console accepts an input exactly when it is a line that is not empty. -/
theorem accepts_input_iff (files : SaveFiles) (s : Server) (input : Input) :
    AcceptsInput files s input ↔ readLine input ≠ [] := by
  constructor
  · intro h hempty
    apply h.elements
    rw [threadRound, hempty]
    rfl
  · intro hline
    have hread := readElement_split hline
    rcases processLoop_cases files s hread sCommands with
      ⟨cmd, hmem, hname, hcall⟩ | ⟨hnone, hcall⟩
    · rw [← processCommand, ← threadRound] at hcall
      refine ⟨?_, fun other hother hsame => ?_, fun hall => absurd hname (hall cmd hmem)⟩
      · rw [hcall]
        exact func_reads_elements hmem files s _
      · rw [hcall, sCommands_names hmem hother (hname.trans hsame.symm)]
    · rw [← processCommand, ← threadRound] at hcall
      refine ⟨?_, fun other hother hsame => absurd hsame (hnone other hother), fun _ => ?_⟩
      · rw [hcall]
        exact fun heq => nomatch heq
      · rw [hcall]
        exact ⟨rfl, rfl⟩

/-- The server after a round of `threadFunc`. No command writes the default file that a reset
reads. -/
def serverRound (files : SaveFiles) (s : Server) (input : Input) : Option Server :=
  (threadRound files s input).result.toOption.map Prod.fst

/-- A reset leaves progress in range. -/
theorem reset_inRange {files : SaveFiles} {data loaded : ServerSaveData}
    (h : reset files data = .ok loaded) : InRange loaded := by
  obtain ⟨size, shared, hsize, rfl⟩ := loadShared_ok h
  have hfresh := inRange_fresh data.sharedSave
  exact ⟨hfresh.numCollectedGoalItems, hfresh.collectedGoalItems, hfresh.collectedShards,
    hfresh.islandToScenarioMap, hsize⟩

/-- A number of shines that `stoi` has read keeps the progress in range. -/
theorem withShines_inRange {data : ServerSaveData} {argument : CString} {amount : ℤ}
    (h : InRange data) (hread : stoi argument = some amount) : InRange (withShines data amount) :=
  ⟨stoi_range hread, h.collectedGoalItems, h.collectedShards, h.islandToScenarioMap,
    h.sharedSaveSize⟩

/-- A command keeps the progress in range. -/
theorem func_inRange {cmd : Command} (h : cmd ∈ sCommands) {files : SaveFiles} {s t : Server}
    {args : List CString} {effects : List ConsoleEffect} (hrange : InRange s.mSaveData)
    (hcall : cmd.func files s args = .ok (t, effects)) : InRange t.mSaveData := by
  simp only [sCommands, List.mem_cons, List.not_mem_nil, or_false] at h
  rcases h with rfl | rfl | rfl | rfl | rfl | rfl
  · cases hcall
    exact hrange
  · cases hcall
    exact hrange
  · cases hcall
    exact hrange
  · dsimp only at hcall
    rw [resetsave] at hcall
    cases hreset : reset files s.mSaveData with
    | error error =>
      rw [hreset] at hcall
      cases hcall
    | ok data =>
      rw [hreset] at hcall
      cases hcall
      exact reset_inRange hreset
  · rcases argument_cases hcall with husage | ⟨argument, hcall⟩
    · cases husage
      exact hrange
    · split at hcall
      · cases hcall
        exact hrange
      · rename_i amount hread
        cases hcall
        exact withShines_inRange hrange hread
  · rcases argument_cases hcall with husage | ⟨argument, hcall⟩
    · cases husage
      exact hrange
    · split at hcall <;> cases hcall <;> exact hrange

/-- A round keeps the progress in range. -/
theorem serverRound_inRange {files : SaveFiles} {s t : Server} {input : Input}
    (hrange : InRange s.mSaveData) (hround : serverRound files s input = some t) :
    InRange t.mSaveData := by
  rw [serverRound, threadRound, processCommand, Option.map_eq_some_iff] at hround
  obtain ⟨⟨server, effects⟩, hresult, rfl⟩ := hround
  cases hread : readElement (split (readLine input) space) 0 with
  | error failure =>
    rw [sCommands, processLoop, hread] at hresult
    cases hresult
  | ok first =>
    rcases processLoop_cases files s hread sCommands with
      ⟨cmd, hmem, -, hcall⟩ | ⟨-, hcall⟩
    · rw [hcall] at hresult
      dsimp only at hresult
      cases hfunc : cmd.func files s (split (readLine input) space) with
      | error failure =>
        rw [hfunc] at hresult
        cases hresult
      | ok left =>
        rw [hfunc] at hresult
        cases hresult
        exact func_inRange hmem hrange hfunc
    · rw [hcall] at hresult
      cases hresult
      exact hrange

/-- The console keeps the progress in range, whatever is typed. -/
theorem console_inRange {files : SaveFiles} {s t : Server} {inputs : List Input}
    (hrange : InRange s.mSaveData) (hrun : run (serverRound files) s inputs = some t) :
    InRange t.mSaveData :=
  run_invariant_of_step (fun _ _ _ => serverRound_inRange) hrange hrun

example : split (ascii " tpall  a ") space = [[], ascii "tpall", [], ascii "a"] := by decide

/-- A server without clients and progress. -/
def idleServer : Server := Server.fresh (.fresh (Buffer.zero sharedSaveCapacity))

/-- The console reads the first word of an empty line, and of the end of the input, which have
none. -/
theorem empty_line_read :
    (threadRound freshFiles idleServer (.line [])).result = .error .noElement ∧
      (threadRound freshFiles idleServer .endOfInput).result = .error .noElement ∧
      ¬AcceptsInput freshFiles idleServer (.line []) :=
  ⟨rfl, rfl, fun h => h.elements rfl⟩

end BfMultiplayer.Console
