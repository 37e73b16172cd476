import Leasework.Shell.Command
import Leasework.Shell.State

/-!
# `Leasework.Shell.Run`: running a script

Commands change the state of a shell. A pipeline and a list in parentheses run in a copy
of it, of which only what was read and written is kept. A script stops at its first line
that cannot be read.

Running takes fuel, so that a loop without end is a value too: the shell is `endless`.
-/

set_option autoImplicit false

namespace Leasework.Shell

/-! ### Commands of the shell itself -/

/-- Writes its arguments and expands the escapes in them. -/
def echoed (arguments : List String) : Bytes :=
  let (quiet, words) :=
    match arguments with
    | "-n" :: rest => (true, rest)
    | _ => (false, arguments)
  let (bytes, stopped) := expand (" ".intercalate words) escape
  if quiet || stopped then bytes else bytes ++ bytesOf '\n'

/-- Removes one level of negation signs from a test. -/
def unnegated : List String → Bool × List String
  | "!" :: rest =>
    let (negative, rest) := unnegated rest
    (!negative, rest)
  | words => (false, words)

/-- Whether a test without negation holds; nothing if it is no test. -/
def plainTest? : List String → Option Bool
  | [] => some false
  | [s] => some !s.isEmpty
  | ["-n", s] => some !s.isEmpty
  | ["-z", s] => some s.isEmpty
  | ["-e", path] => some (exists? path)
  | ["-d", path] => some (Tool.directories.contains path)
  | ["-f", _] => some false
  | [a, "=", b] => some (a = b)
  | [a, "!=", b] => some (a ≠ b)
  | [a, relation, b] => do
    let a ← a.toInt?
    let b ← b.toInt?
    match relation with
    | "-eq" => some (a = b)
    | "-ne" => some (a ≠ b)
    | "-lt" => some (a < b)
    | "-le" => some (a ≤ b)
    | "-gt" => some (a > b)
    | "-ge" => some (a ≥ b)
    | _ => none
  | _ => none
where
  /-- Whether a path names something that is always there. -/
  exists? (path : String) : Bool :=
    match Tool.source path with
    | .missing => false
    | _ => true

/-- The status of a test. -/
def testStatus (words : List String) : Nat :=
  let (negative, words) := unnegated words
  match plainTest? words with
  | some holds => if holds = negative then 1 else 0
  | none => 2

/-- Signals by name. -/
def signals : List (String × Nat) :=
  [("EXIT", 0), ("HUP", 1), ("INT", 2), ("QUIT", 3), ("ILL", 4), ("TRAP", 5), ("ABRT", 6),
    ("BUS", 7), ("FPE", 8), ("KILL", 9), ("USR1", 10), ("SEGV", 11), ("USR2", 12), ("PIPE", 13),
    ("ALRM", 14), ("TERM", 15), ("STKFLT", 16), ("CHLD", 17), ("CONT", 18), ("STOP", 19),
    ("TSTP", 20), ("TTIN", 21), ("TTOU", 22), ("URG", 23), ("XCPU", 24), ("XFSZ", 25),
    ("VTALRM", 26), ("PROF", 27), ("WINCH", 28), ("IO", 29), ("PWR", 30), ("SYS", 31)]

/-- The signal of a name or a number. -/
def signal? (s : String) : Option Nat :=
  match s.toNat? with
  | some n => if n ≤ 64 then some n else none
  | none =>
    let name := s.toUpper
    let name := if name.startsWith "SIG" then (name.drop 3).toString else name
    signals.lookup name

/-- What a signal does to a process that does nothing about it. -/
def delivered (signal : Nat) : Flow :=
  if [0, 17, 18, 23, 28].contains signal then .on
  else if [19, 20, 21, 22].contains signal then .endless
  else .killed signal

/-- How the death of a process by a signal is told. An interrupt and a broken pipe are not
told at all. -/
def obituary (signal : Nat) : Bytes :=
  let told : List (Nat × String) :=
    [(1, "Hangup"), (3, "Quit"), (4, "Illegal instruction"), (5, "Trace/breakpoint trap"),
      (6, "Aborted"), (7, "Bus error"), (8, "Floating point exception"), (9, "Killed"),
      (10, "User defined signal 1"), (11, "Segmentation fault"), (12, "User defined signal 2"),
      (14, "Alarm clock"), (15, "Terminated")]
  match told.lookup signal with
  | some text => Text.encode (text ++ "\n")
  | none => []

/-- Sends a signal to processes; only the shell's own is known. -/
def State.signalAll (s : State) (line signal : Nat) : List String → State × Flow
  | [] => (s, .on)
  | number :: rest =>
    if number = processNumber || number = "0" then
      match delivered signal with
      | .on => signalAll (s.ended 0) line signal rest
      | flow => (s, flow)
    else signalAll (s.complain line 1 "kill: No such process\n") line signal rest

/-- Sends a signal as the arguments say. -/
def State.kill (s : State) (line : Nat) (arguments : List String) : State × Flow :=
  let bad (name : String) : State × Flow :=
    (s.complain line 2 ("kill: invalid signal number or name: " ++ name), .exit)
  match arguments with
  | "-s" :: name :: numbers =>
    match signal? name with
    | some n => s.signalAll line n numbers
    | none => bad name
  | "--" :: numbers => s.signalAll line 15 numbers
  | first :: numbers =>
    if first.startsWith "-" then
      let name := (first.drop 1).toString
      match signal? name with
      | some n => s.signalAll line n numbers
      | none => bad name
    else s.signalAll line 15 (first :: numbers)
  | [] => (s.complain line 2 "kill: Usage: kill [-s sigspec | -signum] [pid]...", .exit)

/-- A number that a command of the shell takes. -/
def smallNumber? (s : String) : Option Nat :=
  if s.isEmpty || !s.toList.all Char.isDigit then none
  else (s.toNat?).bind fun n => if n < 2147483648 then some n else none

/-- Exits with a status, or with the one of the last command. -/
def State.exitWith (s : State) (line : Nat) (arguments : List String) : State × Flow :=
  match arguments with
  | [] => (s, .exit)
  | a :: _ =>
    match smallNumber? a with
    | some n => (s.ended (n % 256), .exit)
    | none => (s.complain line 2 ("exit: Illegal number: " ++ a), .exit)

/-- Gives the fields of a line to variables; the last one takes what is left. -/
def State.assignFields (s : State) : List String → List String → State
  | [], _ => s
  | [name], fields => s.assign name (" ".intercalate fields)
  | name :: names, fields => (s.assign name (fields.headD "")).assignFields names (fields.drop 1)

/-- Reads a line into variables. -/
def State.readLine (s : State) (arguments : List String) : State :=
  let names := arguments.filter fun a => a ≠ "-r"
  let input := s.readable
  let (line, rest) := Tool.splitLines 1 [] input
  let complete := line.getLast? = some 0x0A
  let text := Text.decodeLossy (if complete then line.dropLast else line)
  let fields := (Fields.empty.split text).toList
  let s := if s.readsInput then { s with input := rest } else s
  ((s.assignFields names fields).ended (if complete then 0 else 1))

/-- Drops arguments from the front. -/
def State.shift (s : State) (line : Nat) (arguments : List String) : State × Flow :=
  match smallNumber? (arguments.headD "1") with
  | some n =>
    if n ≤ s.arguments.length then
      (({ s with arguments := s.arguments.drop n }).ended 0, .on)
    else (s.complain line 2 "shift: can't shift that many", .exit)
  | none => (s.complain line 2 ("shift: Illegal number: " ++ arguments.headD ""), .exit)

/-- Changes options and arguments. -/
def State.set (s : State) : List String → State
  | [] => s.ended 0
  | "--" :: arguments => ({ s with arguments := arguments }).ended 0
  | "-e" :: rest => ({ s with exitsOnError := true }).set rest
  | "+e" :: rest => ({ s with exitsOnError := false }).set rest
  | a :: rest =>
    if a.startsWith "-" || a.startsWith "+" then s.set rest
    else ({ s with arguments := a :: rest }).ended 0

/-- The name of a program without the directory of the system's programs. -/
def programName (path : String) : String :=
  if path.startsWith "/bin/" then (path.drop 5).toString
  else if path.startsWith "/usr/bin/" then (path.drop 9).toString
  else path

/-- Runs a tool, if there is one of the name. -/
def State.runTool (s : State) (line : Nat) (complaint name : String) (arguments : List String) :
    State × Flow :=
  match Tool.named? (programName name) with
  | some tool => s.after (tool arguments s.readable)
  | none =>
    if name.contains '/' && (Tool.directories ++ Tool.plainFiles).contains name then
      (s.complain line 126 (complaint ++ name ++ ": Permission denied"), .on)
    else (s.complain line 127 (complaint ++ name ++ ": not found"), .on)

/-- Runs a command that is no shell of its own. -/
def State.perform (s : State) (line : Nat) (name : String) (arguments : List String) :
    State × Flow :=
  match name with
  | ":" => (s.ended 0, .on)
  | "true" => (s.ended 0, .on)
  | "false" => (s.ended 1, .on)
  | "echo" => ((s.write (echoed arguments)).ended 0, .on)
  | "printf" => s.after (Tool.printf (s.place line) arguments s.readable)
  | "exit" => s.exitWith line arguments
  | "kill" => s.kill line arguments
  | "read" => (s.readLine arguments, .on)
  | "shift" => s.shift line arguments
  | "set" => (s.set arguments, .on)
  | "test" => (s.ended (testStatus arguments), .on)
  | "[" =>
    if arguments.getLast? = some "]" then (s.ended (testStatus arguments.dropLast), .on)
    else (s.complain line 2 "[: missing ]", .on)
  | "break" => (s.ended 0, .leavesLoop)
  | "continue" => (s.ended 0, .nextRound)
  | "unset" =>
    let kept := s.bindings.filter fun v => !arguments.contains v.1
    (({ s with bindings := kept }).ended 0, .on)
  | "export" =>
    let given := arguments.filterMap fun a =>
      match a.splitOn "=" with
      | n :: v :: vs => some (n, "=".intercalate (v :: vs))
      | _ => none
    ((given.foldl (fun s (n, v) => s.assign n v) s).ended 0, .on)
  | "wait" => (s.ended 0, .on)
  | "exec" =>
    match arguments with
    | [] => (s.ended 0, .on)
    | program :: arguments =>
      match s.runTool line "exec: " program arguments with
      | (s, .on) => (s, .exit)
      | other => other
  | _ => s.runTool line "" name arguments

/-! ### Redirections -/

/-- Where a descriptor leads at present. -/
def State.sinkOf (s : State) (descriptor : Nat) : Sink :=
  if descriptor = 1 then s.outputTo
  else if descriptor = 2 then s.diagnosticsTo
  else .nowhere

/-- Lets a descriptor lead to a sink. -/
def State.lead (s : State) (descriptor : Nat) (sink : Sink) : State :=
  if descriptor = 1 then { s with outputTo := sink }
  else if descriptor = 2 then { s with diagnosticsTo := sink }
  else s

/-- Lets a descriptor lead to a file; nothing if the file cannot be read. -/
def State.leadToFile (s : State) (descriptor : Nat) (path : String) : Option State :=
  if descriptor = 0 then
    match Tool.source path with
    | .input => some s
    | .empty => some { s with readsInput := false }
    | _ => none
  else
    some <| s.lead descriptor <|
      if path = "/dev/stdout" then s.outputTo
      else if path = "/dev/stderr" then s.diagnosticsTo
      else .nowhere

/-- Puts the descriptors back to where they led before. -/
def State.leadAs (s before : State) : State :=
  { s with
    readsInput := before.readsInput
    outputTo := before.outputTo
    diagnosticsTo := before.diagnosticsTo }

/-- Keeps of a copy of the shell what was read and written, and the status. -/
def State.absorb (s copy : State) : State :=
  { s with
    input := copy.input
    output := copy.output
    diagnostics := copy.diagnostics
    status := copy.status
    millis := copy.millis }

/-- The flow of the shell after a copy of it has ended. -/
def Flow.outside : Flow → Flow
  | .killed n => .killed n
  | .endless => .endless
  | _ => .on

/-- Whether a part of a word is the output of a script. -/
def Part.isOutput : Part → Bool
  | .output _ _ => true
  | _ => false

/-- A call of a shell: its options and what it is given to run. -/
structure Call where
  /-- Whether a failing command ends it. -/
  exitsOnError : Bool
  /-- Whether the script is given as an argument. -/
  hasScript : Bool
  /-- Whether the script is what can be read, whatever the arguments. -/
  readsScript : Bool
  /-- What is left of the arguments. -/
  arguments : List String

/-- Reads the options of a call. -/
def Call.ofArguments (c : Call) : List String → Call
  | [] => { c with arguments := [] }
  | "--" :: rest => { c with arguments := rest }
  | a :: rest =>
    if a.startsWith "-" && a ≠ "-" then
      let letters := a.toList.drop 1
      Call.ofArguments
        { c with
          exitsOnError := c.exitsOnError || letters.contains 'e'
          hasScript := c.hasScript || letters.contains 'c'
          readsScript := c.readsScript || letters.contains 's' } rest
    else { c with arguments := a :: rest }

/-! ### Running -/

mutual

/-- Expands a word into fields. -/
def expandWord (fuel : Nat) (s : State) (f : Fields) (w : Word) : State × Fields :=
  match fuel with
  | 0 => (s, f)
  | fuel + 1 =>
    match w with
    | [] => (s, f)
    | part :: rest =>
      match part with
      | .text t _ => expandWord fuel s (f.glue t) rest
      | .parameter "@" .value true => expandWord fuel s (f.glueAll s.arguments) rest
      | .parameter name use quoted =>
        let v := s.valueOf name use
        expandWord fuel s (if quoted then f.glue v else f.split v) rest
      | .output script quoted =>
        let (s, v) := outputOf fuel s script
        expandWord fuel s (if quoted then f.glue v else f.split v) rest
      | .sum expression =>
        let v := (Sum.value? s.numberOf expression).getD 0
        expandWord fuel s (f.glue (toString v)) rest

/-- Expands words into fields. -/
def expandWords (fuel : Nat) (s : State) (acc : List String) (ws : List Word) :
    State × List String :=
  match fuel with
  | 0 => (s, acc)
  | fuel + 1 =>
    match ws with
    | [] => (s, acc)
    | w :: rest =>
      let (s, f) := expandWord fuel s .empty w
      expandWords fuel s (acc ++ f.toList) rest

/-- What a script writes, without the line ends at its end. -/
def outputOf (fuel : Nat) (s : State) (script : String) : State × String :=
  match fuel with
  | 0 => (s, "")
  | fuel + 1 =>
    let (copy, _) := runScript fuel { s with output := [], outputTo := .output } script
    let text := (copy.output.reverse.dropWhile (· = 0x0A)).reverse
    ({ s.absorb copy with output := s.output }, Text.decodeLossy text)

/-- Sets the variables that a command assigns. -/
def assignAll (fuel : Nat) (s : State) (assignments : List (String × Word)) : State :=
  match fuel with
  | 0 => s
  | fuel + 1 =>
    match assignments with
    | [] => s
    | (name, w) :: rest =>
      let (s, f) := expandWord fuel s .empty w
      assignAll fuel (s.assign name (" ".intercalate f.toList)) rest

/-- Lets descriptors lead elsewhere; the complaint if one cannot. -/
def redirect (fuel : Nat) (s : State) (rs : List Redirection) : Except String State :=
  match fuel with
  | 0 => .ok s
  | fuel + 1 =>
    match rs with
    | [] => .ok s
    | r :: rest =>
      match r.target with
      | .same d => redirect fuel (s.lead r.descriptor (s.sinkOf d)) rest
      | .closed =>
        let s := if r.descriptor = 0 then { s with readsInput := false } else s
        redirect fuel (s.lead r.descriptor .nowhere) rest
      | .file w =>
        let (s, f) := expandWord fuel s .empty w
        let path := " ".intercalate f.toList
        match s.leadToFile r.descriptor path with
        | some s => redirect fuel s rest
        | none => .error ("cannot open " ++ path ++ ": No such file")

/-- Runs a program in a shell of its own, or any other command. -/
def runNamed (fuel : Nat) (s : State) (line : Nat) (name : String) (arguments : List String) :
    State × Flow :=
  match fuel with
  | 0 => (s, .endless)
  | fuel + 1 =>
    match name, arguments with
    | "eval", _ => runScript fuel s (" ".intercalate arguments)
    | "exec", program :: more =>
      if programName program = "sh" then
        match runNamed fuel s line program more with
        | (s, .on) => (s, .exit)
        | other => other
      else s.perform line name arguments
    | _, _ =>
      if programName name = "sh" then
        match runShell fuel s name arguments with
        | (s, .killed n) => ((s.warn (obituary n)).ended (128 + n), .on)
        | (s, .endless) => (s, .endless)
        | (s, _) => (s, .on)
      else s.perform line name arguments

/-- Runs a shell with the input and the outputs of another. -/
def runShell (fuel : Nat) (s : State) (name : String) (arguments : List String) :
    State × Flow :=
  match fuel with
  | 0 => (s, .endless)
  | fuel + 1 =>
    let call := Call.ofArguments ⟨false, false, false, []⟩ arguments
    let inner := { s with
      name := name
      bindings := []
      status := 0
      exitsOnError := call.exitsOnError }
    let finish : State × Flow → State × Flow
      | (copy, flow) => (s.absorb copy, flow)
    match call.hasScript, call.arguments with
    | true, [] => (s.complain 0 2 "-c requires an argument", .exit)
    | true, script :: rest =>
      finish (runScript fuel
        { inner with name := rest.headD name, arguments := rest.drop 1 } script)
    | false, words =>
      match if call.readsScript then none else words.head? with
      | none =>
        let script := Text.decodeLossy s.readable
        finish (runScript fuel { inner with input := [], arguments := words } script)
      | some path =>
        let complaint := "cannot open " ++ path ++ ": No such file"
        (({ s with name := name }).complain 0 2 complaint, .exit)

/-- Runs a script. -/
def runScript (fuel : Nat) (s : State) (script : String) : State × Flow :=
  match fuel with
  | 0 => (s, .endless)
  | fuel + 1 =>
    let (cs, fault) := commands script
    match runLines fuel s cs with
    | (s, .on) =>
      match fault with
      | some (line, f) => (s.complain line 2 f.message, .exit)
      | none => (s, .on)
    | other => other

/-- Runs commands one after the other. -/
def runLines (fuel : Nat) (s : State) (cs : List Command) : State × Flow :=
  match fuel with
  | 0 => (s, .endless)
  | fuel + 1 =>
    match cs with
    | [] => (s, .on)
    | c :: rest =>
      match run fuel false s c with
      | (s, .on) => runLines fuel s rest
      | other => other

/-- Runs a command with descriptors that lead elsewhere while it runs. -/
def runRedirected (fuel : Nat) (tested : Bool) (s : State) (rs : List Redirection)
    (body : Command) : State × Flow :=
  match fuel with
  | 0 => (s, .endless)
  | fuel + 1 =>
    match redirect fuel s rs with
    | .error complaint => (s.complain 1 2 complaint, .on)
    | .ok changed =>
      let (after, flow) := run fuel tested changed body
      (after.leadAs s, flow)

/-- Runs a command. A failure that is tested does not end the shell. -/
def run (fuel : Nat) (tested : Bool) (s : State) (c : Command) : State × Flow :=
  match fuel with
  | 0 => (s, .endless)
  | fuel + 1 =>
    let checked : State × Flow → State × Flow
      | (s, .on) =>
        if s.exitsOnError && !tested && s.status ≠ 0 then (s, .exit) else (s, .on)
      | other => other
    match c with
    | .nothing => (s.ended 0, .on)
    | .simple line assignments words redirections =>
      let (s, fields) := expandWords fuel s [] words
      match redirect fuel s redirections with
      | .error complaint => checked (s.complain line 2 complaint, .on)
      | .ok changed =>
        let changed := assignAll fuel changed assignments
        match fields with
        | [] =>
          let runsScript := (words ++ assignments.map Prod.snd).any (·.any Part.isOutput)
          checked ((if runsScript then changed else changed.ended 0).leadAs s, .on)
        | name :: arguments =>
          let (after, flow) := runNamed fuel { changed with status := s.status } line name arguments
          let lasting := name = "exec" && arguments.isEmpty
          checked (if lasting then after else after.leadAs s, flow)
    | .sequence a b =>
      match run fuel tested s a with
      | (s, .on) => run fuel tested s b
      | other => other
    | .both a b =>
      match run fuel true s a with
      | (s, .on) => if s.status = 0 then run fuel tested s b else (s, .on)
      | other => other
    | .either a b =>
      match run fuel true s a with
      | (s, .on) => if s.status = 0 then (s, .on) else run fuel tested s b
      | other => other
    | .negation a =>
      match run fuel true s a with
      | (s, .on) => (s.ended (if s.status = 0 then 1 else 0), .on)
      | other => other
    | .pipe a b =>
      match run fuel tested { s with output := [], outputTo := .output } a with
      | (_, .killed n) => (s, .killed n)
      | (_, .endless) => (s, .endless)
      | (writer, _) =>
        let reader := { s with
          input := writer.output
          readsInput := true
          diagnostics := writer.diagnostics }
        let (reader, flow) := run fuel tested reader b
        let s := { s.absorb reader with
          input := writer.input
          millis := max writer.millis reader.millis }
        checked (s, flow.outside)
    | .block true body redirections =>
      let (copy, flow) := runRedirected fuel tested s redirections body
      checked (s.absorb copy, flow.outside)
    | .block false body redirections => runRedirected fuel tested s redirections body
    | .choice test yes no =>
      match run fuel true s test with
      | (s, .on) => run fuel tested s (if s.status = 0 then yes else no)
      | other => other
    | .loop whileFails test body =>
      match run fuel true s test with
      | (s, .on) =>
        if (s.status = 0) = whileFails then (s.ended 0, .on)
        else
          match run fuel tested s body with
          | (s, .on) => run fuel tested s c
          | (s, .nextRound) => run fuel tested s c
          | (s, .leavesLoop) => (s, .on)
          | other => other
      | other => other
    | .each name words body =>
      let (s, fields) :=
        match words with
        | some ws => expandWords fuel s [] ws
        | none => (s, s.arguments)
      runEach fuel tested (s.ended 0) name fields body

/-- Runs a body for each of some values. -/
def runEach (fuel : Nat) (tested : Bool) (s : State) (name : String) (values : List String)
    (body : Command) : State × Flow :=
  match fuel with
  | 0 => (s, .endless)
  | fuel + 1 =>
    match values with
    | [] => (s, .on)
    | v :: rest =>
      match run fuel tested (s.assign name v) body with
      | (s, .on) => runEach fuel tested s name rest body
      | (s, .nextRound) => runEach fuel tested s name rest body
      | (s, .leavesLoop) => (s, .on)
      | other => other

end

end Leasework.Shell
