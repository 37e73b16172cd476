import Leasework.Shell.Sum
import Leasework.Shell.Tool

/-!
# `Leasework.Shell.State`: a shell between two commands

A shell has arguments and variables, reads one input and writes two outputs. Its
descriptors may lead elsewhere for a while. Time passes only while it waits.

How a command ends is a `Flow`: the script goes on, or the shell exits, is killed by a
signal, or never ends.
-/

set_option autoImplicit false

namespace Leasework.Shell

/-- Where what is written goes. -/
inductive Sink where
  /-- To the output. -/
  | output
  /-- To the diagnostics. -/
  | diagnostics
  /-- Nowhere. -/
  | nowhere
deriving DecidableEq, Repr

/-- A shell between two commands. -/
structure State where
  /-- The name it was called by. -/
  name : String
  /-- Its arguments. -/
  arguments : List String
  /-- Its variables. -/
  bindings : List (String × String)
  /-- What is left of the input. -/
  input : Bytes
  /-- Whether commands read the input; otherwise they find nothing to read. -/
  readsInput : Bool
  /-- Where the output of commands goes. -/
  outputTo : Sink
  /-- Where their diagnostics go. -/
  diagnosticsTo : Sink
  /-- What has been written. -/
  output : Bytes
  /-- What has been written as diagnostics. -/
  diagnostics : Bytes
  /-- The status of the last command. -/
  status : Nat
  /-- The time that has passed in milliseconds. -/
  millis : Nat
  /-- Whether a failing command ends the shell. -/
  exitsOnError : Bool
deriving Repr

/-- How a command ends. -/
inductive Flow where
  /-- The script goes on. -/
  | on
  /-- A loop is left. -/
  | leavesLoop
  /-- A loop goes on with its next round. -/
  | nextRound
  /-- The shell exits. -/
  | exit
  /-- The shell is killed by a signal. -/
  | killed (signal : Nat)
  /-- The command never ends. -/
  | endless
deriving DecidableEq, Repr

/-- The number of the shell's process. -/
def processNumber : String := "4242"

namespace State

/-- A shell before its first command. -/
def start (name : String) (arguments : List String) (input : Bytes) : State :=
  ⟨name, arguments, [], input, true, .output, .diagnostics, [], [], 0, 0, false⟩

/-- Writes bytes to where a sink leads. -/
def writeTo (s : State) (sink : Sink) (bytes : Bytes) : State :=
  match sink with
  | .output => { s with output := s.output ++ bytes }
  | .diagnostics => { s with diagnostics := s.diagnostics ++ bytes }
  | .nowhere => s

/-- Writes the output of a command. -/
def write (s : State) (bytes : Bytes) : State := s.writeTo s.outputTo bytes

/-- Writes the diagnostics of a command. -/
def warn (s : State) (bytes : Bytes) : State := s.writeTo s.diagnosticsTo bytes

/-- Ends a command with a status. -/
def ended (s : State) (status : Nat) : State := { s with status := status }

/-- What stands in front of a complaint. -/
def place (s : State) (line : Nat) : String := s.name ++ ": " ++ toString line ++ ": "

/-- Complains and ends a command with a status. -/
def complain (s : State) (line status : Nat) (text : String) : State :=
  (s.warn (Text.encode (s.place line ++ text ++ "\n"))).ended status

/-- What a command finds to read. -/
def readable (s : State) : Bytes := if s.readsInput then s.input else []

/-- Takes up what comes of a tool. -/
def after (s : State) (e : Effect) : State × Flow :=
  let s := ((s.write e.output).warn e.diagnostics).ended e.status
  let s := if s.readsInput then { s with input := e.rest } else s
  match e.millis with
  | some m => ({ s with millis := s.millis + m }, .on)
  | none => (s, .endless)

/-- Sets a variable. -/
def assign (s : State) (name value : String) : State :=
  { s with bindings := (name, value) :: s.bindings.filter (·.1 ≠ name) }

/-- The value of a parameter, if it is set. -/
def parameter? (s : State) (name : String) : Option String :=
  if name = "0" then some s.name
  else if name = "#" then some (toString s.arguments.length)
  else if name = "?" then some (toString s.status)
  else if name = "$" then some processNumber
  else if name = "@" || name = "*" then some (" ".intercalate s.arguments)
  else if name = "-" then some ""
  else
    match name.toNat? with
    | some n => s.arguments[n - 1]?
    | none => s.bindings.lookup name

/-- What stands for a parameter. -/
def valueOf (s : State) (name : String) : Use → String
  | .value => (s.parameter? name).getD ""
  | .length => toString ((s.parameter? name).getD "").length
  | .orElse emptyToo text =>
    match s.parameter? name with
    | some v => if emptyToo && v.isEmpty then text else v
    | none => text
  | .ifSet emptyToo text =>
    match s.parameter? name with
    | some v => if emptyToo && v.isEmpty then "" else text
    | none => ""

/-- The value of a variable as a number. -/
def numberOf (s : State) (name : String) : Int := (((s.parameter? name).getD "").toInt?).getD 0

end State

/-! ### Fields -/

/-- The fields of words so far. -/
structure Fields where
  /-- The complete fields, the last one first. -/
  complete : List String
  /-- The field that goes on. -/
  current : Option String
deriving Repr

namespace Fields

/-- No fields. -/
def empty : Fields := ⟨[], none⟩

/-- Goes on with a text. -/
def glue (f : Fields) (s : String) : Fields := { f with current := some (f.current.getD "" ++ s) }

/-- Completes the field that goes on. -/
def cut (f : Fields) : Fields :=
  match f.current with
  | some s => ⟨s :: f.complete, none⟩
  | none => f

/-- Goes on with a text that is split at white space. -/
def split (f : Fields) (s : String) : Fields :=
  s.toList.foldl
    (fun f c => if isGap c || c = '\n' then f.cut else f.glue (String.singleton c)) f

/-- Goes on with texts, each of which but the first begins a field. -/
def glueAll (f : Fields) : List String → Fields
  | [] => f
  | [s] => f.glue s
  | s :: rest => (f.glue s).cut.glueAll rest

/-- The fields in order. -/
def toList (f : Fields) : List String := f.cut.complete.reverse

end Fields

end Leasework.Shell
