import Leasework.Handler.Program
import Leasework.Shell.Run

/-!
# `Leasework.Shell.Launch`: launching a program

A program is found by its path, or by its name among the programs of the system. One that
cannot be launched says why; one that is launched gets its input and runs to its end. If
it leaves some of its input, the pipe to it breaks.

`Launch.meeting` says whether a cancellation comes before that end.
-/

set_option autoImplicit false

namespace Leasework.Shell

/-- What a name stands for. -/
inductive Executable where
  /-- A shell. -/
  | shell
  /-- A tool. -/
  | tool (t : Tool)

/-- Errors of launching, in the words of the operating system. -/
def noEntry : String := "No such file or directory (os error 2)"

/-- The arguments take too much space. -/
def tooManyArguments : String := "Argument list too long (os error 7)"

/-- A file may not be executed. -/
def noPermission : String := "Permission denied (os error 13)"

/-- A path goes through a file. -/
def noDirectory : String := "Not a directory (os error 20)"

/-- A name is too long. -/
def nameTooLong : String := "File name too long (os error 36)"

/-- A text holds the character that ends texts of the operating system. -/
def nulByte : String := "nul byte found in provided data"

/-- A path without slashes at its end. -/
def trimSlashes (path : String) : String :=
  match path.toList.reverse.dropWhile (· = '/') with
  | [] => "/"
  | cs => String.ofList cs.reverse

/-- Finds what a program's name or path stands for. -/
def executable (program : String) : Except String Executable :=
  let name := programName program
  let steps := program.splitOn "/"
  if program.isEmpty then .error noEntry
  else if steps.any (255 < ·.utf8ByteSize) || 4096 ≤ program.utf8ByteSize then
    .error nameTooLong
  else if name = "sh" || name = "dash" then .ok .shell
  else
    match Tool.named? name with
    | some t => .ok (.tool t)
    | none =>
      if Tool.directories.contains (trimSlashes program) then .error noPermission
      else if Tool.plainFiles.contains program then .error noPermission
      else if Tool.plainFiles.any fun f => program.startsWith (f ++ "/") then .error noDirectory
      else .error noEntry

/-- The most bytes that one argument may take, with the byte that ends it. -/
def argumentLimit : Nat := 131072

/-- How much fuel a script has. -/
def scriptFuel : Nat := 20000

/-- A launch: how the run goes, and after how many milliseconds it is over. -/
structure Launch where
  /-- The run. -/
  run : Handler.Run
  /-- When it is over, if ever. -/
  millis : Option Nat

/-- A launch that failed. -/
def Launch.failed (why : String) : Launch := ⟨.notStarted (.other why), some 0⟩

/-- A launch that came to an end. -/
def Launch.ended (exitCode : Option Int32) (output diagnostics rest : Bytes)
    (millis : Option Nat) : Launch :=
  let written := if rest.isEmpty then .ok () else .error .brokenPipe
  ⟨.started written (.ok ⟨exitCode, output, diagnostics⟩), millis⟩

/-- Launches a program. -/
def launch (program : String) (arguments : List String) (input : Bytes) : Launch :=
  if (program :: arguments).any (·.contains (Char.ofNat 0)) then .failed nulByte
  else
    match executable program with
    | .error why => .failed why
    | .ok found =>
      if arguments.any (argumentLimit ≤ ·.utf8ByteSize) then .failed tooManyArguments
      else
        match found with
        | .tool t =>
          let e := t arguments input
          .ended (some (Int32.ofNat e.status)) e.output e.diagnostics e.rest e.millis
        | .shell =>
          let (s, flow) := runShell scriptFuel (State.start program [] input) program arguments
          match flow with
          | .killed _ => .ended none s.output s.diagnostics s.input (some s.millis)
          | .endless => .ended none s.output s.diagnostics s.input none
          | _ =>
            .ended (some (Int32.ofNat s.status)) s.output s.diagnostics s.input (some s.millis)

/-- What a call meets first if it is canceled after so many milliseconds; nothing if the
program never ends. -/
def Launch.meeting? (l : Launch) (cancelAfter : Option Nat) : Option Handler.Meeting :=
  match cancelAfter, l.millis with
  | some t, some m => some (if t ≤ m then .cancel else .over l.run)
  | some _, none => some .cancel
  | none, some _ => some (.over l.run)
  | none, none => none

end Leasework.Shell
