import Leasework.Json.Text
import Leasework.Text.Utf8
import Leasework.Work.Failure

/-!
# `Leasework.Handler.Program`: the response of a program

A program that handles a request gets its content as input. However its run goes, the
response is a document: the exit code and what the program wrote, or the reason why it
could not be run.

Writing the input and waiting for the end go on beside each other. A program need not
read its input, so a pipe that it closed early is no error. Any other error of either
keeps the response from having an exit code, and an error of writing is reported before
one of waiting.

* `Run.report` decides what a run is reported as.
* `Report.render` and `Report.parse?` are the two directions of the response text.
* `Meeting.answer` is what the handler answers, also when it is canceled.
-/

set_option autoImplicit false

namespace Leasework.Handler

/-- An error of the operating system. -/
inductive SystemFault where
  /-- The reader of a pipe is gone. -/
  | brokenPipe
  /-- Any other error, by its text. -/
  | other (text : String)
deriving DecidableEq, Repr

/-- The wording of an error. -/
def SystemFault.message : SystemFault → String
  | .brokenPipe => "Broken pipe (os error 32)"
  | .other text => text

/-- How a program ended. -/
structure Ended where
  /-- The exit code, unless a signal ended the program. -/
  exitCode : Option Int32
  /-- What it wrote. -/
  output : List UInt8
  /-- What it wrote as diagnostics. -/
  diagnostics : List UInt8
deriving DecidableEq, Repr

/-- The run of a program. -/
inductive Run where
  /-- It did not start. -/
  | notStarted (f : SystemFault)
  /-- It started; what came of writing its input, and of waiting for its end. -/
  | started (written : Except SystemFault Unit) (waited : Except SystemFault Ended)
deriving Repr

/-- What is reported of a run. -/
structure Report where
  /-- The exit code. -/
  exitCode : Option Int32
  /-- What the program wrote. -/
  output : String
  /-- What it wrote as diagnostics. -/
  diagnostics : String
  /-- Why it could not be run. -/
  error : Option String
deriving DecidableEq, Repr

namespace Report

/-- The report of a program that could not be run. -/
def ofFault (f : SystemFault) : Report := ⟨none, "", "", some f.message⟩

/-- The report of a program that ended. What it wrote is text as far as it can be. -/
def ofEnded (e : Ended) : Report :=
  ⟨e.exitCode, Text.decodeLossy e.output, Text.decodeLossy e.diagnostics, none⟩

/-- The names of the fields. -/
def names : List String := ["exit_code", "stdout", "stderr", "error"]

/-- A report as a document. -/
def toDocument (r : Report) : Document :=
  .table
    [("exit_code", (r.exitCode.map fun code => Document.integer code.toInt).getD .null),
      ("stdout", .text r.output), ("stderr", .text r.diagnostics),
      ("error", (r.error.map Document.text).getD .null)]

/-- An exit code. -/
def exitCode? : Document → Option Int32
  | .integer n => if -2147483648 ≤ n ∧ n < 2147483648 then some (Int32.ofInt n) else none
  | _ => none

/-- Reads a report. -/
def read? (d : Document) : Option Report := do
  let row ← d.row? .json names
  let code ← Document.orElse? (row "exit_code") none (Document.optional? exitCode?)
  let output ← Document.required? (row "stdout") Document.text?
  let diagnostics ← Document.required? (row "stderr") Document.text?
  let error ← Document.orElse? (row "error") none (Document.optional? Document.text?)
  some ⟨code, output, diagnostics, error⟩

/-- A report as a text. -/
def render (r : Report) : String := Json.render r.toDocument

/-- Reads the text of a report. -/
def parse? (s : String) : Option Report := (Json.read? s).bind read?

end Report

/-- What a run is reported as. -/
def Run.report : Run → Report
  | .notStarted f => .ofFault f
  | .started (.error (.other text)) _ => .ofFault (.other text)
  | .started _ (.error f) => .ofFault f
  | .started _ (.ok ended) => .ofEnded ended

/-- What a call of the handler meets first. -/
inductive Meeting where
  /-- It is canceled. -/
  | cancel
  /-- The run is over. -/
  | over (run : Run)

/-- What the handler answers. A run answers a request in any case. -/
def Meeting.answer : Meeting → Except Work.Refusal String
  | .cancel => .error .canceled
  | .over run => .ok run.report.render

end Leasework.Handler
