import Leasework.Handler.Program
import Leasework.Proofs.Json.RoundTrip
import Leasework.Proofs.Text.Decoding

/-!
# `Leasework.Proofs.Handler.Reports`: what a report says of a run

A report is a document that JSON can say, so the text of a report reads as this report and as no
other one, whatever the program wrote (`Report.parse?_render`).

`Report.Tells` says what a report tells of a run, in terms of what came of launching the program, of
writing its input and of waiting for its end, and of what the bytes say that the program wrote.
`Run.report_tells` finds it true of the report of every run.
-/

set_option autoImplicit false

namespace Leasework.Handler

namespace Report

/-! ### The text of a report -/

/-- An exit code fits 64 bits. -/
theorem fits_toInt (code : Int32) : Json.Fits code.toInt := by
  have low := code.le_toInt
  have high := code.toInt_lt
  exact ⟨by omega, by omega⟩

/-- A report is a document that JSON can say. -/
theorem sayable_toDocument (r : Report) : Json.Sayable r.toDocument := by
  refine .table (by simp) fun field h => ?_
  simp only [List.mem_cons, List.not_mem_nil, or_false] at h
  obtain rfl | rfl | rfl | rfl := h
  · cases r.exitCode with
    | none => exact .null
    | some code => exact .integer (fits_toInt code)
  · exact .text r.output
  · exact .text r.diagnostics
  · cases r.error with
    | none => exact .null
    | some why => exact .text why

/-- An exit code is read again as it was written. -/
theorem exitCode?_toInt (code : Int32) : exitCode? (.integer code.toInt) = some code := by
  have low := code.le_toInt
  have high := code.toInt_lt
  rw [exitCode?, if_pos ⟨by omega, by omega⟩, Int32.ofInt_toInt]

/-- A report is read again as it was written. -/
theorem read?_toDocument (r : Report) : read? r.toDocument = some r := by
  obtain ⟨code, output, diagnostics, error⟩ := r
  cases code <;> cases error <;>
    simp [read?, toDocument, Document.row?, List.lookup_cons, Document.orElse?, Document.required?,
      Document.optional?, Document.text?, exitCode?_toInt]

/-- The text of a report reads as the report. -/
theorem parse?_render (r : Report) : parse? r.render = some r := by
  rw [parse?, render, Json.read?_render r.sayable_toDocument, Option.bind_some, read?_toDocument]

end Report

/-! ### What a report tells -/

/-- The program did not start, its input could not be written although the program was still
reading it, or its end could not be waited for. -/
def Run.Failed (run : Run) : Prop :=
  (∃ f, run = .notStarted f) ∨ (∃ f waited, run = .started (.error f) waited ∧ f ≠ .brokenPipe) ∨
    ∃ written f, run = .started written (.error f)

/-- All of the input is written, or the program closed the pipe before. -/
def Tolerable (written : Except SystemFault Unit) : Prop :=
  written = .ok () ∨ written = .error .brokenPipe

/-- What is reported of a program that ended is what its bytes say. -/
theorem Report.reads_ofEnded (e : Ended) :
    (∃ m, Text.Reads e.output (ofEnded e).output.toList m) ∧
      ∃ m, Text.Reads e.diagnostics (ofEnded e).diagnostics.toList m :=
  ⟨Text.decodeLossy_eq_iff.mp rfl, Text.decodeLossy_eq_iff.mp rfl⟩

/-- What a report tells of a run. -/
structure Report.Tells (r : Report) (run : Run) : Prop where
  /-- An error without an exit code and without output is reported just of the runs that failed. -/
  failed : (∃ why, r = ⟨none, "", "", some why⟩) ↔ run.Failed
  /-- The error of launching is the one reported. -/
  launching : ∀ f, run = .notStarted f → r.error = some f.message
  /-- So is an error of writing, also when waiting failed as well. -/
  writing : ∀ f waited, run = .started (.error f) waited → f ≠ .brokenPipe →
    r.error = some f.message
  /-- An error of waiting is reported unless there is such an error of writing. -/
  waiting : ∀ written f, run = .started written (.error f) → Tolerable written →
    r.error = some f.message
  /-- Of all other runs the exit code is reported, and what was written as far as it is text. -/
  ended : ∀ written e, run = .started written (.ok e) → Tolerable written →
    r = ⟨e.exitCode, Text.decodeLossy e.output, Text.decodeLossy e.diagnostics, none⟩
  /-- These are the texts that the bytes say, with replacements for what is no character. -/
  worded : ∀ written e, run = .started written (.ok e) → Tolerable written →
    (∃ m, Text.Reads e.output r.output.toList m) ∧
      ∃ m, Text.Reads e.diagnostics r.diagnostics.toList m

/-- The report of a run tells of it. -/
theorem Run.report_tells (run : Run) : run.report.Tells run := by
  cases run with
  | notStarted f =>
    exact
      { failed := ⟨fun _ => .inl ⟨f, rfl⟩, fun _ => ⟨f.message, rfl⟩⟩
        launching := by rintro _ ⟨⟩; rfl
        writing := nofun
        waiting := nofun
        ended := nofun
        worded := nofun }
  | started written waited =>
    -- Only the kind of the error of writing matters, and whether waiting failed.
    obtain (⟨_ | text⟩ | ⟨⟩) := written
    case error.other =>
      exact
        { failed := ⟨fun _ => .inr (.inl ⟨_, _, rfl, nofun⟩), fun _ => ⟨text, rfl⟩⟩
          launching := nofun
          writing := by rintro _ _ ⟨⟩ -; rfl
          waiting := by rintro _ _ ⟨⟩ (h | h) <;> cases h
          ended := by rintro _ _ ⟨⟩ (h | h) <;> cases h
          worded := by rintro _ _ ⟨⟩ (h | h) <;> cases h }
    all_goals
      cases waited with
      | error f =>
        exact
          { failed := ⟨fun _ => .inr (.inr ⟨_, f, rfl⟩), fun _ => ⟨f.message, rfl⟩⟩
            launching := nofun
            writing := fun _ _ same other => by cases same <;> exact absurd rfl other
            waiting := by rintro _ _ ⟨⟩ -; rfl
            ended := nofun
            worded := nofun }
      | ok e =>
        refine
          { failed := ⟨?_, ?_⟩
            launching := nofun
            writing := fun _ _ same other => by cases same <;> exact absurd rfl other
            waiting := nofun
            ended := by rintro _ _ ⟨⟩ -; rfl
            worded := by rintro _ _ ⟨⟩ -; exact Report.reads_ofEnded e }
        · rintro ⟨why, h⟩
          cases congrArg Report.error h
        · rintro (⟨_, same⟩ | ⟨_, _, same, other⟩ | ⟨_, _, same⟩) <;> cases same <;>
            exact absurd rfl other

end Leasework.Handler
