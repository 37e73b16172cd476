import Leasework.Proofs.Handler.Reports

/-!
# `Leasework.Proofs.Handler.Answers`: the answer to a call

A call of the handler launches the program, writes the content to its input and waits for its end,
while somebody may fire the token of the call. `Call.Step` says what can happen next. How the
program behaves is open, and so is the order of what happens: the pipe takes the content in pieces
of any size, and the two activities end in either order.

`Call.Sound` is what a step preserves: the call has been told nothing but what came of its run, and
its answer is the report of the run, unless the token had been fired. From it,
`Call.Course.dependable` says of every course of every call that it gets an answer in the end, that
the answer is the text of a report that tells of the run, and that only a call whose token was fired
is answered by a refusal.
-/

set_option autoImplicit false

namespace Leasework.Handler

/-- What happens during a call. -/
inductive Happening where
  /-- Somebody fires the token. -/
  | fire
  /-- The program is launched, or cannot be. -/
  | launch
  /-- The pipe takes the next bytes of the content. -/
  | take (n : Nat)
  /-- Writing is over. -/
  | written
  /-- Waiting is over. -/
  | waited
  /-- The call finds its run over. -/
  | settle
  /-- The call finds its token fired. -/
  | notice
deriving DecidableEq, Repr

namespace Call

/-- How far the writing of the content is. -/
inductive Writing where
  /-- These bytes are still to be written. -/
  | left (bytes : List UInt8)
  /-- It is over, and the pipe is closed. -/
  | closed (result : Except SystemFault Unit)

/-- What a call is doing. -/
inductive Phase where
  /-- It has to launch the program. -/
  | asked
  /-- It could not launch it. -/
  | refused (f : SystemFault)
  /-- It writes the content and waits for the end. -/
  | running (writing : Writing) (waited : Option (Except SystemFault Ended))
  /-- It is answered. -/
  | answered (answer : Except Work.Refusal String)

/-- The run as the call knows it, once it is over. -/
def Phase.run? : Phase → Option Run
  | .refused f => some (.notStarted f)
  | .running (.closed written) (some waited) => some (.started written waited)
  | _ => none

/-- The answer. -/
def Phase.answer? : Phase → Option (Except Work.Refusal String)
  | .answered a => some a
  | _ => none

end Call

/-- A call of the handler. -/
structure Call where
  /-- Whether its token has been fired. -/
  fired : Bool
  /-- What it is doing. -/
  phase : Call.Phase

namespace Call

/-- The answer, if there is one yet. -/
def answer? (c : Call) : Option (Except Work.Refusal String) := c.phase.answer?

/-- A call before anything has happened. -/
def start : Call := ⟨false, .asked⟩

/-- What can happen to a call with this content, when this is what will have come of its run. -/
inductive Step (content : String) (run : Run) : Call → Happening → Call → Prop where
  /-- The token is fired, whatever the call is doing. -/
  | fire (phase : Phase) : Step content run ⟨false, phase⟩ .fire ⟨true, phase⟩
  /-- The program cannot be launched. -/
  | refuse {f : SystemFault} (fired : Bool) (launching : run = .notStarted f) :
      Step content run ⟨fired, .asked⟩ .launch ⟨fired, .refused f⟩
  /-- The program is launched. -/
  | launch {w : Except SystemFault Unit} {e : Except SystemFault Ended} (fired : Bool)
      (launching : run = .started w e) :
      Step content run ⟨fired, .asked⟩ .launch
        ⟨fired, .running (.left (Text.encode content)) none⟩
  /-- The pipe takes the next bytes. -/
  | take {n : Nat} {bytes : List UInt8} (fired : Bool) (waited : Option (Except SystemFault Ended))
      (positive : 0 < n) (enough : n ≤ bytes.length) :
      Step content run ⟨fired, .running (.left bytes) waited⟩ (.take n)
        ⟨fired, .running (.left (bytes.drop n)) waited⟩
  /-- Writing is over, without an error only after all bytes. -/
  | written {w : Except SystemFault Unit} {e : Except SystemFault Ended} {bytes : List UInt8}
      (fired : Bool) (waited : Option (Except SystemFault Ended)) (launching : run = .started w e)
      (all : w = .ok () → bytes = []) :
      Step content run ⟨fired, .running (.left bytes) waited⟩ .written
        ⟨fired, .running (.closed w) waited⟩
  /-- Waiting is over. -/
  | waited {w : Except SystemFault Unit} {e : Except SystemFault Ended} (fired : Bool)
      (writing : Writing) (launching : run = .started w e) :
      Step content run ⟨fired, .running writing none⟩ .waited
        ⟨fired, .running writing (some e)⟩
  /-- The call is answered when its run is over. -/
  | settle {phase : Phase} {known : Run} (fired : Bool) (told : phase.run? = some known) :
      Step content run ⟨fired, phase⟩ .settle ⟨fired, .answered (Meeting.over known).answer⟩
  /-- The call is answered when it finds its token fired. -/
  | notice {phase : Phase} (unanswered : phase.answer? = none) :
      Step content run ⟨true, phase⟩ .notice ⟨true, .answered Meeting.cancel.answer⟩

/-- The course of a call: what has happened so far, the latest first, and how the call stands. -/
inductive Course (content : String) (run : Run) : List Happening → Call → Prop where
  /-- Nothing has happened yet. -/
  | start : Course content run [] start
  /-- One more thing happens. -/
  | step {past : List Happening} {c c' : Call} {h : Happening} (course : Course content run past c)
      (step : Step content run c h c') : Course content run (h :: past) c'

/-! ### What a step preserves -/

/-- How far a call has come agrees with its run. -/
def Phase.Fits (run : Run) (past : List Happening) : Phase → Prop
  | .asked => True
  | .refused f => run = .notStarted f
  | .running writing waited =>
    ∃ w e, run = .started w e ∧ (∀ r, writing = .closed r → r = w) ∧ ∀ r, waited = some r → r = e
  | .answered a =>
    a = (Meeting.over run).answer ∨ a = Meeting.cancel.answer ∧ .fire ∈ past

/-- A call knows of its run only what has come of it, and of its token only whether it was fired. -/
structure Sound (run : Run) (past : List Happening) (c : Call) : Prop where
  fired : c.fired = true ↔ .fire ∈ past
  phase : c.phase.Fits run past

/-- What a call knows as its run, is its run. -/
theorem Phase.Fits.eq_of_run? {run known : Run} {past : List Happening} {phase : Phase}
    (fits : phase.Fits run past) (told : phase.run? = some known) : known = run := by
  cases phase with
  | asked => cases told
  | refused f =>
    cases told
    exact fits.symm
  | running writing waited =>
    obtain ⟨w, e, rfl, wrote, ended⟩ := fits
    cases writing with
    | left bytes => cases told
    | closed r =>
      cases waited with
      | none => cases told
      | some r' =>
        cases told
        rw [wrote r rfl, ended r' rfl]
  | answered a => cases told

/-- What fits goes on to fit. -/
theorem Phase.Fits.cons {run : Run} {past : List Happening} {phase : Phase}
    (fits : phase.Fits run past) (h : Happening) : phase.Fits run (h :: past) := by
  cases phase with
  | asked => trivial
  | refused f => exact fits
  | running writing waited => exact fits
  | answered a => exact fits.imp_right fun ⟨same, fire⟩ => ⟨same, List.mem_cons_of_mem h fire⟩

/-- A step keeps a call sound. -/
theorem Step.sound {content : String} {run : Run} {past : List Happening} {c c' : Call}
    {h : Happening} (step : Step content run c h c') (sound : Sound run past c) :
    Sound run (h :: past) c' := by
  obtain ⟨token, fits⟩ := sound
  -- Only firing is a step that fires, so the token stays as it is in all other steps.
  have kept (fired : Bool) (same : fired = true ↔ .fire ∈ past) (other : h ≠ .fire) :
      fired = true ↔ .fire ∈ h :: past := by
    simpa [other.symm] using same
  cases step with
  | fire phase => exact ⟨by simp, fits.cons .fire⟩
  | refuse fired launching => exact ⟨kept fired token nofun, launching⟩
  | launch fired launching => exact ⟨kept fired token nofun, _, _, launching, nofun, nofun⟩
  | take fired waited positive enough =>
    obtain ⟨w, e, launching, -, ended⟩ := fits
    exact ⟨kept fired token nofun, w, e, launching, nofun, ended⟩
  | written fired waited launching all =>
    obtain ⟨w, e, launching', -, ended⟩ := fits
    obtain ⟨rfl, rfl⟩ := Run.started.inj (launching.symm.trans launching')
    refine ⟨kept fired token nofun, _, _, launching, ?_, ended⟩
    rintro r ⟨⟩
    rfl
  | waited fired writing launching =>
    obtain ⟨w, e, launching', wrote, -⟩ := fits
    obtain ⟨rfl, rfl⟩ := Run.started.inj (launching.symm.trans launching')
    refine ⟨kept fired token nofun, _, _, launching, wrote, ?_⟩
    rintro r ⟨⟩
    rfl
  | settle fired told =>
    refine ⟨kept fired token nofun, .inl ?_⟩
    rw [fits.eq_of_run? told]
  | notice unanswered =>
    exact ⟨kept true token nofun, .inr ⟨rfl, List.mem_cons_of_mem _ (token.mp rfl)⟩⟩

/-- Every course keeps a call sound. -/
theorem Course.sound {content : String} {run : Run} {past : List Happening} {c : Call}
    (course : Course content run past c) : Sound run past c := by
  induction course with
  | start => exact ⟨⟨nofun, nofun⟩, trivial⟩
  | step _ step ih => exact step.sound ih

/-! ### Every call comes to an answer -/

/-- How much can happen before the answer at most. -/
def Phase.toGo (content : String) : Phase → Nat
  | .asked => (Text.encode content).length + 4
  | .refused _ => 1
  | .running (.left bytes) none => bytes.length + 3
  | .running (.left bytes) (some _) => bytes.length + 2
  | .running (.closed _) none => 2
  | .running (.closed _) (some _) => 1
  | .answered _ => 0

/-- How much can happen to a call at most. -/
def toGo (content : String) (c : Call) : Nat := c.phase.toGo content + if c.fired then 0 else 1

/-- Something is to come before the answer. -/
theorem Phase.toGo_pos (content : String) {phase : Phase} (unanswered : phase.answer? = none) :
    0 < phase.toGo content := by
  cases phase with
  | asked => exact Nat.succ_pos _
  | refused f => exact Nat.succ_pos _
  | running writing waited => cases writing <;> cases waited <;> exact Nat.succ_pos _
  | answered a => cases unanswered

/-- A call whose run is over is not answered yet. -/
theorem Phase.answer?_of_run? {phase : Phase} {known : Run} (told : phase.run? = some known) :
    phase.answer? = none := by
  cases phase with
  | answered a => cases told
  | _ => rfl

/-- Every step uses up something of what can happen. -/
theorem Step.toGo_lt {content : String} {run : Run} {c c' : Call} {h : Happening}
    (step : Step content run c h c') : c'.toGo content < c.toGo content := by
  cases step with
  | fire phase => simp [toGo]
  | refuse fired launching => simp [toGo, Phase.toGo]
  | launch fired launching => simp [toGo, Phase.toGo]
  | take fired waited positive enough => cases waited <;> simp [toGo, Phase.toGo] <;> omega
  | written fired waited launching all => cases waited <;> simp [toGo, Phase.toGo]
  | waited fired writing launching => cases writing <;> simp [toGo, Phase.toGo]
  | settle fired told =>
    have := Phase.toGo_pos content (Phase.answer?_of_run? told)
    simpa [toGo, Phase.toGo] using this
  | notice unanswered =>
    have := Phase.toGo_pos content unanswered
    simpa [toGo, Phase.toGo] using this

/-- No more happens to a call than its content makes possible. -/
theorem Course.length_le {content : String} {run : Run} {past : List Happening} {c : Call}
    (course : Course content run past c) :
    past.length + c.toGo content ≤ (Text.encode content).length + 5 := by
  induction course with
  | start => exact Nat.le_of_eq (Nat.zero_add _)
  | step _ step ih =>
    have := step.toGo_lt
    rw [List.length_cons]
    omega

/-- A call that is not answered goes on, whatever comes of its run and whether or not its token is
fired. -/
theorem Sound.goesOn {run : Run} {past : List Happening} {c : Call} (sound : Sound run past c)
    (content : String) (unanswered : c.answer? = none) :
    ∃ h c', h ≠ .fire ∧ h ≠ .notice ∧ Step content run c h c' := by
  obtain ⟨fired, phase⟩ := c
  have fits : phase.Fits run past := sound.phase
  cases phase with
  | asked =>
    cases run with
    | notStarted f => exact ⟨.launch, _, nofun, nofun, .refuse fired rfl⟩
    | started w e => exact ⟨.launch, _, nofun, nofun, .launch fired rfl⟩
  | refused f => exact ⟨.settle, _, nofun, nofun, .settle fired rfl⟩
  | running writing waited =>
    obtain ⟨w, e, launching, -, -⟩ := fits
    cases writing with
    | left bytes =>
      -- An error ends the writing at any time, and without one the pipe takes what is left.
      by_cases all : w = .ok () → bytes = []
      · exact ⟨.written, _, nofun, nofun, .written fired waited launching all⟩
      · have nonempty : bytes ≠ [] := fun empty => all fun _ => empty
        exact ⟨.take bytes.length, _, nofun, nofun,
          .take fired waited (List.length_pos_iff.mpr nonempty) (Nat.le_refl _)⟩
    | closed r =>
      cases waited with
      | none => exact ⟨.waited, _, nofun, nofun, .waited fired (.closed r) launching⟩
      | some r' => exact ⟨.settle, _, nofun, nofun, .settle fired rfl⟩
  | answered a => cases unanswered

/-! ### What the answer says -/

/-- What is true of a call at any time, whatever its content and however its program behaves. -/
structure Dependable (content : String) (run : Run) (past : List Happening) (c : Call) : Prop where
  /-- It comes to an end. -/
  bounded : past.length ≤ (Text.encode content).length + 5
  /-- It does not end without an answer, and needs no firing of its token for one. -/
  goesOn : c.answer? = none → ∃ h c', h ≠ .fire ∧ h ≠ .notice ∧ Step content run c h c'
  /-- Unless its token was fired, it is answered by a text. -/
  unfired : .fire ∉ past → ∀ a, c.answer? = some a → ∃ text, a = .ok text
  /-- A text that answers it reads as exactly one report, which tells of the run. -/
  text : ∀ text, c.answer? = some (.ok text) →
    ∃ r : Report, (∀ r', Report.parse? text = some r' ↔ r' = r) ∧ r.Tells run
  /-- It is canceled only if its token was fired. -/
  canceled : c.answer? = some (.error .canceled) → .fire ∈ past
  /-- It never fails. -/
  neverFails : ∀ why, c.answer? ≠ some (.error (.failed why))

/-- An answer is the report of the run, or the token was fired. -/
theorem Sound.answer {run : Run} {past : List Happening} {c : Call} (sound : Sound run past c)
    {a : Except Work.Refusal String} (answered : c.answer? = some a) :
    a = .ok run.report.render ∨ a = .error .canceled ∧ .fire ∈ past := by
  obtain ⟨fired, phase⟩ := c
  have fits : phase.Fits run past := sound.phase
  cases phase with
  | answered a' =>
    cases answered
    exact fits
  | asked => cases answered
  | refused f => cases answered
  | running writing waited => cases answered

/-- However a program behaves and in whatever order things happen, a call of the handler gets an
answer, and the answer is a text that tells what came of the run, unless the token was fired. -/
theorem Course.dependable {content : String} {run : Run} {past : List Happening} {c : Call}
    (course : Course content run past c) : Dependable content run past c := by
  have sound := course.sound
  refine
    { bounded := ?_, goesOn := sound.goesOn content, unfired := ?_, text := ?_, canceled := ?_,
      neverFails := ?_ }
  · have := course.length_le
    omega
  · intro unfired a answered
    obtain rfl | ⟨-, fired⟩ := sound.answer answered
    · exact ⟨run.report.render, rfl⟩
    · exact absurd fired unfired
  · intro text answered
    obtain same | ⟨same, -⟩ := sound.answer answered
    · cases same
      refine ⟨run.report, fun r' => ?_, run.report_tells⟩
      rw [Report.parse?_render, Option.some.injEq, eq_comm]
    · cases same
  · intro answered
    obtain same | ⟨-, fired⟩ := sound.answer answered
    · cases same
    · exact fired
  · intro why answered
    obtain same | ⟨same, -⟩ := sound.answer answered <;> cases same

/-- A program that leaves its input, writes a control character, a mark and half a character, and
is ended by a signal. -/
def crashed : Run := .started (.error .brokenPipe) (.ok ⟨none, [0x01, 0x22, 0xC3], []⟩)

/-- The pipe took two bytes of the content. The call is answered by a report without an error. -/
theorem dependable_crashed :
    ∃ past c, Course "12345" crashed past c ∧ .fire ∉ past ∧ Dependable "12345" crashed past c ∧
      c.answer? = some (.ok ("\x7b\"exit_code\":null,\"stdout\":\"\\u0001\\\"\uFFFD\"," ++
        "\"stderr\":\"\",\"error\":null\x7d")) := by
  have launched : Course "12345" crashed [.launch] ⟨false, .running (.left _) none⟩ :=
    .step .start (.launch false rfl)
  have took := launched.step (.take false none (n := 2) (by decide) (by decide +kernel))
  have ended := took.step (.waited false _ rfl)
  have left := ended.step (.written false _ rfl nofun)
  have answered := left.step (.settle false rfl)
  exact ⟨_, _, answered, by decide, answered.dependable, by decide⟩

end Call

end Leasework.Handler
