import Leasework.Crew.Run
import Leasework.Proofs.Work.Steps

/-!
# `Leasework.Proofs.Crew.Steps`: the steps of a crew

`Crew.Run.Step` names everything that a crew can do: the handler is made ready or refuses,
slots are staffed, run, fail, pause, end and are taken away, and shutdown drains, joins and
disposes. `Crew.Run.step_cases` shows that there is nothing else, and is the only place where
the body of `Crew.Run.step` is looked at.
-/

set_option autoImplicit false

namespace Leasework.Crew.Run

open Work (Consumer ConsumerMove)

/-- What a step of a crew may come to. -/
inductive Step (isShut : Bool) (p : Plant) (r : Run) : Move → Plant → Roster Consumer → Prop
  /-- The handler is ready. -/
  | readied (starting : r.roster.phase = .starting) :
      Step isShut p r (.started (.ok ())) p { r.roster with phase := .staffing }
  /-- The handler refuses, and the crew ends. -/
  | refused {refusal : Work.Refusal} (starting : r.roster.phase = .starting) :
      Step isShut p r (.started (.error refusal)) p
        { r.roster with phase := .ended (.error (.startUp refusal)) }
  /-- A free permit is taken, and a consumer is put into a slot. -/
  | staffed (staffing : r.roster.phase = .staffing) (unasked : isShut = false)
      {permits : Permits} (taken : r.roster.permits.acquire? = some permits) :
      Step isShut p r .staff p
        { r.roster with
          permits := permits
          slots := r.roster.slots ++ [.running (.waiting r.post true)] }
  /-- Shutdown has been asked for, and draining begins. -/
  | closed (staffing : r.roster.phase = .staffing) (asked : isShut = true) :
      Step isShut p r .close p
        { r.roster with
          phase := .draining (p.now + r.roster.drainTime)
          permits := r.roster.permits.gather r.roster.drainPermits }
  /-- A slot that is over is taken away. -/
  | reaped {i : Nat} (phase : r.roster.phase = .staffing ∨ r.roster.phase = .joining)
      (ended : r.roster.slots[i]? = some .over) :
      Step isShut p r (.reap i) p { r.roster with slots := r.roster.slots.eraseIdx i }
  /-- The consumer of a slot makes a step, and has not ended. -/
  | went {i : Nat} {c c' : Consumer} {move : ConsumerMove} {p' : Plant}
      (running : r.roster.slots[i]? = some (.running c)) (st : c.Step isShut p move p' c')
      (open_end : c'.exit? = none) :
      Step isShut p r (.consume i move) p' (r.roster.slotWent i c')
  /-- The consumer of a slot fails, and the slot pauses. -/
  | failed {i : Nat} {c c' : Consumer} {move : ConsumerMove} {p' : Plant} {f : Work.Failure}
      (running : r.roster.slots[i]? = some (.running c)) (st : c.Step isShut p move p' c')
      (exit : c'.exit? = some (.finished (.error f))) :
      Step isShut p r (.consume i move) p'
        { r.roster with
          slots := r.roster.slots.set i (.pausing (p'.now + r.roster.pause)) }
  /-- The consumer of a slot ends in any other way, and the slot is over. -/
  | retired {i : Nat} {c c' : Consumer} {move : ConsumerMove} {p' : Plant} {exit : Work.Exit}
      (running : r.roster.slots[i]? = some (.running c)) (st : c.Step isShut p move p' c')
      (exit_eq : c'.exit? = some exit) (unfailed : ∀ f, exit ≠ .finished (.error f)) :
      Step isShut p r (.consume i move) p' (r.roster.slotOver i)
  /-- A slot has paused long enough, or shutdown has been asked for. -/
  | rested {i till : Nat} (pausing : r.roster.slots[i]? = some (.pausing till))
      (awake : isShut = true ∨ till ≤ p.now) :
      Step isShut p r (.rested i) p (r.roster.slotOver i)
  /-- All permits that draining asks for have been gathered. -/
  | drained {till : Nat} (draining : r.roster.phase = .draining till)
      (complete : r.roster.permits.wanted ≤ r.roster.permits.gathered) :
      Step isShut p r .drained p { r.roster with phase := .joining }
  /-- The drain time is over, and what is left is aborted. -/
  | expired {till : Nat} (draining : r.roster.phase = .draining till)
      (incomplete : r.roster.permits.gathered < r.roster.permits.wanted)
      (late : till ≤ p.now) :
      Step isShut p r .expired (r.roster.consumers.foldl Consumer.abandon p)
        { r.roster.abortAll with phase := .joining }
  /-- No slot is left. -/
  | joined (joining : r.roster.phase = .joining) (empty : r.roster.slots = []) :
      Step isShut p r .joined p { r.roster with phase := .disposing }
  /-- The handler has been disposed of. -/
  | disposed (disposing : r.roster.phase = .disposing) :
      Step isShut p r .disposed p { r.roster with phase := .ended (.ok ()) }

section
variable {isShut : Bool} {p p' : Plant} {r r' : Run} {move : Move}

/-- A step of the roster alone changes nothing else. -/
theorem onRoster_eq_some {step : Option (Roster Consumer)} :
    r.onRoster p step = some (p', r') ↔
      ∃ roster, step = some roster ∧ p' = p ∧ r' = { r with roster := roster } := by
  unfold onRoster
  constructor
  · intro h
    obtain ⟨roster, hroster, heq⟩ := Option.map_eq_some_iff.mp h
    cases heq
    exact ⟨roster, hroster, rfl, rfl⟩
  · rintro ⟨roster, rfl, rfl, rfl⟩
    rfl

/-- Whatever step a crew makes, it is one of these. -/
theorem step_cases (h : r.step isShut p move = some (p', r')) :
    ∃ roster, Step isShut p r move p' roster ∧ r' = { r with roster := roster } := by
  cases move with
  | started answer =>
    obtain ⟨roster, hroster, rfl, rfl⟩ := onRoster_eq_some.mp h
    refine ⟨roster, ?_, rfl⟩
    unfold Roster.started at hroster
    split at hroster
    · cases hroster
      exact .readied ‹_›
    · cases hroster
      exact .refused ‹_›
    · cases hroster
  | staff =>
    obtain ⟨roster, hroster, rfl, rfl⟩ := onRoster_eq_some.mp h
    refine ⟨roster, ?_, rfl⟩
    unfold Roster.staff at hroster
    split at hroster
    · split at hroster
      · cases hroster
      · rename_i hstaffing hunasked
        obtain ⟨permits, htaken, rfl⟩ := Option.map_eq_some_iff.mp hroster
        exact .staffed hstaffing (Bool.not_eq_true _ ▸ hunasked) htaken
    · cases hroster
  | close =>
    obtain ⟨roster, hroster, rfl, rfl⟩ := onRoster_eq_some.mp h
    refine ⟨roster, ?_, rfl⟩
    unfold Roster.close at hroster
    split at hroster
    · split at hroster
      · rename_i hstaffing hasked
        cases hroster
        exact .closed hstaffing hasked
      · cases hroster
    · cases hroster
  | reap i =>
    obtain ⟨roster, hroster, rfl, rfl⟩ := onRoster_eq_some.mp h
    refine ⟨roster, ?_, rfl⟩
    unfold Roster.reap at hroster
    split at hroster
    · rename_i hphase hover
      cases hroster
      exact .reaped (Or.inl hphase) hover
    · rename_i hphase hover
      cases hroster
      exact .reaped (Or.inr hphase) hover
    · cases hroster
  | consume i move =>
    simp only [step] at h
    split at h
    · rename_i c hrunning
      simp only [bind, Option.bind_eq_some_iff] at h
      obtain ⟨⟨p₁, c'⟩, hstep, h⟩ := h
      obtain ⟨roster, hroster, rfl, rfl⟩ := onRoster_eq_some.mp h
      refine ⟨roster, ?_, rfl⟩
      have st := Consumer.step_cases hstep
      simp only [settleSlot] at hroster
      split at hroster
      · cases hroster
        exact .went hrunning st ‹_›
      · rename_i f hexit
        simp only [Roster.slotEnded, hrunning, if_true] at hroster
        cases hroster
        exact .failed hrunning st hexit
      · rename_i exit hother hexit
        simp only [Roster.slotEnded, hrunning, Bool.false_eq_true, if_false] at hroster
        cases hroster
        exact .retired hrunning st hexit fun f hf => hother f (hf ▸ rfl)
    · cases h
  | rested i =>
    obtain ⟨roster, hroster, rfl, rfl⟩ := onRoster_eq_some.mp h
    refine ⟨roster, ?_, rfl⟩
    unfold Roster.slotRested at hroster
    split at hroster
    · split at hroster
      · rename_i till hpausing hawake
        cases hroster
        exact .rested hpausing (by simpa using hawake)
      · cases hroster
    · cases hroster
  | drained =>
    obtain ⟨roster, hroster, rfl, rfl⟩ := onRoster_eq_some.mp h
    refine ⟨roster, ?_, rfl⟩
    unfold Roster.drained at hroster
    split at hroster
    · split at hroster
      · rename_i till hdraining hcomplete
        cases hroster
        exact .drained hdraining (of_decide_eq_true hcomplete)
      · cases hroster
    · cases hroster
  | expired =>
    simp only [step, bind, Option.bind_eq_some_iff] at h
    obtain ⟨roster, hroster, heq⟩ := h
    cases heq
    refine ⟨roster, ?_, rfl⟩
    unfold Roster.expired at hroster
    split at hroster
    · split at hroster
      · rename_i till hdraining hlate
        cases hroster
        simp only [Permits.complete, Bool.and_eq_true, Bool.not_eq_true', decide_eq_true_eq,
          decide_eq_false_iff_not, Nat.not_le] at hlate
        exact .expired hdraining hlate.1 hlate.2
      · cases hroster
    · cases hroster
  | joined =>
    obtain ⟨roster, hroster, rfl, rfl⟩ := onRoster_eq_some.mp h
    refine ⟨roster, ?_, rfl⟩
    unfold Roster.joined at hroster
    split at hroster
    · split at hroster
      · rename_i hjoining hempty
        cases hroster
        exact .joined hjoining (List.isEmpty_iff.mp hempty)
      · cases hroster
    · cases hroster
  | disposed =>
    obtain ⟨roster, hroster, rfl, rfl⟩ := onRoster_eq_some.mp h
    refine ⟨roster, ?_, rfl⟩
    unfold Roster.disposed at hroster
    split at hroster
    · cases hroster
      exact .disposed ‹_›
    · cases hroster

end

end Leasework.Crew.Run
