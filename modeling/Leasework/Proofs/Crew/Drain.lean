import Leasework.Proofs.Crew.Governed
import Leasework.Proofs.Lease.Period

/-!
# `Leasework.Proofs.Crew.Drain`: how long shutdown waits

Draining is meant to wait for every slot to give its permit back, and no longer than the drain
time: `Crew.Drains` spells that out, and `Crew.DrainLaw` asks it of every run in which the end of
the drain time is noticed in time.

A pool holds far more permits than can be gathered at once. `Crew.drainLaw_iff` shows that this
decides the matter: the law holds for a crew exactly if all its permits can be gathered at once.
A larger crew may take the drain for complete while a slot still holds a permit, and then it
joins that slot without any limit of time.

`Crew.Timed` is the invariant behind the law. A crew that is draining has begun to do so one drain
time before the moment that it drains till, and the clock has not gone past that moment.
-/

set_option autoImplicit false

namespace Leasework

open Work (Consumer ConsumerMove)

/-! ### The law -/

/-- Which slot of the crew at a place takes a step of its own: its consumer makes a step, or its
pause is over. -/
def Event.slot? (i : Nat) : Event → Option Nat
  | .move j (.crew (.consume slot _)) => if j = i then some slot else none
  | .move j (.crew (.rested slot)) => if j = i then some slot else none
  | _ => none

namespace Crew

/-- The end of the drain time of a crew that is draining. -/
def Run.deadline? (r : Run) : Option Nat :=
  match r.roster.phase with
  | .draining till => some till
  | _ => none

/-- The slots of a crew, or all but one of them. -/
def Run.slotsBut (slot : Option Nat) (r : Run) : List (Slot Consumer) :=
  match slot with
  | some j => r.roster.slots.eraseIdx j
  | none => r.roster.slots

/-- All slots have given their permits back. -/
def Run.IsFree (r : Run) : Prop := ∀ slot ∈ r.roster.slots, slot.holds = false

/-- The end of the drain time is noticed at the first millisecond that is not before it. -/
def InTime (i : Nat) (w : World) : Event → Prop
  | .advance millis =>
    ∀ party ∈ w.parties[i]?, ∀ r ∈ party.task.crew?, ∀ till ∈ r.deadline?,
      millis ≤ Rehearsal.Stage.ceilMillis till
  | _ => True

/-- What may happen around a crew whose drain time is noticed in time. -/
def Prompt (i : Nat) (post : Work.Post) (o : Options) (w : World) (event : Event) : Prop :=
  Manned i post o w event ∧ InTime i w event

instance (i : Nat) (w : World) (event : Event) : Decidable (InTime i w event) :=
  match event with
  | .advance millis =>
    inferInstanceAs (Decidable (∀ party ∈ w.parties[i]?, ∀ r ∈ party.task.crew?,
      ∀ till ∈ r.deadline?, millis ≤ Rehearsal.Stage.ceilMillis till))
  | .cancel _ | .inject .. | .observe _ | .keeper _ | .keep .. | .stop _ | .leave _ | .board
  | .join _ | .assign .. | .move .. | .drop _ => isTrue trivial

instance (i : Nat) (post : Work.Post) (o : Options) (w : World) (event : Event) :
    Decidable (Prompt i post o w event) :=
  inferInstanceAs (Decidable (_ ∧ _))

end Crew

/-- Slots of a crew are aborted: fewer of them hold a permit afterwards, the one apart that has
taken a step of its own. -/
def Occurrence.Aborts (i : Nat) (occ : Occurrence) : Prop :=
  ∃ isCanceled r isCanceled' r',
    occ.before.parties[i]? = some ⟨isCanceled, .crew r⟩ ∧
    occ.after.parties[i]? = some ⟨isCanceled', .crew r'⟩ ∧
    (r'.slotsBut (occ.event.slot? i)).countP Crew.Slot.holds
      < (r.slotsBut (occ.event.slot? i)).countP Crew.Slot.holds

namespace Crew

/-- How a crew drains that has come to where it is through what is on record:

- `completed`: it takes the drain for complete only when all slots have given their permits back;
- `overdue`: if a slot still holds a permit when the drain time is over, then it is over just
  now, and the crew can abort all slots;
- `aborted`: slots are aborted only when the drain time is over, and then all of them are;
- `released`: without a permit to wait for, it comes to its end at once. -/
structure Drains (i : Nat) (o : Options) (past : List Occurrence) (w : World)
    (isCanceled : Bool) (r : Run) : Prop where
  completed : (r.step isCanceled w.plant .drained).isSome = true → r.IsFree
  overdue : ∀ start ∈ past, start.event = .move i (.crew .close) →
    start.before.plant.now + o.drainTime.toNanos ≤ w.plant.now → ¬ r.IsFree →
    w.plant.now = start.before.plant.now + o.drainTime.toNanos ∧
      ∃ p' r', r.step isCanceled w.plant .expired = some (p', r') ∧ r'.IsFree
  aborted : ∀ occ ∈ past, occ.Aborts i →
    (∃ start ∈ past, start.event = .move i (.crew .close) ∧
      occ.before.plant.now = start.before.plant.now + o.drainTime.toNanos) ∧
    ∀ party ∈ occ.after.parties[i]?, ∀ r' ∈ party.task.crew?, r'.IsFree
  released : r.roster.phase = .joining → r.IsFree →
    ∃ moves r', r.stepAll isCanceled w.plant moves = some (w.plant, r') ∧
      r'.roster.phase = .disposing

/-- A crew with these options drains as it should, in every run. -/
def DrainLaw (o : Options) : Prop :=
  ∀ stores i post past w isCanceled r, Leasework.Run stores (Prompt i post o) past w →
    w.parties[i]? = some ⟨isCanceled, .crew r⟩ → Drains i o past w isCanceled r

end Crew

/-! ### Whole milliseconds -/

theorem Span.toNanos_ofMillis (n : UInt64) :
    (Span.ofMillis n).toNanos = n.toNat * nanosPerMilli := by
  show n.toNat / 1000 * nanosPerSecond + n.toNat % 1000 * nanosPerMilli = _
  unfold nanosPerSecond nanosPerMilli
  omega

/-- Who has not joined has never been there, and has made no move. -/
theorem Run.absent_before {stores : List Queue.Store} {may : World → Event → Prop}
    {past : List Occurrence} {w : World} {i : Nat} (run : Run stores may past w)
    (absent : w.parties[i]? = none) :
    ∀ occ ∈ past, occ.before.parties[i]? = none ∧ ∀ move, occ.event ≠ .move i move := by
  induction run with
  | start => exact List.forall_mem_nil _
  | @step past w w' event before allowed happens ih =>
    have hstep := World.step_party happens i
    rw [absent] at hstep
    generalize hbefore : w.parties[i]? = party at hstep
    cases hstep with
    | absent =>
      refine List.forall_mem_cons.mpr ⟨⟨hbefore, ?_⟩, ih hbefore⟩
      rintro move rfl
      -- A move needs somebody to make it.
      simp only [World.step, hbefore, bind, Option.bind_none] at happens
      cases happens

/-! ### Invariant -/

namespace Crew

/-- The drain of a crew is timed by the record of its beginning. -/
structure Timed (i : Nat) (o : Options) (past : List Occurrence) (w : World) (r : Run) :
    Prop where
  early : r.roster.phase.isEarly = true → ∀ occ ∈ past, occ.event ≠ .move i (.crew .close)
  draining : ∀ till, r.roster.phase = .draining till →
    (w.plant.now ≤ till ∧ ∃ m, till = m * nanosPerMilli) ∧
    (∃ start ∈ past, start.event = .move i (.crew .close)) ∧
    ∀ start ∈ past, start.event = .move i (.crew .close) →
      till = start.before.plant.now + o.drainTime.toNanos
  aborted : ∀ occ ∈ past, occ.Aborts i →
    (∃ start ∈ past, start.event = .move i (.crew .close) ∧
      occ.before.plant.now = start.before.plant.now + o.drainTime.toNanos) ∧
    ∀ party ∈ occ.after.parties[i]?, ∀ r' ∈ party.task.crew?, r'.IsFree

section
variable {i : Nat} {post : Work.Post} {o : Options} {past : List Occurrence} {w w' : World}
  {event : Event} {isCanceled : Bool} {p p' : Plant} {r : Run} {move : Move}
  {roster : Roster Consumer}

theorem Run.isFree_iff : r.IsFree ↔ r.roster.slots.countP Slot.holds = 0 := by
  rw [List.countP_eq_zero]
  unfold Run.IsFree
  simp only [Bool.not_eq_true]

theorem isFree_abortAll (post : Work.Post) (phase : Phase) :
    (⟨post, { r.roster.abortAll with phase := phase }⟩ : Run).IsFree :=
  Run.isFree_iff.mpr (r.roster.countP_abortAll Slot.holds rfl)

/-- Only the end of the drain time takes permits from slots that take no step of their own. -/
theorem Run.Step.countP_slotsBut_le (st : r.Step isCanceled p move p' roster)
    (hmove : move ≠ .expired) :
    (r.slotsBut (Event.slot? i (.move i (.crew move)))).countP Slot.holds
      ≤ ((⟨r.post, roster⟩ : Run).slotsBut (Event.slot? i (.move i (.crew move)))).countP
        Slot.holds := by
  have hset : ∀ (slot : Nat) (s : Slot Consumer),
      ((r.roster.slots.set slot s).eraseIdx slot) = r.roster.slots.eraseIdx slot :=
    fun slot s => List.eraseIdx_set_eq
  cases st with
  | staffed =>
    show _ ≤ (r.roster.slots ++ _).countP Slot.holds
    rw [List.countP_append]
    exact Nat.le_add_right _ _
  | reaped _ ended =>
    show r.roster.slots.countP Slot.holds ≤ (r.roster.slots.eraseIdx _).countP Slot.holds
    rw [countP_of_getElem? _ ended]
    exact Nat.le_refl _
  | expired => exact absurd rfl hmove
  | went | failed | retired | rested =>
    simp only [Event.slot?, if_true, Run.slotsBut, Roster.slotWent, Roster.slotOver, hset]
    exact Nat.le_refl _
  | _ => exact Nat.le_refl _

/-- What has been aborted before stays on record. -/
theorem Timed.aborted_cons (t : Timed i o past w r) {new : Occurrence} :
    ∀ occ ∈ past, occ.Aborts i →
      (∃ start ∈ new :: past, start.event = .move i (.crew .close) ∧
        occ.before.plant.now = start.before.plant.now + o.drainTime.toNanos) ∧
      ∀ party ∈ occ.after.parties[i]?, ∀ r' ∈ party.task.crew?, r'.IsFree := by
  intro occ hocc haborts
  obtain ⟨⟨start, hstart, hmoment⟩, hfree⟩ := t.aborted occ hocc haborts
  exact ⟨⟨start, List.mem_cons_of_mem _ hstart, hmoment⟩, hfree⟩

/-- A drain goes on as it was timed through an event that neither begins it nor aborts slots. -/
theorem Timed.cons (t : Timed i o past w r) (hclose : event ≠ .move i (.crew .close))
    (hstay : ¬ Occurrence.Aborts i ⟨w, event, w'⟩) {r' : Run}
    (hearly : r'.roster.phase.isEarly = true → r.roster.phase.isEarly = true)
    (hdraining : ∀ till, r'.roster.phase = .draining till →
      r.roster.phase = .draining till ∧ w'.plant.now ≤ till) :
    Timed i o (⟨w, event, w'⟩ :: past) w' r' where
  early hphase := List.forall_mem_cons.mpr ⟨hclose, t.early (hearly hphase)⟩
  draining till hphase := by
    obtain ⟨hbefore, hnow⟩ := hdraining till hphase
    obtain ⟨⟨-, hwhole⟩, ⟨start, hstart, hevent⟩, htill⟩ := t.draining till hbefore
    refine ⟨⟨hnow, hwhole⟩, ⟨start, List.mem_cons_of_mem _ hstart, hevent⟩, ?_⟩
    exact List.forall_mem_cons.mpr ⟨fun heq => absurd heq hclose, htill⟩
  aborted :=
    List.forall_mem_cons.mpr ⟨fun haborts => absurd haborts hstay, t.aborted_cons⟩

/-- Whether a crew is aborted is told by its slots before and after. -/
theorem aborts_iff {b b' : Bool} {r' : Run} (hbefore : w.parties[i]? = some ⟨b, .crew r⟩)
    (hafter : w'.parties[i]? = some ⟨b', .crew r'⟩) :
    Occurrence.Aborts i ⟨w, event, w'⟩ ↔
      (r'.slotsBut (event.slot? i)).countP Slot.holds
        < (r.slotsBut (event.slot? i)).countP Slot.holds := by
  constructor
  · rintro ⟨b₀, r₀, b₁, r₁, hr₀, hr₁, hlt⟩
    cases hbefore.symm.trans hr₀
    cases hafter.symm.trans hr₁
    exact hlt
  · exact fun hlt => ⟨b, r, b', r', hbefore, hafter, hlt⟩

/-- The clock does not go past the end of the drain time. -/
theorem InTime.now_le (allowed : InTime i w event) (happens : w.step event = some w')
    (there : w.parties[i]? = some ⟨isCanceled, .crew r⟩) {m : Nat}
    (hphase : r.roster.phase = .draining (m * nanosPerMilli))
    (hnow : w.plant.now ≤ m * nanosPerMilli) : w'.plant.now ≤ m * nanosPerMilli := by
  by_cases hclock : ∀ millis, event ≠ .advance millis
  · rw [World.step_now happens hclock]
    exact hnow
  · obtain ⟨millis, rfl⟩ := not_forall_not.mp hclock
    have hintime : millis ≤ Rehearsal.Stage.ceilMillis (m * nanosPerMilli) := by
      refine allowed _ there r rfl _ ?_
      rw [Run.deadline?, hphase]
      rfl
    cases World.step_cases happens with
    | advanced => exact Lease.le_of_le_ceilMillis hintime

theorem Timed.moved {stores : List Queue.Store}
    (before : Leasework.Run stores (Prompt i post o) past w)
    (there : w.parties[i]? = some ⟨isCanceled, .crew r⟩)
    (hcrew : w'.parties[i]? = some ⟨isCanceled, .crew ⟨r.post, roster⟩⟩)
    (st : r.Step isCanceled w.plant move w'.plant roster) (t : Timed i o past w r) :
    Timed i o (⟨w, .move i (.crew move), w'⟩ :: past) w' ⟨r.post, roster⟩ := by
  have hnow : w'.plant.now = w.plant.now := st.now_eq
  have hstay : move ≠ .expired → ¬ Occurrence.Aborts i ⟨w, .move i (.crew move), w'⟩ := by
    intro hmove
    rw [aborts_iff there hcrew]
    exact Nat.not_lt.mpr (st.countP_slotsBut_le hmove)
  have hgoes : ∀ till, r.roster.phase = .draining till → w'.plant.now ≤ till := by
    intro till hphase
    rw [hnow]
    exact (t.draining till hphase).1.1
  generalize hp : w'.plant = p' at st
  cases st with
  | closed staffing =>
    have hearly := t.early (by rw [staffing]; rfl)
    have hdrain := ((before.mono fun _ _ h => h.1).posted there).order.drainTime
    refine ⟨nofun, fun till hphase => ?_, ?_⟩
    · obtain rfl : w.plant.now + r.roster.drainTime = till := by
        cases hphase
        rfl
      refine ⟨⟨?_, ?_⟩, ⟨_, List.mem_cons_self, rfl⟩, List.forall_mem_cons.mpr ⟨?_, ?_⟩⟩
      · rw [hnow]
        exact Nat.le_add_right _ _
      · obtain ⟨m, hm⟩ := before.exists_millis
        refine ⟨m + o.drainMillis.toNat, ?_⟩
        rw [hm, hdrain, Nat.add_mul]
        exact congrArg _ (Span.toNanos_ofMillis o.drainMillis)
      · intro _
        rw [hdrain]
      · -- The crew has not begun to drain before.
        exact fun start hstart hevent => absurd hevent (hearly start hstart)
    · exact List.forall_mem_cons.mpr ⟨fun haborts => absurd haborts (hstay nofun), t.aborted_cons⟩
  | expired draining incomplete late =>
    obtain ⟨⟨hle, -⟩, ⟨start, hstart, hevent⟩, htill⟩ := t.draining _ draining
    refine ⟨nofun, nofun, List.forall_mem_cons.mpr ⟨fun _ => ⟨?_, ?_⟩, t.aborted_cons⟩⟩
    · refine ⟨start, List.mem_cons_of_mem _ hstart, hevent, ?_⟩
      rw [← htill start hstart hevent]
      exact Nat.le_antisymm hle late
    · intro party hparty r' hr'
      rw [Option.mem_def, hcrew] at hparty
      cases hparty
      cases hr'
      exact isFree_abortAll _ _
  | readied starting =>
    exact t.cons (by simp) (hstay nofun) (fun _ => by rw [starting]; rfl) nofun
  | staffed | reaped | went | failed | retired | rested =>
    exact t.cons (by simp) (hstay nofun) id fun till h => ⟨h, hgoes till h⟩
  | _ => exact t.cons (by simp) (hstay nofun) nofun nofun

/-- What an event comes to for a crew keeps its drain timed. -/
theorem Timed.step {stores : List Queue.Store}
    (before : Leasework.Run stores (Prompt i post o) past w) (allowed : InTime i w event)
    (happens : w.step event = some w') (hcrew : w'.parties[i]? = some ⟨isCanceled, .crew r⟩)
    (st : World.CrewStep w w' i post o event isCanceled r)
    (hbefore : ∀ isCanceled r, w.parties[i]? = some ⟨isCanceled, .crew r⟩ →
      Timed i o past w r) :
    Timed i o (⟨w, event, w'⟩ :: past) w' r := by
  -- Whoever is the same crew before and after an event has not been aborted.
  have hsame : ∀ {b : Bool}, w.parties[i]? = some ⟨b, .crew r⟩ →
      ¬ Occurrence.Aborts i ⟨w, event, w'⟩ := by
    intro b there
    rw [aborts_iff there hcrew]
    exact Nat.lt_irrefl _
  cases st with
  | joined absent =>
    have hnone := before.absent_before absent
    refine ⟨fun _ => List.forall_mem_cons.mpr ⟨by simp, fun occ hocc => (hnone occ hocc).2 _⟩,
      nofun, List.forall_mem_cons.mpr ⟨?_, ?_⟩⟩
    -- Nobody is aborted who was not there before.
    · rintro ⟨b₀, r₀, b₁, r₁, hr₀, -⟩
      cases absent.symm.trans hr₀
    · rintro occ hocc ⟨b₀, r₀, b₁, r₁, hr₀, -⟩
      cases (hnone occ hocc).1.symm.trans hr₀
  | stayed there no_move =>
    have t := hbefore _ _ there
    refine t.cons (no_move _) (hsame there) id fun till hphase => ⟨hphase, ?_⟩
    obtain ⟨⟨hnow, m, rfl⟩, -⟩ := t.draining till hphase
    exact allowed.now_le happens there hphase hnow
  | canceled there same =>
    have t := hbefore _ _ there
    refine t.cons (by simp) (hsame there) id fun till hphase => ⟨hphase, ?_⟩
    rw [same]
    exact (t.draining till hphase).1.1
  | moved there st => exact Timed.moved before there hcrew st (hbefore _ _ there)

/-- In every run the drain of a crew is timed. -/
theorem timed {stores : List Queue.Store} (run : Leasework.Run stores (Prompt i post o) past w)
    (hcrew : w.parties[i]? = some ⟨isCanceled, .crew r⟩) : Timed i o past w r := by
  induction run generalizing isCanceled r with
  | start => cases hcrew
  | step event before allowed happens ih =>
    have manned := before.mono fun _ _ h => h.1
    exact Timed.step before allowed.2 happens hcrew
      (World.step_crew manned.keepOff allowed.1 happens hcrew) fun _ _ => ih

/-! ### The law where all permits can be gathered at once -/

/-- A crew that is joining and waits for nobody takes its slots away and goes on to the handler. -/
theorem Run.IsFree.release (free : r.IsFree) (joining : r.roster.phase = .joining) {n : Nat}
    (hn : r.roster.slots.length = n) :
    ∃ moves r', r.stepAll isCanceled p moves = some (p, r') ∧
      r'.roster.phase = .disposing := by
  induction n generalizing r with
  | zero =>
    have hempty : r.roster.slots = [] := List.eq_nil_of_length_eq_zero hn
    have hstep : r.step isCanceled p .joined
        = some (p, ⟨r.post, { r.roster with phase := .disposing }⟩) := by
      simp only [Run.step, Roster.joined, joining, hempty, List.isEmpty_nil, if_true,
        Run.onRoster, Option.map_some]
    exact ⟨[.joined], _, Run.stepAll_cons hstep, rfl⟩
  | succ n ih =>
    obtain ⟨slot, slots, hslots⟩ := List.exists_cons_of_length_eq_add_one hn
    obtain rfl := Slot.eq_over_of_not_holds (free slot (hslots ▸ List.mem_cons_self))
    have hrest : (⟨r.post, { r.roster with slots := slots }⟩ : Run).IsFree :=
      fun slot hslot => free slot (hslots ▸ List.mem_cons_of_mem _ hslot)
    have hlength : slots.length = n := by
      rw [hslots, List.length_cons] at hn
      omega
    have hstep : r.step isCanceled p (.reap 0)
        = some (p, ⟨r.post, { r.roster with slots := slots }⟩) := by
      simp only [Run.step, Roster.reap, joining, hslots, List.getElem?_cons_zero,
        List.eraseIdx_cons_zero, Run.onRoster, Option.map_some]
    obtain ⟨moves, r', hsteps, hphase⟩ := ih hrest joining hlength
    exact ⟨.reap 0 :: moves, r', (Run.stepAll_cons hstep).trans hsteps, hphase⟩

/-- A crew whose permits can all be gathered at once drains as it should. -/
theorem drains_of_size_le (hsize : o.size ≤ Roster.mostGathered) {stores : List Queue.Store}
    (run : Leasework.Run stores (Prompt i post o) past w)
    (hcrew : w.parties[i]? = some ⟨isCanceled, .crew r⟩) : Drains i o past w isCanceled r := by
  have t := timed run hcrew
  have ord := ((run.mono fun _ _ h => h.1).posted hcrew).order
  have hall : r.roster.drainPermits = o.size := by
    rw [Roster.drainPermits, ord.size]
    exact Nat.min_eq_left hsize
  have hbalance := ord.balance
  rw [Permits.unheld, ord.size] at hbalance
  refine ⟨fun hdrained => ?completed, fun start hstart hevent hlate hheld => ?overdue, t.aborted,
    fun joining free => free.release joining rfl⟩
  case completed =>
    obtain ⟨⟨p', r'⟩, hstep⟩ := Option.isSome_iff_exists.mp hdrained
    obtain ⟨roster, st, -⟩ := Run.step_cases hstep
    cases st with
    | drained draining complete =>
      rw [ord.wanted _ draining, hall] at complete
      exact Run.isFree_iff.mpr (by omega)
  case overdue =>
    rw [Run.isFree_iff] at hheld
    -- A slot that holds a permit is there only while the crew is still draining.
    cases hphase : r.roster.phase with
    | starting => exact absurd hevent (t.early (by rw [hphase]; rfl) start hstart)
    | staffing => exact absurd hevent (t.early (by rw [hphase]; rfl) start hstart)
    | draining till =>
      obtain ⟨⟨hnow, -⟩, -, htill⟩ := t.draining till hphase
      obtain rfl := htill start hstart hevent
      have hwanted := ord.wanted _ hphase
      have hincomplete : r.roster.permits.complete = false := by
        unfold Permits.complete
        rw [hwanted, hall]
        exact decide_eq_false (by omega)
      have hstep : r.step isCanceled w.plant .expired
          = some (r.roster.consumers.foldl Consumer.abandon w.plant,
            ⟨r.post, { r.roster.abortAll with phase := .joining }⟩) := by
        simp only [Run.step, Roster.expired, hphase, hincomplete, Bool.not_false, Bool.true_and,
          decide_eq_true_eq, hlate, if_true, bind, Option.bind_some]
      exact ⟨Nat.le_antisymm hnow hlate, _, _, hstep, isFree_abortAll _ _⟩
    | joining =>
      have hsettled := ord.settled hphase
      rw [hall, ord.size] at hsettled
      omega
    | disposing =>
      rw [ord.empty (by rw [hphase]; rfl)] at hheld
      exact absurd rfl hheld
    | ended result =>
      rw [ord.empty (by rw [hphase]; rfl)] at hheld
      exact absurd rfl hheld

end

/-! ### A larger crew -/

/-- The post of a crew that nobody sends requests to. -/
def idlePost : Work.Post := ⟨⟨0, .none⟩, ⟨0, .none⟩, 0, 0⟩

/-- A world with nothing in it but a crew, its board and no store. -/
def alone (isCanceled : Bool) (roster : Roster Consumer) : World :=
  ⟨⟨0, [], [.blank], [], 0⟩, [⟨isCanceled, .crew ⟨idlePost, roster⟩⟩]⟩

/-- A crew of which not all permits can be gathered takes the drain for complete while its first
consumer is still there. -/
theorem not_drainLaw_of_mostGathered_lt {o : Options} (hsize : Roster.mostGathered < o.size) :
    ¬ DrainLaw o := by
  intro law
  let slots : List (Slot Consumer) := [.running (.waiting idlePost true)]
  let permits : Permits := ⟨o.size - 1, 0, 0⟩
  let roster : Phase → Permits → List (Slot Consumer) → Roster Consumer :=
    fun phase permits slots =>
      ⟨o.size, o.drainTime.toNanos, o.pause.toNanos, phase, permits, slots⟩
  have hpositive : 0 < o.size := by omega
  have boarded : Leasework.Run [] (Prompt 0 idlePost o) _ ⟨⟨0, [], [.blank], [], 0⟩, []⟩ :=
    .step .board .start ⟨trivial, trivial⟩ rfl
  have joined : Leasework.Run [] (Prompt 0 idlePost o) _ (alone false (.create o)) :=
    .step (.join ⟨false, .crew (.create idlePost o)⟩) boarded ⟨⟨rfl, rfl⟩, trivial⟩ rfl
  have readied : Leasework.Run [] (Prompt 0 idlePost o) _
      (alone false (roster .staffing (.full o.size) [])) :=
    .step (.move 0 (.crew (.started (.ok ())))) joined ⟨trivial, trivial⟩ rfl
  have hstaff : (alone false (roster .staffing (.full o.size) [])).step (.move 0 (.crew .staff))
      = some (alone false (roster .staffing permits slots)) := by
    simp [World.step, Party.step, Run.step, Run.onRoster, Roster.staff, Permits.acquire?,
      Permits.full, alone, roster, permits, slots, hpositive]
  have staffed := Leasework.Run.step (.move 0 (.crew .staff)) readied ⟨trivial, trivial⟩ hstaff
  have asked : Leasework.Run [] (Prompt 0 idlePost o) _
      (alone true (roster .staffing permits slots)) :=
    .step (.cancel 0) staffed ⟨trivial, trivial⟩ rfl
  have closed : Leasework.Run [] (Prompt 0 idlePost o) _
      (alone true (roster (.draining (0 + o.drainTime.toNanos))
        (permits.gather (min o.size Roster.mostGathered)) slots)) :=
    .step (.move 0 (.crew .close)) asked ⟨trivial, trivial⟩ rfl
  have drains := law _ _ _ _ _ _ _ closed rfl
  -- One permit is held, and as many as can be gathered are free.
  have hcomplete : (permits.gather (min o.size Roster.mostGathered)).complete = true := by
    refine decide_eq_true ?_
    show min o.size Roster.mostGathered ≤ min (o.size - 1) (min o.size Roster.mostGathered)
    omega
  have hfree := drains.completed (by
    simp only [Run.step, Roster.drained, roster, hcomplete, if_true, Run.onRoster,
      Option.map_some, Option.isSome_some])
  cases hfree _ List.mem_cons_self

/-- Shutdown waits as it should exactly if all permits of the crew can be gathered at once. -/
theorem drainLaw_iff (o : Options) : DrainLaw o ↔ o.size ≤ Roster.mostGathered := by
  constructor
  · intro law
    by_contra hsize
    exact not_drainLaw_of_mostGathered_lt (Nat.not_le.mp hsize) law
  · intro hsize stores i post past w isCanceled r run hcrew
    exact drains_of_size_le hsize run hcrew

end Crew

/-- A handler of a very large crew is stuck. A second after the beginning shutdown is asked for,
the drain is taken for complete, and four seconds later the handler is still there. -/
def stuckHandler : List Event :=
  [.advance 5000, .move 1 (.crew .drained), .move 1 (.crew .close), .cancel 1, .advance 1000,
    .move 1 (.crew (.consume 0 (.call .go))), .move 1 (.crew .staff),
    .move 1 (.crew (.started (.ok ()))),
    .join
      ⟨false, .crew (.create ⟨⟨0, .none⟩, ⟨1, .none⟩, 0, 3750000000⟩ ⟨4294967296, 3000, 1000⟩)⟩,
    .move 0 (.call .go), .join ⟨false, .call (.start ⟨0, .none⟩ (.send "stuck"))⟩, .board]

/-- With one permit more than can be gathered at once, shutdown waits for a handler that is stuck
beyond the drain time of three seconds. -/
theorem not_drainLaw_stuckHandler : ¬ Crew.DrainLaw ⟨4294967296, 3000, 1000⟩ := by
  intro law
  have hplayed : ∃ run ∈ World.play [.empty "q" 5000000000, .empty "r" 5000000000] stuckHandler,
      (∃ party ∈ run.2.parties[1]?, ∃ r ∈ party.task.crew?,
        ∃ slot ∈ r.roster.slots, slot.holds = true) ∧
      run.2.plant.now = 5000000000 ∧ (∀ o ∈ run.1, o.before.plant.now ≤ 1000000000) ∧
      ∀ o ∈ run.1, Crew.Prompt 1 ⟨⟨0, .none⟩, ⟨1, .none⟩, 0, 3750000000⟩
        ⟨4294967296, 3000, 1000⟩ o.before o.event := by
    decide
  obtain ⟨⟨past, w⟩, hplay, ⟨⟨isCanceled, task⟩, hparty, r, hr, slot, hslot, hholds⟩, hnow,
    hbefore, hallowed⟩ := hplayed
  obtain rfl := Task.crew?_eq_some hr
  have drains := law _ _ _ _ _ _ _ (Run.play hplay hallowed) hparty
  have hclose : .move 1 (.crew .close) ∈ past.map Occurrence.event := by
    rw [World.map_event_play hplay]
    simp [stuckHandler]
  obtain ⟨start, hstart, hevent⟩ := List.mem_map.mp hclose
  have hbegun := hbefore start hstart
  have hdrain : (Crew.Options.drainTime ⟨4294967296, 3000, 1000⟩).toNanos = 3000000000 := by
    decide
  have hend : w.plant.now = 5000000000 := hnow
  -- The drain time was over a second ago at the latest, and the slot still holds its permit.
  have hover := (drains.overdue start hstart hevent (by rw [hdrain]; omega) fun hfree => by
    cases (hfree slot hslot).symm.trans hholds).1
  rw [hdrain] at hover
  omega

end Leasework
