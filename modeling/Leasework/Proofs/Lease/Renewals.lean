import Leasework.Proofs.Queue.Counts
import Leasework.Proofs.World.Rounds

/-!
# `Leasework.Proofs.Lease.Renewals`: the renewals of a keeper on record

`Occurrence.renewal?` reads off an event what it comes to for the keeper of a number: whether a
renewal begins with it, and how far the renewal comes. A renewal is one call, with all its attempts
and all the rests between them.

`Plant.Passes` lists what may become of a keeper with an event, and `World.step_passing` says that
there is nothing else, whoever has the turn. From it comes the account of every keeper
(`Run.booked`): what has begun has been completed, but for one renewal at most, and the keeper's own
counters are the numbers of those on record that succeeded and failed.
-/

set_option autoImplicit false

namespace Leasework

open Queue (Call Progress)

/-! ### What is seen of a keeper -/

namespace Plant

/-- The keeper of a number, without what is known about its owner. -/
def keeping? (p : Plant) (k : Nat) : Option (Lease.Keeper Call) :=
  (p.keeper? k).map KeeperEntry.keeper

/-- Whether a renewal of the keeper of a number is in progress. -/
def isRenewing (p : Plant) (k : Nat) : Bool := (p.keeping? k).any Lease.Keeper.isRenewing

end Plant

/-- The call with which a keeper goes on: the renewal that is in progress, or a new one. -/
def KeeperEntry.call? (e : KeeperEntry) : Option Call :=
  match e.keeper.phase with
  | .waiting _ => if e.keeper.stopped then none else some e.renewal
  | .renewing _ call => some call
  | .ended => none

/-- The renewal with which the keeper of a number goes on in an event: whether it begins, and how
far it comes. -/
def World.renewal? (w : World) (k : Nat) : Event → Option (Bool × Progress)
  | .keeper n =>
    if n = k then do
      let e ← w.plant.keeper? k
      let call ← e.call?
      let (_, progress) ← w.plant.stepCall false call .go
      some (!e.keeper.isRenewing, progress)
    else none
  | _ => none

section
variable {w : World} {k : Nat} {e : KeeperEntry}

/-- A step of the call with which a keeper goes on is on record. -/
theorem World.renewal?_of_call {call : Call} {p₁ : Plant} {progress : Progress}
    (found : w.plant.keeper? k = some e) (calling : e.call? = some call)
    (made : w.plant.stepCall false call .go = some (p₁, progress)) :
    w.renewal? k (.keeper k) = some (!e.keeper.isRenewing, progress) := by
  simp only [renewal?, found, calling, made, if_true, bind, Option.bind_some]

/-- A keeper that only ends makes no renewal. -/
theorem World.renewal?_of_no_call (found : w.plant.keeper? k = some e) (idle : e.call? = none) :
    w.renewal? k (.keeper k) = none := by
  simp only [renewal?, found, idle, if_true, bind, Option.bind_some, Option.bind_none]

end

namespace Occurrence

/-- The renewal with which a keeper goes on. -/
def renewal? (k : Nat) (o : Occurrence) : Option (Bool × Progress) := o.before.renewal? k o.event

/-- Whether a renewal begins. -/
def begins (k : Nat) (o : Occurrence) : Bool := (o.renewal? k).any Prod.fst

/-- What a renewal comes to that is completed. -/
def completion? (k : Nat) (o : Occurrence) : Option (Except Queue.Failure Queue.Reply) :=
  (o.renewal? k).bind fun renewal => renewal.2.result?

end Occurrence

/-- How many renewals of a keeper have begun. -/
def renewalsBegun (k : Nat) (past : List Occurrence) : Nat := past.countP (·.begins k)

/-- How many renewals of a keeper have been completed. -/
def renewalsCompleted (k : Nat) (past : List Occurrence) : Nat :=
  past.countP fun o => (o.completion? k).isSome

/-- How many renewals of a keeper have succeeded. -/
def renewalsMade (k : Nat) (past : List Occurrence) : Nat :=
  past.countP fun o => (o.completion? k).any Except.isOk

/-- How many renewals of a keeper have failed. -/
def renewalsFailed (k : Nat) (past : List Occurrence) : Nat :=
  past.countP fun o => (o.completion? k).any (!·.isOk)

/-- One more element is counted if it has the property. -/
theorem countP_cons_toNat {α : Type} (p : α → Bool) (a : α) (as : List α) :
    (a :: as).countP p = as.countP p + (p a).toNat := by
  rw [List.countP_cons]
  cases p a <;> rfl

/-- A renewal that is completed has succeeded or failed. -/
theorem renewalsCompleted_eq (k : Nat) (past : List Occurrence) :
    renewalsCompleted k past = renewalsMade k past + renewalsFailed k past := by
  unfold renewalsCompleted renewalsMade renewalsFailed
  induction past with
  | nil => rfl
  | cons o past ih =>
    have hcases : (o.completion? k).isSome.toNat
        = ((o.completion? k).any Except.isOk).toNat
          + ((o.completion? k).any (!·.isOk)).toNat := by
      rcases o.completion? k with _ | (_ | _) <;> rfl
    rw [countP_cons_toNat, countP_cons_toNat, countP_cons_toNat, ih, hcases]
    omega

/-! ### What may become of a keeper -/

/-- What may become of a keeper that makes no step: nothing, it is told to stop, or it is taken away
after it has ended. -/
inductive Lease.Keeper.Idles : Option (Lease.Keeper Call) → Option (Lease.Keeper Call) → Prop
  | same {a : Option (Lease.Keeper Call)} : Idles a a
  | told {keeper : Lease.Keeper Call} : Idles (some keeper) (some keeper.stop)
  | gone {keeper : Lease.Keeper Call} (ended : keeper.hasEnded = true) : Idles (some keeper) none

namespace Lease.Keeper
variable {a b c : Option (Lease.Keeper Call)} {keeper : Lease.Keeper Call}

theorem Idles.trans (h : Idles a b) (h' : Idles b c) : Idles a c := by
  cases h with
  | same => exact h'
  | told =>
    cases h' with
    | same => exact .told
    | told => exact .told
    | gone ended => exact .gone ended
  | gone ended =>
    cases h'
    exact .gone ended

/-- Whether a keeper is renewing does not change while it makes no step. -/
theorem Idles.isRenewing (h : Idles a b) : b.any Keeper.isRenewing = a.any Keeper.isRenewing := by
  cases h with
  | same => rfl
  | told => rfl
  | gone ended =>
    rw [Option.any_none, Option.any_some, isRenewing_eq_false ended]

/-- Nor do its counters, as long as it is there. -/
theorem Idles.counters (h : Idles a b) : ∀ keeper' ∈ b, ∃ keeper ∈ a,
    keeper'.renewed = keeper.renewed ∧ keeper'.failed = keeper.failed ∧
      (keeper.stopped = true → keeper'.stopped = true) := by
  cases h with
  | same => exact fun keeper hk => ⟨keeper, hk, rfl, rfl, id⟩
  | told =>
    rintro _ ⟨⟩
    exact ⟨_, rfl, rfl, rfl, fun _ => rfl⟩
  | gone => exact nofun

/-- A keeper does not begin with a renewal. -/
theorem isRenewing_start (period now : Nat) :
    (Keeper.start period now : Keeper Call).isRenewing = false := by
  unfold Keeper.start
  by_cases hperiod : period = 0
  · rw [if_pos hperiod]
    rfl
  · rw [if_neg hperiod]
    rfl

/-- A keeper is still renewing while its renewal goes on. -/
theorem isRenewing_noting (busy : keeper.isRenewing = true) (progress : Progress) :
    (keeper.noting progress).isRenewing = progress.result?.isNone := by
  obtain ⟨period, stopped, phase, renewed, failed⟩ := keeper
  cases phase with
  | renewing => rcases progress with call | (f | reply) <;> rfl
  | _ => cases busy

/-- A keeper counts the renewal that is completed. -/
theorem counters_noting (busy : keeper.isRenewing = true) (progress : Progress) :
    (keeper.noting progress).renewed
        = keeper.renewed + .ofNat (progress.result?.any Except.isOk).toNat ∧
      (keeper.noting progress).failed
        = keeper.failed + .ofNat (progress.result?.any (!·.isOk)).toNat := by
  obtain ⟨period, stopped, phase, renewed, failed⟩ := keeper
  cases phase with
  | renewing =>
    rcases progress with call | (f | reply)
    · exact ⟨(UInt32.add_zero renewed).symm, (UInt32.add_zero failed).symm⟩
    · exact ⟨(UInt32.add_zero renewed).symm, rfl⟩
    · exact ⟨rfl, (UInt32.add_zero failed).symm⟩
  | _ => cases busy

theorem stopped_noting (keeper : Lease.Keeper Call) (progress : Progress) :
    (keeper.noting progress).stopped = keeper.stopped := by
  obtain ⟨period, stopped, phase, renewed, failed⟩ := keeper
  rcases progress with call | (f | reply) <;> cases phase <;> rfl

end Lease.Keeper

/-- What may become of the keeper of a number, with the renewal that is on record. -/
inductive Plant.Passes (k : Nat) (p p' : Plant) : Option (Bool × Progress) → Prop
  /-- It makes no step. -/
  | idle (idles : Lease.Keeper.Idles (p.keeping? k) (p'.keeping? k)) : Passes k p p' none
  /-- It starts, with a number that is new. -/
  | started {period now : Nat} (new : k = p.numbered) (absent : p.keeping? k = none)
      (fresh : p'.keeping? k = some (.start period now)) : Passes k p p' none
  /-- It ends, because it has been told to stop. -/
  | ended {keeper : Lease.Keeper Call} (found : p.keeping? k = some keeper)
      (told : keeper.stopped = true) (quiet : keeper.isRenewing = false)
      (after : Lease.Keeper.Idles (some { keeper with phase := .ended }) (p'.keeping? k)) :
      Passes k p p' none
  /-- It begins a renewal. -/
  | begun {keeper : Lease.Keeper Call} {due : Nat} {call : Call} {progress : Progress}
      (found : p.keeping? k = some keeper) (free : keeper.stopped = false)
      (quiet : keeper.isRenewing = false)
      (after : p'.keeping? k
        = some (.noting { keeper with phase := .renewing due call } progress)) :
      Passes k p p' (some (true, progress))
  /-- It goes on with a renewal. -/
  | continued {keeper : Lease.Keeper Call} {progress : Progress}
      (found : p.keeping? k = some keeper) (busy : keeper.isRenewing = true)
      (after : p'.keeping? k = some (keeper.noting progress)) :
      Passes k p p' (some (false, progress))

namespace Plant
variable {p p' : Plant} {k n : Nat}

/-- Only the keeper that is found under the number matters, and whether the number is new. -/
theorem Passes.of_same {q : Plant} {renewal : Option (Bool × Progress)}
    (ps : Passes k q p' renewal) (hkeeping : q.keeping? k = p.keeping? k)
    (hnumbered : q.numbered = p.numbered) : Passes k p p' renewal := by
  cases ps with
  | idle idles => exact .idle (hkeeping ▸ idles)
  | started new absent fresh => exact .started (new.trans hnumbered) (hkeeping ▸ absent) fresh
  | ended found told quiet after => exact .ended (hkeeping ▸ found) told quiet after
  | begun found free quiet after => exact .begun (hkeeping ▸ found) free quiet after
  | continued found busy after => exact .continued (hkeeping ▸ found) busy after

/-! ### What is done to a keeper -/

theorem keeping?_of_keepers (h : p'.keepers = p.keepers) : p'.keeping? k = p.keeping? k := by
  unfold keeping? keeper?
  rw [h]

/-- Putting another keeper in the place of one changes what is found under its number. -/
theorem keeping?_onKeeper {change : KeeperEntry → KeeperEntry}
    (hnumber : ∀ e, (change e).number = e.number) :
    (p.onKeeper n change).keeping? k
      = (p.keeper? k).map fun e => if e.number = n then (change e).keeper else e.keeper := by
  unfold keeping?
  rw [keeper?_onKeeper_eq hnumber, Option.map_map]
  congr 1
  funext e
  show (if e.number = n then change e else e).keeper = _
  split <;> rfl

/-- A keeper that is told to stop, and the others, make no step. -/
theorem idles_onKeeper {change : KeeperEntry → KeeperEntry}
    (hnumber : ∀ e, (change e).number = e.number)
    (hstop : ∀ e, (change e).keeper = e.keeper.stop) :
    Lease.Keeper.Idles (p.keeping? k) ((p.onKeeper n change).keeping? k) := by
  rw [keeping?_onKeeper hnumber, keeping?]
  cases hfound : p.keeper? k with
  | none => exact .same
  | some e =>
    rw [Option.map_some, Option.map_some]
    split
    · rw [hstop]
      exact .told
    · exact .same

/-- Keepers are taken away only after they have ended. -/
theorem KeepersOrderly.idles_filter (o : p.KeepersOrderly) {keep : KeeperEntry → Bool}
    (hkeep : ∀ e, p.keeper? k = some e → keep e = false → e.keeper.hasEnded = true) :
    Lease.Keeper.Idles (p.keeping? k)
      (({ p with keepers := p.keepers.filter keep } : Plant).keeping? k) := by
  have o' := o.filter keep
  cases hfound : p.keeper? k with
  | none =>
    -- What is not there is not there after some have been taken away.
    have hnone : ({ p with keepers := p.keepers.filter keep } : Plant).keeper? k = none := by
      refine List.find?_eq_none.mpr fun e he => ?_
      exact List.find?_eq_none.mp hfound e (List.mem_filter.mp he).1
    rw [keeping?, keeping?, hfound, hnone]
    exact .same
  | some e =>
    cases hkept : keep e with
    | true =>
      rw [keeping?, keeping?, hfound, keeper?_filter hfound hkept]
      exact .same
    | false =>
      have hnone : ({ p with keepers := p.keepers.filter keep } : Plant).keeper? k = none := by
        refine List.find?_eq_none.mpr fun e' he' hn => ?_
        obtain ⟨hmem, hkept'⟩ := List.mem_filter.mp he'
        rw [o.eq_of_number hfound hmem (of_decide_eq_true hn), hkept] at hkept'
        cases hkept'
      rw [keeping?, keeping?, hfound, hnone]
      exact .gone (hkeep e hfound hkept)

/-- Sweeping takes away nobody but keepers that have ended. -/
theorem KeepersOrderly.idles_sweep (o : p.KeepersOrderly) :
    Lease.Keeper.Idles (p.keeping? k) (p.sweepKeepers.keeping? k) := by
  refine o.idles_filter fun e _ hswept => ?_
  simp only [Bool.not_eq_eq_eq_not, Bool.not_false, Bool.and_eq_true] at hswept
  exact hswept.2

/-- A keeper that ends may be swept away at once. -/
theorem KeepersOrderly.idles_end (o : p.KeepersOrderly) (e : KeeperEntry) :
    Lease.Keeper.Idles
      ((p.onKeeper e.number (.withKeeper { e.keeper with phase := .ended })).keeping? k)
      ((p.onKeeper e.number
        (.withKeeper { e.keeper with phase := .ended })).sweepKeepers.keeping? k) := by
  have o' := o.onKeeper (n := e.number)
    (KeeperEntry.withKeeper_number { e.keeper with phase := .ended })
    (fun _ _ _ _ _ hphase => nomatch hphase)
  exact o'.idles_sweep

/-- A keeper that is left is still in order before it is swept away. -/
theorem KeepersOrderly.onKeeper_leave (o : p.KeepersOrderly) :
    (p.onKeeper n fun e =>
      { e with keeper := e.keeper.stop, isLeft := true }).KeepersOrderly :=
  o.onKeeper (fun _ => rfl) fun e he _ => o.inShape e he

theorem KeepersOrderly.idles_leave (o : p.KeepersOrderly) :
    Lease.Keeper.Idles (p.keeping? k) ((p.leaveKeeper n).keeping? k) := by
  have htold : Lease.Keeper.Idles (p.keeping? k) ((p.onKeeper n fun e =>
      { e with keeper := e.keeper.stop, isLeft := true }).keeping? k) :=
    idles_onKeeper (fun _ => rfl) fun _ => rfl
  exact htold.trans o.onKeeper_leave.idles_sweep

theorem KeepersOrderly.idles_collect {keeper : Lease.Keeper Call} (o : p.KeepersOrderly)
    (h : p.collectKeeper? n = some (p', keeper)) :
    Lease.Keeper.Idles (p.keeping? k) (p'.keeping? k) := by
  obtain ⟨⟨e, found, rfl, hended⟩, rfl⟩ := collectKeeper?_cases h
  refine o.idles_filter fun e' found' hdropped => ?_
  have hk := (mem_of_keeper? found').2
  have hn : e'.number = n := by simpa using hdropped
  obtain rfl : k = n := hk.symm.trans hn
  cases found'.symm.trans found
  exact hended

/-- No keeper has a number that has not been handed out. -/
theorem KeepersOrderly.keeping?_eq_none (o : p.KeepersOrderly) (h : p.numbered ≤ k) :
    p.keeping? k = none := by
  unfold keeping?
  cases hfound : p.keeper? k with
  | none => rfl
  | some e =>
    obtain ⟨hmem, hk⟩ := mem_of_keeper? hfound
    have hlt := o.numbers_lt e hmem
    omega

/-- A keeper that starts has a number that nobody has had. -/
theorem KeepersOrderly.passes_start (o : p.KeepersOrderly) (handle : Queue.Handle)
    (delivery : Queue.Delivery) (period : Nat) :
    Passes k p (p.startKeeper handle delivery period).1 none := by
  by_cases hk : k = p.numbered
  · have fresh : (p.startKeeper handle delivery period).1.keeping? k
        = some (.start period p.now) := by
      rw [hk, keeping?, keeper?_startKeeper_self o.numbers_lt, Option.map_some]
    exact .started hk (o.keeping?_eq_none (Nat.le_of_eq hk.symm)) fresh
  · refine .idle ?_
    have hsame : (p.startKeeper handle delivery period).1.keeper? k = p.keeper? k := by
      cases hfound : p.keeper? k with
      | some e => exact keeper?_startKeeper hfound
      | none =>
        unfold keeper? at *
        rw [Plant.startKeeper, List.find?_append, hfound, Option.none_or]
        exact List.find?_cons_of_neg (by simpa using Ne.symm hk)
    rw [keeping?, keeping?, hsame]
    exact .same

/-- What somebody does who has the turn comes to one of two things for a keeper: it makes no step,
or it starts. -/
theorem Act.passes {call : Option Call} {keeper : Option Nat} (act : p.Act call keeper p')
    (o : p.KeepersOrderly) :
    Lease.Keeper.Idles (p.keeping? k) (p'.keeping? k) ∨ call ≠ none ∧ Passes k p p' none := by
  cases act with
  | noted => exact Or.inl .same
  | @called _ _ _ p₁ _ boards _ made =>
    have hkeeping : ({ p₁ with boards := boards } : Plant).keeping? k = p.keeping? k :=
      keeping?_of_keepers (keepers_stepCall made).1
    rw [hkeeping]
    exact Or.inl .same
  | @kept _ _ _ p₁ _ boards handle delivery period mine made =>
    have o₁ : ({ p₁ with boards := boards } : Plant).KeepersOrderly :=
      (o.stepCall made).of_eq rfl rfl
    have hkeeping : ({ p₁ with boards := boards } : Plant).keeping? k = p.keeping? k :=
      keeping?_of_keepers (keepers_stepCall made).1
    refine Or.inr ⟨by simp [mine], ?_⟩
    exact (o₁.passes_start handle delivery period).of_same hkeeping (keepers_stepCall made).2
  | stopped => exact Or.inl (idles_onKeeper (fun _ => rfl) fun _ => rfl)
  | left boards =>
    have o₁ : ({ p with boards := boards } : Plant).KeepersOrderly := o.of_eq rfl rfl
    exact Or.inl o₁.idles_leave
  | collected _ made => exact Or.inl (o.idles_collect made)

/-- A step of another keeper. -/
theorem KeeperStep.idles {e : KeeperEntry} (st : p.KeeperStep e p') (o : p.KeepersOrderly)
    (hne : e.number ≠ k) : Lease.Keeper.Idles (p.keeping? k) (p'.keeping? k) := by
  have hother : ∀ {q : Plant} {keeper : Lease.Keeper Call},
      (q.onKeeper e.number (.withKeeper keeper)).keeping? k = q.keeping? k := by
    intro q keeper
    rw [keeping?, keeper?_onKeeper (KeeperEntry.withKeeper_number _) hne, keeping?]
  have hmade : ∀ {call p₁ progress keeper}, p.stepCall false call .go = some (p₁, progress) →
      Lease.Keeper.Idles (p.keeping? k)
        ((p₁.onKeeper e.number (.withKeeper keeper)).keeping? k) := by
    intro call p₁ progress keeper made
    rw [hother, keeping?_of_keepers (p := p) (keepers_stepCall made).1]
    exact .same
  cases st with
  | ended =>
    have hswept := o.idles_end (k := k) e
    rwa [hother] at hswept
  | begun _ _ _ made => exact hmade made
  | continued _ made => exact hmade made

end Plant

/-! ### What an event comes to for a keeper -/

/-- The step of a keeper is on record for its number. -/
theorem Plant.KeeperStep.passes {w : World} {p' : Plant} {e : KeeperEntry} {k : Nat}
    (st : w.plant.KeeperStep e p') (o : w.plant.KeepersOrderly)
    (found : w.plant.keeper? k = some e) :
    Plant.Passes k w.plant p' (w.renewal? k (.keeper k)) := by
  have hk := (Plant.mem_of_keeper? found).2
  have hfound : w.plant.keeping? k = some e.keeper := by rw [keeping?, found]; rfl
  have hput : ∀ {p₁ : Plant} {keeper : Lease.Keeper Call}, p₁.keepers = w.plant.keepers →
      (p₁.onKeeper e.number (.withKeeper keeper)).keeping? k = some keeper := by
    intro p₁ keeper hkeepers
    have found₁ : p₁.keeper? e.number = some e := by
      unfold keeper?
      rw [hkeepers, hk]
      exact found
    rw [keeping?, ← hk, keeper?_onKeeper_self (KeeperEntry.withKeeper_number _) found₁]
    rfl
  cases st with
  | ended waiting told =>
    have hcall : e.call? = none := by simp [KeeperEntry.call?, waiting, told]
    rw [World.renewal?_of_no_call found hcall]
    have hswept := o.idles_end (k := k) e
    rw [hput rfl] at hswept
    exact .ended hfound told (by rw [Lease.Keeper.isRenewing, waiting]) hswept
  | begun waiting free reached made =>
    have hquiet : e.keeper.isRenewing = false := by rw [Lease.Keeper.isRenewing, waiting]
    have hcall : e.call? = some e.renewal := by simp [KeeperEntry.call?, waiting, free]
    rw [World.renewal?_of_call found hcall made, hquiet]
    exact .begun hfound free hquiet (hput (keepers_stepCall made).1)
  | @continued due call p₁ progress renewing made =>
    have hbusy : e.keeper.isRenewing = true := by rw [Lease.Keeper.isRenewing, renewing]
    have hcall : e.call? = some call := by rw [KeeperEntry.call?, renewing]
    rw [World.renewal?_of_call found hcall made, hbusy]
    exact .continued hfound hbusy (hput (keepers_stepCall made).1)

/-- Dropping an agent may tell a keeper to stop, and starts none. -/
theorem Agent.idles_abandon {p : Plant} {k : Nat} (a : Agent) (o : p.KeepersOrderly) :
    Lease.Keeper.Idles (p.keeping? k) ((a.abandon p).keeping? k) :=
  ((Agent.abandon_act p a).passes o).elim id fun started => absurd rfl started.1

/-- A turn comes to one of two things for a keeper: it makes no step, or it starts. -/
theorem Agent.Turn.passes {p p' : Plant} {worker : Option (Work.Consumer × Work.ConsumerMove)}
    {before after : List Agent} {k : Nat} (t : Agent.Turn p worker before p' after)
    (o : p.KeepersOrderly) : Plant.Passes k p p' none := by
  rcases t.plant_cases with rfl | ⟨a, ha, act⟩ | rfl
  · exact .idle .same
  · exact (act.passes o).elim .idle And.right
  · -- Agents are dropped one after the other.
    have hdropped : (before.foldl Agent.abandon p).KeepersOrderly ∧
        Lease.Keeper.Idles (p.keeping? k) ((before.foldl Agent.abandon p).keeping? k) := by
      refine List.foldlRecOn (motive := fun q => q.KeepersOrderly ∧
        Lease.Keeper.Idles (p.keeping? k) (q.keeping? k)) before Agent.abandon ⟨o, .same⟩ ?_
      rintro q ⟨oq, idles⟩ a -
      exact ⟨(Agent.abandon_act q a).keepersOrderly oq, idles.trans (Agent.idles_abandon a oq)⟩
    exact .idle hdropped.2

namespace World
variable {w w' : World} {event : Event}

/-- Whatever happens, it comes to one of these for the keeper of a number. -/
theorem step_passing (o : w.plant.KeepersOrderly) (h : w.step event = some w') (k : Nat) :
    Plant.Passes k w.plant w'.plant (w.renewal? k event) := by
  have hturn : ∀ {worker}, Agent.TurnIn w.plant worker w.agents w'.plant w'.agents →
      Plant.Passes k w.plant w'.plant none := by
    rintro worker ⟨before, after, rest, -, -, turn⟩
    exact turn.passes o
  cases step_cases h with
  | @kept n p made =>
    obtain ⟨e, found, st⟩ := Plant.stepKeeper_cases made
    -- A step of another keeper is not on record for this one.
    by_cases hn : n = k
    · subst hn
      exact st.passes o found
    · have hnone : w.renewal? k (.keeper n) = none := by
        simp only [World.renewal?, hn, if_false]
      rw [hnone]
      refine .idle (st.idles o ?_)
      rw [(Plant.mem_of_keeper? found).2]
      exact hn
  | started => exact o.passes_start _ _ _
  | stopped => exact .idle (Plant.idles_onKeeper (fun _ => rfl) fun _ => rfl)
  | left => exact .idle o.idles_leave
  | @assigned post handle d =>
    have o' : (w.plant.onBoard post.board .begin).KeepersOrderly := o.of_eq rfl rfl
    exact (o'.passes_start handle d post.period).of_same rfl rfl
  | moved turn => exact hturn turn
  | dropped turn => exact hturn turn
  | _ => exact .idle .same

end World

/-! ### The account of a keeper -/

namespace Plant.Passes
variable {p p' : Plant} {k : Nat} {renewal : Option (Bool × Progress)}

/-- A renewal that is in progress after an event has begun with it, or was in progress before. -/
theorem balance (ps : Passes k p p' renewal) :
    (renewal.any Prod.fst).toNat + (p.isRenewing k).toNat
      = ((renewal.bind fun r => r.2.result?).isSome).toNat + (p'.isRenewing k).toNat := by
  -- A keeper that renews has completed the renewal after its step, or is still in it.
  have hnoting : ∀ {keeper : Lease.Keeper Call} {progress : Progress}, keeper.isRenewing = true →
      progress.result?.isSome.toNat + (keeper.noting progress).isRenewing.toNat = 1 := by
    intro keeper progress busy
    rw [Lease.Keeper.isRenewing_noting busy]
    cases progress.result? <;> rfl
  unfold isRenewing
  cases ps with
  | idle idles =>
    rw [idles.isRenewing]
    rfl
  | started new absent fresh =>
    rw [absent, fresh, Option.any_some, Lease.Keeper.isRenewing_start]
    rfl
  | ended found told quiet after =>
    rw [after.isRenewing, found, Option.any_some, quiet]
    rfl
  | begun found free quiet after =>
    rw [after, found, Option.any_some, Option.any_some, Option.any_some, quiet]
    exact (hnoting rfl).symm
  | continued found busy after =>
    rw [after, found, Option.any_some, Option.any_some, Option.any_some, busy]
    exact (hnoting busy).symm

/-- The counters of a keeper are those from before and the renewal that is completed. -/
theorem counters (ps : Passes k p p' renewal) : ∀ keeper' ∈ p'.keeping? k,
    (p.keeping? k = none ∧ k = p.numbered ∧ keeper'.renewed = 0 ∧ keeper'.failed = 0 ∧
        renewal = none) ∨
      ∃ keeper ∈ p.keeping? k,
        keeper'.renewed = keeper.renewed
          + .ofNat ((renewal.bind fun r => r.2.result?).any Except.isOk).toNat ∧
        keeper'.failed = keeper.failed
          + .ofNat ((renewal.bind fun r => r.2.result?).any (!·.isOk)).toNat := by
  intro keeper' hk'
  cases ps with
  | idle idles =>
    obtain ⟨keeper, hk, hrenewed, hfailed, -⟩ := idles.counters keeper' hk'
    exact Or.inr ⟨keeper, hk, hrenewed.trans (UInt32.add_zero _).symm,
      hfailed.trans (UInt32.add_zero _).symm⟩
  | started new absent fresh =>
    cases hk'.symm.trans fresh
    exact Or.inl ⟨absent, new, rfl, rfl, rfl⟩
  | ended found told quiet after =>
    obtain ⟨_, ⟨⟩, hrenewed, hfailed, -⟩ := after.counters keeper' hk'
    exact Or.inr ⟨_, found, hrenewed.trans (UInt32.add_zero _).symm,
      hfailed.trans (UInt32.add_zero _).symm⟩
  | begun found free quiet after =>
    cases hk'.symm.trans after
    exact Or.inr ⟨_, found, Lease.Keeper.counters_noting rfl _⟩
  | continued found busy after =>
    cases hk'.symm.trans after
    exact Or.inr ⟨_, found, Lease.Keeper.counters_noting busy _⟩

end Plant.Passes

/-- What a counter of 32 bits shows of a number: it begins again at zero whenever it is full, so it
is exact if and only if the number fits. -/
structure Lease.Shows (counter : UInt32) (n : Nat) : Prop where
  wraps : counter.toNat = n % UInt32.size
  exact_iff : counter.toNat = n ↔ n < UInt32.size

theorem Lease.Shows.ofNat (n : Nat) : Shows (.ofNat n) n := by
  have hwraps : (UInt32.ofNat n).toNat = n % UInt32.size := UInt32.toNat_ofNat
  exact ⟨hwraps, hwraps ▸ Nat.mod_eq_iff_lt (by decide)⟩

/-- The record accounts for the renewals of the keeper of a number:

- `balance`: every renewal that has begun has been completed, or is in progress;
- `noted`: the keeper has counted those that succeeded and those that failed, with 32 bits each;
- `unnumbered`: no renewal has begun as long as the number is not given out. -/
structure Booked (k : Nat) (past : List Occurrence) (w : World) : Prop where
  balance : renewalsBegun k past = renewalsCompleted k past + (w.plant.isRenewing k).toNat
  noted : ∀ keeper ∈ w.plant.keeping? k,
    keeper.renewed = .ofNat (renewalsMade k past) ∧
      keeper.failed = .ofNat (renewalsFailed k past)
  unnumbered : w.plant.numbered ≤ k → renewalsBegun k past = 0

section
variable {k : Nat} {past : List Occurrence} {w w' : World} {event : Event}

/-- Every event keeps the account. -/
theorem Booked.step (b : Booked k past w) (o : w.plant.KeepersOrderly)
    (h : w.step event = some w') : Booked k (⟨w, event, w'⟩ :: past) w' := by
  have ps := World.step_passing o h k
  refine ⟨?balance, fun keeper' hk' => ?noted, fun hle => ?unnumbered⟩
  case balance =>
    have hbalance := ps.balance
    have hbefore := b.balance
    unfold renewalsBegun renewalsCompleted at *
    rw [countP_cons_toNat, countP_cons_toNat]
    unfold Occurrence.begins Occurrence.completion? Occurrence.renewal? at *
    dsimp only at *
    omega
  case noted =>
    unfold renewalsMade renewalsFailed
    rw [countP_cons_toNat, countP_cons_toNat]
    rcases ps.counters keeper' hk' with
      ⟨absent, new, hrenewed, hfailed, hnone⟩ | ⟨keeper, hk, hrenewed, hfailed⟩
    · -- The number is new, so nothing is on record for it.
      have hbegun := b.unnumbered (Nat.le_of_eq new.symm)
      have hbalance := b.balance
      have hcompleted := renewalsCompleted_eq k past
      have hquiet : (⟨w, event, w'⟩ : Occurrence).completion? k = none := by
        rw [Occurrence.completion?, Occurrence.renewal?, hnone, Option.bind_none]
      have hmade : renewalsMade k past = 0 := by omega
      have hlost : renewalsFailed k past = 0 := by omega
      rw [renewalsMade] at hmade
      rw [renewalsFailed] at hlost
      rw [hrenewed, hfailed, hquiet, hmade, hlost]
      exact ⟨rfl, rfl⟩
    · obtain ⟨hmade, hlost⟩ := b.noted keeper hk
      rw [hrenewed, hfailed, hmade, hlost, UInt32.ofNat_add, UInt32.ofNat_add]
      exact ⟨rfl, rfl⟩
  case unnumbered =>
    have hbefore := Nat.le_trans (World.step_numbered_le h) hle
    have hnone := o.keeping?_eq_none hbefore
    unfold renewalsBegun
    rw [countP_cons_toNat]
    have hbegun : renewalsBegun k past = 0 := b.unnumbered hbefore
    -- A keeper that begins a renewal is there already, so its number has been given out.
    have hquiet : (⟨w, event, w'⟩ : Occurrence).begins k = false := by
      unfold Occurrence.begins Occurrence.renewal?
      dsimp only
      generalize w.renewal? k event = renewal at ps
      cases ps with
      | begun found => cases hnone.symm.trans found
      | _ => rfl
    rw [hquiet]
    exact hbegun

/-- The record of every run accounts for the renewals of every keeper. -/
theorem Run.booked {stores : List Queue.Store} {may : World → Event → Prop}
    (run : Run stores may past w) (k : Nat) : Booked k past w := by
  induction run with
  | start => exact ⟨rfl, nofun, fun _ => rfl⟩
  | step _ before _ happens ih => exact ih.step before.keepersOrderly happens

end

end Leasework
