import Leasework.Proofs.Work.Rounds

/-!
# `Leasework.Proofs.World.Rounds`: the rounds of a world

On a plant the keepers renew through the stores, and a consumer makes the calls of its work there.
`Plant.KeeperStep.moves` and `Work.Consumer.Step.round` say that both do nothing but make the
moves of a round: a step of a keeper is one move or two, a step of a consumer is one move, until
the round is over.

So wherever a consumer has come to with its work in a run of the world, a round has come there
(`Run.inRounds`), as long as nobody else reaches for the keepers of consumers. With the last step
of its work the consumer concludes a round that is over (`Work.Consumer.Step.concludes`).
-/

set_option autoImplicit false

namespace Leasework

open Queue (Call Delivery Progress)
open Work (Command Consumer ConsumerMove Job Mark Round)

/-! ### Steps on a plant are moves of a round -/

namespace Work

/-- Whether the keeper has not been collected yet. -/
def Job.isKept {κ : Type} : Job κ → Bool
  | .handling => true
  | .settling _ => true
  | _ => false

/-- Who makes a call has collected the keeper. -/
theorem Job.isKept_eq_false {κ : Type} {job : Job κ} {call : κ} (h : job.call? = some call) :
    job.isKept = false := by
  cases job with
  | sending | deleting | returning => rfl
  | _ => cases h

/-- A round on a plant: the keeper is the one of a number, until it is collected. -/
def Round.on (p : Plant) (k : Nat) (job : Job Call) : Round Call :=
  ⟨job, if job.isKept then (p.keeper? k).map KeeperEntry.keeper else none⟩

/-- The keeper is there, and nobody has left it, until it is collected. -/
def Round.Stands (p : Plant) (k : Nat) (job : Job Call) : Prop :=
  job.isKept = true → ∃ e, p.keeper? k = some e ∧ e.isLeft = false

end Work

/-- One keeper becomes another one by a move. -/
def Lease.Keeper.Moves {κ : Type} (k k' : Lease.Keeper κ) : Prop :=
  ∃ move marks, k.step move = some (k', marks)

section
variable {p p' : Plant} {k : Nat} {job : Job Call}

theorem Work.Round.on_of_kept {e : KeeperEntry} (hkept : job.isKept = true)
    (found : p.keeper? k = some e) : Round.on p k job = ⟨job, some e.keeper⟩ := by
  rw [Round.on, if_pos hkept, found]
  rfl

theorem Work.Round.on_of_not_kept (hkept : job.isKept = false) :
    Round.on p k job = ⟨job, none⟩ := by
  rw [Round.on, hkept]
  rfl

/-- Once the keeper has been collected, it does not have to be there. -/
theorem Work.Round.stands_of_not_kept (hkept : job.isKept = false) : Round.Stands p k job := by
  intro h
  rw [hkept] at h
  cases h

/-- How far a renewal has come is a move of the keeper. -/
theorem Lease.Keeper.moves_noting {keeper : Lease.Keeper Call} (busy : keeper.isRenewing = true)
    (progress : Progress) : keeper.Moves (keeper.noting progress) := by
  cases progress with
  | going call => exact ⟨.proceed call, [], by rw [step, if_pos busy]; rfl⟩
  | ended result =>
    cases result with
    | ok reply => exact ⟨.finish (.ok ()), _, by rw [step, if_pos busy]; rfl⟩
    | error f => exact ⟨.finish (.error f), _, by rw [step, if_pos busy]; rfl⟩

/-- A step of a keeper is one move of it or two, and nobody leaves it. -/
theorem Plant.KeeperStep.moves {e : KeeperEntry} (st : p.KeeperStep e p')
    (found : p.keeper? k = some e) (owned : e.isLeft = false) : ∃ keeper,
      p'.keeper? k = some (e.withKeeper keeper) ∧
        Relation.ReflTransGen Lease.Keeper.Moves e.keeper keeper := by
  obtain rfl := (Plant.mem_of_keeper? found).2
  have hput : ∀ {p₁ : Plant} {canceled call move progress},
      p.stepCall canceled call move = some (p₁, progress) → ∀ keeper,
      (p₁.onKeeper e.number (.withKeeper keeper)).keeper? e.number
        = some (e.withKeeper keeper) := fun made keeper =>
    Plant.keeper?_onKeeper_self (KeeperEntry.withKeeper_number _)
      ((Plant.keeper?_stepCall made).trans found)
  cases st with
  | ended waiting told =>
    refine ⟨{ e.keeper with phase := .ended }, ?_, .single ⟨.rest, [], ?_⟩⟩
    · exact Plant.keeper?_sweepKeepers
        (Plant.keeper?_onKeeper_self (KeeperEntry.withKeeper_number _) found) owned
    · simp [Lease.Keeper.step, Lease.Keeper.end?, waiting, told]
  | @begun due p₁ progress waiting free reached made =>
    -- The renewal begins and makes its first step at once, and may be over with it.
    refine ⟨_, hput made _, .tail (.single ⟨.renew p.now e.renewal, [.renewing], ?_⟩)
      (Lease.Keeper.moves_noting rfl progress)⟩
    simp [Lease.Keeper.step, Lease.Keeper.begin?, waiting, free, reached]
  | continued renewing made =>
    refine ⟨_, hput made _, .single (Lease.Keeper.moves_noting ?_ _)⟩
    rw [Lease.Keeper.isRenewing, renewing]

/-- The keeper has ended and is collected, and the call begins for which the answer asks. -/
theorem Work.Round.step_settle {start : Command → Call} {id : String} {canceled : Bool}
    {a : Work.Answer} {job' : Job Call} {e : KeeperEntry} (found : p.keeper? k = some e)
    (hended : e.keeper.hasEnded = true)
    (hsettle : (Job.settling a).settle start id canceled = some job') :
    (Round.on p k (.settling a)).step start id (.settle canceled)
      = some (⟨job', none⟩, .settled canceled :: Round.begun job') := by
  rw [Round.on_of_kept rfl found]
  simp only [Round.step, hended, hsettle, bind, Option.bind_some, if_true]

/-- A step of a consumer that works is a move of its round, unless its handler crashes. With the
last one the round is over, and the consumer concludes it. -/
theorem Work.Consumer.Step.round {canceled : Bool} {c c' : Consumer} {move : ConsumerMove}
    (st : c.Step canceled p move p' c') {h : Queue.Handle} {d : Delivery}
    (doing : c.activity = .working h d k job) (stands : Round.Stands p k job) :
    (∃ text, move = .crash text) ∨ ∃ roundMove job' marks,
      (Round.on p k job).step (Consumer.callOf c.post h d) d.id roundMove
        = some (Round.on p' k job', marks) ∧ Round.Stands p' k job' ∧
      (c'.activity = .working h d k job' ∨
        ∃ p₁ result, job' = .over result ∧ c' = (Consumer.conclude p₁ c result).2) := by
  cases st with
  | waited doing' => cases doing'.symm.trans doing
  | began doing' => cases doing'.symm.trans doing
  | unserved doing' => cases doing'.symm.trans doing
  | @proceeded _ _ _ _ call call' _ _ doing' calling went =>
    cases doing'.symm.trans doing
    have hkept := Job.isKept_eq_false calling
    have hkept' : (job.proceed call').isKept = false := by
      cases job with
      | sending | deleting | returning => rfl
      | _ => cases calling
    refine Or.inr ⟨.proceed call', job.proceed call', [], ?_, Round.stands_of_not_kept hkept',
      Or.inl rfl⟩
    rw [Round.on_of_not_kept hkept, Round.on_of_not_kept hkept', Round.step, calling]
    rfl
  | sent doing' ended =>
    cases doing'.symm.trans doing
    exact Or.inr ⟨.finish (.ok ()), _, _, rfl, Round.stands_of_not_kept rfl, Or.inl rfl⟩
  | @unsent _ _ _ _ _ _ _ f doing' ended =>
    cases doing'.symm.trans doing
    exact Or.inr ⟨.finish (.error f), _, _, rfl, Round.stands_of_not_kept rfl, Or.inl rfl⟩
  | @closed _ _ _ _ call _ _ r result doing' calling ended last =>
    cases doing'.symm.trans doing
    obtain ⟨command, hcommand⟩ := Job.exists_command calling
    refine Or.inr ⟨.finish (r.map fun _ => ()), .over result,
      .ended command (r.map fun _ => ()) :: Round.begun (.over result : Job Call), ?_,
      Round.stands_of_not_kept rfl, Or.inr ⟨_, result, rfl, rfl⟩⟩
    rw [Round.on_of_not_kept (Job.isKept_eq_false calling)]
    simp only [Round.step, hcommand, last, bind, Option.bind_some]
    rfl
  | answered a doing' =>
    cases doing'.symm.trans doing
    obtain ⟨e, found, owned⟩ := stands rfl
    have found' : (p.stopKeeper k).keeper? k = some { e with keeper := e.keeper.stop } :=
      Plant.keeper?_onKeeper_self (fun _ => rfl) found
    refine Or.inr ⟨.answer a, .settling a, [.answered a], ?_, fun _ => ⟨_, found', owned⟩,
      Or.inl rfl⟩
    rw [Round.on_of_kept rfl found, Round.on_of_kept rfl found']
    rfl
  | crashed text => exact Or.inl ⟨text, rfl⟩
  | @settled _ _ _ text _ _ doing' collected =>
    cases doing'.symm.trans doing
    obtain ⟨⟨e, found, rfl, hended⟩, -⟩ := Plant.collectKeeper?_cases collected
    have hsettle : (Job.settling (.ok text)).settle (Consumer.callOf c.post h d) d.id canceled
        = some _ := rfl
    exact Or.inr ⟨.settle canceled, _, _, Round.step_settle found hended hsettle,
      Round.stands_of_not_kept rfl, Or.inl rfl⟩
  | @refused _ _ _ refusal _ _ doing' collected =>
    cases doing'.symm.trans doing
    obtain ⟨⟨e, found, rfl, hended⟩, -⟩ := Plant.collectKeeper?_cases collected
    have hsettle : (Job.settling (.error refusal)).settle (Consumer.callOf c.post h d) d.id
        canceled = some _ := rfl
    exact Or.inr ⟨.settle canceled, _, _, Round.step_settle found hended hsettle,
      Round.stands_of_not_kept rfl, Or.inl rfl⟩

end

/-! ### Consumers in rounds -/

namespace Work

/-- The work of a consumer has come to where it is by the moves of a round. -/
def Consumer.IsRound (p : Plant) (c : Consumer) : Prop :=
  ∀ h d k job, c.activity = .working h d k job → Round.Stands p k job ∧
    ∃ now marks, Round.Run (Consumer.callOf c.post h d) d.id c.post.period now marks
      (Round.on p k job)

section
variable {p p' : Plant} {c c' : Consumer}

/-- The keeper of a round makes moves. -/
theorem Round.Run.keeper_moves {start : Command → Call} {id : String} {period now : Nat}
    {marks : List Mark} {job : Job Call} {k k' : Lease.Keeper Call}
    (run : Round.Run start id period now marks ⟨job, some k⟩)
    (moves : Relation.ReflTransGen Lease.Keeper.Moves k k') :
    ∃ marks, Round.Run start id period now marks ⟨job, some k'⟩ := by
  induction moves with
  | refl => exact ⟨marks, run⟩
  | @tail k₁ k₂ _ made ih =>
    obtain ⟨marks, run⟩ := ih
    obtain ⟨move, more, hstep⟩ := made
    have hmade : (⟨job, some k₁⟩ : Round Call).step start id (.keeper move)
        = some (⟨job, some k₂⟩, more) := by
      simp only [Round.step, hstep, bind, Option.bind_some]
    exact ⟨_, run.step _ hmade⟩

/-- A consumer that has no work is in no round. -/
theorem Consumer.isRound_of_idle (h : c.stage? = none) : c.IsRound p := by
  intro h' d k job doing
  rw [Consumer.stage?_of_working doing] at h
  cases h

/-- A round goes on while its keeper makes moves or none, whatever else happens on the plant. -/
theorem Consumer.IsRound.of_moves (r : c.IsRound p)
    (moved : ∀ k ∈ c.keeper?, ∀ e, p.keeper? k = some e → e.isLeft = false → ∃ keeper,
      p'.keeper? k = some (e.withKeeper keeper) ∧
        Relation.ReflTransGen Lease.Keeper.Moves e.keeper keeper) : c.IsRound p' := by
  intro h d k job doing
  obtain ⟨stands, now, marks, run⟩ := r h d k job doing
  have mine : k ∈ c.keeper? := by rw [Consumer.keeper?, doing]; rfl
  cases hkept : job.isKept with
  | false =>
    -- The keeper has been collected.
    rw [Round.on_of_not_kept hkept] at run
    refine ⟨Round.stands_of_not_kept hkept, now, marks, ?_⟩
    rw [Round.on_of_not_kept hkept]
    exact run
  | true =>
    obtain ⟨e, found, owned⟩ := stands hkept
    obtain ⟨keeper, found', moves⟩ := moved k mine e found owned
    rw [Round.on_of_kept hkept found] at run
    obtain ⟨marks', run'⟩ := run.keeper_moves moves
    refine ⟨fun _ => ⟨_, found', owned⟩, now, marks', ?_⟩
    rw [Round.on_of_kept hkept found']
    exact run'

/-- A round begins with a keeper that has just started. -/
theorem Consumer.isRound_begin {handle : Queue.Handle} {d : Delivery} {p₁ : Plant}
    (numbers : ∀ e ∈ p₁.keepers, e.number < p₁.numbered)
    (doing : c.activity = .working handle d p₁.numbered .handling) :
    c.IsRound (p₁.startKeeper handle d c.post.period).1 := by
  intro h d' k job doing'
  cases doing.symm.trans doing'
  have found : (p₁.startKeeper handle d c.post.period).1.keeper? p₁.numbered =
      some ⟨p₁.numbered, handle, d, .start c.post.period p₁.now, false⟩ :=
    Plant.keeper?_startKeeper_self numbers
  refine ⟨fun _ => ⟨_, found, rfl⟩, p₁.now, [], ?_⟩
  rw [Round.on_of_kept rfl found]
  exact .here

/-- A step of a consumer goes on with its round, or begins one. -/
theorem Consumer.Step.isRound {canceled : Bool} {move : ConsumerMove}
    (st : c.Step canceled p move p' c') (o : p.KeepersOrderly) (r : c.IsRound p) :
    c'.IsRound p' := by
  intro h d k job doing'
  -- The work has been going on, or has just begun with a request that was received.
  rcases st.working_cases doing' with ⟨job₀, doing, -⟩ |
    ⟨rfl, rfl, call, callMove, p₁, rest, -, made, rfl, rfl⟩
  · obtain ⟨stands, now, marks, run⟩ := r h d k job₀ doing
    rcases st.round doing stands with ⟨text, rfl⟩ | ⟨move', job', more, hstep, stands', hcases⟩
    · cases st with
      | crashed => cases doing'
    · rcases hcases with hsame | ⟨p₁, result, -, rfl⟩
      · cases hsame.symm.trans doing'
        rw [st.post]
        exact ⟨stands', now, _, run.step move' hstep⟩
      · exact absurd doing' Consumer.conclude_activity_ne
  · have o₁ : (p₁.onBoard c.post.board .begin).KeepersOrderly := (o.stepCall made).of_eq rfl rfl
    have hround : c'.IsRound ((p₁.onBoard c.post.board .begin).startKeeper c.post.requests d
        c'.post.period).1 := Consumer.isRound_begin o₁.numbers_lt doing'
    rw [st.post] at hround
    exact hround _ _ _ _ doing'

/-- When a consumer is done with its work, unless its handler has crashed, its round is over, the
record accounts for all calls, and the consumer concludes with the result of the round. -/
theorem Consumer.Step.concludes {canceled : Bool} {move : ConsumerMove}
    (st : c.Step canceled p move p' c') (r : c.IsRound p) {h : Queue.Handle} {d : Delivery}
    {k : Nat} {job : Job Call} (doing : c.activity = .working h d k job)
    (uncrashed : ∀ text, move ≠ .crash text)
    (done : ∀ job', c'.activity ≠ .working h d k job') :
    ∃ p₁ result now marks,
      Round.Run (Consumer.callOf c.post h d) d.id c.post.period now marks ⟨.over result, none⟩ ∧
      Accounted d.id marks result ∧ c' = (Consumer.conclude p₁ c result).2 := by
  obtain ⟨stands, now, marks, run⟩ := r h d k job doing
  rcases st.round doing stands with ⟨text, hcrash⟩ | ⟨move', job', more, hstep, -, hcases⟩
  · exact absurd hcrash (uncrashed text)
  · rcases hcases with hsame | ⟨p₁, result, rfl, hconclude⟩
    · exact absurd hsame (done job')
    · have finished := run.step move' hstep
      exact ⟨p₁, result, now, _, finished, finished.shown.lawful.toAccounted, hconclude⟩

end

end Work

/-! ### Rounds in a world -/

/-- Two agents have different keepers, if both have one. -/
def Agent.KeepsApart (a b : Agent) : Prop := ∀ k, a.keeper? = some k → b.keeper? ≠ some k

instance : Std.Symm Agent.KeepsApart := ⟨fun _ _ h k hb ha => h k ha hb⟩

/-- What may happen around consumers at work. Parties may do anything in any order. Nobody from
outside reaches for the keeper of a consumer, and who joins does not work yet, and waits for no
keeper but one that has started and that nobody else has. -/
def HandsOff (w : World) : Event → Prop
  | .stop k => ∀ c, .consumer c ∈ w.agents → c.keeper? ≠ some k
  | .leave k => ∀ c, .consumer c ∈ w.agents → c.keeper? ≠ some k
  | .join party => party.agents.Pairwise Agent.KeepsApart ∧ ∀ a ∈ party.agents, a.stage? = none ∧
      ∀ k, a.keeper? = some k → k < w.plant.numbered ∧ ∀ b ∈ w.agents, b.keeper? ≠ some k
  | _ => True

/-- Every consumer at work is in a round, and nobody else has its keeper. -/
structure World.InRounds (w : World) : Prop where
  numbers : ∀ a ∈ w.agents, ∀ k, a.keeper? = some k → k < w.plant.numbered
  apart : w.agents.Pairwise Agent.KeepsApart
  rounds : ∀ c, .consumer c ∈ w.agents → c.IsRound w.plant

/-- An agent with a keeper that a turn produces is all that the turn produces. -/
theorem Agent.Turn.eq_singleton {p p' : Plant} {worker : Option (Consumer × ConsumerMove)}
    {before after : List Agent} (t : Agent.Turn p worker before p' after) {a : Agent}
    (ha : a ∈ after) {k : Nat} (hk : a.keeper? = some k) : after = [a] := by
  rcases t.after_cases ha with ⟨_, _, c', _, -, rfl, rfl, -⟩ | ⟨post, -, rfl | rfl⟩ | hcalls
  · rfl
  · cases hk
  · cases hk
  · rw [hcalls.keeper?_eq_none] at hk
    cases hk

namespace World.InRounds
variable {w w' : World} {event : Event} {before after rest : List Agent}

/-- Those who take part in an event have other keepers than those who stay, who differ as well. -/
theorem apart_of_perm (i : w.InRounds) (hperm : w.agents.Perm (before ++ rest)) :
    (∀ a ∈ before, ∀ b ∈ rest, a.KeepsApart b) ∧ rest.Pairwise Agent.KeepsApart := by
  have hapart := List.pairwise_append.mp ((hperm.pairwise_iff symm).mp i.apart)
  exact ⟨hapart.2.2, hapart.2.1⟩

/-- A consumer that stays goes on with its round. -/
theorem of_stay (i : w.InRounds) (allowed : HandsOff w event) (happens : w.step event = some w')
    (hperm : w.agents.Perm (before ++ rest)) (change : World.Change w w' event before after)
    {c : Consumer} (hc : .consumer c ∈ rest) : c.IsRound w'.plant := by
  have hagent : .consumer c ∈ w.agents := hperm.mem_iff.mpr (List.mem_append_right _ hc)
  obtain ⟨hcross, -⟩ := i.apart_of_perm hperm
  refine (i.rounds c hagent).of_moves fun k mine e found owned => ?_
  have hne : ∀ a ∈ before, a.keeper? ≠ some k := fun a ha hk => hcross a ha _ hc k hk mine
  -- Only an event about the keeper itself moves it.
  have hothers : event.Spares k → ∃ keeper, w'.plant.keeper? k = some (e.withKeeper keeper) ∧
      Relation.ReflTransGen Lease.Keeper.Moves e.keeper keeper := fun hspares =>
    ⟨e.keeper, World.step_keeper? happens change found owned hspares hne, .refl⟩
  cases event with
  | keeper n =>
    by_cases hn : n = k
    · subst hn
      cases World.step_cases happens with
      | kept made =>
        obtain ⟨e', found', st⟩ := Plant.stepKeeper_cases made
        obtain rfl : e' = e := Option.some.inj (found'.symm.trans found)
        exact st.moves found owned
    · exact hothers hn
  | stop n => exact hothers fun hn => allowed c hagent (hn ▸ mine)
  | leave n => exact hothers fun hn => allowed c hagent (hn ▸ mine)
  | _ => exact hothers trivial

/-- What an event brings: agents whose keepers are new or were theirs before, and consumers in
rounds. -/
theorem of_change (i : w.InRounds) (o : w.plant.KeepersOrderly) (allowed : HandsOff w event)
    (happens : w.step event = some w') (hperm : w.agents.Perm (before ++ rest))
    (change : World.Change w w' event before after) :
    (∀ a ∈ after, ∀ k, a.keeper? = some k →
      k < w'.plant.numbered ∧ ∀ b ∈ rest, b.keeper? ≠ some k) ∧
    after.Pairwise Agent.KeepsApart ∧ ∀ c, .consumer c ∈ after → c.IsRound w'.plant := by
  have hbefore : ∀ b ∈ before, b ∈ w.agents := fun b hb =>
    hperm.mem_iff.mpr (List.mem_append_left _ hb)
  have hrest : ∀ b ∈ rest, b ∈ w.agents := fun b hb =>
    hperm.mem_iff.mpr (List.mem_append_right _ hb)
  obtain ⟨hcross, -⟩ := i.apart_of_perm hperm
  -- A new number is nobody's.
  have hnew : ∀ k, w.plant.numbered ≤ k → ∀ b ∈ rest, b.keeper? ≠ some k := by
    intro k hle b hb hk
    have hlt := i.numbers b (hrest b hb) k hk
    omega
  have hnumbered := World.step_numbered_le happens
  cases change with
  | turned turn =>
    refine ⟨fun a ha k hk => ?_, ?_, fun c hc => ?_⟩
    · rcases turn.keeper_cases ha hk with ⟨b, hb, hk⟩ | ⟨hge, hlt⟩
      · exact ⟨Nat.lt_of_lt_of_le (i.numbers b (hbefore b hb) k hk) hnumbered,
          fun b' hb' => hcross b hb b' hb' k hk⟩
      · exact ⟨hlt, hnew k hge⟩
    · by_cases hsome : ∃ a ∈ after, ∃ k, a.keeper? = some k
      · obtain ⟨a, ha, k, hk⟩ := hsome
        rw [turn.eq_singleton ha hk]
        exact List.pairwise_singleton _ _
      · exact List.pairwise_of_forall_mem_list fun a ha b _ k hk => absurd ⟨a, ha, k, hk⟩ hsome
    · rcases turn.after_cases hc with ⟨_, c₀, c', _, rfl, -, heq, st⟩ |
        ⟨post, -, heq | heq⟩ | ⟨call, heq | heq | heq⟩
      · cases heq
        exact st.isRound o (i.rounds c₀ (hbefore _ List.mem_cons_self))
      · cases heq
      · cases heq
        exact Consumer.isRound_of_idle rfl
      · cases heq
      · cases heq
      · cases heq
  | joined party =>
    obtain ⟨hapart, hall⟩ := allowed
    refine ⟨fun a ha k hk => ?_, hapart, fun c hc => Consumer.isRound_of_idle (hall _ hc).1⟩
    obtain ⟨hlt, hnobody⟩ := (hall a ha).2 k hk
    exact ⟨Nat.lt_of_lt_of_le hlt hnumbered, fun b hb => hnobody b (hrest b hb)⟩
  | assigned post handle d =>
    cases happens
    refine ⟨fun a ha k hk => ?_, List.pairwise_singleton _ _, fun c hc => ?_⟩
    · obtain rfl := List.mem_singleton.mp ha
      cases hk
      exact ⟨Nat.lt_succ_self _, hnew _ (Nat.le_refl _)⟩
    · cases List.mem_singleton.mp hc
      have o' : (w.plant.onBoard post.board .begin).KeepersOrderly := o.of_eq rfl rfl
      exact Consumer.isRound_begin o'.numbers_lt rfl
  | stayed => exact ⟨List.forall_mem_nil _, .nil, fun c hc => by cases hc⟩

/-- Every event leaves the consumers at work in their rounds. -/
theorem step (i : w.InRounds) (o : w.plant.KeepersOrderly) (allowed : HandsOff w event)
    (happens : w.step event = some w') : w'.InRounds := by
  obtain ⟨before, after, rest, hperm, hperm', change⟩ := World.step_change happens
  obtain ⟨hkeepers, hamong, hrounds⟩ := i.of_change o allowed happens hperm change
  have hrest : ∀ b ∈ rest, b ∈ w.agents := fun b hb =>
    hperm.mem_iff.mpr (List.mem_append_right _ hb)
  obtain ⟨-, hstay⟩ := i.apart_of_perm hperm
  refine ⟨fun a ha k hk => ?_, ?_, fun c hc => ?_⟩
  · rcases List.mem_append.mp (hperm'.mem_iff.mp ha) with ha | ha
    · exact (hkeepers a ha k hk).1
    · exact Nat.lt_of_lt_of_le (i.numbers a (hrest a ha) k hk) (World.step_numbered_le happens)
  · rw [hperm'.pairwise_iff symm, List.pairwise_append]
    exact ⟨hamong, hstay, fun a ha b hb k hk => (hkeepers a ha k hk).2 b hb⟩
  · rcases List.mem_append.mp (hperm'.mem_iff.mp hc) with hc | hc
    · exact hrounds c hc
    · exact i.of_stay allowed happens hperm change hc

end World.InRounds

/-- In every run, the work of a consumer has come to where it is by the moves of a round. -/
theorem Run.inRounds {stores : List Queue.Store} {past : List Occurrence} {w : World}
    (run : Run stores HandsOff past w) : w.InRounds := by
  induction run with
  | start =>
    exact ⟨List.forall_mem_nil _, .nil, fun c hc => by cases hc⟩
  | step event before allowed happens ih => exact ih.step before.keepersOrderly allowed happens

end Leasework
