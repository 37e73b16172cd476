import Leasework.Proofs.Lease.Expiry
import Leasework.Proofs.Work.Record

/-!
# `Leasework.Proofs.Lease.Silence`: no renewal outlives its iteration

The keeper of an iteration renews in the background, and the iteration may end at any moment: with
a result, because its handler crashes, or because somebody drops it. `Run.silence` says that no
renewal begins from then on. The one that is in progress may still be completed, and after a result
there is none. The same holds of a keeper by itself, once it is told to stop, left, or collected.

A keeper that has been told to stop stays so (`Plant.Told`), and one that is not there does not come
back (`Plant.Gone`). `World.step_over` says that the keeper of an iteration that ends has been told,
and `Run.collected` that it is gone by the time the iteration makes its last calls.
-/

set_option autoImplicit false

namespace Leasework

open Queue (Call Progress Store)
open Work (Consumer ConsumerMove Iteration Job)

/-! ### Keepers that are told to stop, and keepers that are gone -/

namespace Plant

/-- The keeper of a number has started, and has been told to stop if it is still there. -/
def Told (p : Plant) (k : Nat) : Prop :=
  k < p.numbered ∧ ∀ keeper ∈ p.keeping? k, keeper.stopped = true

/-- The keeper of a number has started, and is not there any more. -/
def Gone (p : Plant) (k : Nat) : Prop := k < p.numbered ∧ p.keeping? k = none

variable {p p' : Plant} {k : Nat} {renewal : Option (Bool × Progress)}

theorem Gone.told (gone : p.Gone k) : p.Told k := by
  refine ⟨gone.1, fun keeper hk => ?_⟩
  cases gone.2.symm.trans hk

theorem Gone.isRenewing_eq_false (gone : p.Gone k) : p.isRenewing k = false := by
  rw [isRenewing, gone.2]
  rfl

/-- A keeper that has been told to stop begins no renewal, and stays told. -/
theorem Passes.told (ps : Passes k p p' renewal) (told : p.Told k)
    (later : p.numbered ≤ p'.numbered) : p'.Told k ∧ renewal.any Prod.fst = false := by
  obtain ⟨hlt, htold⟩ := told
  have hlt' : k < p'.numbered := Nat.lt_of_lt_of_le hlt later
  cases ps with
  | idle idles =>
    refine ⟨⟨hlt', fun keeper' hk' => ?_⟩, rfl⟩
    obtain ⟨keeper, hk, -, -, hstopped⟩ := idles.counters keeper' hk'
    exact hstopped (htold keeper hk)
  | started new => exact absurd new (Nat.ne_of_lt hlt)
  | ended found told quiet after =>
    refine ⟨⟨hlt', fun keeper' hk' => ?_⟩, rfl⟩
    obtain ⟨_, ⟨⟩, -, -, hstopped⟩ := after.counters keeper' hk'
    exact hstopped told
  | begun found free =>
    have hstopped := htold _ found
    rw [free] at hstopped
    cases hstopped
  | continued found busy after =>
    refine ⟨⟨hlt', fun keeper' hk' => ?_⟩, rfl⟩
    cases hk'.symm.trans after
    rw [Lease.Keeper.stopped_noting]
    exact htold _ found

/-- A keeper that is gone does not come back. -/
theorem Passes.gone (ps : Passes k p p' renewal) (gone : p.Gone k)
    (later : p.numbered ≤ p'.numbered) : p'.Gone k := by
  obtain ⟨hlt, hnone⟩ := gone
  refine ⟨Nat.lt_of_lt_of_le hlt later, ?_⟩
  cases ps with
  | idle idles =>
    rw [hnone] at idles
    generalize p'.keeping? k = after at idles
    cases idles
    rfl
  | started new => exact absurd new (Nat.ne_of_lt hlt)
  | ended found => cases hnone.symm.trans found
  | begun found => cases hnone.symm.trans found
  | continued found => cases hnone.symm.trans found

/-- A keeper that is told to stop has been told. -/
theorem told_onKeeper {change : KeeperEntry → KeeperEntry} (hlt : k < p.numbered)
    (hnumber : ∀ e, (change e).number = e.number)
    (hstop : ∀ e, (change e).keeper = e.keeper.stop) : (p.onKeeper k change).Told k := by
  refine ⟨hlt, fun keeper hk => ?_⟩
  rw [keeping?_onKeeper hnumber] at hk
  obtain ⟨e, found, rfl⟩ := Option.map_eq_some_iff.mp hk
  rw [if_pos (mem_of_keeper? found).2, hstop]
  rfl

theorem told_stopKeeper (hlt : k < p.numbered) : (p.stopKeeper k).Told k :=
  told_onKeeper hlt (fun _ => rfl) fun _ => rfl

theorem KeepersOrderly.told_leaveKeeper (o : p.KeepersOrderly) (hlt : k < p.numbered) :
    (p.leaveKeeper k).Told k := by
  have hleft : (p.onKeeper k fun e =>
      { e with keeper := e.keeper.stop, isLeft := true }).Told k :=
    told_onKeeper hlt (fun _ => rfl) fun _ => rfl
  exact (Passes.told (.idle o.onKeeper_leave.idles_sweep) hleft (Nat.le_refl _)).1

/-- A keeper that has been collected is gone. -/
theorem KeepersOrderly.gone_collectKeeper {keeper : Lease.Keeper Call} (o : p.KeepersOrderly)
    (h : p.collectKeeper? k = some (p', keeper)) : p'.Gone k := by
  obtain ⟨⟨e, found, -, -⟩, rfl⟩ := collectKeeper?_cases h
  obtain ⟨hmem, hk⟩ := mem_of_keeper? found
  refine ⟨hk ▸ o.numbers_lt e hmem, ?_⟩
  have hnone : ({ p with keepers := p.keepers.filter fun e => e.number ≠ k } : Plant).keeper? k
      = none := by
    refine List.find?_eq_none.mpr fun e he => ?_
    simpa using (List.mem_filter.mp he).2
  rw [keeping?, hnone]
  rfl

end Plant

namespace World
variable {w w' : World} {event : Event} {k : Nat}

theorem step_told (o : w.plant.KeepersOrderly) (h : w.step event = some w')
    (told : w.plant.Told k) :
    w'.plant.Told k ∧ (⟨w, event, w'⟩ : Occurrence).begins k = false :=
  (step_passing o h k).told told (step_numbered_le h)

theorem step_gone (o : w.plant.KeepersOrderly) (h : w.step event = some w')
    (gone : w.plant.Gone k) : w'.plant.Gone k :=
  (step_passing o h k).gone gone (step_numbered_le h)

end World

/-! ### Silence -/

/-- The keeper of a number is silent from a world on: no renewal begins, and the one that is in
progress there is completed once, or is in progress still. -/
structure Silent (k : Nat) (since : World) (later : List Occurrence) (w : World) : Prop where
  unbegun : ∀ o ∈ later, o.begins k = false
  pending : renewalsCompleted k later + (w.plant.isRenewing k).toNat
    = (since.plant.isRenewing k).toNat

section
variable {stores : List Store} {may : World → Event → Prop} {past later earlier : List Occurrence}
  {w w' : World} {o : Occurrence} {k : Nat}

/-- A keeper that has been told to stop is silent with one more event. -/
theorem Silent.step {event : Event} {since : World} (s : Silent k since later w)
    (ko : w.plant.KeepersOrderly) (happens : w.step event = some w') (told : w.plant.Told k) :
    Silent k since (⟨w, event, w'⟩ :: later) w' := by
  have hbegins := (World.step_told ko happens told).2
  -- Since nothing begins, what the event completes or leaves in progress was in progress before.
  refine ⟨List.forall_mem_cons.mpr ⟨hbegins, s.unbegun⟩, ?_⟩
  have hbalance := (World.step_passing ko happens k).balance
  have hunbegun : (w.renewal? k event).any Prod.fst = false := hbegins
  rw [← s.pending, renewalsCompleted, countP_cons_toNat, Occurrence.completion?,
    Occurrence.renewal?]
  rw [hunbegun, Bool.toNat_false] at hbalance
  unfold renewalsCompleted
  dsimp only
  omega

/-- A keeper that has been told to stop is silent from then on. -/
theorem Run.silent (run : Run stores may past w) (hpast : past = later ++ o :: earlier)
    (told : o.after.plant.Told k) : Silent k o.after later w := by
  have silent : Silent k o.after [] o.after := ⟨List.forall_mem_nil _, Nat.zero_add _⟩
  -- That it has been told is kept along with its silence, since a step needs both.
  have both : Silent k o.after later w ∧ w.plant.Told k := by
    refine run.since (P := fun since v => Silent k o.after since v ∧ v.plant.Told k) hpast
      ⟨silent, told⟩ ?_
    rintro since v event v' ko happens ⟨silent, told⟩
    exact ⟨silent.step ko happens told, (World.step_told ko happens told).1⟩
  exact both.1

end

/-! ### The keepers of consumers -/

/-- The keeper beside a consumer is gone once the work does without it. -/
def Work.Consumer.Collected (p : Plant) (c : Consumer) : Prop :=
  ∀ h d k job, c.activity = .working h d k job → job.isKept = false → p.Gone k

section
variable {canceled : Bool} {p p' : Plant} {c c' : Consumer} {move : ConsumerMove}

/-- A consumer does without its keeper only after it has collected it. -/
theorem Work.Consumer.Step.collected (st : c.Step canceled p move p' c') (o : p.KeepersOrderly)
    (before : c.Collected p) (stays : ∀ k, p.Gone k → p'.Gone k) : c'.Collected p' := by
  intro h d k job doing' unkept
  cases st with
  | waited => cases doing'
  | began =>
    cases doing'
    cases unkept
  | unserved => exact absurd doing' Consumer.conclude_activity_ne
  | proceeded doing calling =>
    cases doing'
    exact stays _ (before _ _ _ _ doing (Job.isKept_eq_false calling))
  | sent doing | unsent doing =>
    cases doing'
    exact stays _ (before _ _ _ _ doing rfl)
  | closed => exact absurd doing' Consumer.conclude_activity_ne
  | answered a doing =>
    cases doing'
    cases unkept
  | crashed => cases doing'
  | settled _ made | refused _ made =>
    cases doing'
    exact o.gone_collectKeeper made

end

/-- In every run, the keeper of a consumer is gone once its work does without it. -/
theorem Run.collected {stores : List Store} {past : List Occurrence} {w : World}
    (run : Run stores (fun _ event => event.JoinsIdle) past w) :
    ∀ c, .consumer c ∈ w.agents → c.Collected w.plant := by
  induction run with
  | start => exact fun c hc => by cases hc
  | @step _ w₀ w' event before allowed happens ih =>
    have ko := before.keepersOrderly
    have stays : ∀ k, w₀.plant.Gone k → w'.plant.Gone k := fun k => World.step_gone ko happens
    intro c hc
    rcases World.agent_cases happens hc with
      hc | ⟨party, rfl, hc⟩ | ⟨post, handle, d, rfl, heq⟩ | ⟨before', after, hbefore, hc, turn⟩
    · exact fun h d k job doing unkept => stays k (ih c hc h d k job doing unkept)
    · -- Whoever joins is not at work.
      intro h d k job doing
      have hidle : c.stage? = none := allowed _ hc
      rw [Consumer.stage?_of_working doing] at hidle
      cases hidle
    · cases heq
      rintro h d' k job ⟨⟩ ⟨⟩
    · rcases turn.after_cases hc with
        ⟨_, c₀, c', _, rfl, -, heq, st⟩ | ⟨post, -, heq | heq⟩ | ⟨call, heq | heq | heq⟩
      · cases heq
        exact st.collected ko (ih c₀ (hbefore _ List.mem_cons_self)) stays
      · cases heq
      · cases heq
        rintro h d k job ⟨⟩
      · cases heq
      · cases heq
      · cases heq

/-! ### How an iteration ends -/

namespace Occurrence

/-- An iteration ends with an event. -/
def Ends (x : Iteration) (o : Occurrence) : Prop :=
  x ∈ o.before.iterations ∧ x ∉ o.after.iterations

/-- An iteration ends with a result: with a step of its consumer that is not a crash of the
handler. -/
def Returns (x : Iteration) (o : Occurrence) : Prop :=
  o.Ends x ∧ ∃ c move c', o.work? = some (c, move, c') ∧ ∀ text, move ≠ .crash text

instance (x : Iteration) (o : Occurrence) : Decidable (o.Ends x) :=
  inferInstanceAs (Decidable (_ ∧ _))

end Occurrence

section
variable {p p' : Plant} {c c' : Consumer} {move : ConsumerMove} {x : Iteration}

/-- A step with which the work of a consumer ends: the handler crashes and the keeper is told to
stop, or the last call is over and the keeper is gone. -/
theorem Work.Consumer.Step.over {canceled isDeleting : Bool} (st : c.Step canceled p move p' c')
    (o : p.KeepersOrderly) (collected : c.Collected p) (hlt : x.number < p.numbered)
    (before : c.stage? = some (x, isDeleting)) (after : ∀ b, c'.stage? ≠ some (x, b)) :
    (∃ text, move = .crash text ∧ p'.Told x.number) ∨ p.Gone x.number := by
  obtain ⟨job, doing, hpost⟩ := Consumer.stage?_eq_some before
  -- A step after which the consumer works on is no last one.
  have hgoes : ∀ {job' : Job Call}, c'.post = c.post →
      c'.activity = .working x.handle x.delivery x.number job' → False := by
    intro job' hsame doing'
    refine after job'.isDeleting ?_
    rw [Consumer.stage?_of_working doing', hsame, hpost]
  cases st with
  | waited doing' | began doing' | unserved doing' => cases doing.symm.trans doing'
  | proceeded doing' | sent doing' | unsent doing' | answered _ doing' | settled doing'
  | refused doing' =>
    cases doing.symm.trans doing'
    exact (hgoes rfl rfl).elim
  | closed doing' calling =>
    cases doing.symm.trans doing'
    exact Or.inr (collected _ _ _ _ doing (Job.isKept_eq_false calling))
  | crashed text doing' =>
    cases doing.symm.trans doing'
    have o' : (p.onBoard c.post.board .finish).KeepersOrderly := o.of_eq rfl rfl
    exact Or.inl ⟨text, rfl, o'.told_leaveKeeper hlt⟩

/-- Dropping an agent tells its keeper to stop. -/
theorem Agent.told_abandon {a : Agent} {k : Nat} (o : p.KeepersOrderly) (hk : a.keeper? = some k)
    (hlt : k < p.numbered) : (a.abandon p).Told k := by
  cases a with
  | consumer c =>
    have hk : c.keeper? = some k := hk
    show (c.abandon p).Told k
    cases doing : c.activity with
    | working h d keeper job =>
      simp only [Consumer.keeper?, doing, Option.some.injEq] at hk
      have o' : (p.onBoard c.post.board .finish).KeepersOrderly := o.of_eq rfl rfl
      simp only [Consumer.abandon, doing, hk]
      exact o'.told_leaveKeeper hlt
    | receiving | ended => simp [Consumer.keeper?, doing] at hk
  | collector n =>
    cases hk
    exact o.told_leaveKeeper hlt
  | _ => cases hk

/-- Dropping agents one after the other tells the keeper of each to stop. -/
theorem Agent.told_foldl_abandon {gone : List Agent} {a : Agent} {k : Nat} (o : p.KeepersOrderly)
    (ha : a ∈ gone) (hk : a.keeper? = some k) (hlt : k < p.numbered) :
    (gone.foldl Agent.abandon p).Told k := by
  induction gone generalizing p with
  | nil => cases ha
  | cons b gone ih =>
    have act := Agent.abandon_act p b
    rw [List.foldl_cons]
    rcases List.mem_cons.mp ha with rfl | ha
    · -- Its keeper is told now, and stays so while the others are dropped.
      have turn := Agent.Turn.dropped (p := a.abandon p) gone
      exact ((turn.passes (act.keepersOrderly o)).told (Agent.told_abandon o hk hlt)
        turn.numbered_le).1
    · exact ih (act.keepersOrderly o) ha (Nat.lt_of_lt_of_le hlt act.numbered_le)

variable {w w' : World} {event : Event}

/-- An iteration goes on as long as there is a consumer that works on it. -/
theorem World.mem_iterations_iff :
    x ∈ w.iterations ↔ ∃ c b, .consumer c ∈ w.agents ∧ c.stage? = some (x, b) := by
  rw [World.mem_iterations]
  constructor
  · rintro ⟨b, hmem⟩
    obtain ⟨a, ha, hstage⟩ : ∃ a ∈ w.agents, a.stage? = some (x, b) := List.mem_filterMap.mp hmem
    cases a with
    | consumer c => exact ⟨c, b, ha, hstage⟩
    | _ => cases hstage
  · rintro ⟨c, b, hc, hstage⟩
    exact ⟨b, List.mem_filterMap.mpr ⟨_, hc, hstage⟩⟩

/-- An iteration that ends without a step of a consumer has been dropped, and its keeper has been
told to stop. -/
theorem World.told_of_unworked (o : w.plant.KeepersOrderly) (happens : w.step event = some w')
    (hlt : x.number < w.plant.numbered) (ends : (⟨w, event, w'⟩ : Occurrence).Ends x)
    (unworked : w.worker? event = none) : w'.plant.Told x.number := by
  obtain ⟨c, b, hc, hstage⟩ := World.mem_iterations_iff.mp ends.1
  obtain ⟨job, doing, -⟩ := Consumer.stage?_eq_some hstage
  have hkeeper : (Agent.consumer c).keeper? = some x.number := by
    show c.keeper? = _
    rw [Consumer.keeper?, doing]
  obtain ⟨before, after, rest, hperm, hperm', change⟩ := World.step_change happens
  rcases List.mem_append.mp (hperm.mem_iff.mp hc) with hc | hc
  · cases change with
    | turned turn =>
      rw [unworked] at turn
      generalize w'.plant = p' at turn
      cases turn with
      | dropped => exact Agent.told_foldl_abandon o hc hkeeper hlt
      | idle => cases hc
      | _ => cases List.mem_singleton.mp hc
    | _ => cases hc
  · have hthere := hperm'.mem_iff.mpr (List.mem_append_right _ hc)
    exact absurd (World.mem_iterations_iff.mpr ⟨c, b, hthere, hstage⟩) ends.2

/-- An iteration that ends leaves a keeper that has been told to stop. If it ends with a result, the
keeper is gone. -/
theorem World.step_over (o : w.plant.KeepersOrderly) (happens : w.step event = some w')
    (collected : ∀ c, .consumer c ∈ w.agents → c.Collected w.plant)
    (hlt : x.number < w.plant.numbered) (ends : (⟨w, event, w'⟩ : Occurrence).Ends x) :
    w'.plant.Told x.number ∧
      ((⟨w, event, w'⟩ : Occurrence).Returns x → w'.plant.Gone x.number) := by
  rcases World.step_work happens with
    ⟨hworker, hwork⟩ | ⟨i, made, canceled, c₀, move, c', rfl, -, hwork, st, goes⟩
  · refine ⟨World.told_of_unworked o happens hlt ends hworker, ?_⟩
    rintro ⟨-, c, move, c', hwork', -⟩
    cases hwork.symm.trans hwork'
  · obtain ⟨c, b, hc, hstage⟩ := World.mem_iterations_iff.mp ends.1
    obtain ⟨after, rest, hperm, hperm', hcases⟩ := goes
    rcases List.mem_cons.mp (hperm.mem_iff.mp hc) with heq | hrest
    · -- The consumer of the iteration makes the step, and then it works on it no more.
      cases heq
      have hlast : ∀ b', c'.stage? ≠ some (x, b') := by
        intro b' h
        rcases hcases with rfl | ⟨rfl, hexit⟩
        · have hthere := hperm'.mem_iff.mpr List.mem_cons_self
          exact ends.2 (World.mem_iterations_iff.mpr ⟨c', b', hthere, h⟩)
        · obtain ⟨exit, hexit⟩ := Option.isSome_iff_exists.mp hexit
          rw [Consumer.stage?_of_exit? hexit] at h
          cases h
      rcases st.over o (collected c₀ hc) hlt hstage hlast with
        ⟨text, rfl, told⟩ | gone
      · refine ⟨told, ?_⟩
        rintro ⟨-, _, _, _, hwork', uncrashed⟩
        cases hwork.symm.trans hwork'
        exact absurd rfl (uncrashed text)
      · have gone' := World.step_gone o happens gone
        exact ⟨gone'.told, fun _ => gone'⟩
    · have hthere := hperm'.mem_iff.mpr (List.mem_append_right _ hrest)
      exact absurd (World.mem_iterations_iff.mpr ⟨c, b, hthere, hstage⟩) ends.2

end

/-! ### No renewal outlives its iteration -/

namespace Occurrence

/-- Who has a keeper by itself lets go of it: it is told to stop, it is left, or who waits for it to
end is dropped. -/
inductive Releases (k : Nat) (o : Occurrence) : Prop
  | stopped (event : o.event = .stop k) : Releases k o
  | left (event : o.event = .leave k) : Releases k o
  | dropped {i : Nat} {isCanceled : Bool} (event : o.event = .drop i)
      (there : o.before.parties[i]? = some ⟨isCanceled, .collecting k⟩) : Releases k o

/-- Who has waited for a keeper to end learns how many renewals have succeeded and failed. -/
def Reports (k : Nat) (renewed failed : UInt32) (o : Occurrence) : Prop :=
  ∃ i isCanceled, o.event = .move i .collect ∧
    o.before.parties[i]? = some ⟨isCanceled, .collecting k⟩ ∧
    o.after.parties[i]? = some ⟨isCanceled, .collected renewed failed⟩

end Occurrence

/-- What an event on record leaves behind, by the time the later ones have happened:

- `ended`: the keeper of an iteration that ends with it is silent from then on;
- `returned`: if the iteration ends with a result, no renewal is in progress either;
- `released`: a keeper that somebody lets go of is silent from then on;
- `reported`: if somebody has waited for it to end, no renewal is in progress, and the report shows
  how many of the renewals on record have succeeded and how many have failed, with 32 bits each;
- `visible`: if the message of an iteration that has ended is still held for it, it is visible again
  as soon as somebody looks a lease after the last refresh. -/
structure Silence (stores : List Store) (later : List Occurrence) (o : Occurrence)
    (earlier : List Occurrence) (w : World) : Prop where
  ended : ∀ x, o.Ends x → Silent x.number o.after later w
  returned : ∀ x, o.Returns x → o.after.plant.isRenewing x.number = false
  released : ∀ k, o.Releases k → k < o.before.plant.numbered → Silent k o.after later w
  reported : ∀ k renewed failed, o.Reports k renewed failed →
    o.after.plant.isRenewing k = false ∧ Silent k o.after later w ∧
      Lease.Shows renewed (renewalsMade k earlier) ∧ Lease.Shows failed (renewalsFailed k earlier)
  visible : ∀ x, o.Ends x → ∀ name lease, stores[x.handle.store]? = some (.empty name lease) →
    ∀ s ∈ w.plant.stores[x.handle.store]?, ∀ h ∈ s.held, h.receipt = x.delivery.receipt →
      ∃ last, LastRefresh x.handle.store h.receipt (later ++ o :: earlier) last ∧
        ∀ now, last.before.plant.now + lease ≤ now → h.message ∈ (s.reclaim now).visible

section
variable {stores : List Store} {later earlier : List Occurrence} {o : Occurrence} {w w' : World}
  {k : Nat}

/-- A keeper that somebody lets go of has been told to stop. -/
theorem World.told_of_releases (ko : o.before.plant.KeepersOrderly)
    (happens : o.before.step o.event = some o.after) (releases : o.Releases k)
    (hlt : k < o.before.plant.numbered) : o.after.plant.Told k := by
  cases releases with
  | stopped event =>
    rw [event] at happens
    rw [← Option.some.inj happens]
    exact Plant.told_stopKeeper hlt
  | left event =>
    rw [event] at happens
    rw [← Option.some.inj happens]
    exact ko.told_leaveKeeper hlt
  | @dropped i isCanceled event there =>
    simp only [event, World.step, there, bind, Option.bind_some, Option.some.injEq] at happens
    rw [← happens]
    exact ko.told_leaveKeeper hlt

/-- A keeper about which somebody gets a report is gone, and the report is what it has counted. -/
theorem World.gone_of_reports {renewed failed : UInt32} (ko : o.before.plant.KeepersOrderly)
    (happens : o.before.step o.event = some o.after) (reports : o.Reports k renewed failed) :
    o.after.plant.Gone k ∧ ∃ keeper ∈ o.before.plant.keeping? k,
      renewed = keeper.renewed ∧ failed = keeper.failed := by
  obtain ⟨w, event, w'⟩ := o
  obtain ⟨i, isCanceled, hevent, there, after⟩ := reports
  obtain rfl : event = .move i .collect := hevent
  have there : w.parties[i]? = some ⟨isCanceled, .collecting k⟩ := there
  simp only [World.step, there, Party.step, bind, Option.bind_some,
    Option.bind_eq_some_iff] at happens
  obtain ⟨⟨p', party'⟩, ⟨⟨p₁, keeper⟩, collected, heq⟩, heq'⟩ := happens
  cases heq
  cases heq'
  obtain ⟨⟨e, found, rfl, -⟩, -⟩ := Plant.collectKeeper?_cases collected
  refine ⟨ko.gone_collectKeeper collected, e.keeper, ?_, ?_⟩
  · show w.plant.keeping? k = _
    rw [Plant.keeping?, found]
    rfl
  · have hset : (w.parties.set i ⟨isCanceled, .collected e.keeper.renewed e.keeper.failed⟩)[i]?
        = some ⟨isCanceled, .collected renewed failed⟩ := after
    rw [List.getElem?_set_self (List.getElem?_eq_some_iff.mp there).1] at hset
    cases hset
    exact ⟨rfl, rfl⟩

/-- No renewal outlives its iteration, however the iteration ends and whatever its renewals meet
with. From the end on no renewal begins. A single one may still be completed, and after a result
there is none. The same holds of a keeper that somebody has by itself. So what is left behind is
visible again a lease after its last refresh. -/
theorem Run.silence
    (run : Run stores (fun _ event => event.JoinsIdle) (later ++ o :: earlier) w) :
    Silence stores later o earlier w := by
  obtain ⟨before, -, happens⟩ := run.exists_before rfl
  have ko := before.keepersOrderly
  have recorded := before.recorded fun _ _ idle => idle
  have endings : ∀ x, o.Ends x → o.after.plant.Told x.number ∧
      (o.Returns x → o.after.plant.Gone x.number) := by
    intro x ends
    have hlt := recorded.begun_lt x (recorded.ongoing x ends.1)
    exact World.step_over ko happens before.collected hlt ends
  refine ⟨fun x ends => ?ended, fun x returns => ?returned, fun k releases hlt => ?released,
    fun k renewed failed reports => ?reported, fun x ends name lease hq s hs h hh _ => ?visible⟩
  case ended => exact run.silent rfl (endings x ends).1
  case returned => exact ((endings x returns.1).2 returns).isRenewing_eq_false
  case released => exact run.silent rfl (World.told_of_releases ko happens releases hlt)
  case reported =>
    obtain ⟨gone, keeper, hkeeper, rfl, rfl⟩ := World.gone_of_reports ko happens reports
    obtain ⟨hmade, hlost⟩ := (before.booked k).noted keeper hkeeper
    rw [hmade, hlost]
    exact ⟨gone.isRenewing_eq_false, run.silent rfl gone.told, .ofNat _, .ofNat _⟩
  case visible =>
    obtain ⟨s', hs', dated⟩ := run.dated hq
    cases hs.symm.trans hs'
    obtain ⟨last, hlast, hexpiry⟩ := dated.dated h hh
    exact ⟨last, hlast, fun now hle => Store.mem_visible_reclaim hh (hexpiry ▸ hle)⟩

end

/-- The lease of a request is four seconds, and a throttled renewal is tried again half a second
later. The first renewal is due after three seconds and is throttled. At 3.1 seconds the handler
crashes, and at 3.5 the renewal succeeds after all. -/
def crashedHandler : List Event :=
  [.keeper 0, .keeper 0, .advance 3500, .move 1 (.consumer (.crash "no")), .advance 3100,
    .keeper 0, .advance 3000, .inject 0 .throttle 1, .advance 2000,
    .move 1 (.consumer (.call .go)),
    .join ⟨false, .consumer (.waiting ⟨⟨0, ⟨true, 500000000⟩⟩, ⟨1, .none⟩, 0, 3000000000⟩ false)⟩,
    .move 0 (.call .go), .join ⟨false, .call (.start ⟨0, .none⟩ (.send "job"))⟩, .board]

/-- After the crash one renewal is completed, and it is the last one. The message is visible again
four seconds after that. -/
theorem silence_crashedHandler : ∃ later o earlier w x,
    Silence [.empty "requests" 4000000000, .empty "responses" 4000000000] later o earlier w ∧
      o.Ends x ∧ o.after.plant.isRenewing x.number = true ∧
      renewalsCompleted x.number later = 1 ∧ Silent x.number o.after later w := by
  have hplayed : ∃ run ∈ World.play
        [.empty "requests" 4000000000, .empty "responses" 4000000000] crashedHandler,
      (∀ o ∈ run.1, o.event.JoinsIdle) ∧ ∃ o ∈ run.1[3]?, ∃ x ∈ o.before.iterations,
        o.Ends x ∧ o.after.plant.isRenewing x.number = true ∧
          renewalsCompleted x.number (run.1.take 3) = 1 := by
    decide
  obtain ⟨⟨past, w⟩, hplay, idle, o, ho, x, -, ends, renewing, completed⟩ := hplayed
  have hpast : past = past.take 3 ++ o :: past.drop 4 := by
    obtain ⟨hlt, rfl⟩ := List.getElem?_eq_some_iff.mp ho
    rw [← List.drop_eq_getElem_cons hlt, List.take_append_drop]
  have run : Run _ (fun _ event => event.JoinsIdle) past w := Run.play hplay idle
  rw [hpast] at run
  have silence := run.silence
  exact ⟨_, o, _, w, x, silence, ends, renewing, completed, silence.ended x ends⟩

end Leasework
