import Leasework.Proofs.World.Parties

/-!
# `Leasework.Proofs.Crew.Order`: the books of a crew

`Run.InOrder` is what every step of a crew keeps (`Run.Step.inOrder`). Permits are neither made
nor lost; draining gathers as many as it is to gather; there are slots only between the first
consumer and the last; a slot that pauses pauses no longer than the options say.

A slot holds a permit until it is over, and only a slot that holds one is ever over for the
first time. So three lemmas carry the balance: a slot is exchanged for another that holds a
permit (`InOrder.exchange`), it is over and gives its permit back (`InOrder.slotOver`), or it is
taken away (`InOrder.reap`). Two more are about all slots at once: there is one more
(`InOrder.staff`), or all of them are aborted (`InOrder.abort`).
-/

set_option autoImplicit false

namespace Leasework

open Work (Consumer ConsumerMove)

namespace Crew

/-! ### Counting slots -/

/-- A slot in which a consumer works on a request. -/
def Slot.isBusy : Slot Consumer → Bool
  | .running c => c.isAtWork
  | _ => false

theorem Slot.eq_over_of_not_holds {slot : Slot Consumer} (h : slot.holds = false) :
    slot = .over := by
  unfold holds at h
  split at h
  · rfl
  · cases h

namespace Roster
variable {roster : Roster Consumer}

theorem mem_consumers {c : Consumer} : c ∈ roster.consumers ↔ .running c ∈ roster.slots := by
  unfold consumers
  rw [List.mem_filterMap]
  constructor
  · rintro ⟨slot, hslot, heq⟩
    split at heq
    · cases heq
      exact hslot
    · cases heq
  · intro hslot
    exact ⟨_, hslot, rfl⟩

/-- The consumers at work are those in the busy slots. -/
theorem countP_consumers :
    roster.consumers.countP Consumer.isAtWork = roster.slots.countP Slot.isBusy := by
  unfold consumers
  rw [List.countP_filterMap]
  congr 1
  funext slot
  cases slot <;> rfl

theorem countP_isBusy_le (roster : Roster Consumer) :
    roster.slots.countP Slot.isBusy ≤ roster.slots.countP Slot.holds := by
  refine List.countP_mono_left fun slot _ hbusy => ?_
  cases slot with
  | running c => rfl
  | _ => cases hbusy

theorem unheld_abortAll (roster : Roster Consumer) :
    roster.abortAll.permits.unheld = roster.permits.unheld + roster.slots.countP Slot.holds := by
  have hfold : ∀ (slots : List (Slot Consumer)) (permits : Permits),
      (slots.foldl (fun permits _ => permits.release) permits).unheld
        = permits.unheld + slots.length := by
    intro slots
    induction slots with
    | nil => exact fun _ => rfl
    | cons slot slots ih =>
      intro permits
      rw [List.foldl_cons, ih, Permits.unheld_release, List.length_cons]
      omega
  rw [List.countP_eq_length_filter]
  exact hfold _ _

theorem countP_abortAll (roster : Roster Consumer) (f : Slot Consumer → Bool)
    (hover : f .over = false) : roster.abortAll.slots.countP f = 0 := by
  refine List.countP_eq_zero.mpr fun slot hslot => ?_
  obtain ⟨_, -, rfl⟩ := List.mem_map.mp hslot
  rw [hover]
  exact Bool.false_ne_true

end Roster

/-! ### Crews in order -/

/-- Consumers have been put into slots, and the slots have not all been taken away. -/
def Phase.hasSlots : Phase → Bool
  | .staffing | .draining _ | .joining => true
  | _ => false

/-- Nobody has asked for all permits yet. -/
def Phase.isEarly : Phase → Bool
  | .starting | .staffing => true
  | _ => false

/-- The books of a crew with a post and options are in order:

- `balance`: every permit is free, gathered or held;
- `unwanted`: nobody gathers permits before draining;
- `wanted`: draining gathers as many as it is to gather;
- `settled`: after draining, those permits are not held any more;
- `empty`: there are slots only between the first consumer and the last;
- `pauses`: a slot pauses no longer than the options say;
- `consumers`: the consumers that run are at the post of the crew, and have not ended. -/
structure Run.InOrder (post : Work.Post) (o : Options) (now : Nat) (r : Run) : Prop where
  post : r.post = post
  size : r.roster.size = o.size
  drainTime : r.roster.drainTime = o.drainTime.toNanos
  pause : r.roster.pause = o.pause.toNanos
  balance : r.roster.permits.unheld + r.roster.slots.countP Slot.holds = r.roster.size
  unwanted : r.roster.phase.isEarly = true →
    r.roster.permits.gathered = 0 ∧ r.roster.permits.wanted = 0
  wanted : ∀ till, r.roster.phase = .draining till →
    r.roster.permits.wanted = r.roster.drainPermits
  settled : r.roster.phase = .joining →
    r.roster.slots.countP Slot.holds + r.roster.drainPermits ≤ r.roster.size
  empty : r.roster.phase.hasSlots = false → r.roster.slots = []
  pauses : ∀ till, .pausing till ∈ r.roster.slots → till ≤ now + r.roster.pause
  consumers : ∀ c, .running c ∈ r.roster.slots → c.post = r.post ∧ c.exit? = none

namespace Run
variable {isShut : Bool} {p p' : Plant} {r : Run} {move : Move} {roster : Roster Consumer}
  {post : Work.Post} {o : Options} {now now' : Nat}

theorem inOrder_create (post : Work.Post) (o : Options) (now : Nat) :
    (create post o).InOrder post o now where
  post := rfl
  size := rfl
  drainTime := rfl
  pause := rfl
  balance := rfl
  unwanted _ := ⟨rfl, rfl⟩
  wanted := by simp [create, Roster.create]
  settled := by simp [create, Roster.create]
  empty _ := rfl
  pauses := by simp [create, Roster.create]
  consumers := by simp [create, Roster.create]

theorem InOrder.later (ord : r.InOrder post o now) (hle : now ≤ now') :
    r.InOrder post o now' :=
  { ord with pauses := fun till hmem =>
      Nat.le_trans (ord.pauses till hmem) (Nat.add_le_add_right hle _) }

/-- Where there is a slot, the crew is between its first consumer and its last. -/
theorem InOrder.hasSlots {i : Nat} {slot : Slot Consumer} (ord : r.InOrder post o now)
    (hslot : r.roster.slots[i]? = some slot) : r.roster.phase.hasSlots = true := by
  by_contra hphase
  rw [ord.empty (Bool.not_eq_true _ ▸ hphase)] at hslot
  cases hslot

/-- A slot that holds a permit is exchanged for one that holds a permit as well. -/
theorem InOrder.exchange {i : Nat} {slot slot' : Slot Consumer} (ord : r.InOrder post o now)
    (hslot : r.roster.slots[i]? = some slot) (hholds : slot.holds = true)
    (hholds' : slot'.holds = true)
    (hpauses : ∀ till, slot' = .pausing till → till ≤ now + r.roster.pause)
    (hconsumers : ∀ c, slot' = .running c → c.post = r.post ∧ c.exit? = none) :
    (⟨r.post, { r.roster with slots := r.roster.slots.set i slot' }⟩ : Run).InOrder
      post o now := by
  have hcount : (r.roster.slots.set i slot').countP Slot.holds
      = r.roster.slots.countP Slot.holds := by
    rw [countP_set_of_getElem? _ hslot, countP_of_getElem? _ hslot, hholds, hholds']
  refine { ord with balance := ?_, settled := ?_, empty := ?_, pauses := ?_, consumers := ?_ }
  · rw [hcount]
    exact ord.balance
  · rw [hcount]
    exact ord.settled
  · intro hphase
    rw [ord.hasSlots hslot] at hphase
    cases hphase
  · intro till hmem
    rcases List.mem_or_eq_of_mem_set hmem with hmem | heq
    · exact ord.pauses till hmem
    · exact hpauses till heq.symm
  · intro c hmem
    rcases List.mem_or_eq_of_mem_set hmem with hmem | heq
    · exact ord.consumers c hmem
    · exact hconsumers c heq.symm

/-- A slot that holds a permit is over, and gives it back. -/
theorem InOrder.slotOver {i : Nat} {slot : Slot Consumer} (ord : r.InOrder post o now)
    (hslot : r.roster.slots[i]? = some slot) (hholds : slot.holds = true) :
    (⟨r.post, r.roster.slotOver i⟩ : Run).InOrder post o now := by
  have hcount : (r.roster.slots.set i .over).countP Slot.holds + 1
      = r.roster.slots.countP Slot.holds := by
    rw [countP_set_of_getElem? _ hslot, countP_of_getElem? _ hslot, hholds]
    rfl
  have hunheld := Permits.unheld_release r.roster.permits
  have hbalance := ord.balance
  refine
    { ord with
      balance := ?_, unwanted := ?_, wanted := ?_, settled := ?_, empty := ?_, pauses := ?_,
      consumers := ?_ }
  · show r.roster.permits.release.unheld + (r.roster.slots.set i .over).countP Slot.holds
      = r.roster.size
    omega
  · -- As long as nobody gathers, the permit is free again.
    intro hphase
    obtain ⟨hgathered, hwanted⟩ := ord.unwanted hphase
    show r.roster.permits.release.gathered = 0 ∧ r.roster.permits.release.wanted = 0
    unfold Permits.release
    rw [hgathered, hwanted]
    exact ⟨rfl, rfl⟩
  · intro till hphase
    refine Eq.trans ?_ (ord.wanted till hphase)
    show r.roster.permits.release.wanted = _
    unfold Permits.release
    split <;> rfl
  · intro hphase
    have hsettled := ord.settled hphase
    show (r.roster.slots.set i .over).countP Slot.holds + r.roster.drainPermits ≤ r.roster.size
    omega
  · intro hphase
    have hslots := ord.hasSlots hslot
    rw [show r.roster.phase.hasSlots = false from hphase] at hslots
    cases hslots
  · intro till hmem
    rcases List.mem_or_eq_of_mem_set hmem with hmem | heq
    · exact ord.pauses till hmem
    · cases heq
  · intro c hmem
    rcases List.mem_or_eq_of_mem_set hmem with hmem | heq
    · exact ord.consumers c hmem
    · cases heq

theorem InOrder.reap {i : Nat} (ord : r.InOrder post o now)
    (hover : r.roster.slots[i]? = some .over) :
    (⟨r.post, { r.roster with slots := r.roster.slots.eraseIdx i }⟩ : Run).InOrder
      post o now := by
  have hcount : (r.roster.slots.eraseIdx i).countP Slot.holds
      = r.roster.slots.countP Slot.holds := by
    rw [countP_of_getElem? _ hover]
    rfl
  refine { ord with balance := ?_, settled := ?_, empty := ?_, pauses := ?_, consumers := ?_ }
  · rw [hcount]
    exact ord.balance
  · rw [hcount]
    exact ord.settled
  · intro hphase
    rw [ord.hasSlots hover] at hphase
    cases hphase
  · exact fun till hmem => ord.pauses till (List.mem_of_mem_eraseIdx hmem)
  · exact fun c hmem => ord.consumers c (List.mem_of_mem_eraseIdx hmem)

/-- A permit is taken, and a consumer put into a slot, which holds the permit. -/
theorem InOrder.staff {permits : Permits} (ord : r.InOrder post o now)
    (staffing : r.roster.phase = .staffing) (taken : r.roster.permits.acquire? = some permits) :
    (⟨r.post,
      { r.roster with
        permits := permits
        slots := r.roster.slots ++ [.running (.waiting r.post true)] }⟩ : Run).InOrder
      post o now := by
  have hunheld := Permits.unheld_acquire taken
  have hbalance := ord.balance
  have hpermits : permits.gathered = r.roster.permits.gathered ∧
      permits.wanted = r.roster.permits.wanted := by
    unfold Permits.acquire? at taken
    split at taken
    · cases taken
      exact ⟨rfl, rfl⟩
    · cases taken
  refine
    { ord with
      balance := ?_, unwanted := ?_, wanted := ?_, settled := ?_, empty := ?_, pauses := ?_,
      consumers := ?_ }
  · show permits.unheld
      + (r.roster.slots ++ [Slot.running (Consumer.waiting r.post true)]).countP Slot.holds = _
    rw [List.countP_append]
    show permits.unheld + (r.roster.slots.countP Slot.holds + 1) = r.roster.size
    omega
  · intro hphase
    exact ⟨hpermits.1.trans (ord.unwanted hphase).1, hpermits.2.trans (ord.unwanted hphase).2⟩
  · intro till hphase
    exact hpermits.2.trans (ord.wanted till hphase)
  · rw [staffing]
    exact nofun
  · rw [staffing]
    exact nofun
  · intro till hmem
    rcases List.mem_append.mp hmem with hmem | hmem
    · exact ord.pauses till hmem
    · cases List.mem_singleton.mp hmem
  · intro c hmem
    rcases List.mem_append.mp hmem with hmem | hmem
    · exact ord.consumers c hmem
    · cases List.mem_singleton.mp hmem
      exact ⟨rfl, rfl⟩

/-- All slots are aborted, and the permits that they held come back. -/
theorem InOrder.abort (ord : r.InOrder post o now) :
    (⟨r.post, { r.roster.abortAll with phase := .joining }⟩ : Run).InOrder post o now := by
  have hunheld := r.roster.unheld_abortAll
  have hcount := r.roster.countP_abortAll Slot.holds rfl
  have hbalance := ord.balance
  refine
    { ord with
      balance := ?_, unwanted := nofun, wanted := nofun, settled := fun _ => ?_,
      empty := nofun, pauses := ?_, consumers := ?_ }
  · show r.roster.abortAll.permits.unheld + r.roster.abortAll.slots.countP Slot.holds
      = r.roster.size
    omega
  · show r.roster.abortAll.slots.countP Slot.holds + r.roster.drainPermits ≤ r.roster.size
    rw [hcount, Nat.zero_add]
    exact Nat.min_le_left _ _
  · -- No slot pauses any more, and no consumer runs.
    intro till hmem
    obtain ⟨_, -, heq⟩ := List.mem_map.mp hmem
    cases heq
  · intro c hmem
    obtain ⟨_, -, heq⟩ := List.mem_map.mp hmem
    cases heq

theorem Step.now_eq (st : Step isShut p r move p' roster) : p'.now = p.now := by
  cases st with
  | went _ st => exact st.act.now
  | failed _ st => exact st.act.now
  | retired _ st => exact st.act.now
  | expired =>
    refine List.foldlRecOn (motive := fun q => q.now = p.now) r.roster.consumers
      Consumer.abandon rfl fun q hq c _ => ?_
    exact (Agent.abandon_act q (.consumer c)).now.trans hq
  | _ => rfl

/-- Every step keeps the books of a crew in order. -/
theorem Step.inOrder (st : Step isShut p r move p' roster) (ord : r.InOrder post o p.now) :
    (⟨r.post, roster⟩ : Run).InOrder post o p'.now := by
  rw [st.now_eq]
  have hbalance := ord.balance
  cases st with
  | readied starting =>
    have hslots : r.roster.slots = [] := ord.empty (by rw [starting]; rfl)
    have hunwanted := ord.unwanted (by rw [starting]; rfl)
    exact { ord with
      unwanted := fun _ => hunwanted, wanted := nofun, settled := nofun, empty := fun _ => hslots }
  | refused starting =>
    have hslots : r.roster.slots = [] := ord.empty (by rw [starting]; rfl)
    exact { ord with
      unwanted := nofun, wanted := nofun, settled := nofun, empty := fun _ => hslots }
  | staffed staffing _ taken => exact ord.staff staffing taken
  | closed staffing =>
    have hgathered := (ord.unwanted (by rw [staffing]; rfl)).1
    have hunheld := Permits.unheld_gather r.roster.drainPermits hgathered
    refine
      { ord with
        balance := ?_, unwanted := nofun, wanted := fun _ _ => rfl, settled := nofun,
        empty := nofun }
    -- Only free permits are gathered, so those that are held stay as many.
    rw [hunheld]
    exact hbalance
  | reaped _ ended => exact ord.reap ended
  | went running st open_end =>
    refine ord.exchange running rfl rfl nofun fun c hc => ?_
    cases hc
    exact ⟨st.post.trans (ord.consumers _ (List.mem_of_getElem? running)).1, open_end⟩
  | failed running st =>
    refine ord.exchange running rfl rfl (fun till htill => ?_) fun c hc => ?_
    · cases htill
      exact Nat.le_of_eq (by rw [st.act.now])
    · cases hc
  | retired running => exact ord.slotOver running rfl
  | rested pausing => exact ord.slotOver pausing rfl
  | drained draining complete =>
    have hwanted := ord.wanted _ draining
    refine
      { ord with
        unwanted := nofun, wanted := nofun, settled := fun _ => ?_, empty := nofun }
    -- What has been gathered is not held, and it is as much as was to be gathered.
    unfold Permits.unheld at hbalance
    show r.roster.slots.countP Slot.holds + r.roster.drainPermits ≤ r.roster.size
    omega
  | expired => exact ord.abort
  | joined _ empty =>
    exact { ord with
      unwanted := nofun, wanted := nofun, settled := nofun, empty := fun _ => empty }
  | disposed disposing =>
    have hslots : r.roster.slots = [] := ord.empty (by rw [disposing]; rfl)
    exact { ord with
      unwanted := nofun, wanted := nofun, settled := nofun, empty := fun _ => hslots }

end Run

end Crew

end Leasework
