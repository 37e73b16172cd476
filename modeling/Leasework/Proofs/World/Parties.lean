import Leasework.Proofs.Work.Boards
import Leasework.Proofs.World.Deliveries

/-!
# `Leasework.Proofs.World.Parties`: what happens to one party

`Agent.Turn` takes the parties of a world apart and forgets who belongs to whom. Some
statements are about one party from the event with which it joins to its end, so here the
parties keep their places.

* `World.PartyStep` says what an event may do at a place, and `World.step_party` that there is
  nothing else: a party joins there, makes a step, is canceled, is dropped, or nothing happens
  to it.
* `World.Elsewhere` says that the agents of all other parties are of a kind. If turns keep that
  kind, so do events (`World.step_elsewhere`), and an event that is not about the party at the
  place is a turn of such agents, or nobody's turn (`World.step_outside`).

Agents that *keep off* a board work at no post with that board. Whatever they do leaves the
number on the board as it was (`World.step_inFlight?`).
-/

set_option autoImplicit false

namespace Leasework

open Work (Consumer ConsumerMove)

/-! ### One place among the parties -/

namespace World
variable {w w' : World} {event : Event}

/-- What an event may do at a place among the parties: who was there before, and who is there
afterwards. -/
inductive PartyStep (w w' : World) (i : Nat) : Event → Option Party → Option Party → Prop
  /-- Nobody is there yet. -/
  | absent {event : Event} : PartyStep w w' i event none none
  /-- A party joins there. -/
  | joined {party : Party} (last : w.parties.length = i) (same : w'.plant = w.plant) :
      PartyStep w w' i (.join party) none (some party)
  /-- A consumer joins there that has been given a message. -/
  | assigned {post : Work.Post} {handle : Queue.Handle} {d : Queue.Delivery} {party : Party}
      (last : w.parties.length = i) : PartyStep w w' i (.assign post handle d) none (some party)
  /-- The event is not about the party that is there. -/
  | stayed {event : Event} {party : Party} (no_cancel : event ≠ .cancel i)
      (no_move : ∀ move, event ≠ .move i move) (no_drop : event ≠ .drop i) :
      PartyStep w w' i event (some party) (some party)
  /-- It is canceled. -/
  | canceled {isCanceled : Bool} {task : Task} (same : w'.plant = w.plant) :
      PartyStep w w' i (.cancel i) (some ⟨isCanceled, task⟩) (some ⟨true, task⟩)
  /-- It makes a step. -/
  | moved {party party' : Party} {move : PartyMove}
      (made : party.step w.plant move = some (w'.plant, party')) :
      PartyStep w w' i (.move i move) (some party) (some party')
  /-- It is dropped. -/
  | dropped {isCanceled : Bool} {task : Task} :
      PartyStep w w' i (.drop i) (some ⟨isCanceled, task⟩) (some ⟨isCanceled, .gone⟩)

/-- Nobody joins the parties, and the party at a place is not the one the event is about. -/
theorem PartyStep.of_same {i : Nat} (hsame : w'.parties[i]? = w.parties[i]?)
    (no_cancel : event ≠ .cancel i) (no_move : ∀ move, event ≠ .move i move)
    (no_drop : event ≠ .drop i) : PartyStep w w' i event w.parties[i]? w'.parties[i]? := by
  rw [hsame]
  cases w.parties[i]? with
  | none => exact .absent
  | some party => exact .stayed no_cancel no_move no_drop

/-- One more party at the end: it joins at a place, or it is at another one. -/
theorem PartyStep.of_append {i : Nat} {party : Party} (happend : w'.parties = w.parties ++ [party])
    (no_cancel : event ≠ .cancel i) (no_move : ∀ move, event ≠ .move i move)
    (no_drop : event ≠ .drop i)
    (hnew : w.parties.length = i → PartyStep w w' i event none (some party)) :
    PartyStep w w' i event w.parties[i]? w'.parties[i]? := by
  rcases Nat.lt_trichotomy i w.parties.length with hlt | rfl | hgt
  · refine .of_same ?_ no_cancel no_move no_drop
    rw [happend, List.getElem?_append_left hlt]
  · rw [happend, List.getElem?_concat_length, List.getElem?_eq_none (Nat.le_refl _)]
    exact hnew rfl
  · have hlength : w'.parties.length ≤ i := by
      rw [happend, List.length_append]
      exact hgt
    rw [List.getElem?_eq_none hlength, List.getElem?_eq_none (Nat.le_of_lt hgt)]
    exact .absent

/-- Whatever happens, it is one of these at every place. -/
theorem step_party (h : w.step event = some w') (i : Nat) :
    PartyStep w w' i event w.parties[i]? w'.parties[i]? := by
  have hset : ∀ {j : Nat} {party party' : Party}, w.parties[j]? = some party →
      w'.parties = w.parties.set j party' → (j ≠ i → w'.parties[i]? = w.parties[i]?) ∧
        (j = i → w.parties[i]? = some party ∧ w'.parties[i]? = some party') := by
    intro j party party' hj hparties
    constructor
    · intro hne
      rw [hparties, List.getElem?_set_ne hne]
    · rintro rfl
      rw [hparties]
      exact ⟨hj, List.getElem?_set_self (List.getElem?_eq_some_iff.mp hj).1⟩
  cases event with
  | cancel j =>
    simp only [step] at h
    split at h
    · rename_i hlt
      cases h
      by_cases hj : j = i
      · subst hj
        rw [List.getElem?_modify_eq, List.getElem?_eq_getElem hlt]
        exact .canceled rfl
      · refine .of_same ?_ (by simpa using hj) (by simp) (by simp)
        exact List.getElem?_modify_ne _ _ hj
    · cases h
  | move j move =>
    simp only [step, bind, Option.bind_eq_some_iff] at h
    obtain ⟨party, hj, ⟨p', party'⟩, made, heq⟩ := h
    cases heq
    by_cases hji : j = i
    · obtain ⟨hbefore, hafter⟩ := (hset hj rfl).2 hji
      rw [hbefore, hafter, hji]
      exact .moved made
    · exact .of_same ((hset hj rfl).1 hji) (by simp) (by simp [hji]) (by simp)
  | drop j =>
    simp only [step, bind, Option.bind_eq_some_iff] at h
    obtain ⟨party, hj, heq⟩ := h
    cases heq
    by_cases hji : j = i
    · obtain ⟨hbefore, hafter⟩ := (hset hj rfl).2 hji
      rw [hbefore, hafter, hji]
      exact .dropped
    · exact .of_same ((hset hj rfl).1 hji) (by simp) (by simp) (by simpa using hji)
  | join party =>
    cases h
    exact .of_append rfl (by simp) (by simp) (by simp) fun last => .joined last rfl
  | assign post handle d =>
    cases h
    exact .of_append rfl (by simp) (by simp) (by simp) fun last => .assigned last
  | advance millis =>
    simp only [step] at h
    split at h
    · cases h
      exact .of_same rfl (by simp) (by simp) (by simp)
    · cases h
  | keeper k =>
    obtain ⟨p, -, heq⟩ := Option.map_eq_some_iff.mp h
    cases heq
    exact .of_same rfl (by simp) (by simp) (by simp)
  | _ =>
    cases h
    exact .of_same rfl (by simp) (by simp) (by simp)

end World

/-! ### The parties at the other places -/

/-- What turns keep: an agent that a turn produces has it, if those that take the turn have it. -/
def Agent.Lasting (P : Agent → Prop) : Prop :=
  ∀ {p worker before p' after}, Agent.Turn p worker before p' after →
    (∀ a ∈ before, P a) → ∀ a ∈ after, P a

/-- If everybody who joins is of a kind that turns keep, then everybody is in every run. -/
theorem Run.lasting {P : Agent → Prop} (lasting : Agent.Lasting P) {stores : List Queue.Store}
    {may : World → Event → Prop} {past : List Occurrence} {w : World}
    (run : Run stores may past w)
    (joined : ∀ w party, may w (.join party) → ∀ a ∈ party.agents, P a)
    (assigned : ∀ w post handle d, may w (.assign post handle d) →
      P (.consumer (Consumer.given w.plant post handle d).2)) : ∀ a ∈ w.agents, P a := by
  induction run with
  | start => exact List.forall_mem_nil _
  | step event _ allowed happens ih =>
    intro a ha
    rcases World.agent_cases happens ha with
      ha | ⟨party, rfl, ha⟩ | ⟨post, handle, d, rfl, rfl⟩ | ⟨before, after, hbefore, ha, turn⟩
    · exact ih a ha
    · exact joined _ party allowed a ha
    · exact assigned _ post handle d allowed
    · exact lasting turn (fun b hb => ih b (hbefore b hb)) a ha

/-- Turns keep the consumers in shape. -/
theorem Agent.lasting_inShape : Agent.Lasting Agent.InShape :=
  fun turn hbefore _ ha => turn.inShape hbefore ha

/-- The agents of the parties at all places but one are of a kind. -/
def World.Elsewhere (i : Nat) (P : Agent → Prop) (w : World) : Prop :=
  ∀ j party, w.parties[j]? = some party → j ≠ i → ∀ a ∈ party.agents, P a

/-- Whoever joins at another place is of a kind. -/
def Event.JoinsElsewhere (i : Nat) (P : Agent → Prop) (w : World) : Event → Prop
  | .join party => w.parties.length ≠ i → ∀ a ∈ party.agents, P a
  | .assign post handle d =>
    w.parties.length ≠ i → P (.consumer (Consumer.given w.plant post handle d).2)
  | _ => True

section
variable {P : Agent → Prop} {w w' : World} {event : Event} {i : Nat}

/-- A step of a party of a kind leads to a party of that kind. -/
theorem Agent.Lasting.step (lasting : Agent.Lasting P) {p p' : Plant} {party party' : Party}
    {move : PartyMove} (hparty : ∀ a ∈ party.agents, P a)
    (h : party.step p move = some (p', party')) : ∀ a ∈ party'.agents, P a := by
  obtain ⟨before, after, rest, hbefore, hafter, turn⟩ := Party.step_turn h
  intro a ha
  rcases List.mem_append.mp (hafter.mem_iff.mp ha) with ha | ha
  · exact lasting turn
      (fun b hb => hparty b (hbefore.mem_iff.mpr (List.mem_append_left _ hb))) a ha
  · exact hparty a (hbefore.mem_iff.mpr (List.mem_append_right _ ha))

namespace World

/-- The parties at the other places stay of a kind. -/
theorem step_elsewhere (lasting : Agent.Lasting P) (e : w.Elsewhere i P)
    (joins : event.JoinsElsewhere i P w) (h : w.step event = some w') : w'.Elsewhere i P := by
  intro j party' hparty' hj
  have hstep := step_party h j
  rw [hparty'] at hstep
  cases hbefore : w.parties[j]? with
  | none =>
    rw [hbefore] at hstep
    cases hstep with
    | joined last => exact joins (last.trans_ne hj)
    | @assigned post handle d _ last =>
      have hconsumer : P (.consumer (Consumer.given w.plant post handle d).2) :=
        joins (last.trans_ne hj)
      cases h
      rw [← last, List.getElem?_concat_length] at hparty'
      cases hparty'
      intro a ha
      rw [List.mem_singleton.mp ha]
      exact hconsumer
  | some party =>
    have hparty := e j party hbefore hj
    rw [hbefore] at hstep
    cases hstep with
    | stayed => exact hparty
    | canceled => exact hparty
    | moved made => exact lasting.step hparty made
    | dropped => exact List.forall_mem_nil _

/-- An event that is not about the party at a place is a turn of agents from elsewhere, or
nobody takes a turn. -/
theorem step_outside (e : w.Elsewhere i P) (h : w.step event = some w')
    (no_move : ∀ move, event ≠ .move i move) (no_drop : event ≠ .drop i) :
    (∃ worker before after, (∀ a ∈ before, P a) ∧
        Agent.Turn w.plant worker before w'.plant after) ∨
      (∀ j move, event ≠ .move j move) ∧ ∀ j, event ≠ .drop j := by
  cases event with
  | move j move =>
    simp only [step, bind, Option.bind_eq_some_iff] at h
    obtain ⟨party, hj, ⟨p', party'⟩, made, heq⟩ := h
    cases heq
    have hne : j ≠ i := fun hji => no_move move (by rw [hji])
    obtain ⟨before, after, rest, hbefore, -, turn⟩ := Party.step_turn made
    refine Or.inl ⟨_, before, after, fun a ha => e j party hj hne a ?_, turn⟩
    exact hbefore.mem_iff.mpr (List.mem_append_left _ ha)
  | drop j =>
    simp only [step, bind, Option.bind_eq_some_iff] at h
    obtain ⟨party, hj, heq⟩ := h
    cases heq
    have hne : j ≠ i := fun hji => no_drop (by rw [hji])
    refine Or.inl ⟨none, party.agents, [], e j party hj hne, ?_⟩
    show Agent.Turn w.plant none party.agents (party.abandon w.plant) []
    rw [← Party.foldl_abandon]
    exact .dropped _
  | _ => exact Or.inr ⟨by simp, by simp⟩

end World

end

/-! ### Keeping off a board -/

/-- An agent does not work at a post with a board. -/
def Agent.KeepsOff (b : Nat) (a : Agent) : Prop := ∀ post ∈ a.post?, post.board ≠ b

instance (b : Nat) (a : Agent) : Decidable (a.KeepsOff b) :=
  inferInstanceAs (Decidable (∀ post ∈ a.post?, post.board ≠ b))

section
variable {b : Nat} {p p' : Plant}

/-- Nobody changes posts. -/
theorem Agent.lasting_keepsOff : Agent.Lasting (Agent.KeepsOff b) := by
  intro p worker before p' after turn hbefore a ha post hpost
  obtain ⟨a₀, ha₀, hpost₀⟩ := turn.post_cases ha hpost
  exact hbefore a₀ ha₀ post hpost₀

/-- Dropping an agent that keeps off a board leaves the number on the board. -/
theorem Agent.KeepsOff.inFlight?_abandon {a : Agent} (ha : a.KeepsOff b) :
    (a.abandon p).inFlight? b = p.inFlight? b := by
  cases a with
  | consumer c => exact Consumer.inFlight?_abandon_other (ha _ rfl)
  | _ => rfl

/-- A turn of agents that keep off a board leaves the number on the board. -/
theorem Agent.Turn.inFlight? {worker : Option (Consumer × ConsumerMove)}
    {before after : List Agent} (t : Agent.Turn p worker before p' after)
    (hbefore : ∀ a ∈ before, a.KeepsOff b) : p'.inFlight? b = p.inFlight? b := by
  have hcall : ∀ {canceled call move p₁ progress},
      p.stepCall canceled call move = some (p₁, progress) → p₁.inFlight? b = p.inFlight? b :=
    fun made => Plant.inFlight?_of_boards (Plant.boards_stepCall made)
  cases t with
  | idle => rfl
  | worked st => exact st.inFlight?_other (hbefore _ (List.mem_singleton.mpr rfl) _ rfl)
  | retired st => exact st.inFlight?_other (hbefore _ (List.mem_singleton.mpr rfl) _ rfl)
  | hired => rfl
  | dropped =>
    refine List.foldlRecOn (motive := fun q => q.inFlight? b = p.inFlight? b) before
      Agent.abandon rfl fun q hq a ha => ?_
    exact (hbefore a ha).inFlight?_abandon.trans hq
  | called made => exact hcall made
  | answered made => exact hcall made
  | awaited made => exact hcall made
  | received made => exact hcall made
  | missed made => exact hcall made
  | resumed => rfl
  | collected made => exact Plant.inFlight?_of_boards (Plant.boards_collectKeeper made)

variable {w w' : World} {event : Event} {i : Nat}

/-- An event that is not about the party at a place leaves the number on a board, if everybody
else keeps off it. -/
theorem World.step_inFlight? (e : w.Elsewhere i (Agent.KeepsOff b))
    (h : w.step event = some w') (no_move : ∀ move, event ≠ .move i move)
    (no_drop : event ≠ .drop i) (no_assign : ∀ post handle d, event = .assign post handle d →
      post.board ≠ b) {n : Nat} (hn : w.plant.inFlight? b = some n) :
    w'.plant.inFlight? b = some n := by
  rcases World.step_outside e h no_move no_drop with ⟨_, _, _, hbefore, turn⟩ | ⟨hmove, hdrop⟩
  · rw [turn.inFlight? hbefore]
    exact hn
  · cases World.step_cases h with
    | kept made => exact (Plant.inFlight?_of_boards (Plant.boards_stepKeeper made)).trans hn
    | boarded => exact Plant.inFlight?_addBoard hn
    | @assigned post handle d =>
      have hboard := no_assign post handle d rfl
      exact (Plant.inFlight?_onBoard_ne (p := w.plant) hboard).trans hn
    | moved => exact absurd rfl (hmove _ _)
    | dropped => exact absurd rfl (hdrop _)
    | _ => exact hn

end

end Leasework
