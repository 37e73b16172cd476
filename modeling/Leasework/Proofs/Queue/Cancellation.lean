import Leasework.Proofs.Queue.Effects
import Leasework.Proofs.Queue.Wakeups

/-!
# `Leasework.Proofs.Queue.Cancellation`: a receiver that is canceled while others send

A receiver that is canceled before there is a message for it should be told so, whatever happens
between the cancellation and its own next step. `Scene.CancellationWins` spells that out for one
scene, with a `Sequel` for what may happen after it, and `CancellationLaw` asks it of every receiver
that waits.

Before its first attempt and while it rests after a throttled one, a receiver looks at the
cancellation first. But when it is blocked it may be told to look again, and then it looks for
messages and not at the cancellation. So the law fails, and `Course.cancellationWins_iff` says exactly
where: cancellation wins if and only if the receiver is not blocked.

A blocked receiver always loses against somebody who keeps sending. Sends use up the faults that are
still to come (`Sequel.exists_sent`), and the first one that gets through tells the receiver to look
again.
-/

set_option autoImplicit false

namespace Leasework.Queue

/-! ### What comes after a scene -/

/-- What may happen after a scene: the clock goes on, others use the store, the store rearranges its
leases, and the call makes steps. It has the footprints that the call has left since then, the newest
one first. -/
inductive Sequel (first : Scene) : List Footprint → Scene → Prop
  /-- Nothing has happened. -/
  | here : Sequel first [] first
  /-- The clock goes on. -/
  | later {steps : List Footprint} {scene : Scene} (now : Nat) (before : Sequel first steps scene)
      (forward : scene.now ≤ now) : Sequel first steps { scene with now }
  /-- Others do something to the store. -/
  | others {steps : List Footprint} {scene : Scene} (deed : Deed)
      (before : Sequel first steps scene) :
      Sequel first steps { scene with store := (scene.store.perform scene.now deed).1 }
  /-- The store keeps its leases in another order. -/
  | rearranged {steps : List Footprint} {scene : Scene} {held : List Held}
      (before : Sequel first steps scene) (same : held.Perm scene.store.held) :
      Sequel first steps { scene with store := scene.store.withHeld held }
  /-- The call makes a step. -/
  | stepped {steps : List Footprint} {now : Nat} {s s' : Store} {canceled : Bool} {c : Call}
      {move : CallMove} {progress : Progress}
      (before : Sequel first steps ⟨now, s, canceled, .going c⟩)
      (made : c.step canceled now s move = some (s', progress)) :
      Sequel first (⟨now, s, s'⟩ :: steps) ⟨now, s', canceled, progress⟩

/-- A course with what comes after it is a course. -/
theorem Course.sequel {handle : Handle} {request : Request} {steps later : List Footprint}
    {scene scene' : Scene} (course : Course handle request steps scene)
    (sequel : Sequel scene later scene') : Course handle request (later ++ steps) scene' := by
  induction sequel with
  | here => exact course
  | later now _ forward ih => exact ih.later now forward
  | others deed _ ih => exact ih.others deed
  | rearranged _ same ih => exact ih.rearranged same
  | stepped _ made ih => exact ih.stepped made

/-- If a call is canceled in a scene, the cancellation wins, whatever happens after it:

- `idle`: the call does nothing any more;
- `ended`: if it ends, it has been canceled;
- `going`: as long as it goes on, it can end with the next step. -/
structure Scene.CancellationWins (request : Request) (scene : Scene) : Prop where
  idle : ∀ steps scene', Sequel { scene with canceled := true } steps scene' → Idle request steps
  ended : ∀ steps scene' result, Sequel { scene with canceled := true } steps scene' →
    scene'.progress = .ended result → result = .error .canceled
  going : ∀ steps scene' c, Sequel { scene with canceled := true } steps scene' →
    scene'.progress = .going c → ∃ move,
      c.step scene'.canceled scene'.now scene'.store move
        = some (scene'.store, .ended (.error .canceled))

/-- Cancellation wins wherever a receiver waits, and no message can be delivered. -/
def CancellationLaw : Prop :=
  ∀ handle most steps scene (c : Call), Course handle (.take most) steps scene →
    scene.progress = .going c → c.phase ≠ .ready → (scene.store.reclaim scene.now).visible = [] →
    scene.CancellationWins (.take most)

/-! ### Receivers that look at the cancellation -/

section
variable {handle : Handle} {request : Request} {most now : Nat} {steps : List Footprint}
  {scene first : Scene} {s s' : Store} {c : Call} {move : CallMove} {progress : Progress}

/-- Whatever step a canceled call makes that is not blocked, it notices the cancellation. -/
theorem Call.step_of_canceled (unblocked : ∀ seen expiry, c.phase ≠ .blocked seen expiry)
    (h : c.step true now s move = some (s', progress)) :
    s' = s ∧ progress = .ended (.error .canceled) := by
  cases move with
  | quit =>
    simp only [step] at h
    split at h
    · cases h
      exact ⟨rfl, rfl⟩
    · cases h
  | go =>
    simp only [step] at h
    split at h
    · cases h
      exact ⟨rfl, rfl⟩
    · cases h

/-- A canceled call can end with its next step. -/
theorem Call.exists_step_of_canceled (now : Nat) (s : Store) (c : Call) :
    ∃ move, c.step true now s move = some (s, .ended (.error .canceled)) := by
  cases hphase : c.phase with
  | ready => exact ⟨.go, by simp [step, canGo, hphase, attemptUnless]⟩
  | resting till => exact ⟨.quit, by simp [step, canQuit, hphase]⟩
  | blocked seen expiry => exact ⟨.quit, by simp [step, canQuit, hphase]⟩

/-- What has become of a canceled call that was not blocked: it has not moved, or it has ended
without doing anything. -/
theorem Sequel.of_unblocked (going : first.progress = .going c)
    (unblocked : ∀ seen expiry, c.phase ≠ .blocked seen expiry)
    (sequel : Sequel { first with canceled := true } steps scene) :
    scene.canceled = true ∧ Idle request steps ∧
      (scene.progress = .going c ∨ scene.progress = .ended (.error .canceled)) := by
  induction sequel with
  | here => exact ⟨rfl, List.forall_mem_nil _, Or.inl going⟩
  | later _ _ _ ih => exact ih
  | others _ _ ih => exact ih
  | rearranged _ _ ih => exact ih
  | stepped _ made ih =>
    obtain ⟨rfl, idle, hprogress⟩ := ih
    rcases hprogress with hgoing | hended
    · cases hgoing
      obtain ⟨rfl, hended⟩ := Call.step_of_canceled unblocked made
      exact ⟨rfl, List.forall_mem_cons.mpr ⟨.same, idle⟩, Or.inr hended⟩
    · cases hended

/-- Cancellation wins over everything that happens to a call that is not blocked. -/
theorem Scene.cancellationWins_of_unblocked (going : scene.progress = .going c)
    (unblocked : ∀ seen expiry, c.phase ≠ .blocked seen expiry) :
    scene.CancellationWins request where
  idle _ _ sequel := (sequel.of_unblocked going unblocked).2.1
  ended steps scene' result sequel hended := by
    obtain ⟨-, -, h⟩ : _ ∧ Idle request steps ∧ _ := sequel.of_unblocked going unblocked
    rw [hended] at h
    rcases h with h | h
    · cases h
    · cases h
      rfl
  going steps scene' c' sequel _ := by
    obtain ⟨hcanceled, -⟩ : _ ∧ Idle request steps ∧ _ := sequel.of_unblocked going unblocked
    rw [hcanceled]
    exact Call.exists_step_of_canceled _ _ _

/-! ### Receivers that are blocked -/

/-- A blocked call has seen no signal that has not been given. -/
theorem Course.seen_le (course : Course handle request steps scene) {seen : Nat}
    {expiry : Option Nat} (going : scene.progress = .going c)
    (hblocked : c.phase = .blocked seen expiry) : seen ≤ scene.store.signals := by
  induction course generalizing c seen expiry with
  | start =>
    cases going
    cases hblocked
  | later _ _ _ ih => exact ih going hblocked
  | others deed _ ih =>
    exact Nat.le_trans (ih going hblocked) (Store.step_perform _ _ deed).signals_le
  | rearranged _ _ ih => exact ih going hblocked
  | canceled _ ih => exact ih going hblocked
  | stepped _ made =>
    cases going
    cases Call.step_cases made with
    | blocked st =>
      cases hblocked
      exact Nat.le_refl _
    | throttled => cases hblocked

/-- The faults of a store that can hit somebody who sends. -/
def Faults.againstSends (f : Faults) : Nat := f.throttles + f.sends

/-- A fault that hits somebody who sends is used up. -/
theorem Faults.againstSends_use {f : Faults} {kind : FaultKind}
    (hits : kind ∈ [FaultKind.throttle, FaultKind.send]) (pending : 0 < f.count kind) :
    (f.use kind).againstSends < f.againstSends := by
  unfold againstSends
  cases kind with
  | throttle =>
    show f.throttles - 1 + f.sends < _
    have : 0 < f.throttles := pending
    omega
  | send =>
    show f.throttles + (f.sends - 1) < _
    have : 0 < f.sends := pending
    omega
  | delete => cases hits with | tail _ hits => cases hits with | tail _ hits => cases hits
  | renewal => cases hits with | tail _ hits => cases hits with | tail _ hits => cases hits

/-- Whoever keeps sending gets a message through, because there are only so many faults to come. Then
there is no throttling either, and everybody has been told to look again. -/
theorem Sequel.exists_sent (sequel : Sequel first steps scene) :
    ∃ s, Sequel first steps { scene with store := s } ∧ s.fault? [.throttle] = none ∧
      s.visible ≠ [] ∧ scene.store.signals < s.signals := by
  generalize hn : scene.store.faults.againstSends = n
  induction n using Nat.strongRecOn generalizing scene with
  | _ n ih =>
    have next := sequel.others (.attempt (.send "late"))
    have st := Store.step_perform scene.now scene.store (.attempt (.send "late"))
    generalize scene.store.perform scene.now (.attempt (.send "late")) = result at next st
    obtain ⟨s, outcome⟩ := result
    cases st with
    | faulted _ kind hit =>
      -- One fault has been used up, and the next message is sent.
      have hpending : 0 < scene.store.faults.count kind := by simpa using List.find?_some hit
      have hfewer := Faults.againstSends_use (List.mem_of_find?_eq_some hit) hpending
      have sent := ih _ (hn ▸ hfewer) next rfl
      exact sent
    | sent _ safe =>
      have hthrottles : ¬ decide (0 < scene.store.faults.count .throttle) = true :=
        List.find?_eq_none.mp safe .throttle List.mem_cons_self
      refine ⟨_, next, ?_, ?_, Nat.lt_succ_self _⟩
      · exact List.find?_eq_none.mpr fun kind hkind => List.mem_singleton.mp hkind ▸ hthrottles
      · exact List.append_ne_nil_of_right_ne_nil _ (List.cons_ne_nil _ _)
    | lost _ _ through => cases through

/-- A call for messages gets some where there are any, unless a fault hits it. -/
theorem Call.attempt_take (now : Nat) (hrequest : c.request = .take most)
    (safe : s.fault? [.throttle] = none) (hvisible : s.visible ≠ []) :
    ∃ reply, (c.attempt now s).2 = .ended (.ok reply) := by
  have st := Call.attempt_step false now s c
  generalize (c.attempt now s).1 = s', (c.attempt now s).2 = progress at st ⊢
  have hdue : (s.reclaim now).visible ≠ [] := by
    rw [Store.visible_reclaim]
    exact List.append_ne_nil_of_right_ne_nil _ hvisible
  -- Neither a fault nor a lack of messages is left as an outcome of the attempt.
  have htaken : ∀ {outcome}, Store.Step now s (.attempt c.request) s' (some outcome) →
      ∃ ds, outcome = .answered (.ok (.batch ds)) := by
    intro outcome st
    rw [hrequest] at st
    cases st with
    | faulted _ kind hit =>
      rw [show s.fault? (Request.take most).faults = none from safe] at hit
      cases hit
    | bare _ _ none_visible => exact absurd none_visible hdue
    | taken => exact ⟨_, rfl⟩
    | lost _ _ through => cases through
  cases st with
  | quit asked => cases asked
  | blocked st => cases (htaken st).choose_spec
  | throttled st => cases (htaken st).choose_spec
  | settled st =>
    obtain ⟨ds, houtcome⟩ := htaken st
    cases houtcome
    exact ⟨_, rfl⟩

/-- Wherever a receiver is canceled, the cancellation wins if and only if the receiver is not
blocked. -/
theorem Course.cancellationWins_iff (course : Course handle (.take most) steps scene)
    (going : scene.progress = .going c) :
    scene.CancellationWins (.take most) ↔ ∀ seen expiry, c.phase ≠ .blocked seen expiry := by
  refine ⟨fun wins seen expiry hblocked => ?_, Scene.cancellationWins_of_unblocked going⟩
  have hseen := course.seen_le going hblocked
  have hrequest := course.fits.same c going
  obtain ⟨s, sequel, safe, hvisible, hsignals⟩ :=
    (@Sequel.here { scene with canceled := true }).exists_sent
  -- The receiver is told to look again, finds the message, and takes it.
  obtain ⟨reply, hreply⟩ := Call.attempt_take scene.now hrequest safe hvisible
  have made : c.step true scene.now s .go
      = some ((c.attempt scene.now s).1, .ended (.ok reply)) := by
    have hgo : c.canGo scene.now s = true := by
      simp only [Call.canGo, hblocked]
      rw [decide_eq_true (Nat.ne_of_lt (Nat.lt_of_le_of_lt hseen hsignals)), Bool.true_or]
    simp only [Call.step, hgo, if_true, hblocked, ← hreply]
  have sequel' : Sequel { scene with canceled := true } [] ⟨scene.now, s, true, .going c⟩ :=
    going ▸ sequel
  cases wins.ended _ _ _ (sequel'.stepped made) rfl

/-- A receiver is blocked, and somebody sends a message just after it has been canceled: it takes
the message. -/
theorem not_cancellationLaw_lateSend : ¬ CancellationLaw := by
  intro law
  have begun : Course ⟨0, ⟨true, 2⟩⟩ (.take 1) [] _ :=
    .start 0 false (@Shuffled.start "requests" 5)
  have blocked := begun.stepped (rfl : Call.step false 0 _ _ .go = some (_, _))
  have wins := law _ _ _ _ _ blocked rfl nofun rfl
  have canceled : Sequel ⟨0, .empty "requests" 5, true,
      .going ⟨⟨0, ⟨true, 2⟩⟩, .take 1, .blocked 0 none⟩⟩ [] _ := .here
  have sent := canceled.others (.attempt (.send "late"))
  have taken := sent.stepped (rfl : Call.step true 0 _ _ .go = some (_, _))
  cases wins.ended _ _ _ taken rfl

/-- Cancellation wins over a receiver that rests after a throttled attempt, and does not win over
the same receiver once it is blocked. -/
theorem cancellationWins_throttledReceiver : ∃ steps scene steps' scene',
    Course ⟨0, ⟨true, 2⟩⟩ (.take 1) steps scene ∧ scene.CancellationWins (.take 1) ∧
      Sequel scene steps' scene' ∧ ¬ scene'.CancellationWins (.take 1) := by
  have begun : Course ⟨0, ⟨true, 2⟩⟩ (.take 1) [] _ :=
    .others (.inject .throttle 1) (.start 0 false (@Shuffled.start "requests" 5))
  have throttled := begun.stepped (rfl : Call.step false 0 _ _ .go = some (_, _))
  have resting : Sequel ⟨0, .empty "requests" 5, false,
      .going ⟨⟨0, ⟨true, 2⟩⟩, .take 1, .resting 2⟩⟩ [] _ := .here
  have rested := resting.later 2 (Nat.zero_le 2)
  have blocked := rested.stepped (rfl : Call.step false 2 _ _ .go = some (_, _))
  refine ⟨_, _, _, _, throttled, ?_, blocked, ?_⟩
  · exact (throttled.cancellationWins_iff rfl).mpr nofun
  · intro wins
    exact ((throttled.sequel blocked).cancellationWins_iff rfl).mp wins _ _ rfl

end

end Leasework.Queue
