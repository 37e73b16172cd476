import Leasework.Proofs.Queue.Counts

/-!
# `Leasework.Proofs.Queue.Effects`: a call does all of it or nothing

A call may make many attempts, and others may use the store between any two of them. Only the last
attempt of a call that succeeds has an effect on the store. All others leave it as it is, apart from
faults that they use up and from leases that have run out anyway.

`Store.Effect` says what the effect of a request is, one constructor for each request, and
`Store.Untouched` what a step may do that has none. `Store.Step.effect` and `Store.Step.untouched`
give one of the two to every attempt. A `Course` is a call from its start on, with everything that
happens meanwhile and with the footprint of each of its own steps. `allOrNothing` reads a course
wherever it stands, so it is about calls that are dropped as well.
-/

set_option autoImplicit false

namespace Leasework.Queue

namespace Store

/-! ### Effects -/

/-- What a request does to a store when it is carried out now. Leases that have run out by now are
reclaimed before. -/
inductive Effect (now : Nat) (s : Store) : Request → Reply → Store → Prop
  /-- One message is added behind all others. -/
  | sent (content : String) :
      Effect now s (.send content) .done
        { s with
          visible := s.visible ++ [⟨s.numbered + 1, content, 0⟩]
          numbered := s.numbered + 1
          tally := { s.tally with sent := s.tally.sent + 1 }
          signals := s.signals + 1 }
  /-- The messages of the answer, and no others, are leased under the next receipts. They are the
  first visible ones, as many as there are and may be. -/
  | taken (most : Nat) (batch rest : List Message) (some_message : batch ≠ [])
      (front : (s.reclaim now).visible = batch ++ rest)
      (size : batch.length = min (atLeastOne most) (s.reclaim now).visible.length) :
      Effect now s (.take most) (.batch (s.deliveriesOf batch))
        { s.reclaim now with
          visible := rest
          held := (s.reclaim now).held ++ s.leasesOf now batch
          receipts := s.receipts + batch.length
          tally :=
            { s.tally with
              received := s.tally.received + batch.length
              redelivered := s.tally.redelivered + batch.countP fun m => 0 < m.deliveries } }
  /-- The one lease of the delivery lasts a whole lease from now on. -/
  | renewed (d : Delivery) (h : Held) (earlier later : List Held)
      (found : (s.reclaim now).held = earlier ++ h :: later) (same : h.receipt = d.receipt)
      (alone : ∀ h' ∈ earlier ++ later, h'.receipt ≠ d.receipt) :
      Effect now s (.renew d) .done
        { s.reclaim now with
          held := earlier ++ { h with expiry := now + s.lease } :: later
          tally := { s.tally with renewed := s.tally.renewed + 1 } }
  /-- The one message of the delivery moves to the front. -/
  | returned (d : Delivery) (h : Held) (earlier later : List Held)
      (found : (s.reclaim now).held = earlier ++ h :: later) (same : h.receipt = d.receipt)
      (alone : ∀ h' ∈ earlier ++ later, h'.receipt ≠ d.receipt) :
      Effect now s (.giveBack d) .done
        { s.reclaim now with
          visible := h.message :: (s.reclaim now).visible
          held := earlier ++ later
          tally := { s.tally with returned := s.tally.returned + 1 }
          signals := s.signals + 1 }
  /-- The one message of the delivery is gone. -/
  | deleted (d : Delivery) (h : Held) (earlier later : List Held)
      (found : (s.reclaim now).held = earlier ++ h :: later) (same : h.receipt = d.receipt)
      (alone : ∀ h' ∈ earlier ++ later, h'.receipt ≠ d.receipt) :
      Effect now s (.delete d) .done
        { s.reclaim now with
          held := earlier ++ later
          tally := { s.tally with deleted := s.tally.deleted + 1 } }

/-- What a step of a call may do that has no effect. -/
inductive Untouched (now : Nat) (s : Store) (request : Request) : Store → Prop
  /-- Nothing at all. -/
  | same : Untouched now s request s
  /-- One fault is used up, of a kind that can hit the request. -/
  | faulted (kind : FaultKind) (hits : kind ∈ request.faults) (pending : 0 < s.faults.count kind) :
      Untouched now s request { s with faults := s.faults.use kind }
  /-- The leases that have run out by now are reclaimed. -/
  | reclaimed : Untouched now s request (s.reclaim now)

/-- What stays as it is while a request is not carried out. -/
structure Intact (now : Nat) (s s' : Store) : Prop where
  /-- Nothing is counted. -/
  tally : s'.tally = s.tally
  /-- No message is numbered. -/
  numbered : s'.numbered = s.numbered
  /-- No receipt is handed out. -/
  receipts : s'.receipts = s.receipts
  /-- Nobody is told to look again. -/
  signals : s'.signals = s.signals
  /-- No message is added or taken out. -/
  stock : s'.stock.Perm s.stock
  /-- No message leaves the line, and nothing gets behind it. -/
  visible : s.visible <:+ s'.visible
  /-- Nothing new is held, and no lease is renewed. -/
  held : s'.held.Sublist s.held
  /-- What is held on a lease that lasts stays held. -/
  live : ∀ h ∈ s.held, now < h.expiry → h ∈ s'.held

section
variable {now : Nat} {s s' : Store} {request : Request}

/-- What has no effect keeps the store. -/
theorem Untouched.intact (u : Untouched now s request s') : Intact now s s' := by
  cases u with
  | same => exact ⟨rfl, rfl, rfl, rfl, .refl _, List.suffix_refl _, .refl _, fun _ hh _ => hh⟩
  | faulted => exact ⟨rfl, rfl, rfl, rfl, .refl _, List.suffix_refl _, .refl _, fun _ hh _ => hh⟩
  | reclaimed =>
    refine ⟨rfl, rfl, rfl, rfl, stock_reclaim now s, ?_, List.filter_sublist,
      fun h hh hlive => mem_held_reclaim.mpr ⟨hh, hlive⟩⟩
    rw [visible_reclaim]
    exact List.suffix_append _ _

/-- An attempt that does not answer the request has no effect. -/
theorem Step.untouched {outcome : Outcome}
    (st : Step now s (.attempt request) s' (some outcome))
    (failed : ∀ reply, outcome ≠ .answered (.ok reply)) : Untouched now s request s' := by
  cases st with
  | faulted _ kind hit =>
    exact .faulted kind (List.mem_of_find?_eq_some hit) (by simpa using List.find?_some hit)
  | bare => exact .reclaimed
  | lost => exact .reclaimed
  | sent | taken | renewed | returned | deleted => exact absurd rfl (failed _)

/-- An attempt that answers the request carries it out. -/
theorem Step.effect {reply : Reply} (o : Orderly s)
    (st : Step now s (.attempt request) s' (some (.answered (.ok reply)))) :
    Effect now s request reply s' := by
  have hnd := (o.reclaim now).receipts_nodup
  cases st with
  | sent content => exact .sent content
  | taken most _ some_visible =>
    refine .taken most _ ((s.reclaim now).withoutBatch most).visible some_visible ?_ ?_
    · exact (List.take_append_drop _ _).symm
    · exact List.length_take
  | renewed d h _ found =>
    obtain ⟨earlier, later, hheld, hr, alone⟩ := held_split hnd found
    have hset := held_setExpiry (now + s.lease) hheld hr alone
    have heffect := Effect.renewed d h earlier later hheld hr alone
    rwa [← hset] at heffect
  | returned d h _ found =>
    obtain ⟨earlier, later, hheld, hr, alone⟩ := held_split hnd found
    have hdrop := held_dropHeld hheld hr alone
    have heffect := Effect.returned d h earlier later hheld hr alone
    rwa [← hdrop, ← hr] at heffect
  | deleted d h _ found =>
    obtain ⟨earlier, later, hheld, hr, alone⟩ := held_split hnd found
    have hdrop := held_dropHeld hheld hr alone
    have heffect := Effect.deleted d h earlier later hheld hr alone
    rwa [← hdrop] at heffect

end

end Store

/-! ### Courses -/

/-- One step of a call: when it was made, and the store before and after it. -/
structure Footprint where
  /-- When the step was made. -/
  now : Nat
  /-- The store before it. -/
  before : Store
  /-- The store after it. -/
  after : Store

/-- What there is while a call goes on. -/
structure Scene where
  /-- The moment. -/
  now : Nat
  /-- The store that the call goes to. -/
  store : Store
  /-- Whether the call has been canceled. -/
  canceled : Bool
  /-- Where the call is. -/
  progress : Progress

/-- The courses of a call through a handle, from its start on a store that may have any history. The
leases of the store are in no order. A course has the footprints of the call, the newest one first. A
call that is dropped just stops where it is. -/
inductive Course (handle : Handle) (request : Request) : List Footprint → Scene → Prop
  /-- The call has not done anything yet. -/
  | start {name : String} {lease : Nat} {past : List Entry} {s : Store} (now : Nat)
      (canceled : Bool) (reached : Shuffled name lease past s) :
      Course handle request [] ⟨now, s, canceled, .going (.start handle request)⟩
  /-- The clock goes on. -/
  | later {steps : List Footprint} {scene : Scene} (now : Nat)
      (before : Course handle request steps scene) (forward : scene.now ≤ now) :
      Course handle request steps { scene with now }
  /-- Others do something to the store: another call makes an attempt, somebody looks at the store,
  or faults are injected. -/
  | others {steps : List Footprint} {scene : Scene} (deed : Deed)
      (before : Course handle request steps scene) :
      Course handle request steps
        { scene with store := (scene.store.perform scene.now deed).1 }
  /-- The store keeps its leases in another order. -/
  | rearranged {steps : List Footprint} {scene : Scene} {held : List Held}
      (before : Course handle request steps scene) (same : held.Perm scene.store.held) :
      Course handle request steps { scene with store := scene.store.withHeld held }
  /-- The call is canceled. -/
  | canceled {steps : List Footprint} {scene : Scene}
      (before : Course handle request steps scene) :
      Course handle request steps { scene with canceled := true }
  /-- The call makes a step. -/
  | stepped {steps : List Footprint} {now : Nat} {s s' : Store} {canceled : Bool} {c : Call}
      {move : CallMove} {progress : Progress}
      (before : Course handle request steps ⟨now, s, canceled, .going c⟩)
      (made : c.step canceled now s move = some (s', progress)) :
      Course handle request (⟨now, s, s'⟩ :: steps) ⟨now, s', canceled, progress⟩

/-- Nothing has been done by these steps of a call. -/
def Idle (request : Request) (steps : List Footprint) : Prop :=
  ∀ f ∈ steps, f.before.Untouched f.now request f.after

/-- What the steps of a call have done by the time it is in a scene: the last step of a call that
succeeded carried the request out, and nothing else was done. -/
def Done (request : Request) (steps : List Footprint) : Progress → Prop
  | .ended (.ok reply) => ∃ last earlier, steps = last :: earlier ∧
      last.before.Effect last.now request reply last.after ∧ Idle request earlier
  | _ => Idle request steps

/-- What one step of a call does. -/
theorem Call.Step.done {canceled : Bool} {now : Nat} {s s' : Store} {c : Call} {progress : Progress}
    {steps : List Footprint} (st : Step canceled now s c s' progress) (o : Orderly s)
    (idle : Idle c.request steps) : Done c.request (⟨now, s, s'⟩ :: steps) progress := by
  have more (u : s.Untouched now c.request s') : Idle c.request (⟨now, s, s'⟩ :: steps) :=
    List.forall_mem_cons.mpr ⟨u, idle⟩
  cases st with
  | quit => exact more .same
  | blocked st => exact more (st.untouched nofun)
  | throttled st => exact more (st.untouched nofun)
  | @settled _ result st =>
    cases result with
    | ok reply => exact ⟨_, steps, rfl, st.effect o, idle⟩
    | error f => exact more (st.untouched nofun)

/-- What is kept along a course: the books of the store are in order, and the call asks for what it
was to ask for. -/
structure Scene.Fits (request : Request) (scene : Scene) : Prop where
  /-- The books of the store are in order. -/
  orderly : Orderly scene.store
  /-- The call still asks for the same. -/
  same : ∀ c, scene.progress = .going c → c.request = request

section
variable {handle : Handle} {request : Request} {steps : List Footprint} {scene : Scene}

theorem Course.fits (course : Course handle request steps scene) : scene.Fits request := by
  induction course with
  | start now canceled reached =>
    refine ⟨reached.orderly, ?_⟩
    rintro _ ⟨⟩
    rfl
  | later _ _ _ ih => exact ⟨ih.orderly, ih.same⟩
  | others deed _ ih => exact ⟨ih.orderly.step (Store.step_perform _ _ deed), ih.same⟩
  | rearranged _ same ih => exact ⟨ih.orderly.withHeld same, ih.same⟩
  | canceled _ ih => exact ⟨ih.orderly, ih.same⟩
  | stepped _ made ih =>
    have st := Call.step_cases made
    refine ⟨st.orderly ih.orderly, ?_⟩
    rintro c' rfl
    exact st.same.2.trans (ih.same _ rfl)

/-- A call does all of it or nothing, whatever others do meanwhile, in whatever order the leases are
kept, and whenever it is canceled. If it has succeeded, its last step has carried the request out and
all others have left the store untouched. If it has failed, or is dropped where it stands, all its
steps have. -/
theorem Course.allOrNothing (course : Course handle request steps scene) :
    Done request steps scene.progress ∧
      ∀ f ∈ steps, f.before.Untouched f.now request f.after → f.before.Intact f.now f.after := by
  refine ⟨?_, fun f _ u => u.intact⟩
  induction course with
  | start => exact List.forall_mem_nil _
  | later _ _ _ ih => exact ih
  | others _ _ ih => exact ih
  | rearranged _ _ ih => exact ih
  | canceled _ ih => exact ih
  | stepped before made ih =>
    have st := Call.step_cases made
    have hsame := before.fits.same _ rfl
    rw [← hsame] at ih ⊢
    exact st.done before.fits.orderly ih

end

/-- A receiver is throttled, finds nothing when it tries again, and gets the message that is sent
while it waits. -/
theorem exists_course_lateMessage : ∃ steps scene,
    Course ⟨0, ⟨true, 2⟩⟩ (.take 3) steps scene ∧
      scene.progress = .ended (.ok (.batch [⟨0, "requests-1", "a"⟩])) ∧ steps.length = 3 := by
  have begun : Course ⟨0, ⟨true, 2⟩⟩ (.take 3) [] _ :=
    .others (.inject .throttle 1) (.start 0 false (@Shuffled.start "requests" 5))
  have throttled := begun.stepped (rfl : Call.step false 0 _ _ .go = some (_, _))
  have rested := throttled.later 2 (Nat.zero_le 2)
  have blocked := rested.stepped (rfl : Call.step false 2 _ _ .go = some (_, _))
  have told := blocked.others (.attempt (.send "a"))
  have delivered := told.stepped (rfl : Call.step false 2 _ _ .go = some (_, _))
  exact ⟨_, _, delivered, rfl, rfl⟩

/-- Of the three steps of that receiver the last one has leased the message, and the others have
done nothing. -/
theorem allOrNothing_lateMessage : ∃ last earlier scene,
    Course ⟨0, ⟨true, 2⟩⟩ (.take 3) (last :: earlier) scene ∧ earlier.length = 2 ∧
      last.before.Effect last.now (.take 3) (.batch [⟨0, "requests-1", "a"⟩]) last.after ∧
      Idle (.take 3) earlier := by
  obtain ⟨steps, scene, course, ended, three⟩ := exists_course_lateMessage
  have done := course.allOrNothing.1
  rw [ended] at done
  obtain ⟨last, earlier, rfl, effect, idle⟩ := done
  exact ⟨last, earlier, scene, course, Nat.succ.inj three, effect, idle⟩

end Leasework.Queue
