import Leasework.Rehearsal.Program

/-!
# `Leasework.Rehearsal.Stage`: a rehearsal in progress

The stage holds the world, the script of the handler, and the steps that wait to begin
or are under way. Everything that can happen at one moment happens before the clock goes
on, cancellations last, and then the clock jumps to the next moment at which anything is
due.

`Stage.next?` makes one small change; it is `none` when all steps are over. A step that
has taken an hour is dropped.
-/

set_option autoImplicit false

namespace Leasework.Rehearsal

/-- A step that waits for its beginning. -/
structure Waiting where
  /-- The number of the step. -/
  number : Nat
  /-- The millisecond at which it begins. -/
  beginsAt : Nat
  /-- What is done. -/
  action : Action
  /-- When it is canceled, in milliseconds after its beginning. -/
  cancelMillis : Option Nat

/-- A step that is under way. -/
structure Running where
  /-- The number of the step. -/
  number : Nat
  /-- The millisecond at which it began. -/
  begunAt : Nat
  /-- What is done. -/
  action : Action
  /-- Its party in the world, unless it only lets time pass. -/
  party : Option Nat
  /-- The millisecond at which it is canceled. -/
  cancelAt : Option Nat
  /-- Whether it has been canceled. -/
  isCanceled : Bool
  /-- The answer, once there is one. -/
  answer : Option Answer

/-- A step that is over. -/
structure Finished where
  /-- The number of the step. -/
  number : Nat
  /-- What came of it. -/
  answer : Answer
  /-- How long it took, in milliseconds. -/
  elapsedMillis : Nat

/-- A scripted handler at work, known by the keeper beside it or by the crew it is made
ready for. -/
structure Act where
  /-- The number of the keeper, or of the party of the crew. -/
  number : Nat
  /-- The rule it follows. -/
  rule : Rule
  /-- The request. -/
  content : String
  /-- The millisecond at which it has waited long enough. -/
  endsAt : Nat

/-- A rehearsal in progress. -/
structure Stage where
  /-- The world. -/
  world : World
  /-- The script, unless requests are echoed. -/
  script : Option Script
  /-- Whether visible messages and batches are shown sorted. -/
  isSorted : Bool
  /-- How later steps use each queue. -/
  ways : List Queue.Handle
  /-- How long messages of each queue are leased. -/
  leases : List Span
  /-- What single consumers work between. -/
  post : Option Work.Post
  /-- The board that is shown. -/
  board : Nat
  /-- The messages received so far. -/
  inbox : List (Queue.Handle × Queue.Delivery)
  /-- The keepers that have been started under a key. -/
  keepers : List (String × Nat)
  /-- The scripted handlers at work. -/
  acts : List Act
  /-- The scripted handlers that are being made ready. -/
  preparing : List Act
  /-- What has been written down since the last main step. -/
  notes : List (Nat × Note × String)
  /-- The most handlers that have been at work at once. -/
  mostAtWork : Nat
  /-- The steps that wait for their beginning. -/
  waiting : List Waiting
  /-- The steps under way. -/
  running : List Running
  /-- The steps that are over. -/
  finished : List Finished

/-- A step is dropped after so many milliseconds. -/
def longestStep : Nat := 3600000

/-- Texts in order. -/
def sortedTexts (texts : List String) : List String := texts.mergeSort fun a b => decide (a ≤ b)

/-- Deliveries in the order of the ids of their messages. -/
def sortedBatch (batch : List Queue.Delivery) : List Queue.Delivery :=
  batch.mergeSort fun a b => decide (a.id ≤ b.id)

namespace Stage

/-- The clock in milliseconds. -/
def millis (s : Stage) : Nat := s.world.plant.now / nanosPerMilli

/-- Makes an event happen. -/
def happen (s : Stage) (e : Event) : Stage :=
  match s.world.step e with
  | some w => { s with world := w }
  | none => s

/-- Writes down something about the handler, if it follows a script. -/
def note (s : Stage) (n : Note) (content : String) : Stage :=
  if s.script.isSome then { s with notes := (s.millis, n, content) :: s.notes } else s

/-! ### Views -/

/-- A queue as it is seen. -/
def queueView (s : Stage) (store : Queue.Store) : QueueView :=
  let contents := store.visible.map Queue.Message.content
  { name := store.name
    visible := if s.isSorted then sortedTexts contents else contents
    inFlight := store.held.length
    tally := store.tally }

/-- Looks at everything; the stores reclaim expired leases when they are looked at. -/
def look (s : Stage) : Stage × View :=
  let s := (List.range s.world.plant.stores.length).foldl (fun s i => s.happen (.observe i)) s
  (s,
    { millis := s.millis
      queues := s.world.plant.stores.map s.queueView
      board := (s.world.plant.boards[s.board]?).getD .blank })

/-! ### Beginning a step -/

/-- A new party joins for a step. -/
def joinFor (s : Stage) (w : Waiting) (task : Task) : Stage :=
  let isCanceled := w.cancelMillis = some 0
  let party := s.world.parties.length
  let s := s.happen (.join ⟨isCanceled, task⟩)
  let r : Running :=
    { number := w.number, begunAt := s.millis, action := w.action, party := some party
      cancelAt := w.cancelMillis.map (s.millis + ·), isCanceled := isCanceled, answer := none }
  { s with running := s.running ++ [r] }

/-- A step is over as soon as it begins. -/
def finishNow (s : Stage) (w : Waiting) (a : Answer) : Stage :=
  { s with finished := ⟨w.number, a, 0⟩ :: s.finished }

/-- The way to a queue. -/
def way (s : Stage) (queue : Nat) : Queue.Handle :=
  (s.ways[queue]?).getD ⟨queue, .default⟩

/-- Begins a call on a message that has been received. -/
def callOn (s : Stage) (w : Waiting) (message : Nat) (request : Queue.Delivery → Queue.Request) :
    Stage :=
  match s.inbox[message]? with
  | some (handle, delivery) => s.joinFor w (.call (.start handle (request delivery)))
  | none => s.finishNow w .done

/-- Leaves the keeper of a key, if there is one. -/
def leaveKey (s : Stage) (key : String) : Stage × Bool :=
  match s.keepers.lookup key with
  | some number =>
    let s := s.happen (.leave number)
    ({ s with keepers := s.keepers.filter (·.1 ≠ key) }, true)
  | none => (s, false)

/-- Begins work between the first two queues. -/
def work (s : Stage) (w : Waiting) (task : Work.Post → Task) : Stage :=
  match s.post with
  | some post => s.joinFor w (task post)
  | none => s.finishNow w .done

/-- Begins work on a message that has been received. -/
def workOn (s : Stage) (w : Waiting) (message : Nat) : Stage :=
  match s.post, s.inbox[message]? with
  | some post, some (handle, delivery) =>
    let party := s.world.parties.length
    let s := s.happen (.assign post handle delivery)
    let s := if w.cancelMillis = some 0 then s.happen (.cancel party) else s
    let r : Running :=
      { number := w.number, begunAt := s.millis, action := w.action, party := some party
        cancelAt := w.cancelMillis.map (s.millis + ·), isCanceled := w.cancelMillis = some 0
        answer := none }
    { s with running := s.running ++ [r] }
  | _, _ => s.finishNow w .done

/-- Begins a crew, with a board of its own. -/
def workCrew (s : Stage) (w : Waiting) (o : Crew.Options) : Stage :=
  let board := s.world.plant.boards.length
  let s := { s.happen .board with board := board }
  match Work.Post.between (s.way 0) (s.way 1) board ((s.leases[0]?).getD .zero) with
  | .ok post => s.joinFor w (.crew (.create post o))
  | .error f => s.finishNow w (.crashed f.message)

/-- Begins a step. -/
def begin (s : Stage) (w : Waiting) : Stage :=
  match w.action with
  | .send queue content => s.joinFor w (.call (.start (s.way queue) (.send content)))
  | .wait queue => s.joinFor w (.call (.start (s.way queue) (.take 1)))
  | .waitBatch queue most => s.joinFor w (.call (.start (s.way queue) (.take most)))
  | .renew message => s.callOn w message .renew
  | .giveBack message => s.callOn w message .giveBack
  | .delete message => s.callOn w message .delete
  | .sleep _ =>
    let r : Running :=
      { number := w.number, begunAt := s.millis, action := w.action, party := none
        cancelAt := none, isCanceled := false, answer := none }
    { s with running := s.running ++ [r] }
  | .inject queue kind count => (s.happen (.inject queue kind count)).finishNow w .done
  | .setPatience queue patience =>
    { s with ways := s.ways.set queue ⟨queue, patience⟩ }.finishNow w .done
  | .lease queue => s.finishNow w (.span ((s.leases[queue]?).getD .zero))
  | .startKeeper message periodMillis key =>
    match s.inbox[message]? with
    | some (handle, delivery) =>
      let (s, _) := s.leaveKey key
      let number := s.world.plant.numbered
      let s := s.happen (.keep handle delivery (periodMillis * nanosPerMilli))
      { s with keepers := (key, number) :: s.keepers }.finishNow w .done
    | none => s.finishNow w .done
  | .stopKeeper key =>
    match s.keepers.lookup key with
    | some number =>
      let s := { s.happen (.stop number) with keepers := s.keepers.filter (·.1 ≠ key) }
      s.joinFor w (.collecting number)
    | none => s.finishNow w (.renewals 0 0)
  | .dropKeeper key =>
    let (s, left) := s.leaveKey key
    s.finishNow w (.flag left)
  | .look =>
    let (s, view) := s.look
    s.finishNow w (.view view)
  | .processNext => s.work w fun post => .consumer (.waiting post false)
  | .processMessage message => s.workOn w message
  | .consume => s.work w fun post => .consumer (.waiting post true)
  | .crew o => s.workCrew w o
  | .bench plan sending receiving =>
    s.joinFor w
      (.bench
        (.create s.world.plant plan (List.replicate plan.senders (s.way sending))
          (List.replicate plan.receivers (s.way receiving))))
  | .status method target concurrency =>
    let board := (s.world.plant.boards[s.board]?).getD .blank
    s.finishNow w (.status (Host.statusReply method target concurrency board))

/-- Begins the next step that is due. -/
def beginNext? (s : Stage) : Option Stage :=
  match s.waiting.find? fun w => w.beginsAt ≤ s.millis with
  | some w =>
    some ({ s with waiting := s.waiting.filter fun v => v.number ≠ w.number }.begin w)
  | none => none

/-! ### Handlers -/

/-- How a rule ends for a request. -/
def finaleOf (a : Act) (isCanceled : Bool) : Finale :=
  if a.rule.heedsCancel && isCanceled then .answers (.error .canceled) else a.rule.finale

/-- Whether an act is over. -/
def isOver (s : Stage) (a : Act) (isCanceled : Bool) : Bool :=
  a.endsAt ≤ s.millis || a.rule.heedsCancel && isCanceled

/-- A handler begins to work on a request. -/
def beginAct (s : Stage) (h : World.HandlerAtWork) : Stage :=
  match s.script with
  | none => s.happen (h.event (.answer (echo h.isCanceled h.content)))
  | some script =>
    let s := s.note .start h.content
    let (script, rule) := script.pick h.content
    let acts := ⟨h.number, rule, h.content, s.millis + rule.delay⟩ :: s.acts
    { s with
      script := some script, acts := acts, mostAtWork := max s.mostAtWork acts.length }

/-- A handler ends its work on a request. -/
def endAct (s : Stage) (h : World.HandlerAtWork) (a : Act) : Stage :=
  let s := s.note .finish a.content
  let s := { s with acts := s.acts.filter fun b => b.number ≠ a.number }
  match finaleOf a h.isCanceled with
  | .answers answer => s.happen (h.event (.answer answer))
  | .echoes => s.happen (h.event (.answer (.ok a.content)))
  | .crashes text => s.happen (h.event (.crash text))

/-- Lets a handler begin or end its work. -/
def nextAct? (s : Stage) : Option Stage :=
  let handlers := s.world.handlers
  let s := { s with acts := s.acts.filter fun a => handlers.any fun h => h.number = a.number }
  handlers.findSome? fun h =>
    match s.acts.find? fun a => a.number = h.number with
    | none => some (s.beginAct h)
    | some a => if s.isOver a h.isCanceled then some (s.endAct h a) else none

/-- The answer of a party is known before the party is over. -/
def answerFor (s : Stage) (party : Nat) (a : Answer) : Stage :=
  { s with
    running := s.running.map fun r =>
      if r.party = some party then { r with answer := some a } else r }

/-- The handler of a crew has been made ready, has refused, or has crashed. -/
def endPreparation (s : Stage) (party : Nat) : Finale → Stage
  | .answers (.error refusal) => s.happen (.move party (.crew (.started (.error refusal))))
  | .answers (.ok _) => s.happen (.move party (.crew (.started (.ok ()))))
  | .echoes => s.happen (.move party (.crew (.started (.ok ()))))
  | .crashes text => (s.happen (.drop party)).answerFor party (.crashed text)

/-- The handler of a crew is made ready. -/
def prepare? (s : Stage) (party : Nat) (isCanceled : Bool) : Option Stage :=
  match s.script with
  | none => some (s.endPreparation party .echoes)
  | some script =>
    match s.preparing.find? fun a => a.number = party with
    | none =>
      let s := s.note .prepare ""
      let rule := script.preparation
      some { s with preparing := ⟨party, rule, "", s.millis + rule.delay⟩ :: s.preparing }
    | some a =>
      if s.isOver a isCanceled then
        let s := { s with preparing := s.preparing.filter fun b => b.number ≠ party }
        some (s.endPreparation party (finaleOf a isCanceled))
      else none

/-- Makes the handler of a crew ready, or disposes of it. -/
def nextOfCrew? (s : Stage) (party : Nat) (isCanceled : Bool) (r : Crew.Run) : Option Stage :=
  match r.roster.phase with
  | .starting => s.prepare? party isCanceled
  | .disposing => some ((s.note .dispose "").happen (.move party (.crew .disposed)))
  | _ => none

/-- Makes the handler of the first crew that waits for it ready, or disposes of it. -/
def nextCrew? (s : Stage) : Option Stage :=
  s.world.parties.zipIdx.findSome? fun (party, i) =>
    match party.task with
    | .crew r => s.nextOfCrew? i party.isCanceled r
    | _ => none

/-! ### Ending a step -/

/-- A step under way is over. -/
def finish (s : Stage) (r : Running) (a : Answer) : Stage :=
  { s with
    running := s.running.filter fun q => q.number ≠ r.number
    finished := ⟨r.number, a, s.millis - r.begunAt⟩ :: s.finished }

/-- Gives the messages of a batch their numbers. -/
def receive (s : Stage) (r : Running) (handle : Queue.Handle) (batch : List Queue.Delivery) :
    Stage :=
  let batch := if s.isSorted then sortedBatch batch else batch
  let first := s.inbox.length
  let numbered := batch.zipIdx.map fun (d, i) => (first + i, d)
  let s := { s with inbox := s.inbox ++ batch.map (handle, ·) }
  s.finish r (.messages numbered)

/-- A queue call is over. -/
def calledBack (s : Stage) (r : Running) (handle : Queue.Handle) :
    Except Queue.Failure Queue.Reply → Stage
  | .error f => s.finish r (.failed f)
  | .ok .done => s.finish r .done
  | .ok (.batch deliveries) =>
    match r.action with
    | .wait _ =>
      match Queue.single (s.world.plant.storeName handle.store) (.ok deliveries) with
      | .ok d => s.receive r handle [d]
      | .error f => s.finish r (.failed f)
    | _ => s.receive r handle deliveries

/-- What comes of a consumer that has ended. -/
def consumed (action : Action) : Work.Exit → Answer
  | .crashed text => .crashed text
  | .finished (.error f) => .workFailed f
  | .finished (.ok ending) =>
    match action with
    | .consume => .done
    | _ => .worked ending

/-- What comes of a task that is over. -/
def finishTask? (s : Stage) (r : Running) : Task → Option Stage
  | .called handle result => some (s.calledBack r handle result)
  | .collected renewed failed =>
    some (s.finish r (.renewals renewed.toNat failed.toNat))
  | .consumer c => c.exit?.map fun exit => s.finish r (consumed r.action exit)
  | .crew run =>
    match run.roster.phase with
    | .ended (.ok _) => some (s.finish r .done)
    | .ended (.error f) => some (s.finish r (.workFailed f))
    | _ => none
  | .measured report => some (s.finish r (.measured report))
  | _ => none

/-- Ends a step under way, if it is over. -/
def finish? (s : Stage) (r : Running) : Option Stage :=
  match r.answer, r.action with
  | some a, _ => some (s.finish r a)
  | none, .sleep duration =>
    if duration ≤ s.millis - r.begunAt then some (s.finish r .done) else none
  | none, _ => do
    let party ← r.party
    let party ← s.world.parties[party]?
    s.finishTask? r party.task

/-- Cancels a step under way. -/
def cancel (s : Stage) (r : Running) : Stage :=
  let s :=
    { s with
      running := s.running.map fun q =>
        if q.number = r.number then { q with isCanceled := true } else q }
  match r.party with
  | some party => s.happen (.cancel party)
  | none => s

/-- Cancels the next step whose cancellation is due. -/
def cancelNext? (s : Stage) : Option Stage :=
  let isDue (r : Running) : Bool := !r.isCanceled && r.cancelAt.any (· ≤ s.millis)
  (s.running.find? isDue).map s.cancel

/-- Drops a step under way. -/
def drop (s : Stage) (r : Running) : Stage :=
  match r.party with
  | some party => (s.happen (.drop party)).finish r .timedOut
  | none => s.finish r .timedOut

/-- Drops the next step that has taken too long. -/
def dropNext? (s : Stage) : Option Stage :=
  (s.running.find? fun r => r.begunAt + longestStep ≤ s.millis).map s.drop

/-! ### Time -/

/-- The first millisecond that is not before a moment. -/
def ceilMillis (moment : Nat) : Nat := (moment + (nanosPerMilli - 1)) / nanosPerMilli

/-- The milliseconds at which something is due for a step under way. -/
def dueOf (r : Running) : List Nat :=
  let own := match r.action with
    | .sleep duration => [r.begunAt + duration]
    | _ => []
  let cancellation := if r.isCanceled then [] else r.cancelAt.toList
  (r.begunAt + longestStep) :: (own ++ cancellation)

/-- The milliseconds at which something is due. -/
def due (s : Stage) : List Nat :=
  s.world.timers.map ceilMillis ++ s.waiting.map Waiting.beginsAt ++ s.running.flatMap dueOf
    ++ s.acts.map Act.endsAt ++ s.preparing.map Act.endsAt

/-- Lets the clock jump to the next moment at which something is due. -/
def jump? (s : Stage) : Option Stage :=
  if s.waiting.isEmpty && s.running.isEmpty then none
  else (s.due.filter (s.millis < ·)).min?.map fun t => s.happen (.advance t)

/-- Lets a party or a keeper go on. -/
def goOn? (s : Stage) : Option Stage :=
  (s.world.next?.bind s.world.step).map fun w => { s with world := w }

/-- Makes one change: what can happen now comes before the next moment. A step is canceled only
when nothing else is left to do at the moment of its cancellation. -/
def next? (s : Stage) : Option Stage :=
  s.beginNext?.orElse fun _ =>
  s.goOn?.orElse fun _ =>
  s.nextAct?.orElse fun _ =>
  s.nextCrew?.orElse fun _ =>
  (s.running.findSome? s.finish?).orElse fun _ =>
  s.cancelNext?.orElse fun _ =>
  s.dropNext?.orElse fun _ =>
  s.jump?

/-- Makes changes until all steps are over, or the fuel is used up. -/
def run : (fuel : Nat) → Stage → Stage
  | 0, s => s
  | fuel + 1, s =>
    match s.next? with
    | some s => run fuel s
    | none => s

end Stage

end Leasework.Rehearsal
