import Mathlib.Data.List.Nodup
import Leasework.Proofs.Broker.Course

/-!
# `Leasework.Proofs.Broker.Connections`: a connection for every read

A read blocks its connection, and an answer that comes late belongs to the read that asked for it.
So a connection must not serve two reads, and must not serve another one if its read has failed or
was given up. All waits on a queue share one pool, and each of them can fail, be canceled or be
dropped at any step.

`Receiver.Transfer` says what a step of a wait does to the connections, one constructor for each way
they change hands, and `Receiver.step_transfer` shows that these are all the ways. A `Readers.Run`
is what any number of waits on one queue do beside each other. It keeps a single equation
(`Readers.Run.accounted`): the connections that have been opened are those that were spoiled, those
that are read on and those that are idle, each of them once. `Readers.Run.keptApart` reads off it
that reads are kept apart.
-/

set_option autoImplicit false

namespace Leasework.Broker

open Queue (Failure)

/-! ### What a step does to the connections -/

/-- The connection that a wait reads on. -/
def Receiver.connection? (r : Receiver) : Option Nat :=
  match r.phase with
  | .reading connection => some connection
  | _ => none

/-- Something that has happened to a wait, and the wait before it. -/
structure Incident where
  /-- The wait before it. -/
  wait : Receiver
  /-- What has happened; nothing if the caller has dropped the wait. -/
  happening : Option Happening

/-- The connection of a read that has failed or was given up. -/
def Incident.spoils? (x : Incident) : Option Nat :=
  match x.happening with
  | some (.answer a) =>
    match expect Value.read? a with
    | .ok _ => none
    | .error _ => x.wait.connection?
  | _ => x.wait.connection?

namespace Receiver

/-- How connections change hands in a step of a wait, with the connection that it spoils. -/
inductive Transfer (p : Pool) (r : Receiver) : Pool → Receiver → Option Nat → Prop
  /-- The wait does not read, before and after it. -/
  | idle {r' : Receiver} (before : r.connection? = none) (after : r'.connection? = none) :
      Transfer p r p r' none
  /-- The wait takes a connection out of the pool. -/
  | taken {r' : Receiver} {connection : Nat} {rest : List Nat} (before : r.connection? = none)
      (there : p.idle = connection :: rest) (after : r'.connection? = some connection) :
      Transfer p r { p with idle := rest } r' none
  /-- The wait opens a connection. -/
  | opened {r' : Receiver} (before : r.connection? = none)
      (after : r'.connection? = some p.opened) :
      Transfer p r { p with opened := p.opened + 1 } r' none
  /-- The read has succeeded, and its connection goes into the pool. -/
  | putBack {r' : Receiver} {connection : Nat} (before : r.connection? = some connection)
      (after : r'.connection? = none) : Transfer p r (p.putBack connection) r' none
  /-- The read has failed or was given up. -/
  | spoiled {r' : Receiver} {connection : Nat} (before : r.connection? = some connection)
      (after : r'.connection? = none) : Transfer p r p r' (some connection)

section
variable {canceled : Bool} {now : Nat} {p p' : Pool} {r r' : Receiver} {happening : Happening}

theorem connection?_settle (now : Nat) (r : Receiver) (result : Except Failure (List Entry)) :
    (settle now r result).connection? = none := by
  unfold settle
  split
  · rfl
  · split <;> rfl

theorem connection?_sift (now : Nat) (r : Receiver) (kept : List Entry) (rest : List RawEntry) :
    (sift now r kept rest).connection? = none := by
  induction rest generalizing kept with
  | nil => exact connection?_settle now r (.ok kept)
  | cons raw rest ih =>
    obtain ⟨id, body⟩ := raw
    cases body with
    | some body => exact ih _
    | none => rfl

/-- A wait that is not reading spoils nothing. -/
theorem spoils?_of_not_reading (before : r.connection? = none) (happening : Option Happening) :
    Incident.spoils? ⟨r, happening⟩ = none := by
  unfold Incident.spoils?
  split
  · split
    · rfl
    · exact before
  · exact before

/-- The connections stay where they are. -/
theorem Transfer.ofIdle (before : r.connection? = none) (after : r'.connection? = none) :
    Transfer p r p r' (Incident.spoils? ⟨r, some happening⟩) := by
  rw [spoils?_of_not_reading before]
  exact .idle before after

/-- The answer to a reclaim leads to a read on an idle connection, if there is one. -/
theorem reclaimed_transfer {again : Bool} (phase : r.phase = .reclaiming again) (a : Answer) :
    Transfer p r (reclaimed now p r again a).1 (reclaimed now p r again a).2
      (Incident.spoils? ⟨r, some (.answer a)⟩) := by
  have before : r.connection? = none := by rw [connection?, phase]
  unfold reclaimed
  split
  · exact .ofIdle before rfl
  · split
    · unfold checkOut Pool.checkOut?
      cases hidle : p.idle with
      | nil => exact .ofIdle before rfl
      | cons connection rest =>
        rw [spoils?_of_not_reading before]
        exact .taken before hidle rfl
    · exact .ofIdle before (connection?_settle now r _)

/-- The answer to a read frees its connection or spoils it. -/
theorem hasRead_transfer {connection : Nat} (phase : r.phase = .reading connection) (a : Answer) :
    Transfer p r (hasRead now p r connection a).1 (hasRead now p r connection a).2
      (Incident.spoils? ⟨r, some (.answer a)⟩) := by
  have before : r.connection? = some connection := by rw [connection?, phase]
  unfold hasRead Incident.spoils?
  cases hread : expect Value.read? a with
  | ok entries =>
    simp only [hread]
    exact .putBack before (connection?_sift now r [] entries)
  | error f =>
    simp only [hread, before]
    exact .spoiled before (connection?_settle now r _)

/-- In a step of a wait the connections change hands in one of these ways. -/
theorem step_transfer (made : r.step canceled now p happening = some (p', r')) :
    Transfer p r p' r' (Incident.spoils? ⟨r, some happening⟩) := by
  cases happening with
  | begin =>
    simp only [step] at made
    split at made
    case h_2 => cases made
    rename_i phase
    have before : r.connection? = none := by rw [connection?, phase]
    split at made <;> cases made <;> exact .ofIdle before rfl
  | answer a =>
    simp only [step] at made
    split at made
    case h_4 => cases made
    all_goals
      rename_i phase
      obtain ⟨rfl, rfl⟩ := Prod.ext_iff.mp (Option.some.inj made)
    · exact reclaimed_transfer phase a
    · exact hasRead_transfer phase a
    · have before : r.connection? = none := by rw [connection?, phase]
      refine .ofIdle before ?_
      show (acknowledged now r _ _ a).connection? = none
      unfold acknowledged
      split
      · exact connection?_sift now r _ _
      · exact connection?_settle now r _
  | connected result =>
    simp only [step] at made
    split at made
    case h_3 => cases made
    all_goals
      rename_i phase
      have before : r.connection? = none := by rw [connection?, phase]
      cases made
    · rw [spoils?_of_not_reading before]
      exact .opened before rfl
    · exact .ofIdle before (connection?_settle now r _)
  | rested =>
    simp only [step] at made
    split at made
    case h_2 => cases made
    rename_i till phase
    have before : r.connection? = none := by rw [connection?, phase]
    split at made <;> cases made
    exact .ofIdle before rfl
  | cancel =>
    simp only [step] at made
    split at made
    · cases made
    · split at made <;> cases made
      show Transfer p r p _ r.connection?
      cases before : r.connection? with
      | none => exact .idle before rfl
      | some connection => exact .spoiled before rfl

end

end Receiver

/-! ### Waits beside each other -/

/-- The waits on one queue that go on beside each other, and the connections that they share. -/
structure Readers where
  /-- The connections. -/
  pool : Pool
  /-- The waits. -/
  waits : List Receiver

/-- The connections on which reads are in progress. -/
def readOn (waits : List Receiver) : List Nat := waits.filterMap Receiver.connection?

namespace Readers

/-- What any number of waits on one queue do beside each other, with what has happened to them, the
newest first. Nothing is assumed about the answers of the broker, about the moments, or about when a
wait is canceled. -/
inductive Run (c : Client) : List Incident → Readers → Prop
  /-- Nobody waits, and no connection has been opened. -/
  | start : Run c [] ⟨.empty, []⟩
  /-- One more wait begins. -/
  | joined {past : List Incident} {s : Readers} (most : Nat) (before : Run c past s) :
      Run c past { s with waits := .start c most :: s.waits }
  /-- Something happens to one of the waits. -/
  | stepped {past : List Incident} {s : Readers} {earlier later : List Receiver} {r r' : Receiver}
      {p' : Pool} {canceled : Bool} {now : Nat} {happening : Happening} (before : Run c past s)
      (there : s.waits = earlier ++ r :: later)
      (made : r.step canceled now s.pool happening = some (p', r')) :
      Run c (⟨r, some happening⟩ :: past) ⟨p', earlier ++ r' :: later⟩
  /-- The caller drops one of the waits. -/
  | dropped {past : List Incident} {s : Readers} {earlier later : List Receiver} {r : Receiver}
      (before : Run c past s) (there : s.waits = earlier ++ r :: later) :
      Run c (⟨r, none⟩ :: past) ⟨s.pool, earlier ++ later⟩

end Readers

/-- The connections of the reads that have failed or were given up. -/
def spoiled (past : List Incident) : List Nat := past.filterMap Incident.spoils?

/-! ### Where the connections are -/

/-- No connection gets lost and none is used twice when connections change hands. -/
theorem Receiver.Transfer.count_eq {p p' : Pool} {r r' : Receiver} {lost : Option Nat}
    (transfer : Transfer p r p' r' lost) (n : Nat) :
    lost.toList.count n + r'.connection?.toList.count n + p'.idle.count n
        + (List.range p.opened).count n
      = r.connection?.toList.count n + p.idle.count n + (List.range p'.opened).count n := by
  cases transfer with
  | idle before after => simp only [before, after, Option.toList_none, List.count_nil]
  | taken before there after =>
    simp only [before, after, there, Option.toList_none, Option.toList_some, List.count_nil,
      List.count_cons]
    omega
  | opened before after =>
    simp only [before, after, Option.toList_none, Option.toList_some, List.count_nil,
      List.count_cons, List.range_succ, List.count_append]
    omega
  | putBack before after =>
    simp only [before, after, Pool.putBack, Option.toList_none, Option.toList_some, List.count_nil,
      List.count_cons]
    omega
  | spoiled before after =>
    simp only [before, after, Option.toList_none, Option.toList_some, List.count_nil,
      List.count_cons]
    omega

theorem count_spoiled_cons (x : Incident) (past : List Incident) (n : Nat) :
    (spoiled (x :: past)).count n = x.spoils?.toList.count n + (spoiled past).count n := by
  rw [spoiled, List.filterMap_cons]
  cases x.spoils? with
  | none => simp [spoiled]
  | some connection =>
    simp only [Option.toList_some, List.count_cons, List.count_nil, spoiled]
    omega

theorem count_readOn (earlier later : List Receiver) (r : Receiver) (n : Nat) :
    (readOn (earlier ++ r :: later)).count n
      = r.connection?.toList.count n + (readOn (earlier ++ later)).count n := by
  simp only [readOn, List.filterMap_append, List.filterMap_cons, List.count_append]
  cases r.connection? with
  | none => simp
  | some connection =>
    simp only [Option.toList_some, List.count_cons, List.count_nil]
    omega

section
variable {c : Client} {past : List Incident} {s : Readers}

/-- Every connection that has been opened is spoiled, read on or idle, and only one of these once.
-/
theorem Readers.Run.accounted (run : Run c past s) :
    (spoiled past ++ readOn s.waits ++ s.pool.idle).Perm (List.range s.pool.opened) := by
  refine List.perm_iff_count.mpr fun n => ?_
  simp only [List.count_append]
  induction run with
  | start => rfl
  | joined most before ih => exact ih
  | stepped before there made ih =>
    have htransfer := (Receiver.step_transfer made).count_eq n
    rw [there, count_readOn] at ih
    rw [count_spoiled_cons, count_readOn]
    dsimp only
    omega
  | dropped before there ih =>
    rw [there, count_readOn] at ih
    rw [count_spoiled_cons]
    dsimp only [Incident.spoils?]
    omega

/-- A connection serves no read after one that has spoiled it. -/
theorem Readers.Run.unused_of_spoiled (run : Run c past s) {n : Nat} (h : n ∈ spoiled past) :
    n ∉ s.pool.idle ∧ ∀ r ∈ s.waits, r.connection? ≠ some n := by
  have hnodup := run.accounted.nodup_iff.mpr List.nodup_range
  rw [List.append_assoc, List.nodup_append] at hnodup
  obtain ⟨-, -, hapart⟩ := hnodup
  refine ⟨fun hidle => hapart n h n (List.mem_append_right _ hidle) rfl, fun r hr hreads => ?_⟩
  have hmem : n ∈ readOn s.waits := List.mem_filterMap.mpr ⟨r, hr, hreads⟩
  exact hapart n h n (List.mem_append_left _ hmem) rfl

/-- Nothing that has happened later has happened to a wait that reads on a spoiled connection. -/
theorem Readers.Run.never_again (run : Run c past s) {later earlier : List Incident} {x : Incident}
    {n : Nat} (split : past = later ++ x :: earlier) (spoils : x.spoils? = some n) :
    ∀ y ∈ later, y.wait.connection? ≠ some n := by
  have hspoiled {past later earlier : List Incident} (split : past = later ++ x :: earlier) :
      n ∈ spoiled past :=
    List.mem_filterMap.mpr ⟨x, split ▸ List.mem_append_right _ List.mem_cons_self, spoils⟩
  induction run generalizing later with
  | start => cases later <;> cases split
  | joined most before ih => exact ih split
  | stepped before there made ih | dropped before there ih =>
    cases later with
    | nil => exact List.forall_mem_nil _
    | cons y later =>
      obtain ⟨rfl, hsplit⟩ := List.cons.inj split
      refine List.forall_mem_cons.mpr ⟨?_, ih hsplit⟩
      refine (before.unused_of_spoiled (hspoiled hsplit)).2 _ ?_
      rw [there]
      exact List.mem_append_right _ List.mem_cons_self

/-- Reads are kept apart:

- `single`: no two reads in progress use one connection;
- `once`: no connection is in the pool twice;
- `unused`: no read is in progress on a connection in the pool;
- `gone`: a connection whose read has failed or was given up is not in the pool, no wait reads on
  it, and none has read on it since. -/
structure Readers.Apart (past : List Incident) (s : Readers) : Prop where
  single : ∀ (earlier later : List Receiver) (r : Receiver) (n : Nat),
    s.waits = earlier ++ r :: later → r.connection? = some n →
      ∀ r' ∈ earlier ++ later, r'.connection? ≠ some n
  once : s.pool.idle.Nodup
  unused : ∀ r ∈ s.waits, ∀ n, r.connection? = some n → n ∉ s.pool.idle
  gone : ∀ (later earlier : List Incident) (x : Incident) (n : Nat), past = later ++ x :: earlier →
    x.spoils? = some n → n ∉ s.pool.idle ∧ (∀ r ∈ s.waits, r.connection? ≠ some n) ∧
      ∀ y ∈ later, y.wait.connection? ≠ some n

/-- However many waits share a pool, and whatever happens to them at whatever moment, their reads
are kept apart. -/
theorem Readers.Run.keptApart (run : Run c past s) : Apart past s := by
  have hnodup := run.accounted.nodup_iff.mpr List.nodup_range
  rw [List.append_assoc, List.nodup_append, List.nodup_append] at hnodup
  obtain ⟨-, ⟨hreads, honce, hunused⟩, -⟩ := hnodup
  refine
    { single := fun earlier later r n hsplit hreading r' hr' hreading' => ?_
      once := honce
      unused := fun r hr n hreading hidle => ?_
      gone := fun later earlier x n hsplit hspoils => ?_ }
  · have hcount := List.nodup_iff_count_le_one.mp hreads n
    have hmem : n ∈ readOn (earlier ++ later) := List.mem_filterMap.mpr ⟨r', hr', hreading'⟩
    have hpos := List.count_pos_iff.mpr hmem
    rw [hsplit, count_readOn, hreading] at hcount
    simp only [Option.toList_some, List.count_singleton_self] at hcount
    omega
  · exact hunused n (List.mem_filterMap.mpr ⟨r, hr, hreading⟩) n hidle rfl
  · have hmem : x ∈ past := hsplit ▸ List.mem_append_right _ List.mem_cons_self
    obtain ⟨hidle, hreading⟩ := run.unused_of_spoiled (List.mem_filterMap.mpr ⟨x, hmem, hspoils⟩)
    exact ⟨hidle, hreading, run.never_again hsplit hspoils⟩

end

/-! ### A canceled read -/

/-- A client that is told at once that it is throttled. -/
def sharedClient : Client := ⟨"jobs", "workers", "me", 30, ⟨false, 0⟩⟩

/-- Two waits read on connections of their own. One of them is canceled while it reads. The other
one reads nothing, and goes on to read on its connection once more. -/
theorem exists_run_canceledRead : ∃ past s, Readers.Run sharedClient past s ∧
    spoiled past = [0] ∧ readOn s.waits = [1] ∧ s.pool = ⟨[], 2⟩ := by
  -- Both waits find nothing to reclaim, and open a connection each.
  have first := Readers.Run.joined (c := sharedClient) 10 .start
  have both := first.joined 5
  have begun := both.stepped (rfl : _ = [_] ++ _ :: _)
    (rfl : Receiver.step false 0 .empty (.start sharedClient 10) .begin = some (_, _))
  have bothBegun := begun.stepped (rfl : _ = [] ++ _ :: _)
    (rfl : Receiver.step false 0 .empty (.start sharedClient 5) .begin = some (_, _))
  have unclaimed := bothBegun.stepped (rfl : _ = [_] ++ _ :: _)
    (rfl : Receiver.step false 0 .empty _ (.answer (.ok (.array []))) = some (_, _))
  have noneClaimed := unclaimed.stepped (rfl : _ = [] ++ _ :: _)
    (rfl : Receiver.step false 0 .empty _ (.answer (.ok (.array []))) = some (_, _))
  have connected := noneClaimed.stepped (rfl : _ = [_] ++ _ :: _)
    (rfl : Receiver.step false 0 .empty _ (.connected (.ok ())) = some (_, _))
  have bothConnected := connected.stepped (rfl : _ = [] ++ _ :: _)
    (rfl : Receiver.step false 0 ⟨[], 1⟩ _ (.connected (.ok ())) = some (_, _))
  have canceled := bothConnected.stepped (rfl : _ = [_] ++ _ :: _)
    (rfl : Receiver.step true 0 ⟨[], 2⟩ _ .cancel = some (_, _))
  have nothingRead := canceled.stepped (rfl : _ = [] ++ _ :: _)
    (rfl : Receiver.step false 0 ⟨[], 2⟩ _ (.answer (.ok .nil)) = some (_, _))
  have begunAgain := nothingRead.stepped (rfl : _ = [] ++ _ :: _)
    (rfl : Receiver.step false 0 ⟨[1], 2⟩ _ .begin = some (_, _))
  have unclaimedAgain := begunAgain.stepped (rfl : _ = [] ++ _ :: _)
    (rfl : Receiver.step false 0 ⟨[1], 2⟩ _ (.answer (.ok (.array []))) = some (_, _))
  exact ⟨_, _, unclaimedAgain, rfl, rfl, rfl⟩

/-- The reads of these waits are kept apart. -/
theorem keptApart_canceledRead : ∃ past s, Readers.Run sharedClient past s ∧ Readers.Apart past s ∧
    spoiled past = [0] ∧ readOn s.waits = [1] := by
  obtain ⟨past, s, run, hspoiled, hreading, -⟩ := exists_run_canceledRead
  exact ⟨past, s, run, run.keptApart, hspoiled, hreading⟩

end Leasework.Broker
