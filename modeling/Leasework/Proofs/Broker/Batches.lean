import Leasework.Broker.Receiver
import Leasework.Proofs.Queue.Promise

/-!
# `Leasework.Proofs.Broker.Batches`: waiting for a batch from a broker

A receiver is led by what happens to it: the broker answers, a connection is opened, a rest is
over, the cancellation is noticed (`Receiver.Leads`). It shares its pool of connections with
others, so nothing is assumed about the pool that it finds.

`Receiver.InBounds` is what every happening keeps: the entries that are kept and those still to be
sifted are no more than were asked for, and a wait that is over has kept the promise of every wait.
`Receiver.keepsPromise` reads that off at the end.

That a batch is not too large rests on the broker. `Command.GivesOut` says that an answer holds no
more entries than the command asks for.
-/

set_option autoImplicit false

namespace Leasework.Broker

open Queue (Failure KeepsPromise)

/-- An answer holds no more entries than a command asks for, if it asks for entries. -/
def Command.GivesOut (a : Answer) : Command → Prop
  | .reclaim _ _ _ _ most => ∀ entries, expect Value.reclaimed? a = .ok entries →
    entries.length ≤ most
  | .read _ _ _ most => ∀ entries, expect Value.read? a = .ok entries → entries.length ≤ most
  | _ => True

/-- The broker gives out no more entries than it is asked for, and when a connection cannot be
opened that is an error of the broker. -/
def Happening.Fits (r : Receiver) : Happening → Prop
  | .answer a => ∀ command ∈ r.command?, command.GivesOut a
  | .connected (.error f) => ∃ fault text, f = .broker fault text
  | _ => True

/-- An answer that is not what was expected is an error of the broker. -/
theorem expect_eq_error {α : Type} {read : Value → Option α} {a : Answer} {f : Failure}
    (h : expect read a = .error f) : ∃ fault text, f = .broker fault text := by
  unfold expect at h
  split at h
  · cases h
    exact ⟨_, _, rfl⟩
  · split at h
    · cases h
    · cases h
      exact ⟨_, _, rfl⟩

namespace Receiver

/-- What leads a receiver on, and whether it has been canceled by then. Between two happenings the
clock goes on, the receiver may be canceled, and others use the pool. -/
inductive Leads (r : Receiver) : Bool → Receiver → Prop
  /-- Nothing has happened. -/
  | here : Leads r false r
  /-- The receiver is canceled. -/
  | canceled {b : Bool} {r' : Receiver} (before : Leads r b r') : Leads r true r'
  /-- Something happens to the receiver. -/
  | stepped {b : Bool} {r₁ r' : Receiver} {now : Nat} {p p' : Pool} {happening : Happening}
      (before : Leads r b r₁) (fits : happening.Fits r₁)
      (made : r₁.step b now p happening = some (p', r')) : Leads r b r'

/-- How many entries a receiver asks for, and what it has of them, canceled or not:

- `asks`: it asks for the same number all the time;
- `entries`: the entries that are kept, and those that are left, are no more than that;
- `kept`: a wait that is over has kept its promise. -/
structure InBounds (limit : Nat) (canceled : Bool) (r : Receiver) : Prop where
  asks : r.most = limit
  entries : ∀ kept id rest, r.phase = .acknowledging kept id rest →
    kept.length + rest.length ≤ limit
  kept : ∀ answer, r.phase = .ended answer → KeepsPromise limit canceled answer

section
variable {limit now : Nat} {canceled : Bool} {p p' : Pool} {r r' : Receiver}

/-- A receiver enters a phase in which it has no entries. -/
theorem InBounds.enter (i : InBounds limit canceled r) {phase : Phase}
    (no_entries : ∀ kept id rest, phase ≠ .acknowledging kept id rest)
    (going : ∀ answer, phase ≠ .ended answer) : InBounds limit canceled (r.enter phase) :=
  ⟨i.asks, fun _ _ _ h => absurd h (no_entries _ _ _), fun _ h => absurd h (going _)⟩

/-- A wait ends with an answer that keeps the promise. -/
theorem InBounds.ended (i : InBounds limit canceled r) {answer : Except Failure (List Entry)}
    (kept : KeepsPromise limit canceled answer) :
    InBounds limit canceled (r.enter (.ended answer)) :=
  ⟨i.asks, nofun, fun _ h => Phase.ended.inj h ▸ kept⟩

/-- A wait that is canceled is over. -/
theorem InBounds.quit (i : InBounds limit canceled r) (asked : canceled = true) :
    InBounds limit canceled (r.enter (.ended (.error .canceled))) :=
  i.ended (.of_error (fun _ => asked) nofun)

/-- An attempt ends with an error of the broker: the receiver rests, or the wait is over. -/
theorem InBounds.settle_error (i : InBounds limit canceled r) {f : Failure}
    (h : ∃ fault text, f = .broker fault text) :
    InBounds limit canceled (settle now r (.error f)) := by
  obtain ⟨fault, text, rfl⟩ := h
  unfold settle
  split
  · exact i.enter nofun nofun
  · exact i.ended (.of_error nofun nofun)

/-- An attempt ends with entries: without any another one follows, and otherwise the wait is
over. -/
theorem InBounds.settle_ok (i : InBounds limit canceled r) (now : Nat) {entries : List Entry}
    (h : entries.length ≤ limit) : InBounds limit canceled (settle now r (.ok entries)) := by
  cases entries with
  | nil => exact i.enter nofun nofun
  | cons entry rest => exact i.ended (.of_ok (List.cons_ne_nil entry rest) h)

/-- Sifting keeps entries that are there already, so they do not become more. -/
theorem InBounds.sift (i : InBounds limit canceled r) {kept : List Entry} {rest : List RawEntry}
    (h : kept.length + rest.length ≤ limit) :
    InBounds limit canceled (Receiver.sift now r kept rest) := by
  induction rest generalizing kept with
  | nil => exact i.settle_ok now h
  | cons raw rest ih =>
    obtain ⟨id, body⟩ := raw
    rw [List.length_cons] at h
    cases body with
    | some body =>
      refine ih ?_
      rw [List.length_append, List.length_singleton]
      omega
    | none =>
      refine ⟨i.asks, fun kept' id' rest' hphase => ?_, nofun⟩
      cases hphase
      omega

/-- The reclaim script has answered: it runs again, or what it claimed is the batch, or new entries
are to be read. -/
theorem InBounds.reclaimed (i : InBounds limit canceled r) {again : Bool} {a : Answer}
    (gives : ∀ entries, expect Value.reclaimed? a = .ok entries → entries.length ≤ r.most) :
    InBounds limit canceled (Receiver.reclaimed now p r again a).2 := by
  unfold Receiver.reclaimed
  split
  · exact i.enter nofun nofun
  · split
    · -- Nothing has expired, so new entries are read.
      unfold checkOut
      split <;> exact i.enter nofun nofun
    · cases hresult : expect Value.reclaimed? a with
      | ok entries => exact i.settle_ok now (i.asks ▸ gives entries hresult)
      | error f => exact i.settle_error (expect_eq_error hresult)

/-- A read has been answered: its entries are sifted. -/
theorem InBounds.hasRead (i : InBounds limit canceled r) {connection : Nat} {a : Answer}
    (gives : ∀ entries, expect Value.read? a = .ok entries → entries.length ≤ r.most) :
    InBounds limit canceled (Receiver.hasRead now p r connection a).2 := by
  unfold Receiver.hasRead
  cases hresult : expect Value.read? a with
  | ok entries =>
    refine i.sift ?_
    rw [List.length_nil, Nat.zero_add]
    exact i.asks ▸ gives entries hresult
  | error f => exact i.settle_error (expect_eq_error hresult)

/-- An acknowledgement has been answered: the entries that are left are sifted. -/
theorem InBounds.acknowledged (i : InBounds limit canceled r) {kept : List Entry}
    {rest : List RawEntry} {a : Answer} (h : kept.length + rest.length ≤ limit) :
    InBounds limit canceled (Receiver.acknowledged now r kept rest a) := by
  unfold Receiver.acknowledged
  cases hresult : expect Value.integer? a with
  | ok n => exact i.sift h
  | error f => exact i.settle_error (expect_eq_error hresult)

/-- Whatever happens to a receiver, it stays in bounds. -/
theorem InBounds.step (i : InBounds limit canceled r) {happening : Happening}
    (fits : happening.Fits r) (made : r.step canceled now p happening = some (p', r')) :
    InBounds limit canceled r' := by
  cases happening with
  | begin =>
    simp only [Receiver.step] at made
    split at made
    · split at made
      · rename_i asked
        cases made
        exact i.quit asked
      · cases made
        exact i.enter nofun nofun
    · cases made
  | answer a =>
    simp only [Receiver.step] at made
    split at made
    · rename_i again hphase
      have hcommand : r.command? = some (.reclaim r.client.stream r.client.group r.client.consumer
          r.client.leaseMillis r.most) := by
        rw [command?, hphase]
      obtain ⟨-, rfl⟩ := Prod.ext_iff.mp (Option.some.inj made)
      exact i.reclaimed (fits _ hcommand)
    · rename_i connection hphase
      have hcommand : r.command? = some (.read r.client.stream r.client.group r.client.consumer
          r.most) := by
        rw [command?, hphase]
      obtain ⟨-, rfl⟩ := Prod.ext_iff.mp (Option.some.inj made)
      exact i.hasRead (fits _ hcommand)
    · rename_i kept id rest hphase
      cases made
      exact i.acknowledged (i.entries kept id rest hphase)
    · cases made
  | connected result =>
    simp only [Receiver.step] at made
    split at made
    · cases made
      exact i.enter nofun nofun
    · cases made
      exact i.settle_error fits
    · cases made
  | rested =>
    simp only [Receiver.step] at made
    split at made
    · split at made
      · cases made
        exact i.enter nofun nofun
      · cases made
    · cases made
  | cancel =>
    simp only [Receiver.step] at made
    split at made
    · cases made
    · split at made
      · rename_i asked
        cases made
        exact i.quit asked
      · cases made

/-- A receiver that is canceled keeps its promise all the more. -/
theorem InBounds.cancel (i : InBounds limit canceled r) : InBounds limit true r :=
  ⟨i.asks, i.entries, fun answer h =>
    have kept := i.kept answer h
    ⟨kept.batch, fun _ => rfl, kept.alone⟩⟩

end

section
variable {c : Client} {most : Nat} {canceled : Bool} {r : Receiver}

/-- A receiver stays in bounds all the time. -/
theorem Leads.inBounds (leads : (start c most).Leads canceled r) :
    InBounds (Queue.atLeastOne most) canceled r := by
  induction leads with
  | here => exact ⟨rfl, nofun, nofun⟩
  | canceled _ ih => exact ih.cancel
  | stepped _ fits made ih => exact ih.step fits made

/-- A wait for a batch from a broker keeps the promise. -/
theorem Leads.keepsPromise {answer : Except Failure (List Entry)}
    (leads : (start c most).Leads canceled r) (ended : r.phase = .ended answer) :
    KeepsPromise (Queue.atLeastOne most) canceled answer :=
  leads.inBounds.kept answer ended

end

end Receiver

end Leasework.Broker
