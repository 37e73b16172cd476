import Leasework.Plant
import Leasework.Proofs.Queue.Calls

/-!
# `Leasework.Proofs.Plant.Keepers`: what happens on the plant

Two questions come up whenever somebody acts on the plant: what happens to a store, and what
happens to a keeper that belongs to somebody else.

* `Touched` answers the first one: a store is left alone, or one deed of a given kind is done
  to it. `stepCall_cases` and `stepKeeper_cases` take calls and keepers apart.
* `keeper?_onKeeper`, `keeper?_startKeeper`, `keeper?_leaveKeeper` and `keeper?_collectKeeper`
  answer the second one: whatever is done to one keeper, the others are found as they were.

`KeepersOrderly` says that every keeper has a number that was handed out, and that a renewal
under way asks for the lease that its keeper keeps. Every operation preserves it.
-/

set_option autoImplicit false

namespace Leasework

open Queue (Store Deed Request Progress)

namespace Plant
variable {p p' : Plant} {k n : Nat}

/-! ### Stores -/

/-- Puts a store in its place. -/
def withStore (p : Plant) (i : Nat) (s : Store) : Plant := { p with stores := p.stores.set i s }

/-- The store at a position is left alone, or one deed of a kind is done to it. -/
def Touched (q : Nat) (kind : Deed → Prop) (p p' : Plant) : Prop :=
  ∀ s, p.stores[q]? = some s → ∃ s', p'.stores[q]? = some s' ∧
    (s' = s ∨ ∃ deed outcome, kind deed ∧ Store.Step p.now s deed s' outcome)

namespace Touched
variable {q : Nat} {kind kind' : Deed → Prop}

/-- Whoever leaves the stores alone touches none. -/
theorem of_stores (h : p'.stores = p.stores) : Touched q kind p p' :=
  fun s hs => ⟨s, h ▸ hs, Or.inl rfl⟩

/-- A deed of one kind is a deed of a wider kind. -/
theorem mono (t : Touched q kind p p') (h : ∀ deed, kind deed → kind' deed) :
    Touched q kind' p p' := by
  intro s hs
  obtain ⟨s', hs', hcase⟩ := t s hs
  refine ⟨s', hs', hcase.imp id ?_⟩
  rintro ⟨deed, outcome, hkind, st⟩
  exact ⟨deed, outcome, h deed hkind, st⟩

/-- What happens to the stores afterwards is nothing. -/
theorem trans_stores {p'' : Plant} (t : Touched q kind p p') (h : p''.stores = p'.stores) :
    Touched q kind p p'' := by
  intro s hs
  obtain ⟨s', hs', hcase⟩ := t s hs
  exact ⟨s', h ▸ hs', hcase⟩

/-- A change of one store is a deed that is done to it. -/
theorem onStore {i : Nat} {change : Store → Store} {deed : Deed}
    (hdone : ∀ s, s.perform p.now deed = (change s, none)) (hkind : i = q → kind deed) :
    Touched q kind p (p.onStore i change) := by
  intro s hs
  unfold Plant.onStore
  by_cases hi : i = q
  · refine ⟨change s, ?_, Or.inr ⟨deed, none, hkind hi, ?_⟩⟩
    · simp [hi, hs]
    · have st := Store.step_perform p.now s deed
      rwa [hdone s] at st
  · exact ⟨s, by simp [hi, hs], Or.inl rfl⟩

end Touched

/-- A step of a call changes the store that the call goes to, and nothing else. -/
theorem stepCall_cases {canceled : Bool} {c : Queue.Call} {move : Queue.CallMove}
    {progress : Progress} (h : p.stepCall canceled c move = some (p', progress)) :
    ∃ s s', p.stores[c.handle.store]? = some s ∧ c.Step canceled p.now s s' progress ∧
      p' = p.withStore c.handle.store s' := by
  simp only [stepCall, bind, Option.bind_eq_some_iff] at h
  obtain ⟨s, hs, ⟨s', progress'⟩, hstep, heq⟩ := h
  cases heq
  exact ⟨s, s', hs, Queue.Call.step_cases hstep, rfl⟩

/-- A step of a call takes no time. -/
theorem now_stepCall {canceled : Bool} {c : Queue.Call} {move : Queue.CallMove}
    {progress : Progress} (h : p.stepCall canceled c move = some (p', progress)) :
    p'.now = p.now := by
  obtain ⟨s, s', -, -, rfl⟩ := stepCall_cases h
  rfl

/-- A step of a call leaves the keepers as they were, and numbers no new one. -/
theorem keepers_stepCall {canceled : Bool} {c : Queue.Call} {move : Queue.CallMove}
    {progress : Progress} (h : p.stepCall canceled c move = some (p', progress)) :
    p'.keepers = p.keepers ∧ p'.numbered = p.numbered := by
  obtain ⟨s, s', -, -, rfl⟩ := stepCall_cases h
  exact ⟨rfl, rfl⟩

/-- A call that goes on asks for the same thing in the same place. -/
theorem stepCall_same {canceled : Bool} {c c' : Queue.Call} {move : Queue.CallMove}
    (h : p.stepCall canceled c move = some (p', .going c')) :
    c'.handle = c.handle ∧ c'.request = c.request := by
  obtain ⟨s, s', -, st, -⟩ := stepCall_cases h
  exact st.same

/-- A call that succeeds has done something to its store just now. -/
theorem stepCall_succeeded {canceled : Bool} {c : Queue.Call} {move : Queue.CallMove}
    {reply : Queue.Reply} (h : p.stepCall canceled c move = some (p', .ended (.ok reply))) :
    ∃ s s', p.stores[c.handle.store]? = some s ∧ p' = p.withStore c.handle.store s' ∧
      Store.Step p.now s (.attempt c.request) s' (some (.answered (.ok reply))) := by
  obtain ⟨s, s', hs, st, rfl⟩ := stepCall_cases h
  exact ⟨s, s', hs, rfl, st.succeeded⟩

/-- A store is found in the place where it has been put. -/
theorem stores_withStore {i : Nat} {s : Store} (hs : p.stores[i]? = some s) (s' : Store) :
    (p.withStore i s').stores[i]? = some s' :=
  List.getElem?_set_self (List.getElem?_eq_some_iff.mp hs).1

/-- A step of a call touches one store, and attempts its request there. -/
theorem touched_stepCall {q : Nat} {canceled : Bool} {c : Queue.Call} {move : Queue.CallMove}
    {progress : Progress} (h : p.stepCall canceled c move = some (p', progress)) :
    Touched q (fun deed => deed = .attempt c.request ∧ c.handle.store = q) p p' := by
  obtain ⟨s, s', hs, st, rfl⟩ := stepCall_cases h
  intro s₀ hs₀
  by_cases hq : c.handle.store = q
  · obtain rfl : s = s₀ := Option.some.inj (hs.symm.trans (hq ▸ hs₀))
    refine ⟨s', ?_, ?_⟩
    · rw [withStore, hq]
      exact List.getElem?_set_self (List.getElem?_eq_some_iff.mp hs₀).1
    · rcases st.store with rfl | ⟨outcome, st⟩
      · exact Or.inl rfl
      · exact Or.inr ⟨_, some outcome, ⟨rfl, hq⟩, st⟩
  · refine ⟨s₀, ?_, Or.inl rfl⟩
    rw [withStore, List.getElem?_set_ne hq]
    exact hs₀

/-! ### Keepers of others -/

/-- A keeper is found under its number. -/
theorem mem_of_keeper? {e : KeeperEntry} (h : p.keeper? k = some e) :
    e ∈ p.keepers ∧ e.number = k :=
  ⟨List.mem_of_find?_eq_some h, by simpa using List.find?_some h⟩

/-- A step of a call leaves every keeper as it was. -/
theorem keeper?_stepCall {canceled : Bool} {c : Queue.Call} {move : Queue.CallMove}
    {progress : Progress} (h : p.stepCall canceled c move = some (p', progress)) :
    p'.keeper? k = p.keeper? k := by
  unfold keeper?
  rw [(keepers_stepCall h).1]

/-- A keeper is found as the change of one keeper has left it. -/
theorem keeper?_onKeeper_eq {change : KeeperEntry → KeeperEntry}
    (hnumber : ∀ e, (change e).number = e.number) :
    (p.onKeeper n change).keeper? k
      = (p.keeper? k).map fun e => if e.number = n then change e else e := by
  unfold keeper? onKeeper
  rw [List.find?_map]
  -- The numbers stay, so the keeper stands where it stood.
  have hsame : ((fun e => decide (e.number = k)) ∘ fun e =>
      if e.number = n then change e else e) = fun e => decide (e.number = k) := by
    funext e
    show decide ((if e.number = n then change e else e).number = k) = _
    split
    · rw [hnumber]
    · rfl
  rw [hsame]

/-- Changing one keeper leaves the others as they were. -/
theorem keeper?_onKeeper {change : KeeperEntry → KeeperEntry}
    (hnumber : ∀ e, (change e).number = e.number) (hne : n ≠ k) :
    (p.onKeeper n change).keeper? k = p.keeper? k := by
  rw [keeper?_onKeeper_eq hnumber]
  cases hfound : p.keeper? k with
  | none => rfl
  | some e =>
    have hk := (mem_of_keeper? hfound).2
    rw [Option.map_some, if_neg (by omega)]

/-- Changing a keeper changes what is found under its number. -/
theorem keeper?_onKeeper_self {change : KeeperEntry → KeeperEntry} {e : KeeperEntry}
    (hnumber : ∀ e, (change e).number = e.number) (h : p.keeper? k = some e) :
    (p.onKeeper k change).keeper? k = some (change e) := by
  rw [keeper?_onKeeper_eq hnumber, h, Option.map_some, if_pos (mem_of_keeper? h).2]

/-- Keepers that are taken away because of something else do not matter. -/
theorem keeper?_filter {keep : KeeperEntry → Bool} {e : KeeperEntry}
    (h : p.keeper? k = some e) (hkeep : keep e = true) :
    ({ p with keepers := p.keepers.filter keep } : Plant).keeper? k = some e := by
  unfold keeper? at *
  obtain ⟨hk, as, bs, heq, has⟩ := List.find?_eq_some_iff_append.mp h
  -- What stands before the keeper has another number, and so has what is left of it.
  refine List.find?_eq_some_iff_append.mpr ⟨hk, as.filter keep, bs.filter keep, ?_, ?_⟩
  · simp [heq, hkeep]
  · intro a ha
    exact has a (List.mem_filter.mp ha).1

/-- Sweeping takes away no keeper that has not been left. -/
theorem keeper?_sweepKeepers {e : KeeperEntry} (h : p.keeper? k = some e)
    (hleft : e.isLeft = false) : p.sweepKeepers.keeper? k = some e :=
  keeper?_filter h (by rw [hleft]; rfl)

/-- Stopping one keeper leaves the others as they were. -/
theorem keeper?_stopKeeper {e : KeeperEntry} (h : p.keeper? k = some e) (hne : n ≠ k) :
    (p.stopKeeper n).keeper? k = some e := by
  unfold stopKeeper
  rw [keeper?_onKeeper (by simp) hne]
  exact h

/-- Leaving one keeper leaves the others as they were. -/
theorem keeper?_leaveKeeper {e : KeeperEntry} (h : p.keeper? k = some e)
    (hleft : e.isLeft = false) (hne : n ≠ k) : (p.leaveKeeper n).keeper? k = some e := by
  refine keeper?_sweepKeepers ?_ hleft
  rw [keeper?_onKeeper (by simp) hne]
  exact h

/-- A new keeper leaves the others as they were. -/
theorem keeper?_startKeeper {handle : Queue.Handle} {delivery : Queue.Delivery} {period : Nat}
    {e : KeeperEntry} (h : p.keeper? k = some e) :
    (p.startKeeper handle delivery period).1.keeper? k = some e := by
  unfold keeper? startKeeper at *
  rw [List.find?_append, h]
  rfl

/-- A new keeper is found under its number, which nobody else has. -/
theorem keeper?_startKeeper_self {handle : Queue.Handle} {delivery : Queue.Delivery}
    {period : Nat} (hlt : ∀ e ∈ p.keepers, e.number < p.numbered) :
    (p.startKeeper handle delivery period).1.keeper? p.numbered
      = some ⟨p.numbered, handle, delivery, .start period p.now, false⟩ := by
  have hnone : p.keepers.find? (fun e => decide (e.number = p.numbered)) = none := by
    refine List.find?_eq_none.mpr fun e he => ?_
    have hne := Nat.ne_of_lt (hlt e he)
    simpa using hne
  unfold keeper? startKeeper
  rw [List.find?_append, hnone, Option.none_or, List.find?_cons_of_pos (by simp)]

/-- Collecting a keeper takes it away, and nothing else. -/
theorem collectKeeper?_cases {keeper : Lease.Keeper Queue.Call}
    (h : p.collectKeeper? n = some (p', keeper)) :
    (∃ e, p.keeper? n = some e ∧ e.keeper = keeper ∧ keeper.hasEnded = true) ∧
      p' = { p with keepers := p.keepers.filter fun e => e.number ≠ n } := by
  simp only [collectKeeper?, bind, Option.bind_eq_some_iff] at h
  obtain ⟨e, he, heq⟩ := h
  split at heq
  · rename_i hended
    cases heq
    exact ⟨⟨e, he, rfl, hended⟩, rfl⟩
  · cases heq

/-- Collecting one keeper leaves the others as they were. -/
theorem keeper?_collectKeeper {keeper : Lease.Keeper Queue.Call} {e : KeeperEntry}
    (h : p.collectKeeper? n = some (p', keeper)) (he : p.keeper? k = some e) (hne : n ≠ k) :
    p'.keeper? k = some e := by
  rw [(collectKeeper?_cases h).2]
  refine keeper?_filter he ?_
  have hk := (mem_of_keeper? he).2
  simp only [ne_eq, decide_not, Bool.not_eq_eq_eq_not, Bool.not_true, decide_eq_false_iff_not]
  omega

end Plant

/-! ### The steps of a keeper -/

/-- Puts a keeper in the place of the one that is there. -/
def KeeperEntry.withKeeper (keeper : Lease.Keeper Queue.Call) (e : KeeperEntry) : KeeperEntry :=
  { e with keeper := keeper }

@[simp] theorem KeeperEntry.withKeeper_number (keeper : Lease.Keeper Queue.Call)
    (e : KeeperEntry) : (e.withKeeper keeper).number = e.number := rfl

/-- A keeper takes note of how far its renewal has come. -/
def Lease.Keeper.noting (k : Lease.Keeper Queue.Call) : Progress → Lease.Keeper Queue.Call
  | .going call => k.proceed call
  | .ended (.ok _) => k.finish true
  | .ended (.error _) => k.finish false

/-- The renewal that a keeper begins. -/
def KeeperEntry.renewal (e : KeeperEntry) : Queue.Call := .start e.handle (.renew e.delivery)

namespace Plant
variable {p p' : Plant} {k n : Nat}

/-- What a step of a keeper may come to. -/
inductive KeeperStep (p : Plant) (e : KeeperEntry) : Plant → Prop
  /-- It has been told to stop, and ends. -/
  | ended {due : Nat} (waiting : e.keeper.phase = .waiting due)
      (told : e.keeper.stopped = true) :
      KeeperStep p e
        (sweepKeepers (p.onKeeper e.number (.withKeeper { e.keeper with phase := .ended })))
  /-- A renewal is due, and its first attempt is made. -/
  | begun {due : Nat} {p₁ : Plant} {progress : Progress}
      (waiting : e.keeper.phase = .waiting due) (free : e.keeper.stopped = false)
      (reached : due ≤ p.now) (made : p.stepCall false e.renewal .go = some (p₁, progress)) :
      KeeperStep p e
        (p₁.onKeeper e.number (.withKeeper (.noting
          { e.keeper with
            phase := .renewing (Lease.nextDue e.keeper.period due p.now) e.renewal } progress)))
  /-- A renewal goes on. -/
  | continued {due : Nat} {call : Queue.Call} {p₁ : Plant} {progress : Progress}
      (renewing : e.keeper.phase = .renewing due call)
      (made : p.stepCall false call .go = some (p₁, progress)) :
      KeeperStep p e (p₁.onKeeper e.number (.withKeeper (e.keeper.noting progress)))

/-- Going on with a renewal is a step of its call, of which the keeper takes note. -/
theorem renew?_cases {e : KeeperEntry} {keeper : Lease.Keeper Queue.Call} {call : Queue.Call}
    (h : p.renew? e keeper call = some p') :
    ∃ p₁ progress, p.stepCall false call .go = some (p₁, progress) ∧
      p' = p₁.onKeeper e.number (.withKeeper (keeper.noting progress)) := by
  simp only [renew?, bind, Option.bind_eq_some_iff] at h
  obtain ⟨⟨p₁, progress⟩, hstep, heq⟩ := h
  cases heq
  refine ⟨p₁, progress, hstep, ?_⟩
  rcases progress with call | (f | reply) <;> rfl

/-- Whatever step a keeper makes, it is one of these. -/
theorem stepKeeper_cases (h : p.stepKeeper n = some p') :
    ∃ e, p.keeper? n = some e ∧ KeeperStep p e p' := by
  simp only [stepKeeper, bind, Option.bind_eq_some_iff] at h
  obtain ⟨e, he, h⟩ := h
  refine ⟨e, he, ?_⟩
  have hn := (mem_of_keeper? he).2
  cases hphase : e.keeper.phase with
  | ended =>
    simp only [hphase] at h
    cases h
  | renewing due call =>
    simp only [hphase] at h
    obtain ⟨p₁, progress, hmade, rfl⟩ := renew?_cases h
    exact .continued hphase hmade
  | waiting due =>
    simp only [hphase] at h
    cases hstopped : e.keeper.stopped with
    | true =>
      have hend : e.keeper.end? = some { e.keeper with phase := .ended } := by
        simp [Lease.Keeper.end?, hphase, hstopped]
      simp only [hend] at h
      cases h
      rw [← hn]
      exact .ended hphase hstopped
    | false =>
      have hend : e.keeper.end? = none := by
        simp [Lease.Keeper.end?, hphase, hstopped]
      -- It does not end, so it begins a renewal, and that has to be due.
      simp only [hend, Option.bind_eq_some_iff] at h
      obtain ⟨keeper, hbegin, hrenew⟩ := h
      simp only [Lease.Keeper.begin?, hphase] at hbegin
      split at hbegin
      · cases hbegin
      · split at hbegin
        · rename_i hdue
          cases hbegin
          obtain ⟨p₁, progress, hmade, rfl⟩ := renew?_cases hrenew
          exact .begun hphase hstopped hdue hmade
        · cases hbegin

/-- A step of a keeper takes no time, and numbers no new one. -/
theorem now_numbered_stepKeeper (h : p.stepKeeper n = some p') :
    p'.now = p.now ∧ p'.numbered = p.numbered := by
  obtain ⟨e, -, st⟩ := stepKeeper_cases h
  cases st with
  | ended => exact ⟨rfl, rfl⟩
  | begun _ _ _ made => exact (And.intro (now_stepCall made) (keepers_stepCall made).2 :)
  | continued _ made => exact (And.intro (now_stepCall made) (keepers_stepCall made).2 :)

/-- A step of one keeper leaves the others as they were. -/
theorem keeper?_stepKeeper {e : KeeperEntry} (h : p.stepKeeper n = some p')
    (he : p.keeper? k = some e) (hleft : e.isLeft = false) (hne : n ≠ k) :
    p'.keeper? k = some e := by
  obtain ⟨e₀, he₀, st⟩ := stepKeeper_cases h
  have hn := (mem_of_keeper? he₀).2
  cases st with
  | ended =>
    refine keeper?_sweepKeepers ?_ hleft
    rw [keeper?_onKeeper (KeeperEntry.withKeeper_number _) (hn ▸ hne)]
    exact he
  | begun _ _ _ made =>
    rw [keeper?_onKeeper (KeeperEntry.withKeeper_number _) (hn ▸ hne), keeper?_stepCall made]
    exact he
  | continued _ made =>
    rw [keeper?_onKeeper (KeeperEntry.withKeeper_number _) (hn ▸ hne), keeper?_stepCall made]
    exact he

end Plant

/-! ### Keepers in order -/

/-- A renewal under way asks for the lease that the keeper keeps. -/
def KeeperEntry.InShape (e : KeeperEntry) : Prop :=
  ∀ due call, e.keeper.phase = .renewing due call →
    call.request = .renew e.delivery ∧ call.handle = e.handle

/-- The keepers of a plant are in order. -/
structure Plant.KeepersOrderly (p : Plant) : Prop where
  /-- No two keepers have one number. -/
  numbers_nodup : (p.keepers.map KeeperEntry.number).Nodup
  /-- Only numbers that were handed out are in use. -/
  numbers_lt : ∀ e ∈ p.keepers, e.number < p.numbered
  /-- Every keeper is in shape. -/
  inShape : ∀ e ∈ p.keepers, e.InShape

namespace Plant.KeepersOrderly
variable {p p' : Plant} {n : Nat}

/-- Whoever leaves the keepers alone leaves them in order. -/
theorem of_eq (o : p.KeepersOrderly) (hkeepers : p'.keepers = p.keepers)
    (hnumbered : p'.numbered = p.numbered) : p'.KeepersOrderly where
  numbers_nodup := hkeepers ▸ o.numbers_nodup
  numbers_lt e he := hnumbered ▸ o.numbers_lt e (hkeepers ▸ he)
  inShape e he := o.inShape e (hkeepers ▸ he)

theorem stepCall {canceled : Bool} {c : Queue.Call} {move : Queue.CallMove}
    {progress : Progress} (o : p.KeepersOrderly)
    (h : p.stepCall canceled c move = some (p', progress)) : p'.KeepersOrderly :=
  o.of_eq (keepers_stepCall h).1 (keepers_stepCall h).2

/-- Taking keepers away leaves the rest in order. -/
theorem filter (o : p.KeepersOrderly) (keep : KeeperEntry → Bool) :
    ({ p with keepers := p.keepers.filter keep } : Plant).KeepersOrderly where
  numbers_nodup := o.numbers_nodup.sublist (List.filter_sublist.map _)
  numbers_lt e he := o.numbers_lt e (List.mem_filter.mp he).1
  inShape e he := o.inShape e (List.mem_filter.mp he).1

/-- Changing a keeper keeps it in order when the change keeps its number and its shape. -/
theorem onKeeper {change : KeeperEntry → KeeperEntry} (o : p.KeepersOrderly)
    (hnumber : ∀ e, (change e).number = e.number)
    (hshape : ∀ e ∈ p.keepers, e.number = n → (change e).InShape) :
    (p.onKeeper n change).KeepersOrderly := by
  have hsame : ∀ e : KeeperEntry,
      (if e.number = n then change e else e).number = e.number := by
    intro e
    split
    · exact hnumber e
    · rfl
  refine ⟨?_, fun e he => ?_, fun e he => ?_⟩
  · have hmap : (KeeperEntry.number ∘ fun e => if e.number = n then change e else e)
        = KeeperEntry.number := funext hsame
    unfold Plant.onKeeper
    rw [List.map_map, hmap]
    exact o.numbers_nodup
  · obtain ⟨e₀, he₀, rfl⟩ := List.mem_map.mp he
    rw [hsame]
    exact o.numbers_lt e₀ he₀
  · obtain ⟨e₀, he₀, rfl⟩ := List.mem_map.mp he
    split
    · rename_i hn
      exact hshape e₀ he₀ hn
    · exact o.inShape e₀ he₀

theorem stopKeeper (o : p.KeepersOrderly) : (p.stopKeeper n).KeepersOrderly :=
  o.onKeeper (fun _ => rfl) fun e he _ => o.inShape e he

theorem leaveKeeper (o : p.KeepersOrderly) : (p.leaveKeeper n).KeepersOrderly := by
  have hstopped : (p.onKeeper n fun e =>
      { e with keeper := e.keeper.stop, isLeft := true }).KeepersOrderly :=
    o.onKeeper (fun _ => rfl) fun e he _ => o.inShape e he
  exact hstopped.filter _

/-- A new keeper has a new number, and has not begun a renewal. -/
theorem startKeeper (o : p.KeepersOrderly) (handle : Queue.Handle) (delivery : Queue.Delivery)
    (period : Nat) : (p.startKeeper handle delivery period).1.KeepersOrderly := by
  refine ⟨?_, fun e he => ?_, fun e he => ?_⟩
  · show ((p.keepers ++ [_]).map KeeperEntry.number).Nodup
    rw [List.map_append, List.map_singleton, List.nodup_append]
    refine ⟨o.numbers_nodup, List.nodup_singleton _, fun m hm m' hm' => ?_⟩
    obtain ⟨e, he, rfl⟩ := List.mem_map.mp hm
    have hlt := o.numbers_lt e he
    have hnew : m' = p.numbered := List.mem_singleton.mp hm'
    omega
  · show e.number < p.numbered + 1
    rcases List.mem_append.mp he with he | he
    · exact Nat.lt_succ_of_lt (o.numbers_lt e he)
    · obtain rfl := List.mem_singleton.mp he
      exact Nat.lt_succ_self _
  · rcases List.mem_append.mp he with he | he
    · exact o.inShape e he
    · obtain rfl := List.mem_singleton.mp he
      intro due call hphase
      simp only [Lease.Keeper.start] at hphase
      split at hphase <;> cases hphase

theorem collectKeeper {keeper : Lease.Keeper Queue.Call} (o : p.KeepersOrderly)
    (h : p.collectKeeper? n = some (p', keeper)) : p'.KeepersOrderly := by
  rw [(collectKeeper?_cases h).2]
  exact o.filter _

/-- The numbers tell keepers apart. -/
theorem eq_of_number (o : p.KeepersOrderly) {e : KeeperEntry} (he : p.keeper? n = some e)
    {e' : KeeperEntry} (he' : e' ∈ p.keepers) (hn : e'.number = n) : e' = e :=
  List.inj_on_of_nodup_map o.numbers_nodup he' (mem_of_keeper? he).1
    (hn.trans (mem_of_keeper? he).2.symm)

/-- A keeper stays in shape when it takes note of its renewal. -/
theorem inShape_noting {p₁ : Plant} {e : KeeperEntry} {keeper : Lease.Keeper Queue.Call}
    {due : Nat} {call : Queue.Call} {progress : Progress}
    (hphase : keeper.phase = .renewing due call) (hrequest : call.request = .renew e.delivery)
    (hhandle : call.handle = e.handle)
    (made : p.stepCall false call .go = some (p₁, progress)) :
    (e.withKeeper (keeper.noting progress)).InShape := by
  intro due' call' hphase'
  rcases progress with going | (f | reply)
  · simp only [KeeperEntry.withKeeper, Lease.Keeper.noting, Lease.Keeper.proceed, hphase,
      Lease.KeeperPhase.renewing.injEq] at hphase'
    obtain ⟨-, rfl⟩ := hphase'
    obtain ⟨hsame, hsame'⟩ := stepCall_same made
    exact ⟨hsame'.trans hrequest, hsame.trans hhandle⟩
  · simp [KeeperEntry.withKeeper, Lease.Keeper.noting, Lease.Keeper.finish, hphase] at hphase'
  · simp [KeeperEntry.withKeeper, Lease.Keeper.noting, Lease.Keeper.finish, hphase] at hphase'

theorem stepKeeper (o : p.KeepersOrderly) (h : p.stepKeeper n = some p') :
    p'.KeepersOrderly := by
  obtain ⟨e, he, st⟩ := stepKeeper_cases h
  obtain ⟨hmem, hn⟩ := mem_of_keeper? he
  -- A renewal changes only the keeper of the number, and that is `e`.
  have hmade : ∀ {p₁ : Plant} {keeper : Lease.Keeper Queue.Call} {due : Nat}
      {call : Queue.Call} {progress : Progress}, keeper.phase = .renewing due call →
      call.request = .renew e.delivery → call.handle = e.handle →
      p.stepCall false call .go = some (p₁, progress) →
      (p₁.onKeeper e.number (.withKeeper (keeper.noting progress))).KeepersOrderly := by
    intro p₁ keeper due call progress hphase hrequest hhandle made
    have o₁ := o.stepCall made
    have he₁ : p₁.keeper? n = some e := (keeper?_stepCall made).trans he
    refine o₁.onKeeper (KeeperEntry.withKeeper_number _) fun e' he' hn' => ?_
    rw [o₁.eq_of_number he₁ he' (hn'.trans hn)]
    exact inShape_noting hphase hrequest hhandle made
  cases st with
  | ended =>
    have hended := o.onKeeper (n := e.number)
      (KeeperEntry.withKeeper_number { e.keeper with phase := .ended })
      (fun _ _ _ _ _ hphase => nomatch hphase)
    exact hended.filter _
  | begun _ _ _ made => exact hmade rfl rfl rfl made
  | continued renewing made =>
    obtain ⟨hrequest, hhandle⟩ := o.inShape e hmem _ _ renewing
    exact hmade renewing hrequest hhandle made

/-- A keeper in order does nothing to a store but renew. -/
theorem touched_stepKeeper (o : p.KeepersOrderly) (h : p.stepKeeper n = some p') (q : Nat) :
    Touched q (fun deed => ∃ d, deed = .attempt (.renew d)) p p' := by
  obtain ⟨e, he, st⟩ := stepKeeper_cases h
  have hrenew : ∀ {call p₁ progress}, call.request = .renew e.delivery →
      p.stepCall false call .go = some (p₁, progress) →
      Touched q (fun deed => ∃ d, deed = .attempt (.renew d)) p p₁ := by
    intro call p₁ progress hrequest made
    refine (touched_stepCall made).mono fun deed hdeed => ⟨e.delivery, ?_⟩
    rw [hdeed.1, hrequest]
  cases st with
  | ended => exact .of_stores rfl
  | begun _ _ _ made => exact (hrenew rfl made).trans_stores rfl
  | continued renewing made =>
    have hrequest := (o.inShape e (mem_of_keeper? he).1 _ _ renewing).1
    exact (hrenew hrequest made).trans_stores rfl

end Plant.KeepersOrderly

end Leasework
