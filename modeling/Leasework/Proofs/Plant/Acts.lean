import Leasework.Proofs.Plant.Keepers

/-!
# `Leasework.Proofs.Plant.Acts`: what somebody may do to the plant

Whoever acts on the plant makes at most one call and has at most one keeper. `Act` lists
everything that can come of it: a step of the call, perhaps with a new keeper for what the
call brought home, or an order to the keeper. Boards may change at any time.

So an act takes no time, touches a store only through the call, and leaves the keepers of
others as they were.
-/

set_option autoImplicit false

namespace Leasework.Plant

/-- What somebody does to the plant who may be making a call, and may have a keeper. -/
inductive Act (call : Option Queue.Call) (keeper : Option Nat) (p : Plant) : Plant → Prop
  /-- Nothing changes but the boards. -/
  | noted (boards : List Work.Board) : Act call keeper p { p with boards := boards }
  /-- A step of the call. -/
  | called {c : Queue.Call} {canceled : Bool} {move : Queue.CallMove} {p₁ : Plant}
      {progress : Queue.Progress} (boards : List Work.Board) (mine : call = some c)
      (made : p.stepCall canceled c move = some (p₁, progress)) :
      Act call keeper p { p₁ with boards := boards }
  /-- A step of the call, after which a keeper starts. -/
  | kept {c : Queue.Call} {canceled : Bool} {move : Queue.CallMove} {p₁ : Plant}
      {progress : Queue.Progress} (boards : List Work.Board) (handle : Queue.Handle)
      (delivery : Queue.Delivery) (period : Nat) (mine : call = some c)
      (made : p.stepCall canceled c move = some (p₁, progress)) :
      Act call keeper p ({ p₁ with boards := boards }.startKeeper handle delivery period).1
  /-- The keeper is told to stop. -/
  | stopped {k : Nat} (mine : keeper = some k) : Act call keeper p (p.stopKeeper k)
  /-- The keeper is left. -/
  | left {k : Nat} (boards : List Work.Board) (mine : keeper = some k) :
      Act call keeper p ({ p with boards := boards }.leaveKeeper k)
  /-- The keeper has ended, and is collected. -/
  | collected {k : Nat} {p₁ : Plant} {ended : Lease.Keeper Queue.Call} (mine : keeper = some k)
      (made : p.collectKeeper? k = some (p₁, ended)) : Act call keeper p p₁

namespace Act
variable {call : Option Queue.Call} {keeper : Option Nat} {p p' : Plant}

/-- An act takes no time. -/
theorem now (act : Act call keeper p p') : p'.now = p.now := by
  cases act with
  | noted => rfl
  | called _ _ made => exact (now_stepCall made :)
  | kept _ _ _ _ _ made => exact (now_stepCall made :)
  | stopped => rfl
  | left => rfl
  | collected _ made => rw [(collectKeeper?_cases made).2]

/-- An act touches a store only through the call. -/
theorem touched (act : Act call keeper p p') (q : Nat) :
    Touched q (fun deed => ∃ c, call = some c ∧ c.handle.store = q ∧ deed = .attempt c.request)
      p p' := by
  have hcall : ∀ {c canceled move p₁ progress}, call = some c →
      p.stepCall canceled c move = some (p₁, progress) →
      Touched q (fun deed => ∃ c, call = some c ∧ c.handle.store = q ∧
        deed = .attempt c.request) p p₁ := by
    intro c canceled move p₁ progress mine made
    exact (touched_stepCall made).mono fun deed hdeed => ⟨c, mine, hdeed.2, hdeed.1⟩
  cases act with
  | noted => exact .of_stores rfl
  | called _ mine made => exact (hcall mine made).trans_stores rfl
  | kept _ _ _ _ mine made => exact (hcall mine made).trans_stores rfl
  | stopped => exact .of_stores rfl
  | left => exact .of_stores rfl
  | collected _ made => exact .of_stores (by rw [(collectKeeper?_cases made).2])

/-- An act leaves the keepers of others as they were. -/
theorem keeper?_other (act : Act call keeper p p') {k : Nat} {e : KeeperEntry}
    (he : p.keeper? k = some e) (hleft : e.isLeft = false) (hne : keeper ≠ some k) :
    p'.keeper? k = some e := by
  have hother : ∀ {n}, keeper = some n → n ≠ k := fun mine hn => hne (hn ▸ mine)
  cases act with
  | noted => exact he
  | called _ _ made => exact ((keeper?_stepCall made).trans he :)
  | kept _ _ _ _ _ made => exact keeper?_startKeeper ((keeper?_stepCall made).trans he :)
  | stopped mine => exact keeper?_stopKeeper he (hother mine)
  | left _ mine => exact keeper?_leaveKeeper he hleft (hother mine)
  | collected mine made => exact keeper?_collectKeeper made he (hother mine)

/-- An act keeps the keepers in order. -/
theorem keepersOrderly (act : Act call keeper p p') (o : p.KeepersOrderly) :
    p'.KeepersOrderly := by
  cases act with
  | noted => exact o.of_eq rfl rfl
  | called _ _ made => exact (o.stepCall made).of_eq rfl rfl
  | @kept _ _ _ p₁ _ boards _ _ _ _ made =>
    exact KeepersOrderly.startKeeper (p := { p₁ with boards := boards })
      ((o.stepCall made).of_eq rfl rfl) _ _ _
  | stopped => exact o.stopKeeper
  | left boards =>
    exact KeepersOrderly.leaveKeeper (p := { p with boards := boards }) (o.of_eq rfl rfl)
  | collected _ made => exact o.collectKeeper made

/-- An act takes no number of a keeper back. -/
theorem numbered_le (act : Act call keeper p p') : p.numbered ≤ p'.numbered := by
  cases act with
  | noted => exact Nat.le_refl _
  | called _ _ made => exact Nat.le_of_eq (keepers_stepCall made).2.symm
  | kept _ _ _ _ _ made => exact Nat.le_succ_of_le (Nat.le_of_eq (keepers_stepCall made).2.symm)
  | stopped => exact Nat.le_refl _
  | left => exact Nat.le_refl _
  | collected _ made => exact Nat.le_of_eq (by rw [(collectKeeper?_cases made).2])

end Act

end Leasework.Plant
