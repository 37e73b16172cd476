import Leasework.Queue.Notice
import Leasework.Queue.Patience

/-!
# `Leasework.Queue.Retry`: attempts that are made again while the backend throttles

One attempt is made at a time. After a throttled attempt the caller
rests for its backoff and tries again, and any other end of an attempt is the end of
all. A cancellation is seen before every attempt and during every rest, but never
during an attempt.

`Retry.run` plays this out over time for given attempts. When a rest ends and the
cancellation comes at the same moment, either may be noticed first; a `Notice` says
which, and the answer is the same.
-/

set_option autoImplicit false

namespace Leasework.Queue

/-- One attempt: how long it takes and how it ends. -/
structure Attempt (α : Type) where
  /-- The time from its beginning to its end. -/
  takes : Nat
  /-- How it ends. -/
  outcome : Except Failure α

namespace Retry

/-- How it all ended, and when. -/
structure Ending (α : Type) where
  /-- What the caller gets. -/
  result : Except Failure α
  /-- The beginning of every attempt, in order. -/
  begun : List Nat
  /-- The moment of the end. -/
  endedAt : Nat

/-- Plays the attempts from number `k` on, beginning at `now`. An attempt knows its number
and its beginning, and may change a state that the attempts share. With too little fuel
there is no answer yet. -/
def runFrom {σ α : Type} (p : Patience) (cancelAt : Option Nat)
    (attempt : (k now : Nat) → σ → σ × Attempt α) (notices : Nat → Notice) :
    (fuel : Nat) → (k now : Nat) → σ → (begun : List Nat) → σ × Option (Ending α)
  | 0, _, _, s, _ => (s, none)
  | fuel + 1, k, now, s, begun =>
    if canceledBy cancelAt now then (s, some ⟨.error .canceled, begun, now⟩)
    else
      let (s, made) := attempt k now s
      let begun := begun ++ [now]
      let ended := now + made.takes
      if p.triesAgain made.outcome then
        let restTill := ended + p.backoff
        let woken := wakesAt cancelAt ended restTill
        if leavesCanceled cancelAt (notices k) ended restTill then
          (s, some ⟨.error .canceled, begun, woken⟩)
        else runFrom p cancelAt attempt notices fuel (k + 1) woken s begun
      else (s, some ⟨made.outcome, begun, ended⟩)

/-- Plays given attempts from the first one on, beginning at zero. -/
def run {α : Type} (p : Patience) (cancelAt : Option Nat) (attempts : Nat → Attempt α)
    (notices : Nat → Notice) (fuel : Nat) : Option (Ending α) :=
  (runFrom p cancelAt (fun k _ s => (s, attempts k)) notices fuel 0 0 () []).2

end Retry

end Leasework.Queue
