/-!
# `Leasework.Queue.Notice`: waiting for something that may be canceled

A call waits for a reply, or rests, and may be canceled meanwhile. The wait is left when
it ends or when the cancellation comes, whichever is first. When both are there at the
same moment either may be noticed; a `Notice` says which.
-/

set_option autoImplicit false

namespace Leasework.Queue

/-- What is noticed when a wait is over and the cancellation is there as well. -/
inductive Notice where
  /-- The cancellation. -/
  | cancellation
  /-- The end of the wait. -/
  | ending
deriving DecidableEq, Repr

/-- Whether the cancellation is there at a moment. -/
def canceledBy (cancelAt : Option Nat) (now : Nat) : Bool :=
  match cancelAt with
  | some c => c ≤ now
  | none => false

/-- The moment at which a wait is left: its end, or the cancellation if that comes first,
but never before the wait begins. -/
def wakesAt (cancelAt : Option Nat) (begun ends : Nat) : Nat :=
  match cancelAt with
  | some c => max begun (min c ends)
  | none => ends

/-- Whether a wait is left with the cancellation. -/
def leavesCanceled (cancelAt : Option Nat) (notice : Notice) (begun ends : Nat) : Bool :=
  let woken := wakesAt cancelAt begun ends
  canceledBy cancelAt woken && (notice = .cancellation || woken < ends)

end Leasework.Queue
