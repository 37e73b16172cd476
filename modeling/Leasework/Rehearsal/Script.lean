import Leasework.Work.Job

/-!
# `Leasework.Rehearsal.Script`: handlers that follow a script

A script is a list of rules. A request is handled by the first rule whose beginning it
has and that has not been used up; a request that no rule is for is handled by the empty
rule. A rule says how long the handler takes, whether it heeds a cancellation, and how
it ends.

Without a script the handler answers every request at once with the request itself.
-/

set_option autoImplicit false

namespace Leasework.Rehearsal

/-- How a scripted handler ends. -/
inductive Finale where
  /-- It answers. -/
  | answers (a : Work.Answer)
  /-- It answers with the request. -/
  | echoes
  /-- It crashes. -/
  | crashes (text : String)
deriving Repr

/-- How requests with a beginning are handled. -/
structure Rule where
  /-- The beginning of the requests. -/
  beginning : String
  /-- How many requests the rule is for, if not for all. -/
  times : Option Nat
  /-- The milliseconds the handler takes. -/
  delay : Nat
  /-- Whether the handler heeds a cancellation while it waits. -/
  heedsCancel : Bool
  /-- How it ends. -/
  finale : Finale
deriving Repr

/-- A handler that answers at once with the request itself. -/
def Rule.empty : Rule := ⟨"", none, 0, false, .echoes⟩

/-- A script, with how often each rule has been used so far. -/
structure Script where
  /-- The rules, and their uses. -/
  rules : List (Rule × Nat)
  /-- How the handler is made ready. -/
  preparation : Rule
deriving Repr

namespace Script

/-- A script none of whose rules has been used. -/
def ofRules (rules : List Rule) (preparation : Rule) : Script :=
  ⟨rules.map (·, 0), preparation⟩

/-- Whether a rule that has been used so often is for a request. -/
def applies (content : String) (rule : Rule) (uses : Nat) : Bool :=
  content.startsWith rule.beginning
    && (match rule.times with
      | some times => uses < times
      | none => true)

/-- Uses the first rule that is for a request. -/
def pickFrom (content : String) : List (Rule × Nat) → List (Rule × Nat) × Rule
  | [] => ([], .empty)
  | (rule, uses) :: rest =>
    if applies content rule uses then ((rule, uses + 1) :: rest, rule)
    else
      let (rest, picked) := pickFrom content rest
      ((rule, uses) :: rest, picked)

/-- The rule for a request. -/
def pick (s : Script) (content : String) : Script × Rule :=
  let (rules, rule) := pickFrom content s.rules
  ({ s with rules := rules }, rule)

end Script

/-- How the handler without a script answers: with the request, unless it has been
canceled. -/
def echo (isCanceled : Bool) (content : String) : Work.Answer :=
  if isCanceled then .error .canceled else .ok content

/-- What is written down about a scripted handler. -/
inductive Note where
  /-- It is being made ready. -/
  | prepare
  /-- It has got a request. -/
  | start
  /-- It has ended. -/
  | finish
  /-- It is being disposed of. -/
  | dispose
deriving DecidableEq, Repr

end Leasework.Rehearsal
