import Mathlib.Data.List.Chain
import Leasework.Broker.Client
import Leasework.Proofs.Broker.Batches
import Leasework.Proofs.Broker.Reads
import Leasework.Proofs.Queue.Schedule

/-!
# `Leasework.Proofs.Broker.Token`: the lock token of a delivery

The lock token of a delivery is the id of its entry and how often that has been delivered. The token
comes from one of two places. The reclaim script reports it with the entry (`Value.Reports`), or the
entry was read as new, and this is its first delivery. From there it goes into every script that is run
on the delivery, unchanged, however often the script is run.

A call that runs a script is taken apart into *tellings*, one for each time the script was told to the
broker. `Client.TellsAgain` says what makes a client tell it again and when, and `Client.Tried` is what a
call keeps while it does: by induction on its attempts, with `Session.attempt_tells` for a single one.
`Receiver.Course.tokens` puts both halves together.
-/

set_option autoImplicit false

namespace Leasework.Broker

open Queue (Failure Notice)

/-! ### Where a token comes from -/

/-- A value of the reclaim script reports an entry: with its id, how often it has been delivered, and
its content, one after the other, in a list of their own or among the other entries. -/
def Value.Reports (v : Value) (e : Entry) : Prop :=
  ∃ items id deliveries content, v = .array items ∧
    (.array [id, deliveries, content] ∈ items ∨ [id, deliveries, content] <:+: items) ∧
    id.text? = some e.id ∧ deliveries.count? = some e.deliveries ∧ content.text? = some e.content

namespace Value
variable {items : List Value} {entries : List Entry} {e : Entry} {id deliveries content : Value}

theorem entry?_eq_some (h : entry? id deliveries content = some e) :
    id.text? = some e.id ∧ deliveries.count? = some e.deliveries ∧
      content.text? = some e.content := by
  unfold entry? at h
  obtain ⟨i, hid, h⟩ := Option.bind_eq_some_iff.mp h
  obtain ⟨d, hdeliveries, h⟩ := Option.bind_eq_some_iff.mp h
  obtain ⟨c, hcontent, h⟩ := Option.bind_eq_some_iff.mp h
  cases h
  exact ⟨hid, hdeliveries, hcontent⟩

theorem mem_triples? (h : triples? items = some entries) (he : e ∈ entries) :
    ∃ id deliveries content, .array [id, deliveries, content] ∈ items ∧
      entry? id deliveries content = some e := by
  induction items using triples?.induct generalizing entries with
  | case1 =>
    cases h
    cases he
  | case2 id deliveries content rest ih =>
    unfold triples? at h
    obtain ⟨entry, hentry, h⟩ := Option.bind_eq_some_iff.mp h
    obtain ⟨entries', hrest, h⟩ := Option.bind_eq_some_iff.mp h
    cases h
    rcases List.mem_cons.mp he with rfl | he
    · exact ⟨id, deliveries, content, List.mem_cons_self, hentry⟩
    · obtain ⟨id', deliveries', content', hmem, hentry'⟩ := ih hrest he
      exact ⟨id', deliveries', content', List.mem_cons_of_mem _ hmem, hentry'⟩
  | case3 item rest hnot ih =>
    rw [triples?.eq_3 _ _ hnot] at h
    obtain ⟨id, deliveries, content, hmem, hentry⟩ := ih h he
    exact ⟨id, deliveries, content, List.mem_cons_of_mem _ hmem, hentry⟩

theorem mem_flatTriples? (h : flatTriples? items = some entries) (he : e ∈ entries) :
    ∃ id deliveries content, [id, deliveries, content] <:+: items ∧
      entry? id deliveries content = some e := by
  induction items using flatTriples?.induct generalizing entries with
  | case1 id deliveries content rest ih =>
    unfold flatTriples? at h
    obtain ⟨entry, hentry, h⟩ := Option.bind_eq_some_iff.mp h
    obtain ⟨entries', hrest, h⟩ := Option.bind_eq_some_iff.mp h
    cases h
    rcases List.mem_cons.mp he with rfl | he
    · exact ⟨id, deliveries, content, ⟨[], rest, rfl⟩, hentry⟩
    · obtain ⟨id', deliveries', content', hinfix, hentry'⟩ := ih hrest he
      refine ⟨id', deliveries', content', hinfix.trans ?_, hentry'⟩
      exact ⟨[id, deliveries, content], [], by simp⟩
  | case2 items hnot =>
    rw [flatTriples?.eq_2 _ hnot] at h
    cases h
    cases he

/-- The reclaim script reports the entries that are claimed. -/
theorem reports_of_reclaimed? {v : Value} (h : v.reclaimed? = some entries) (he : e ∈ entries) :
    v.Reports e := by
  unfold reclaimed? at h
  split at h
  · cases h
    cases he
  · rename_i items
    split at h
    · cases h
    · obtain ⟨id, deliveries, content, hinfix, hentry⟩ := mem_flatTriples? h he
      exact ⟨items, id, deliveries, content, rfl, Or.inr hinfix, entry?_eq_some hentry⟩
    · rename_i htriples
      cases h
      obtain ⟨id, deliveries, content, hmem, hentry⟩ := mem_triples? htriples he
      exact ⟨items, id, deliveries, content, rfl, Or.inl hmem, entry?_eq_some hentry⟩
  · cases h

end Value

/-- A claimed entry is reported by the answer. -/
theorem Exchange.reports_of_claimed? {x : Exchange} {entries : List Entry} {e : Entry}
    (h : x.claimed? = some entries) (he : e ∈ entries) : ∃ v, x.answer = .ok v ∧ v.Reports e := by
  unfold Exchange.claimed? at h
  split at h
  case h_2 => cases h
  rename_i hanswer
  cases h
  unfold expect at hanswer
  split at hanswer
  · cases hanswer
  · rename_i v hvalue
    split at hanswer <;> cases hanswer
    rename_i hread
    exact ⟨v, hvalue, Value.reports_of_reclaimed? hread he⟩

/-- The record of a wait says where the token of an entry comes from: a reclaim has claimed the entry
and reported it, or it was read as new, and this is its first delivery. -/
def TokenFrom (past : List Exchange) (e : Entry) : Prop :=
  (∃ x ∈ past, ∃ entries v, x.claimed? = some entries ∧ e ∈ entries ∧ x.answer = .ok v ∧
      v.Reports e) ∨
    ∃ x ∈ past, ⟨e.id, some e.content⟩ ∈ x.handed ∧ e.deliveries = 1

/-! ### Tellings -/

/-- A command has been told. -/
structure Telling where
  /-- When it was told. -/
  begun : Nat
  /-- The time until it was answered. -/
  takes : Nat
  /-- The answer. -/
  answer : Answer

/-- When a command has been answered. -/
def Telling.endedAt (x : Telling) : Nat := x.begun + x.takes

/-- A telling that is throttled, if it is read like that. -/
def Telling.Throttled {α : Type} (read : Value → Option α) (x : Telling) : Prop :=
  ∃ f, expect read x.answer = .error f ∧ f.isThrottling = true

namespace Session
variable {command : Command} {s s₁ s' : Session} {tellings later : List Telling}

/-- A session from the first of some tellings of a command to the last one. -/
inductive Tells (command : Command) : Session → List Telling → Session → Prop
  /-- The command is not told. -/
  | none (s : Session) : Tells command s [] s
  /-- It is told, and perhaps told again later. -/
  | more {s s₁ s' : Session} {x : Telling} {later : List Telling}
      (told : s.perform x.begun command = (s₁, x.takes, x.answer)) (rest : Tells command s₁ later s') :
      Tells command s (x :: later) s'

theorem Tells.append (h : Tells command s tellings s₁) (rest : Tells command s₁ later s') :
    Tells command s (tellings ++ later) s' := by
  induction h with
  | none => exact rest
  | more told _ ih => exact .more told (ih rest)

theorem perform_nil (now : Nat) (command : Command) (h : s.replies = []) :
    s.perform now command = (⟨[], (now, command) :: s.commands⟩, 0, .ok (usualAnswer command)) := by
  simp [perform, tell, h]

theorem perform_cons (now : Nat) (command : Command) {reply : Reply} {rest : List Reply}
    (h : s.replies = reply :: rest) : ∃ takes a,
      s.perform now command = (⟨rest, (now, command) :: s.commands⟩, takes, a) := by
  cases reply with
  | answer takes a => exact ⟨takes, a, by simp [perform, tell, h]⟩
  | usual => exact ⟨0, .ok (usualAnswer command), by simp [perform, tell, h]⟩
  | cancels => exact ⟨0, .ok (usualAnswer command), by simp [perform, tell, h]⟩

theorem commands_perform (now : Nat) (s : Session) (command : Command) :
    (s.perform now command).1.commands = (now, command) :: s.commands := by
  cases hreplies : s.replies with
  | nil => rw [perform_nil now command hreplies]
  | cons reply rest =>
    obtain ⟨takes, a, hperform⟩ := perform_cons now command hreplies
    rw [hperform]

/-- All that a session is told is that command. -/
theorem Tells.commands (h : Tells command s tellings s') :
    s'.commands = (tellings.map fun x => (x.begun, command)).reverse ++ s.commands := by
  induction h with
  | none => rfl
  | @more s s₁ s' x later told _ ih =>
    have hfirst := commands_perform x.begun s command
    rw [told] at hfirst
    rw [ih, hfirst, List.map_cons, List.reverse_cons, List.append_assoc]
    rfl

/-- When a command is told more often than replies were given in advance, it gets the usual answer at
last. -/
theorem Tells.exists_usual (h : Tells command s tellings s')
    (hlong : s.replies.length < tellings.length) :
    ∃ x ∈ tellings, x.answer = .ok (usualAnswer command) := by
  induction h with
  | none => cases hlong
  | @more s s₁ s' x later told _ ih =>
    cases hreplies : s.replies with
    | nil =>
      rw [perform_nil _ _ hreplies] at told
      exact ⟨x, List.mem_cons_self, (congrArg (fun made => made.2.2) told).symm⟩
    | cons reply rest =>
      obtain ⟨takes, a, hperform⟩ := perform_cons x.begun command hreplies
      have hrest : s₁.replies = rest := by
        rw [← (Prod.mk.inj (hperform.symm.trans told)).1]
      rw [hreplies, List.length_cons, List.length_cons] at hlong
      obtain ⟨y, hy, hanswer⟩ := ih (by rw [hrest]; omega)
      exact ⟨y, List.mem_cons_of_mem x hy, hanswer⟩

end Session

/-- Why a client tells a command again, and when: at once, because the broker did not know the script,
or a backoff later, because it was throttling and the client is patient. -/
def Client.TellsAgain {α : Type} (c : Client) (read : Value → Option α) (x y : Telling) : Prop :=
  (isUnknownScript x.answer = true ∧ y.begun = x.endedAt) ∨
    (c.patience.retries = true ∧ x.Throttled read ∧ y.begun = x.endedAt + c.patience.backoff)

/-- One attempt tells its command once, or twice if the broker does not know the script at first. The
last answer decides. -/
theorem Session.attempt_tells {α : Type} (c : Client) (read : Value → Option α) (command : Command)
    (now : Nat) (s : Session) : ∃ front last,
      s.Tells command (front ++ [last]) (s.attempt read command now).1 ∧
      (∀ x ∈ (front ++ [last]).head?, x.begun = now) ∧
      (front ++ [last]).IsChain (c.TellsAgain read) ∧
      (∀ x ∈ front, isUnknownScript x.answer = true) ∧
      (s.attempt read command now).2.outcome = expect read last.answer ∧
      now + (s.attempt read command now).2.takes = last.endedAt := by
  rcases hfirst : s.perform now command with ⟨s₁, takes, a⟩
  unfold attempt
  simp only [hfirst]
  split
  · rename_i hunknown
    obtain ⟨-, hunknown⟩ := Bool.and_eq_true_iff.mp hunknown
    rcases hsecond : s₁.perform (now + takes) command with ⟨s₂, more, a'⟩
    refine ⟨[⟨now, takes, a⟩], ⟨now + takes, more, a'⟩, .more hfirst (.more hsecond (.none s₂)), ?_,
      ?_, ?_, rfl, (Nat.add_assoc now takes more).symm⟩
    · rintro x ⟨⟩
      rfl
    · exact List.isChain_cons_cons.mpr ⟨Or.inl ⟨hunknown, rfl⟩, by simp⟩
    · simpa using hunknown
  · refine ⟨[], ⟨now, takes, a⟩, .more hfirst (.none s₁), ?_, by simp, List.forall_mem_nil _, rfl,
      rfl⟩
    rintro x ⟨⟩
    rfl

/-! ### Calls -/

/-- What a call does with so much fuel that tries a command until it is not throttled any more:

- `told`: it tells the command and nothing else;
- `begins`: the first time at once;
- `again`: and again only for a reason, when it is time;
- `decided`: a call that is over has the last answer, which was not to be waited out;
- `undecided`: a call that goes on has been told so at every attempt. -/
structure Client.Tried {α : Type} (c : Client) (read : Value → Option α) (command : Command)
    (fuel now : Nat) (s : Session) (tellings : List Telling)
    (made : Session × Option (Queue.Retry.Ending α)) : Prop where
  told : s.Tells command tellings made.1
  begins : ∀ x ∈ tellings.head?, x.begun = now
  again : tellings.IsChain (c.TellsAgain read)
  decided : ∀ ending, made.2 = some ending → ∃ front last, tellings = front ++ [last] ∧
    ending.result = expect read last.answer ∧ ending.endedAt = last.endedAt ∧
    ¬ (c.patience.retries = true ∧ last.Throttled read)
  undecided : made.2 = none → fuel ≤ tellings.length ∧ ∀ x ∈ tellings,
    isUnknownScript x.answer = true ∨ (c.patience.retries = true ∧ x.Throttled read)

section
variable {α : Type} {c : Client} {read : Value → Option α} {x : Telling}

/-- An attempt is made again exactly if it was throttled and the client is patient. -/
theorem triesAgain_expect_iff :
    c.patience.triesAgain (expect read x.answer) = true ↔
      c.patience.retries = true ∧ x.Throttled read :=
  Queue.Retry.triesAgain_iff.trans and_comm

/-- Without a cancellation a throttled attempt is followed by another one, a backoff later. -/
theorem runFrom_uncanceled {σ : Type} (p : Queue.Patience)
    (attempt : (k now : Nat) → σ → σ × Queue.Attempt α) (notices : Nat → Notice)
    (fuel k now : Nat) (s : σ) (begun : List Nat) :
    Queue.Retry.runFrom p none attempt notices (fuel + 1) k now s begun
      = if p.triesAgain (attempt k now s).2.outcome then
          Queue.Retry.runFrom p none attempt notices fuel (k + 1)
            (now + (attempt k now s).2.takes + p.backoff) (attempt k now s).1 (begun ++ [now])
        else ((attempt k now s).1, some ⟨(attempt k now s).2.outcome, begun ++ [now],
          now + (attempt k now s).2.takes⟩) := rfl

/-- A call goes on from attempt to attempt as long as it is throttled. -/
theorem Client.runFrom_tried (c : Client) (read : Value → Option α) (command : Command)
    (notices : Nat → Notice) (fuel k now : Nat) (s : Session) (begun : List Nat) :
    ∃ tellings, c.Tried read command fuel now s tellings
      (Queue.Retry.runFrom c.patience none (fun _ now s => s.attempt read command now) notices
        fuel k now s begun) := by
  induction fuel generalizing k now s begun with
  | zero =>
    refine ⟨[], .none s, nofun, .nil, nofun, fun _ => ⟨Nat.le_refl 0, List.forall_mem_nil _⟩⟩
  | succ fuel ih =>
    obtain ⟨front, last, told, begins, again, unknown, outcome, answered⟩ :=
      Session.attempt_tells c read command now s
    rw [runFrom_uncanceled]
    split
    · rename_i hagain
      rw [outcome, triesAgain_expect_iff] at hagain
      obtain ⟨tellings, tried⟩ := ih (k + 1) (now + (s.attempt read command now).2.takes
        + c.patience.backoff) (s.attempt read command now).1 (begun ++ [now])
      refine ⟨front ++ [last] ++ tellings, told.append tried.told, ?_, ?_, fun ending hending => ?_,
        fun hnone => ?_⟩
      · rw [List.head?_append_of_ne_nil _ (by simp)]
        exact begins
      · -- The next attempt begins when the backoff after the last answer is over.
        refine List.isChain_append.mpr ⟨again, tried.again, fun x hx y hy => ?_⟩
        rw [List.getLast?_concat] at hx
        cases hx
        have hbegun := tried.begins y hy
        rw [answered] at hbegun
        exact Or.inr ⟨hagain.1, hagain.2, hbegun⟩
      · obtain ⟨front', last', rfl, hdecided⟩ := tried.decided ending hending
        exact ⟨front ++ [last] ++ front', last', (List.append_assoc _ _ _).symm, hdecided⟩
      · obtain ⟨hlength, hrest⟩ := tried.undecided hnone
        refine ⟨?_, fun x hx => ?_⟩
        · rw [List.length_append, List.length_append, List.length_singleton]
          omega
        · rw [List.mem_append, List.mem_append, List.mem_singleton] at hx
          rcases hx with (hx | rfl) | hx
          · exact Or.inl (unknown x hx)
          · exact Or.inr hagain
          · exact hrest x hx
    · rename_i hlast
      rw [outcome, triesAgain_expect_iff] at hlast
      refine ⟨front ++ [last], told, begins, again, ?_, nofun⟩
      rintro ending ⟨⟩
      exact ⟨front, last, rfl, outcome, answered, hlast⟩

/-- A value is no throttling. -/
theorem not_throttled_of_ok {v : Value} (h : x.answer = .ok v) : ¬ x.Throttled read := by
  rintro ⟨f, hanswer, hthrottled⟩
  rw [h] at hanswer
  unfold expect at hanswer
  dsimp only at hanswer
  split at hanswer <;> cases hanswer
  cases hthrottled

/-- A broker that does not know a script is not throttling. -/
theorem not_throttled_of_unknown (h : isUnknownScript x.answer = true) : ¬ x.Throttled read := by
  rintro ⟨f, hanswer, hthrottled⟩
  unfold isUnknownScript at h
  split at h
  · rename_i text htext
    rw [htext] at hanswer
    cases hanswer
    have hcode : codeOf text = "NOSCRIPT" := by simpa using h
    have hfault : faultOf "NOSCRIPT" = .other "NOSCRIPT" := by decide
    rw [errorFailure, hcode, hfault] at hthrottled
    cases hthrottled
  · cases h

/-- A call that may make more attempts than replies were given in advance comes to an end. -/
theorem Client.Tried.ends {command : Command} {fuel now : Nat} {s : Session}
    {tellings : List Telling} {made : Session × Option (Queue.Retry.Ending α)}
    (tried : c.Tried read command fuel now s tellings made) (h : s.replies.length < fuel) :
    made.2 ≠ none := by
  intro hnone
  obtain ⟨hlength, hall⟩ := tried.undecided hnone
  obtain ⟨x, hx, hanswer⟩ := tried.told.exists_usual (Nat.lt_of_lt_of_le h hlength)
  rcases hall x hx with hunknown | ⟨-, hthrottled⟩
  · rw [hanswer] at hunknown
    cases hunknown
  · exact not_throttled_of_ok hanswer hthrottled

end

/-! ### Scripts on a delivery -/

/-- What an answer to a script decides about a call: one says that it succeeded, any other number that
the lease is lost, and everything else is the failure of the call as it is. -/
structure Decides (e : Entry) (a : Answer) (result : Except Failure Unit) : Prop where
  ok : result = .ok () ↔ expect Value.integer? a = .ok 1
  lost : result = .error (.leaseLost e.id) ↔ ∃ n, n ≠ 1 ∧ expect Value.integer? a = .ok n
  failed : ∀ f, expect Value.integer? a = .error f → result = .error f

/-- What a call that runs a script on a delivery does with so much fuel:

- `commands`: it runs the script and nothing else, each time with the same token and the same lease, for
  the same consumer of the same group;
- `told`, `begins`: what the broker answers is told by the session, and the first run begins at once;
- `again`: the script is run again only when the broker did not know it, at once, or when it was
  throttling and the client is patient, after exactly the backoff;
- `decided`: a call that is over has the result of the last answer, when that has come;
- `patient`: no throttling surfaces through a patient client;
- `impatient`: the first throttling surfaces through any other;
- `ends`: a call that may make more attempts than replies were given in advance comes to an end. -/
structure Client.Settles (c : Client) (script : LeaseScript) (e : Entry) (fuel now : Nat)
    (s : Session) (tellings : List Telling)
    (made : Session × Option (Except Failure Unit × Nat)) : Prop where
  commands : made.1.commands = (tellings.map fun x => (x.begun, Command.lease script c.stream
    c.group c.consumer e.id e.deliveries c.leaseMillis)).reverse ++ s.commands
  told : s.Tells (c.leaseCommand script e) tellings made.1
  begins : ∀ x ∈ tellings.head?, x.begun = now
  again : tellings.IsChain (c.TellsAgain Value.integer?)
  decided : ∀ result endedAt, made.2 = some (result, endedAt) → ∃ front last,
    tellings = front ++ [last] ∧ endedAt = last.endedAt ∧ Decides e last.answer result
  patient : c.patience.retries = true → ∀ f endedAt, made.2 = some (.error f, endedAt) →
    f.isThrottling = false
  impatient : c.patience.retries = false → ∀ x ∈ tellings, ∀ f,
    expect Value.integer? x.answer = .error f → f.isThrottling = true →
      made.2 = some (.error f, x.endedAt)
  ends : s.replies.length < fuel → made.2 ≠ none

/-- An answer decides as it is read. -/
theorem decides_heldOrLost (e : Entry) (a : Answer) :
    Decides e a (Client.heldOrLost e (expect Value.integer? a)) := by
  cases hanswer : expect Value.integer? a with
  | ok n =>
    refine ⟨?_, ?_, fun f hf => ?_⟩
    · by_cases hone : n = 1 <;> simp [Client.heldOrLost, hanswer, hone]
    · by_cases hone : n = 1 <;> simp [Client.heldOrLost, hanswer, hone]
    · rw [hanswer] at hf
      cases hf
  | error f =>
    -- A broker does not say that a lease is lost: no error of its own reads like that.
    obtain ⟨fault, text, rfl⟩ := expect_eq_error hanswer
    refine ⟨?_, ?_, fun f hf => ?_⟩
    · simp [Client.heldOrLost, hanswer]
    · simp [Client.heldOrLost, hanswer]
    · rw [hanswer] at hf
      cases hf
      rfl

section
variable {c : Client} {script : LeaseScript} {e : Entry} {fuel now : Nat} {s : Session}
  {tellings : List Telling} {made : Session × Option (Queue.Retry.Ending Int)}

/-- An impatient client runs a script only once, unless the broker does not know it. -/
theorem Client.Tried.last_of_throttled {command : Command} {front : List Telling}
    {last x : Telling} (tried : c.Tried Value.integer? command fuel now s (front ++ [last]) made)
    (impatient : c.patience.retries = false) (hx : x ∈ front ++ [last])
    (throttled : x.Throttled Value.integer?) : x = last := by
  rcases List.mem_append.mp hx with hx | hx
  · -- Something follows a run before the last one, so there would be a reason for it.
    obtain ⟨before, after, rfl⟩ := List.append_of_mem hx
    have again := tried.again
    rw [List.append_assoc, List.cons_append] at again
    obtain ⟨y, hy⟩ : ∃ y, y ∈ (after ++ [last]).head? := by
      cases after <;> exact ⟨_, rfl⟩
    rcases (List.isChain_cons.mp (List.isChain_append.mp again).2.1).1 y hy with
      ⟨unknown, -⟩ | ⟨patient, -⟩
    · exact absurd throttled (not_throttled_of_unknown unknown)
    · rw [impatient] at patient
      cases patient
  · exact List.mem_singleton.mp hx

/-- The first throttling ends the call of an impatient client, which fails with it. -/
theorem Client.Tried.surfaces {command : Command} {x : Telling} {f : Failure}
    (tried : c.Tried Value.integer? command fuel now s tellings made)
    (impatient : c.patience.retries = false) (hx : x ∈ tellings)
    (hanswer : expect Value.integer? x.answer = .error f) (hthrottled : f.isThrottling = true) :
    ∃ ending, made.2 = some ending ∧ ending.result = .error f ∧ ending.endedAt = x.endedAt := by
  have throttled : x.Throttled Value.integer? := ⟨f, hanswer, hthrottled⟩
  cases hmade : made.2 with
  | none =>
    rcases (tried.undecided hmade).2 x hx with hunknown | ⟨patient, -⟩
    · exact absurd throttled (not_throttled_of_unknown hunknown)
    · rw [impatient] at patient
      cases patient
  | some ending =>
    obtain ⟨front, last, rfl, hlast, hended, -⟩ := tried.decided ending hmade
    obtain rfl := tried.last_of_throttled impatient hx throttled
    exact ⟨ending, rfl, hlast.trans hanswer, hended⟩

/-- A throttling that a call on a delivery fails with is the one that was answered. -/
theorem eq_error_of_heldOrLost {result : Except Failure Int} {f : Failure}
    (h : Client.heldOrLost e result = .error f) (hthrottled : f.isThrottling = true) :
    result = .error f := by
  cases result with
  | ok n =>
    rw [Client.heldOrLost] at h
    split at h <;> cases h
    cases hthrottled
  | error f' =>
    cases h
    rfl

/-- A call that runs a script on a delivery keeps to all this. -/
theorem Client.Tried.settles
    (tried : c.Tried Value.integer? (c.leaseCommand script e) fuel now s tellings made) :
    c.Settles script e fuel now s tellings
      (made.1, made.2.map fun ending => (heldOrLost e ending.result, ending.endedAt)) := by
  refine
    { commands := tried.told.commands
      told := tried.told
      begins := tried.begins
      again := tried.again
      decided := fun result endedAt hmade => ?_
      patient := fun patient f endedAt hmade => ?_
      impatient := fun impatient x hx f hanswer hthrottled => ?_
      ends := fun hlong hnone => ?_ }
  · obtain ⟨ending, hending, hresult⟩ := Option.map_eq_some_iff.mp hmade
    cases hresult
    obtain ⟨front, last, hsplit, hlast, hended, -⟩ := tried.decided ending hending
    refine ⟨front, last, hsplit, hended, ?_⟩
    rw [hlast]
    exact decides_heldOrLost e last.answer
  · obtain ⟨ending, hending, hresult⟩ := Option.map_eq_some_iff.mp hmade
    obtain ⟨front, last, -, hlast, -, hsettled⟩ := tried.decided ending hending
    refine Bool.eq_false_iff.mpr fun hthrottled => ?_
    have hfailed := eq_error_of_heldOrLost (Prod.mk.inj hresult).1 hthrottled
    exact hsettled ⟨patient, f, hlast.symm.trans hfailed, hthrottled⟩
  · obtain ⟨ending, hmade, hfailed, hended⟩ := tried.surfaces impatient hx hanswer hthrottled
    show (made.2.map fun ending => (heldOrLost e ending.result, ending.endedAt))
      = some (.error f, x.endedAt)
    rw [hmade, Option.map_some, hfailed, hended]
    rfl
  · exact tried.ends hlong (Option.map_eq_none_iff.mp hnone)

end

/-- Whatever broker a wait had to do with, every entry of its batch has the token that was reported for
it, or that of a first delivery. And whatever the broker answers later, every script that is run on
the entry carries that token. -/
theorem Receiver.Course.tokens {c : Client} {most : Nat} {past : List Exchange} {r : Receiver}
    {batch : List Entry} (course : (start c most).Course past r)
    (ended : r.phase = .ended (.ok batch)) {e : Entry} (he : e ∈ batch) :
    TokenFrom past e ∧ ∀ script notices fuel now s,
      ∃ tellings, c.Settles script e fuel now s tellings (c.settle script e notices fuel now s) := by
  constructor
  · have stands := (course.reads rfl).stands
    rw [ended] at stands
    rcases stands with ⟨-, hlast⟩ | ⟨-, x, hx, hclaimed⟩
    · exact Or.inr (mem_lastRead (hlast ▸ he))
    · obtain ⟨v, hanswer, hreports⟩ := x.reports_of_claimed? hclaimed he
      exact Or.inl ⟨x, hx, batch, v, hclaimed, he, hanswer, hreports⟩
  · intro script notices fuel now s
    obtain ⟨tellings, tried⟩ := c.runFrom_tried Value.integer? (c.leaseCommand script e) notices
      fuel 0 now s []
    exact ⟨tellings, tried.settles⟩

/-- The reclaim script reports the third delivery of an entry. -/
def thirdDelivery : Answer := .ok (.array [.array [.bulk "5-0", .integer 3, .bulk "job"]])

/-- The broker throttles a script once, and then says that the lease is lost. -/
def throttledThenLost : Session :=
  ⟨[.answer 7 (.error "LOADING scripted"), .answer 2 (.ok (.integer 0))], []⟩

/-- The token of a third delivery is used for a script and for its repetition, a backoff after the first
answer. -/
theorem tokens_thirdDelivery : ∃ past r,
    (Receiver.start patientClient 1).Course past r ∧ r.phase = .ended (.ok [⟨"5-0", 3, "job"⟩]) ∧
      TokenFrom past ⟨"5-0", 3, "job"⟩ ∧
      (∃ tellings, patientClient.Settles .delete ⟨"5-0", 3, "job"⟩ 5 100 throttledThenLost tellings
        (patientClient.settle .delete ⟨"5-0", 3, "job"⟩ (fun _ => .ending) 5 100
          throttledThenLost)) ∧
      (patientClient.settle .delete ⟨"5-0", 3, "job"⟩ (fun _ => .ending) 5 100
        throttledThenLost).1.commands
        = [(1000107, .lease .delete "jobs" "workers" "me" "5-0" 3 30000),
          (100, .lease .delete "jobs" "workers" "me" "5-0" 3 30000)] ∧
      (patientClient.settle .delete ⟨"5-0", 3, "job"⟩ (fun _ => .ending) 5 100
        throttledThenLost).2 = some (.error (.leaseLost "5-0"), 1000109) := by
  have begun := Receiver.Course.here.led (by nofun)
    (rfl : Receiver.step false 0 .empty (.start patientClient 1) .begin = some (_, _))
  have claimed := begun.answered (x := ⟨_, thirdDelivery⟩) rfl
    (rfl : Receiver.step false 0 .empty _ (.answer thirdDelivery) = some (_, _))
  obtain ⟨token, settles⟩ := claimed.tokens rfl List.mem_cons_self
  exact ⟨_, _, claimed, rfl, token, settles .delete (fun _ => .ending) 5 100 throttledThenLost,
    by decide +kernel, by decide⟩

end Leasework.Broker
