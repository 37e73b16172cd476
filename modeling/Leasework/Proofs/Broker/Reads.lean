import Leasework.Proofs.Broker.Course

/-!
# `Leasework.Proofs.Broker.Reads`: what becomes of the entries that are read

An entry without a body is acknowledged in the middle of a read, while the entries before it are kept
and those behind it still wait to be looked at. When that acknowledgement is throttled, the whole
attempt is made again from its beginning. The next attempt does not know of the entries that the first
one has read, and the broker does not hand them out again before their lease has run out: they are
`lost` to this wait (`not_returned_throttledAcknowledgement`).

Nothing else loses an entry. `Phase.Stands` says of every phase of a receiver where the entries are that
have been read, and `Receiver.Course.accountsForReads` reads off it what a wait that is over has
returned: the entries of its last read, whole and in order, or entries that were claimed. The
acknowledgements that cost entries were throttled, and the client tries throttled attempts again.
-/

set_option autoImplicit false

namespace Leasework.Broker

open Queue (Failure)

/-! ### What the record says -/

/-- The entries with a body among those of a read, as they are delivered: for the first time. -/
def bodied (entries : List RawEntry) : List Entry :=
  entries.filterMap fun raw => raw.body.map fun body => ⟨raw.id, 1, body⟩

namespace Exchange

/-- Whether new entries were asked for. -/
def isRead (x : Exchange) : Bool :=
  match x.command with
  | .read .. => true
  | _ => false

/-- The entries that a read has handed over. -/
def handed (x : Exchange) : List RawEntry :=
  match x.command, expect Value.read? x.answer with
  | .read .., .ok entries => entries
  | _, _ => []

/-- The entries that the reclaim script has claimed. -/
def claimed? (x : Exchange) : Option (List Entry) :=
  match x.command, expect Value.reclaimed? x.answer with
  | .reclaim .., .ok entries => some entries
  | _, _ => none

/-- Whether an acknowledgement has failed, which cuts an attempt short. -/
def cutsShort (x : Exchange) : Bool :=
  match x.command, expect Value.integer? x.answer with
  | .acknowledge .., .error _ => true
  | _, _ => false

end Exchange

/-- The entries with a body that were read, in the order of the replies. -/
def readIn : List Exchange → List Entry
  | [] => []
  | x :: past => readIn past ++ bodied x.handed

/-- The entries with a body of the last read. -/
def lastRead : List Exchange → List Entry
  | [] => []
  | x :: past => if x.isRead then bodied x.handed else lastRead past

/-- The entries with a body that were read by attempts that a failed acknowledgement has cut short. -/
def lost : List Exchange → List Entry
  | [] => []
  | x :: past => lost past ++ if x.cutsShort then lastRead past else []

/-- The last answer is that of a reclaim that has claimed nothing. -/
def ClaimedNothing (past : List Exchange) : Prop :=
  ∃ x earlier, past = x :: earlier ∧ x.claimed? = some []

section
variable {past : List Exchange} {x : Exchange} {e : Entry}

theorem handed_of_not_isRead (h : x.isRead = false) : x.handed = [] := by
  unfold Exchange.isRead at h
  unfold Exchange.handed
  split at h
  · cases h
  · rename_i hnot
    split
    · rename_i hread _
      exact absurd hread (hnot _ _ _ _)
    · rfl

theorem readIn_cons_of_not_isRead (h : x.isRead = false) : readIn (x :: past) = readIn past := by
  rw [readIn, handed_of_not_isRead h]
  exact List.append_nil _

theorem lastRead_cons_of_not_isRead (h : x.isRead = false) :
    lastRead (x :: past) = lastRead past := by
  rw [lastRead, if_neg (by simp [h])]

theorem lastRead_cons_of_isRead (h : x.isRead = true) :
    lastRead (x :: past) = bodied x.handed := by
  rw [lastRead, if_pos h]

theorem lost_cons_of_not_cutsShort (h : x.cutsShort = false) : lost (x :: past) = lost past := by
  rw [lost, if_neg (by simp [h]), List.append_nil]

theorem lost_cons_of_cutsShort (h : x.cutsShort = true) :
    lost (x :: past) = lost past ++ lastRead past := by
  rw [lost, if_pos h]

/-- A reclaim neither reads nor loses an entry. -/
theorem readIn_cons_reclaim (stream group consumer : String) (lease most : Nat) (a : Answer)
    (h : readIn past = lost past) :
    readIn (⟨.reclaim stream group consumer lease most, a⟩ :: past)
      = lost (⟨.reclaim stream group consumer lease most, a⟩ :: past) := by
  rw [readIn_cons_of_not_isRead rfl, lost_cons_of_not_cutsShort rfl]
  exact h

/-- What a read hands over comes after all that was lost before. -/
theorem readIn_cons_read (stream group consumer : String) (most : Nat) (a : Answer)
    (h : readIn past = lost past) :
    readIn (⟨.read stream group consumer most, a⟩ :: past)
      = lost (⟨.read stream group consumer most, a⟩ :: past)
        ++ lastRead (⟨.read stream group consumer most, a⟩ :: past) := by
  rw [readIn, h, lost_cons_of_not_cutsShort rfl, lastRead_cons_of_isRead rfl]

/-- A delivered entry has the body that it was read with. -/
theorem mem_bodied {entries : List RawEntry} (h : e ∈ bodied entries) :
    ⟨e.id, some e.content⟩ ∈ entries ∧ e.deliveries = 1 := by
  obtain ⟨⟨id, body⟩, hmem, hbody⟩ := List.mem_filterMap.mp h
  obtain ⟨content, rfl, rfl⟩ := Option.map_eq_some_iff.mp hbody
  exact ⟨hmem, rfl⟩

/-- An entry of the last read was handed over by a read. -/
theorem mem_lastRead (h : e ∈ lastRead past) :
    ∃ x ∈ past, ⟨e.id, some e.content⟩ ∈ x.handed ∧ e.deliveries = 1 := by
  induction past with
  | nil => cases h
  | cons x past ih =>
    unfold lastRead at h
    split at h
    · exact ⟨x, List.mem_cons_self, mem_bodied h⟩
    · obtain ⟨y, hy, hhanded⟩ := ih h
      exact ⟨y, List.mem_cons_of_mem x hy, hhanded⟩

/-- Nothing is lost if no acknowledgement fails after an entry with a body has been read. -/
theorem lost_eq_nil (h : ∀ later x earlier, past = later ++ x :: earlier → x.cutsShort = true →
    lastRead earlier = []) : lost past = [] := by
  induction past with
  | nil => rfl
  | cons x past ih =>
    have hbefore : lost past = [] := by
      refine ih fun later y earlier hsplit => h (x :: later) y earlier ?_
      rw [hsplit]
      rfl
    rw [lost, hbefore]
    split
    · rename_i hcut
      exact h [] x past rfl hcut
    · rfl

end

/-! ### Where the entries are -/

/-- Where the entries are that have been read, in a phase of a receiver:

- while an entry is acknowledged, those of the last read are kept or still wait to be looked at;
- a wait that is over has returned the last read, or what was claimed last;
- in all other phases there are none, and a connection is only looked for, and read from, after a
  reclaim that has claimed nothing. -/
def Phase.Stands (past : List Exchange) : Phase → Prop
  | .acknowledging kept _ rest =>
    readIn past = lost past ++ lastRead past ∧ lastRead past = kept ++ bodied rest
  | .connecting | .reading _ => readIn past = lost past ∧ ClaimedNothing past
  | .ended (.ok batch) =>
    (readIn past = lost past ++ batch ∧ lastRead past = batch) ∨
      (readIn past = lost past ∧ ∃ x ∈ past, x.claimed? = some batch)
  | .ended (.error _) => True
  | .ready | .reclaiming _ | .resting _ => readIn past = lost past

/-- Every read follows a reclaim that has claimed nothing. -/
def ReadsFollow (past : List Exchange) : Prop :=
  ∀ later x earlier, past = later ++ x :: earlier → x.isRead = true → ClaimedNothing earlier

/-- The acknowledgements that have failed were throttled, and throttled attempts are made again. -/
def CutsThrottled (c : Client) (past : List Exchange) : Prop :=
  ∀ x ∈ past, x.cutsShort = true → c.patience.retries = true ∧
    ∃ f, expect Value.integer? x.answer = .error f ∧ f.isThrottling = true

theorem ReadsFollow.cons {past : List Exchange} {x : Exchange} (before : ReadsFollow past)
    (follows : x.isRead = true → ClaimedNothing past) : ReadsFollow (x :: past) := by
  intro later y earlier hsplit hread
  cases later with
  | nil =>
    obtain ⟨rfl, rfl⟩ := List.cons.inj hsplit
    exact follows hread
  | cons z later => exact before later y earlier (List.cons.inj hsplit).2 hread

namespace Receiver
variable {now : Nat} {canceled : Bool} {r r' : Receiver} {happening : Happening}
  {past : List Exchange} {x : Exchange}

/-- An attempt that has failed leaves no entries behind. -/
theorem stands_settle_error (h : readIn past = lost past) (f : Failure) :
    (settle now r (.error f)).phase.Stands past := by
  rcases settle_error_cases now r f with ⟨-, hrests⟩ | hended
  · rw [hrests]
    exact h
  · rw [hended]
    trivial

/-- Sifting keeps the entries of the last read that have a body. -/
theorem stands_sift {kept : List Entry} {rest : List RawEntry}
    (hall : readIn past = lost past ++ lastRead past) (hlast : lastRead past = kept ++ bodied rest) :
    (sift now r kept rest).phase.Stands past := by
  induction rest generalizing kept with
  | nil =>
    have hkept : lastRead past = kept := hlast.trans (List.append_nil kept)
    cases kept with
    | nil =>
      show readIn past = lost past
      rw [hall, hkept, List.append_nil]
    | cons e kept => exact Or.inl ⟨hkept ▸ hall, hkept⟩
  | cons raw rest ih =>
    obtain ⟨id, body⟩ := raw
    cases body with
    | some body =>
      have hnext : lastRead past = (kept ++ [⟨id, 1, body⟩]) ++ bodied rest := by
        rw [hlast, List.append_assoc]
        rfl
      exact ih hnext
    | none => exact ⟨hall, hlast⟩

/-- What silently happens to a receiver moves no entry. -/
theorem Turn.stands_led (turn : Turn canceled now r happening r')
    (silent : ∀ a, happening ≠ .answer a) (h : r.phase.Stands past) : r'.phase.Stands past := by
  cases turn with
  | quit => trivial
  | begun phase =>
    rw [phase] at h
    exact h
  | connected connection phase =>
    rw [phase] at h
    exact h
  | unconnected phase =>
    rw [phase] at h
    exact stands_settle_error h.1 _
  | rested phase =>
    rw [phase] at h
    exact h
  | unknown | unclaimed | claimed | read | unread | acknowledged | unacknowledged =>
    exact absurd rfl (silent _)

/-- Whatever the broker answers, the entries are where they should be. -/
theorem Turn.stands_answered (turn : Turn canceled now r (.answer x.answer) r')
    (asks : r.command? = some x.command) (h : r.phase.Stands past) :
    r'.phase.Stands (x :: past) := by
  obtain ⟨command, a⟩ := x
  cases turn with
  | quit silent => exact absurd rfl (silent a)
  | unknown phase =>
    rw [command?, phase] at asks
    rw [phase] at h
    cases asks
    exact readIn_cons_reclaim _ _ _ _ _ a h
  | unclaimed phase answer reads =>
    rw [command?, phase] at asks
    rw [phase] at h
    cases asks
    have hsame := readIn_cons_reclaim r.client.stream r.client.group r.client.consumer
      r.client.leaseMillis r.most a h
    have hnothing : ClaimedNothing (⟨.reclaim r.client.stream r.client.group r.client.consumer
        r.client.leaseMillis r.most, a⟩ :: past) :=
      ⟨_, past, rfl, by simp only [Exchange.claimed?, answer]⟩
    rcases reads with rfl | ⟨connection, rfl⟩ <;> exact ⟨hsame, hnothing⟩
  | @claimed _ _ result phase answer some_entry =>
    rw [command?, phase] at asks
    rw [phase] at h
    cases asks
    have hsame := readIn_cons_reclaim r.client.stream r.client.group r.client.consumer
      r.client.leaseMillis r.most a h
    cases result with
    | error f => exact stands_settle_error hsame f
    | ok entries =>
      cases entries with
      | nil => exact absurd rfl some_entry
      | cons e entries =>
        refine Or.inr ⟨hsame, _, List.mem_cons_self, ?_⟩
        simp only [Exchange.claimed?, answer]
  | @read _ _ entries phase answer =>
    rw [command?, phase] at asks
    rw [phase] at h
    cases asks
    have hhanded : Exchange.handed ⟨.read r.client.stream r.client.group r.client.consumer r.most,
        a⟩ = entries := by
      simp only [Exchange.handed, answer]
    refine stands_sift (readIn_cons_read _ _ _ _ a h.1) ?_
    rw [lastRead_cons_of_isRead rfl, hhanded]
    rfl
  | @unread _ _ f phase answer =>
    rw [command?, phase] at asks
    rw [phase] at h
    cases asks
    have hhanded : Exchange.handed ⟨.read r.client.stream r.client.group r.client.consumer r.most,
        a⟩ = [] := by
      simp only [Exchange.handed, answer]
    refine stands_settle_error ?_ f
    rw [readIn_cons_read _ _ _ _ a h.1, lastRead_cons_of_isRead rfl, hhanded]
    exact List.append_nil _
  | @acknowledged kept id rest _ n phase answer =>
    rw [command?, phase] at asks
    rw [phase] at h
    cases asks
    have hcut : Exchange.cutsShort ⟨.acknowledge r.client.stream r.client.group id, a⟩ = false := by
      simp only [Exchange.cutsShort, answer]
    refine stands_sift ?_ ?_
    · rw [readIn_cons_of_not_isRead rfl, lastRead_cons_of_not_isRead rfl,
        lost_cons_of_not_cutsShort hcut]
      exact h.1
    · rw [lastRead_cons_of_not_isRead rfl]
      exact h.2
  | @unacknowledged kept id rest _ f phase answer =>
    rw [command?, phase] at asks
    rw [phase] at h
    cases asks
    have hcut : Exchange.cutsShort ⟨.acknowledge r.client.stream r.client.group id, a⟩ = true := by
      simp only [Exchange.cutsShort, answer]
    refine stands_settle_error ?_ f
    -- This is where entries get lost: those of the last read have been kept for nothing.
    rw [readIn_cons_of_not_isRead rfl, lost_cons_of_cutsShort hcut]
    exact h.1

/-- A failed acknowledgement was throttled, or its failure ends the wait. -/
theorem Turn.throttled (turn : Turn canceled now r (.answer x.answer) r')
    (asks : r.command? = some x.command) (hcut : x.cutsShort = true)
    (going : ∀ f, r'.phase ≠ .ended (.error f)) : r.client.patience.retries = true ∧
      ∃ f, expect Value.integer? x.answer = .error f ∧ f.isThrottling = true := by
  obtain ⟨command, a⟩ := x
  cases turn with
  | quit silent => exact absurd rfl (silent a)
  | unknown phase | unclaimed phase | claimed phase | read phase | unread phase =>
    rw [command?, phase] at asks
    cases asks
    cases hcut
  | acknowledged phase answer =>
    rw [command?, phase] at asks
    cases asks
    simp [Exchange.cutsShort, answer] at hcut
  | @unacknowledged _ _ _ _ f phase answer =>
    rcases settle_error_cases now r f with ⟨hagain, -⟩ | hended
    · obtain ⟨hretries, hthrottled⟩ := Bool.and_eq_true_iff.mp hagain
      exact ⟨hretries, f, answer, hthrottled⟩
    · rw [hended] at going
      exact absurd rfl (going f)

/-! ### What a wait returns -/

/-- What holds of a receiver in the course of a wait. -/
structure Reads (c : Client) (past : List Exchange) (r : Receiver) : Prop where
  client : r.client = c
  stands : r.phase.Stands past
  follow : ReadsFollow past
  cuts : (∀ f, r.phase ≠ .ended (.error f)) → CutsThrottled c past

/-- New entries are asked for right after a reclaim that has claimed nothing. -/
theorem follows_of_asks (asks : r.command? = some x.command) (h : r.phase.Stands past)
    (hread : x.isRead = true) : ClaimedNothing past := by
  obtain ⟨command, a⟩ := x
  unfold command? at asks
  cases hphase : r.phase with
  | reading connection =>
    rw [hphase] at h
    exact h.2
  | reclaiming | acknowledging =>
    rw [hphase] at asks
    cases asks
    cases hread
  | _ =>
    rw [hphase] at asks
    cases asks

/-- In the course of a wait no entry gets lost, unless an acknowledgement is throttled. -/
theorem Course.reads {r₀ : Receiver} (course : r₀.Course past r) (begins : r₀.phase = .ready) :
    Reads r₀.client past r := by
  induction course with
  | here =>
    refine ⟨rfl, ?_, fun later _ _ hsplit => ?_, fun _ => List.forall_mem_nil _⟩
    · rw [begins]
      rfl
    · cases later <;> cases hsplit
  | answered _ asks made ih =>
    have turn := step_cases made
    refine ⟨turn.client.trans ih.client, turn.stands_answered asks ih.stands,
      ih.follow.cons (follows_of_asks asks ih.stands), fun going => ?_⟩
    refine List.forall_mem_cons.mpr ⟨fun hcut => ?_, ih.cuts fun f => turn.going (.error f)⟩
    rw [← ih.client]
    exact turn.throttled asks hcut going
  | led _ silent made ih =>
    have turn := step_cases made
    exact ⟨turn.client.trans ih.client, turn.stands_led silent ih.stands, ih.follow,
      fun _ => ih.cuts fun f => turn.going (.error f)⟩

end Receiver

/-- What a wait that is over has done with the entries that were read for it:

- `account`: the entries that were read are those that were lost, followed by those of the batch; or
  the batch was claimed, and whatever was read was lost;
- `returned`: as long as no acknowledgement fails after an entry with a body has been read, all entries
  that were read are returned, each of them once and in the order of the replies, if there are any;
- `cuts`: an acknowledgement has failed only by being throttled, and only if the client tries again;
- `bodies`: an entry of the batch was read with the body that it says, or claimed as it is;
- `follow`: every read follows a reclaim that has claimed nothing. -/
structure AccountsForReads (c : Client) (past : List Exchange) (batch : List Entry) : Prop where
  account : readIn past = lost past ++ batch ∨
    (readIn past = lost past ∧ ∃ x ∈ past, x.claimed? = some batch)
  returned : (∀ later x earlier, past = later ++ x :: earlier → x.cutsShort = true →
    lastRead earlier = []) → readIn past = batch ∨ readIn past = []
  cuts : CutsThrottled c past
  bodies : ∀ e ∈ batch, (∃ x ∈ past, ⟨e.id, some e.content⟩ ∈ x.handed ∧ e.deliveries = 1) ∨
    ∃ x ∈ past, ∃ entries, x.claimed? = some entries ∧ e ∈ entries
  follow : ReadsFollow past

/-- Whatever a broker answers, and whatever the patience of its client is, a wait that ends with a batch
can account for the entries that were read for it. -/
theorem Receiver.Course.accountsForReads {c : Client} {most : Nat} {past : List Exchange}
    {r : Receiver} {batch : List Entry} (course : (start c most).Course past r)
    (ended : r.phase = .ended (.ok batch)) : AccountsForReads c past batch := by
  have reads := course.reads rfl
  have stands := reads.stands
  rw [ended] at stands
  refine
    { account := stands.imp And.left id
      returned := fun spared => ?_
      cuts := reads.cuts fun f hfailed => ?_
      bodies := fun e he => ?_
      follow := reads.follow }
  · have hnone := lost_eq_nil spared
    rcases stands with ⟨hread, -⟩ | ⟨hread, -⟩
    · rw [hnone] at hread
      exact Or.inl hread
    · exact Or.inr (hread.trans hnone)
  · rw [ended] at hfailed
    cases hfailed
  · rcases stands with ⟨-, hlast⟩ | ⟨-, x, hx, hclaimed⟩
    · exact Or.inl (mem_lastRead (hlast ▸ he))
    · exact Or.inr ⟨x, hx, batch, hclaimed, he⟩

/-! ### A throttled acknowledgement -/

/-- A client that waits a millisecond before it tries again. -/
def patientClient : Client := ⟨"jobs", "workers", "me", 30, ⟨true, 1000000⟩⟩

/-- A read of an entry with a body, followed by one without a body. -/
def mixedAnswer : Answer :=
  .ok (.array [.array [.bulk "jobs", .array [
    .array [.bulk "1-0", .array [.bulk "body", .bulk "a"]],
    .array [.bulk "2-0", .array [.bulk "note", .bulk "x"]]]]])

/-- A read of another entry. -/
def laterAnswer : Answer :=
  .ok (.array [.array [.bulk "jobs", .array [
    .array [.bulk "3-0", .array [.bulk "body", .bulk "c"]]]]])

/-- The acknowledgement of the entry without a body is throttled. The next attempt reads another entry
and ends the wait. -/
theorem exists_course_throttledAcknowledgement : ∃ past r,
    (Receiver.start patientClient 10).Course past r ∧ r.phase = .ended (.ok [⟨"3-0", 1, "c"⟩]) ∧
      readIn past = [⟨"1-0", 1, "a"⟩, ⟨"3-0", 1, "c"⟩] ∧ lost past = [⟨"1-0", 1, "a"⟩] := by
  have begun := Receiver.Course.here.led (by nofun)
    (rfl : Receiver.step false 0 .empty (.start patientClient 10) .begin = some (_, _))
  have unclaimed := begun.answered (x := ⟨_, .ok (.array [])⟩) rfl
    (rfl : Receiver.step false 0 .empty _ (.answer (.ok (.array []))) = some (_, _))
  have connected := unclaimed.led (by nofun)
    (rfl : Receiver.step false 0 .empty _ (.connected (.ok ())) = some (_, _))
  have read := connected.answered (x := ⟨_, mixedAnswer⟩) rfl
    (rfl : Receiver.step false 0 ⟨[], 1⟩ _ (.answer mixedAnswer) = some (_, _))
  have throttled := read.answered (x := ⟨_, .error "LOADING scripted"⟩) rfl
    (rfl : Receiver.step false 0 ⟨[0], 1⟩ _ (.answer (.error "LOADING scripted")) = some (_, _))
  have rested := throttled.led (by nofun)
    (rfl : Receiver.step false 1000000 ⟨[0], 1⟩ _ .rested = some (_, _))
  have begunAgain := rested.led (by nofun)
    (rfl : Receiver.step false 1000000 ⟨[0], 1⟩ _ .begin = some (_, _))
  have unclaimedAgain := begunAgain.answered (x := ⟨_, .ok (.array [])⟩) rfl
    (rfl : Receiver.step false 1000000 ⟨[0], 1⟩ _ (.answer (.ok (.array []))) = some (_, _))
  have readAgain := unclaimedAgain.answered (x := ⟨_, laterAnswer⟩) rfl
    (rfl : Receiver.step false 1000000 ⟨[], 1⟩ _ (.answer laterAnswer) = some (_, _))
  exact ⟨_, _, readAgain, rfl, rfl, rfl⟩

/-- The entry that was lost is not returned, so it is not true that a wait returns whatever was read
for it. -/
theorem not_returned_throttledAcknowledgement :
    ¬ ∀ (c : Client) (most : Nat) (past : List Exchange) (r : Receiver) (batch : List Entry),
      (Receiver.start c most).Course past r → r.phase = .ended (.ok batch) →
        ∀ e ∈ readIn past, e ∈ batch := by
  intro returned
  obtain ⟨past, r, course, ended, hread, -⟩ := exists_course_throttledAcknowledgement
  have hmem : (⟨"1-0", 1, "a"⟩ : Entry) ∈ readIn past := by
    rw [hread]
    exact List.mem_cons_self
  have hbatch := returned patientClient 10 past r _ course ended _ hmem
  revert hbatch
  decide

/-- The account of that wait. -/
theorem accountsForReads_throttledAcknowledgement : ∃ past r,
    (Receiver.start patientClient 10).Course past r ∧ r.phase = .ended (.ok [⟨"3-0", 1, "c"⟩]) ∧
      AccountsForReads patientClient past [⟨"3-0", 1, "c"⟩] ∧ lost past = [⟨"1-0", 1, "a"⟩] := by
  obtain ⟨past, r, course, ended, -, hlost⟩ := exists_course_throttledAcknowledgement
  exact ⟨past, r, course, ended, course.accountsForReads ended, hlost⟩

end Leasework.Broker
