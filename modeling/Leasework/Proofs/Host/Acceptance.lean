import Mathlib
import Leasework.Host.Settings

/-!
# `Leasework.Proofs.Host.Acceptance`: which settings the host starts with

Settings are completed and then checked, each queue on its own and the request queue first. Here
both steps are said without the code: `effectiveEndpoint` is the endpoint that a queue ends up with,
`Queue.Settings.Acceptable` is what the check asks of a queue, `Queue.Settings.Ails` is what may be
wrong with it, and `Queue.Problem.place` is the order in which problems are told.

`Queue.Settings.problem?_eq_none_iff` and `problem?_eq_some_iff` say that the check of one queue
finds exactly that. `Host.Settings.ofText_verdict` puts the parts together for a whole file.
-/

set_option autoImplicit false

namespace Leasework

namespace Text

/-- Nothing, or white space alone. -/
def IsBlank (s : String) : Prop := ∀ c ∈ s.toList, isBlank c = true

theorem allBlank_iff {s : String} : allBlank s = true ↔ IsBlank s := List.all_eq_true

end Text

open Text (IsBlank allBlank_iff)

namespace Queue

/-- Where a problem stands in the order in which problems are told. Those of the two kinds of
queues never meet. -/
def Problem.place : Problem → Nat
  | .blankName => 0
  | .blankEndpoint _ => 1
  | .zeroLease _ => 2
  | .leaseTooLong _ | .pollOfBroker _ => 3
  | .groupOfPolling _ | .blankGroup _ => 4
  | .leaseOutOfRange _ => 5

namespace Settings

/-- What is wrong with the settings of a queue, whatever else is wrong with them. -/
inductive Ails (s : Settings) : Problem → Prop
  /-- There is no name. -/
  | name : IsBlank s.name → Ails s .blankName
  /-- There is no endpoint. -/
  | endpoint : IsBlank s.endpoint → Ails s (.blankEndpoint s.name)
  /-- A message is never leased. -/
  | lease : s.leaseSeconds.toNat = 0 → Ails s (.zeroLease s.name)
  /-- A polling service does not hide messages for so long. -/
  | longLease : s.kind = .polling → 43200 < s.leaseSeconds.toNat → Ails s (.leaseTooLong s.name)
  /-- A polling service has no groups of consumers. -/
  | group {group : String} : s.kind = .polling → s.consumerGroup = some group →
    Ails s (.groupOfPolling s.name)
  /-- A broker is not polled. -/
  | poll {millis : UInt64} : s.kind = .broker → s.pollMillis = some millis →
    Ails s (.pollOfBroker s.name)
  /-- The group of consumers has no name. -/
  | blankGroup {group : String} : s.kind = .broker → s.consumerGroup = some group →
    IsBlank group → Ails s (.blankGroup s.name)

/-- The problem that is told of a queue: it is one, and none of the others stands before it. -/
structure IsTold (s : Settings) (p : Problem) : Prop where
  ails : s.Ails p
  first : ∀ q, s.Ails q → p.place ≤ q.place

/-- What is asked of the settings of a queue:

- `name`, `endpoint`: neither is blank;
- `lease`: there is one;
- `polling`: a polling queue leases for twelve hours at most, and has no group of consumers;
- `broker`: a broker queue has no time between two requests, and no blank group of consumers. -/
structure Acceptable (s : Settings) : Prop where
  name : ¬ IsBlank s.name
  endpoint : ¬ IsBlank s.endpoint
  lease : 0 < s.leaseSeconds.toNat
  polling : s.kind = .polling → s.leaseSeconds.toNat ≤ 43200 ∧ s.consumerGroup = none
  broker : s.kind = .broker →
    s.pollMillis = none ∧ ∀ group, s.consumerGroup = some group → ¬ IsBlank group

section
variable {s : Settings}

/-- Settings are acceptable exactly if nothing is wrong with them. -/
theorem acceptable_iff : s.Acceptable ↔ ∀ p, ¬ s.Ails p := by
  constructor
  · rintro acceptable p (h | h | h | ⟨kind, h⟩ | ⟨kind, h⟩ | ⟨kind, h⟩ | ⟨kind, h, hblank⟩)
    · exact acceptable.name h
    · exact acceptable.endpoint h
    · exact absurd h (Nat.ne_of_gt acceptable.lease)
    · exact absurd (acceptable.polling kind).1 (Nat.not_le_of_lt h)
    · simp [(acceptable.polling kind).2] at h
    · simp [(acceptable.broker kind).1] at h
    · exact (acceptable.broker kind).2 _ h hblank
  · intro sound
    exact
      { name := fun h => sound _ (.name h)
        endpoint := fun h => sound _ (.endpoint h)
        lease := Nat.pos_of_ne_zero fun h => sound _ (.lease h)
        polling := fun kind =>
          ⟨Nat.le_of_not_lt fun h => sound _ (.longLease kind h),
            Option.eq_none_iff_forall_ne_some.mpr fun _ h => sound _ (.group kind h)⟩
        broker := fun kind =>
          ⟨Option.eq_none_iff_forall_ne_some.mpr fun _ h => sound _ (.poll kind h),
            fun _ h hblank => sound _ (.blankGroup kind h hblank)⟩ }

/-- Two problems in one place are the same problem: the kind of the queue tells them apart. -/
theorem Ails.eq_of_place {p q : Problem} (hp : s.Ails p) (hq : s.Ails q)
    (h : p.place = q.place) : p = q := by
  cases hp <;> cases hq <;> simp_all [Problem.place]

/-- One problem is told at most. -/
theorem IsTold.unique {p q : Problem} (hp : s.IsTold p) (hq : s.IsTold q) : p = q :=
  hp.ails.eq_of_place hq.ails (Nat.le_antisymm (hp.first q hq.ails) (hq.first p hp.ails))

/-- What it is that may be wrong in a place. -/
def WrongAt (s : Settings) : Nat → Prop
  | 0 => IsBlank s.name
  | 1 => IsBlank s.endpoint
  | 2 => s.leaseSeconds.toNat = 0
  | 3 =>
    match s.kind with
    | .polling => 43200 < s.leaseSeconds.toNat
    | .broker => s.pollMillis ≠ none
  | 4 =>
    match s.kind with
    | .polling => s.consumerGroup ≠ none
    | .broker => ∃ group, s.consumerGroup = some group ∧ IsBlank group
  | _ => False

/-- A problem tells that its place is wrong. -/
theorem Ails.wrongAt {p : Problem} (ails : s.Ails p) : s.WrongAt p.place := by
  cases ails <;> simp_all [WrongAt, Problem.place]

/-- Whatever is wrong with the settings stands in this place or behind it. -/
def SoundBefore (s : Settings) (place : Nat) : Prop := ∀ p, s.Ails p → place ≤ p.place

/-- What is wrong in the first place at which something may be wrong is told. -/
theorem SoundBefore.isTold {p : Problem} (sound : s.SoundBefore p.place) (ails : s.Ails p) :
    s.IsTold p :=
  ⟨ails, sound⟩

/-- If nothing is wrong in a place either, the next one is looked at. -/
theorem SoundBefore.succ {place : Nat} (sound : s.SoundBefore place) (h : ¬ s.WrongAt place) :
    s.SoundBefore (place + 1) :=
  fun p ails => Nat.lt_of_le_of_ne (sound p ails) fun hplace => h (hplace ▸ ails.wrongAt)

/-- Five places are all there are. -/
theorem SoundBefore.acceptable (sound : s.SoundBefore 5) : s.Acceptable := by
  refine acceptable_iff.mpr fun p ails => ?_
  have behind := sound p ails
  cases ails <;> simp [Problem.place] at behind

/-- What the check of the kind finds when nothing else is wrong. -/
theorem kindProblem?_spec (sound : s.SoundBefore 3) :
    match s.kindProblem? with
    | some p => s.IsTold p
    | none => s.Acceptable := by
  unfold kindProblem?
  cases kind : s.kind with
  | polling =>
    by_cases hlong : longestPollingLease < s.leaseSeconds.toNat
    · simp only [if_pos hlong]
      exact sound.isTold (.longLease kind hlong)
    have sound₄ : s.SoundBefore 4 :=
      sound.succ (by simpa [WrongAt, kind, longestPollingLease] using hlong)
    cases hgroup : s.consumerGroup with
    | some group =>
      simp only [if_neg hlong, Option.isSome_some, if_true]
      exact sound₄.isTold (.group kind hgroup)
    | none =>
      simp only [if_neg hlong, Option.isSome_none, Bool.false_eq_true, if_false]
      exact (sound₄.succ (by simp [WrongAt, kind, hgroup])).acceptable
  | broker =>
    cases hpoll : s.pollMillis with
    | some millis => exact sound.isTold (.poll kind hpoll)
    | none =>
      have sound₄ : s.SoundBefore 4 := sound.succ (by simp [WrongAt, kind, hpoll])
      cases hgroup : s.consumerGroup with
      | none => exact (sound₄.succ (by simp [WrongAt, kind, hgroup])).acceptable
      | some group =>
        by_cases hblank : IsBlank group
        · simp only [Option.isSome_none, Bool.false_eq_true, if_false, allBlank_iff.mpr hblank,
            if_true]
          exact sound₄.isTold (.blankGroup kind hgroup hblank)
        · simp only [Option.isSome_none, Bool.false_eq_true, if_false,
            mt allBlank_iff.mp hblank]
          exact (sound₄.succ (by simp [WrongAt, kind, hgroup, hblank])).acceptable

/-- What the check finds: the problem that is to be told, or nothing. -/
theorem problem?_spec (s : Settings) :
    match s.problem? with
    | some p => s.IsTold p
    | none => s.Acceptable := by
  have sound₀ : s.SoundBefore 0 := fun _ _ => Nat.zero_le _
  unfold problem?
  by_cases hname : IsBlank s.name
  · rw [if_pos (allBlank_iff.mpr hname)]
    exact sound₀.isTold (.name hname)
  have sound₁ := sound₀.succ hname
  rw [if_neg (mt allBlank_iff.mp hname)]
  by_cases hendpoint : IsBlank s.endpoint
  · rw [if_pos (allBlank_iff.mpr hendpoint)]
    exact sound₁.isTold (.endpoint hendpoint)
  have sound₂ := sound₁.succ hendpoint
  rw [if_neg (mt allBlank_iff.mp hendpoint)]
  by_cases hlease : s.leaseSeconds = 0
  · rw [if_pos hlease]
    exact sound₂.isTold (.lease (by rw [hlease]; rfl))
  rw [if_neg hlease]
  exact kindProblem?_spec (sound₂.succ fun hzero => hlease (UInt64.toNat_inj.mp hzero))

/-- The check passes exactly the settings that are acceptable. -/
theorem problem?_eq_none_iff : s.problem? = none ↔ s.Acceptable := by
  have found := problem?_spec s
  cases hproblem : s.problem? with
  | none => simpa [hproblem] using found
  | some p =>
    simp only [hproblem] at found
    simpa using fun acceptable => acceptable_iff.mp acceptable p found.ails

/-- The check tells the problem that is to be told. -/
theorem problem?_eq_some_iff {p : Problem} : s.problem? = some p ↔ s.IsTold p := by
  have found := problem?_spec s
  cases hproblem : s.problem? with
  | none =>
    simp only [hproblem] at found
    simpa using fun told : s.IsTold p => acceptable_iff.mp found p told.ails
  | some q =>
    simp only [hproblem] at found
    constructor
    · rintro ⟨⟩
      exact found
    · intro told
      rw [found.unique told]

end

end Settings

end Queue

namespace Host

/-- The endpoint that a queue ends up with. One that is not blank stays as it is. In the place of
a blank one comes what the variable for the kind of the queue says, whatever that is. Without the
variable it is a local backend in development, and nothing anywhere else. A variable that is no
text counts as one that is not set. -/
def effectiveEndpoint (d : Deployment) (vars : Variables) (q : Queue.Settings) : String :=
  if Text.allBlank q.endpoint then
    match q.kind with
    | .polling =>
      (vars.text? "SQS_ENDPOINT").getD
        (if d = .development then "http://localhost:4566" else q.endpoint)
    | .broker =>
      (vars.text? "REDIS_URL").getD
        (if d = .development then "redis://localhost:6379" else q.endpoint)
  else q.endpoint

namespace Settings

/-- The settings with the endpoints that the queues end up with. Nothing else is changed. -/
def completed (d : Deployment) (vars : Variables) (s : Settings) : Settings where
  crew := s.crew
  handler := s.handler
  requests := { s.requests with endpoint := effectiveEndpoint d vars s.requests }
  responses := { s.responses with endpoint := effectiveEndpoint d vars s.responses }

/-- What comes of settings that have been read:

- `loaded`: they are loaded exactly if both queues are acceptable, and then they are changed in
  nothing but their endpoints;
- `refused`: otherwise the problem of the request queue is reported, or that of the response queue
  if the request queue has none. -/
structure Verdict (d : Deployment) (vars : Variables) (s : Settings)
    (outcome : Except LoadFault Settings) : Prop where
  loaded : ∀ r, outcome = .ok r ↔ r = s.completed d vars ∧
    (s.completed d vars).requests.Acceptable ∧ (s.completed d vars).responses.Acceptable
  refused : ∀ fault, outcome = .error fault ↔
    (∃ p, fault = .badQueue .request p ∧ (s.completed d vars).requests.IsTold p) ∨
      (s.completed d vars).requests.Acceptable ∧
        ∃ p, fault = .badQueue .response p ∧ (s.completed d vars).responses.IsTold p

section
variable {rules : ReadingRules} {d : Deployment} {vars : Variables} {doc : Document} {s : Settings}

/-- A queue is completed with the endpoint that it ends up with. -/
theorem fillEndpoint_eq (d : Deployment) (vars : Variables) (q : Queue.Settings) :
    fillEndpoint d vars q = { q with endpoint := effectiveEndpoint d vars q } := by
  have hendpoint : effectiveEndpoint d vars q
      = if Text.allBlank q.endpoint then
          (vars.text? (Deployment.endpointVariable q.kind)).getD
            (if d = .development then Deployment.localEndpoint q.kind else q.endpoint)
        else q.endpoint := by
    unfold effectiveEndpoint
    cases q.kind <;> rfl
  rw [hendpoint]
  unfold fillEndpoint Deployment.endpointFor?
  by_cases hblank : Text.allBlank q.endpoint = true
  · cases vars.text? (Deployment.endpointVariable q.kind) with
    | some endpoint => simp [hblank]
    | none => by_cases hd : d = .development <;> simp [hblank, hd]
  · simp [hblank]

/-- Both queues are completed. -/
theorem complete_eq (d : Deployment) (vars : Variables) (s : Settings) :
    s.complete d vars = s.completed d vars := by
  unfold complete completed
  rw [fillEndpoint_eq, fillEndpoint_eq]

/-- Nothing is wrong with either queue. -/
theorem problem?_eq_none_iff :
    s.problem? = none ↔ s.requests.Acceptable ∧ s.responses.Acceptable := by
  rw [← Queue.Settings.problem?_eq_none_iff, ← Queue.Settings.problem?_eq_none_iff]
  unfold problem?
  cases s.requests.problem? <;> simp

/-- The response queue is asked only if nothing is wrong with the request queue. -/
theorem problem?_eq_some_iff {role : QueueRole} {p : Queue.Problem} :
    s.problem? = some (role, p) ↔
      role = .request ∧ s.requests.IsTold p ∨
        role = .response ∧ s.requests.Acceptable ∧ s.responses.IsTold p := by
  rw [← Queue.Settings.problem?_eq_some_iff, ← Queue.Settings.problem?_eq_some_iff,
    ← Queue.Settings.problem?_eq_none_iff]
  unfold problem?
  cases hrequests : s.requests.problem? with
  | none => cases s.responses.problem? <;> cases role <;> simp
  | some q => cases role <;> simp

/-- Settings that have been read are loaded exactly if no problem is found once they are
completed. -/
theorem ofDocument_eq_ok_iff (decoded : read? rules doc = some s) {r : Settings} :
    ofDocument rules d vars doc = .ok r ↔
      r = s.completed d vars ∧ (s.completed d vars).problem? = none := by
  simp only [ofDocument, decoded, complete_eq]
  cases (s.completed d vars).problem? with
  | none => simpa using eq_comm
  | some found => simp

/-- And otherwise the problem that is found is reported. -/
theorem ofDocument_eq_error_iff (decoded : read? rules doc = some s) {fault : LoadFault} :
    ofDocument rules d vars doc = .error fault ↔
      ∃ role p, fault = .badQueue role p ∧ (s.completed d vars).problem? = some (role, p) := by
  simp only [ofDocument, decoded, complete_eq]
  cases (s.completed d vars).problem? with
  | none => simp
  | some found =>
    obtain ⟨role, p⟩ := found
    simp only [Except.error.injEq, Option.some.injEq, Prod.mk.injEq]
    constructor
    · rintro rfl
      exact ⟨role, p, rfl, rfl, rfl⟩
    · rintro ⟨_, _, rfl, rfl, rfl⟩
      rfl

/-- Settings that are loaded are acceptable. -/
theorem acceptable_of_ofDocument (loaded : ofDocument rules d vars doc = .ok s) :
    s.requests.Acceptable ∧ s.responses.Acceptable := by
  cases decoded : read? rules doc with
  | none => simp [ofDocument, decoded] at loaded
  | some found =>
    obtain ⟨rfl, sound⟩ := (ofDocument_eq_ok_iff decoded).mp loaded
    exact problem?_eq_none_iff.mp sound

/-- The verdict on the settings that a document holds. -/
theorem ofDocument_verdict (decoded : read? rules doc = some s) (d : Deployment)
    (vars : Variables) : Verdict d vars s (ofDocument rules d vars doc) where
  loaded r := by rw [ofDocument_eq_ok_iff decoded, problem?_eq_none_iff]
  refused fault := by
    rw [ofDocument_eq_error_iff decoded]
    constructor
    · rintro ⟨role, p, rfl, found⟩
      obtain ⟨rfl, told⟩ | ⟨rfl, acceptable, told⟩ := problem?_eq_some_iff.mp found
      · exact Or.inl ⟨p, rfl, told⟩
      · exact Or.inr ⟨acceptable, p, rfl, told⟩
    · rintro (⟨p, rfl, told⟩ | ⟨acceptable, p, rfl, told⟩)
      · exact ⟨_, p, rfl, problem?_eq_some_iff.mpr (Or.inl ⟨rfl, told⟩)⟩
      · exact ⟨_, p, rfl, problem?_eq_some_iff.mpr (Or.inr ⟨rfl, acceptable, told⟩)⟩

/-- The verdict on a file, wherever the host runs and whatever variables it is started with. The
settings are those that the document in the file holds. -/
theorem ofText_verdict {text : String} (parsed : Toml.read? text = some doc)
    (decoded : read? .toml doc = some s) (d : Deployment) (vars : Variables) :
    Verdict d vars s (ofText d vars text) := by
  unfold ofText
  rw [parsed]
  exact ofDocument_verdict decoded d vars

end

/-- The lines of a file that leaves out the endpoint of its request queue. That of its response
queue is a no-break space, and a broker queue is not polled either. -/
def unfilledLines : List String :=
  ["handler.name = \"echo\"",
    "[queues.request]", "kind = \"sqs\"", "name = \"in\"", "lease_seconds = 60",
    "[queues.response]", "kind = \"broker\"", "name = \"out\"", "endpoint = \"\\u00A0\"",
    "lease_seconds = 5", "poll_interval_ms = 100"]

/-- The text of that file. -/
def unfilledText : String :=
  String.ofList (unfilledLines.flatMap fun line => line.toList ++ ['\n'])

/-- The document in that file. -/
def unfilledDocument : Document :=
  .table
    [("handler", .table [("name", .text "echo")]),
      ("queues",
        .table
          [("request",
            .table [("kind", .text "sqs"), ("name", .text "in"), ("lease_seconds", .integer 60)]),
            ("response",
              .table
                [("kind", .text "broker"), ("name", .text "out"), ("endpoint", .text "\u00A0"),
                  ("lease_seconds", .integer 5), ("poll_interval_ms", .integer 100)])])]

theorem read?_unfilledText : Toml.read? unfilledText = some unfilledDocument := by
  simp only [Toml.read?, unfilledText, String.toList_ofList]
  cbv

/-- The settings in that document. -/
def unfilled : Settings where
  crew := .default
  handler := .echo
  requests := .plain .polling "in" "" 60
  responses := { Queue.Settings.plain .broker "out" "\u00A0" 5 with pollMillis := some 100 }

/-- In staging, a variable fills in the endpoint of the request queue. None is set for the response
queue, so its endpoint stays blank, and that is reported and not that it is polled. In development
both endpoints are filled in without any variable, and then it is reported that it is polled. -/
theorem ofText_verdict_unfilled :
    Toml.read? unfilledText = some unfilledDocument ∧
      read? .toml unfilledDocument = some unfilled ∧
      unfilled.completed .staging [("SQS_ENDPOINT", Text.encode "http://sqs:9324")]
        = { unfilled with requests := .plain .polling "in" "http://sqs:9324" 60 } ∧
      ofText .staging [("SQS_ENDPOINT", Text.encode "http://sqs:9324")] unfilledText
        = .error (.badQueue .response (.blankEndpoint "out")) ∧
      unfilled.completed .development []
        = { unfilled with
            requests := .plain .polling "in" "http://localhost:4566" 60
            responses := { Queue.Settings.plain .broker "out" "redis://localhost:6379" 5 with
              pollMillis := some 100 } } ∧
      ofText .development [] unfilledText
        = .error (.badQueue .response (.pollOfBroker "out")) := by
  have decoded : read? .toml unfilledDocument = some unfilled := by cbv
  have filled : unfilled.completed .staging [("SQS_ENDPOINT", Text.encode "http://sqs:9324")]
      = { unfilled with requests := .plain .polling "in" "http://sqs:9324" 60 } := by cbv
  have provided : unfilled.completed .development []
      = { unfilled with
          requests := .plain .polling "in" "http://localhost:4566" 60
          responses := { Queue.Settings.plain .broker "out" "redis://localhost:6379" 5 with
            pollMillis := some 100 } } := by cbv
  have staged := ofText_verdict read?_unfilledText decoded .staging
    [("SQS_ENDPOINT", Text.encode "http://sqs:9324")]
  have developed := ofText_verdict read?_unfilledText decoded .development []
  refine ⟨read?_unfilledText, decoded, filled, (staged.refused _).mpr (Or.inr ?_), provided,
    (developed.refused _).mpr (Or.inr ?_)⟩
  · rw [filled]
    exact ⟨Queue.Settings.problem?_eq_none_iff.mp (by decide), _, rfl,
      Queue.Settings.problem?_eq_some_iff.mp (by decide)⟩
  · rw [provided]
    exact ⟨Queue.Settings.problem?_eq_none_iff.mp (by decide), _, rfl,
      Queue.Settings.problem?_eq_some_iff.mp (by decide)⟩

end Settings

end Host

end Leasework
