import Leasework.Proofs.Queue.Counts

/-!
# `Leasework.Proofs.Queue.Line`: the messages of a store in a line

A store gives its messages out in no fixed order in general: a lease that runs out, and a message
that is given back, put a message before those that are already visible. But as long as only one
message is held at a time, the messages stand in a *line*, the one that is held in front of the
visible ones, and nothing ever overtakes. A message that comes back goes to the place where it was,
a new one joins at the end, and a deletion takes away the one in front.

`Store.Step.kept` says which steps leave the line alone, but for what is sent. The three others
are `Store.Step.line_taken`, `Store.Step.line_returned` and `Store.Step.line_deleted`.
-/

set_option autoImplicit false

namespace Leasework.Queue

/-- The message that a delivery is about: its id and its content. -/
def Delivery.ticket (d : Delivery) : String × String := (d.id, d.content)

namespace Store
variable {s s' : Store}

/-- The id and the content of a message. -/
def ticketOf (s : Store) (m : Message) : String × String := (s.idOf m, m.content)

/-- The messages of a store, held ones first. -/
def line (s : Store) : List (String × String) :=
  (s.held.map Held.message ++ s.visible).map s.ticketOf

/-- The message that a store has accepted on the way from one state to another. -/
def gained? (s s' : Store) : Option (String × String) :=
  s'.visible.getLast?.bind fun m =>
    if s' = (s.append m.content).signal then some (s'.ticketOf m) else none

/-- What a store has gained is the message with the next number. -/
theorem gained?_eq_some {id content : String} :
    s.gained? s' = some (id, content) ↔
      s' = (s.append content).signal ∧ s.idOf ⟨s.numbered + 1, content, 0⟩ = id := by
  have hlast : ∀ content, (s.append content).signal.visible.getLast?
      = some ⟨s.numbered + 1, content, 0⟩ := fun _ => List.getLast?_concat
  constructor
  · intro h
    obtain ⟨m, hm, hticket⟩ := Option.bind_eq_some_iff.mp h
    split at hticket
    case isFalse => cases hticket
    rename_i heq
    rw [heq, hlast] at hm
    rw [heq] at hticket
    cases hticket
    exact ⟨heq, congrArg s.idOf (Option.some.inj hm)⟩
  · rintro ⟨rfl, rfl⟩
    rw [gained?, hlast, Option.bind_some, if_pos rfl]
    rfl

/-- A store that has numbered no message has gained none. -/
theorem gained?_eq_none (h : s'.numbered = s.numbered) : s.gained? s' = none := by
  refine Option.eq_none_iff_forall_ne_some.mpr fun ticket hticket => ?_
  have hnumbered := congrArg Store.numbered (gained?_eq_some.mp hticket).1
  exact Nat.succ_ne_self _ (hnumbered.symm.trans h)

/-! ### One lease at a time -/

/-- Whether held or visible, a message keeps its place. -/
theorem line_reclaim (now : Nat) (single : s.held.length ≤ 1) :
    (s.reclaim now).line = s.line := by
  have hticket : (s.reclaim now).ticketOf = s.ticketOf := rfl
  rw [line, line, hticket, visible_reclaim, held_reclaim]
  congr 1
  match hheld : s.held, single with
  | [], _ => rfl
  | [h], _ =>
    by_cases hlive : now < h.expiry
    · simp [hlive, Nat.not_le.mpr hlive]
    · simp [hlive, Nat.not_lt.mp hlive]
  | _ :: _ :: _, hlength => simp at hlength

theorem length_held_reclaim_le (now : Nat) (s : Store) :
    (s.reclaim now).held.length ≤ s.held.length := List.length_filter_le _ _

/-- What is found under a receipt stands in front, and nothing else is held. -/
theorem line_of_find? {receipt : Nat} {h : Held} (single : s.held.length ≤ 1)
    (found : s.find? receipt = some h) :
    s.line = s.ticketOf h.message :: s.visible.map s.ticketOf ∧
      (s.dropHeld receipt).held = [] := by
  obtain ⟨hmem, hreceipt⟩ := mem_of_find? found
  have hheld : s.held = [h] := by
    match hs : s.held, single with
    | [], _ =>
      rw [hs] at hmem
      cases hmem
    | [h'], _ =>
      rw [hs] at hmem
      rw [List.mem_singleton.mp hmem]
    | _ :: _ :: _, hlength => simp at hlength
  constructor
  · rw [line, hheld]
    rfl
  · rw [dropHeld, hheld]
    simp [hreceipt]

end Store

/-! ### Steps and the line -/

/-- A request that leaves everything in line: what it sends joins at the end. -/
def Request.tends : Request → Bool
  | .send _ | .renew _ => true
  | _ => false

/-- Nothing leaves the line of a store or is overtaken, and no lease begins. -/
structure Store.Kept (s s' : Store) : Prop where
  line : s'.line = s.line ++ (s.gained? s').toList
  held : s'.held.length ≤ s.held.length

theorem Store.Kept.refl (s : Store) : s.Kept s where
  line := by rw [gained?_eq_none rfl, Option.toList_none, List.append_nil]
  held := Nat.le_refl _

namespace Store.Step
variable {now : Nat} {s s' : Store} {deed : Deed} {outcome : Option Outcome}

/-- A store gains a message only when a send is carried out. -/
theorem gained?_eq_none (st : Store.Step now s deed s' outcome)
    (unsent : ∀ content reply, deed = .attempt (.send content) →
      outcome ≠ some (.answered (.ok reply))) : s.gained? s' = none := by
  cases st with
  | sent content => exact absurd rfl (unsent content .done rfl)
  | _ => exact Store.gained?_eq_none rfl

theorem gained?_sent {content : String} {reply : Reply}
    (st : Store.Step now s (.attempt (.send content)) s' (some (.answered (.ok reply)))) :
    ∃ id, s.gained? s' = some (id, content) := by
  cases st with
  | sent => exact ⟨_, gained?_eq_some.mpr ⟨rfl, rfl⟩⟩

/-- Only a message that is taken, given back or deleted moves in the line. -/
theorem kept (st : Store.Step now s deed s' outcome) (single : s.held.length ≤ 1)
    (still : ∀ request reply, deed = .attempt request →
      outcome = some (.answered (.ok reply)) → request.tends = true) : s.Kept s' := by
  have hsame : ∀ {s'' : Store}, s''.numbered = s.numbered → s''.line = s.line →
      s''.held.length ≤ s.held.length → s.Kept s'' := by
    intro s'' hnumbered hline hheld
    refine ⟨?_, hheld⟩
    rw [Store.gained?_eq_none hnumbered, Option.toList_none, List.append_nil]
    exact hline
  have hback := line_reclaim now single
  have hle := s.length_held_reclaim_le now
  cases st with
  | faulted | injected => exact hsame rfl rfl (Nat.le_refl _)
  | bare | lost | observed => exact hsame rfl hback hle
  | sent content =>
    refine ⟨?_, Nat.le_refl _⟩
    rw [gained?_eq_some.mpr ⟨rfl, rfl⟩, line, line]
    show List.map s.ticketOf (_ ++ (s.visible ++ [_])) = _
    rw [← List.append_assoc, List.map_append]
    rfl
  | renewed d =>
    refine hsame rfl ?_ ?_
    · show ((((s.reclaim now).setExpiry _ _).held.map Held.message) ++ _).map _ = _
      rw [map_held_setExpiry _ _ _ Held.message fun _ _ => rfl]
      exact hback
    · show ((s.reclaim now).held.map _).length ≤ _
      rw [List.length_map]
      exact hle
  | taken | returned | deleted => cases still _ _ rfl rfl

/-- Whoever takes messages gets one at least. -/
theorem exists_batch {most : Nat} {reply : Reply}
    (st : Store.Step now s (.attempt (.take most)) s' (some (.answered (.ok reply)))) :
    ∃ d rest, reply = .batch (d :: rest) := by
  cases st with
  | taken _ _ some_visible =>
    obtain ⟨m, rest, hbatch⟩ := List.exists_cons_of_ne_nil some_visible
    rw [hbatch, deliveriesOf, List.mapIdx_cons]
    exact ⟨_, _, rfl⟩

/-- As long as nothing is held, a request that is taken is the one in front. -/
theorem line_taken {ds : List Delivery}
    (st : Store.Step now s (.attempt (.take 1)) s' (some (.answered (.ok (.batch ds)))))
    (free : s.held = []) :
    ∃ d, ds = [d] ∧ s'.line = s.line ∧ s.line.head? = some d.ticket ∧ s'.held.length = 1 := by
  cases st with
  | taken _ _ some_visible =>
    have hback : s.reclaim now = s := by
      unfold reclaim
      simp only [free, List.filter_nil, List.foldl_nil]
      rw [← free]
    rw [hback] at some_visible ⊢
    obtain ⟨m, rest, hvisible⟩ :=
      List.exists_cons_of_ne_nil fun h => some_visible (batch_eq_nil.mpr h)
    have hbatch : s.batch 1 = [m] := by
      rw [Store.batch, hvisible]
      rfl
    have hrest : (s.withoutBatch 1).visible = rest := by
      rw [withoutBatch, hvisible]
      rfl
    refine ⟨⟨s.receipts, s.idOf m, m.content⟩, ?_, ?_, ?_, ?_⟩
    · rw [hbatch]
      rfl
    · rw [hbatch, line, line, hvisible, free]
      simp only [handOver, hrest]
      simp [withoutBatch, free, leasesOf, ticketOf, idOf]
    · rw [line, free, hvisible]
      rfl
    · rw [hbatch]
      simp [handOver, withoutBatch, free, leasesOf]

/-- A message that is given back stays in front. -/
theorem line_returned {d : Delivery} {reply : Reply}
    (st : Store.Step now s (.attempt (.giveBack d)) s' (some (.answered (.ok reply))))
    (single : s.held.length ≤ 1) : s'.line = s.line ∧ s'.held = [] := by
  cases st with
  | returned _ h _ found =>
    obtain ⟨hline, hheld⟩ :=
      line_of_find? (Nat.le_trans (s.length_held_reclaim_le now) single) found
    rw [← (mem_of_find? found).2] at hheld
    refine ⟨?_, hheld⟩
    rw [← line_reclaim now single, hline, line]
    show (((s.reclaim now).dropHeld h.receipt).held.map _ ++ _).map _ = _
    rw [hheld]
    rfl

/-- A message that is deleted was in front. -/
theorem line_deleted {d : Delivery} {reply : Reply}
    (st : Store.Step now s (.attempt (.delete d)) s' (some (.answered (.ok reply))))
    (single : s.held.length ≤ 1) : s'.line = s.line.tail ∧ s'.held = [] := by
  cases st with
  | deleted _ h _ found =>
    obtain ⟨hline, hheld⟩ :=
      line_of_find? (Nat.le_trans (s.length_held_reclaim_le now) single) found
    refine ⟨?_, hheld⟩
    rw [← line_reclaim now single, hline, line]
    show (((s.reclaim now).dropHeld d.receipt).held.map _ ++ _).map _ = _
    rw [hheld]
    rfl

end Store.Step

namespace Call.Step
variable {canceled : Bool} {now : Nat} {s s' : Store} {c : Call} {progress : Progress}

/-- A call that does not succeed with a step leaves everything in line. -/
theorem kept (st : Call.Step canceled now s c s' progress) (undone : progress.isDone = false)
    (single : s.held.length ≤ 1) : s.Kept s' := by
  cases st with
  | quit => exact .refl s
  | blocked st => exact st.kept single nofun
  | throttled st => exact st.kept single nofun
  | @settled _ result st =>
    cases result with
    | ok reply => cases undone
    | error f => exact st.kept single nofun

theorem gained?_eq_none (st : Call.Step canceled now s c s' progress)
    (undone : progress.isDone = false) : s.gained? s' = none := by
  cases st with
  | quit => exact Store.gained?_eq_none rfl
  | blocked st => exact st.gained?_eq_none nofun
  | throttled st => exact st.gained?_eq_none nofun
  | @settled _ result st =>
    cases result with
    | ok reply => cases undone
    | error f => exact st.gained?_eq_none nofun

end Call.Step

end Leasework.Queue
