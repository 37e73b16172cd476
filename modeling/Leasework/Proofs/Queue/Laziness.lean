import Leasework.Proofs.Queue.FirstCome

/-!
# `Leasework.Proofs.Queue.Laziness`: whoever looks at a store changes an order at most

Leases that have run out stay in the table until somebody looks at it, so a look from outside
changes a store. `Store.Reclaimed` says what it makes of it, in whatever order the table is gone
through: what has not expired stays held, and what has expired stands before the messages that were
visible, in some order. To reclaim twice is to reclaim once, at the later moment
(`Store.Reclaimed.trans`).

Two stores are `Alike` if they differ in an order only. No attempt, except one that takes messages,
can tell them apart, and it leaves them alike (`Store.AlikeAt.perform`). So it is enough to compare
stores as they are once their leases have been reclaimed: `Store.AlikeAt` is kept by the clock, by
every deed that takes nothing, and by a look at one of the two stores. `Store.Sequel.quiet` follows
a run deed by deed, and does the same deeds once more with nobody looking.

`Store.lazily` is the result. It starts from any store whose receipts are distinct, reachable or
not.
-/

set_option autoImplicit false

namespace Leasework.Queue

/-- Whether a deed takes messages. -/
def Deed.takes : Deed → Bool
  | .attempt (.take _) => true
  | _ => false

/-- Whether a deed is a look from outside. -/
def Deed.isLook : Deed → Bool
  | .observe => true
  | _ => false

/-- A record without the looks from outside. -/
def unlooked (past : List Entry) : List Entry := past.filter fun e => !e.deed.isLook

/-- There is a moment that comes after all of a record. -/
theorem exists_now (past : List Entry) : ∃ now, ∀ e ∈ past, e.now ≤ now := by
  induction past with
  | nil => exact ⟨0, List.forall_mem_nil _⟩
  | cons e past ih =>
    obtain ⟨now, hnow⟩ := ih
    refine ⟨max e.now now, List.forall_mem_cons.mpr ⟨Nat.le_max_left _ _, fun e' he' => ?_⟩⟩
    exact Nat.le_trans (hnow e' he') (Nat.le_max_right _ _)

/-- What was done in a record, and when, the looks from outside left out. -/
def asked (past : List Entry) : List (Nat × Deed) :=
  (unlooked past).map fun e => (e.now, e.deed)

namespace Store

/-! ### Reclaiming in any order -/

/-- All of a store but its messages: its numbers, its tally, its faults and its signals. -/
def base (s : Store) : Store := { s with visible := [], held := [] }

/-- What reclaiming makes of a store at a moment, in whatever order its leases are gone through. -/
structure Reclaimed (now : Nat) (s s' : Store) : Prop where
  /-- What stays held is what has not expired. -/
  held : s'.held.Perm (s.held.filter fun h => now < h.expiry)
  /-- What has expired comes before the messages that were visible. -/
  visible : ∃ back : List Message,
    back.Perm ((s.held.filter fun h => h.expiry ≤ now).map Held.message) ∧
      s'.visible = back ++ s.visible
  /-- Nothing else changes. -/
  base : s'.base = s.base

/-- Two stores that differ in the order of their messages only. -/
structure Alike (s s' : Store) : Prop where
  /-- The same is held. -/
  held : s.held.Perm s'.held
  /-- The same messages are visible. -/
  visible : s.visible.Perm s'.visible
  /-- Everything else is the same. -/
  base : s.base = s'.base

/-- Two stores are alike once their leases have been reclaimed. -/
def AlikeAt (now : Nat) (s s' : Store) : Prop := (s.reclaim now).Alike (s'.reclaim now)

section
variable {now t t₁ t₂ : Nat} {s s' s₁ s₂ : Store} {held : List Held}

/-- Leases that are rearranged are reclaimed as well. -/
theorem reclaimed_withHeld (same : held.Perm s.held) :
    Reclaimed now s ((s.withHeld held).reclaim now) where
  held := same.filter _
  visible := ⟨_, (List.reverse_perm _).trans ((same.filter _).map _), visible_reclaim _ _⟩
  base := rfl

theorem reclaimed_reclaim (now : Nat) (s : Store) : Reclaimed now s (s.reclaim now) :=
  reclaimed_withHeld (.refl _)

/-- What has expired by the later moment had expired by the earlier one, or expires in between. -/
theorem expired_perm (hle : t₁ ≤ t₂) (l : List Held) :
    ((l.filter fun h => t₁ < h.expiry).filter (fun h => h.expiry ≤ t₂)
      ++ l.filter fun h => h.expiry ≤ t₁).Perm (l.filter fun h => h.expiry ≤ t₂) := by
  have hearly : (l.filter fun h => h.expiry ≤ t₂).filter (fun h => !decide (t₁ < h.expiry))
      = l.filter fun h => h.expiry ≤ t₁ := by
    rw [List.filter_filter]
    refine List.filter_congr fun h _ => ?_
    rw [← decide_not, ← Bool.decide_and]
    exact decide_eq_decide.mpr (by omega)
  have hbetween : (l.filter fun h => t₁ < h.expiry).filter (fun h => h.expiry ≤ t₂)
      = (l.filter fun h => h.expiry ≤ t₂).filter fun h => t₁ < h.expiry := by
    rw [List.filter_filter, List.filter_filter]
    exact List.filter_congr fun h _ => Bool.and_comm _ _
  rw [hbetween, ← hearly]
  exact List.filter_append_perm _ _

/-- To reclaim twice is to reclaim once, at the later moment. -/
theorem Reclaimed.trans (first : Reclaimed t₁ s s₁) (second : Reclaimed t₂ s₁ s₂)
    (hle : t₁ ≤ t₂) : Reclaimed t₂ s s₂ where
  held := by
    refine second.held.trans ((first.held.filter _).trans (.of_eq ?_))
    rw [List.filter_filter]
    refine List.filter_congr fun h _ => ?_
    rw [← Bool.decide_and]
    exact decide_eq_decide.mpr (by omega)
  visible := by
    obtain ⟨back₁, hback₁, hvisible₁⟩ := first.visible
    obtain ⟨back₂, hback₂, hvisible₂⟩ := second.visible
    refine ⟨back₂ ++ back₁, ?_, by rw [hvisible₂, hvisible₁, List.append_assoc]⟩
    have hlate := hback₂.trans ((first.held.filter _).map _)
    refine (hlate.append hback₁).trans ?_
    rw [← List.map_append]
    exact (expired_perm hle s.held).map _
  base := second.base.trans first.base

/-! ### Stores that are alike -/

namespace Alike

theorem refl (s : Store) : s.Alike s := ⟨.refl _, .refl _, rfl⟩

theorem symm (a : s.Alike s') : s'.Alike s := ⟨a.held.symm, a.visible.symm, a.base.symm⟩

theorem trans (a : s.Alike s₁) (a' : s₁.Alike s₂) : s.Alike s₂ :=
  ⟨a.held.trans a'.held, a.visible.trans a'.visible, a.base.trans a'.base⟩

end Alike

/-- Whatever the order was, the same comes of reclaiming. -/
theorem Reclaimed.alike (first : Reclaimed now s s₁) (second : Reclaimed now s s₂) :
    s₁.Alike s₂ where
  held := first.held.trans second.held.symm
  visible := by
    obtain ⟨back₁, hback₁, hvisible₁⟩ := first.visible
    obtain ⟨back₂, hback₂, hvisible₂⟩ := second.visible
    rw [hvisible₁, hvisible₂]
    exact (hback₁.trans hback₂.symm).append_right _
  base := first.base.trans second.base.symm

theorem Alike.reclaim (a : s.Alike s') (now : Nat) : s.AlikeAt now s' where
  held := a.held.filter _
  visible := by
    rw [visible_reclaim, visible_reclaim]
    refine List.Perm.append ?_ a.visible
    refine (List.reverse_perm _).trans (List.Perm.trans ?_ (List.reverse_perm _).symm)
    exact (a.held.filter _).map _
  base := a.base

theorem Alike.withHeld (same : held.Perm s.held) : (s.withHeld held).Alike s :=
  ⟨same, .refl _, rfl⟩

namespace AlikeAt

theorem symm (a : s.AlikeAt now s') : s'.AlikeAt now s := Alike.symm a

theorem trans (a : s.AlikeAt now s₁) (a' : s₁.AlikeAt now s₂) : s.AlikeAt now s₂ := Alike.trans a a'

/-- A store that has been reclaimed before is like the one that has not. -/
theorem of_reclaimed (r : Reclaimed t s s₁) (hle : t ≤ now) : s₁.AlikeAt now s :=
  (r.trans (reclaimed_reclaim now s₁) hle).alike (reclaimed_reclaim now s)

/-- The clock goes on. -/
theorem later (a : s.AlikeAt t s') (hle : t ≤ now) : s.AlikeAt now s' :=
  (of_reclaimed (reclaimed_reclaim t s) hle).symm.trans
    ((Alike.reclaim a now).trans (of_reclaimed (reclaimed_reclaim t s') hle))

end AlikeAt

end

/-! ### Operations on stores that are alike -/

section
variable {s s' : Store}

/-- What does not depend on the messages is the same. -/
theorem Alike.same {β : Type} (a : s.Alike s') (f : Store → β) (hf : ∀ s : Store, f s.base = f s) :
    f s = f s' := by
  rw [← hf s, a.base, hf]

/-- Nothing can be found in one table that is not found in the other. -/
theorem Alike.find?_eq (a : s.Alike s') (distinct : (s.held.map Held.receipt).Nodup)
    (receipt : Nat) : s.find? receipt = s'.find? receipt := by
  cases hfound' : s'.find? receipt with
  | none =>
    refine find?_eq_none.mpr fun h hh => ?_
    exact find?_eq_none.mp hfound' h (a.held.mem_iff.mp hh)
  | some h' =>
    obtain ⟨hh', hr'⟩ := mem_of_find? hfound'
    cases hfound : s.find? receipt with
    | none => exact absurd hr' (find?_eq_none.mp hfound h' (a.held.mem_iff.mpr hh'))
    | some h =>
      obtain ⟨hh, hr⟩ := mem_of_find? hfound
      rw [List.inj_on_of_nodup_map distinct hh (a.held.mem_iff.mpr hh') (hr.trans hr'.symm)]

theorem Alike.useFault (a : s.Alike s') (kind : FaultKind) :
    (s.useFault kind).Alike (s'.useFault kind) :=
  ⟨a.held, a.visible, congrArg (Store.useFault · kind) a.base⟩

theorem Alike.inject (a : s.Alike s') (kind : FaultKind) (count : Nat) :
    (s.inject kind count).Alike (s'.inject kind count) :=
  ⟨a.held, a.visible, congrArg (Store.inject · kind count) a.base⟩

theorem Alike.append (a : s.Alike s') (content : String) :
    (s.append content).signal.Alike (s'.append content).signal := by
  have hbase := congrArg (fun b : Store => { (b.append content).signal with visible := [] }) a.base
  have hnumbered := a.same numbered fun _ => rfl
  refine ⟨a.held, ?_, hbase⟩
  show (s.visible ++ _).Perm (s'.visible ++ _)
  rw [hnumbered]
  exact a.visible.append_right _

theorem Alike.afterRenewal (a : s.Alike s') (now receipt : Nat) :
    (s.afterRenewal now receipt).Alike (s'.afterRenewal now receipt) := by
  have hbase := congrArg (Store.afterRenewal now receipt) a.base
  have hlease := a.same lease fun _ => rfl
  refine ⟨?_, a.visible, hbase⟩
  show (s.held.map _).Perm (s'.held.map _)
  rw [hlease]
  exact a.held.map _

theorem Alike.dropHeld (a : s.Alike s') (receipt : Nat) :
    (s.dropHeld receipt).Alike (s'.dropHeld receipt) :=
  ⟨a.held.filter _, a.visible, a.base⟩

theorem Alike.count (a : s.Alike s') (more : Tally → Tally) :
    { s with tally := more s.tally }.Alike { s' with tally := more s'.tally } :=
  ⟨a.held, a.visible, congrArg (fun b : Store => { b with tally := more b.tally }) a.base⟩

theorem Alike.putFront (a : s.Alike s') (m : Message) :
    (signal { s with visible := m :: s.visible }).Alike
      (signal { s' with visible := m :: s'.visible }) :=
  ⟨a.held, a.visible.cons m, congrArg signal a.base⟩

end

/-! ### Deeds at a moment -/

/-- What an operation makes of two stores at a moment: stores that are alike then, and one answer.
-/
structure SameAnswer {α : Type} (now : Nat) (x y : Store × α) : Prop where
  alike : x.1.AlikeAt now y.1
  answer : x.2 = y.2

section
variable {now : Nat} {s s' : Store} {α β : Type}

theorem SameAnswer.map {x y : Store × α} (same : SameAnswer now x y) (f : α → β) :
    SameAnswer now (x.map id f) (y.map id f) := ⟨same.alike, congrArg f same.answer⟩

namespace AlikeAt

/-- A fault hits both stores or none. -/
theorem guarded (a : s.AlikeAt now s') (kinds : List FaultKind)
    (operation : Store → Store × Except Failure α)
    (same : SameAnswer now (operation s) (operation s')) :
    SameAnswer now (s.guarded kinds operation) (s'.guarded kinds operation) := by
  have hfault : s.fault? kinds = s'.fault? kinds := Alike.same a (fault? · kinds) fun _ => rfl
  unfold Store.guarded
  rw [hfault]
  cases s'.fault? kinds with
  | none => exact same
  | some kind => exact ⟨Alike.useFault a kind, rfl⟩

/-- A lease is good in both stores or in none. -/
theorem leased (a : s.AlikeAt now s') (distinct : (s.held.map Held.receipt).Nodup) (d : Delivery)
    {operation : Store → Held → Store}
    (same : ∀ {r r' : Store} (h : Held), r.Alike r' → (operation r h).Alike (operation r' h)) :
    SameAnswer now (Store.leased now d operation s) (Store.leased now d operation s') := by
  have hdistinct : ((s.reclaim now).held.map Held.receipt).Nodup :=
    distinct.sublist (List.filter_sublist.map _)
  unfold Store.leased
  simp only [Alike.find?_eq a hdistinct d.receipt]
  cases (s'.reclaim now).find? d.receipt with
  | none => exact ⟨Alike.reclaim a now, rfl⟩
  | some h => exact ⟨(same h a).reclaim now, rfl⟩

/-- Whether what has expired is reclaimed before or after it makes no difference to a new message.
-/
theorem append (a : s.AlikeAt now s') (content : String) :
    (s.append content).signal.AlikeAt now (s'.append content).signal := by
  have hbehind (s : Store) : ((s.reclaim now).append content).signal.AlikeAt now
      (s.append content).signal := by
    refine of_reclaimed ⟨.refl _, ?_, rfl⟩ (Nat.le_refl now)
    obtain ⟨back, hback, hvisible⟩ := (reclaimed_reclaim now s).visible
    refine ⟨back, hback, ?_⟩
    show (s.reclaim now).visible ++ _ = back ++ (s.visible ++ _)
    rw [hvisible, List.append_assoc]
    rfl
  exact (hbehind s).symm.trans (((Alike.append a content).reclaim now).trans (hbehind s'))

/-- A deed that takes no messages comes to the same in both stores. -/
theorem perform (a : s.AlikeAt now s') (distinct : (s.held.map Held.receipt).Nodup) {deed : Deed}
    (idle : deed.takes = false) : SameAnswer now (s.perform now deed) (s'.perform now deed) := by
  cases deed with
  | observe => exact ⟨Alike.reclaim a now, rfl⟩
  | inject kind count => exact ⟨Alike.inject a kind count, rfl⟩
  | attempt request =>
    cases request with
    | take most => cases idle
    | send content =>
      have h := a.guarded [.throttle, .send] (fun s => ((s.append content).signal, .ok ()))
        ⟨a.append content, rfl⟩
      exact h.map (some ∘ Outcome.ofUnit)
    | renew d =>
      have h := a.guarded [.throttle, .renewal] _ (a.leased distinct d fun _ alike =>
        alike.afterRenewal now d.receipt)
      exact h.map (some ∘ Outcome.ofUnit)
    | giveBack d =>
      have h := a.guarded [.throttle] _ (a.leased distinct d fun h alike =>
        ((alike.dropHeld d.receipt).count fun t => { t with returned := t.returned + 1 }).putFront
          h.message)
      exact h.map (some ∘ Outcome.ofUnit)
    | delete d =>
      have h := a.guarded [.throttle, .delete] _ (a.leased distinct d fun _ alike =>
        (alike.dropHeld d.receipt).count fun t => { t with deleted := t.deleted + 1 })
      exact h.map (some ∘ Outcome.ofUnit)

end AlikeAt

end

/-! ### Runs with looks and without -/

/-- The runs of a store from any state on. Leases are kept in no order: they may be rearranged
before every deed. The newest entry stands first, and time never goes back. -/
inductive Sequel (s₀ : Store) : List Entry → Store → Prop
  /-- Nothing has been done. -/
  | here : Sequel s₀ [] s₀
  /-- The leases are rearranged, and one more deed is done. -/
  | step {past : List Entry} {s : Store} {held : List Held} (now : Nat) (deed : Deed)
      (before : Sequel s₀ past s) (same : held.Perm s.held) (later : ∀ e ∈ past, e.now ≤ now) :
      Sequel s₀ (⟨now, deed, ((s.withHeld held).perform now deed).2⟩ :: past)
        ((s.withHeld held).perform now deed).1

/-- Does deeds at their moments, the last one in the list first. -/
def carryOut (s₀ : Store) : List (Nat × Deed) → List Entry × Store
  | [] => ([], s₀)
  | (now, deed) :: earlier =>
    let (past, s) := s₀.carryOut earlier
    (⟨now, deed, (s.perform now deed).2⟩ :: past, (s.perform now deed).1)

section
variable {now : Nat} {s₀ s s' : Store} {past past' : List Entry}

/-- Unless messages are taken, no new receipt comes into use. -/
theorem Step.distinct {deed : Deed} {outcome : Option Outcome} (st : Step now s deed s' outcome)
    (idle : deed.takes = false) (distinct : (s.held.map Held.receipt).Nodup) :
    (s'.held.map Held.receipt).Nodup := by
  have hreclaim : ((s.reclaim now).held.map Held.receipt).Nodup :=
    distinct.sublist (List.filter_sublist.map _)
  cases st with
  | taken => cases idle
  | faulted | injected | sent => exact distinct
  | bare | observed | lost => exact hreclaim
  | renewed d =>
    have hreceipts := map_held_setExpiry (s.reclaim now) d.receipt (now + s.lease) Held.receipt
      fun _ _ => rfl
    exact hreceipts.symm ▸ hreclaim
  | returned | deleted => exact hreclaim.sublist (List.filter_sublist.map _)

theorem Sequel.distinct (run : Sequel s₀ past s) (idle : ∀ e ∈ past, e.deed.takes = false)
    (distinct : (s₀.held.map Held.receipt).Nodup) : (s.held.map Held.receipt).Nodup := by
  induction run with
  | here => exact distinct
  | step now deed _ same _ ih =>
    obtain ⟨idle, hidle⟩ := List.forall_mem_cons.mp idle
    exact (step_perform now _ deed).distinct idle ((same.map _).nodup_iff.mpr (ih hidle))

/-- The same deeds with nobody looking come to the same answers, and to a store that is alike. -/
theorem Sequel.quiet (run : Sequel s₀ past s) (idle : ∀ e ∈ past, e.deed.takes = false)
    (distinct : (s₀.held.map Held.receipt).Nodup) (hnow : ∀ e ∈ past, e.now ≤ now) :
    s.AlikeAt now (s₀.carryOut (asked past)).2 ∧ unlooked past = (s₀.carryOut (asked past)).1 := by
  induction run generalizing now with
  | here => exact ⟨.refl _, rfl⟩
  | @step past s held t deed before same later ih =>
    obtain ⟨idle, hidle⟩ := List.forall_mem_cons.mp idle
    obtain ⟨hle, -⟩ := List.forall_mem_cons.mp hnow
    obtain ⟨halike, hanswers⟩ := ih hidle later
    have hrearranged := (Alike.reclaim (.withHeld same) t).trans halike
    have hdistinct : ((s.withHeld held).held.map Held.receipt).Nodup :=
      (same.map _).nodup_iff.mpr (before.distinct hidle distinct)
    cases deed with
    | observe =>
      -- A look only reclaims, and the other store will be reclaimed as well.
      have hlook : ((s.withHeld held).reclaim t).AlikeAt t (s.withHeld held) :=
        .of_reclaimed (reclaimed_reclaim t _) (Nat.le_refl t)
      exact ⟨(hlook.trans hrearranged).later hle, hanswers⟩
    | inject | attempt =>
      have h := AlikeAt.perform hrearranged hdistinct idle
      refine ⟨h.alike.later hle, ?_⟩
      show _ :: unlooked past = _ :: (s₀.carryOut (asked past)).1
      rw [hanswers, h.answer]
      rfl

end

/-! ### Looking changes an order at most -/

/-- What it comes to that leases are reclaimed late:

- `exact`: reclaiming leaves held what has not expired, puts what has expired, in some order, before
  the messages that were visible, and changes nothing else;
- `composes`: reclaiming in between leaves the same held in the end, and the same visible, but for
  the order of the messages that came back;
- `unnoticed`: if two runs differ in looks from outside only, and nothing is taken in them, all
  answers are the same, and so is everything but the messages, the tally included. Once the leases
  are reclaimed the next time, the same is held and the same messages are visible, in some order. -/
structure Lazy (s : Store) : Prop where
  exact : ∀ (now : Nat) (held : List Held), held.Perm s.held →
    Reclaimed now s ((s.withHeld held).reclaim now)
  composes : ∀ (t₁ t₂ : Nat) (held₁ held₂ held₃ : List Held) (twice once : Store), t₁ ≤ t₂ →
    held₁.Perm s.held → held₂.Perm ((s.withHeld held₁).reclaim t₁).held → held₃.Perm s.held →
      twice = (((s.withHeld held₁).reclaim t₁).withHeld held₂).reclaim t₂ →
        once = (s.withHeld held₃).reclaim t₂ →
          twice.held.Perm once.held ∧ twice.base = once.base ∧
            ∃ back back' : List Message, back.Perm back' ∧ twice.visible = back ++ s.visible ∧
              once.visible = back' ++ s.visible
  unnoticed : ∀ (past past' : List Entry) (s₁ s₂ : Store), Sequel s past s₁ → Sequel s past' s₂ →
    (∀ e ∈ past ++ past', e.deed.takes = false) → asked past = asked past' →
      unlooked past = unlooked past' ∧ s₁.base = s₂.base ∧
        ∀ (now : Nat) (held₁ held₂ : List Held), (∀ e ∈ past ++ past', e.now ≤ now) →
          held₁.Perm s₁.held → held₂.Perm s₂.held →
            ((s₁.withHeld held₁).reclaim now).Alike ((s₂.withHeld held₂).reclaim now)

/-- Whatever is held and visible, and in whatever order the table of leases is gone through, it
makes no difference but for an order when leases are reclaimed, and whether somebody has looked
meanwhile. -/
theorem lazily (s : Store) (distinct : (s.held.map Held.receipt).Nodup) : s.Lazy where
  exact _ _ same := reclaimed_withHeld same
  composes := by
    intro t₁ t₂ held₁ held₂ held₃ twice once hle same₁ same₂ same₃ htwice honce
    have first : Reclaimed t₂ s _ := (reclaimed_withHeld same₁).trans (reclaimed_withHeld same₂) hle
    have second : Reclaimed t₂ s _ := reclaimed_withHeld same₃
    rw [← htwice] at first
    rw [← honce] at second
    have halike := first.alike second
    obtain ⟨back, hback, hvisible⟩ := first.visible
    obtain ⟨back', hback', hvisible'⟩ := second.visible
    exact ⟨halike.held, halike.base, back, back', hback.trans hback'.symm, hvisible, hvisible'⟩
  unnoticed := by
    intro past past' s₁ s₂ run run' idle hasked
    rw [List.forall_mem_append] at idle
    have halike (now : Nat) (hnow : ∀ e ∈ past ++ past', e.now ≤ now) :
        s₁.AlikeAt now s₂ ∧ unlooked past = unlooked past' := by
      rw [List.forall_mem_append] at hnow
      obtain ⟨h, hanswers⟩ := run.quiet idle.1 distinct hnow.1
      obtain ⟨h', hanswers'⟩ := run'.quiet idle.2 distinct hnow.2
      rw [← hasked] at h' hanswers'
      exact ⟨h.trans h'.symm, hanswers.trans hanswers'.symm⟩
    obtain ⟨last, hlast⟩ := exists_now (past ++ past')
    refine ⟨(halike last hlast).2, (halike last hlast).1.base, ?_⟩
    intro now held₁ held₂ hnow same₁ same₂
    have first : (s₁.withHeld held₁).AlikeAt now s₁ := Alike.reclaim (.withHeld same₁) now
    have second : (s₂.withHeld held₂).AlikeAt now s₂ := Alike.reclaim (.withHeld same₂) now
    exact first.trans ((halike now hnow).1.trans second.symm)

/-- Two messages are held. The lease of one runs out at three, that of the other at five. -/
def twoLeases : Store :=
  { empty "q" 5 with
    held := [⟨0, ⟨1, "a", 1⟩, 5⟩, ⟨1, ⟨2, "b", 1⟩, 3⟩]
    numbered := 2
    receipts := 2
    tally := ⟨2, 2, 0, 0, 0, 0⟩ }

/-- Somebody looks at four, before a message is sent, and what comes back then gets behind what
comes back later. With nobody looking both come back at once, as the table has them. Nothing else
differs. -/
theorem lazily_twoLeases : ∃ past past' s₁ s₂,
    Sequel twoLeases past s₁ ∧ Sequel twoLeases past' s₂ ∧
    unlooked past = unlooked past' ∧ (s₁.reclaim 6).Alike (s₂.reclaim 6) ∧
      (s₁.reclaim 6).visible.map Message.content = ["a", "b", "c"] ∧
        (s₂.reclaim 6).visible.map Message.content = ["b", "a", "c"] := by
  have looked : Sequel twoLeases _ _ := .step 4 .observe .here (.refl _) (List.forall_mem_nil _)
  have sent := looked.step 4 (.attempt (.send "c")) (.refl _) (by simp)
  have quiet : Sequel twoLeases _ _ :=
    .step 4 (.attempt (.send "c")) .here (.refl _) (List.forall_mem_nil _)
  obtain ⟨answers, -, next⟩ := (lazily twoLeases (by decide)).unnoticed _ _ _ _ sent quiet
    (by simp [Deed.takes]) rfl
  exact ⟨_, _, _, _, sent, quiet, answers, next 6 _ _ (by simp) (.refl _) (.refl _), by decide,
    by decide⟩

end Store

end Leasework.Queue
