import HttpLogMonitor.AlertWindow

/-!
# The volume of alerts

The tracker publishes a recovery between its two loops, and does not get
back there before it has removed a hit. So each recovery is paid for by a
removal, and at most one removal is outstanding. Each hit put on
`alertURLQueue` raises at most one high alert. An interrupt delivered to
the tracker changes neither account.
-/

namespace HttpLogMonitor

/-- How many alerts of one type were ever put on `alertQueue`. -/
def published (alertQueue : Fifo Alert) (alertType : Bool) : ℕ :=
  alertQueue.log.countP fun alert => alert.alertType == alertType

theorem published_add (alertQueue : Fifo Alert) :
    published alertQueue true + published alertQueue false = alertQueue.log.length := by
  have hparts := alertQueue.log.length_eq_countP_add_countP fun alert => alert.alertType == true
  simpa [published] using hparts.symm

theorem published_put_same (alertQueue : Fifo Alert) (alert : Alert) :
    published (alertQueue.put alert) alert.alertType = published alertQueue alert.alertType + 1 := by
  simp [published]

theorem published_put_other (alertQueue : Fifo Alert) {alert : Alert} {type : Bool}
    (h : alert.alertType ≠ type) :
    published (alertQueue.put alert) type = published alertQueue type := by
  simp [published, h]

namespace AlertTracker

/-- Every recovery but one is paid for, and the hit that will pay for
that one is in the queue. -/
def AlmostPaid (q : Fifo HttpObject) (recoveries : ℕ) : Prop :=
  recoveries ≤ q.removed.length ∨ recoveries ≤ q.removed.length + 1 ∧ q.items ≠ []

/-- Outside the inner loop every recovery is paid for by a removal. -/
def Paid (q : Fifo HttpObject) (recoveries : ℕ) (a : AlertTracker) : Prop :=
  match a.pc with
  | .outerTest | .emptySleep _ => recoveries ≤ q.removed.length
  | .sizeTest | .sizeRead => recoveries ≤ q.removed.length ∧ q.items ≠ []
  | .putAlert alert => recoveries ≤ q.removed.length ∧ q.items ≠ [] ∧ alert.alertType = false
  | _ => AlmostPaid q recoveries

theorem AlmostPaid.le_log {q : Fifo HttpObject} {recoveries : ℕ} (h : AlmostPaid q recoveries) :
    recoveries ≤ q.log.length := by
  have hlog := q.length_removed_add
  rcases h with hle | ⟨hle, hne⟩
  · omega
  · have hpos := List.length_pos_of_ne_nil hne
    omega

theorem AlmostPaid.le_removed {q : Fifo HttpObject} {recoveries : ℕ}
    (h : AlmostPaid q recoveries) : recoveries ≤ q.removed.length + 1 := by
  rcases h with hle | ⟨hle, -⟩
  · omega
  · exact hle

section Paid

variable {q : Fifo HttpObject} {recoveries : ℕ} {a : AlertTracker}

theorem Paid.almostPaid (h : a.Paid q recoveries) : AlmostPaid q recoveries := by
  unfold Paid at h
  split at h
  · exact Or.inl h
  · exact Or.inl h
  · exact Or.inl h.1
  · exact Or.inl h.1
  · exact Or.inl h.1
  · exact h

theorem Paid.put (h : a.Paid q recoveries) (hit : HttpObject) : a.Paid (q.put hit) recoveries := by
  unfold Paid AlmostPaid at h ⊢
  cases hpc : a.pc <;> simp only [hpc, Fifo.removed_put, Fifo.items_put] at h ⊢
  case outerTest => exact h
  case emptySleep wake => exact h
  case sizeTest => exact ⟨h.1, by simp⟩
  case sizeRead => exact ⟨h.1, by simp⟩
  case putAlert alert => exact ⟨h.1, by simp, h.2.2⟩
  all_goals exact h.imp_right fun hle => ⟨hle.1, by simp⟩

/-- The inner loop is left by a removal, or when the queue is empty and
no hit is left to pay. -/
theorem Paid.step {s s' : Store} {a a' : AlertTracker}
    (h : a.Paid s.alertURLQueue (published s.alertQueue false)) (hs : Steps s a s' a') :
    a'.Paid s'.alertURLQueue (published s'.alertQueue false) := by
  have halmost := h.almostPaid
  cases hs with
  | waitEmpty hpc hq =>
      simp only [Paid, hpc] at h
      exact h
  | leaveOuter hpc hq =>
      simp only [Paid, hpc] at h
      exact ⟨h, hq⟩
  | emptyInterrupted wake hpc hflag =>
      simp only [Paid, hpc] at h
      exact h
  | emptyWake wake hpc hflag hwake =>
      simp only [Paid, hpc] at h
      exact h
  | low hpc hsize =>
      simp only [Paid, hpc] at h
      exact h
  | sizeRead hpc =>
      simp only [Paid, hpc] at h
      exact ⟨h.1, h.2, rfl⟩
  | putAlert alert hpc hflag =>
      simp only [Paid, hpc] at h
      obtain ⟨hle, hne, hlow⟩ := h
      have hcount := published_put_same s.alertQueue alert
      rw [hlow] at hcount
      exact Or.inr ⟨hcount.trans_le (Nat.succ_le_succ hle), hne⟩
  | leaveInner hpc hq => exact halmost.resolve_right fun hone => hone.2 hq
  | removeBreak hpc hq =>
      have hremoved := Fifo.length_removed_remove hq
      have hle := halmost.le_removed
      exact hle.trans hremoved.ge
  | removeContinue hpc hq =>
      have hremoved := Fifo.length_removed_remove hq
      have hle := halmost.le_removed
      exact Or.inl (hle.trans hremoved.ge)
  | _ => exact halmost

end Paid

/-- The alert the tracker is about to put is a recovery. -/
theorem Paid.published_high {s s' : Store} {a a' : AlertTracker}
    (h : a.Paid s.alertURLQueue (published s.alertQueue false)) (hs : Steps s a s' a') :
    published s'.alertQueue true = published s.alertQueue true := by
  cases hs with
  | putAlert alert hpc hflag =>
      simp only [Paid, hpc] at h
      exact published_put_other s.alertQueue (by simp [h.2.2])
  | _ => rfl

end AlertTracker

namespace Callback

/-- A hit is on `alertURLQueue` and its alert is still to be raised. -/
def unraised (c : Callback) : ℕ :=
  match c.pc with
  | .readSize | .testThreshold _ | .putAlert _ => 1
  | _ => 0

section Published

variable {threshold : Int32} {s s' : Store} {c c' : Callback}

theorem Steps.published_low (h : Steps threshold s c s' c') :
    published s'.alertQueue false = published s.alertQueue false := by
  cases h with
  | putAlert n hpc hflag => exact published_put_other s.alertQueue (by simp)
  | _ => rfl

theorem Steps.raised_le (h : Steps threshold s c s' c')
    (hle : published s.alertQueue true + c.unraised ≤ s.alertURLQueue.log.length) :
    published s'.alertQueue true + c'.unraised ≤ s'.alertURLQueue.log.length := by
  cases h with
  | caught hflag hput => exact (Nat.le_add_right _ _).trans hle
  | putMostHits hit hpc hflag => simpa [unraised, hpc] using hle
  | putAlertURL hit hpc hflag =>
      simp only [unraised, hpc] at hle
      simpa [unraised] using Nat.succ_le_succ hle
  | readSize hpc => simpa [unraised, hpc] using hle
  | above n hpc hn => simpa [unraised, hpc] using hle
  | below n hpc hn => exact (Nat.le_add_right _ _).trans hle
  | putAlert n hpc hflag =>
      have hcount := published_put_same s.alertQueue ⟨s.clock, n, true⟩
      simp only [unraised, hpc] at hle
      exact hcount.trans_le hle
  | updateStats hpc => simpa [unraised, hpc] using hle

end Published

end Callback

/-- The events of an `AlertSystem`, and an interrupt delivered to the
tracker. -/
inductive DisturbedEvent where
  | move (e : AlertEvent)
  | interruptAlert
  deriving DecidableEq

namespace AlertSystem

def disturbedStep (u : AlertSystem) : DisturbedEvent → Option AlertSystem
  | .move e => machine.step u e
  | .interruptAlert => some { u with tracker := u.tracker.interrupt }

def disturbed : Machine AlertSystem DisturbedEvent := ⟨disturbedStep⟩

/-- Both accounts, and the hits captured so far. -/
structure Funded (u : AlertSystem) : Prop where
  paid : u.tracker.Paid u.store.alertURLQueue (published u.store.alertQueue false)
  raised : published u.store.alertQueue true + u.callback.unraised ≤ u.store.alertURLQueue.log.length
  captured : u.store.alertURLQueue.log.length + u.callback.pending.length ≤ u.store.nextRef

theorem funded_initial (threshold gap : Int32) (clock : ℤ) :
    (initial threshold gap clock).Funded :=
  ⟨Nat.le_refl 0, Nat.le_refl 0, Nat.le_refl 0⟩

theorem Funded.step {u v : AlertSystem} {e : AlertEvent} (hu : u.Funded) (h : Steps u e v) :
    v.Funded := by
  obtain ⟨hpaid, hraised, hcaptured⟩ := hu
  cases h with
  | tick d => exact ⟨hpaid, hraised, hcaptured⟩
  | packet hr =>
      obtain ⟨hidle, -, ⟨rfl, rfl⟩ | ⟨url, -, rfl, hpc⟩⟩ := Callback.receive_cases hr
      · exact ⟨hpaid, hraised, hcaptured⟩
      · simp only [Callback.unraised, hidle] at hraised
        simp only [Callback.pending, hidle] at hcaptured
        refine ⟨hpaid, ?_, ?_⟩
        · simpa only [Callback.unraised, hpc, Store.create] using hraised
        · simpa [Callback.pending, hpc, Store.create] using hcaptured
  | callback hc =>
      refine ⟨?_, hc.raised_le hraised, ?_⟩
      · rw [hc.published_low]
        rcases hc.alertURLQueue_cases with heq | ⟨hit, -, heq⟩
        · exact heq.symm ▸ hpaid
        · exact heq.symm ▸ hpaid.put hit
      · have hsub := hc.captured_sublist.length_le
        simp only [List.length_append] at hsub
        exact hsub.trans (hcaptured.trans hc.nextRef_eq.ge)
  | tracker ha =>
      obtain ⟨hlog, hnext⟩ := ha.captures_eq
      refine ⟨hpaid.step ha, ?_, ?_⟩
      · simpa only [hpaid.published_high ha, hlog] using hraised
      · simpa only [hlog, hnext] using hcaptured

theorem Funded.disturbed_step {u v : AlertSystem} {e : DisturbedEvent} (hu : u.Funded)
    (h : disturbed.step u e = some v) : v.Funded := by
  cases e with
  | move e => exact hu.step (step_cases h)
  | interruptAlert =>
      obtain rfl := Option.some.inj h
      exact ⟨hu.paid, hu.raised, hu.captured⟩

theorem run_funded {threshold gap : Int32} {clock : ℤ} {u : AlertSystem}
    {es : List DisturbedEvent} (h : disturbed.run (initial threshold gap clock) es = some u) :
    u.Funded :=
  disturbed.run_invariant Funded (fun _ _ _ hu hs => hu.disturbed_step hs)
    (funded_initial threshold gap clock) h

/-- In every state of every run, with interrupts wherever they come, at
most one recovery was published beyond the hits removed, and no more
alerts of either type than hits were put on `alertURLQueue`. -/
theorem alerts_le_twice_captured (threshold gap : Int32) (clock : ℤ) (es : List DisturbedEvent)
    (u : AlertSystem) (h : disturbed.run (initial threshold gap clock) es = some u) :
    published u.store.alertQueue false ≤ u.store.alertURLQueue.removed.length + 1 ∧
      published u.store.alertQueue false ≤ u.store.alertURLQueue.log.length ∧
      u.store.alertQueue.log.length ≤ 2 * u.store.alertURLQueue.log.length ∧
      u.store.alertQueue.log.length ≤ 2 * u.store.nextRef := by
  have hu := run_funded h
  have hremoved := hu.paid.almostPaid.le_removed
  have hlow := hu.paid.almostPaid.le_log
  have hhigh : published u.store.alertQueue true ≤ u.store.alertURLQueue.log.length :=
    (Nat.le_add_right _ _).trans hu.raised
  have hcaptured : u.store.alertURLQueue.log.length ≤ u.store.nextRef :=
    (Nat.le_add_right _ _).trans hu.captured
  have hboth : u.store.alertQueue.log.length ≤ 2 * u.store.alertURLQueue.log.length := by
    have hsum := published_add u.store.alertQueue
    omega
  exact ⟨hremoved, hlow, hboth, hboth.trans (Nat.mul_le_mul_left 2 hcaptured)⟩

/-- One hit, its recovery published with the hit still in the queue, and
the sleep for that hit interrupted. -/
theorem alerts_le_twice_captured_interrupted : ∃ u,
    disturbed.run (initial 1 120000 0)
      [.move (.packet (.request [])), .move .callback, .move .callback, .move .tracker,
        .move .tracker, .move .tracker, .move .tracker, .move .tracker, .move .tracker,
        .move .tracker, .interruptAlert, .move .tracker] = some u ∧
      published u.store.alertQueue false = 1 ∧ u.store.alertURLQueue.removed = [] ∧
      published u.store.alertQueue false ≤ u.store.alertURLQueue.removed.length + 1 ∧
      u.store.alertQueue.log.length ≤ 2 * u.store.nextRef := by
  have hbound := alerts_le_twice_captured 1 120000 0
    [.move (.packet (.request [])), .move .callback, .move .callback, .move .tracker,
      .move .tracker, .move .tracker, .move .tracker, .move .tracker, .move .tracker,
      .move .tracker, .interruptAlert, .move .tracker] _ rfl
  exact ⟨_, rfl, rfl, rfl, hbound.1, hbound.2.2.2⟩

end AlertSystem

end HttpLogMonitor
