import HttpLogMonitor.AlertTracker
import HttpLogMonitor.Library.Machine

/-!
# One callback and one tracker

The two threads share `alertURLQueue`, `alertQueue` and one fixed
threshold. An event is a move of the clock, a packet handed to the idle
callback, or one operation of either thread, so an event list is an
arrival sequence together with an interleaving.
-/

namespace HttpLogMonitor

structure AlertSystem where
  store : Store
  callback : Callback
  tracker : AlertTracker

inductive AlertEvent where
  | tick (d : ℕ)
  | packet (packet : PcapPacket)
  | callback
  | tracker
  deriving DecidableEq

namespace AlertSystem

def initial (threshold gap : Int32) (clock : ℤ) : AlertSystem :=
  ⟨Store.initial clock, Callback.fresh, AlertTracker.fresh threshold gap⟩

def step (u : AlertSystem) : AlertEvent → Option AlertSystem
  | .tick d => some { u with store := u.store.tick d }
  | .packet packet =>
      (Callback.receive u.store u.callback packet).map fun r =>
        { u with store := r.1, callback := r.2 }
  | .callback =>
      (Callback.step u.tracker.threshold u.store u.callback).map fun r =>
        { u with store := r.1, callback := r.2 }
  | .tracker =>
      (AlertTracker.step u.store u.tracker).map fun r =>
        { u with store := r.1, tracker := r.2 }

def machine : Machine AlertSystem AlertEvent := ⟨step⟩

inductive Steps (u : AlertSystem) : AlertEvent → AlertSystem → Prop
  | tick (d : ℕ) : Steps u (.tick d) { u with store := u.store.tick d }
  | packet {packet : PcapPacket} {s : Store} {c : Callback}
      (h : Callback.receive u.store u.callback packet = some (s, c)) :
      Steps u (.packet packet) { u with store := s, callback := c }
  | callback {s : Store} {c : Callback}
      (h : Callback.Steps u.tracker.threshold u.store u.callback s c) :
      Steps u .callback { u with store := s, callback := c }
  | tracker {s : Store} {a : AlertTracker} (h : AlertTracker.Steps u.store u.tracker s a) :
      Steps u .tracker { u with store := s, tracker := a }

theorem step_cases {u v : AlertSystem} {e : AlertEvent} (h : machine.step u e = some v) :
    Steps u e v := by
  cases e with
  | tick d =>
      cases h
      exact .tick d
  | packet packet =>
      obtain ⟨⟨s, c⟩, hr, rfl⟩ := Option.map_eq_some_iff.1 h
      exact .packet hr
  | callback =>
      obtain ⟨⟨s, c⟩, hr, rfl⟩ := Option.map_eq_some_iff.1 h
      exact .callback (Callback.step_cases hr)
  | tracker =>
      obtain ⟨⟨s, a⟩, hr, rfl⟩ := Option.map_eq_some_iff.1 h
      exact .tracker (AlertTracker.step_cases hr)

/-! ## Settings and flags never change -/

/-- The fixed settings of a system, whose threads nobody interrupts. -/
structure Settled (threshold gap : Int32) (u : AlertSystem) : Prop where
  threshold_eq : u.tracker.threshold = threshold
  gap_eq : u.tracker.alertGapInMillisecond = gap
  callback_flag : u.callback.interrupted = false
  tracker_flag : u.tracker.interrupted = false

theorem settled_initial (threshold gap : Int32) (clock : ℤ) :
    (initial threshold gap clock).Settled threshold gap := ⟨rfl, rfl, rfl, rfl⟩

theorem Settled.step {threshold gap : Int32} {u v : AlertSystem} {e : AlertEvent}
    (hu : u.Settled threshold gap) (h : Steps u e v) : v.Settled threshold gap := by
  obtain ⟨hthreshold, hgap, hcflag, htflag⟩ := hu
  cases h with
  | tick d => exact ⟨hthreshold, hgap, hcflag, htflag⟩
  | packet hr =>
      obtain ⟨-, heq, -⟩ := Callback.receive_cases hr
      exact ⟨hthreshold, hgap, heq.trans hcflag, htflag⟩
  | callback hc =>
      refine ⟨hthreshold, hgap, ?_, htflag⟩
      cases hc <;> first | exact hcflag | rfl
  | tracker ha =>
      obtain ⟨ht, hg⟩ := ha.settings_eq
      exact ⟨ht.trans hthreshold, hg.trans hgap, hcflag, ha.interrupted_eq htflag⟩

theorem Settled.run {threshold gap : Int32} {u v : AlertSystem} {es : List AlertEvent}
    (hu : u.Settled threshold gap) (h : machine.run u es = some v) : v.Settled threshold gap :=
  machine.run_invariant (Settled threshold gap) (fun _ _ _ hu hs => hu.step (step_cases hs)) hu h

theorem run_settled {threshold gap : Int32} {clock : ℤ} {u : AlertSystem} {es : List AlertEvent}
    (h : machine.run (initial threshold gap clock) es = some u) : u.Settled threshold gap :=
  (settled_initial threshold gap clock).run h

/-! ## A call in progress -/

theorem Steps.callback_eq {u v : AlertSystem} {e : AlertEvent} (h : Steps u e v)
    (he : e ≠ .callback) (hpc : u.callback.pc ≠ .idle) : v.callback = u.callback := by
  cases h with
  | tick d => rfl
  | packet hr => exact (hpc (Callback.receive_cases hr).1).elim
  | callback hc => exact (he rfl).elim
  | tracker ha => rfl

theorem Steps.alertQueue_log {u v : AlertSystem} {e : AlertEvent} (h : Steps u e v) :
    u.store.alertQueue.log <+: v.store.alertQueue.log := by
  cases h with
  | tick d => exact List.prefix_rfl
  | packet hr => exact (Callback.receive_alertQueue_eq hr).symm ▸ List.prefix_rfl
  | callback hc =>
      rcases hc.alertQueue_cases with heq | ⟨n, -, heq⟩
      · exact heq.symm ▸ List.prefix_rfl
      · exact heq.symm ▸ List.prefix_append _ _
  | tracker ha =>
      rcases ha.alertQueue_cases with heq | ⟨alert, -, heq⟩
      · exact heq.symm ▸ List.prefix_rfl
      · exact heq.symm ▸ List.prefix_append _ _

theorem run_alertQueue_log {u v : AlertSystem} {es : List AlertEvent}
    (h : machine.run u es = some v) : u.store.alertQueue.log <+: v.store.alertQueue.log :=
  machine.run_relation (fun _ => True)
    (fun u v => u.store.alertQueue.log <+: v.store.alertQueue.log) (fun _ => List.prefix_rfl)
    (fun _ _ _ huv hvw => huv.trans hvw) (fun _ _ _ _ hs => ⟨trivial, (step_cases hs).alertQueue_log⟩)
    trivial h

theorem run_split_callback {u v : AlertSystem} {es : List AlertEvent} {n : ℕ}
    (hpc : u.callback.pc ≠ .idle) (h : machine.run u es = some v)
    (hcount : n + 1 ≤ es.count .callback) :
    ∃ es₁ t w es₂, machine.run u es₁ = some t ∧ t.callback = u.callback ∧
      machine.step t .callback = some w ∧ machine.run w es₂ = some v ∧
      n ≤ es₂.count .callback := by
  induction es generalizing u with
  | nil => simp at hcount
  | cons e es ih =>
      obtain ⟨t, ht, hr⟩ := machine.run_cons_iff.1 h
      by_cases he : e = .callback
      · subst he
        exact ⟨[], u, t, es, rfl, rfl, ht, hr, by simpa using hcount⟩
      · have heq := (step_cases ht).callback_eq he hpc
        rw [List.count_cons_of_ne he] at hcount
        obtain ⟨es₁, t', w, es₂, h₁, ht', hw, h₂, hn⟩ := ih (heq ▸ hpc) hr hcount
        exact ⟨e :: es₁, t', w, es₂, machine.run_cons_iff.2 ⟨t, ht, h₁⟩, ht'.trans heq, hw, h₂, hn⟩

theorem callback_isSome {u : AlertSystem} (hpc : u.callback.pc ≠ .idle) :
    (machine.step u .callback).isSome = true := by
  simpa [machine, step] using Callback.step_isSome u.tracker.threshold u.store hpc

end AlertSystem

end HttpLogMonitor
