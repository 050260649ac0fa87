import HttpLogMonitor.AlertWindow
import HttpLogMonitor.MonitorRuns

/-!
# High alerts and the alert period

In a timed run a step takes no time, and the tracker is delayed only by
its sleeps, which last exactly as long as asked. The clock then moves only
between calls of `nextPacket`, and never past the end of a sleep. While
the tracker sleeps its fixed five seconds on an empty queue nothing
expires, so a shorter alert period is overrun.
-/

namespace HttpLogMonitor

/-- The end of the sleep in progress, if any. -/
def AlertTracker.horizon (clock : ℤ) (a : AlertTracker) : ℤ :=
  match a.pc with
  | .emptySleep wake | .headSleep wake => wake
  | _ => clock

theorem AlertTracker.horizon_cases (a : AlertTracker) :
    (∃ wake, ∀ clock, a.horizon clock = wake) ∨ ∀ clock, a.horizon clock = clock := by
  unfold horizon
  cases a.pc with
  | emptySleep wake => exact Or.inl ⟨wake, fun _ => rfl⟩
  | headSleep wake => exact Or.inl ⟨wake, fun _ => rfl⟩
  | _ => exact Or.inr fun _ => rfl

namespace AlertSystem

/-- `alertURLQueue` has the capacity `Integer.MAX_VALUE`, and a `put` that
waits for room takes time. -/
def Timely (u : AlertSystem) : AlertEvent → Prop
  | .tick d => u.callback.pc = .idle ∧ u.store.clock + d ≤ u.tracker.horizon u.store.clock
  | .packet _ => (u.store.alertURLQueue.size : ℤ) < Int32.maxValue.toInt
  | _ => True

instance (u : AlertSystem) (e : AlertEvent) : Decidable (u.Timely e) := by
  cases e <;> unfold Timely <;> infer_instance

def timed : Machine AlertSystem AlertEvent := machine.restrict Timely

/-- The hits with a timestamp in the alert period that ends now. -/
def inPeriod (gap : Int32) (now : ℤ) (hits : List HttpObject) : ℕ :=
  hits.countP fun hit => decide (now - gap.toInt ≤ hit.hittingTime ∧ hit.hittingTime ≤ now)

/-- What the tracker may be waiting for does not lie further ahead than
the period, and no queued hit will then be older than the period. -/
structure Recent (gap : Int32) (u : AlertSystem) : Prop where
  clock_le : u.store.clock ≤ u.tracker.horizon u.store.clock
  horizon_le : u.tracker.horizon u.store.clock ≤ u.store.clock + gap.toInt
  items : ∀ hit ∈ u.store.alertURLQueue.items,
    u.tracker.horizon u.store.clock - gap.toInt ≤ hit.hittingTime
  pending : ∀ hit ∈ u.callback.pending, hit.hittingTime = u.store.clock
  counted : ∀ n, u.callback.pc = .testThreshold n ∨ u.callback.pc = .putAlert n →
    n ≤ inPeriod gap u.store.clock u.store.alertURLQueue.log

theorem recent_initial {gap : Int32} (hgap : 0 ≤ gap.toInt) (threshold : Int32) (clock : ℤ) :
    (initial threshold gap clock).Recent gap := by
  constructor <;>
    simp [initial, Store.initial, Callback.fresh, Callback.pending, AlertTracker.horizon,
      AlertTracker.fresh, hgap]

theorem Recent.tick {gap : Int32} {u : AlertSystem} (hu : u.Recent gap) {d : ℕ}
    (htimely : u.Timely (.tick d)) : Recent gap { u with store := u.store.tick d } := by
  obtain ⟨hidle, hle⟩ := htimely
  have hclock : u.store.clock ≤ u.store.clock + d := by omega
  have hhorizon : u.tracker.horizon (u.store.clock + d) = u.tracker.horizon u.store.clock := by
    rcases u.tracker.horizon_cases with ⟨wake, hwake⟩ | hawake
    · rw [hwake, hwake]
    · rw [hawake] at hle
      rw [hawake, hawake]
      omega
  constructor
  · exact hhorizon ▸ hle
  · have hold := hu.horizon_le
    change u.tracker.horizon (u.store.clock + d) ≤ u.store.clock + d + gap.toInt
    omega
  · intro hit hhit
    change u.tracker.horizon (u.store.clock + d) - gap.toInt ≤ hit.hittingTime
    rw [hhorizon]
    exact hu.items hit hhit
  · simp [Callback.pending, hidle]
  · simp [hidle]

theorem Recent.packet {gap : Int32} {u : AlertSystem} (hu : u.Recent gap) {packet : PcapPacket}
    {s : Store} {c : Callback} (h : Callback.receive u.store u.callback packet = some (s, c)) :
    Recent gap { u with store := s, callback := c } := by
  obtain ⟨hidle, -, ⟨rfl, rfl⟩ | ⟨url, -, rfl, hpc⟩⟩ := Callback.receive_cases h
  · exact hu
  · refine ⟨hu.clock_le, hu.horizon_le, hu.items, ?_, ?_⟩
    · intro hit hhit
      simp only [Callback.pending, hpc, List.mem_singleton] at hhit
      rw [hhit]
      rfl
    · rintro n (hn | hn) <;> simp [hpc] at hn

/-- All queued hits lie in the period, so the size counts only such. -/
theorem Recent.size_le {gap : Int32} {u : AlertSystem} (hu : u.Recent gap) (ho : u.Ordered) :
    u.store.alertURLQueue.size ≤ inPeriod gap u.store.clock u.store.alertURLQueue.log := by
  have hsub : u.store.alertURLQueue.items.Sublist u.store.alertURLQueue.log :=
    u.store.alertURLQueue.items_suffix.sublist
  have hall : inPeriod gap u.store.clock u.store.alertURLQueue.items =
      u.store.alertURLQueue.items.length := by
    apply List.countP_eq_length.2
    intro hit hhit
    have hrecent := hu.items hit hhit
    have hclock := hu.clock_le
    have hpast := (ho.past hit (List.mem_append_left _ (hsub.subset hhit))).2
    exact decide_eq_true ⟨by omega, hpast⟩
  calc
    u.store.alertURLQueue.size = inPeriod gap u.store.clock u.store.alertURLQueue.items := hall.symm
    _ ≤ inPeriod gap u.store.clock u.store.alertURLQueue.log := hsub.countP_le

theorem Recent.callback {gap : Int32} {u : AlertSystem} (hu : u.Recent gap) (ho : u.Ordered)
    {s : Store} {c : Callback} (h : Callback.Steps u.tracker.threshold u.store u.callback s c) :
    Recent gap { u with store := s, callback := c } := by
  cases h with
  | putMostHits hit hpc hflag =>
      refine ⟨hu.clock_le, hu.horizon_le, hu.items, ?_, by simp⟩
      intro other hother
      apply hu.pending other
      simpa [Callback.pending, hpc] using hother
  | putAlertURL hit hpc hflag =>
      refine ⟨hu.clock_le, hu.horizon_le, ?_, by simp [Callback.pending], by simp⟩
      intro other hother
      rcases List.mem_append.1 hother with hold | hnew
      · exact hu.items other hold
      · have hnow := hu.pending hit (by simp [Callback.pending, hpc])
        have hhorizon := hu.horizon_le
        rw [List.mem_singleton.1 hnew, hnow]
        change u.tracker.horizon u.store.clock - gap.toInt ≤ u.store.clock
        omega
  | readSize hpc =>
      refine ⟨hu.clock_le, hu.horizon_le, hu.items, by simp [Callback.pending], ?_⟩
      rintro n (hn | hn)
      · cases hn
        exact hu.size_le ho
      · cases hn
  | above n hpc hn =>
      refine ⟨hu.clock_le, hu.horizon_le, hu.items, by simp [Callback.pending], ?_⟩
      rintro m (hm | hm)
      · cases hm
      · cases hm
        exact hu.counted n (Or.inl hpc)
  | _ =>
      exact ⟨hu.clock_le, hu.horizon_le, hu.items, by simp [Callback.pending, Callback.caught],
        by simp [Callback.caught]⟩

/-- A step of the tracker is right if what it then waits for is. -/
theorem Recent.tracker_of {gap : Int32} {u : AlertSystem} (hu : u.Recent gap) {s : Store}
    {a : AlertTracker} (h : AlertTracker.Steps u.store u.tracker s a)
    (hle : u.store.clock ≤ a.horizon u.store.clock)
    (hge : a.horizon u.store.clock ≤ u.store.clock + gap.toInt)
    (hitems : ∀ hit ∈ s.alertURLQueue.items,
      a.horizon u.store.clock - gap.toInt ≤ hit.hittingTime) :
    Recent gap { u with store := s, tracker := a } := by
  have hclock := h.clock_eq
  have hlog : s.alertURLQueue.log = u.store.alertURLQueue.log := by
    rcases h.alertURLQueue_cases with heq | ⟨-, -, heq⟩
    · rw [heq]
    · rw [heq, Fifo.log_remove]
  constructor
  · simpa only [hclock] using hle
  · simpa only [hclock] using hge
  · simpa only [hclock] using hitems
  · simpa only [hclock] using hu.pending
  · simpa only [hclock, hlog] using hu.counted

/-- The head is the oldest hit of the queue. -/
theorem Ordered.head_le {u : AlertSystem} (ho : u.Ordered) {hit : HttpObject}
    (hpeek : u.store.alertURLQueue.peek = some hit) :
    hit.hittingTime ≤ u.store.clock ∧
      ∀ other ∈ u.store.alertURLQueue.items, hit.hittingTime ≤ other.hittingTime := by
  have hitems := Fifo.items_eq_of_peek hpeek
  have hsub := u.store.alertURLQueue.items_suffix.sublist
  have hmem : hit ∈ u.store.alertURLQueue.items := by
    rw [hitems]
    exact List.mem_cons_self
  have hpairs := ((List.pairwise_append.1 ho.captured).1).sublist hsub
  rw [hitems] at hpairs
  refine ⟨(ho.past hit (List.mem_append_left _ (hsub.subset hmem))).2, ?_⟩
  intro other hother
  rw [hitems] at hother
  rcases List.mem_cons.1 hother with rfl | hrest
  · exact le_rfl
  · exact ((List.pairwise_cons.1 hpairs).1 other hrest).2

theorem Recent.tracker {gap : Int32} (hgap : 5000 ≤ gap.toInt) {u : AlertSystem}
    (hu : u.Recent gap) (ho : u.Ordered) (hw : u.Window)
    (hset : u.tracker.alertGapInMillisecond = gap) {s : Store} {a : AlertTracker}
    (h : AlertTracker.Steps u.store u.tracker s a) :
    Recent gap { u with store := s, tracker := a } := by
  have hawake : a.horizon u.store.clock = u.store.clock →
      Recent gap { u with store := s, tracker := a } := by
    intro hclock
    have hold := hu.clock_le
    apply hu.tracker_of h
    · exact hclock.ge
    · omega
    · intro hit hhit
      have hmem : hit ∈ u.store.alertURLQueue.items := by
        rcases h.alertURLQueue_cases with heq | ⟨-, -, heq⟩
        · rwa [heq] at hhit
        · rw [heq] at hhit
          exact List.mem_of_mem_tail hhit
      have hrecent := hu.items hit hmem
      omega
  cases h with
  | waitEmpty hpc hq =>
      apply hu.tracker_of (.waitEmpty hpc hq)
      · simp only [AlertTracker.horizon, AlertTracker.goto]
        omega
      · simp only [AlertTracker.horizon, AlertTracker.goto]
        omega
      · simp [hq]
  | waitHead hit hpc hlast hage hwait =>
      have hsafe := hw.safe
      simp only [AlertTracker.Safe, hpc, hlast, Option.some.injEq, exists_eq_left'] at hsafe
      obtain ⟨hpast, hhead⟩ := ho.head_le hsafe
      have hwake : u.store.clock + u.tracker.headWait (u.store.clock - hit.hittingTime) =
          hit.hittingTime + gap.toInt - 100 := by
        rw [AlertTracker.headWait, hset]
        ring
      apply hu.tracker_of (.waitHead hit hpc hlast hage hwait)
      · simp only [AlertTracker.horizon, AlertTracker.goto]
        omega
      · simp only [AlertTracker.horizon, AlertTracker.goto]
        omega
      · intro other hother
        have hle := hhead other hother
        simp only [AlertTracker.horizon, AlertTracker.goto]
        omega
  | _ => exact hawake rfl

theorem run_recent {threshold gap : Int32} (hgap : 5000 ≤ gap.toInt) {clock : ℤ}
    {u : AlertSystem} {es : List AlertEvent}
    (h : timed.run (initial threshold gap clock) es = some u) : u.Recent gap := by
  have hinv := timed.run_invariant
    (fun u => u.Settled threshold gap ∧ u.Window ∧ u.Ordered ∧ u.Recent gap)
    (fun u e v => ?_) ⟨settled_initial threshold gap clock, window_initial threshold gap clock,
      ordered_initial threshold gap clock, recent_initial (by omega) threshold clock⟩ h
  · exact hinv.2.2.2
  · rintro ⟨hset, hw, ho, hu⟩ hs
    obtain ⟨htimely, hstep⟩ := machine.restrict_step_iff.1 hs
    have hsteps := step_cases hstep
    have hpos : 0 < u.tracker.alertGapInMillisecond.toInt := by
      rw [hset.gap_eq]
      omega
    refine ⟨hset.step hsteps, hw.step hpos hsteps, ho.step hsteps, ?_⟩
    cases hsteps with
    | tick d => exact hu.tick htimely
    | packet hr => exact hu.packet hr
    | callback hc => exact hu.callback ho hc
    | tracker ha => exact hu.tracker hgap ho hw hset.gap_eq ha

/-! ## The size of the queue -/

/-- The queue never holds more than its capacity, and an alert is made
for a size above the threshold. -/
structure Bounded (u : AlertSystem) : Prop where
  size : (u.store.alertURLQueue.size : ℤ) ≤ Int32.maxValue.toInt
  room : u.callback.pending ≠ [] → (u.store.alertURLQueue.size : ℤ) < Int32.maxValue.toInt
  read : ∀ n : ℕ, u.callback.pc = .testThreshold n ∨ u.callback.pc = .putAlert n →
    (n : ℤ) ≤ Int32.maxValue.toInt
  exceeded : ∀ n : ℕ, u.callback.pc = .putAlert n → u.tracker.threshold.toInt < n

theorem bounded_initial (threshold gap : Int32) (clock : ℤ) :
    (initial threshold gap clock).Bounded := by
  constructor <;> simp [initial, Store.initial, Callback.fresh, Callback.pending]
  decide

theorem Bounded.callback {u : AlertSystem} (hu : u.Bounded) {s : Store} {c : Callback}
    (h : Callback.Steps u.tracker.threshold u.store u.callback s c) :
    Bounded { u with store := s, callback := c } := by
  cases h with
  | putMostHits hit hpc hflag =>
      refine ⟨hu.size, fun _ => hu.room ?_, by simp, by simp⟩
      simp [Callback.pending, hpc]
  | putAlertURL hit hpc hflag =>
      have hroom := hu.room (by simp [Callback.pending, hpc])
      refine ⟨?_, by simp [Callback.pending], by simp, by simp⟩
      simp only [Fifo.size_put, Nat.cast_add, Nat.cast_one]
      omega
  | readSize hpc =>
      refine ⟨hu.size, by simp [Callback.pending], ?_, by simp⟩
      rintro n (hn | hn)
      · cases hn
        exact hu.size
      · cases hn
  | above n hpc hn =>
      refine ⟨hu.size, by simp [Callback.pending], ?_, ?_⟩
      · rintro m (hm | hm)
        · cases hm
        · cases hm
          exact hu.read n (Or.inl hpc)
      · intro m hm
        cases hm
        exact hn
  | _ =>
      exact ⟨hu.size, by simp [Callback.pending, Callback.caught], by simp [Callback.caught],
        by simp [Callback.caught]⟩

theorem Bounded.step {u v : AlertSystem} {e : AlertEvent} (hu : u.Bounded) (htimely : u.Timely e)
    (h : Steps u e v) : v.Bounded := by
  cases h with
  | tick d => exact ⟨hu.size, hu.room, hu.read, hu.exceeded⟩
  | packet hr =>
      obtain ⟨hidle, -, ⟨rfl, rfl⟩ | ⟨url, -, rfl, hpc⟩⟩ := Callback.receive_cases hr
      · exact hu
      · exact ⟨hu.size, fun _ => htimely, by simp [hpc], by simp [hpc]⟩
  | callback hc => exact hu.callback hc
  | @tracker s a ha =>
      have hle : (s.alertURLQueue.size : ℤ) ≤ u.store.alertURLQueue.size := by
        rcases ha.alertURLQueue_cases with heq | ⟨-, -, heq⟩
        · rw [heq]
        · rw [heq, Fifo.size_remove]
          omega
      refine ⟨hle.trans hu.size, fun hne => hle.trans_lt (hu.room hne), hu.read, ?_⟩
      simpa only [ha.settings_eq.1] using hu.exceeded

theorem run_bounded {threshold gap : Int32} {clock : ℤ} {u : AlertSystem} {es : List AlertEvent}
    (h : timed.run (initial threshold gap clock) es = some u) : u.Bounded := by
  refine timed.run_invariant Bounded (fun u e v hu hs => ?_) (bounded_initial threshold gap clock) h
  obtain ⟨htimely, hstep⟩ := machine.restrict_step_iff.1 hs
  exact hu.step htimely (step_cases hstep)

/-! ## Published alerts -/

/-- Whenever the callback publishes, more than `threshold` hits lie in the
alert period, and the alert counts at most these. -/
def AlertsInPeriod (threshold gap : Int32) : Prop :=
  ∀ (clock : ℤ) (es : List AlertEvent) (u v : AlertSystem) (alert : Alert),
    timed.run (initial threshold gap clock) es = some u → timed.step u .callback = some v →
    v.store.alertQueue.log = u.store.alertQueue.log ++ [alert] →
    threshold.toInt <
        inPeriod gap alert.alertTime (u.store.alertURLQueue.log ++ u.callback.pending) ∧
      alert.hitCount ≤
        inPeriod gap alert.alertTime (u.store.alertURLQueue.log ++ u.callback.pending)

/-- A callback step that publishes is the put of a high alert. -/
theorem publishes_cases {u v : AlertSystem} {alert : Alert} (h : timed.step u .callback = some v)
    (hlog : v.store.alertQueue.log = u.store.alertQueue.log ++ [alert]) :
    ∃ n : ℕ, u.callback.pc = .putAlert n ∧ alert = ⟨u.store.clock, n, true⟩ := by
  cases step_cases (machine.restrict_step_iff.1 h).2 with
  | callback hc =>
      rcases hc.alertQueue_cases with heq | ⟨n, hpc, heq⟩
      · have hlen := congrArg List.length hlog
        rw [heq, List.length_append, List.length_singleton] at hlen
        omega
      · refine ⟨n, hpc, ?_⟩
        rw [heq, Fifo.log_put, List.append_cancel_left_eq, List.singleton_inj] at hlog
        exact hlog.symm

theorem alertsInPeriod_of_long {threshold gap : Int32} (hgap : 5000 ≤ gap.toInt) :
    AlertsInPeriod threshold gap := by
  intro clock es u v alert hrun hstep hlog
  obtain ⟨n, hpc, rfl⟩ := publishes_cases hstep hlog
  have hcounted := (run_recent hgap hrun).counted n (Or.inr hpc)
  have hexceeded := (run_bounded hrun).exceeded n hpc
  rw [(run_settled (machine.run_of_restrict hrun)).threshold_eq] at hexceeded
  have hpending : u.callback.pending = [] := by simp [Callback.pending, hpc]
  rw [hpending, List.append_nil]
  constructor
  · change _ < ((inPeriod gap u.store.clock u.store.alertURLQueue.log : ℕ) : ℤ)
    omega
  · change (n : ℤ) ≤ ((inPeriod gap u.store.clock u.store.alertURLQueue.log : ℕ) : ℤ)
    omega

/-- No queue is larger than the largest threshold. -/
theorem alertsInPeriod_of_max (gap : Int32) : AlertsInPeriod Int32.maxValue gap := by
  intro clock es u v alert hrun hstep hlog
  obtain ⟨n, hpc, -⟩ := publishes_cases hstep hlog
  have hread := (run_bounded hrun).read n (Or.inr hpc)
  have hexceeded := (run_bounded hrun).exceeded n hpc
  rw [(run_settled (machine.run_of_restrict hrun)).threshold_eq] at hexceeded
  omega

/-! ## A hit that outlives a short period -/

theorem timed_step {u v w : AlertSystem} {e : AlertEvent} {es : List AlertEvent}
    (htimely : u.Timely e) (h : machine.step u e = some v) (hr : timed.run v es = some w) :
    timed.run u (e :: es) = some w :=
  timed.run_cons_iff.2 ⟨v, machine.restrict_step_iff.2 ⟨htimely, h⟩, hr⟩

theorem timed_callback {u v w : AlertSystem} {es : List AlertEvent}
    (h : machine.step u .callback = some v) (hr : timed.run v es = some w) :
    timed.run u (.callback :: es) = some w :=
  timed_step (e := .callback) trivial h hr

/-- A request up to the test of the threshold. -/
theorem timed_arrival {s : Store} (a : AlertTracker)
    (hroom : (s.alertURLQueue.size : ℤ) < Int32.maxValue.toInt) :
    timed.run ⟨s, Callback.fresh, a⟩ [.packet (.request []), .callback, .callback, .callback] =
      some ⟨Monitor.withHit s, ⟨.testThreshold (s.alertURLQueue.size + 1), false⟩, a⟩ := by
  apply timed_step (u := ⟨s, Callback.fresh, a⟩) (e := .packet (.request [])) hroom rfl
  apply timed_callback rfl
  apply timed_callback rfl
  apply timed_callback rfl
  rw [← Fifo.size_put s.alertURLQueue (s.newHit [])]
  rfl

theorem step_testThreshold {s : Store} {a : AlertTracker} {n : ℕ} (hn : a.threshold.toInt < n) :
    machine.step ⟨s, ⟨.testThreshold n, false⟩, a⟩ .callback =
      some ⟨s, ⟨.putAlert n, false⟩, a⟩ := by
  simp [machine, step, Callback.step, hn]

/-- The rest of the call, whether it publishes or not. -/
theorem timed_finish (s : Store) (a : AlertTracker) (n : ℕ) :
    ∃ es s', timed.run ⟨s, ⟨.testThreshold n, false⟩, a⟩ es = some ⟨s', Callback.fresh, a⟩ ∧
      s'.clock = s.clock ∧ s'.alertURLQueue = s.alertURLQueue := by
  by_cases hn : a.threshold.toInt < n
  · refine ⟨[.callback, .callback, .callback],
      { s with alertQueue := s.alertQueue.put ⟨s.clock, n, true⟩, stats := ⟨s.stats.hitCount + 1⟩ },
      ?_, rfl, rfl⟩
    apply timed_callback (step_testThreshold hn)
    apply timed_callback rfl
    exact timed_callback rfl rfl
  · have hbelow : machine.step ⟨s, ⟨.testThreshold n, false⟩, a⟩ .callback =
        some ⟨s, ⟨.updateStats, false⟩, a⟩ := by
      simp [machine, step, Callback.step, hn]
    refine ⟨[.callback, .callback], { s with stats := ⟨s.stats.hitCount + 1⟩ }, ?_, rfl, rfl⟩
    apply timed_callback hbelow
    exact timed_callback rfl rfl

/-- One hit captured at the start of a five second sleep of the tracker,
and `more` ones at its end. -/
structure Stale (more : ℕ) (s : Store) : Prop where
  clock : s.clock = 5000
  items : s.alertURLQueue.items = s.alertURLQueue.log
  hits : ∃ first later, s.alertURLQueue.log = first :: later ∧ first.hittingTime = 0 ∧
    later.length = more

theorem Stale.size_eq {more : ℕ} {s : Store} (h : Stale more s) :
    s.alertURLQueue.size = more + 1 := by
  obtain ⟨first, later, hlog, -, hlen⟩ := h.hits
  rw [Fifo.size, h.items, hlog, List.length_cons, hlen]

theorem Stale.withHit {more : ℕ} {s s' : Store} (h : Stale more s) (hclock : s'.clock = s.clock)
    (hqueue : s'.alertURLQueue = (Monitor.withHit s).alertURLQueue) : Stale (more + 1) s' := by
  obtain ⟨first, later, hlog, hfirst, hlen⟩ := h.hits
  have hput : s'.alertURLQueue = s.alertURLQueue.put (s.newHit []) := hqueue
  refine ⟨hclock.trans h.clock, ?_, first, later ++ [s.newHit []], ?_, hfirst, ?_⟩
  · rw [hput, Fifo.items_put, Fifo.log_put, h.items]
  · rw [hput, Fifo.log_put, hlog, List.cons_append]
  · rw [List.length_append, List.length_singleton, hlen]

/-- The tracker in the sleep that it starts at time 0. -/
def asleep (threshold gap : Int32) : AlertTracker :=
  (AlertTracker.fresh threshold gap).goto (.emptySleep 5000)

theorem stale_start (threshold gap : Int32) :
    ∃ es s, timed.run (initial threshold gap 0) es =
      some ⟨s, Callback.fresh, asleep threshold gap⟩ ∧ Stale 0 s := by
  have hsleep : timed.run (initial threshold gap 0) [.tracker] =
      some ⟨Store.initial 0, Callback.fresh, asleep threshold gap⟩ := rfl
  have harrive := timed_arrival (s := Store.initial 0) (asleep threshold gap) (by decide)
  obtain ⟨es, s, hfinish, hclock, hqueue⟩ :=
    timed_finish (Monitor.withHit (Store.initial 0)) (asleep threshold gap) 1
  have hzero : s.clock = 0 := hclock
  have hwait : timed.run ⟨s, Callback.fresh, asleep threshold gap⟩ [.tick 5000] =
      some ⟨s.tick 5000, Callback.fresh, asleep threshold gap⟩ := by
    apply timed_step (u := ⟨s, Callback.fresh, asleep threshold gap⟩) (e := .tick 5000) ?_ rfl rfl
    refine ⟨rfl, ?_⟩
    change s.clock + 5000 ≤ 5000
    omega
  refine ⟨_, s.tick 5000, timed.run_append_iff.2 ⟨_, hsleep, timed.run_append_iff.2 ⟨_, harrive,
    timed.run_append_iff.2 ⟨_, hfinish, hwait⟩⟩⟩, ?_, ?_, (Store.initial 0).newHit [], [], ?_, rfl,
      rfl⟩
  · change s.clock + 5000 = 5000
    omega
  · change s.alertURLQueue.items = s.alertURLQueue.log
    rw [hqueue]
    rfl
  · change s.alertURLQueue.log = _
    rw [hqueue]
    rfl

theorem stale_more (threshold gap : Int32) (more : ℕ) (hroom : (more : ℤ) < Int32.maxValue.toInt) :
    ∃ es s, timed.run (initial threshold gap 0) es =
      some ⟨s, Callback.fresh, asleep threshold gap⟩ ∧ Stale more s := by
  induction more with
  | zero => exact stale_start threshold gap
  | succ more ih =>
      obtain ⟨es, s, hrun, hs⟩ := ih (by omega)
      have hsize : (s.alertURLQueue.size : ℤ) < Int32.maxValue.toInt := by
        rw [hs.size_eq]
        exact hroom
      have harrive := timed_arrival (asleep threshold gap) hsize
      obtain ⟨es', s', hfinish, hclock, hqueue⟩ := timed_finish (Monitor.withHit s)
        (asleep threshold gap) (s.alertURLQueue.size + 1)
      exact ⟨_, s', timed.run_append_iff.2 ⟨_, hrun, timed.run_append_iff.2 ⟨_, harrive, hfinish⟩⟩,
        hs.withHit hclock hqueue⟩

/-- All hits but the first can lie in a period of less than five seconds. -/
theorem Stale.inPeriod_le {more : ℕ} {s : Store} (h : Stale more s) {gap : Int32}
    (hgap : gap.toInt < 5000) : inPeriod gap s.clock s.alertURLQueue.log ≤ more := by
  obtain ⟨first, later, hlog, hfirst, rfl⟩ := h.hits
  have hstale : ¬ (s.clock - gap.toInt ≤ first.hittingTime ∧ first.hittingTime ≤ s.clock) := by
    rw [h.clock, hfirst]
    omega
  calc
    inPeriod gap s.clock s.alertURLQueue.log = inPeriod gap s.clock later := by
      rw [hlog]
      exact List.countP_cons_of_neg fun hyoung => hstale (of_decide_eq_true hyoung)
    _ ≤ later.length := List.countP_le_length

/-- As many hits as exceed the threshold are queued, the last ones five
seconds after the first. -/
theorem not_alertsInPeriod_of_short {threshold gap : Int32} (hgap : gap.toInt < 5000)
    (hthreshold : threshold ≠ Int32.maxValue) : ¬ AlertsInPeriod threshold gap := by
  intro hclaim
  have hmax : threshold.toInt < Int32.maxValue.toInt := by
    apply lt_of_le_of_ne (threshold.toInt_le)
    exact fun heq => hthreshold (Int32.toInt_inj.1 heq)
  obtain ⟨more, hmore, hroom⟩ : ∃ more : ℕ, threshold.toInt < more + 2 ∧
      ((more + 1 : ℕ) : ℤ) < Int32.maxValue.toInt := by
    have hlarge : (1 : ℤ) < Int32.maxValue.toInt := by decide
    refine ⟨(threshold.toInt - 1).toNat, ?_, ?_⟩ <;> omega
  obtain ⟨es, s, hrun, hs⟩ := stale_more threshold gap more (by omega)
  have hsize : s.alertURLQueue.size = more + 1 := hs.size_eq
  have harrive := timed_arrival (asleep threshold gap) (hsize ▸ hroom)
  have hexceeded : (asleep threshold gap).threshold.toInt < (s.alertURLQueue.size + 1 : ℕ) := by
    change threshold.toInt < _
    omega
  have hput : timed.run ⟨Monitor.withHit s, ⟨.testThreshold (s.alertURLQueue.size + 1), false⟩,
      asleep threshold gap⟩ [.callback] = some ⟨Monitor.withHit s,
        ⟨.putAlert (s.alertURLQueue.size + 1), false⟩, asleep threshold gap⟩ :=
    timed_callback (step_testThreshold hexceeded) rfl
  have hbefore := timed.run_append_iff.2 ⟨_, hrun, timed.run_append_iff.2 ⟨_, harrive, hput⟩⟩
  have hcount : ((s.alertURLQueue.size + 1 : ℕ) : ℤ) ≤
      (inPeriod gap s.clock ((Monitor.withHit s).alertURLQueue.log ++ []) : ℕ) :=
    (hclaim 0 _ _ _ ⟨s.clock, (s.alertURLQueue.size + 1 : ℕ), true⟩ hbefore
      (machine.restrict_step_iff.2 ⟨trivial, rfl⟩) rfl).2
  have hs' : Stale (more + 1) (Monitor.withHit s) := hs.withHit rfl rfl
  have hlate : inPeriod gap s.clock (Monitor.withHit s).alertURLQueue.log ≤ more + 1 :=
    hs'.inPeriod_le hgap
  rw [List.append_nil] at hcount
  omega

/-- Alerts count only hits of the alert period exactly if that lasts at
least as long as the fixed sleep, or if no size exceeds the threshold. -/
theorem alertsInPeriod_iff (threshold gap : Int32) :
    AlertsInPeriod threshold gap ↔ 5000 ≤ gap.toInt ∨ threshold = Int32.maxValue := by
  constructor
  · intro hclaim
    by_contra hnot
    rw [not_or, not_le] at hnot
    exact not_alertsInPeriod_of_short hnot.1 hnot.2 hclaim
  · rintro (hgap | rfl)
    · exact alertsInPeriod_of_long hgap
    · exact alertsInPeriod_of_max gap

/-- With a period of one second, the second of two hits four seconds
apart raises an alert of two hits. -/
theorem alertsInPeriod_false_second :
    ¬ ∀ threshold gap : Int32, 1000 ≤ gap.toInt → AlertsInPeriod threshold gap := by
  intro hclaim
  have hrun : (timed.run (initial 1 1000 0) [.tracker, .tick 100, .packet (.request []),
      .callback, .callback, .callback, .callback, .callback, .tick 4000, .packet (.request []),
      .callback, .callback, .callback, .callback]).any (fun u =>
        (timed.step u .callback).any (fun v =>
          decide (u.callback.pending = [] ∧ inPeriod 1000 4100 u.store.alertURLQueue.log = 1 ∧
            v.store.alertQueue.log = u.store.alertQueue.log ++ [⟨4100, 2, true⟩]))) = true := by
    decide
  obtain ⟨u, hu, htest⟩ := (Option.any_eq_true _ _).1 hrun
  obtain ⟨v, hv, hfacts⟩ := (Option.any_eq_true _ _).1 htest
  obtain ⟨hpending, hcount, hlog⟩ := of_decide_eq_true hfacts
  have hle := (hclaim 1 1000 (by decide) 0 _ u v _ hu hv hlog).2
  rw [hpending, List.append_nil, hcount] at hle
  exact absurd hle (by decide)

end AlertSystem

end HttpLogMonitor
