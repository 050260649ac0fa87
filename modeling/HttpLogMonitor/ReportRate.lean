import HttpLogMonitor.Quiescence

/-!
# The rate of reports

A timer started with `scheduleAtFixedRate` makes up for runs that are late,
but never runs ahead of its period, cancelled or not. So the number of
reports is bounded by the time that has passed, timer by timer.
-/

namespace HttpLogMonitor

open Threads

theorem CalculatorRun.Steps.published_le {s s' : Store} {r r' : CalculatorRun}
    (h : Steps s r s' r') :
    (s'.mostHitsTopURL.log.length + if r'.pc = .done then 0 else 1) ≤
      s.mostHitsTopURL.log.length + if r.pc = .done then 0 else 1 := by
  cases h with
  | putTop topFive hpc => simp [goto, hpc]
  | _ => simp_all [goto]

namespace MostHitsTimer

def running (t : MostHitsTimer) : ℕ := if t.calculator.pc = .done then 0 else 1

/-- The most runs the timer can have started. -/
def started (t : MostHitsTimer) : ℕ := ((t.next - t.start) / t.period.toInt).toNat

/-- The most runs that the period allows since the timer was created. -/
def allowed (clock : ℤ) (t : MostHitsTimer) : ℕ := ((clock - t.start) / t.period.toInt).toNat + 1

/-- The next run is due neither before the timer was created nor later
than a period from now. -/
structure Paced (clock : ℤ) (t : MostHitsTimer) : Prop where
  legal : 0 < t.period.toInt
  start_le : t.start ≤ t.next
  next_le : t.next ≤ clock + t.period.toInt

theorem Paced.started_fire {clock : ℤ} {t : MostHitsTimer} (h : t.Paced clock)
    (r : CalculatorRun) :
    started { t with next := t.next + t.period.toInt, calculator := r } = t.started + 1 := by
  have hshift : (t.next + t.period.toInt - t.start) / t.period.toInt =
      (t.next - t.start) / t.period.toInt + 1 := by
    rw [show t.next + t.period.toInt - t.start = (t.next - t.start) + 1 * t.period.toInt by ring,
      Int.add_mul_ediv_right _ _ h.legal.ne']
  have hnonneg : 0 ≤ (t.next - t.start) / t.period.toInt :=
    Int.ediv_nonneg (by have := h.start_le; omega) h.legal.le
  simp only [started, hshift]
  omega

theorem Paced.started_le {clock : ℤ} {t : MostHitsTimer} (h : t.Paced clock) :
    t.started ≤ t.allowed clock := by
  have hnext := h.next_le
  have hle : (t.next - t.start) / t.period.toInt ≤ (clock - t.start) / t.period.toInt + 1 :=
    calc
      (t.next - t.start) / t.period.toInt ≤
          (clock - t.start + 1 * t.period.toInt) / t.period.toInt :=
        Int.ediv_le_ediv h.legal (by omega)
      _ = (clock - t.start) / t.period.toInt + 1 := Int.add_mul_ediv_right _ _ h.legal.ne'
  unfold started allowed
  omega

theorem Paced.later {clock later : ℤ} {t : MostHitsTimer} (h : t.Paced clock)
    (hle : clock ≤ later) : t.Paced later :=
  ⟨h.legal, h.start_le, h.next_le.trans (by omega)⟩

end MostHitsTimer

namespace Monitor

variable {PcapIf : Type}

structure Paced (u : Monitor PcapIf) : Prop where
  timers : ∀ t ∈ u.timers, t.Paced u.store.clock
  reports : u.store.mostHitsTopURL.log.length + work MostHitsTimer.running u.timers ≤
    work MostHitsTimer.started u.timers

variable [DecidableEq PcapIf]

omit [DecidableEq PcapIf] in
theorem paced_initial (preferences : List (UserPreferences PcapIf)) (threshold : Int32)
    (clock : ℤ) : (initial preferences threshold clock).Paced :=
  ⟨fun _ ht => (List.not_mem_nil ht).elim, Nat.le_refl 0⟩

omit [DecidableEq PcapIf] in
theorem Paced.perform {u : Monitor PcapIf} (h : u.Paced) {c : SnifferCommand PcapIf}
    (hc : ∀ period, c = .startTimer period → 0 < period.toInt) : (perform u c).Paced := by
  obtain ⟨htimers, hreports⟩ := h
  cases c with
  | cancelTimer =>
      have hrunning := work_modifyLast (f := MostHitsTimer.running)
        (m := fun t => { t with cancelled := true }) (fun _ => rfl) u.timers
      have hstarted := work_modifyLast (f := MostHitsTimer.started)
        (m := fun t => { t with cancelled := true }) (fun _ => rfl) u.timers
      refine ⟨forall_modifyLast (P := MostHitsTimer.Paced u.store.clock)
        (f := fun t => { t with cancelled := true })
        (fun _ ht => ⟨ht.legal, ht.start_le, ht.next_le⟩) htimers, ?_⟩
      simpa only [Monitor.perform, MostHitsTimer.perform, hrunning, hstarted] using hreports
  | startTimer period =>
      have hpos := hc period rfl
      have hpaced : (MostHitsTimer.fresh period u.store.clock).Paced u.store.clock :=
        ⟨hpos, le_refl _, Int.le_add_of_nonneg_right hpos.le⟩
      refine ⟨forall_concat htimers hpaced, ?_⟩
      have hrunning : (MostHitsTimer.fresh period u.store.clock).running = 0 := rfl
      simp only [Monitor.perform, MostHitsTimer.perform, work_append, work_cons, work_nil, hrunning]
      omega
  | _ => exact ⟨htimers, hreports⟩

theorem Paced.step {u v : Monitor PcapIf} {e : MonitorEvent} (h : u.Paced) (hs : Steps u e v) :
    v.Paced := by
  obtain ⟨htimers, hreports⟩ := h
  cases hs with
  | tick d =>
      have hle : u.store.clock ≤ (u.store.tick d).clock := Int.le.intro d rfl
      exact ⟨fun t ht => (htimers t ht).later hle, hreports⟩
  | @command s c hs =>
      have hsniffer : Paced { u with sniffer := s } := ⟨htimers, hreports⟩
      exact hsniffer.perform fun period hperiod => (hperiod ▸ hs).period_pos
  | packet heq hr =>
      obtain ⟨-, -, ⟨rfl, -⟩ | ⟨url, -, rfl, -⟩⟩ := Callback.receive_cases hr <;>
        exact ⟨htimers, hreports⟩
  | capture heq hc => cases hc <;> exact ⟨htimers, hreports⟩
  | @fire pre post t heq hdone hcancelled hnext =>
      have ht := htimers t (by simp [heq])
      have hpaced : MostHitsTimer.Paced u.store.clock
          { t with next := t.next + t.period.toInt, calculator := CalculatorRun.fresh } := by
        refine ⟨ht.legal, ht.start_le.trans (Int.le_add_of_nonneg_right ht.legal.le), ?_⟩
        exact Int.add_le_add_right hnext _
      refine ⟨forall_replace (heq ▸ htimers) hpaced, ?_⟩
      have hrest : t.running = 0 := if_pos hdone
      have hrunning : MostHitsTimer.running
          { t with next := t.next + t.period.toInt, calculator := CalculatorRun.fresh } = 1 := rfl
      simp only [heq, work_append, work_cons, ht.started_fire, hrest, hrunning] at hreports ⊢
      omega
  | @calculator pre post t s r iteration heq hr =>
      have ht := htimers t (by simp [heq])
      have hpublished := hr.published_le
      obtain ⟨-, hclock⟩ := hr.alertURLQueue_eq
      have hstarted : MostHitsTimer.started { t with calculator := r } = t.started := rfl
      refine ⟨?_, ?_⟩
      · have hpaced : MostHitsTimer.Paced u.store.clock { t with calculator := r } :=
          ⟨ht.legal, ht.start_le, ht.next_le⟩
        simp only [hclock]
        exact forall_replace (heq ▸ htimers) hpaced
      · simp only [heq, work_append, work_cons, hstarted, MostHitsTimer.running] at hreports ⊢
        omega
  | tracker heq ha => cases ha <;> exact ⟨htimers, hreports⟩
  | _ => exact ⟨htimers, hreports⟩

/-- In every state of every session there are at most as many reports as
the timers ever started, each since its own start, allow. -/
theorem reports_paced (preferences : List (UserPreferences PcapIf)) (threshold : Int32) (clock : ℤ)
    (es : List MonitorEvent) (u : Monitor PcapIf)
    (h : machine.run (initial preferences threshold clock) es = some u) :
    u.store.mostHitsTopURL.log.length ≤ work (MostHitsTimer.allowed u.store.clock) u.timers := by
  have hu := machine.run_invariant Paced (fun _ _ _ hu hs => hu.step (step_cases hs))
    (paced_initial preferences threshold clock) h
  calc
    u.store.mostHitsTopURL.log.length ≤ work MostHitsTimer.started u.timers :=
      (Nat.le_add_right _ _).trans hu.reports
    _ ≤ work (MostHitsTimer.allowed u.store.clock) u.timers :=
      work_le fun t ht => (hu.timers t ht).started_le

def secondPeriod : List (UserPreferences ℕ) := [⟨20, 0, 10000, 120000⟩, ⟨20, 0, 1000, 120000⟩]

/-- The first run finds nothing, and the second, ten seconds later, a hit.
Then a timer with a tenth of the period takes over. -/
def secondRunEvents : List MonitorEvent :=
  List.flatten [[.enter], List.replicate 8 .sniffer, [.fire 0, .calculator 0 []],
    [.packet 0 (.request []), .capture 0, .tick 10000, .fire 0],
    List.replicate 5 (.calculator 0 []), [.calculator 0 [⟨0, [], 0⟩], .calculator 0 []],
    [.enter], List.replicate 7 .sniffer]

theorem reports_paced_secondRun : ∃ u,
    machine.run (initial secondPeriod 10 0) secondRunEvents = some u ∧
      u.store.mostHitsTopURL.log.length = 1 ∧
      u.timers.map (MostHitsTimer.allowed u.store.clock) = [2, 1] ∧
      u.store.mostHitsTopURL.log.length ≤ work (MostHitsTimer.allowed u.store.clock) u.timers := by
  have hrun : (machine.run (initial secondPeriod 10 0) secondRunEvents).any (fun u =>
      decide (u.store.mostHitsTopURL.log.length = 1 ∧
        u.timers.map (MostHitsTimer.allowed u.store.clock) = [2, 1])) = true := by
    decide +kernel
  obtain ⟨u, hu, htest⟩ := (Option.any_eq_true _ _).1 hrun
  obtain ⟨hlog, hallowed⟩ := of_decide_eq_true htest
  exact ⟨u, hu, hlog, hallowed, reports_paced secondPeriod 10 0 secondRunEvents u hu⟩

end Monitor

end HttpLogMonitor
