import HttpLogMonitor.TimerReplacement

/-!
# Empty reports

A run publishes an empty list if it finds the queue nonempty, and empty
again before it has taken anything. That takes another run, so it can happen
exactly if the report period is changed during the session.
-/

namespace HttpLogMonitor

namespace MostHitsCalculator

theorem removeMinimum_ne_nil (h : Heap) {list : List HttpObject} (hne : list ≠ []) :
    removeMinimum h list ≠ [] := by
  unfold removeMinimum
  split_ifs with hshort
  · exact hne
  · split
    · exact hne
    · refine List.ne_nil_of_length_pos ?_
      rw [List.length_eraseP]
      split <;> omega

theorem report_ne_nil (h : Heap) {iteration : List HttpObject} (hne : iteration ≠ []) :
    report h iteration ≠ [] := by
  have hsorted := List.perm_insertionSort (HttpObject.NotAfter h) (topFive h iteration)
  intro hnil
  rw [report] at hnil
  rw [hnil] at hsorted
  have harrived : [] ++ iteration ≠ [] := hne
  exact Selection.select_ne_nil (fun _ => removeMinimum_ne_nil h) harrived hsorted.symm.eq_nil

end MostHitsCalculator

namespace CalculatorRun

/-- Unless another run takes the hit that the run has seen, it has one to
report. -/
def Filled (q : Fifo HttpObject) (r : CalculatorRun) : Prop :=
  match r.pc with
  | .loopTest => r.mapping.values ≠ [] ∨ q.items ≠ []
  | .select => r.mapping.values ≠ []
  | .putTop topFive => topFive ≠ []
  | _ => True

theorem Filled.put {q : Fifo HttpObject} {r : CalculatorRun} (h : r.Filled q) (hit : HttpObject) :
    r.Filled (q.put hit) := by
  unfold Filled at h ⊢
  cases hpc : r.pc <;> simp only [hpc] at h ⊢
  case loopTest => exact Or.inr (by simp)
  all_goals exact h

theorem values_countHit (h : Heap) (mapping : HitCountMapping) (thisHit : HttpObject) :
    (MostHitsCalculator.countHit h mapping thisHit).2.values ≠ [] := by
  unfold MostHitsCalculator.countHit
  split <;> simp [HitCountMapping.values, AList.insert]

theorem Steps.filled {s s' : Store} {r r' : CalculatorRun} (h : Steps s r s' r')
    (hfilled : r.Filled s.mostHitsURLQueue) : r'.Filled s'.mostHitsURLQueue := by
  cases h with
  | begin hpc hq => exact Or.inr hq
  | leave hpc hq =>
      simp only [Filled, hpc] at hfilled
      exact hfilled.resolve_right fun hne => hne hq
  | count thisHit hpc => exact Or.inl (values_countHit _ _ _)
  | select iteration hpc hiter =>
      simp only [Filled, hpc] at hfilled
      refine MostHitsCalculator.report_ne_nil _ fun hnil => hfilled ?_
      rw [hnil] at hiter
      exact hiter.nil_eq.symm
  | _ => trivial

/-- A run publishes what it has ready. -/
theorem Steps.nonempty_reports {s s' : Store} {r r' : CalculatorRun} (h : Steps s r s' r')
    (hfilled : r.Filled s.mostHitsURLQueue) (hall : ∀ L ∈ s.mostHitsTopURL.log, L ≠ []) :
    ∀ L ∈ s'.mostHitsTopURL.log, L ≠ [] := by
  cases h with
  | putTop topFive hpc =>
      simp only [Filled, hpc] at hfilled
      exact Threads.forall_concat hall hfilled
  | _ => exact hall

end CalculatorRun

namespace Monitor

variable {PcapIf : Type} [DecidableEq PcapIf]

omit [DecidableEq PcapIf] in
def NoEmptyReport (u : Monitor PcapIf) : Prop := ∀ L ∈ u.store.mostHitsTopURL.log, L ≠ []

structure Filling (k : Int32) (u : Monitor PcapIf) : Prop where
  one : u.OneTimer k
  runs : ∀ t ∈ u.timers, t.calculator.Filled u.store.mostHitsURLQueue
  reports : u.NoEmptyReport

omit [DecidableEq PcapIf] in
theorem filling_initial {k : Int32} {preferences : List (UserPreferences PcapIf)}
    (h : ∀ p ∈ preferences, p.timeGapInMillisecond = k) (threshold : Int32) (clock : ℤ) :
    (initial preferences threshold clock).Filling k :=
  ⟨oneTimer_initial h threshold clock, by simp [initial],
    by simp [NoEmptyReport, initial, Store.initial, Fifo.empty]⟩

omit [DecidableEq PcapIf] in
theorem filled_perform {q : Fifo HttpObject} {timers : List MostHitsTimer}
    (h : ∀ t ∈ timers, t.calculator.Filled q) (clock : ℤ) (c : SnifferCommand PcapIf) :
    ∀ t ∈ MostHitsTimer.perform clock timers c, t.calculator.Filled q := by
  cases c with
  | cancelTimer =>
      have hcancel : ∀ t : MostHitsTimer, t.calculator.Filled q →
          ({ t with cancelled := true } : MostHitsTimer).calculator.Filled q := fun _ ht => ht
      exact Threads.forall_modifyLast hcancel h
  | startTimer period => exact Threads.forall_concat h trivial
  | _ => exact h

theorem Filling.step {k : Int32} {u v : Monitor PcapIf} {e : MonitorEvent}
    (hk : 0 < k.toInt) (h : u.Filling k) (hs : Steps u e v) : v.Filling k := by
  have hone := h.one.step hk hs
  cases hs with
  | tick d => exact ⟨hone, h.runs, h.reports⟩
  | enter heq => exact ⟨hone, h.runs, h.reports⟩
  | quiet hsniffer => exact ⟨hone, h.runs, h.reports⟩
  | command hsniffer => exact ⟨hone, filled_perform h.runs _ _, h.reports⟩
  | packet heq hr =>
      obtain ⟨-, -, ⟨rfl, -⟩ | ⟨url, -, rfl, -⟩⟩ := Callback.receive_cases hr
      · exact ⟨hone, h.runs, h.reports⟩
      · exact ⟨hone, h.runs, h.reports⟩
  | capture heq hc =>
      cases hc with
      | putMostHits hit hpc hflag => exact ⟨hone, fun t ht => (h.runs t ht).put hit, h.reports⟩
      | _ => exact ⟨hone, h.runs, h.reports⟩
  | fire heq hdone hcancelled hnext =>
      refine ⟨hone, ?_, h.reports⟩
      have hruns := h.runs
      rw [heq] at hruns
      exact Threads.forall_replace hruns trivial
  | @calculator pre post t s r iteration heq hr =>
      have hfilled := h.runs t (by simp [heq])
      refine ⟨hone, ?_, hr.nonempty_reports hfilled h.reports⟩
      -- The run is the only one.
      obtain ⟨-, hnil⟩ | ⟨-, b, hb⟩ := hone.timer
      · simp at hnil
      · obtain ⟨rfl, rfl, rfl⟩ := Threads.eq_of_append_cons hb
        intro t' ht'
        obtain rfl := List.mem_singleton.1 ht'
        exact hr.filled hfilled
  | tracker heq ha =>
      cases ha
      all_goals exact ⟨hone, h.runs, h.reports⟩

theorem run_filling {k : Int32} {preferences : List (UserPreferences PcapIf)}
    (hk : 0 < k.toInt) (hset : ∀ p ∈ preferences, p.timeGapInMillisecond = k)
    {threshold : Int32} {clock : ℤ} {es : List MonitorEvent} {u : Monitor PcapIf}
    (h : machine.run (initial preferences threshold clock) es = some u) : u.Filling k :=
  machine.run_invariant (Filling k) (fun _ _ _ hu hs => hu.step hk (step_cases hs))
    (filling_initial hset threshold clock) h

/-! ## Two timers -/

/-- A run that has just been started and finds the queue not empty. -/
theorem reaches_loopTest {u : Monitor PcapIf} (pre post : List MostHitsTimer) {t : MostHitsTimer}
    (heq : u.timers = pre ++ t :: post) (hdone : t.calculator.pc = .done)
    (hcancelled : t.cancelled = false) (hnext : t.next ≤ u.store.clock)
    (hq : u.store.mostHitsURLQueue.items ≠ []) :
    machine.Reaches u { u with timers := pre ++
      { t with
        next := t.next + t.period.toInt
        calculator := CalculatorRun.fresh.goto .loopTest } :: post } := by
  have hbegin : CalculatorRun.step [] u.store CalculatorRun.fresh =
      some (u.store, CalculatorRun.fresh.goto .loopTest) := by
    simp [CalculatorRun.step, CalculatorRun.fresh, Fifo.isEmpty_iff, hq]
  have hfired := reaches_fire pre post heq hdone hcancelled hnext
  have hbegun := hfired.trans (reaches_calculator pre post rfl hbegin)
  exact hbegun

/-- A run that has counted nothing publishes the empty list when it finds
the queue empty. -/
theorem reaches_emptyReport {u : Monitor PcapIf} (pre post : List MostHitsTimer)
    {t : MostHitsTimer} (heq : u.timers = pre ++ t :: post)
    (hrun : t.calculator = CalculatorRun.fresh.goto .loopTest)
    (hq : u.store.mostHitsURLQueue.items = []) :
    machine.Reaches u { u with
      store := { u.store with mostHitsTopURL := u.store.mostHitsTopURL.put [] }
      timers := pre ++ { t with calculator := CalculatorRun.fresh.goto .done } :: post } := by
  have hleave : CalculatorRun.step [] u.store t.calculator =
      some (u.store, CalculatorRun.fresh.goto .select) := by
    simp [hrun, CalculatorRun.step, CalculatorRun.goto, Fifo.isEmpty_iff, hq]
  have hselect : CalculatorRun.step [] u.store (CalculatorRun.fresh.goto .select) =
      some (u.store, CalculatorRun.fresh.goto (.putTop [])) := rfl
  have hput : CalculatorRun.step [] u.store (CalculatorRun.fresh.goto (.putTop [])) =
      some ({ u.store with mostHitsTopURL := u.store.mostHitsTopURL.put [] },
        CalculatorRun.fresh.goto .done) := rfl
  have hleft := reaches_calculator pre post heq hleave
  have hselected := hleft.trans (reaches_calculator pre post rfl hselect)
  have hpublished := hselected.trans (reaches_calculator pre post rfl hput)
  exact hpublished

/-- The old run has found the queue nonempty when the change comes. The
first run of the new timer takes the only hit, and the old one finds
nothing to count. -/
theorem exists_emptyReport {pre rest : List (UserPreferences PcapIf)}
    {p q : UserPreferences PcapIf} (threshold : Int32) (clock : ℤ)
    (hpos : PositiveGaps (pre ++ p :: q :: rest))
    (hne : p.timeGapInMillisecond ≠ q.timeGapInMillisecond) :
    ∃ es u, machine.run (initial (pre ++ p :: q :: rest) threshold clock) es = some u ∧
      ¬ u.NoEmptyReport := by
  obtain ⟨v, hstart, hprefs, hv⟩ := @reaches_started _ _ pre (q :: rest) p threshold clock hpos
  have hclock : v.store.clock = clock := by
    rw [hv.store_eq]
    rfl
  have hitems := hv.queued.1
  have hhit := reaches_hit hv.runLoops_eq
  have hold := reaches_loopTest (u := { v with
      store := withHit v.store
      runLoops := [⟨p.device, ⟨.readSize, false⟩⟩] }) [] [] hv.timers_eq rfl rfl
    (le_of_eq hclock.symm) (by simp [hitems])
  obtain ⟨w, hchange, hw⟩ := reaches_changed (u := { v with
      store := withHit v.store
      runLoops := [⟨p.device, ⟨.readSize, false⟩⟩]
      timers := [{ MostHitsTimer.fresh p.timeGapInMillisecond clock with
        next := clock + p.timeGapInMillisecond.toInt
        calculator := CalculatorRun.fresh.goto .loopTest }] })
    ⟨hv.resting.pc_eq, hv.resting.queue_eq⟩ hv.vars_eq hprefs (hpos q (by simp)).1
  have htimers := hw.two_timers hv.vars_eq hne rfl
  have hlater : w.store.mostHitsURLQueue.items = [v.store.newHit []] := by
    rw [hw.store_eq]
    exact hitems
  have hclock' : w.store.clock = (withHit v.store).clock := by
    rw [hw.store_eq]
  have hnew := reaches_take [_] [] htimers rfl rfl (le_of_eq hclock'.symm) (by simp [hlater])
  have htake : CalculatorRun.step [] w.store (CalculatorRun.fresh.goto .take) =
      some ({ w.store with mostHitsURLQueue := w.store.mostHitsURLQueue.remove },
        CalculatorRun.fresh.goto (.count (v.store.newHit []))) := by
    simp [CalculatorRun.step, CalculatorRun.goto, Fifo.peek, hlater]
  have htaken := hnew.trans (reaches_calculator [_] [] rfl htake)
  have hempty := htaken.trans (reaches_emptyReport [] [_] rfl rfl (by simp [hlater]))
  obtain ⟨es, hes⟩ := hstart.trans (hhit.trans (hold.trans (hchange.trans hempty)))
  refine ⟨es, _, hes, fun hnone => ?_⟩
  exact hnone [] (by simp) rfl

/-- No report is empty: exactly when the report period is the same
throughout. -/
theorem noEmptyReport_iff_same_period (preferences : List (UserPreferences PcapIf))
    (threshold : Int32) (clock : ℤ) (hpos : PositiveGaps preferences) :
    (∀ es u, machine.run (initial preferences threshold clock) es = some u → u.NoEmptyReport) ↔
      ∀ p ∈ preferences, ∀ q ∈ preferences,
        p.timeGapInMillisecond = q.timeGapInMillisecond := by
  apply forall_reachable_iff (Q := fun k => 0 < k.toInt) 1 (by decide)
  · exact fun p hp => (hpos p hp).1
  · rintro pre p q rest rfl hne
    exact exists_emptyReport threshold clock hpos hne
  · intro k hk hall es u hes
    exact (run_filling hk hall hes).reports

theorem noEmptyReport_iff_same_period_new_device :
    PositiveGaps [(⟨10, 0, 10000, 120000⟩ : UserPreferences ℕ), ⟨20, 1, 10000, 120000⟩] ∧
      ∀ es u, machine.run (initial [(⟨10, 0, 10000, 120000⟩ : UserPreferences ℕ),
        ⟨20, 1, 10000, 120000⟩] 10 0) es = some u → u.NoEmptyReport := by
  have hpos : PositiveGaps
      [(⟨10, 0, 10000, 120000⟩ : UserPreferences ℕ), ⟨20, 1, 10000, 120000⟩] := by
    unfold PositiveGaps
    decide
  exact ⟨hpos, (noEmptyReport_iff_same_period _ 10 0 hpos).2 (by decide)⟩

end Monitor

end HttpLogMonitor
