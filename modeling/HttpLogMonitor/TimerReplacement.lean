import HttpLogMonitor.MonitorRuns

/-!
# A change of the report period

`cancel` stops a timer from starting further runs. A run in progress goes
on, and the first run of the new timer starts at once, so the queue that
one run has found nonempty can be emptied by the other before it takes. With
one timer no run ever waits in `take`; a session in which the period changes
has a run that does.
-/

namespace HttpLogMonitor

open Threads

namespace Sniffer

variable {PcapIf : Type} [DecidableEq PcapIf]

def TimerConstant (k : Int32) (pc : SnifferPc PcapIf) (x : SnifferVars PcapIf) : Prop :=
  match pc with
  | .cancelTimer _ => False
  | .startTimer _ => x.mostHitsTimer = none ∧ x.timeGapInMillisecond = k
  | _ => x.mostHitsTimer = some k ∧ x.timeGapInMillisecond = k ∨
      x.mostHitsTimer = none ∧ x.timeGapInMillisecond = 0

theorem TimerConstant.stepVars {k : Int32} {x x' : SnifferVars PcapIf}
    {pc pc' : SnifferPc PcapIf} {c : Option (SnifferCommand PcapIf)} (hk : 0 < k.toInt)
    (hp : ∀ p, preference pc = some p → p.timeGapInMillisecond = k) (h : TimerConstant k pc x)
    (hs : stepVars x pc = some (pc', x', c)) :
    TimerConstant k pc' x' ∧
      (x'.mostHitsTimer = x.mostHitsTimer ∧
          (∀ clock timers, c.toList.foldl (MostHitsTimer.perform clock) timers = timers) ∨
        x.mostHitsTimer = none ∧ x'.mostHitsTimer = some k ∧ c = some (.startTimer k)) := by
  cases stepVars_cases hs with
  | replaceTime p hnew hsome =>
      rcases h with ⟨-, hgap⟩ | ⟨hnone, -⟩
      · exact (hnew ((hp p rfl).trans hgap.symm)).elim
      · simp [hnone] at hsome
  | firstTime p hnew hnone => exact ⟨⟨hnone, hp p rfl⟩, Or.inl ⟨rfl, fun _ _ => rfl⟩⟩
  | startTimer p hpos =>
      obtain rfl : p.timeGapInMillisecond = k := hp p rfl
      exact ⟨Or.inl ⟨rfl, h.2⟩, Or.inr ⟨h.1, rfl, rfl⟩⟩
  | illegalPeriod p hillegal => exact (hillegal ((hp p rfl).symm ▸ hk)).elim
  | cancelTimer p => exact h.elim
  | _ => exact ⟨h, Or.inl ⟨rfl, fun _ _ => rfl⟩⟩

theorem TimerConstant.step {k : Int32} {u v : Sniffer PcapIf}
    {c : Option (SnifferCommand PcapIf)} (hk : 0 < k.toInt)
    (hall : u.All fun p => p.timeGapInMillisecond = k) (h : TimerConstant k u.pc u.vars)
    (hs : Steps u v c) :
    TimerConstant k v.pc v.vars ∧
      (v.vars.mostHitsTimer = u.vars.mostHitsTimer ∧
          (∀ clock timers, c.toList.foldl (MostHitsTimer.perform clock) timers = timers) ∨
        u.vars.mostHitsTimer = none ∧ v.vars.mostHitsTimer = some k ∧
          c = some (.startTimer k)) := by
  cases hs with
  | take p hpc hpeek =>
      rw [hpc] at h
      exact ⟨h, Or.inl ⟨rfl, fun _ _ => rfl⟩⟩
  | skip p hpc hq =>
      rw [hpc] at h
      exact ⟨h, Or.inl ⟨rfl, fun _ _ => rfl⟩⟩
  | handle p hpc hq =>
      rw [hpc] at h
      exact ⟨h, Or.inl ⟨rfl, fun _ _ => rfl⟩⟩
  | vars hs => exact h.stepVars hk hall.handled hs

omit [DecidableEq PcapIf] in
instance (pc : SnifferPc PcapIf) : Decidable (∃ p, pc = .startTimer p) :=
  match pc with
  | .startTimer p => isTrue ⟨p, rfl⟩
  | .take | .emptyTest _ | .deviceTest _ | .interruptLoop _ | .startLoop _ | .timeTest _
  | .cancelTimer _ | .alertTest _ | .interruptAlert _ | .startAlert _ | .dead _ =>
      isFalse (by simp)

theorem Steps.startTimer_pc {u v : Sniffer PcapIf} {period : Int32}
    (h : Steps u v (some (.startTimer period))) : ∃ p, u.pc = .startTimer p := by
  cases h with
  | vars hs =>
      generalize u.pc = pc at hs
      cases stepVars_cases hs with
      | startTimer p hpos => exact ⟨p, rfl⟩

end Sniffer

namespace CalculatorRun

def Unblocked (q : Fifo HttpObject) (r : CalculatorRun) : Prop := r.pc = .take → q.items ≠ []

theorem unblocked_put (r : CalculatorRun) (q : Fifo HttpObject) (hit : HttpObject) :
    r.Unblocked (q.put hit) := by
  simp [Unblocked]

/-- A run comes to `take` only from a test of the queue. -/
theorem Steps.unblocked {s s' : Store} {r r' : CalculatorRun} (h : Steps s r s' r') :
    r'.Unblocked s'.mostHitsURLQueue := by
  intro hpc
  cases h with
  | enter _ hq => exact hq
  | _ => cases hpc

end CalculatorRun

namespace Monitor

variable {PcapIf : Type} [DecidableEq PcapIf]

omit [DecidableEq PcapIf] in
def NeverBlocked (u : Monitor PcapIf) : Prop :=
  ∀ t ∈ u.timers, t.calculator.pc = .take → u.store.mostHitsURLQueue.items ≠ []

/-- The step does not start a second timer. -/
def StartsOneTimer (u : Monitor PcapIf) (e : MonitorEvent) : Prop :=
  ¬ (e = .sniffer ∧ (∃ p, u.sniffer.pc = .startTimer p) ∧ u.timers ≠ [])

instance (u : Monitor PcapIf) (e : MonitorEvent) : Decidable (u.StartsOneTimer e) :=
  inferInstanceAs (Decidable (¬ (_ ∧ _ ∧ _)))

structure SoleTimer (u : Monitor PcapIf) : Prop where
  one : u.timers.length ≤ 1
  unblocked : ∀ t ∈ u.timers, t.calculator.Unblocked u.store.mostHitsURLQueue

omit [DecidableEq PcapIf] in
theorem soleTimer_initial (preferences : List (UserPreferences PcapIf)) (threshold : Int32)
    (clock : ℤ) : (initial preferences threshold clock).SoleTimer :=
  ⟨Nat.zero_le 1, fun _ ht => (List.not_mem_nil ht).elim⟩

omit [DecidableEq PcapIf] in
theorem SoleTimer.unblocked_of_queue {u : Monitor PcapIf} (h : u.SoleTimer)
    {q : Fifo HttpObject} (hq : q = u.store.mostHitsURLQueue ∨
      ∃ hit, q = u.store.mostHitsURLQueue.put hit) :
    ∀ t ∈ u.timers, t.calculator.Unblocked q := by
  rcases hq with rfl | ⟨hit, rfl⟩
  · exact h.unblocked
  · exact fun t _ => t.calculator.unblocked_put _ hit

omit [DecidableEq PcapIf] in
theorem SoleTimer.eq_singleton {u : Monitor PcapIf} (h : u.SoleTimer)
    {pre post : List MostHitsTimer} {t : MostHitsTimer} (heq : u.timers = pre ++ t :: post) :
    pre = [] ∧ post = [] := by
  have hone := h.one
  simp only [heq, List.length_append, List.length_cons] at hone
  exact ⟨List.eq_nil_of_length_eq_zero (by omega), List.eq_nil_of_length_eq_zero (by omega)⟩

theorem SoleTimer.command {u : Monitor PcapIf} (h : u.SoleTimer)
    (hstarts : u.StartsOneTimer .sniffer) {s : Sniffer PcapIf} {c : SnifferCommand PcapIf}
    (hs : Sniffer.Steps u.sniffer s (some c)) : (perform { u with sniffer := s } c).SoleTimer := by
  cases c with
  | cancelTimer =>
      refine ⟨(length_modifyLast _ _).trans_le h.one, ?_⟩
      exact forall_modifyLast
        (P := fun t : MostHitsTimer => t.calculator.Unblocked u.store.mostHitsURLQueue)
        (f := fun t => { t with cancelled := true }) (fun _ ht => ht) h.unblocked
  | startTimer period =>
      have hnil : u.timers = [] := by
        by_contra hne
        exact hstarts ⟨rfl, hs.startTimer_pc, hne⟩
      refine ⟨?_, ?_⟩
      · simp [perform, MostHitsTimer.perform, hnil]
      · intro t ht
        obtain rfl : t = MostHitsTimer.fresh period u.store.clock := by
          simpa [perform, MostHitsTimer.perform, hnil] using ht
        exact fun hpc => by cases hpc
  | _ => exact ⟨h.one, h.unblocked⟩

theorem SoleTimer.step {u v : Monitor PcapIf} {e : MonitorEvent} (h : u.SoleTimer)
    (hstarts : u.StartsOneTimer e) (hs : Steps u e v) : v.SoleTimer := by
  cases hs with
  | command hsniffer => exact h.command hstarts hsniffer
  | packet heq hr =>
      refine ⟨h.one, h.unblocked_of_queue (Or.inl ?_)⟩
      obtain ⟨-, -, ⟨rfl, -⟩ | ⟨url, -, rfl, -⟩⟩ := Callback.receive_cases hr <;> rfl
  | capture heq hc =>
      refine ⟨h.one, h.unblocked_of_queue ?_⟩
      cases hc with
      | putMostHits hit hpc hflag => exact Or.inr ⟨hit, rfl⟩
      | _ => exact Or.inl rfl
  | fire heq hdone hcancelled hnext =>
      obtain ⟨rfl, rfl⟩ := h.eq_singleton heq
      refine ⟨le_refl 1, fun t ht => ?_⟩
      obtain rfl := List.mem_singleton.1 ht
      exact fun hpc => by cases hpc
  | calculator heq hr =>
      obtain ⟨rfl, rfl⟩ := h.eq_singleton heq
      refine ⟨le_refl 1, fun t ht => ?_⟩
      obtain rfl := List.mem_singleton.1 ht
      exact hr.unblocked
  | tracker heq ha => exact ⟨h.one, h.unblocked_of_queue (Or.inl (by cases ha <;> rfl))⟩
  | _ => exact ⟨h.one, h.unblocked⟩

/-! ## A period that stays the same -/

structure OneTimer (k : Int32) (u : Monitor PcapIf) : Prop where
  periods : u.All fun p => p.timeGapInMillisecond = k
  vars : Sniffer.TimerConstant k u.sniffer.pc u.sniffer.vars
  timer : u.sniffer.vars.mostHitsTimer = none ∧ u.timers = [] ∨
    u.sniffer.vars.mostHitsTimer = some k ∧ ∃ t, u.timers = [t]

omit [DecidableEq PcapIf] in
theorem oneTimer_initial {k : Int32} {preferences : List (UserPreferences PcapIf)}
    (h : ∀ p ∈ preferences, p.timeGapInMillisecond = k) (threshold : Int32) (clock : ℤ) :
    (initial preferences threshold clock).OneTimer k :=
  ⟨all_initial h threshold clock, Or.inr ⟨rfl, rfl⟩, Or.inl ⟨rfl, rfl⟩⟩

omit [DecidableEq PcapIf] in
theorem OneTimer.replace {k : Int32} {u : Monitor PcapIf} (h : u.OneTimer k)
    {pre post : List MostHitsTimer} {t : MostHitsTimer} (heq : u.timers = pre ++ t :: post)
    (t' : MostHitsTimer) :
    u.sniffer.vars.mostHitsTimer = none ∧ pre ++ t' :: post = [] ∨
      u.sniffer.vars.mostHitsTimer = some k ∧ ∃ t, pre ++ t' :: post = [t] := by
  rcases h.timer with ⟨-, hnil⟩ | ⟨hsome, b, hb⟩
  · simp [hnil] at heq
  · obtain ⟨rfl, rfl, rfl⟩ := eq_of_append_cons (heq.symm.trans hb)
    exact Or.inr ⟨hsome, t', rfl⟩

theorem OneTimer.sniffer {k : Int32} {u : Monitor PcapIf} (hk : 0 < k.toInt)
    (h : u.OneTimer k) {s : Sniffer PcapIf} {c : Option (SnifferCommand PcapIf)}
    (hs : Sniffer.Steps u.sniffer s c) :
    (c.toList.foldl perform { u with sniffer := s }).OneTimer k := by
  obtain ⟨hvars, hcase⟩ := h.vars.step hk h.periods.sniffer hs
  rw [foldl_perform]
  refine ⟨⟨h.periods.coming, h.periods.sniffer.step hs⟩, hvars, ?_⟩
  rcases hcase with ⟨htimer, htimers⟩ | ⟨hnone, hsome, rfl⟩
  · simpa only [htimer, htimers] using h.timer
  · rcases h.timer with ⟨-, hnil⟩ | ⟨hrunning, -⟩
    · refine Or.inr ⟨hsome, MostHitsTimer.fresh k u.store.clock, ?_⟩
      simp [hnil, MostHitsTimer.perform]
    · simp [hnone] at hrunning

theorem OneTimer.step {k : Int32} {u v : Monitor PcapIf} {e : MonitorEvent}
    (hk : 0 < k.toInt) (h : u.OneTimer k) (hs : Steps u e v) : v.OneTimer k := by
  have hall := h.periods.step hs
  cases hs with
  | quiet hsniffer => exact h.sniffer hk hsniffer
  | command hsniffer => exact h.sniffer hk hsniffer
  | fire heq hdone hcancelled hnext => exact ⟨hall, h.vars, h.replace heq _⟩
  | calculator heq hr => exact ⟨hall, h.vars, h.replace heq _⟩
  | _ => exact ⟨hall, h.vars, h.timer⟩

omit [DecidableEq PcapIf] in
theorem OneTimer.startsOneTimer {k : Int32} {u : Monitor PcapIf} (h : u.OneTimer k)
    (e : MonitorEvent) : u.StartsOneTimer e := by
  rintro ⟨-, ⟨p, hpc⟩, hne⟩
  have hvars := h.vars
  rw [hpc] at hvars
  rcases h.timer with ⟨-, hnil⟩ | ⟨hsome, -⟩
  · exact hne hnil
  · simp [hsome, Sniffer.TimerConstant] at hvars

/-! ## Two timers -/

/-- A run that has just been started comes to `take` when the queue is
not empty. -/
theorem reaches_take {u : Monitor PcapIf} (pre post : List MostHitsTimer) {t : MostHitsTimer}
    (heq : u.timers = pre ++ t :: post) (hdone : t.calculator.pc = .done)
    (hcancelled : t.cancelled = false) (hnext : t.next ≤ u.store.clock)
    (hq : u.store.mostHitsURLQueue.items ≠ []) :
    machine.Reaches u { u with timers := pre ++
      { t with
        next := t.next + t.period.toInt
        calculator := CalculatorRun.fresh.goto .take } :: post } := by
  have hbegin : CalculatorRun.step [] u.store CalculatorRun.fresh =
      some (u.store, CalculatorRun.fresh.goto .loopTest) := by
    simp [CalculatorRun.step, CalculatorRun.fresh, Fifo.isEmpty_iff, hq]
  have henter : CalculatorRun.step [] u.store (CalculatorRun.fresh.goto .loopTest) =
      some (u.store, CalculatorRun.fresh.goto .take) := by
    simp [CalculatorRun.step, CalculatorRun.goto, Fifo.isEmpty_iff, hq]
  have hfired := reaches_fire pre post heq hdone hcancelled hnext
  have hbegun := hfired.trans (reaches_calculator pre post rfl hbegin)
  have hentered := hbegun.trans (reaches_calculator pre post rfl henter)
  exact hentered

/-- The old run has found the queue nonempty when the change comes.
Before it takes, the first run of the new timer takes the only hit. -/
theorem exists_not_neverBlocked {pre rest : List (UserPreferences PcapIf)}
    {p q : UserPreferences PcapIf} (threshold : Int32) (clock : ℤ)
    (hpos : PositiveGaps (pre ++ p :: q :: rest))
    (hne : p.timeGapInMillisecond ≠ q.timeGapInMillisecond) :
    ∃ es u, machine.run (initial (pre ++ p :: q :: rest) threshold clock) es = some u ∧
      ¬ u.NeverBlocked := by
  obtain ⟨v, hstart, hprefs, hv⟩ := @reaches_started _ _ pre (q :: rest) p threshold clock hpos
  have hclock : v.store.clock = clock := by
    rw [hv.store_eq]
    rfl
  have hitems := hv.queued.1
  have hhit := reaches_hit hv.runLoops_eq
  have hold := reaches_take (u := { v with
      store := withHit v.store
      runLoops := [⟨p.device, ⟨.readSize, false⟩⟩] }) [] [] hv.timers_eq rfl rfl
    (le_of_eq hclock.symm) (by simp [hitems])
  obtain ⟨w, hchange, hw⟩ := reaches_changed (u := { v with
      store := withHit v.store
      runLoops := [⟨p.device, ⟨.readSize, false⟩⟩]
      timers := [{ MostHitsTimer.fresh p.timeGapInMillisecond clock with
        next := clock + p.timeGapInMillisecond.toInt
        calculator := CalculatorRun.fresh.goto .take }] })
    ⟨hv.resting.pc_eq, hv.resting.queue_eq⟩ hv.vars_eq hprefs (hpos q (by simp)).1
  have htimers := hw.two_timers hv.vars_eq hne rfl
  have hlater : w.store.mostHitsURLQueue.items = [v.store.newHit []] := by
    rw [hw.store_eq]
    exact hitems
  have hclock' : w.store.clock = (withHit v.store).clock := by
    rw [hw.store_eq]
  have hnew := reaches_take [_] [] htimers rfl rfl (le_of_eq hclock'.symm) (by simp [hlater])
  have htake : CalculatorRun.step [] w.store (CalculatorRun.fresh.goto .take) =
      some ({ w.store with mostHitsURLQueue := w.store.mostHitsURLQueue.remove },
        CalculatorRun.fresh.goto (.count (v.store.newHit []))) := by
    simp [CalculatorRun.step, CalculatorRun.goto, Fifo.peek, hlater]
  have htaken := hnew.trans (reaches_calculator [_] [] rfl htake)
  obtain ⟨es, hes⟩ := hstart.trans (hhit.trans (hold.trans (hchange.trans htaken)))
  refine ⟨es, _, hes, fun hnever => ?_⟩
  have hnonempty := hnever _ List.mem_cons_self rfl
  simp [hlater] at hnonempty

theorem run_neverBlocked {preferences : List (UserPreferences PcapIf)} {threshold : Int32}
    {clock : ℤ} {es : List MonitorEvent} {u : Monitor PcapIf}
    (hstarts : machine.Along StartsOneTimer (initial preferences threshold clock) es)
    (h : machine.run (initial preferences threshold clock) es = some u) : u.NeverBlocked :=
  (machine.run_invariant_along SoleTimer
    (fun _ _ _ hstarts hu hs => hu.step hstarts (step_cases hs)) hstarts
    (soleTimer_initial preferences threshold clock) h).unblocked

/-- No run gets stuck before a second timer is started. In no run of the
session does one get stuck exactly when the report period is the same
throughout. -/
theorem neverBlocked_iff_same_period (preferences : List (UserPreferences PcapIf))
    (threshold : Int32) (clock : ℤ) (hpos : PositiveGaps preferences) :
    (∀ es u, machine.run (initial preferences threshold clock) es = some u →
        machine.Along StartsOneTimer (initial preferences threshold clock) es → u.NeverBlocked) ∧
      ((∀ es u, machine.run (initial preferences threshold clock) es = some u → u.NeverBlocked) ↔
        ∀ p ∈ preferences, ∀ q ∈ preferences,
          p.timeGapInMillisecond = q.timeGapInMillisecond) := by
  refine ⟨fun es u hes hstarts => run_neverBlocked hstarts hes, ?_⟩
  apply forall_reachable_iff (Q := fun k => 0 < k.toInt) 1 (by decide)
  · exact fun p hp => (hpos p hp).1
  · rintro pre p q rest rfl hne
    exact exists_not_neverBlocked threshold clock hpos hne
  · intro k hk hall es u hes
    refine run_neverBlocked ?_ hes
    exact machine.along_of_invariant (OneTimer k) (fun _ _ _ hu hs => hu.step hk (step_cases hs))
      (fun _ e hu => hu.startsOneTimer e) (oneTimer_initial hall threshold clock) es

/-- The period is changed while a run has counted one hit and found a
second one. -/
def periodChange : List (UserPreferences ℕ) :=
  [⟨10, 0, 10000, 120000⟩, ⟨10, 0, 5000, 120000⟩]

def periodChangeEvents : List MonitorEvent :=
  List.flatten [[.enter], List.replicate 8 .sniffer,
    [.packet 0 (.request [])], List.replicate 5 (.capture 0),
    [.packet 0 (.request [])], List.replicate 5 (.capture 0),
    [.fire 0], List.replicate 5 (.calculator 0 []), [.enter], List.replicate 7 .sniffer,
    [.fire 1], List.replicate 3 (.calculator 1 [])]

theorem run_blocks_with_counted_hit : ¬ ∀ (preferences : List (UserPreferences ℕ))
    (threshold : Int32) (clock : ℤ), PositiveGaps preferences →
    ∀ es u, machine.run (initial preferences threshold clock) es = some u → u.NeverBlocked := by
  intro hclaim
  have hrun : (machine.run (initial periodChange 10 0) periodChangeEvents).any
      (fun u => u.store.mostHitsURLQueue.isEmpty && u.timers.any fun t =>
        t.calculator.pc == .take && t.calculator.counted.length == 1) = true := by
    decide
  obtain ⟨u, hu, htest⟩ := (Option.any_eq_true _ _).1 hrun
  simp only [Bool.and_eq_true, List.any_eq_true, beq_iff_eq] at htest
  obtain ⟨hempty, t, ht, hpc, -⟩ := htest
  have hpos : PositiveGaps periodChange := by
    unfold PositiveGaps periodChange
    decide
  exact hclaim periodChange 10 0 hpos periodChangeEvents u hu t ht hpc (Fifo.isEmpty_iff.1 hempty)

/-- In the first session the device and the threshold change, and in the
second the old timer is cancelled, its run still before its `take`. -/
theorem neverBlocked_iff_same_period_new_device :
    (∀ es u, machine.run (initial [(⟨10, 0, 10000, 120000⟩ : UserPreferences ℕ),
        ⟨20, 1, 10000, 120000⟩] 10 0) es = some u → u.NeverBlocked) ∧
      ∃ u, machine.run (initial periodChange 10 0) (periodChangeEvents.take 33) = some u ∧
        (∃ t ∈ u.timers, t.cancelled = true ∧ t.calculator.pc = .take) ∧ u.NeverBlocked := by
  have hpos : PositiveGaps
      [(⟨10, 0, 10000, 120000⟩ : UserPreferences ℕ), ⟨20, 1, 10000, 120000⟩] := by
    unfold PositiveGaps
    decide
  refine ⟨(neverBlocked_iff_same_period _ 10 0 hpos).2.2 (by decide), ?_⟩
  have hrun : (machine.run (initial periodChange 10 0) (periodChangeEvents.take 33)).any
      (fun u => decide (∃ t ∈ u.timers, t.cancelled = true ∧ t.calculator.pc = .take)) = true := by
    decide
  have hpos' : PositiveGaps periodChange := by
    unfold PositiveGaps periodChange
    decide
  obtain ⟨u, hu, htest⟩ := (Option.any_eq_true _ _).1 hrun
  exact ⟨u, hu, of_decide_eq_true htest,
    (neverBlocked_iff_same_period _ 10 0 hpos').1 _ u hu (by decide)⟩

end Monitor

end HttpLogMonitor
