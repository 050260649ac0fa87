import HttpLogMonitor.MonitorRuns
import HttpLogMonitor.ReportAccounts

/-!
# The reports of the whole monitor

The capture threads and timers of a monitor are, for the reports, a
`ReportSystem`: every call of `nextPacket` that still has to put its hit
is a call there, and every run in progress is a run there. A finished run
stays in the report system, while a timer forgets it at the next fire.
What holds of all report systems so holds of the monitor.
-/

namespace HttpLogMonitor

open Threads

/-- The stores agree in all that the reports read or write. -/
structure SameReports (s s' : Store) : Prop where
  clock_eq : s'.clock = s.clock
  nextRef_eq : s'.nextRef = s.nextRef
  heap_eq : s'.heap = s.heap
  queue_eq : s'.mostHitsURLQueue = s.mostHitsURLQueue
  top_eq : s'.mostHitsTopURL = s.mostHitsTopURL

namespace SameReports

variable {s s' s'' : Store}

theorem refl (s : Store) : SameReports s s := ⟨rfl, rfl, rfl, rfl, rfl⟩

theorem trans (h : SameReports s s') (h' : SameReports s' s'') : SameReports s s'' :=
  ⟨h'.clock_eq.trans h.clock_eq, h'.nextRef_eq.trans h.nextRef_eq, h'.heap_eq.trans h.heap_eq,
    h'.queue_eq.trans h.queue_eq, h'.top_eq.trans h.top_eq⟩

theorem symm (h : SameReports s s') : SameReports s' s :=
  ⟨h.clock_eq.symm, h.nextRef_eq.symm, h.heap_eq.symm, h.queue_eq.symm, h.top_eq.symm⟩

theorem newHit_eq (h : SameReports s s') (url : JavaString) : s'.newHit url = s.newHit url := by
  rw [Store.newHit, Store.newHit, h.nextRef_eq, h.clock_eq]

theorem create (h : SameReports s s') (url : JavaString) :
    SameReports (s.create url) (s'.create url) := by
  refine ⟨h.clock_eq, ?_, ?_, h.queue_eq, h.top_eq⟩
  · rw [Store.create, Store.create, h.nextRef_eq]
  · simp only [Store.create, h.heap_eq, h.newHit_eq]

end SameReports

namespace Callback

/-- The call in progress has not put its hit on `mostHitsURLQueue`. -/
def putting (c : Callback) : Bool := !c.newHits.isEmpty

/-- What the reports see of an operation: the put, the exception in its
place, or nothing. -/
theorem Steps.reports_cases {threshold : Int32} {s s' : Store} {c c' : Callback}
    (h : Steps threshold s c s' c') :
    (∃ hit, c.pc = .putMostHits hit ∧ c.interrupted = false ∧
        s' = { s with mostHitsURLQueue := s.mostHitsURLQueue.put hit } ∧
        c' = { c with pc := .putAlertURL hit }) ∨
      (∃ hit, c.pc = .putMostHits hit ∧ c.interrupted = true ∧ s' = s ∧ c' = .caught) ∨
      c.putting = false ∧ c'.putting = false ∧ SameReports s s' := by
  have hquiet : (∀ hit, c.pc ≠ .putMostHits hit) → c.putting = false := by
    intro hpc
    unfold putting newHits
    split
    · exact (hpc _ ‹_›).elim
    · rfl
  cases h with
  | caught hflag hput =>
      rcases hput with ⟨hit, hpc⟩ | ⟨hit, hpc⟩ | ⟨n, hpc⟩
      · exact Or.inr (Or.inl ⟨hit, hpc, hflag, rfl, rfl⟩)
      · exact Or.inr (Or.inr ⟨hquiet (by simp [hpc]), rfl, .refl s⟩)
      · exact Or.inr (Or.inr ⟨hquiet (by simp [hpc]), rfl, .refl s⟩)
  | putMostHits hit hpc hflag => exact Or.inl ⟨hit, hpc, hflag, rfl, rfl⟩
  | _ => exact Or.inr (Or.inr ⟨hquiet (by simp_all), rfl, ⟨rfl, rfl, rfl, rfl, rfl⟩⟩)

end Callback

namespace CalculatorRun

def active (r : CalculatorRun) : Bool := decide (r.pc ≠ .done)

theorem Steps.active {s s' : Store} {r r' : CalculatorRun} (h : Steps s r s' r') :
    r.active = true := by
  cases h <;> simp_all [CalculatorRun.active]

/-- A run does the same on a store that agrees for the reports. -/
theorem Steps.mirrored {s s' t : Store} {r r' : CalculatorRun} (h : Steps s r s' r')
    (hsame : SameReports s t) :
    ∃ iteration t', step iteration t r = some (t', r') ∧ SameReports s' t' := by
  have hqueue := hsame.queue_eq
  have hheap := hsame.heap_eq
  cases h with
  | nothing hpc hq =>
      exact ⟨[], t, by simp [step, hpc, hqueue, Fifo.isEmpty_iff, hq], hsame⟩
  | begin hpc hq =>
      exact ⟨[], t, by simp [step, hpc, hqueue, Fifo.isEmpty_iff, hq], hsame⟩
  | leave hpc hq =>
      exact ⟨[], t, by simp [step, hpc, hqueue, Fifo.isEmpty_iff, hq], hsame⟩
  | enter hpc hq =>
      exact ⟨[], t, by simp [step, hpc, hqueue, Fifo.isEmpty_iff, hq], hsame⟩
  | take thisHit hpc hq =>
      have hpeek : t.mostHitsURLQueue.peek = some thisHit := by
        rw [hqueue, Fifo.peek, hq, List.head?_cons]
      refine ⟨[], { t with mostHitsURLQueue := t.mostHitsURLQueue.remove }, ?_, ?_⟩
      · simp [step, hpc, hpeek]
      · exact ⟨hsame.clock_eq, hsame.nextRef_eq, hheap, by rw [hqueue], hsame.top_eq⟩
  | count thisHit hpc =>
      refine ⟨[], _, by simp only [step, hpc, hheap]; rfl, ?_⟩
      exact ⟨hsame.clock_eq, hsame.nextRef_eq, rfl, hqueue, hsame.top_eq⟩
  | select iteration hpc hiter =>
      exact ⟨iteration, t, by simp [step, hpc, hiter, hheap], hsame⟩
  | putTop topFive hpc =>
      refine ⟨[], _, by simp only [step, hpc]; rfl, ?_⟩
      exact ⟨hsame.clock_eq, hsame.nextRef_eq, hheap, hqueue, by rw [hsame.top_eq]⟩

end CalculatorRun

namespace ReportSystem

theorem reaches_of_callback {w : ReportSystem} {pre post : List Callback} {c c' : Callback}
    {threshold : Int32} {s : Store} (heq : w.callbacks = pre ++ c :: post)
    (h : Callback.step threshold w.store c = some (s, c')) :
    machine.Reaches w { w with store := s, callbacks := pre ++ c' :: post } :=
  .of_step (e := .callback pre.length threshold)
    (by simp [machine, step, moveCallback, heq, stepAt_append pre post h])

theorem reaches_of_interrupt {w : ReportSystem} {pre post : List Callback} {c : Callback}
    (heq : w.callbacks = pre ++ c :: post) :
    machine.Reaches w { w with callbacks := pre ++ c.interrupt :: post } :=
  .of_step (e := .interrupt pre.length)
    (by
      have hstep : stepAt (fun s c => some (s, c.interrupt)) w.store (pre ++ c :: post) pre.length =
          some (w.store, pre ++ c.interrupt :: post) := stepAt_append pre post rfl
      simp [machine, step, moveCallback, heq, hstep])

theorem reaches_of_calculator {w : ReportSystem} {pre post : List CalculatorRun}
    {r r' : CalculatorRun} {iteration : List HttpObject} {s : Store}
    (heq : w.runs = pre ++ r :: post)
    (h : CalculatorRun.step iteration w.store r = some (s, r')) :
    machine.Reaches w { w with store := s, runs := pre ++ r' :: post } :=
  .of_step (e := .calculator pre.length iteration)
    (by simp [machine, step, heq, stepAt_append pre post h])

/-- A call of `nextPacket` is made by a capture thread of its own, which
has the interrupt flag of the thread it stands for. -/
theorem reaches_call (w : ReportSystem) (url : JavaString) (flag : Bool) :
    machine.Reaches w
      { w with
        store := w.store.create url
        callbacks := w.callbacks ++ [⟨.putMostHits (w.store.newHit url), flag⟩] } := by
  have hcapture : machine.Reaches w { w with callbacks := w.callbacks ++ [Callback.fresh] } :=
    .of_step (e := .capture) rfl
  have hreceive : Callback.receive w.store Callback.fresh (.request url) =
      some (w.store.create url, ⟨.putMostHits (w.store.newHit url), false⟩) := rfl
  have hpacket : machine.Reaches { w with callbacks := w.callbacks ++ [Callback.fresh] }
      { w with
        store := w.store.create url
        callbacks := w.callbacks ++ [⟨.putMostHits (w.store.newHit url), false⟩] } :=
    .of_step (e := .packet w.callbacks.length (.request url)) (by
      have hstep : stepAt (fun s c => Callback.receive s c (.request url)) w.store
          (w.callbacks ++ [Callback.fresh]) w.callbacks.length =
          some (w.store.create url, w.callbacks ++ [⟨.putMostHits (w.store.newHit url), false⟩]) :=
        stepAt_append w.callbacks [] hreceive
      simp [machine, step, moveCallback, hstep])
  cases flag with
  | false => exact hcapture.trans hpacket
  | true =>
      have hinterrupt := @reaches_of_interrupt { w with
        store := w.store.create url
        callbacks := w.callbacks ++ [⟨.putMostHits (w.store.newHit url), false⟩] }
        w.callbacks [] _ rfl
      exact (hcapture.trans hpacket).trans hinterrupt

end ReportSystem

namespace Monitor

variable {PcapIf : Type}

/-- The report system that a monitor contains. Of the calls in progress
only those that still have to put their hit matter to it. -/
structure Reported (u : Monitor PcapIf) (w : ReportSystem) : Prop where
  store : SameReports u.store w.store
  callbacks : SameActive Callback.putting w.callbacks (u.runLoops.map RunLoop.callback)
  runs : SameActive CalculatorRun.active w.runs (u.timers.map MostHitsTimer.calculator)

theorem reported_initial (preferences : List (UserPreferences PcapIf)) (threshold : Int32)
    (clock : ℤ) : Reported (initial preferences threshold clock) (ReportSystem.initial clock) :=
  ⟨.refl _, .refl _, .refl _⟩

/-- An interrupt of the newest capture thread, which may be putting its
hit or not. -/
theorem reaches_interrupted {w : ReportSystem} {loops : List (RunLoop PcapIf)}
    (h : SameActive Callback.putting w.callbacks (loops.map RunLoop.callback)) :
    ∃ callbacks, ReportSystem.machine.Reaches w { w with callbacks := callbacks } ∧
      SameActive Callback.putting callbacks
        ((RunLoop.perform loops .interruptLoop).map RunLoop.callback) := by
  induction loops using List.reverseRecOn with
  | nil => exact ⟨w.callbacks, .refl _ w, h⟩
  | append_singleton loops l _ =>
      rw [RunLoop.perform, List.modifyLast_concat]
      rw [List.map_append, List.map_singleton] at h ⊢
      cases hputting : l.callback.putting with
      | true =>
          obtain ⟨pre, post, heq, hmoved⟩ := h.exists_split hputting
          exact ⟨_, ReportSystem.reaches_of_interrupt heq, hmoved l.callback.interrupt⟩
      | false =>
          have hinterrupt : l.callback.interrupt.putting = false := hputting
          refine ⟨w.callbacks, .refl _ w, ?_⟩
          unfold SameActive at h ⊢
          rwa [filter_replace hputting hinterrupt (loops.map RunLoop.callback) []]

theorem Reported.command {u : Monitor PcapIf} {w : ReportSystem} (h : u.Reported w)
    (c : SnifferCommand PcapIf) :
    ∃ w', ReportSystem.machine.Reaches w w' ∧ (u.perform c).Reported w' := by
  obtain ⟨hstore, hcallbacks, hruns⟩ := h
  cases c with
  | interruptLoop =>
      obtain ⟨callbacks, hreach, hsame⟩ := reaches_interrupted hcallbacks
      exact ⟨_, hreach, hstore, hsame, hruns⟩
  | startLoop device =>
      have hcapture : ReportSystem.machine.Reaches w
          { w with callbacks := w.callbacks ++ [Callback.fresh] } := .of_step (e := .capture) rfl
      refine ⟨_, hcapture, hstore, ?_, hruns⟩
      simpa [perform, RunLoop.perform] using hcallbacks.concat Callback.fresh
  | cancelTimer =>
      have hcalculators : (u.perform .cancelTimer).timers.map MostHitsTimer.calculator =
          u.timers.map MostHitsTimer.calculator :=
        map_modifyLast_of_eq (f := fun t => { t with cancelled := true }) (fun _ => rfl) u.timers
      refine ⟨w, .refl _ w, hstore, hcallbacks, ?_⟩
      rwa [hcalculators]
  | startTimer period =>
      refine ⟨w, .refl _ w, hstore, hcallbacks, ?_⟩
      unfold SameActive at hruns ⊢
      rw [perform, MostHitsTimer.perform, List.map_append, List.map_singleton,
        filter_concat (by rfl)]
      exact hruns
  | interruptAlert => exact ⟨w, .refl _ w, hstore, hcallbacks, hruns⟩
  | startAlert threshold gap => exact ⟨w, .refl _ w, hstore, hcallbacks, hruns⟩

variable [DecidableEq PcapIf]

/-- The report system can follow every step of the monitor. -/
theorem Reported.step {u v : Monitor PcapIf} {w : ReportSystem} {e : MonitorEvent}
    (h : u.Reported w) (hs : Steps u e v) :
    ∃ w', ReportSystem.machine.Reaches w w' ∧ v.Reported w' := by
  obtain ⟨hstore, hcallbacks, hruns⟩ := h
  cases hs with
  | tick d =>
      refine ⟨{ w with store := w.store.tick d }, .of_step (e := .tick d) rfl, ?_, hcallbacks, hruns⟩
      exact ⟨by simp [Store.tick, hstore.clock_eq], hstore.nextRef_eq, hstore.heap_eq,
        hstore.queue_eq, hstore.top_eq⟩
  | enter heq => exact ⟨w, .refl _ w, hstore, hcallbacks, hruns⟩
  | quiet hsniffer => exact ⟨w, .refl _ w, hstore, hcallbacks, hruns⟩
  | @command s c hsniffer =>
      exact Reported.command (u := { u with sniffer := s }) ⟨hstore, hcallbacks, hruns⟩ c
  | @packet pre post l packet s c heq hr =>
      rw [heq, List.map_append, List.map_cons] at hcallbacks
      obtain ⟨hidle, hflag, ⟨rfl, rfl⟩ | ⟨url, -, rfl, hpc⟩⟩ := Callback.receive_cases hr
      · refine ⟨w, .refl _ w, hstore, ?_, hruns⟩
        rwa [List.map_append, List.map_cons]
      · have hquiet : l.callback.putting = false := by
          simp [Callback.putting, Callback.newHits, hidle]
        have hnew : c = ⟨.putMostHits (w.store.newHit url), c.interrupted⟩ := by
          rw [hstore.newHit_eq, ← hpc]
        refine ⟨_, ReportSystem.reaches_call w url c.interrupted, hstore.create url, ?_, hruns⟩
        rw [List.map_append, List.map_cons, ← hnew]
        exact hcallbacks.wake hquiet c
  | @capture pre post l s c heq hc =>
      rw [heq, List.map_append, List.map_cons] at hcallbacks
      rcases hc.reports_cases with ⟨hit, hpc, hflag, rfl, rfl⟩ | ⟨hit, hpc, hflag, rfl, rfl⟩ |
        ⟨hquiet, hquiet', hsame⟩
      · obtain ⟨pre', post', heq', hmoved⟩ := hcallbacks.exists_split
          (by simp [Callback.putting, Callback.newHits, hpc])
        have hput : Callback.step 0 w.store l.callback = some
            ({ w.store with mostHitsURLQueue := w.store.mostHitsURLQueue.put hit },
              { l.callback with pc := .putAlertURL hit }) := by
          simp [Callback.step, hpc, hflag]
        refine ⟨_, ReportSystem.reaches_of_callback heq' hput, ?_, ?_, hruns⟩
        · exact ⟨hstore.clock_eq, hstore.nextRef_eq, hstore.heap_eq, by rw [hstore.queue_eq],
            hstore.top_eq⟩
        · rw [List.map_append, List.map_cons]
          exact hmoved _
      · obtain ⟨pre', post', heq', hmoved⟩ := hcallbacks.exists_split
          (by simp [Callback.putting, Callback.newHits, hpc])
        have hcaught : Callback.step 0 w.store l.callback = some (w.store, Callback.caught) := by
          simp [Callback.step, hpc, hflag]
        refine ⟨_, ReportSystem.reaches_of_callback heq' hcaught, hstore, ?_, hruns⟩
        rw [List.map_append, List.map_cons]
        exact hmoved _
      · refine ⟨w, .refl _ w, hsame.symm.trans hstore, ?_, hruns⟩
        unfold SameActive at hcallbacks ⊢
        rwa [List.map_append, List.map_cons, filter_replace hquiet hquiet']
  | @fire pre post t heq hdone hcancelled hnext =>
      rw [heq, List.map_append, List.map_cons] at hruns
      have hstart : ReportSystem.machine.Reaches w
          { w with runs := w.runs ++ [CalculatorRun.fresh] } := .of_step (e := .start) rfl
      refine ⟨_, hstart, hstore, hcallbacks, ?_⟩
      rw [List.map_append, List.map_cons]
      exact hruns.wake (by simp [CalculatorRun.active, hdone]) CalculatorRun.fresh
  | @calculator pre post t s r iteration heq hr =>
      rw [heq, List.map_append, List.map_cons] at hruns
      obtain ⟨pre', post', heq', hmoved⟩ := hruns.exists_split hr.active
      obtain ⟨iteration', s', hstep, hsame⟩ := hr.mirrored hstore
      refine ⟨_, ReportSystem.reaches_of_calculator heq' hstep, hsame, hcallbacks, ?_⟩
      rw [List.map_append, List.map_cons]
      exact hmoved r
  | tracker heq ha =>
      refine ⟨w, .refl _ w, SameReports.trans ?_ hstore, hcallbacks, hruns⟩
      cases ha <;> exact ⟨rfl, rfl, rfl, rfl, rfl⟩

theorem run_reported_from {u v : Monitor PcapIf} {w : ReportSystem} {es : List MonitorEvent}
    (hu : u.Reported w) (h : machine.run u es = some v) :
    ∃ w', ReportSystem.machine.Reaches w w' ∧ v.Reported w' :=
  machine.run_forward ReportSystem.machine Reported
    (fun _ _ _ _ hu hs => hu.step (step_cases hs)) hu h

/-- For the reports every run of the monitor, with its device changes,
timer replacements and interrupts, is a run of a report system. -/
theorem reports_refined (preferences : List (UserPreferences PcapIf)) (threshold : Int32)
    (clock : ℤ) (es : List MonitorEvent) (u : Monitor PcapIf)
    (h : machine.run (initial preferences threshold clock) es = some u) :
    ∃ w, ReportSystem.machine.Reaches (ReportSystem.initial clock) w ∧ u.Reported w :=
  run_reported_from (reported_initial preferences threshold clock) h

/-- The report period is changed while a run has its list ready. -/
def twoPeriods : List (UserPreferences ℕ) := [⟨10, 0, 10000, 120000⟩, ⟨10, 0, 5000, 120000⟩]

def twoPeriodsEvents : List MonitorEvent :=
  List.flatten [[.enter], List.replicate 8 .sniffer,
    [.packet 0 (.request [])], List.replicate 5 (.capture 0),
    [.fire 0], List.replicate 5 (.calculator 0 []), [.calculator 0 [⟨0, [], 0⟩], .enter],
    List.replicate 7 .sniffer, [.packet 0 (.request [])], List.replicate 5 (.capture 0),
    [.fire 1], List.replicate 5 (.calculator 1 []), [.calculator 1 [⟨1, [], 0⟩],
      .calculator 1 [], .calculator 0 []]]

theorem reports_refined_twoPeriods : ∃ u w,
    machine.run (initial twoPeriods 10 0) twoPeriodsEvents = some u ∧
      ReportSystem.machine.Reaches (ReportSystem.initial 0) w ∧ u.Reported w := by
  have hrun : (machine.run (initial twoPeriods 10 0) twoPeriodsEvents).isSome = true := by
    decide +kernel
  obtain ⟨u, hu⟩ := Option.isSome_iff_exists.1 hrun
  obtain ⟨w, hreach, hw⟩ := reports_refined twoPeriods 10 0 twoPeriodsEvents u hu
  exact ⟨u, w, hu, hreach, hw⟩

end Monitor

end HttpLogMonitor
