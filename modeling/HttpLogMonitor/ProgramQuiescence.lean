import HttpLogMonitor.ClickedPreferences
import HttpLogMonitor.FrameThread
import HttpLogMonitor.Quiescence

/-!
# The program comes to rest

`SendStats` and the event thread only add a bounded amount of work to that
of the monitor: each alert and each element of `statsQueue` is taken once.
At rest, the workers are those of the last click.
-/

namespace HttpLogMonitor

/-! ## A sniffer with positive periods does not die -/

theorem Sniffer.Steps.alive {PcapIf : Type} [DecidableEq PcapIf] {u v : Sniffer PcapIf}
    {c : Option (SnifferCommand PcapIf)} (h : Steps u v c) (hall : u.All UserPreferences.Positive)
    (ex : JavaException) : v.pc ≠ .dead ex := by
  cases h with
  | take p hpc hpeek => simp
  | skip p hpc hq => simp [goto]
  | handle p hpc hq => simp [goto]
  | vars hs =>
      have hhandled := hall.handled
      generalize u.pc = pc at hs hhandled
      cases stepVars_cases hs with
      | illegalPeriod p hpos => exact (hpos (hhandled p rfl).1).elim
      | _ => simp

namespace Monitor

variable {PcapIf : Type} [DecidableEq PcapIf]

structure Alive (u : Monitor PcapIf) : Prop where
  positive : u.All UserPreferences.Positive
  sniffer : ∀ ex, u.sniffer.pc ≠ .dead ex

theorem Alive.step {u v : Monitor PcapIf} {e : MonitorEvent} (h : u.Alive) (hs : Steps u e v) :
    v.Alive := by
  refine ⟨h.positive.step hs, ?_⟩
  cases hs with
  | quiet hs => exact hs.alive h.positive.sniffer
  | command hs => exact hs.alive h.positive.sniffer
  | _ => exact h.sniffer

omit [DecidableEq PcapIf] in
theorem AtRest.resting {u : Monitor PcapIf} (h : u.AtRest) (halive : ∀ ex, u.sniffer.pc ≠ .dead ex) :
    u.Resting := by
  obtain ⟨hpc, hq⟩ | ⟨ex, hdead⟩ := h.sniffer
  · exact ⟨hpc, hq⟩
  · exact (halive ex hdead).elim

theorem Steps.clock_eq {u v : Monitor PcapIf} {e : MonitorEvent} (h : Steps u e v)
    (he : e.Internal) : v.store.clock = u.store.clock := by
  cases h with
  | tick d => exact he.elim
  | packet heq hr => exact he.elim
  | capture heq hc => exact hc.clock_eq
  | calculator heq hr => exact hr.alertURLQueue_eq.2
  | tracker heq ha => exact ha.clock_eq
  | _ => rfl

end Monitor

/-- Neither time, nor the user, the network or the timer of the frame. -/
def ProgramEvent.Internal : ProgramEvent → Prop
  | .monitor e => e.Internal
  | .sendStats | .frame => True
  | _ => False

namespace SendStatsPc

def effort (clock : ℤ) : SendStatsPc → ℕ
  | .put => 4
  | .sleep => 1
  | .sleeping wake => if clock < wake then 0 else 5

theorem effort_asleep {clock wake : ℤ} (h : clock < wake) : (sleeping wake).effort clock = 0 :=
  if_pos h

theorem effort_awake {clock wake : ℤ} (h : wake ≤ clock) : (sleeping wake).effort clock = 5 :=
  if_neg (Int.not_lt.2 h)

def AtRest (clock : ℤ) : SendStatsPc → Prop
  | .sleeping wake => clock < wake
  | _ => False

end SendStatsPc

namespace FramePc

def effort : FramePc → ℕ
  | .idle => 0
  | .mostHitsTest => 8
  | .mostHitsTake => 7
  | .mostHitsRows _ => 6
  | .statsTest => 5
  | .statsLoop _ => 4
  | .statsTake => 3
  | .statsShow _ => 3
  | .alertsTest => 2
  | .alertsLoop => 1
  | .alertsTake => 0

end FramePc

namespace Program

variable {PcapIf : Type}

def effort (u : Program PcapIf) : ℕ :=
  3 * u.monitor.effort + u.sendStats.effort u.store.clock + u.framePc.effort +
    2 * u.statsQueue.items.length + 2 * u.store.alertQueue.items.length

theorem SendStatsSteps.effort_lt {u v : Program PcapIf} (h : SendStatsSteps u v) :
    v.effort < u.effort := by
  cases h with
  | put hpc =>
      simp only [effort, store, hpc, SendStatsPc.effort, Fifo.items_put, List.length_append,
        List.length_singleton]
      omega
  | sleep hpc =>
      have hasleep := SendStatsPc.effort_asleep (Int.lt_add_of_pos_right u.store.clock
        (by decide : (0 : ℤ) < 1000))
      have hsleep : SendStatsPc.sleep.effort u.store.clock = 1 := rfl
      simp only [effort, store, hpc] at hasleep hsleep ⊢
      omega
  | wake wake hpc hwake =>
      have hawake := SendStatsPc.effort_awake hwake
      have hput : SendStatsPc.put.effort u.store.clock = 4 := rfl
      simp only [effort, store, hpc] at hawake hput ⊢
      omega

theorem FrameSteps.effort_lt {u v : Program PcapIf} (h : FrameSteps u v) :
    v.effort < u.effort := by
  cases h with
  | takeReport topURLs hpc hpeek =>
      have hpcs : FramePc.effort
          (if topURLs.isEmpty then .statsTest else .mostHitsRows topURLs) ≤ 6 := by
        split <;> simp [FramePc.effort]
      have hmonitor : (u.withStore { u.store with
          mostHitsTopURL := u.store.mostHitsTopURL.remove }).monitor.effort = u.monitor.effort := rfl
      have hframe : u.framePc.effort = 7 := by rw [hpc, FramePc.effort]
      simp only [effort, goto, store, withStore] at hmonitor ⊢
      omega
  | takeStats hpc hq =>
      have hitems := List.length_pos_iff.2 hq
      simp only [effort, store, hpc, FramePc.effort, Fifo.items_remove, List.length_tail]
      omega
  | takeAlert alert hpc hpeek =>
      have hitems := List.length_pos_iff.2 (Fifo.items_ne_nil_of_peek hpeek)
      have hmonitor : (u.withAlertsFrame (u.alertsFrame.postAlert alert)).monitor.effort =
          u.monitor.effort := rfl
      have hqueue := alertQueue_postAlert u alert
      simp only [effort, goto, store, withAlertsFrame, withStore, hpc, FramePc.effort, hqueue,
        Fifo.items_remove, List.length_tail] at hmonitor hitems ⊢
      omega
  | _ => simp_all [effort, goto, store, FramePc.effort]

variable [DecidableEq PcapIf] {digit : Char → Option ℕ}

theorem effort_monitor_lt {u : Program PcapIf} {e : MonitorEvent} {m : Monitor PcapIf}
    (hlegal : u.monitor.LegalTimers) (he : e.Internal)
    (h : Monitor.machine.step u.monitor e = some m) : effort { u with monitor := m } < u.effort := by
  have hs := Monitor.step_cases h
  have hlt := hs.effort_lt hlegal he
  have hclock := hs.clock_eq he
  have halert : m.store.alertQueue.items.length ≤ u.monitor.store.alertQueue.items.length + 1 := by
    rcases hs.frameQueues.2 with heq | ⟨alert, heq⟩ <;> simp [heq]
  simp only [effort, store, hclock]
  omega

/-- What the bound on the work and the meaning of rest depend on. -/
structure Lively (u : Program PcapIf) : Prop where
  timers : u.monitor.LegalTimers
  ready : u.Ready

omit [DecidableEq PcapIf] in
theorem lively_initial (form : Form PcapIf) (clock : ℤ) : (initial form clock).Lively :=
  ⟨fun _ hp => (List.not_mem_nil hp).elim, ready_initial form clock⟩

theorem Lively.step {u v : Program PcapIf} {e : ProgramEvent} (h : u.Lively)
    (hs : Steps digit u e v) : v.Lively := by
  refine ⟨?_, h.ready.step hs⟩
  cases hs with
  | monitor hm => exact h.timers.step (Monitor.step_cases hm)
  | sendStats hs => cases hs <;> exact h.timers
  | frame hs => cases hs <;> exact h.timers
  | _ => exact h.timers

theorem internal_step (u : Program PcapIf) (e : ProgramEvent) (v : Program PcapIf)
    (hu : u.Lively) (he : e.Internal) (h : (machine digit).step u e = some v) :
    v.Lively ∧ v.effort < u.effort := by
  refine ⟨hu.step (step_cases digit h), ?_⟩
  cases step_cases digit h with
  | monitor hm => exact effort_monitor_lt hu.timers he hm
  | sendStats hs => exact hs.effort_lt
  | frame hs => exact hs.effort_lt
  | edit threshold alert mostHits selectedIndex hidle => exact he.elim
  | click hidle => exact he.elim
  | timer hidle => exact he.elim

/-! ## The program at rest -/

structure AtRest (u : Program PcapIf) : Prop where
  monitor : u.monitor.AtRest
  sendStats : u.sendStats.AtRest u.store.clock
  frame : u.framePc = .idle

omit [DecidableEq PcapIf] in
theorem stepSendStats_eq_none_iff {u : Program PcapIf} :
    u.stepSendStats = none ↔ u.sendStats.AtRest u.store.clock := by
  unfold stepSendStats SendStatsPc.AtRest
  cases u.sendStats with
  | put => simp
  | sleep => simp
  | sleeping wake => simp

theorem settled_iff {u : Program PcapIf} (hready : u.Ready) :
    (machine digit).Settled ProgramEvent.Internal u ↔ u.AtRest := by
  have hmonitor : (∀ e, e.Internal → (machine digit).step u (.monitor e) = none) ↔
      u.monitor.AtRest := by
    rw [← Monitor.settled_iff]
    simp only [Machine.Settled, machine, step, Option.map_eq_none_iff]
  have hframe : (machine digit).step u .frame = none ↔ u.framePc = .idle := by
    refine ⟨fun h => ?_, fun h => by simp [machine, step, stepFrame, h]⟩
    by_contra hpc
    have hsome := hready.isSome hpc
    simp only [machine, step] at h
    simp [h] at hsome
  constructor
  · intro h
    exact ⟨hmonitor.1 fun e he => h (.monitor e) he,
      stepSendStats_eq_none_iff.1 (h .sendStats trivial), hframe.1 (h .frame trivial)⟩
  · intro h e he
    cases e with
    | monitor e => exact hmonitor.2 h.monitor e he
    | sendStats => exact stepSendStats_eq_none_iff.2 h.sendStats
    | frame => exact hframe.2 h.frame
    | _ => exact he.elim

/-- As long as all accepted clicks are usable, the sniffer lives. -/
theorem Refined.alive {clock : ℤ} {u : Program PcapIf} (h : u.Refined clock)
    (hpos : ∀ p ∈ u.preferences, p.Positive) (ex : JavaException) :
    u.monitor.sniffer.pc ≠ .dead ex := by
  obtain ⟨es, hes⟩ := h.reaches
  have halive := Monitor.machine.run_invariant Monitor.Alive
    (fun _ _ _ hu hs => hu.step (Monitor.step_cases hs))
    ⟨Monitor.all_initial hpos mainThreshold clock, by simp [Monitor.initial, Sniffer.initial]⟩ hes
  exact halive.sniffer ex

/-- The threads of the program, the event thread included, come to rest by
themselves after at most `effort` operations, in whatever order they move.
What is at rest is known exactly, and if all accepted clicks were usable,
the workers are then those of the last one. -/
theorem threads_come_to_rest (digit : Char → Option ℕ) (form : Form PcapIf) (clock : ℤ)
    (es : List ProgramEvent) (u : Program PcapIf)
    (h : (machine digit).run (initial form clock) es = some u) :
    (∀ es' v, (∀ e ∈ es', e.Internal) → (machine digit).run u es' = some v →
      es'.length ≤ u.effort) ∧
      (∃ es' v, (∀ e ∈ es', e.Internal) ∧ (machine digit).run u es' = some v ∧ v.AtRest) ∧
      ((∀ e, e.Internal → (machine digit).step u e = none) ↔ u.AtRest) ∧
      (u.AtRest → (∀ p ∈ u.preferences, p.Positive) →
        ∀ p, u.preferences.getLast? = some p → u.monitor.Current p) := by
  have hlively := (machine digit).run_invariant Lively
    (fun _ _ _ hu hs => hu.step (step_cases digit hs)) (lively_initial form clock) h
  refine ⟨fun es' v hes hrun => ?_, ?_, settled_iff hlively.ready, fun hrest hpos p hlast => ?_⟩
  · exact (Nat.le_add_right _ _).trans
      ((machine digit).length_add_le internal_step hlively hes hrun)
  · obtain ⟨es', v, hes, hrun, hv, hsettled⟩ :=
      (machine digit).exists_settled internal_step hlively
    exact ⟨es', v, hes, hrun, (settled_iff hv.ready).1 hsettled⟩
  · have hrefined := run_refined h
    exact hrefined.current hpos (hrest.monitor.resting (hrefined.alive hpos)) hlast

theorem threads_come_to_rest_click : ∃ u : Program ℕ,
    (machine asciiDigit).run (initial oneDevice 0) [.click] = some u ∧
      (∃ es' v, (∀ e ∈ es', ProgramEvent.Internal e) ∧
        (machine asciiDigit).run u es' = some v ∧ v.AtRest) ∧
      ∀ es' v, (∀ e ∈ es', ProgramEvent.Internal e) → (machine asciiDigit).run u es' = some v →
        es'.length ≤ 400 := by
  have hrun : ((machine asciiDigit).run (initial oneDevice 0) [.click]).any (fun u =>
      decide (u.effort = 400)) = true := by
    decide +kernel
  obtain ⟨u, hu, htest⟩ := (Option.any_eq_true _ _).1 hrun
  obtain ⟨hbound, hrest, -⟩ := threads_come_to_rest asciiDigit oneDevice 0 _ u hu
  exact ⟨u, hu, hrest, of_decide_eq_true htest ▸ hbound⟩

end Program

end HttpLogMonitor
