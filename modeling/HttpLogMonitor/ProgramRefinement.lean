import HttpLogMonitor.LastPreference
import HttpLogMonitor.Program

/-!
# The program and its monitor

The monitor of a program is a monitor whose user enters the preferences
of the clicks. The frame takes reports and alerts from their queues, which
no thread of the monitor reads, so a run of the program is a run of that
monitor with both queues as they would be had nothing been taken.
-/

namespace HttpLogMonitor

open Threads

/-- With nothing taken by the frame. -/
def Store.unread (s : Store) : Store :=
  { s with
    mostHitsTopURL := s.mostHitsTopURL.undrained
    alertQueue := s.alertQueue.undrained }

theorem Callback.receive_unread (packet : PcapPacket) (s : Store) (c : Callback) :
    receive s.unread c packet = (receive s c packet).map fun r => (r.1.unread, r.2) := by
  unfold receive
  split
  · cases packet.hitUrl <;> rfl
  · rfl

theorem Callback.step_unread (threshold : Int32) (s : Store) (c : Callback) :
    step threshold s.unread c = (step threshold s c).map fun r => (r.1.unread, r.2) := by
  obtain ⟨pc, flag⟩ := c
  cases pc with
  | testThreshold n =>
      simp only [step]
      split <;> rfl
  | _ => cases flag <;> rfl

theorem CalculatorRun.step_unread (iteration : List HttpObject) (s : Store) (r : CalculatorRun) :
    step iteration s.unread r = (step iteration s r).map fun x => (x.1.unread, x.2) := by
  unfold step
  cases r.pc with
  | take => simp [Store.unread, Option.map_map, Function.comp_def]
  | count thisHit => rfl
  | putTop topFive => rfl
  | done => rfl
  | _ =>
      simp only [apply_ite (Option.map _)]
      rfl

theorem AlertTracker.step_unread (s : Store) (a : AlertTracker) :
    step s.unread a = (step s a).map fun r => (r.1.unread, r.2) := by
  unfold step
  cases a.pc with
  | sizeRead => rfl
  | peek => rfl
  | dead ex => rfl
  | readClock =>
      cases a.lastURL with
      | none => rfl
      | some hit =>
          simp only [apply_ite (Option.map _)]
          rfl
  | _ =>
      simp only [apply_ite (Option.map _)]
      rfl

theorem MostHitsTimer.fire_unread (s : Store) (t : MostHitsTimer) :
    fire s.unread t = (fire s t).map fun r => (r.1.unread, r.2) := by
  unfold fire
  rw [apply_ite (Option.map _)]
  rfl

namespace Monitor

variable {PcapIf : Type}

/-- With nothing taken by the frame. -/
def unread (u : Monitor PcapIf) : Monitor PcapIf := { u with store := u.store.unread }

theorem foldl_perform_unread (cs : List (SnifferCommand PcapIf)) (u : Monitor PcapIf) :
    cs.foldl perform u.unread = (cs.foldl perform u).unread := by
  rw [foldl_perform, foldl_perform]
  rfl

/-- With more to be entered after what the user is going to enter. -/
def expecting (u : Monitor PcapIf) (preferences : List (UserPreferences PcapIf)) :
    Monitor PcapIf := { u with preferences := u.preferences ++ preferences }

variable [DecidableEq PcapIf]

/-- No thread of the monitor reads what the frame takes. -/
theorem step_unread (u : Monitor PcapIf) (e : MonitorEvent) :
    machine.step u.unread e = (machine.step u e).map unread := by
  cases e with
  | tick d => rfl
  | enter =>
      simp only [machine, step, unread]
      cases u.preferences <;> rfl
  | sniffer =>
      simp only [machine, step, unread, Option.map_map]
      congr 1
      funext r
      exact foldl_perform_unread r.2.toList { u with sniffer := r.1 }
  | packet i packet =>
      have hstep := stepAt_map (RunLoop.receive packet) Store.unread
        (fun s l => by simp [RunLoop.receive, Callback.receive_unread, Option.map_map,
          Function.comp_def]) u.store u.runLoops i
      simp only [machine, step, unread, hstep, Option.map_map, Function.comp_def]
  | capture i =>
      have hstep := stepAt_map (RunLoop.step u.sniffer.vars.threshold) Store.unread
        (fun s l => by simp [RunLoop.step, Callback.step_unread, Option.map_map,
          Function.comp_def]) u.store u.runLoops i
      simp only [machine, step, unread, hstep, Option.map_map, Function.comp_def]
  | fire i =>
      have hstep := stepAt_map _ _ MostHitsTimer.fire_unread u.store u.timers i
      simp only [machine, step, unread, hstep, Option.map_map, Function.comp_def]
  | calculator i iteration =>
      have hstep := stepAt_map (MostHitsTimer.step iteration) Store.unread
        (fun s t => by simp [MostHitsTimer.step, CalculatorRun.step_unread, Option.map_map,
          Function.comp_def]) u.store u.timers i
      simp only [machine, step, unread, hstep, Option.map_map, Function.comp_def]
  | tracker i =>
      have hstep := stepAt_map _ _ AlertTracker.step_unread u.store u.trackers i
      simp only [machine, step, unread, hstep, Option.map_map, Function.comp_def]

theorem step_expecting {u v : Monitor PcapIf} {e : MonitorEvent}
    (preferences : List (UserPreferences PcapIf)) (h : machine.step u e = some v) :
    machine.step (u.expecting preferences) e = some (v.expecting preferences) := by
  cases e with
  | enter =>
      simp only [machine, step, expecting] at h ⊢
      cases heq : u.preferences with
      | nil => simp [heq] at h
      | cons p rest =>
          rw [heq] at h
          cases h
          rfl
  | tick d =>
      cases h
      rfl
  | sniffer =>
      obtain ⟨r, hr, rfl⟩ := Option.map_eq_some_iff.1 h
      refine Option.map_eq_some_iff.2 ⟨r, hr, ?_⟩
      rw [foldl_perform, foldl_perform]
      rfl
  | _ =>
      obtain ⟨r, hr, rfl⟩ := Option.map_eq_some_iff.1 h
      exact Option.map_eq_some_iff.2 ⟨r, hr, rfl⟩

theorem reaches_expecting {u v : Monitor PcapIf} (preferences : List (UserPreferences PcapIf))
    (h : machine.Reaches u v) :
    machine.Reaches (u.expecting preferences) (v.expecting preferences) := by
  obtain ⟨es, hes⟩ := h
  exact machine.run_simulation machine (expecting · preferences) (fun _ => True)
    (fun _ _ _ _ hs => ⟨trivial, Machine.Reaches.of_step (step_expecting preferences hs)⟩)
    trivial hes

/-- Only `enter` puts a preference, and it needs one that is coming. -/
theorem Steps.clicked_eq {u v : Monitor PcapIf} {e : MonitorEvent} (h : Steps u e v)
    (hnil : u.preferences = []) : v.preferences = [] ∧
      v.sniffer.preferenceQueue.log = u.sniffer.preferenceQueue.log := by
  cases h with
  | enter heq => simp [hnil] at heq
  | quiet hs => exact ⟨hnil, by cases hs <;> rfl⟩
  | command hs =>
      refine ⟨hnil, ?_⟩
      cases hs
      rfl
  | _ => exact ⟨hnil, rfl⟩

end Monitor

namespace HomeFrame

variable {PcapIf : Type} (digit : Char → Option ℕ)

/-- What a click puts on `preferenceQueue`. -/
def clicked (frame : HomeFrame PcapIf) : Option (UserPreferences PcapIf) :=
  if validator digit frame then userPreferences digit frame else none

theorem preferenceQueue_click (frame : HomeFrame PcapIf) :
    (startUpdateButtonActionPerformed digit frame).1.preferenceQueue =
      match frame.clicked digit with
      | none => frame.preferenceQueue
      | some p => frame.preferenceQueue.put p := by
  unfold startUpdateButtonActionPerformed clicked
  by_cases hvalid : validator digit frame = true
  · rw [if_pos hvalid, if_pos hvalid]
    cases userPreferences digit frame <;> rfl
  · rw [if_neg hvalid, if_neg hvalid]

end HomeFrame

namespace Program

variable {PcapIf : Type}

/-- The preferences of all clicks so far. -/
def preferences (u : Program PcapIf) : List (UserPreferences PcapIf) :=
  u.monitor.sniffer.preferenceQueue.log

theorem alertQueue_postAlert (u : Program PcapIf) (alert : Alert) :
    (u.alertsFrame.postAlert alert).alertQueue = u.store.alertQueue.remove :=
  congrArg AlertsFrame.alertQueue
    (AlertsFrame.postAlert_withQueue u.alertsFrame u.store.alertQueue alert)

theorem unread_withAlertsFrame (u : Program PcapIf) {frame : AlertsFrame}
    (h : frame.alertQueue.undrained = u.store.alertQueue.undrained) :
    (u.withAlertsFrame frame).monitor.unread = u.monitor.unread := by
  have hstore : { u.store with alertQueue := frame.alertQueue }.unread = u.store.unread := by
    simp only [Store.unread, h]
  exact congrArg (fun s => { u.monitor with store := s }) hstore

theorem FrameSteps.monitor_eq {u v : Program PcapIf} (h : FrameSteps u v) :
    v.monitor.unread = u.monitor.unread ∧ v.monitor.sniffer = u.monitor.sniffer ∧
      v.monitor.preferences = u.monitor.preferences := by
  cases h with
  | takeAlert alert hpc hpeek =>
      exact ⟨unread_withAlertsFrame u (by rw [alertQueue_postAlert, Fifo.undrained_remove]), rfl,
        rfl⟩
  | _ => exact ⟨rfl, rfl, rfl⟩

variable [DecidableEq PcapIf] {digit : Char → Option ℕ}

/-- What the monitor of a program has been through. -/
structure Refined (clock : ℤ) (u : Program PcapIf) : Prop where
  coming : u.monitor.preferences = []
  reaches : Monitor.machine.Reaches (Monitor.initial u.preferences mainThreshold clock)
    u.monitor.unread

theorem refined_initial (form : Form PcapIf) (clock : ℤ) : (initial form clock).Refined clock :=
  ⟨rfl, .refl _ _⟩

theorem Refined.click {clock : ℤ} {u : Program PcapIf} (h : u.Refined clock)
    (frame : HomeFrame PcapIf) {p : UserPreferences PcapIf}
    (hq : frame.preferenceQueue = u.monitor.sniffer.preferenceQueue.put p) :
    (u.withHomeFrame frame).Refined clock := by
  have hlog : (u.withHomeFrame frame).preferences = u.preferences ++ [p] := by
    simp only [preferences, withHomeFrame, hq, Fifo.log_put]
  have hcoming : (u.monitor.unread.expecting [p]).preferences = p :: [] := by
    simp [Monitor.unread, Monitor.expecting, h.coming]
  have hentered := (Monitor.reaches_expecting [p] h.reaches).trans (Monitor.reaches_enter hcoming)
  have hend : (u.withHomeFrame frame).monitor.unread = { u.monitor.unread.expecting [p] with
      preferences := []
      sniffer := (u.monitor.unread.expecting [p]).sniffer.put p } := by
    simp only [Monitor.unread, Monitor.expecting, Sniffer.put, withHomeFrame, hq, h.coming]
  refine ⟨h.coming, ?_⟩
  rw [hlog, hend]
  exact hentered

theorem Refined.step {clock : ℤ} {u v : Program PcapIf} {e : ProgramEvent} (h : u.Refined clock)
    (hs : Steps digit u e v) : v.Refined clock := by
  cases hs with
  | @monitor e m hm =>
      obtain ⟨hcoming, hlog⟩ := (Monitor.step_cases hm).clicked_eq h.coming
      have hunread : Monitor.machine.step u.monitor.unread e = some m.unread := by
        rw [Monitor.step_unread, hm, Option.map_some]
      refine ⟨hcoming, ?_⟩
      rw [preferences, hlog]
      exact h.reaches.trans (.of_step hunread)
  | sendStats hs => cases hs <;> exact ⟨h.coming, h.reaches⟩
  | edit threshold alert mostHits selectedIndex hidle => exact ⟨h.coming, h.reaches⟩
  | click hidle =>
      have hqueue := HomeFrame.preferenceQueue_click digit u.homeFrame
      cases hclicked : u.homeFrame.clicked digit with
      | none =>
          rw [hclicked] at hqueue
          refine ⟨h.coming, ?_⟩
          rw [preferences, withHomeFrame, hqueue]
          exact h.reaches
      | some p =>
          rw [hclicked] at hqueue
          exact h.click _ hqueue
  | timer hidle => exact ⟨h.coming, h.reaches⟩
  | frame hs =>
      obtain ⟨hunread, hsniffer, hpreferences⟩ := hs.monitor_eq
      refine ⟨hpreferences.trans h.coming, ?_⟩
      rw [preferences, hunread, hsniffer]
      exact h.reaches

theorem run_refined {form : Form PcapIf} {clock : ℤ} {es : List ProgramEvent} {u : Program PcapIf}
    (h : (machine digit).run (initial form clock) es = some u) : u.Refined clock :=
  (machine digit).run_invariant (Refined clock) (fun _ _ _ hu hs => hu.step (step_cases digit hs))
    (refined_initial form clock) h

/-- The monitor of a program does what it does alone, when the user enters
the preferences of the clicks; the frame only takes from its queues. -/
theorem refines_monitor (digit : Char → Option ℕ) (form : Form PcapIf) (clock : ℤ)
    (es : List ProgramEvent) (u : Program PcapIf)
    (h : (machine digit).run (initial form clock) es = some u) :
    ∃ es', Monitor.machine.run (Monitor.initial u.preferences mainThreshold clock) es' =
      some u.monitor.unread :=
  (run_refined h).reaches

/-- The form as it is first shown when there is one device. The field
`threshold` of `DisplayUI` is never set, so the frame gets 0. -/
def oneDevice : Form ℕ where
  thresholdTextField := "20".toList
  alertTextField := "120".toList
  mostHitsTextField := "10".toList
  devices := [0]
  selectedIndex := some 0
  threshold := 0
  startUpdateButton := "Start".toList

/-- A click with the default texts, handled by the sniffer. -/
def clickEvents : List ProgramEvent := .click :: List.replicate 8 (.monitor .sniffer)

/-- Every hit is a high alert. -/
def everyHit : Form ℕ := { oneDevice with thresholdTextField := "0".toList }

/-- A hit is counted, reported and sent to the frame. -/
def hitEvents : List ProgramEvent :=
  clickEvents ++ [.monitor (.packet 0 (.request []))] ++
    List.replicate 6 (.monitor (.capture 0)) ++ [.monitor (.fire 0)] ++
    List.replicate 5 (.monitor (.calculator 0 [])) ++
    [.monitor (.calculator 0 [⟨0, [], 0⟩]), .monitor (.calculator 0 []), .sendStats]

/-- A whole tick of the frame. -/
def tickEvents : List ProgramEvent := .timer :: List.replicate 12 .frame

theorem refines_monitor_tick : ∃ u : Program ℕ,
    (machine asciiDigit).run (initial everyHit 0) (hitEvents ++ tickEvents) = some u ∧
      u.preferences = [⟨0, 0, 10000, 120000⟩] ∧
      u.store.alertQueue.items = [] ∧ u.monitor.unread.store.alertQueue.items = [⟨0, 1, true⟩] ∧
      ∃ es', Monitor.machine.run (Monitor.initial u.preferences mainThreshold 0) es' =
        some u.monitor.unread := by
  have hrun : ((machine asciiDigit).run (initial everyHit 0) (hitEvents ++ tickEvents)).any
      (fun u => decide (u.preferences = [⟨0, 0, 10000, 120000⟩] ∧
        u.store.alertQueue.items = [] ∧
        u.monitor.unread.store.alertQueue.items = [⟨0, 1, true⟩])) = true := by
    decide +kernel
  obtain ⟨u, hu, htest⟩ := (Option.any_eq_true _ _).1 hrun
  obtain ⟨hclicked, htaken, hunread⟩ := of_decide_eq_true htest
  exact ⟨u, hu, hclicked, htaken, hunread, refines_monitor asciiDigit everyHit 0 _ u hu⟩

end Program

end HttpLogMonitor
