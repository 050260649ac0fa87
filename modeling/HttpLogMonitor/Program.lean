import HttpLogMonitor.HomeFrame
import HttpLogMonitor.Monitor
import HttpLogMonitor.MostHitsTable
import HttpLogMonitor.PostAlerts

/-!
# The whole program

`HTTPLogMonitor.main` creates the queues and starts the sniffer and the
frame. Beside the monitor there are two threads: `SendStats` puts the one
`Statistics` object on `statsQueue` every second, and the event thread of
the frame handles clicks and, at each tick of the timer of `updateNewHits`,
runs the three updates one after the other, here one queue operation a
step. A tick or a click waits until the event thread is free.
-/

namespace HttpLogMonitor

/-- What `SendStats` is about to do. A sleep carries its end. -/
inductive SendStatsPc where
  | put
  | sleep
  | sleeping (wake : ℤ)
  deriving DecidableEq

/-- What the event thread is about to do: `isEmpty`, `take` and the new
model of `updateMostHitsTable`; the first test, the loop test, `take` and
`setValueAt` of `updateStatsTable`, with the local `stats`; the first test,
the loop test and `take`, with the rest of the loop body, of `postAlerts`. -/
inductive FramePc where
  | idle
  | mostHitsTest
  | mostHitsTake
  | mostHitsRows (topURLs : List HttpObject)
  | statsTest
  | statsLoop (stats : Option Unit)
  | statsTake
  | statsShow (stats : Option Unit)
  | alertsTest
  | alertsLoop
  | alertsTake
  deriving DecidableEq

/-- The fields of `HomeFrame` that the button reads and writes, without
the queue. -/
structure Form (PcapIf : Type) where
  thresholdTextField : JavaString
  alertTextField : JavaString
  mostHitsTextField : JavaString
  devices : List PcapIf
  selectedIndex : Option ℕ
  threshold : Int32
  startUpdateButton : JavaString

/-- The elements of `statsQueue` are references to the one `Statistics`
object of the sniffer, whose fields are in the store. `statsTable` is its
cell with the hit count, `none` for null. -/
structure Program (PcapIf : Type) where
  monitor : Monitor PcapIf
  sendStats : SendStatsPc
  statsQueue : Fifo Unit
  framePc : FramePc
  form : Form PcapIf
  mostHitsTable : List TableRow
  statsTable : Option Int64
  previousAlert : FrameAlert
  previousPeakAlert : FrameAlert
  alertsPanel : List AlertRow

inductive ProgramEvent where
  | monitor (e : MonitorEvent)
  | sendStats
  | edit (threshold alert mostHits : JavaString) (selectedIndex : Option ℕ)
  | click
  | timer
  | frame
  deriving DecidableEq

namespace Program

variable {PcapIf : Type}

/-- The threshold that `main` passes to the sniffer. -/
def mainThreshold : Int32 := 10

def initial (form : Form PcapIf) (clock : ℤ) : Program PcapIf where
  monitor := Monitor.initial [] mainThreshold clock
  sendStats := .put
  statsQueue := Fifo.empty
  framePc := .idle
  form := form
  mostHitsTable := List.replicate 5 none
  statsTable := none
  previousAlert := AlertsFrame.initial.previousAlert
  previousPeakAlert := AlertsFrame.noPeak
  alertsPanel := []

section Parts

variable (u : Program PcapIf)

def store : Store := u.monitor.store

def withStore (s : Store) : Program PcapIf := { u with monitor := { u.monitor with store := s } }

def goto (pc : FramePc) : Program PcapIf := { u with framePc := pc }

def homeFrame : HomeFrame PcapIf where
  thresholdTextField := u.form.thresholdTextField
  alertTextField := u.form.alertTextField
  mostHitsTextField := u.form.mostHitsTextField
  devices := u.form.devices
  selectedIndex := u.form.selectedIndex
  threshold := u.form.threshold
  startUpdateButton := u.form.startUpdateButton
  preferenceQueue := u.monitor.sniffer.preferenceQueue

/-- A click writes two fields and the queue. -/
def withHomeFrame (frame : HomeFrame PcapIf) : Program PcapIf :=
  { u with
    form := { u.form with
      threshold := frame.threshold
      startUpdateButton := frame.startUpdateButton }
    monitor := { u.monitor with
      sniffer := { u.monitor.sniffer with preferenceQueue := frame.preferenceQueue } } }

def alertsFrame : AlertsFrame :=
  ⟨u.store.alertQueue, u.previousAlert, u.previousPeakAlert, u.alertsPanel⟩

def withAlertsFrame (frame : AlertsFrame) : Program PcapIf :=
  { u.withStore { u.store with alertQueue := frame.alertQueue } with
    previousAlert := frame.previousAlert
    previousPeakAlert := frame.previousPeakAlert
    alertsPanel := frame.alertsPanel }

/-- The cells of the new model. The counts are read one after the other;
those of a published list do not change. -/
def tableRows (topURLs : List HttpObject) : List TableRow :=
  topURLs.map fun obj => some (Utility.sectionOf obj.url, u.store.heap.getHitCount obj)

def stepSendStats : Option (Program PcapIf) :=
  match u.sendStats with
  | .put => some { u with statsQueue := u.statsQueue.put (), sendStats := .sleep }
  | .sleep => some { u with sendStats := .sleeping (u.store.clock + 1000) }
  | .sleeping wake => if wake ≤ u.store.clock then some { u with sendStats := .put } else none

/-- A call on the null `stats` ends the tick before `postAlerts`. -/
def stepFrame : Option (Program PcapIf) :=
  match u.framePc with
  | .idle => none
  | .mostHitsTest =>
      if u.store.mostHitsTopURL.isEmpty then some (u.goto .statsTest)
      else some (u.goto .mostHitsTake)
  | .mostHitsTake => u.store.mostHitsTopURL.peek.map fun topURLs =>
      (u.withStore { u.store with mostHitsTopURL := u.store.mostHitsTopURL.remove }).goto
        (if topURLs.isEmpty then .statsTest else .mostHitsRows topURLs)
  | .mostHitsRows topURLs => some { u with
      mostHitsTable := u.tableRows topURLs
      framePc := .statsTest }
  | .statsTest =>
      if u.statsQueue.isEmpty then some (u.goto .alertsTest) else some (u.goto (.statsLoop none))
  | .statsLoop stats =>
      if u.statsQueue.isEmpty then some (u.goto (.statsShow stats)) else some (u.goto .statsTake)
  | .statsTake => u.statsQueue.peek.map fun stats =>
      { u with statsQueue := u.statsQueue.remove, framePc := .statsLoop (some stats) }
  | .statsShow none => some (u.goto .idle)
  | .statsShow (some _) => some { u with
      statsTable := some u.store.stats.hitCount
      framePc := .alertsTest }
  | .alertsTest =>
      if u.store.alertQueue.isEmpty then some (u.goto .idle) else some (u.goto .alertsLoop)
  | .alertsLoop =>
      if u.store.alertQueue.isEmpty then some (u.goto .idle) else some (u.goto .alertsTake)
  | .alertsTake => u.store.alertQueue.peek.map fun alert =>
      (u.withAlertsFrame (u.alertsFrame.postAlert alert)).goto .alertsLoop

end Parts

inductive SendStatsSteps (u : Program PcapIf) : Program PcapIf → Prop
  | put (hpc : u.sendStats = .put) :
      SendStatsSteps u { u with statsQueue := u.statsQueue.put (), sendStats := .sleep }
  | sleep (hpc : u.sendStats = .sleep) :
      SendStatsSteps u { u with sendStats := .sleeping (u.store.clock + 1000) }
  | wake (wake : ℤ) (hpc : u.sendStats = .sleeping wake) (hwake : wake ≤ u.store.clock) :
      SendStatsSteps u { u with sendStats := .put }

theorem sendStats_cases {u v : Program PcapIf} (h : u.stepSendStats = some v) :
    SendStatsSteps u v := by
  cases hpc : u.sendStats with
  | put =>
      simp only [stepSendStats, hpc] at h
      cases h
      exact .put hpc
  | sleep =>
      simp only [stepSendStats, hpc] at h
      cases h
      exact .sleep hpc
  | sleeping wake =>
      simp only [stepSendStats, hpc] at h
      split_ifs at h with hwake
      cases h
      exact .wake wake hpc hwake

inductive FrameSteps (u : Program PcapIf) : Program PcapIf → Prop
  | noReport (hpc : u.framePc = .mostHitsTest) (hq : u.store.mostHitsTopURL.items = []) :
      FrameSteps u (u.goto .statsTest)
  | report (hpc : u.framePc = .mostHitsTest) (hq : u.store.mostHitsTopURL.items ≠ []) :
      FrameSteps u (u.goto .mostHitsTake)
  | takeReport (topURLs : List HttpObject) (hpc : u.framePc = .mostHitsTake)
      (hpeek : u.store.mostHitsTopURL.peek = some topURLs) : FrameSteps u
        ((u.withStore { u.store with mostHitsTopURL := u.store.mostHitsTopURL.remove }).goto
          (if topURLs.isEmpty then .statsTest else .mostHitsRows topURLs))
  | showReport (topURLs : List HttpObject) (hpc : u.framePc = .mostHitsRows topURLs) :
      FrameSteps u { u with mostHitsTable := u.tableRows topURLs, framePc := .statsTest }
  | noStats (hpc : u.framePc = .statsTest) (hq : u.statsQueue.items = []) :
      FrameSteps u (u.goto .alertsTest)
  | stats (hpc : u.framePc = .statsTest) (hq : u.statsQueue.items ≠ []) :
      FrameSteps u (u.goto (.statsLoop none))
  | leaveStats (stats : Option Unit) (hpc : u.framePc = .statsLoop stats)
      (hq : u.statsQueue.items = []) : FrameSteps u (u.goto (.statsShow stats))
  | moreStats (stats : Option Unit) (hpc : u.framePc = .statsLoop stats)
      (hq : u.statsQueue.items ≠ []) : FrameSteps u (u.goto .statsTake)
  | takeStats (hpc : u.framePc = .statsTake) (hq : u.statsQueue.items ≠ []) :
      FrameSteps u { u with statsQueue := u.statsQueue.remove, framePc := .statsLoop (some ()) }
  | nullStats (hpc : u.framePc = .statsShow none) : FrameSteps u (u.goto .idle)
  | showStats (hpc : u.framePc = .statsShow (some ())) : FrameSteps u
      { u with statsTable := some u.store.stats.hitCount, framePc := .alertsTest }
  | noAlert (hpc : u.framePc = .alertsTest) (hq : u.store.alertQueue.items = []) :
      FrameSteps u (u.goto .idle)
  | alerts (hpc : u.framePc = .alertsTest) (hq : u.store.alertQueue.items ≠ []) :
      FrameSteps u (u.goto .alertsLoop)
  | leaveAlerts (hpc : u.framePc = .alertsLoop) (hq : u.store.alertQueue.items = []) :
      FrameSteps u (u.goto .idle)
  | moreAlerts (hpc : u.framePc = .alertsLoop) (hq : u.store.alertQueue.items ≠ []) :
      FrameSteps u (u.goto .alertsTake)
  | takeAlert (alert : Alert) (hpc : u.framePc = .alertsTake)
      (hpeek : u.store.alertQueue.peek = some alert) :
      FrameSteps u ((u.withAlertsFrame (u.alertsFrame.postAlert alert)).goto .alertsLoop)

theorem frame_cases {u v : Program PcapIf} (h : u.stepFrame = some v) : FrameSteps u v := by
  cases hpc : u.framePc with
  | idle => simp [stepFrame, hpc] at h
  | mostHitsTest =>
      simp only [stepFrame, hpc, Fifo.isEmpty_iff] at h
      split_ifs at h with hq
      · cases h
        exact .noReport hpc hq
      · cases h
        exact .report hpc hq
  | mostHitsTake =>
      simp only [stepFrame, hpc] at h
      obtain ⟨topURLs, hpeek, rfl⟩ := Option.map_eq_some_iff.1 h
      exact .takeReport topURLs hpc hpeek
  | mostHitsRows topURLs =>
      simp only [stepFrame, hpc] at h
      cases h
      exact .showReport topURLs hpc
  | statsTest =>
      simp only [stepFrame, hpc, Fifo.isEmpty_iff] at h
      split_ifs at h with hq
      · cases h
        exact .noStats hpc hq
      · cases h
        exact .stats hpc hq
  | statsLoop stats =>
      simp only [stepFrame, hpc, Fifo.isEmpty_iff] at h
      split_ifs at h with hq
      · cases h
        exact .leaveStats stats hpc hq
      · cases h
        exact .moreStats stats hpc hq
  | statsTake =>
      simp only [stepFrame, hpc] at h
      obtain ⟨stats, hpeek, rfl⟩ := Option.map_eq_some_iff.1 h
      exact .takeStats hpc (Fifo.items_ne_nil_of_peek hpeek)
  | statsShow stats =>
      cases stats with
      | none =>
          simp only [stepFrame, hpc] at h
          cases h
          exact .nullStats hpc
      | some stats =>
          simp only [stepFrame, hpc] at h
          cases h
          exact .showStats hpc
  | alertsTest =>
      simp only [stepFrame, hpc, Fifo.isEmpty_iff] at h
      split_ifs at h with hq
      · cases h
        exact .noAlert hpc hq
      · cases h
        exact .alerts hpc hq
  | alertsLoop =>
      simp only [stepFrame, hpc, Fifo.isEmpty_iff] at h
      split_ifs at h with hq
      · cases h
        exact .leaveAlerts hpc hq
      · cases h
        exact .moreAlerts hpc hq
  | alertsTake =>
      simp only [stepFrame, hpc] at h
      obtain ⟨alert, hpeek, rfl⟩ := Option.map_eq_some_iff.1 h
      exact .takeAlert alert hpc hpeek

variable [DecidableEq PcapIf] (digit : Char → Option ℕ)

def step (u : Program PcapIf) : ProgramEvent → Option (Program PcapIf)
  | .monitor e => (Monitor.machine.step u.monitor e).map fun m => { u with monitor := m }
  | .sendStats => u.stepSendStats
  | .edit threshold alert mostHits selectedIndex =>
      if u.framePc = .idle then
        some { u with form := { u.form with
          thresholdTextField := threshold
          alertTextField := alert
          mostHitsTextField := mostHits
          selectedIndex := selectedIndex } }
      else none
  | .click =>
      if u.framePc = .idle then
        some (u.withHomeFrame (HomeFrame.startUpdateButtonActionPerformed digit u.homeFrame).1)
      else none
  | .timer => if u.framePc = .idle then some (u.goto .mostHitsTest) else none
  | .frame => u.stepFrame

def machine : Machine (Program PcapIf) ProgramEvent := ⟨step digit⟩

inductive Steps (u : Program PcapIf) : ProgramEvent → Program PcapIf → Prop
  | monitor {e : MonitorEvent} {m : Monitor PcapIf}
      (h : Monitor.machine.step u.monitor e = some m) :
      Steps u (.monitor e) { u with monitor := m }
  | sendStats {v : Program PcapIf} (h : SendStatsSteps u v) : Steps u .sendStats v
  | edit (threshold alert mostHits : JavaString) (selectedIndex : Option ℕ)
      (hidle : u.framePc = .idle) : Steps u (.edit threshold alert mostHits selectedIndex)
        { u with form := { u.form with
          thresholdTextField := threshold
          alertTextField := alert
          mostHitsTextField := mostHits
          selectedIndex := selectedIndex } }
  | click (hidle : u.framePc = .idle) : Steps u .click
      (u.withHomeFrame (HomeFrame.startUpdateButtonActionPerformed digit u.homeFrame).1)
  | timer (hidle : u.framePc = .idle) : Steps u .timer (u.goto .mostHitsTest)
  | frame {v : Program PcapIf} (h : FrameSteps u v) : Steps u .frame v

theorem step_cases {u v : Program PcapIf} {e : ProgramEvent}
    (h : (machine digit).step u e = some v) : Steps digit u e v := by
  cases e with
  | monitor e =>
      obtain ⟨m, hm, rfl⟩ := Option.map_eq_some_iff.1 h
      exact .monitor hm
  | sendStats => exact .sendStats (sendStats_cases h)
  | edit threshold alert mostHits selectedIndex =>
      simp only [machine, step] at h
      split_ifs at h with hidle
      cases h
      exact .edit threshold alert mostHits selectedIndex hidle
  | click =>
      simp only [machine, step] at h
      split_ifs at h with hidle
      cases h
      exact .click hidle
  | timer =>
      simp only [machine, step] at h
      split_ifs at h with hidle
      cases h
      exact .timer hidle
  | frame => exact .frame (frame_cases h)

end Program

end HttpLogMonitor
