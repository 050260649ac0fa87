import HttpLogMonitor.Library.Blocks
import HttpLogMonitor.Library.Fifo
import HttpLogMonitor.Objects

/-!
# The alert history of the frame

`postAlerts` runs on every tick of the user interface. It empties
`alertQueue` and adds rows to `alertsPanel` where the type of the alert
differs from that of the alert before it.
-/

namespace HttpLogMonitor

/-- An `Alert` whose date may be null. -/
structure FrameAlert where
  alertTime : Option ℤ
  hitCount : ℤ
  alertType : Bool
  deriving DecidableEq

def Alert.inFrame (alert : Alert) : FrameAlert := ⟨some alert.alertTime, alert.hitCount, alert.alertType⟩

inductive AlertRow where
  | highTraffic (hitCount alertTime : ℤ)
  | peakTraffic (hitCount : ℤ) (alertTime : Option ℤ)
  | backToNormal (hitCount alertTime : ℤ)
  deriving DecidableEq

def intText (n : ℤ) : JavaString := (toString n).toList

/-- The text of a row. How Java writes a date is a parameter. -/
def AlertRow.text (dateText : ℤ → JavaString) : AlertRow → JavaString
  | highTraffic hitCount alertTime =>
      "High traffic alert - hits = ".toList ++ intText hitCount ++ ", triggered at ".toList ++
        dateText alertTime
  | peakTraffic hitCount alertTime =>
      "Peak traffic - hits = ".toList ++ intText hitCount ++ ", triggered at ".toList ++
        (alertTime.map dateText).getD "null".toList
  | backToNormal hitCount alertTime =>
      "Traffic back to normal - hits = ".toList ++ intText hitCount ++ ", at ".toList ++
        dateText alertTime

structure AlertsFrame where
  alertQueue : Fifo Alert
  previousAlert : FrameAlert
  previousPeakAlert : FrameAlert
  alertsPanel : List AlertRow

namespace AlertsFrame

def noPeak : FrameAlert := ⟨none, 0, true⟩

def initial : AlertsFrame := ⟨Fifo.empty, ⟨none, 0, false⟩, noPeak, []⟩

/-- The branch for an alert whose type differs from the one before it. -/
def addRows (frame : AlertsFrame) (alert : Alert) : AlertsFrame :=
  if alert.alertType then
    { frame with
      alertsPanel := frame.alertsPanel ++ [.highTraffic alert.hitCount alert.alertTime] }
  else
    { frame with
      alertsPanel := frame.alertsPanel ++
        [.peakTraffic frame.previousPeakAlert.hitCount frame.previousPeakAlert.alertTime,
          .backToNormal alert.hitCount alert.alertTime]
      previousPeakAlert := noPeak }

def updatePeak (frame : AlertsFrame) (alert : Alert) : AlertsFrame :=
  if frame.previousPeakAlert.hitCount < alert.hitCount then
    { frame with previousPeakAlert := alert.inFrame }
  else frame

/-- One turn of the loop, with the alert that `take` returned. -/
def postAlert (frame : AlertsFrame) (alert : Alert) : AlertsFrame :=
  let taken := { frame with alertQueue := frame.alertQueue.remove }
  let shown :=
    if alert.alertType ≠ frame.previousAlert.alertType then taken.addRows alert else taken
  { shown.updatePeak alert with previousAlert := alert.inFrame }

/-- The loop ends when the queue is empty. -/
def postAlerts (frame : AlertsFrame) : AlertsFrame :=
  frame.alertQueue.items.foldl postAlert frame

/-- The alerts that are put before or during a call, and the call. -/
def tick (frame : AlertsFrame) (alerts : List Alert) : AlertsFrame :=
  { frame with alertQueue := alerts.foldl Fifo.put frame.alertQueue }.postAlerts

def posted (batches : List (List Alert)) : AlertsFrame := batches.foldl tick initial

/-! ## One turn of the loop -/

@[simp] theorem previousAlert_postAlert (frame : AlertsFrame) (alert : Alert) :
    (frame.postAlert alert).previousAlert = alert.inFrame := rfl

theorem postAlert_withQueue (frame : AlertsFrame) (q : Fifo Alert) (alert : Alert) :
    { frame with alertQueue := q }.postAlert alert =
      { frame.postAlert alert with alertQueue := q.remove } := by
  unfold postAlert addRows updatePeak
  grind

/-- The peak against which the alert is compared. -/
def peakBefore (frame : AlertsFrame) (alert : Alert) : FrameAlert :=
  if alert.alertType = false ∧ frame.previousAlert.alertType = true then noPeak
  else frame.previousPeakAlert

theorem previousPeakAlert_postAlert (frame : AlertsFrame) (alert : Alert) :
    (frame.postAlert alert).previousPeakAlert =
      if (frame.peakBefore alert).hitCount < alert.hitCount then alert.inFrame
      else frame.peakBefore alert := by
  unfold postAlert addRows updatePeak peakBefore
  grind

/-- The rows that an alert adds if its type is new. -/
def newRows (peak : FrameAlert) (alert : Alert) : List AlertRow :=
  if alert.alertType then [.highTraffic alert.hitCount alert.alertTime]
  else [.peakTraffic peak.hitCount peak.alertTime, .backToNormal alert.hitCount alert.alertTime]

theorem alertsPanel_postAlert (frame : AlertsFrame) (alert : Alert) :
    (frame.postAlert alert).alertsPanel = frame.alertsPanel ++
      if alert.alertType = frame.previousAlert.alertType then []
      else newRows frame.previousPeakAlert alert := by
  unfold postAlert addRows updatePeak newRows
  grind

/-! ## All turns, over all ticks -/

/-- The frame after these alerts, one after the other. -/
def replay (alerts : List Alert) : AlertsFrame := alerts.foldl postAlert initial

theorem replay_append (alerts more : List Alert) :
    replay (alerts ++ more) = more.foldl postAlert (replay alerts) :=
  List.foldl_append

theorem replay_concat (alerts : List Alert) (alert : Alert) :
    replay (alerts ++ [alert]) = (replay alerts).postAlert alert :=
  replay_append alerts [alert]

theorem foldl_postAlert_withQueue (frame : AlertsFrame) (q : Fifo Alert) (alerts : List Alert)
    (h : q.items = alerts) :
    ∃ q' : Fifo Alert, q'.items = [] ∧ q'.log = q.log ∧
      alerts.foldl postAlert { frame with alertQueue := q } =
        { alerts.foldl postAlert frame with alertQueue := q' } := by
  induction alerts generalizing frame q with
  | nil => exact ⟨q, h, rfl, rfl⟩
  | cons a as ih =>
      have has : q.remove.items = as := by rw [Fifo.items_remove, h, List.tail_cons]
      obtain ⟨q', hitems, hlog, heq⟩ := ih (frame.postAlert a) q.remove has
      refine ⟨q', hitems, hlog, ?_⟩
      rw [List.foldl_cons, List.foldl_cons, postAlert_withQueue, heq]

theorem foldl_put (q : Fifo Alert) (alerts : List Alert) :
    (alerts.foldl Fifo.put q).items = q.items ++ alerts ∧
      (alerts.foldl Fifo.put q).log = q.log ++ alerts := by
  induction alerts generalizing q with
  | nil => exact ⟨(List.append_nil _).symm, (List.append_nil _).symm⟩
  | cons a as ih =>
      obtain ⟨hitems, hlog⟩ := ih (q.put a)
      rw [List.foldl_cons, hitems, hlog, Fifo.items_put, Fifo.log_put, List.append_assoc,
        List.append_assoc]
      exact ⟨rfl, rfl⟩

/-- How the alerts come in ticks makes no difference. -/
theorem posted_eq (batches : List (List Alert)) :
    ∃ q : Fifo Alert, q.items = [] ∧ q.log = batches.flatten ∧
      posted batches = { replay batches.flatten with alertQueue := q } := by
  induction batches using List.reverseRecOn with
  | nil => exact ⟨Fifo.empty, rfl, rfl, rfl⟩
  | append_singleton batches batch ih =>
      obtain ⟨q, hitems, hlog, heq⟩ := ih
      obtain ⟨hput, hputLog⟩ := foldl_put q batch
      rw [hitems, List.nil_append] at hput
      obtain ⟨q', hitems', hlog', hrun⟩ :=
        foldl_postAlert_withQueue (replay batches.flatten) (batch.foldl Fifo.put q) batch hput
      have hflat : (batches ++ [batch]).flatten = batches.flatten ++ batch := by simp
      refine ⟨q', hitems', ?_, ?_⟩
      · rw [hlog', hputLog, hlog, hflat]
      · rw [hflat, replay_append, ← hrun]
        unfold posted at heq ⊢
        rw [List.foldl_concat, heq]
        unfold tick postAlerts
        simp only [hput]

theorem alertsPanel_posted (batches : List (List Alert)) :
    (posted batches).alertsPanel = (replay batches.flatten).alertsPanel := by
  obtain ⟨q, -, -, heq⟩ := posted_eq batches
  rw [heq]

theorem alertsPanel_foldl_prefix (frame : AlertsFrame) (alerts : List Alert) :
    frame.alertsPanel <+: (alerts.foldl postAlert frame).alertsPanel := by
  induction alerts generalizing frame with
  | nil => exact List.prefix_rfl
  | cons a as ih =>
      apply List.IsPrefix.trans _ (ih (frame.postAlert a))
      rw [alertsPanel_postAlert]
      exact List.prefix_append _ _

end AlertsFrame

end HttpLogMonitor
