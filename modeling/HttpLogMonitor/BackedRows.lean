import HttpLogMonitor.FrameThread

/-!
# What stands behind a row of the panel

Every row of the panel has its figures from an alert. No alert counts more
hits than were captured, and a high alert counts more than some threshold
that was in force, although the capture threads, the trackers and the
changes of the settings overlap.
-/

namespace HttpLogMonitor

open Threads

/-- An alert of a session that began at `start`, with the thresholds
`known` so far and this number of hits put on `alertURLQueue`. -/
structure Alert.Justified (known : List Int32) (start now : ℤ) (hits : ℕ) (alert : Alert) : Prop where
  since : start ≤ alert.alertTime
  past : alert.alertTime ≤ now
  counted : alert.hitCount ≤ hits
  exceeds : alert.alertType = true → ∃ threshold ∈ known, threshold.toInt < alert.hitCount

theorem Alert.Justified.later {known : List Int32} {start now now' : ℤ} {hits hits' : ℕ}
    {alert : Alert} (h : alert.Justified known start now hits) (hnow : now ≤ now')
    (hhits : hits ≤ hits') : alert.Justified known start now' hits' :=
  ⟨h.since, h.past.trans hnow, h.counted.trans (Int.ofNat_le.2 hhits), h.exceeds⟩

namespace AlertRow

def Backed (alerts : List Alert) : AlertRow → Prop
  | highTraffic hitCount alertTime => ⟨alertTime, hitCount, true⟩ ∈ alerts
  | peakTraffic hitCount alertTime => hitCount = 0 ∧ alertTime = none ∨
      ∃ alert ∈ alerts, hitCount = alert.hitCount ∧ alertTime = some alert.alertTime
  | backToNormal hitCount alertTime => ⟨alertTime, hitCount, false⟩ ∈ alerts

theorem Backed.append {alerts : List Alert} {row : AlertRow} (h : row.Backed alerts)
    (more : List Alert) : row.Backed (alerts ++ more) := by
  cases row with
  | highTraffic hitCount alertTime => exact List.mem_append_left _ h
  | backToNormal hitCount alertTime => exact List.mem_append_left _ h
  | peakTraffic hitCount alertTime =>
      rcases h with hnone | ⟨alert, halert, hsame⟩
      · exact Or.inl hnone
      · exact Or.inr ⟨alert, List.mem_append_left _ halert, hsame⟩

end AlertRow

namespace AlertsFrame

/-- The peak remembered is none, or an alert. -/
structure Backed (alerts : List Alert) (frame : AlertsFrame) : Prop where
  rows : ∀ row ∈ frame.alertsPanel, row.Backed alerts
  peak : frame.previousPeakAlert = noPeak ∨
    ∃ alert ∈ alerts, frame.previousPeakAlert = alert.inFrame

theorem backed_newRows {alerts : List Alert} {peak : FrameAlert}
    (hpeak : peak = noPeak ∨ ∃ alert ∈ alerts, peak = alert.inFrame) (alert : Alert) :
    ∀ row ∈ newRows peak alert, row.Backed (alerts ++ [alert]) := by
  obtain ⟨time, count, type⟩ := alert
  intro row hrow
  cases type with
  | true =>
      obtain rfl : row = .highTraffic count time := by simpa [newRows] using hrow
      exact List.mem_append_right _ List.mem_cons_self
  | false =>
      obtain rfl | rfl : row = .peakTraffic peak.hitCount peak.alertTime ∨
          row = .backToNormal count time := by simpa [newRows] using hrow
      · rcases hpeak with rfl | ⟨alert, halert, rfl⟩
        · exact Or.inl ⟨rfl, rfl⟩
        · exact Or.inr ⟨alert, List.mem_append_left _ halert, rfl, rfl⟩
      · exact List.mem_append_right _ List.mem_cons_self

theorem Backed.postAlert {alerts : List Alert} {frame : AlertsFrame} (h : frame.Backed alerts)
    (alert : Alert) : (frame.postAlert alert).Backed (alerts ++ [alert]) := by
  constructor
  · intro row hrow
    rw [alertsPanel_postAlert, List.mem_append] at hrow
    rcases hrow with hrow | hrow
    · exact (h.rows row hrow).append [alert]
    · split at hrow
      · exact (List.not_mem_nil hrow).elim
      · exact backed_newRows h.peak alert row hrow
  · have hbefore : frame.peakBefore alert = noPeak ∨
        ∃ a ∈ alerts ++ [alert], frame.peakBefore alert = a.inFrame := by
      unfold peakBefore
      split
      · exact Or.inl rfl
      · rcases h.peak with hnone | ⟨a, ha, hpeak⟩
        · exact Or.inl hnone
        · exact Or.inr ⟨a, List.mem_append_left _ ha, hpeak⟩
    rw [previousPeakAlert_postAlert]
    split
    · exact Or.inr ⟨alert, List.mem_append_right _ List.mem_cons_self, rfl⟩
    · exact hbefore

theorem backed_replay (alerts : List Alert) : (replay alerts).Backed alerts := by
  induction alerts using List.reverseRecOn with
  | nil => exact ⟨fun _ hrow => (List.not_mem_nil hrow).elim, Or.inl rfl⟩
  | append_singleton alerts alert ih =>
      rw [replay_concat]
      exact ih.postAlert alert

end AlertsFrame

/-! ## The thresholds in force -/

theorem Sniffer.Steps.threshold_cases {PcapIf : Type} [DecidableEq PcapIf] {u v : Sniffer PcapIf}
    {c : Option (SnifferCommand PcapIf)} (h : Steps u v c) :
    v.vars.threshold = u.vars.threshold ∨
      ∃ p, preference u.pc = some p ∧ v.vars.threshold = p.threshold := by
  cases h with
  | @vars pc x c hs =>
      generalize hpc : u.pc = before at hs ⊢
      cases stepVars_cases hs with
      | replaceAlert p hnew hsome => exact Or.inr ⟨p, rfl, rfl⟩
      | firstAlert p hnew hnone => exact Or.inr ⟨p, rfl, rfl⟩
      | _ => exact Or.inl rfl
  | _ => exact Or.inl rfl

/-- What a call of `nextPacket` has read and tested. -/
def Callback.Measured (known : List Int32) (hits : ℕ) (c : Callback) : Prop :=
  match c.pc with
  | .testThreshold n => n ≤ hits
  | .putAlert n => n ≤ hits ∧ ∃ threshold ∈ known, threshold.toInt < n
  | _ => True

namespace Callback

variable {known : List Int32} {hits hits' : ℕ} {threshold : Int32} {s s' : Store} {c c' : Callback}

theorem Measured.later (h : c.Measured known hits) (hle : hits ≤ hits') :
    c.Measured known hits' := by
  unfold Measured at h ⊢
  cases hpc : c.pc <;> simp only [hpc] at h ⊢
  case testThreshold n => exact h.trans hle
  case putAlert n => exact ⟨h.1.trans hle, h.2⟩

theorem Steps.log_le (h : Steps threshold s c s' c') :
    s.alertURLQueue.log.length ≤ s'.alertURLQueue.log.length := by
  rcases h.alertURLQueue_cases with heq | ⟨hit, -, heq⟩
  · rw [heq]
  · simp [heq]

theorem Measured.step (h : c.Measured known s.alertURLQueue.log.length)
    (hthreshold : threshold ∈ known) (hs : Steps threshold s c s' c') :
    c'.Measured known s'.alertURLQueue.log.length := by
  cases hs with
  | readSize hpc => exact s.alertURLQueue.items_suffix.length_le
  | above n hpc hn =>
      simp only [Measured, hpc] at h
      exact ⟨h, threshold, hthreshold, hn⟩
  | _ => trivial

/-- An alert that is put has been measured. -/
theorem Measured.justified {start : ℤ} (h : c.Measured known s.alertURLQueue.log.length)
    (hstart : start ≤ s.clock) (hs : Steps threshold s c s' c') :
    ∀ alert ∈ s'.alertQueue.log, alert ∈ s.alertQueue.log ∨
      alert.Justified known start s.clock s.alertURLQueue.log.length := by
  intro alert halert
  rcases hs.alertQueue_cases with heq | ⟨n, hpc, heq⟩
  · exact Or.inl (heq ▸ halert)
  · simp only [Measured, hpc] at h
    rw [heq, Fifo.log_put, List.mem_append, List.mem_singleton] at halert
    rcases halert with hold | rfl
    · exact Or.inl hold
    · exact Or.inr ⟨hstart, le_refl _, Int.ofNat_le.2 h.1, fun _ => h.2⟩

end Callback

/-- A recovery counts the hits queued when it is made. -/
theorem AlertTracker.Steps.justified {known : List Int32} {start : ℤ} {s s' : Store}
    {a a' : AlertTracker} (h : Steps s a s' a') (hstart : start ≤ s.clock) :
    ∀ alert, a'.pc = .putAlert alert →
      alert.Justified known start s.clock s.alertURLQueue.log.length := by
  intro alert hpc
  cases h with
  | sizeRead hpc' =>
      cases hpc
      exact ⟨hstart, le_refl _, Int.ofNat_le.2 s.alertURLQueue.items_suffix.length_le, by simp⟩
  | _ => simp_all [goto, caught]

namespace Monitor

variable {PcapIf : Type}

structure Justified (known : List Int32) (start : ℤ) (u : Monitor PcapIf) : Prop where
  coming : u.All fun p => p.threshold ∈ known
  threshold : u.sniffer.vars.threshold ∈ known
  clock : start ≤ u.store.clock
  sizes : ∀ l ∈ u.runLoops, l.callback.Measured known u.store.alertURLQueue.log.length
  ready : ∀ a ∈ u.trackers, ∀ alert, a.pc = .putAlert alert →
    alert.Justified known start u.store.clock u.store.alertURLQueue.log.length
  alerts : ∀ alert ∈ u.store.alertQueue.log,
    alert.Justified known start u.store.clock u.store.alertURLQueue.log.length

theorem justified_initial {known : List Int32} {preferences : List (UserPreferences PcapIf)}
    {threshold : Int32} (hthreshold : threshold ∈ known)
    (h : ∀ p ∈ preferences, p.threshold ∈ known) (clock : ℤ) :
    (initial preferences threshold clock).Justified known clock :=
  ⟨all_initial h threshold clock, hthreshold, le_refl _, by simp [initial], by simp [initial],
    by simp [initial, Store.initial]⟩

theorem Justified.perform {known : List Int32} {start : ℤ} {u : Monitor PcapIf}
    (h : u.Justified known start) (c : SnifferCommand PcapIf) :
    (perform u c).Justified known start := by
  obtain ⟨hcoming, hthreshold, hclock, hsizes, hready, halerts⟩ := h
  have hcoming' : (Monitor.perform u c).All fun p => p.threshold ∈ known :=
    ⟨hcoming.coming, hcoming.sniffer⟩
  cases c with
  | interruptLoop =>
      refine ⟨hcoming', hthreshold, hclock, ?_, hready, halerts⟩
      exact forall_modifyLast (f := fun l : RunLoop PcapIf =>
        { l with callback := l.callback.interrupt }) (fun _ hl => hl) hsizes
  | startLoop device =>
      exact ⟨hcoming', hthreshold, hclock, forall_concat hsizes trivial, hready, halerts⟩
  | interruptAlert =>
      refine ⟨hcoming', hthreshold, hclock, hsizes, ?_, halerts⟩
      exact forall_modifyLast (f := AlertTracker.interrupt) (fun _ ha => ha) hready
  | startAlert threshold gap =>
      refine ⟨hcoming', hthreshold, hclock, hsizes, ?_, halerts⟩
      refine forall_concat hready fun alert hpc => ?_
      cases hpc
  | _ => exact ⟨hcoming', hthreshold, hclock, hsizes, hready, halerts⟩

variable [DecidableEq PcapIf]

theorem Justified.sniffer {known : List Int32} {start : ℤ} {u : Monitor PcapIf}
    (h : u.Justified known start) {s : Sniffer PcapIf} {c : Option (SnifferCommand PcapIf)}
    (hs : Sniffer.Steps u.sniffer s c) :
    Monitor.Justified known start { u with sniffer := s } := by
  refine ⟨⟨h.coming.coming, h.coming.sniffer.step hs⟩, ?_, h.clock, h.sizes, h.ready, h.alerts⟩
  rcases hs.threshold_cases with hsame | ⟨p, hp, hset⟩
  · exact hsame ▸ h.threshold
  · exact hset ▸ h.coming.sniffer.handled p hp

theorem Justified.step {known : List Int32} {start : ℤ} {u v : Monitor PcapIf} {e : MonitorEvent}
    (h : u.Justified known start) (hs : Steps u e v) : v.Justified known start := by
  have hcoming := h.coming.step hs
  have ⟨_, hthreshold, hclock, hsizes, hready, halerts⟩ := h
  cases hs with
  | tick d =>
      have hnow : u.store.clock ≤ u.store.clock + d := by omega
      exact ⟨hcoming, hthreshold, hclock.trans hnow, hsizes,
        fun a ha alert hpc => (hready a ha alert hpc).later hnow (le_refl _),
        fun alert halert => (halerts alert halert).later hnow (le_refl _)⟩
  | enter heq => exact ⟨hcoming, hthreshold, hclock, hsizes, hready, halerts⟩
  | quiet hsniffer => exact h.sniffer hsniffer
  | command hsniffer => exact (h.sniffer hsniffer).perform _
  | @packet pre post l packet s c heq hr =>
      rw [heq] at hsizes
      obtain ⟨-, -, ⟨rfl, rfl⟩ | ⟨url, -, rfl, hpc⟩⟩ := Callback.receive_cases hr
      · exact ⟨hcoming, hthreshold, hclock, hsizes, hready, halerts⟩
      · refine ⟨hcoming, hthreshold, hclock, forall_replace hsizes ?_, hready, halerts⟩
        simp only [Callback.Measured, hpc]
  | @capture pre post l s c heq hc =>
      have hl := hsizes l (by simp [heq])
      have hlater : ∀ alert : Alert,
          alert.Justified known start u.store.clock u.store.alertURLQueue.log.length →
          alert.Justified known start s.clock s.alertURLQueue.log.length :=
        fun alert halert => halert.later hc.clock_eq.ge hc.log_le
      rw [heq] at hsizes
      refine ⟨hcoming, hthreshold, hclock.trans hc.clock_eq.ge,
        forall_replace (fun r hr => (hsizes r hr).later hc.log_le) (hl.step hthreshold hc),
        fun a ha alert hpc => hlater alert (hready a ha alert hpc), fun alert halert => ?_⟩
      rcases hl.justified hclock hc alert halert with hold | hnew
      · exact hlater alert (halerts alert hold)
      · exact hlater alert hnew
  | fire heq hdone hcancelled hnext =>
      exact ⟨hcoming, hthreshold, hclock, hsizes, hready, halerts⟩
  | calculator heq hr =>
      cases hr <;> exact ⟨hcoming, hthreshold, hclock, hsizes, hready, halerts⟩
  | @tracker pre post a a' s heq ha =>
      have ha' := hready a (by simp [heq])
      rw [heq] at hready
      refine ⟨hcoming, hthreshold, ?_, ?_, ?_, ?_⟩
      all_goals simp only [ha.clock_eq, ha.captures_eq.1]
      · exact hclock
      · exact hsizes
      · exact forall_replace hready (ha.justified hclock)
      · intro alert halert
        rcases ha.alertQueue_cases with hq | ⟨new, hpc, hq⟩
        · exact halerts alert (hq ▸ halert)
        · rw [hq, Fifo.log_put, List.mem_append, List.mem_singleton] at halert
          rcases halert with hold | rfl
          · exact halerts alert hold
          · exact ha' alert hpc

theorem run_justified {known : List Int32} {preferences : List (UserPreferences PcapIf)}
    {threshold : Int32} (hthreshold : threshold ∈ known)
    (hknown : ∀ p ∈ preferences, p.threshold ∈ known) {clock : ℤ} {es : List MonitorEvent}
    {u : Monitor PcapIf} (h : machine.run (initial preferences threshold clock) es = some u) :
    u.Justified known clock :=
  machine.run_invariant (Justified known clock) (fun _ _ _ hu hs => hu.step (step_cases hs))
    (justified_initial hthreshold hknown clock) h

end Monitor

namespace Program

variable {PcapIf : Type} [DecidableEq PcapIf]

omit [DecidableEq PcapIf] in
/-- The thresholds that may have been in force. -/
def thresholds (u : Program PcapIf) : List Int32 :=
  mainThreshold :: u.preferences.map UserPreferences.threshold

/-- In every state of the program every row of the panel is backed by the
alerts taken, and all alerts put are justified. -/
theorem rows_backed (digit : Char → Option ℕ) (form : Form PcapIf) (clock : ℤ)
    (es : List ProgramEvent) (u : Program PcapIf)
    (h : (machine digit).run (initial form clock) es = some u) :
    (∀ row ∈ u.alertsPanel, row.Backed u.store.alertQueue.removed) ∧
      ∀ alert ∈ u.store.alertQueue.log, alert.Justified u.thresholds clock u.store.clock
        u.store.alertURLQueue.log.length := by
  constructor
  · rw [(run_posted h).alertsPanel_eq]
    exact (AlertsFrame.backed_replay u.store.alertQueue.removed).rows
  · obtain ⟨es', hes'⟩ := (run_refined h).reaches
    have hknown : ∀ p ∈ u.preferences, p.threshold ∈ u.thresholds := fun p hp =>
      List.mem_cons_of_mem _ (List.mem_map_of_mem hp)
    exact (Monitor.run_justified List.mem_cons_self hknown hes').alerts

theorem rows_backed_hit : ∃ u : Program ℕ,
    (machine asciiDigit).run (initial everyHit 0) (hitEvents ++ tickEvents) = some u ∧
      u.alertsPanel = [.highTraffic 1 0] ∧ u.thresholds = [10, 0] ∧
      ∀ row ∈ u.alertsPanel, row.Backed u.store.alertQueue.removed := by
  have hrun : ((machine asciiDigit).run (initial everyHit 0) (hitEvents ++ tickEvents)).any
      (fun u => decide (u.alertsPanel = [.highTraffic 1 0] ∧ u.thresholds = [10, 0])) = true := by
    decide +kernel
  obtain ⟨u, hu, htest⟩ := (Option.any_eq_true _ _).1 hrun
  obtain ⟨hpanel, hthresholds⟩ := of_decide_eq_true htest
  exact ⟨u, hu, hpanel, hthresholds, (rows_backed asciiDigit everyHit 0 _ u hu).1⟩

end Program

end HttpLogMonitor
