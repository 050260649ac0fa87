import HttpLogMonitor.AlertWindow
import HttpLogMonitor.FrameThread
import HttpLogMonitor.TrackerReplacement

/-!
# From a burst to the panel

As long as the alert settings stay the same, one tracker removes hits, and
only old ones. The size that any of the capture threads reads then counts
all young hits. If these exceed the threshold the thread puts an alert, and
the next tick of the frame shows it.
-/

namespace HttpLogMonitor

open Threads

def Store.young (gap : Int32) (s : Store) : List HttpObject :=
  s.alertURLQueue.log.filter fun hit => decide (s.clock - hit.hittingTime < gap.toInt - 100)

namespace Callback

variable {threshold : Int32} {s s' : Store} {c c' : Callback}

theorem Steps.reads (h : Steps threshold s c s' c') (hpc : c.pc = .readSize) :
    s' = s ∧ c'.pc = .testThreshold s.alertURLQueue.size := by
  cases h with
  | readSize _ => exact ⟨rfl, rfl⟩
  | _ => simp_all

theorem Steps.exceeds (h : Steps threshold s c s' c') {n : ℕ} (hpc : c.pc = .testThreshold n)
    (hn : threshold.toInt < n) : c'.pc = .putAlert n := by
  cases h with
  | above m hpc' hm =>
      obtain rfl : m = n := by simpa [hpc] using hpc'.symm
      rfl
  | below m hpc' hm =>
      obtain rfl : m = n := by simpa [hpc] using hpc'.symm
      omega
  | _ => simp_all

theorem Steps.puts_alert (h : Steps threshold s c s' c') (hflag : c.interrupted = false) {n : ℕ}
    (hpc : c.pc = .putAlert n) : ∃ alert : Alert, s'.alertQueue.log = s.alertQueue.log ++ [alert] ∧
      alert.alertType = true ∧ alert.hitCount = n := by
  cases h with
  | putAlert m hpc' _ =>
      obtain rfl : m = n := by simpa [hpc] using hpc'.symm
      exact ⟨⟨s.clock, m, true⟩, rfl, rfl, rfl⟩
  | _ => simp_all

end Callback

namespace Monitor

variable {PcapIf : Type} [DecidableEq PcapIf]

/-! ## The window with any number of capture threads -/

structure Windowed (k : Int32 × Int32) (u : Monitor PcapIf) : Prop where
  one : u.OneTracker k
  aged : ∀ a ∈ u.trackers, a.Aged u.store.clock
  removed_old : ∀ hit ∈ u.store.alertURLQueue.removed,
    k.2.toInt - 100 ≤ u.store.clock - hit.hittingTime

omit [DecidableEq PcapIf] in
theorem windowed_initial {k : Int32 × Int32} {preferences : List (UserPreferences PcapIf)}
    (hk : 0 < k.2.toInt) (h : ∀ p ∈ preferences, p.alertSettings = k) (threshold : Int32)
    (clock : ℤ) : (initial preferences threshold clock).Windowed k :=
  ⟨oneTracker_initial hk h threshold clock, by simp [initial], by simp [initial, Store.initial]⟩

omit [DecidableEq PcapIf] in
theorem aged_perform {clock : ℤ} {trackers : List AlertTracker}
    (h : ∀ a ∈ trackers, a.Aged clock) (c : SnifferCommand PcapIf) :
    ∀ a ∈ AlertTracker.perform trackers c, a.Aged clock := by
  cases c with
  | interruptAlert =>
      have hinterrupt : ∀ a : AlertTracker, a.Aged clock → a.interrupt.Aged clock := fun _ ha => ha
      exact forall_modifyLast hinterrupt h
  | startAlert threshold gap => exact forall_concat h trivial
  | _ => exact h

theorem Windowed.step {k : Int32 × Int32} {u v : Monitor PcapIf} {e : MonitorEvent}
    (hk : 0 < k.2.toInt) (h : u.Windowed k) (hs : Steps u e v) : v.Windowed k := by
  have hone := h.one.step hs
  obtain ⟨hbefore, haged, hold⟩ := h
  cases hs with
  | tick d =>
      refine ⟨hone, fun a ha => (haged a ha).later (by simp [Store.tick]), fun hit hhit => ?_⟩
      have := hold hit hhit
      simp only [Store.tick]
      omega
  | enter heq => exact ⟨hone, haged, hold⟩
  | quiet hsniffer => exact ⟨hone, haged, hold⟩
  | command hsniffer => exact ⟨hone, aged_perform haged _, hold⟩
  | packet heq hr =>
      have hq := Callback.receive_alertURLQueue_eq hr
      have hclock := Callback.receive_clock_eq hr
      exact ⟨hone, by simpa only [hclock] using haged, by simpa only [hq, hclock] using hold⟩
  | capture heq hc =>
      have hclock := hc.clock_eq
      refine ⟨hone, by simpa only [hclock] using haged, ?_⟩
      rcases hc.alertURLQueue_cases with hq | ⟨hit, -, hq⟩
      · simpa only [hq, hclock] using hold
      · simpa only [hq, hclock, Fifo.removed_put] using hold
  | fire heq hdone hcancelled hnext => exact ⟨hone, haged, hold⟩
  | calculator heq hr => cases hr <;> exact ⟨hone, haged, hold⟩
  | @tracker pre post a a' s heq ha =>
      obtain ⟨-, hnil⟩ | ⟨-, b, hb, hsole⟩ := hbefore.tracker
      · simp [hnil] at heq
      rw [heq] at hb
      obtain ⟨rfl, rfl, rfl⟩ := eq_of_append_cons hb
      have hgap : 0 < a.alertGapInMillisecond.toInt := hsole.gap_eq ▸ hk
      have haged' := haged a (by simp [heq])
      have hsafe := hbefore.safe.safe a (by simp [heq])
      refine ⟨hone, fun t ht => ?_, fun hit hhit => ?_⟩
      · obtain rfl := List.mem_singleton.1 ht
        exact haged'.step hgap ha
      · simp only [ha.clock_eq]
        by_cases hsame : s.alertURLQueue.removed = u.store.alertURLQueue.removed
        · exact hold hit (hsame ▸ hhit)
        · obtain ⟨head, -, -, hremoved, hage⟩ := hsafe.removed_eq haged' ha hsame
          simp only [hremoved, List.mem_append, List.mem_singleton] at hhit
          rcases hhit with hhit | rfl
          · exact hold hit hhit
          · rwa [AlertTracker.ageLimit_eq hgap, hsole.gap_eq] at hage

theorem run_windowed {k : Int32 × Int32} {preferences : List (UserPreferences PcapIf)}
    (hk : 0 < k.2.toInt) (hset : ∀ p ∈ preferences, p.alertSettings = k) {threshold : Int32}
    {clock : ℤ} {es : List MonitorEvent} {u : Monitor PcapIf}
    (h : machine.run (initial preferences threshold clock) es = some u) : u.Windowed k :=
  machine.run_invariant (Windowed k) (fun _ _ _ hu hs => hu.step hk (step_cases hs))
    (windowed_initial hk hset threshold clock) h

omit [DecidableEq PcapIf] in
/-- All young hits are still queued. -/
theorem Windowed.length_young_le {k : Int32 × Int32} {u : Monitor PcapIf} (h : u.Windowed k) :
    (u.store.young k.2).length ≤ u.store.alertURLQueue.size := by
  refine Fifo.length_filter_log_le fun hit hhit => ?_
  have := h.removed_old hit hhit
  exact decide_eq_false (by omega)

/-! ## The other threads -/

/-- What the capture threads are about to do. -/
def packetPcs (u : Monitor PcapIf) : List PacketPc := u.runLoops.map fun l => l.callback.pc

/-- A call of `nextPacket` in progress waits for its own thread. -/
theorem Steps.packetPcs_eq {u v : Monitor PcapIf} {e : MonitorEvent} {i : ℕ} {pc : PacketPc}
    (h : Steps u e v) (he : e ≠ .capture i) (hi : u.packetPcs[i]? = some pc) (hpc : pc ≠ .idle) :
    v.packetPcs[i]? = some pc := by
  cases h with
  | @command s c hsniffer =>
      cases c with
      | interruptLoop =>
          have hsame := map_modifyLast_of_eq (g := fun l : RunLoop PcapIf => l.callback.pc)
            (f := fun l => { l with callback := l.callback.interrupt }) (fun _ => rfl) u.runLoops
          simpa only [packetPcs, perform, RunLoop.perform, hsame] using hi
      | startLoop device =>
          have hlength := (List.getElem?_eq_some_iff.1 hi).1
          simp only [packetPcs, perform, RunLoop.perform, List.map_append] at hi hlength ⊢
          rwa [List.getElem?_append_left hlength]
      | _ => exact hi
  | @packet pre post l packet s c heq hr =>
      simp only [packetPcs, heq, List.map_append, List.map_cons] at hi ⊢
      by_cases hsame : i = (pre.map fun l => l.callback.pc).length
      · -- The call would be the one that receives, and be idle.
        rw [hsame, List.getElem?_append_right (Nat.le_refl _), Nat.sub_self] at hi
        exact (hpc (Option.some.inj hi ▸ (Callback.receive_cases hr).1)).elim
      · rwa [getElem?_replace hsame]
  | @capture pre post l s c heq hc =>
      simp only [packetPcs, heq, List.map_append, List.map_cons] at hi ⊢
      have hother : i ≠ (pre.map fun l => l.callback.pc).length := by
        rintro rfl
        exact he (by rw [List.length_map])
      rwa [getElem?_replace hother]
  | _ => exact hi

theorem Steps.capture_cases {u v : Monitor PcapIf} {i : ℕ} (h : Steps u (.capture i) v) :
    ∃ l c, u.runLoops[i]? = some l ∧ u.packetPcs[i]? = some l.callback.pc ∧
      Callback.Steps u.sniffer.vars.threshold u.store l.callback v.store c ∧
      v.packetPcs[i]? = some c.pc := by
  cases h with
  | @capture pre post l s c heq hc =>
      exact ⟨l, c, by simp [heq], by simp [packetPcs, heq], hc, by simp [packetPcs]⟩

omit [DecidableEq PcapIf] in
theorem trackers_perform_ne_nil {trackers : List AlertTracker} (h : trackers ≠ [])
    (c : SnifferCommand PcapIf) : AlertTracker.perform trackers c ≠ [] := by
  cases c with
  | interruptAlert =>
      refine List.ne_nil_of_length_pos ?_
      rw [AlertTracker.perform, length_modifyLast]
      exact List.length_pos_iff.2 h
  | startAlert threshold gap => exact List.append_ne_nil_of_left_ne_nil h _
  | _ => exact h

theorem Steps.trackers_ne_nil {u v : Monitor PcapIf} {e : MonitorEvent} (h : Steps u e v)
    (hne : u.trackers ≠ []) : v.trackers ≠ [] := by
  cases h with
  | command hsniffer => exact trackers_perform_ne_nil hne _
  | tracker heq ha => simp
  | _ => exact hne

/-! ## From the size to the alert -/

/-- Capture thread `i` has read a size of at least `n`, and is this many of
its steps from having put the alert, after the alerts `past`. -/
def Raising (i n : ℕ) (past : List Alert) : ℕ → Monitor PcapIf → Prop
  | 0, u => ∃ between alert later, u.store.alertQueue.log = past ++ between ++ alert :: later ∧
      alert.alertType = true ∧ (n : ℤ) ≤ alert.hitCount
  | 1, u => past <+: u.store.alertQueue.log ∧ ∃ m, n ≤ m ∧ u.packetPcs[i]? = some (.putAlert m)
  | 2, u => past <+: u.store.alertQueue.log ∧ u.trackers ≠ [] ∧
      ∃ m, n ≤ m ∧ u.packetPcs[i]? = some (.testThreshold m)
  | _, _ => False

theorem Raising.step {i n stage : ℕ} {past : List Alert} {u v : Monitor PcapIf} {e : MonitorEvent}
    (h : Raising i n past stage u) (hs : Steps u e v) (he : stage ≠ 0 → e ≠ .capture i) :
    Raising i n past stage v := by
  have hlog := hs.frameQueues.2.log_initial
  match stage, h with
  | 0, ⟨between, alert, later, heq, htype, hle⟩ =>
      obtain ⟨more, hmore⟩ := hlog
      refine ⟨between, alert, later ++ more, ?_, htype, hle⟩
      rw [← hmore, heq, List.append_assoc, List.cons_append]
  | 1, ⟨hpast, m, hm, hpc⟩ =>
      exact ⟨hpast.trans hlog, m, hm, hs.packetPcs_eq (he (by simp)) hpc (by simp)⟩
  | 2, ⟨hpast, htrackers, m, hm, hpc⟩ =>
      exact ⟨hpast.trans hlog, hs.trackers_ne_nil htrackers, m, hm,
        hs.packetPcs_eq (he (by simp)) hpc (by simp)⟩

/-- A step of the thread itself, which nobody has interrupted. -/
theorem Raising.advance {k : Int32 × Int32} {i n stage : ℕ} {past : List Alert}
    {u v : Monitor PcapIf} (hone : u.OneTracker k) (hn : k.1.toInt < n)
    (hflag : ∀ l, u.runLoops[i]? = some l → l.callback.interrupted = false)
    (h : Raising i n past (stage + 1) u) (hs : Steps u (.capture i) v) :
    Raising i n past stage v := by
  obtain ⟨l, c, hl, hpcs, hc, hpcs'⟩ := hs.capture_cases
  have hfree := hflag l hl
  have hlog := hs.frameQueues.2.log_initial
  match stage, h with
  | 0, ⟨⟨between, hpast⟩, m, hm, hput⟩ =>
      obtain hpc : l.callback.pc = .putAlert m := Option.some.inj (hpcs.symm.trans hput)
      obtain ⟨alert, hnew, htype, hcount⟩ := hc.puts_alert hfree hpc
      refine ⟨between, alert, [], ?_, htype, by omega⟩
      rw [hnew, ← hpast]
  | 1, ⟨hpast, htrackers, m, hm, htest⟩ =>
      obtain hpc : l.callback.pc = .testThreshold m := Option.some.inj (hpcs.symm.trans htest)
      obtain ⟨-, hnil⟩ | ⟨hsome, -⟩ := hone.tracker
      · exact (htrackers hnil).elim
      refine ⟨hpast.trans hlog, m, hm, ?_⟩
      rw [hpcs', hc.exceeds hpc (by rw [hone.current.threshold_eq hsome]; omega)]

end Monitor

namespace AlertsFrame

/-- Where a high alert has been posted last, a high row is last. -/
theorem last_row_high (alerts : List Alert) {alert : Alert} (h : alert.alertType = true) :
    ∃ rows row, (replay (alerts ++ [alert])).alertsPanel = rows ++ [row] ∧ row.kind = .high := by
  obtain ⟨n, hn⟩ := kinds_replay (alerts ++ [alert])
  have hlast : (replay (alerts ++ [alert])).previousAlert.alertType = true := by
    rw [replay_concat, previousAlert_postAlert]
    exact h
  rw [if_pos hlast] at hn
  obtain ⟨rows, last, heq, -, hkind⟩ := List.map_eq_append_iff.1 hn
  obtain ⟨row, rfl, hrow⟩ := List.map_eq_singleton_iff.1 hkind
  exact ⟨rows, row, heq, hrow⟩

end AlertsFrame

namespace Program

variable {PcapIf : Type} [DecidableEq PcapIf] {digit : Char → Option ℕ}

omit [DecidableEq PcapIf] in
/-- All preferences clicked so far have these alert settings, and capture
thread `i` makes its steps without an interrupt. -/
def Undisturbed (k : Int32 × Int32) (i : ℕ) (u : Program PcapIf) (e : ProgramEvent) : Prop :=
  (∀ p ∈ u.preferences, p.alertSettings = k) ∧
    (e = .monitor (.capture i) →
      ∀ l ∈ u.monitor.runLoops[i]?, l.callback.interrupted = false)

omit [DecidableEq PcapIf] in
instance (k : Int32 × Int32) (i : ℕ) (u : Program PcapIf) (e : ProgramEvent) :
    Decidable (u.Undisturbed k i e) := by
  unfold Undisturbed
  infer_instance

theorem Refined.windowed {k : Int32 × Int32} (hk : 0 < k.2.toInt) {clock : ℤ} {u : Program PcapIf}
    (h : u.Refined clock) (hset : ∀ p ∈ u.preferences, p.alertSettings = k) :
    u.monitor.Windowed k := by
  obtain ⟨es, hes⟩ := h.reaches
  obtain ⟨⟨hall, hthread, ⟨hvars, htracker⟩, ⟨hlegal, hone, hgaps, hsafe⟩⟩, haged, hold⟩ :=
    Monitor.run_windowed hk hset hes
  exact ⟨⟨⟨hall.coming, hall.sniffer⟩, hthread, ⟨hvars, htracker⟩,
    ⟨⟨hlegal.coming, hlegal.sniffer⟩, hone, hgaps, hsafe⟩⟩, haged, hold⟩

/-- The frame and the user leave the capture threads and the log of
`alertQueue` alone. -/
theorem raising_step {i n stage : ℕ} {past : List Alert} {u v : Program PcapIf} {e : ProgramEvent}
    (h : Monitor.Raising i n past stage u.monitor) (hs : Steps digit u e v)
    (he : stage ≠ 0 → e ≠ .monitor (.capture i)) : Monitor.Raising i n past stage v.monitor := by
  have hunread : ∀ m : Monitor PcapIf,
      Monitor.Raising i n past stage m.unread = Monitor.Raising i n past stage m := by
    intro m
    unfold Monitor.Raising
    split <;> rfl
  cases hs with
  | monitor hm => exact h.step (Monitor.step_cases hm) fun hstage hsame => he hstage (hsame ▸ rfl)
  | sendStats hs => cases hs <;> exact h
  | frame hs => rwa [← hunread, hs.monitor_eq.1, hunread]
  | edit threshold alert mostHits selectedIndex hidle => exact h
  | click hidle =>
      have hsame : ∀ frame : HomeFrame PcapIf, Monitor.Raising i n past stage
          (u.withHomeFrame frame).monitor = Monitor.Raising i n past stage u.monitor := by
        intro frame
        unfold Monitor.Raising
        split <;> rfl
      rwa [hsame]
  | timer hidle => exact h

/-- A burst that a capture thread has seen is put as an alert when the
thread has made two more steps. -/
theorem run_raises {k : Int32 × Int32} (hk : 0 < k.2.toInt) {clock : ℤ} {i n : ℕ}
    (hn : k.1.toInt < n) {past : List Alert} {u v : Program PcapIf} (hu : u.Refined clock)
    (hraising : Monitor.Raising i n past 2 u.monitor) {es : List ProgramEvent}
    (h : (machine digit).run u es = some v)
    (hcalm : (machine digit).Along (Undisturbed k i) u es)
    (hcount : 2 ≤ es.count (.monitor (.capture i))) : Monitor.Raising i n past 0 v.monitor := by
  have hstages := (machine digit).run_stages (.monitor (.capture i))
    (fun stage u => u.Refined clock ∧ Monitor.Raising i n past stage u.monitor)
    (fun stage s e t _ he hs hstep => by
      have hst := step_cases digit hstep
      exact ⟨hs.1.step hst, raising_step hs.2 hst fun _ => he⟩)
    (fun stage s t hP hs hstep => by
      have hst := step_cases digit hstep
      refine ⟨hs.1.step hst, ?_⟩
      cases hst with
      | monitor hm =>
          exact hs.2.advance (hs.1.windowed hk hP.1).one hn (hP.2 rfl) (Monitor.step_cases hm))
    (fun s t hs hstep => by
      have hst := step_cases digit hstep
      exact ⟨hs.1.step hst, raising_step hs.2 hst fun hstage => (hstage rfl).elim⟩)
    hcalm ⟨hu, hraising⟩ h hcount
  exact hstages.2

/-- A hit comes, and then a tick while the call of `nextPacket` goes on. -/
def burstEvents : List ProgramEvent :=
  [.monitor (.capture 0), .monitor (.capture 0), .monitor (.capture 0), .timer]

end Program

end HttpLogMonitor
