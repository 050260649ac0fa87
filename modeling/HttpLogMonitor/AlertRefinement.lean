import HttpLogMonitor.AlertSystem
import HttpLogMonitor.TrackerReplacement

/-!
# The alerts of the whole monitor

As long as the user changes neither the device nor the alert settings,
the monitor has one capture thread and one tracker, and nobody interrupts
them. For the alerts it is then an `AlertSystem`, whatever becomes of the
report timers. What holds of all alert systems so holds of such sessions,
and what an alert system can do such a session can do.
-/

namespace HttpLogMonitor

/-- The stores agree in all that the alerts and the statistics show. -/
structure SameAlerts (s s' : Store) : Prop where
  clock_eq : s'.clock = s.clock
  nextRef_eq : s'.nextRef = s.nextRef
  hits_eq : s'.mostHitsURLQueue.log = s.mostHitsURLQueue.log
  queue_eq : s'.alertURLQueue = s.alertURLQueue
  alerts_eq : s'.alertQueue = s.alertQueue
  stats_eq : s'.stats = s.stats

namespace SameAlerts

variable {s s' : Store}

theorem refl (s : Store) : SameAlerts s s := ⟨rfl, rfl, rfl, rfl, rfl, rfl⟩

theorem symm (h : SameAlerts s s') : SameAlerts s' s :=
  ⟨h.clock_eq.symm, h.nextRef_eq.symm, h.hits_eq.symm, h.queue_eq.symm, h.alerts_eq.symm,
    h.stats_eq.symm⟩

theorem tick (h : SameAlerts s s') (d : ℕ) : SameAlerts (s.tick d) (s'.tick d) :=
  ⟨by simp [Store.tick, h.clock_eq], h.nextRef_eq, h.hits_eq, h.queue_eq, h.alerts_eq, h.stats_eq⟩

theorem newHit_eq (h : SameAlerts s s') (url : JavaString) : s'.newHit url = s.newHit url := by
  rw [Store.newHit, Store.newHit, h.nextRef_eq, h.clock_eq]

theorem create (h : SameAlerts s s') (url : JavaString) :
    SameAlerts (s.create url) (s'.create url) :=
  ⟨h.clock_eq, by simp [Store.create, h.nextRef_eq], h.hits_eq, h.queue_eq, h.alerts_eq, h.stats_eq⟩

end SameAlerts

namespace Callback

variable {threshold : Int32} {s s' t : Store} {c c' : Callback} {packet : PcapPacket}

theorem receive_mirrored (h : receive s c packet = some (s', c')) (hsame : SameAlerts s t) :
    ∃ t', receive t c packet = some (t', c') ∧ SameAlerts s' t' := by
  unfold receive at h ⊢
  split_ifs at h ⊢ with hidle
  cases hurl : packet.hitUrl with
  | none =>
      simp only [hurl, Option.some.injEq, Prod.mk.injEq] at h ⊢
      obtain ⟨rfl, rfl⟩ := h
      exact ⟨t, ⟨rfl, rfl⟩, hsame⟩
  | some url =>
      simp only [hurl, Option.some.injEq, Prod.mk.injEq] at h ⊢
      obtain ⟨rfl, rfl⟩ := h
      exact ⟨t.create url, ⟨rfl, by rw [hsame.newHit_eq]⟩, hsame.create url⟩

theorem Steps.mirrored (h : Steps threshold s c s' c') (hsame : SameAlerts s t) :
    ∃ t', step threshold t c = some (t', c') ∧ SameAlerts s' t' := by
  obtain ⟨hclock, href, hhits, hqueue, halerts, hstats⟩ := hsame
  cases h with
  | caught hflag hput =>
      refine ⟨t, ?_, hclock, href, hhits, hqueue, halerts, hstats⟩
      rcases hput with ⟨hit, hpc⟩ | ⟨hit, hpc⟩ | ⟨n, hpc⟩ <;> simp [step, hpc, hflag]
  | putMostHits hit hpc hflag =>
      refine ⟨{ t with mostHitsURLQueue := t.mostHitsURLQueue.put hit }, ?_, hclock, href, ?_, hqueue,
        halerts, hstats⟩
      · simp [step, hpc, hflag]
      · simp [hhits]
  | putAlertURL hit hpc hflag =>
      refine ⟨{ t with alertURLQueue := t.alertURLQueue.put hit }, ?_, hclock, href, hhits, ?_,
        halerts, hstats⟩
      · simp [step, hpc, hflag]
      · simp [hqueue]
  | readSize hpc =>
      exact ⟨t, by simp [step, hpc, hqueue], hclock, href, hhits, hqueue, halerts, hstats⟩
  | above n hpc hn =>
      exact ⟨t, by simp [step, hpc, hn], hclock, href, hhits, hqueue, halerts, hstats⟩
  | below n hpc hn =>
      exact ⟨t, by simp [step, hpc, Int.not_lt.2 hn], hclock, href, hhits, hqueue, halerts, hstats⟩
  | putAlert n hpc hflag =>
      refine ⟨{ t with alertQueue := t.alertQueue.put ⟨t.clock, n, true⟩ }, ?_, hclock, href, hhits,
        hqueue, ?_, hstats⟩
      · simp [step, hpc, hflag]
      · simp [halerts, hclock]
  | updateStats hpc =>
      refine ⟨{ t with stats := ⟨t.stats.hitCount + 1⟩ }, ?_, hclock, href, hhits, hqueue, halerts, ?_⟩
      · simp [step, hpc]
      · simp [hstats]

end Callback

/-- A tracker reads and writes nothing in which the stores differ. -/
theorem AlertTracker.Steps.mirrored {s s' t : Store} {a a' : AlertTracker} (h : Steps s a s' a')
    (hsame : SameAlerts s t) : ∃ t', Steps t a t' a' ∧ SameAlerts s' t' := by
  obtain ⟨clock, nextRef, heap, hits, tops, urls, alerts, stats⟩ := t
  obtain ⟨rfl, rfl, hhits, rfl, rfl, rfl⟩ := hsame
  refine ⟨⟨s.clock, s.nextRef, heap, hits, tops, s'.alertURLQueue, s'.alertQueue, s.stats⟩,
    step_cases ?_, ?_⟩
  · cases h with
    | high hpc hsize => simp [step, hpc, Int.not_le.2 hsize]
    | negativeSleep hit hpc hlast hage hneg => simp [step, hpc, hlast, hage, hneg]
    | waitHead hit hpc hlast hage hwait => simp [step, hpc, hlast, hage, Int.not_lt.2 hwait]
    | expired hit hpc hlast hage => simp [step, hpc, hlast, Int.not_lt.2 hage]
    | removeNothing hpc hq => rcases hpc with hpc | hpc <;> simp [step, hpc, hq, Fifo.isEmpty_iff]
    | _ => simp_all [step, Fifo.isEmpty_iff]
  · cases h <;> exact ⟨rfl, rfl, hhits, rfl, rfl, rfl⟩

namespace Sniffer

variable {PcapIf : Type} [DecidableEq PcapIf]

def DeviceConstant (device : PcapIf) (pc : SnifferPc PcapIf) (x : SnifferVars PcapIf) : Prop :=
  match pc with
  | .interruptLoop _ => False
  | .startLoop _ => x.loopThread = none ∧ x.device = some device
  | _ => x.loopThread = some device ∧ x.device = some device ∨ x.loopThread = none ∧ x.device = none

theorem DeviceConstant.stepVars {device : PcapIf} {x x' : SnifferVars PcapIf}
    {pc pc' : SnifferPc PcapIf} {c : Option (SnifferCommand PcapIf)}
    (hp : ∀ p, preference pc = some p → p.device = device) (h : DeviceConstant device pc x)
    (hs : stepVars x pc = some (pc', x', c)) :
    DeviceConstant device pc' x' ∧
      (x'.loopThread = x.loopThread ∧
          (∀ loops, c.toList.foldl RunLoop.perform loops = loops) ∨
        x.loopThread = none ∧ x'.loopThread = some device ∧ c = some (.startLoop device)) := by
  cases stepVars_cases hs with
  | replaceDevice p hnew hsome =>
      obtain rfl : p.device = device := hp p rfl
      rcases h with ⟨-, hdevice⟩ | ⟨hnone, -⟩
      · exact (hnew hdevice).elim
      · simp [hnone] at hsome
  | firstDevice p hnew hnone =>
      exact ⟨⟨hnone, congrArg some (hp p rfl)⟩, Or.inl ⟨rfl, fun _ => rfl⟩⟩
  | startLoop p =>
      obtain rfl : p.device = device := hp p rfl
      exact ⟨Or.inl ⟨rfl, h.2⟩, Or.inr ⟨h.1, rfl, rfl⟩⟩
  | interruptLoop p => exact h.elim
  | _ => exact ⟨h, Or.inl ⟨rfl, fun _ => rfl⟩⟩

theorem DeviceConstant.step {device : PcapIf} {u v : Sniffer PcapIf}
    {c : Option (SnifferCommand PcapIf)} (hall : u.All fun p => p.device = device)
    (h : DeviceConstant device u.pc u.vars) (hs : Steps u v c) :
    DeviceConstant device v.pc v.vars ∧
      (v.vars.loopThread = u.vars.loopThread ∧
          (∀ loops, c.toList.foldl RunLoop.perform loops = loops) ∨
        u.vars.loopThread = none ∧ v.vars.loopThread = some device ∧
          c = some (.startLoop device)) := by
  cases hs with
  | take p hpc hpeek =>
      rw [hpc] at h
      exact ⟨h, Or.inl ⟨rfl, fun _ => rfl⟩⟩
  | skip p hpc hq =>
      rw [hpc] at h
      exact ⟨h, Or.inl ⟨rfl, fun _ => rfl⟩⟩
  | handle p hpc hq =>
      rw [hpc] at h
      exact ⟨h, Or.inl ⟨rfl, fun _ => rfl⟩⟩
  | vars hs => exact h.stepVars hall.handled hs

end Sniffer

namespace Monitor

variable {PcapIf : Type} [DecidableEq PcapIf]

/-- The user leaves the device and the alert settings alone. -/
structure Steady (k : Int32 × Int32) (device : PcapIf) (u : Monitor PcapIf) : Prop where
  one : u.OneTracker k
  devices : u.All fun p => p.device = device
  vars : Sniffer.DeviceConstant device u.sniffer.pc u.sniffer.vars

omit [DecidableEq PcapIf] in
theorem steady_initial {k : Int32 × Int32} {device : PcapIf}
    {preferences : List (UserPreferences PcapIf)} (hk : 0 < k.2.toInt)
    (h : ∀ p ∈ preferences, p.alertSettings = k ∧ p.device = device) (threshold : Int32)
    (clock : ℤ) : (initial preferences threshold clock).Steady k device :=
  ⟨oneTracker_initial hk (fun p hp => (h p hp).1) threshold clock,
    all_initial (fun p hp => (h p hp).2) threshold clock, Or.inr ⟨rfl, rfl⟩⟩

theorem Steady.step {k : Int32 × Int32} {device : PcapIf} {u v : Monitor PcapIf}
    {e : MonitorEvent} (h : u.Steady k device) (hs : Steps u e v) : v.Steady k device := by
  refine ⟨h.one.step hs, h.devices.step hs, ?_⟩
  cases hs with
  | quiet hsniffer => exact (h.vars.step h.devices.sniffer hsniffer).1
  | command hsniffer => exact (h.vars.step h.devices.sniffer hsniffer).1
  | _ => exact h.vars

/-- The alert system that such a monitor contains. It has both threads
from the start. -/
structure Alerted (k : Int32 × Int32) (device : PcapIf) (u : Monitor PcapIf) (w : AlertSystem) :
    Prop where
  store : SameAlerts u.store w.store
  callback : u.sniffer.vars.loopThread = none ∧ u.runLoops = [] ∧ w.callback = Callback.fresh ∨
    u.sniffer.vars.loopThread = some device ∧ u.runLoops = [⟨device, w.callback⟩]
  tracker : u.trackers = [] ∧ w.tracker = AlertTracker.fresh k.1 k.2 ∨ u.trackers = [w.tracker]

omit [DecidableEq PcapIf] in
theorem alerted_initial (preferences : List (UserPreferences PcapIf)) (threshold : Int32)
    (clock : ℤ) (k : Int32 × Int32) (device : PcapIf) :
    (initial preferences threshold clock).Alerted k device (AlertSystem.initial k.1 k.2 clock) :=
  ⟨.refl _, Or.inl ⟨rfl, rfl, rfl⟩, Or.inl ⟨rfl, rfl⟩⟩

omit [DecidableEq PcapIf] in
theorem Alerted.loop_eq {k : Int32 × Int32} {device : PcapIf} {u : Monitor PcapIf}
    {w : AlertSystem} (h : u.Alerted k device w) {pre post : List (RunLoop PcapIf)}
    {l : RunLoop PcapIf} (heq : u.runLoops = pre ++ l :: post) :
    u.sniffer.vars.loopThread = some device ∧ pre = [] ∧ l = ⟨device, w.callback⟩ ∧ post = [] := by
  rcases h.callback with ⟨-, hnil, -⟩ | ⟨hsome, hone⟩
  · simp [hnil] at heq
  · rw [heq] at hone
    exact ⟨hsome, Threads.eq_of_append_cons hone⟩

omit [DecidableEq PcapIf] in
theorem Alerted.threshold_eq {k : Int32 × Int32} {device : PcapIf} {u : Monitor PcapIf}
    {w : AlertSystem} (h : u.Alerted k device w) (hone : u.OneTracker k) :
    w.tracker.threshold = k.1 := by
  rcases h.tracker with ⟨-, hfresh⟩ | htracker
  · rw [hfresh]
    rfl
  · obtain ⟨-, hnil⟩ | ⟨-, a, ha, hsole⟩ := hone.tracker
    · simp [hnil] at htracker
    · rw [htracker] at ha
      rw [List.singleton_injective ha]
      exact hsole.threshold_eq

theorem Alerted.sniffer {k : Int32 × Int32} {device : PcapIf} {u : Monitor PcapIf}
    {w : AlertSystem} (hu : u.Steady k device) (h : u.Alerted k device w)
    {s : Sniffer PcapIf} {c : Option (SnifferCommand PcapIf)}
    (hs : Sniffer.Steps u.sniffer s c) :
    (c.toList.foldl perform { u with sniffer := s }).Alerted k device w := by
  obtain ⟨-, hloops⟩ := hu.vars.step hu.devices.sniffer hs
  have htrackers := hu.one.sniffer_cases hs
  rw [foldl_perform]
  refine ⟨h.store, ?_, ?_⟩
  · rcases hloops with ⟨hthread, hsame⟩ | ⟨hnone, hsome, rfl⟩
    · simpa only [hthread, hsame] using h.callback
    · rcases h.callback with ⟨-, hnil, hfresh⟩ | ⟨hrunning, -⟩
      · refine Or.inr ⟨hsome, ?_⟩
        simp [hnil, hfresh, RunLoop.perform]
      · simp [hnone] at hrunning
  · rcases htrackers with ⟨-, hsame⟩ | ⟨hnone, -, rfl⟩
    · simpa only [hsame] using h.tracker
    · rcases hu.one.tracker with ⟨-, hnil⟩ | ⟨hrunning, -⟩
      · rcases h.tracker with ⟨-, hfresh⟩ | hone
        · refine Or.inr ?_
          simp [hnil, hfresh, AlertTracker.perform]
        · simp [hnil] at hone
      · simp [hnone] at hrunning

/-- The sniffer starts the capture thread before it sets the threshold.
The thread makes its steps after that. -/
def ThresholdSet (k : Int32 × Int32) (u : Monitor PcapIf) : MonitorEvent → Prop
  | .capture _ => u.sniffer.vars.threshold = k.1
  | _ => True

omit [DecidableEq PcapIf] in
instance (k : Int32 × Int32) (u : Monitor PcapIf) (e : MonitorEvent) :
    Decidable (u.ThresholdSet k e) := by
  cases e <;> unfold ThresholdSet <;> infer_instance

def steady (k : Int32 × Int32) : Machine (Monitor PcapIf) MonitorEvent :=
  machine.restrict (ThresholdSet k)

theorem Alerted.step {k : Int32 × Int32} {device : PcapIf} {u v : Monitor PcapIf}
    {w : AlertSystem} {e : MonitorEvent} (hu : u.Steady k device)
    (hset : u.ThresholdSet k e) (h : u.Alerted k device w) (hs : Steps u e v) :
    ∃ w', AlertSystem.machine.Reaches w w' ∧ v.Alerted k device w' := by
  cases hs with
  | tick d =>
      exact ⟨{ w with store := w.store.tick d }, .of_step (e := .tick d) rfl, h.store.tick d,
        h.callback, h.tracker⟩
  | enter heq => exact ⟨w, .refl _ w, h.store, h.callback, h.tracker⟩
  | quiet hsniffer => exact ⟨w, .refl _ w, h.sniffer hu hsniffer⟩
  | command hsniffer => exact ⟨w, .refl _ w, h.sniffer hu hsniffer⟩
  | fire heq hdone hcancelled hnext => exact ⟨w, .refl _ w, h.store, h.callback, h.tracker⟩
  | @packet pre post l packet s c heq hr =>
      obtain ⟨hsome, rfl, rfl, rfl⟩ := h.loop_eq heq
      obtain ⟨t, hreceive, hsame⟩ := Callback.receive_mirrored hr h.store
      refine ⟨{ w with store := t, callback := c }, .of_step (e := .packet packet) ?_, hsame,
        Or.inr ⟨hsome, rfl⟩, h.tracker⟩
      simp [AlertSystem.machine, AlertSystem.step, hreceive]
  | @capture pre post l s c heq hc =>
      obtain ⟨hsome, rfl, rfl, rfl⟩ := h.loop_eq heq
      rw [show u.sniffer.vars.threshold = k.1 from hset] at hc
      obtain ⟨t, hstep, hsame⟩ := hc.mirrored h.store
      refine ⟨{ w with store := t, callback := c }, .of_step (e := .callback) ?_, hsame,
        Or.inr ⟨hsome, rfl⟩, h.tracker⟩
      simp [AlertSystem.machine, AlertSystem.step, h.threshold_eq hu.one, hstep]
  | calculator heq hr =>
      refine ⟨w, .refl _ w, ?_, h.callback, h.tracker⟩
      obtain ⟨hclock, href, hhits, hqueue, halerts, hstats⟩ := h.store
      cases hr <;> exact ⟨hclock, href, hhits, hqueue, halerts, hstats⟩
  | @tracker pre post a a' s heq ha =>
      rcases h.tracker with ⟨hnil, -⟩ | hone
      · simp [hnil] at heq
      · rw [heq] at hone
        obtain ⟨rfl, rfl, rfl⟩ := Threads.eq_of_append_cons hone
        obtain ⟨t, ht, hsame⟩ := ha.mirrored h.store
        refine ⟨{ w with store := t, tracker := a' }, .of_step (e := .tracker) ?_, hsame,
          h.callback, Or.inr rfl⟩
        simp [AlertSystem.machine, AlertSystem.step, ht.step_eq]

theorem run_alerted {k : Int32 × Int32} {device : PcapIf} (hk : 0 < k.2.toInt)
    {preferences : List (UserPreferences PcapIf)}
    (hset : ∀ p ∈ preferences, p.alertSettings = k ∧ p.device = device) {threshold : Int32}
    {clock : ℤ} {es : List MonitorEvent} {u : Monitor PcapIf}
    (h : (steady k).run (initial preferences threshold clock) es = some u) :
    ∃ w, AlertSystem.machine.Reaches (AlertSystem.initial k.1 k.2 clock) w ∧
      u.Alerted k device w := by
  obtain ⟨w, hreach, -, hw⟩ := (steady k).run_forward AlertSystem.machine
    (fun u w => u.Steady k device ∧ u.Alerted k device w)
    (fun u e v w huw hs => by
      obtain ⟨hthreshold, hstep⟩ := machine.restrict_step_iff.1 hs
      obtain ⟨w', hreach, hw'⟩ := huw.2.step huw.1 hthreshold (step_cases hstep)
      exact ⟨w', hreach, huw.1.step (step_cases hstep), hw'⟩)
    ⟨steady_initial hk hset threshold clock,
      alerted_initial preferences threshold clock k device⟩ h
  exact ⟨w, hreach, hw⟩

/-! ## Every alert system is one -/

/-- The monitor that stands for an alert system, once it is started. -/
structure Follows (p : UserPreferences PcapIf) (w : AlertSystem) (u : Monitor PcapIf) : Prop where
  vars_eq : u.sniffer.vars = varsOf p
  threshold_eq : w.tracker.threshold = p.threshold
  store : SameAlerts w.store u.store
  runLoops_eq : u.runLoops = [⟨p.device, w.callback⟩]
  trackers_eq : u.trackers = [w.tracker]

omit [DecidableEq PcapIf] in
theorem Follows.alerted {p : UserPreferences PcapIf} {w : AlertSystem} {u : Monitor PcapIf}
    (h : Follows p w u) : u.Alerted p.alertSettings p.device w :=
  ⟨h.store.symm, Or.inr ⟨by rw [h.vars_eq]; rfl, h.runLoops_eq⟩, Or.inr h.trackers_eq⟩

theorem Follows.step {p : UserPreferences PcapIf} {w w' : AlertSystem} {e : AlertEvent}
    {u : Monitor PcapIf} (h : Follows p w u) (hs : AlertSystem.Steps w e w') :
    ∃ v, machine.Reaches u v ∧ Follows p w' v := by
  obtain ⟨hvars, hthreshold, hstore, hloops, htrackers⟩ := h
  cases hs with
  | tick d =>
      exact ⟨_, reaches_tick u d, hvars, hthreshold, hstore.tick d, hloops, htrackers⟩
  | @packet packet s c hr =>
      obtain ⟨t, hreceive, hsame⟩ := Callback.receive_mirrored hr hstore
      refine ⟨{ u with store := t, runLoops := [⟨p.device, c⟩] },
        .of_step (e := .packet 0 packet) ?_, hvars, hthreshold, hsame, rfl, htrackers⟩
      simp [machine, Monitor.step, hloops, Threads.stepAt, RunLoop.receive, hreceive]
  | @callback s c hc =>
      obtain ⟨t, hstep, hsame⟩ := hc.mirrored hstore
      refine ⟨{ u with store := t, runLoops := [⟨p.device, c⟩] },
        .of_step (e := .capture 0) ?_, hvars, hthreshold, hsame, rfl, htrackers⟩
      have hset : u.sniffer.vars.threshold = w.tracker.threshold := by rw [hvars, hthreshold]; rfl
      simp [machine, Monitor.step, hloops, Threads.stepAt, RunLoop.step, hset, hstep]
  | @tracker s a ha =>
      obtain ⟨t, ht, hsame⟩ := ha.mirrored hstore
      exact ⟨_, reaches_tracker [] [] htrackers ht, hvars, ha.settings_eq.1.trans hthreshold, hsame,
        hloops, rfl⟩

omit [DecidableEq PcapIf] in
theorem Started.follows {p : UserPreferences PcapIf} {clock : ℤ} {v : Monitor PcapIf}
    (h : Started p clock v) :
    Follows p (AlertSystem.initial p.threshold p.alertGapInMillisecond clock) v :=
  ⟨h.vars_eq, rfl, by rw [h.store_eq]; exact .refl _, h.runLoops_eq, h.trackers_eq⟩

/-- The first preference is handled before anything else happens. -/
theorem exists_follows {p : UserPreferences PcapIf} {rest : List (UserPreferences PcapIf)}
    (threshold : Int32) {clock : ℤ} (hpos : PositiveGaps (p :: rest)) {w : AlertSystem}
    (h : AlertSystem.machine.Reaches
      (AlertSystem.initial p.threshold p.alertGapInMillisecond clock) w) :
    ∃ u, machine.Reaches (initial (p :: rest) threshold clock) u ∧ Follows p w u := by
  obtain ⟨v, hstart, -, hv⟩ := @reaches_started _ _ [] rest p threshold clock hpos
  obtain ⟨es, hes⟩ := h
  obtain ⟨u, hreach, hu⟩ := AlertSystem.machine.run_forward machine (Follows p)
    (fun _ _ _ _ hw hs => hw.step (AlertSystem.step_cases hs)) hv.follows hes
  exact ⟨u, hstart.trans hreach, hu⟩

/-- For the alerts, the sessions with one device and the same alert
settings throughout are the runs of one alert system. -/
theorem alerts_refined (preferences : List (UserPreferences PcapIf)) (threshold : Int32)
    (clock : ℤ) (k : Int32 × Int32) (device : PcapIf) (hsome : preferences ≠ [])
    (hpos : PositiveGaps preferences)
    (hset : ∀ p ∈ preferences, p.alertSettings = k ∧ p.device = device) :
    (∀ es u, (steady k).run (initial preferences threshold clock) es = some u →
      ∃ w, AlertSystem.machine.Reaches (AlertSystem.initial k.1 k.2 clock) w ∧
        u.Alerted k device w) ∧
    ∀ w, AlertSystem.machine.Reaches (AlertSystem.initial k.1 k.2 clock) w →
      ∃ es u, machine.run (initial preferences threshold clock) es = some u ∧
        u.Alerted k device w := by
  obtain ⟨p, rest, rfl⟩ := List.exists_cons_of_ne_nil hsome
  obtain ⟨rfl, rfl⟩ := hset p List.mem_cons_self
  constructor
  · intro es u h
    exact run_alerted (hpos p List.mem_cons_self).2 hset h
  · intro w hw
    obtain ⟨u, ⟨es, hes⟩, hu⟩ := exists_follows threshold hpos hw
    exact ⟨es, u, hes, hu.alerted⟩

/-- The threshold is typed, and the report period is changed after a hit. -/
def newPeriod : List (UserPreferences ℕ) := [⟨0, 7, 10000, 120000⟩, ⟨0, 7, 5000, 120000⟩]

def newPeriodEvents : List MonitorEvent :=
  List.flatten [[.enter], List.replicate 8 .sniffer, [.packet 0 (.request [])],
    List.replicate 6 (.capture 0), [.enter], List.replicate 7 .sniffer, List.replicate 5 (.tracker 0)]

theorem alerts_refined_newPeriod :
    (∃ u w, (steady (0, 120000)).run (initial newPeriod 10 0) newPeriodEvents = some u ∧
      u.store.alertQueue.log = [⟨0, 1, true⟩] ∧
      AlertSystem.machine.Reaches (AlertSystem.initial 0 120000 0) w ∧
      u.Alerted (0, 120000) 7 w) ∧
    ∀ w, AlertSystem.machine.Reaches (AlertSystem.initial 0 120000 0) w →
      ∃ es u, machine.run (initial newPeriod 10 0) es = some u ∧ u.Alerted (0, 120000) 7 w := by
  have hpos : PositiveGaps newPeriod := by
    unfold PositiveGaps
    decide
  obtain ⟨hrefined, hrealized⟩ := alerts_refined newPeriod 10 0 (0, 120000) 7 (by decide) hpos
    (by decide)
  have hrun : ((steady (0, 120000)).run (initial newPeriod 10 0) newPeriodEvents).any
      (fun u => decide (u.store.alertQueue.log = [⟨0, 1, true⟩])) = true := by
    decide +kernel
  obtain ⟨u, hu, htest⟩ := (Option.any_eq_true _ _).1 hrun
  obtain ⟨w, hreach, hw⟩ := hrefined newPeriodEvents u hu
  exact ⟨⟨u, w, hu, of_decide_eq_true htest, hreach, hw⟩, hrealized⟩

end Monitor

end HttpLogMonitor
