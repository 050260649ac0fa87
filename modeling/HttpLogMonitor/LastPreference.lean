import HttpLogMonitor.PreferenceHistory

/-!
# The last preference wins

What the commands do to the workers, seen by what these were created
with. Nothing but the loop creates or cancels, so the history of the loop
says which workers there are, and the variables which of them are in
use.
-/

namespace HttpLogMonitor

def MostHitsTimer.settings (t : MostHitsTimer) : Int32 × Bool := (t.period, t.cancelled)

def AlertTracker.settings (a : AlertTracker) : Int32 × Int32 :=
  (a.threshold, a.alertGapInMillisecond)

/-! ## The workers by what they were created with -/

/-- In the order of creation. A timer is given by its period and whether
it has been cancelled. -/
structure Workers (PcapIf : Type) where
  runLoops : List PcapIf
  timers : List (Int32 × Bool)
  trackers : List (Int32 × Int32)

namespace Workers

variable {PcapIf : Type}

def perform (w : Workers PcapIf) : SnifferCommand PcapIf → Workers PcapIf
  | .startLoop device => { w with runLoops := w.runLoops ++ [device] }
  | .cancelTimer => { w with timers := w.timers.modifyLast fun t => (t.1, true) }
  | .startTimer period => { w with timers := w.timers ++ [(period, false)] }
  | .startAlert threshold gap => { w with trackers := w.trackers ++ [(threshold, gap)] }
  | .interruptLoop | .interruptAlert => w

theorem perform_runLoops (w : Workers PcapIf) (c : SnifferCommand PcapIf) :
    (w.perform c).runLoops = w.runLoops ++ c.runLoop.toList := by
  cases c <;> simp [perform, SnifferCommand.runLoop]

theorem perform_trackers (w : Workers PcapIf) (c : SnifferCommand PcapIf) :
    (w.perform c).trackers = w.trackers ++ c.tracker.toList := by
  cases c <;> simp [perform, SnifferCommand.tracker]

theorem foldl_perform_runLoops (w : Workers PcapIf) (c : Option (SnifferCommand PcapIf)) :
    (c.toList.foldl perform w).runLoops = w.runLoops ++ (c.bind SnifferCommand.runLoop).toList := by
  cases c with
  | none => exact (List.append_nil _).symm
  | some c => exact perform_runLoops w c

theorem foldl_perform_trackers (w : Workers PcapIf) (c : Option (SnifferCommand PcapIf)) :
    (c.toList.foldl perform w).trackers = w.trackers ++ (c.bind SnifferCommand.tracker).toList := by
  cases c with
  | none => exact (List.append_nil _).symm
  | some c => exact perform_trackers w c

theorem perform_periods (w : Workers PcapIf) (c : SnifferCommand PcapIf) :
    (w.perform c).timers.map Prod.fst = w.timers.map Prod.fst ++ c.timer.toList := by
  cases c with
  | cancelTimer =>
      have hsame : ∀ t : Int32 × Bool, (t.1, true).1 = t.1 := fun _ => rfl
      simpa [perform, SnifferCommand.timer] using Threads.map_modifyLast_of_eq hsame w.timers
  | _ => simp [perform, SnifferCommand.timer]

/-- Every worker was created for a handled preference, in this order. -/
structure Created (w : Workers PcapIf) (handled : List (HandledPreference PcapIf)) : Prop where
  runLoops : w.runLoops = handled.flatMap HandledPreference.runLoops
  timers : w.timers.map Prod.fst = handled.flatMap HandledPreference.timers
  trackers : w.trackers = handled.flatMap HandledPreference.trackers

theorem Created.perform {w : Workers PcapIf} {handled : List (HandledPreference PcapIf)}
    {h : HandledPreference PcapIf} (hw : w.Created (handled ++ [h])) (c : SnifferCommand PcapIf) :
    (w.perform c).Created (handled ++ [h.add [c]]) := by
  constructor
  · rw [perform_runLoops, hw.runLoops]
    cases hc : c.runLoop <;> simp [HandledPreference.runLoops, HandledPreference.add, hc]
  · rw [perform_periods, hw.timers]
    cases hc : c.timer <;> simp [HandledPreference.timers, HandledPreference.add, hc]
  · rw [perform_trackers, hw.trackers]
    cases hc : c.tracker <;> simp [HandledPreference.trackers, HandledPreference.add, hc]

/-- The workers started last, and the timer left, are those that the
variables of the loop refer to. -/
structure Running (w : Workers PcapIf) (x : SnifferVars PcapIf) : Prop where
  runLoop : w.runLoops.getLast? = x.loopThread
  timer : ∃ cancelled, w.timers = cancelled ++ (x.mostHitsTimer.map fun p => (p, false)).toList ∧
    ∀ t ∈ cancelled, t.2 = true
  tracker : w.trackers.getLast? = x.alertThread

theorem perform_timers (w : Workers PcapIf) {c : SnifferCommand PcapIf}
    (hcancel : c ≠ .cancelTimer) (hstart : c.timer = none) : (w.perform c).timers = w.timers := by
  cases c with
  | cancelTimer => exact (hcancel rfl).elim
  | startTimer period => cases hstart
  | _ => rfl

theorem Running.stepVars [DecidableEq PcapIf] {w : Workers PcapIf} {x x' : SnifferVars PcapIf}
    {pc pc' : SnifferPc PcapIf} {c : Option (SnifferCommand PcapIf)} (hw : w.Running x)
    (htimer : Sniffer.TimerStep x.mostHitsTimer c x'.mostHitsTimer)
    (h : Sniffer.stepVars x pc = some (pc', x', c)) : (c.toList.foldl perform w).Running x' := by
  constructor
  · rw [foldl_perform_runLoops, Threads.getLast?_append_toList, hw.runLoop,
      Sniffer.stepVars_loopThread h]
  · obtain ⟨cancelled, htimers, hall⟩ := hw.timer
    generalize x.mostHitsTimer = timer at htimer htimers
    generalize x'.mostHitsTimer = timer' at htimer
    cases htimer with
    | same hcancel hstart =>
        refine ⟨cancelled, ?_, hall⟩
        rw [← htimers]
        cases c with
        | none => rfl
        | some c => exact perform_timers w (by simpa using hcancel) hstart
    | cancel period =>
        refine ⟨cancelled ++ [(period, true)], ?_, ?_⟩
        · change w.timers.modifyLast _ = _
          rw [htimers]
          simp [List.modifyLast_concat]
        · intro t ht
          rcases List.mem_append.1 ht with hold | hnew
          · exact hall t hold
          · rw [List.mem_singleton.1 hnew]
    | start period =>
        refine ⟨cancelled, ?_, hall⟩
        change w.timers ++ _ = _
        rw [htimers]
        simp
  · rw [foldl_perform_trackers, Threads.getLast?_append_toList, hw.tracker,
      Sniffer.stepVars_alertThread h]

theorem Running.sniffer [DecidableEq PcapIf] {w : Workers PcapIf} {u v : Sniffer PcapIf}
    {c : Option (SnifferCommand PcapIf)} (hw : w.Running u.vars)
    (hready : Sniffer.TimerReady u.pc u.vars) (hall : u.All UserPreferences.Positive)
    (h : Sniffer.Steps u v c) :
    Sniffer.TimerReady v.pc v.vars ∧ (c.toList.foldl perform w).Running v.vars := by
  cases h with
  | take p hpc hpeek => exact ⟨trivial, hw⟩
  | skip p hpc hq => exact ⟨trivial, hw⟩
  | handle p hpc hq => exact ⟨trivial, hw⟩
  | vars hs =>
      obtain ⟨hready', htimer⟩ := hready.stepVars hall.handled hs
      exact ⟨hready', hw.stepVars htimer hs⟩

theorem Created.sniffer [DecidableEq PcapIf] {w : Workers PcapIf} {u v : Sniffer PcapIf}
    {threshold : Int32} {handled : List (HandledPreference PcapIf)}
    {c : Option (SnifferCommand PcapIf)} (hw : w.Created handled)
    (hprogress : Sniffer.Progress threshold handled u.pc u.vars) (h : u.step = some (v, c)) :
    (c.toList.foldl Workers.perform w).Created (u.record handled) := by
  cases Sniffer.step_cases h with
  | take p hpc hpeek =>
      rw [Sniffer.record_quiet h (by simp [hpc])]
      exact hw
  | skip p hpc hq =>
      rw [Sniffer.record_skip hpc hq]
      exact hw
  | handle p hpc hq =>
      rw [Sniffer.record_handle hpc hq]
      constructor
      · simpa [HandledPreference.runLoops] using hw.runLoops
      · simpa [HandledPreference.timers] using hw.timers
      · simpa [HandledPreference.trackers] using hw.trackers
  | vars hs =>
      have htest := Sniffer.ne_emptyTest_of_stepVars hs
      cases c with
      | none =>
          rw [Sniffer.record_quiet h htest]
          exact hw
      | some c =>
          have hbusy : Sniffer.rank u.pc ≠ 0 := by
            intro hrank
            rw [Sniffer.stepVars_eq_none_iff.2 hrank] at hs
            cases hs
          obtain ⟨pre, k, rfl⟩ := hprogress.exists_snoc hbusy
          rw [Sniffer.record_eq h htest, List.modifyLast_concat]
          exact hw.perform c

end Workers

namespace Monitor

variable {PcapIf : Type}

def workers (u : Monitor PcapIf) : Workers PcapIf where
  runLoops := u.runLoops.map RunLoop.device
  timers := u.timers.map MostHitsTimer.settings
  trackers := u.trackers.map AlertTracker.settings

theorem workers_perform (u : Monitor PcapIf) (c : SnifferCommand PcapIf) :
    (u.perform c).workers = u.workers.perform c := by
  cases c with
  | interruptLoop =>
      have hsame : ∀ l : RunLoop PcapIf,
          RunLoop.device { l with callback := l.callback.interrupt } = l.device := fun _ => rfl
      simp only [workers, perform, Workers.perform, RunLoop.perform, MostHitsTimer.perform,
        AlertTracker.perform, Threads.map_modifyLast_of_eq hsame]
  | cancelTimer =>
      have htimers : (u.timers.modifyLast fun t => { t with cancelled := true }).map
          MostHitsTimer.settings = (u.timers.map MostHitsTimer.settings).modifyLast
            fun t => (t.1, true) := by
        apply Threads.map_modifyLast
        intro t
        rfl
      simp only [workers, perform, Workers.perform, RunLoop.perform, MostHitsTimer.perform,
        AlertTracker.perform, htimers]
  | interruptAlert =>
      have hsame : ∀ a : AlertTracker, a.interrupt.settings = a.settings := fun _ => rfl
      simp only [workers, perform, Workers.perform, RunLoop.perform, MostHitsTimer.perform,
        AlertTracker.perform, Threads.map_modifyLast_of_eq hsame]
  | _ =>
      simp [workers, perform, Workers.perform, RunLoop.perform, MostHitsTimer.perform,
        AlertTracker.perform, MostHitsTimer.settings, MostHitsTimer.fresh, AlertTracker.settings,
        AlertTracker.fresh]

theorem workers_foldl_perform (cs : List (SnifferCommand PcapIf)) (u : Monitor PcapIf) :
    (cs.foldl perform u).workers = cs.foldl Workers.perform u.workers := by
  induction cs generalizing u with
  | nil => rfl
  | cons c cs ih => rw [List.foldl_cons, List.foldl_cons, ih, workers_perform]

variable [DecidableEq PcapIf]

/-- Only the loop creates and cancels. -/
theorem Steps.workers_eq {u v : Monitor PcapIf} {e : MonitorEvent} (h : Steps u e v)
    (he : e ≠ .sniffer) : v.workers = u.workers := by
  cases h with
  | tick d => rfl
  | enter heq => rfl
  | quiet hs => exact (he rfl).elim
  | command hs => exact (he rfl).elim
  | packet heq hr => simp [workers, heq]
  | capture heq hc => simp [workers, heq]
  | fire heq hdone hcancelled hnext => simp [workers, heq, MostHitsTimer.settings]
  | calculator heq hr => simp [workers, heq, MostHitsTimer.settings]
  | tracker heq ha =>
      obtain ⟨hthreshold, hgap⟩ := ha.settings_eq
      simp [workers, heq, AlertTracker.settings, hthreshold, hgap]

/-! ## The history of a run -/

def record (u : Monitor PcapIf) :
    MonitorEvent → List (HandledPreference PcapIf) → List (HandledPreference PcapIf)
  | .sniffer, handled => u.sniffer.record handled
  | _, handled => handled

def handled (preferences : List (UserPreferences PcapIf)) (threshold : Int32) (clock : ℤ)
    (es : List MonitorEvent) : List (HandledPreference PcapIf) :=
  machine.history record (initial preferences threshold clock) [] es

structure Recorded (threshold : Int32) (u : Monitor PcapIf)
    (handled : List (HandledPreference PcapIf)) : Prop where
  positive : u.All UserPreferences.Positive
  progress : Sniffer.Progress threshold handled u.sniffer.pc u.sniffer.vars
  newest : u.sniffer.Newest handled
  ready : Sniffer.TimerReady u.sniffer.pc u.sniffer.vars
  running : u.workers.Running u.sniffer.vars
  created : u.workers.Created handled

theorem recorded_initial {preferences : List (UserPreferences PcapIf)}
    (hpos : PositiveGaps preferences) (threshold : Int32) (clock : ℤ) :
    (initial preferences threshold clock).Recorded threshold [] where
  positive := all_initial hpos threshold clock
  progress := .rest rfl (Sniffer.complete_nil threshold)
  newest := fun _ => rfl
  ready := trivial
  running := ⟨rfl, ⟨[], rfl, by simp⟩, rfl⟩
  created := ⟨rfl, rfl, rfl⟩

theorem Recorded.step {threshold : Int32} {u v : Monitor PcapIf} {e : MonitorEvent}
    {handled : List (HandledPreference PcapIf)} (hu : u.Recorded threshold handled)
    (h : machine.step u e = some v) : v.Recorded threshold (u.record e handled) := by
  have hs := step_cases h
  have hpositive := hu.positive.step hs
  by_cases he : e = .sniffer
  · subst he
    obtain ⟨⟨s, c⟩, hstep, hv⟩ := Option.map_eq_some_iff.1 h
    have hsniffer : v.sniffer = s := by rw [← hv, foldl_perform]
    have hworkers : v.workers = c.toList.foldl Workers.perform u.workers :=
      hv ▸ workers_foldl_perform _ _
    obtain ⟨hready, hrunning⟩ := hu.running.sniffer hu.ready hu.positive.sniffer
      (Sniffer.step_cases hstep)
    constructor
    · exact hpositive
    · rw [hsniffer]
      exact hu.progress.step hu.positive.sniffer hstep
    · rw [hsniffer]
      exact hu.newest.step hstep
    · rw [hsniffer]
      exact hready
    · rw [hsniffer, hworkers]
      exact hrunning
    · rw [hworkers]
      exact hu.created.sniffer hu.progress hstep
  · have hworkers := hs.workers_eq he
    have hrunning := hworkers ▸ hu.running
    have hcreated := hworkers ▸ hu.created
    cases hs with
    | enter heq =>
        refine ⟨hpositive, hu.progress, fun hempty => ?_, hu.ready, hrunning, hcreated⟩
        simp [Sniffer.put] at hempty
    | quiet hs => exact (he rfl).elim
    | command hs => exact (he rfl).elim
    | _ => exact ⟨hpositive, hu.progress, hu.newest, hu.ready, hrunning, hcreated⟩

theorem run_recorded {preferences : List (UserPreferences PcapIf)}
    (hpos : PositiveGaps preferences) {threshold : Int32} {clock : ℤ} {es : List MonitorEvent}
    {u : Monitor PcapIf} (h : machine.run (initial preferences threshold clock) es = some u) :
    u.Recorded threshold (handled preferences threshold clock es) :=
  machine.run_history_invariant (Recorded threshold) (fun _ _ _ _ hu hs => hu.step hs)
    (recorded_initial hpos threshold clock) h

omit [DecidableEq PcapIf] in
/-- The loop, the workers started last and the timer left are those of
the preference. -/
structure Current (p : UserPreferences PcapIf) (u : Monitor PcapIf) : Prop where
  device_eq : u.sniffer.vars.device = some p.device
  timeGap_eq : u.sniffer.vars.timeGapInMillisecond = p.timeGapInMillisecond
  alertGap_eq : u.sniffer.vars.alertGapInMillisecond = p.alertGapInMillisecond
  threshold_eq : u.sniffer.vars.threshold = p.threshold
  runLoop_eq : u.runLoops.getLast?.map RunLoop.device = some p.device
  timer_eq : (u.timers.filter fun t => !t.cancelled).map MostHitsTimer.period =
    [p.timeGapInMillisecond]
  tracker_eq : u.trackers.getLast?.map AlertTracker.settings = some p.alertSettings

omit [DecidableEq PcapIf] in
theorem current_of_running {u : Monitor PcapIf} {p : UserPreferences PcapIf}
    (hvars : u.sniffer.vars = varsOf p) (h : u.workers.Running u.sniffer.vars) : u.Current p := by
  obtain ⟨hloop, ⟨cancelled, htimers, hall⟩, htracker⟩ := h
  rw [hvars] at hloop htimers htracker
  have hnone : cancelled.filter (fun t => !t.2) = [] := by
    rw [List.filter_eq_nil_iff]
    intro t ht
    simp [hall t ht]
  refine ⟨by rw [hvars]; rfl, by rw [hvars]; rfl, by rw [hvars]; rfl, by rw [hvars]; rfl, ?_, ?_, ?_⟩
  · rw [← List.getLast?_map]
    exact hloop
  · calc
      (u.timers.filter fun t => !t.cancelled).map MostHitsTimer.period =
          ((u.timers.map MostHitsTimer.settings).filter fun t => !t.2).map Prod.fst := by
        rw [List.filter_map, List.map_map]
        rfl
      _ = [p.timeGapInMillisecond] := by
        change (u.workers.timers.filter _).map _ = _
        rw [htimers, List.filter_append, hnone]
        rfl
  · rw [← List.getLast?_map]
    exact htracker

theorem Recorded.current {threshold : Int32} {u : Monitor PcapIf}
    {handled : List (HandledPreference PcapIf)} (hu : u.Recorded threshold handled)
    (hrest : u.Resting) {p : UserPreferences PcapIf}
    (hlast : u.sniffer.preferenceQueue.log.getLast? = some p) : u.Current p := by
  have hnewest := hu.newest hrest.queue_eq
  rw [hlast, Sniffer.newest_eq (by simp [hrest.pc_eq])] at hnewest
  obtain ⟨-, hvars⟩ := hu.progress.of_rank (by rw [hrest.pc_eq]; rfl)
  apply current_of_running ?_ hu.running
  induction handled using List.reverseRecOn with
  | nil => simp at hnewest
  | append_singleton handled h _ =>
      rw [List.map_append, List.map_singleton, List.getLast?_concat] at hnewest
      rw [hvars, Sniffer.settled_snoc, Option.some.inj hnewest]

/-! ## The last preference -/

/-- One worker for a setting that is not that of the preference handled
before, if there was one. -/
def onChange {β : Type} [DecidableEq β] (f : UserPreferences PcapIf → β)
    (before : List (HandledPreference PcapIf)) (p : UserPreferences PcapIf) : List β :=
  match before.getLast? with
  | none => [f p]
  | some h => if f h.preference = f p then [] else [f p]

omit [DecidableEq PcapIf] in
@[simp] theorem onChange_nil {β : Type} [DecidableEq β] (f : UserPreferences PcapIf → β)
    (p : UserPreferences PcapIf) : onChange f [] p = [f p] := rfl

omit [DecidableEq PcapIf] in
@[simp] theorem onChange_snoc {β : Type} [DecidableEq β] (f : UserPreferences PcapIf → β)
    (before : List (HandledPreference PcapIf)) (h : HandledPreference PcapIf)
    (p : UserPreferences PcapIf) :
    onChange f (before ++ [h]) p = if f h.preference = f p then [] else [f p] := by
  simp [onChange]

structure CreatedOnChange (before : List (HandledPreference PcapIf))
    (h : HandledPreference PcapIf) : Prop where
  runLoops : h.runLoops = onChange UserPreferences.device before h.preference
  timers : h.timers = onChange UserPreferences.timeGapInMillisecond before h.preference
  trackers : h.trackers = onChange UserPreferences.alertSettings before h.preference

/-- The initial variables agree with no preference: no device, and gaps
of 0. -/
theorem createdOnChange_of_commands {threshold : Int32} {before : List (HandledPreference PcapIf)}
    {h : HandledPreference PcapIf} (hpos : h.preference.Positive)
    (hcommands : h.commands =
      (Sniffer.replaceLoop h.preference (Sniffer.settled threshold before)).commands) :
    CreatedOnChange before h := by
  have htime := ne_zero_of_pos hpos.1
  have halert := ne_zero_of_pos hpos.2
  constructor
  · rw [HandledPreference.runLoops, hcommands, Sniffer.replaceLoop_runLoops hpos.1]
    induction before using List.reverseRecOn with
    | nil => simp [Sniffer.initial]
    | append_singleton before k _ => simp [varsOf]
  · rw [HandledPreference.timers, hcommands, Sniffer.replaceLoop_timers hpos.1]
    induction before using List.reverseRecOn with
    | nil => simp [Sniffer.initial, htime]
    | append_singleton before k _ => simp [varsOf, eq_comm]
  · rw [HandledPreference.trackers, hcommands, Sniffer.replaceLoop_trackers hpos.1]
    induction before using List.reverseRecOn with
    | nil => simp [Sniffer.initial, halert]
    | append_singleton before k _ =>
        simp [varsOf, UserPreferences.alertSettings, and_comm, eq_comm]

/-- With positive gaps, whatever the interleaving: a resting loop has
applied the last preference put, all workers were created for handled
preferences, and a finished handling has created those whose settings
changed. -/
theorem last_preference_wins (preferences : List (UserPreferences PcapIf)) (threshold : Int32)
    (clock : ℤ) (hpos : PositiveGaps preferences) (es : List MonitorEvent) (u : Monitor PcapIf)
    (h : machine.run (initial preferences threshold clock) es = some u) :
    (∀ p, u.Resting → u.sniffer.preferenceQueue.log.getLast? = some p → u.Current p) ∧
      u.workers.Created (handled preferences threshold clock es) ∧
      ∀ before k after, handled preferences threshold clock es = before ++ k :: after →
        after ≠ [] ∨ ¬ u.sniffer.Busy → CreatedOnChange before k := by
  have hu := run_recorded hpos h
  refine ⟨fun p hrest hlast => hu.current hrest hlast, hu.created, ?_⟩
  intro before k after heq hdone
  obtain ⟨hk, hcommands⟩ := hu.progress.complete heq (hdone.imp_right not_not.1)
  exact createdOnChange_of_commands hk hcommands

/-- Three preferences, of which the second is skipped and the third has
a new device. -/
def threePreferences : List (UserPreferences ℕ) :=
  [⟨10, 0, 10000, 120000⟩, ⟨10, 1, 20000, 120000⟩, ⟨10, 2, 10000, 120000⟩]

def threePreferencesEvents : List MonitorEvent :=
  List.flatten [[.enter], List.replicate 8 .sniffer, [.enter, .sniffer, .enter],
    List.replicate 8 .sniffer]

theorem last_preference_wins_three : ∃ u : Monitor ℕ,
    machine.run (initial threePreferences 10 0) threePreferencesEvents = some u ∧
      u.Current ⟨10, 2, 10000, 120000⟩ ∧
      CreatedOnChange [⟨⟨10, 0, 10000, 120000⟩,
          [.startLoop 0, .startTimer 10000, .startAlert 10 120000]⟩]
        ⟨⟨10, 2, 10000, 120000⟩, [.interruptLoop, .startLoop 2]⟩ := by
  have hrun : (machine.run (initial threePreferences 10 0) threePreferencesEvents).any (fun u =>
      decide (u.sniffer.pc = .take ∧ u.sniffer.preferenceQueue.items = [] ∧
        u.sniffer.preferenceQueue.log.getLast? = some ⟨10, 2, 10000, 120000⟩)) = true := by
    decide +kernel
  have hhandled : handled threePreferences 10 0 threePreferencesEvents =
      [⟨⟨10, 0, 10000, 120000⟩, [.startLoop 0, .startTimer 10000, .startAlert 10 120000]⟩] ++
        ⟨⟨10, 2, 10000, 120000⟩, [.interruptLoop, .startLoop 2]⟩ :: [] := by
    decide +kernel
  obtain ⟨u, hu, htest⟩ := (Option.any_eq_true _ _).1 hrun
  obtain ⟨hpc, hq, hlast⟩ := of_decide_eq_true htest
  have hpos : PositiveGaps threePreferences := by
    unfold PositiveGaps threePreferences
    decide
  obtain ⟨hcurrent, -, hcreated⟩ := last_preference_wins threePreferences 10 0 hpos _ u hu
  refine ⟨u, hu, hcurrent _ ⟨hpc, hq⟩ hlast, hcreated _ _ [] hhandled (Or.inr ?_)⟩
  rw [Sniffer.Busy, hpc]
  decide

end Monitor

end HttpLogMonitor
