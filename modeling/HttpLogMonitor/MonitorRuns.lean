import HttpLogMonitor.Monitor
import HttpLogMonitor.SnifferHandling

/-!
# Parts of runs

What the other threads see of the handling of a preference, and the
pieces from which runs are put together: a preference handled with
nothing else going on, a hit, a step of one thread.
-/

namespace HttpLogMonitor

namespace Sniffer

variable {PcapIf : Type} [DecidableEq PcapIf] (p : UserPreferences PcapIf)
  (x : SnifferVars PcapIf)

def loopCommands : List (SnifferCommand PcapIf) :=
  if x.device = some p.device then []
  else (if x.loopThread.isSome then [.interruptLoop] else []) ++ [.startLoop p.device]

omit [DecidableEq PcapIf] in
def timerCommands : List (SnifferCommand PcapIf) :=
  if p.timeGapInMillisecond = x.timeGapInMillisecond then []
  else (if x.mostHitsTimer.isSome then [.cancelTimer] else []) ++
    [.startTimer p.timeGapInMillisecond]

omit [DecidableEq PcapIf] in
def alertCommands : List (SnifferCommand PcapIf) :=
  if p.alertGapInMillisecond = x.alertGapInMillisecond ∧ p.threshold = x.threshold then []
  else (if x.alertThread.isSome then [.interruptAlert] else []) ++
    [.startAlert p.threshold p.alertGapInMillisecond]

omit [DecidableEq PcapIf] in
theorem replaceAlert_commands : (replaceAlert p x).commands = alertCommands p x := by
  unfold replaceAlert alertCommands
  split <;> rfl

omit [DecidableEq PcapIf] in
theorem replaceTimer_commands (hpos : 0 < p.timeGapInMillisecond.toInt) :
    (replaceTimer p x).commands = timerCommands p x ++ alertCommands p x := by
  by_cases hsame : p.timeGapInMillisecond = x.timeGapInMillisecond
  · simp [replaceTimer, timerCommands, hsame, replaceAlert_commands]
  · simp [replaceTimer, timerCommands, hsame, startTimer, hpos, Outcome.after,
      replaceAlert_commands, alertCommands]

theorem replaceLoop_commands (hpos : 0 < p.timeGapInMillisecond.toInt) :
    (replaceLoop p x).commands = loopCommands p x ++ timerCommands p x ++ alertCommands p x := by
  by_cases hsame : x.device = some p.device
  · simp [replaceLoop, loopCommands, hsame, replaceTimer_commands p x hpos]
  · simp [replaceLoop, loopCommands, hsame, startLoop, Outcome.after, replaceTimer_commands p _ hpos,
      timerCommands, alertCommands]

end Sniffer

namespace Monitor

variable {PcapIf : Type}

theorem foldl_perform (cs : List (SnifferCommand PcapIf)) (u : Monitor PcapIf) :
    cs.foldl perform u =
      { u with
        runLoops := cs.foldl RunLoop.perform u.runLoops
        timers := cs.foldl (MostHitsTimer.perform u.store.clock) u.timers
        trackers := cs.foldl AlertTracker.perform u.trackers } := by
  induction cs generalizing u with
  | nil => rfl
  | cons c cs ih => simp only [List.foldl_cons, ih, perform]

variable [DecidableEq PcapIf]

theorem reaches_outcome (u : Monitor PcapIf) :
    machine.Reaches u ((Sniffer.outcome u.sniffer.vars u.sniffer.pc).commands.foldl perform
      { u with sniffer := { u.sniffer with
        pc := (Sniffer.outcome u.sniffer.vars u.sniffer.pc).pc
        vars := (Sniffer.outcome u.sniffer.vars u.sniffer.pc).vars } }) := by
  generalize hs : u.sniffer = s
  induction s using Sniffer.busy_induction generalizing u with
  | rest s hrest =>
      rw [Sniffer.outcome_of_rank_eq_zero (not_not.1 hrest)]
      subst hs
      exact .refl machine u
  | step s pc x c hbusy hvars hstep ih =>
      have hone : machine.step u .sniffer = some
          (c.toList.foldl perform { u with sniffer := { s with pc := pc, vars := x } }) := by
        simp [machine, step, hs, hstep]
      have hrest := ih (c.toList.foldl perform { u with sniffer := { s with pc := pc, vars := x } })
        (by rw [foldl_perform])
      apply (Machine.Reaches.of_step hone).trans
      simpa only [Sniffer.stepVars_outcome hvars, Sniffer.Outcome.after, foldl_perform,
        List.foldl_append] using hrest

structure Resting (u : Monitor PcapIf) : Prop where
  pc_eq : u.sniffer.pc = .take
  queue_eq : u.sniffer.preferenceQueue.items = []

theorem reaches_enter {u : Monitor PcapIf} {p : UserPreferences PcapIf}
    {rest : List (UserPreferences PcapIf)} (heq : u.preferences = p :: rest) :
    machine.Reaches u { u with preferences := rest, sniffer := u.sniffer.put p } :=
  .of_step (e := .enter) (by simp [machine, step, heq])

theorem reaches_entered {u : Monitor PcapIf} {pre rest : List (UserPreferences PcapIf)}
    (heq : u.preferences = pre ++ rest) : ∃ s, machine.Reaches u
      { u with preferences := rest, sniffer := s } ∧ s.pc = u.sniffer.pc ∧
        s.vars = u.sniffer.vars ∧
        s.preferenceQueue.items = u.sniffer.preferenceQueue.items ++ pre := by
  induction pre generalizing u with
  | nil => exact ⟨u.sniffer, by rw [← List.nil_append rest, ← heq]; exact .refl machine u, rfl, rfl,
      by simp⟩
  | cons p pre ih =>
      obtain ⟨s, hreach, hpc, hvars, hitems⟩ :=
        @ih { u with preferences := pre ++ rest, sniffer := u.sniffer.put p } rfl
      exact ⟨s, (reaches_enter heq).trans hreach, hpc, hvars, by simp [hitems, Sniffer.put]⟩

theorem reaches_sniffer {u : Monitor PcapIf} {s : Sniffer PcapIf}
    (h : u.sniffer.step = some (s, none)) : machine.Reaches u { u with sniffer := s } :=
  .of_step (e := .sniffer) (by simp [machine, step, h])

theorem reaches_taken {u : Monitor PcapIf} {p : UserPreferences PcapIf}
    (hpc : u.sniffer.pc = .take) (hpeek : u.sniffer.preferenceQueue.peek = some p) :
    machine.Reaches u { u with sniffer := { u.sniffer with
      preferenceQueue := u.sniffer.preferenceQueue.remove
      pc := .emptyTest p } } :=
  reaches_sniffer (by simp [Sniffer.step, hpc, hpeek])

theorem reaches_last {u : Monitor PcapIf} {pre : List (UserPreferences PcapIf)}
    {p : UserPreferences PcapIf} (hpc : u.sniffer.pc = .take)
    (hitems : u.sniffer.preferenceQueue.items = pre ++ [p]) : ∃ s, machine.Reaches u
      { u with sniffer := s } ∧ s.pc = .deviceTest p ∧ s.vars = u.sniffer.vars ∧
        s.preferenceQueue.items = [] := by
  induction pre generalizing u with
  | nil =>
      have hpeek : u.sniffer.preferenceQueue.peek = some p := by simp [Fifo.peek, hitems]
      refine ⟨{ u.sniffer with
        preferenceQueue := u.sniffer.preferenceQueue.remove
        pc := .deviceTest p }, (reaches_taken hpc hpeek).trans (reaches_sniffer ?_), rfl, rfl,
        by simp [hitems]⟩
      simp [Sniffer.step, Fifo.isEmpty, hitems, Sniffer.goto]
  | cons q pre ih =>
      have hpeek : u.sniffer.preferenceQueue.peek = some q := by simp [Fifo.peek, hitems]
      obtain ⟨s, hreach, hs⟩ := @ih
        { u with sniffer := { u.sniffer with
            preferenceQueue := u.sniffer.preferenceQueue.remove
            pc := .take } } rfl (by simp [hitems])
      refine ⟨s, ((reaches_taken hpc hpeek).trans (reaches_sniffer ?_)).trans hreach, hs⟩
      simp [Sniffer.step, Fifo.isEmpty, hitems, Sniffer.goto]

/-- What has become of a state when preference `p` has been handled, the
last of those entered since. -/
structure HandledTo (p : UserPreferences PcapIf) (u v : Monitor PcapIf) : Prop where
  resting : v.Resting
  vars_eq : v.sniffer.vars = Sniffer.newVars p u.sniffer.vars
  store_eq : v.store = u.store
  runLoops_eq : v.runLoops =
    (Sniffer.loopCommands p u.sniffer.vars).foldl RunLoop.perform u.runLoops
  timers_eq : v.timers =
    (Sniffer.timerCommands p u.sniffer.vars).foldl (MostHitsTimer.perform u.store.clock) u.timers
  trackers_eq : v.trackers =
    (Sniffer.alertCommands p u.sniffer.vars).foldl AlertTracker.perform u.trackers

section Commands

variable (p : UserPreferences PcapIf) (x : SnifferVars PcapIf)

omit [DecidableEq PcapIf] in
theorem foldl_runLoops_rest (loops : List (RunLoop PcapIf)) :
    (Sniffer.timerCommands p x ++ Sniffer.alertCommands p x).foldl RunLoop.perform loops =
      loops := by
  unfold Sniffer.timerCommands Sniffer.alertCommands
  split_ifs <;> rfl

theorem foldl_timers_loopCommands (clock : ℤ) (timers : List MostHitsTimer) :
    (Sniffer.loopCommands p x).foldl (MostHitsTimer.perform clock) timers = timers := by
  unfold Sniffer.loopCommands
  split_ifs <;> rfl

omit [DecidableEq PcapIf] in
theorem foldl_timers_alertCommands (clock : ℤ) (timers : List MostHitsTimer) :
    (Sniffer.alertCommands p x).foldl (MostHitsTimer.perform clock) timers = timers := by
  unfold Sniffer.alertCommands
  split_ifs <;> rfl

theorem foldl_trackers_rest (trackers : List AlertTracker) :
    (Sniffer.loopCommands p x ++ Sniffer.timerCommands p x).foldl AlertTracker.perform trackers =
      trackers := by
  unfold Sniffer.loopCommands Sniffer.timerCommands
  split_ifs <;> rfl

theorem foldl_commands (hpos : 0 < p.timeGapInMillisecond.toInt) (loops : List (RunLoop PcapIf))
    (clock : ℤ) (timers : List MostHitsTimer) (trackers : List AlertTracker) :
    (Sniffer.replaceLoop p x).commands.foldl RunLoop.perform loops =
        (Sniffer.loopCommands p x).foldl RunLoop.perform loops ∧
      (Sniffer.replaceLoop p x).commands.foldl (MostHitsTimer.perform clock) timers =
        (Sniffer.timerCommands p x).foldl (MostHitsTimer.perform clock) timers ∧
      (Sniffer.replaceLoop p x).commands.foldl AlertTracker.perform trackers =
        (Sniffer.alertCommands p x).foldl AlertTracker.perform trackers := by
  rw [Sniffer.replaceLoop_commands p x hpos]
  refine ⟨?_, ?_, ?_⟩
  · rw [List.append_assoc, List.foldl_append, foldl_runLoops_rest]
  · rw [List.foldl_append, List.foldl_append, foldl_timers_loopCommands,
      foldl_timers_alertCommands]
  · rw [List.foldl_append, foldl_trackers_rest]

end Commands

/-- A resting loop handles the last of the preferences entered, with
nothing else going on. -/
theorem reaches_handled {u : Monitor PcapIf} {pre rest : List (UserPreferences PcapIf)}
    {p : UserPreferences PcapIf} (hrest : u.Resting) (heq : u.preferences = pre ++ p :: rest)
    (hloop : u.sniffer.vars.loopThread = u.sniffer.vars.device)
    (hpos : 0 < p.timeGapInMillisecond.toInt) :
    ∃ v, machine.Reaches u v ∧ v.preferences = rest ∧ HandledTo p u v := by
  have heq' : u.preferences = (pre ++ [p]) ++ rest := by simp [heq]
  obtain ⟨s, hreach, hpc, hvars, hitems⟩ := reaches_entered heq'
  rw [hrest.queue_eq, List.nil_append] at hitems
  obtain ⟨s', hreach', hpc', hvars', hitems'⟩ :=
    @reaches_last _ _ { u with preferences := rest, sniffer := s } pre p (hpc.trans hrest.pc_eq)
      hitems
  have hreach'' := reaches_outcome { u with preferences := rest, sniffer := s' }
  have hout : Sniffer.outcome s'.vars s'.pc = Sniffer.replaceLoop p u.sniffer.vars := by
    rw [hpc', hvars', hvars]
    rfl
  obtain ⟨hendpc, hendvars⟩ := Sniffer.replaceLoop_vars p u.sniffer.vars hloop (Or.inl hpos)
  obtain ⟨hloops, htimers, htrackers⟩ := foldl_commands p u.sniffer.vars hpos u.runLoops
    u.store.clock u.timers u.trackers
  refine ⟨_, (hreach.trans hreach').trans hreach'', ?_, ?_⟩
  · rw [foldl_perform]
  · simp only [foldl_perform, hout]
    exact ⟨⟨hendpc, hitems'⟩, hendvars, rfl, hloops, htimers, htrackers⟩

/-! ## The first preference and a change -/

def varsOf (p : UserPreferences PcapIf) : SnifferVars PcapIf where
  device := some p.device
  timeGapInMillisecond := p.timeGapInMillisecond
  alertGapInMillisecond := p.alertGapInMillisecond
  threshold := p.threshold
  loopThread := some p.device
  mostHitsTimer := some p.timeGapInMillisecond
  alertThread := some (p.threshold, p.alertGapInMillisecond)

def PositiveGaps (preferences : List (UserPreferences PcapIf)) : Prop :=
  ∀ p ∈ preferences, 0 < p.timeGapInMillisecond.toInt ∧ 0 < p.alertGapInMillisecond.toInt

theorem ne_zero_of_pos {n : Int32} (h : 0 < n.toInt) : n ≠ 0 := by
  rintro rfl
  exact absurd h (by decide)

structure Started (p : UserPreferences PcapIf) (clock : ℤ) (v : Monitor PcapIf) : Prop where
  resting : v.Resting
  vars_eq : v.sniffer.vars = varsOf p
  store_eq : v.store = Store.initial clock
  runLoops_eq : v.runLoops = [⟨p.device, Callback.fresh⟩]
  timers_eq : v.timers = [MostHitsTimer.fresh p.timeGapInMillisecond clock]
  trackers_eq : v.trackers = [AlertTracker.fresh p.threshold p.alertGapInMillisecond]

theorem reaches_started {pre rest : List (UserPreferences PcapIf)} {p : UserPreferences PcapIf}
    (threshold : Int32) (clock : ℤ) (hpos : PositiveGaps (pre ++ p :: rest)) :
    ∃ v, machine.Reaches (initial (pre ++ p :: rest) threshold clock) v ∧ v.preferences = rest ∧
      Started p clock v := by
  obtain ⟨htime, halert⟩ := hpos p (by simp)
  have htime' := ne_zero_of_pos htime
  have halert' := ne_zero_of_pos halert
  obtain ⟨v, hreach, hrest, hv⟩ := reaches_handled
    (u := initial (pre ++ p :: rest) threshold clock) ⟨rfl, rfl⟩ rfl rfl htime
  refine ⟨v, hreach, hrest, hv.resting, ?_, hv.store_eq, ?_, ?_, ?_⟩
  · rw [hv.vars_eq]
    simp [Sniffer.newVars, varsOf, initial, Sniffer.initial, htime', halert']
  · rw [hv.runLoops_eq]
    simp [Sniffer.loopCommands, initial, Sniffer.initial, RunLoop.perform]
  · rw [hv.timers_eq]
    simp [Sniffer.timerCommands, initial, Sniffer.initial, MostHitsTimer.perform, htime',
      Store.initial]
  · rw [hv.trackers_eq]
    simp [Sniffer.alertCommands, initial, Sniffer.initial, AlertTracker.perform, halert']

theorem reaches_changed {u : Monitor PcapIf} {rest : List (UserPreferences PcapIf)}
    {p q : UserPreferences PcapIf} (hrest : u.Resting) (hvars : u.sniffer.vars = varsOf p)
    (heq : u.preferences = q :: rest) (hpos : 0 < q.timeGapInMillisecond.toInt) :
    ∃ v, machine.Reaches u v ∧ HandledTo q u v := by
  obtain ⟨v, hreach, -, hv⟩ := @reaches_handled _ _ u [] rest q hrest heq (by rw [hvars]; rfl) hpos
  exact ⟨v, hreach, hv⟩

theorem HandledTo.two_trackers {u v : Monitor PcapIf} {p q : UserPreferences PcapIf}
    (h : HandledTo q u v) (hvars : u.sniffer.vars = varsOf p)
    (hne : (p.threshold, p.alertGapInMillisecond) ≠ (q.threshold, q.alertGapInMillisecond))
    {a : AlertTracker} (ha : u.trackers = [a]) :
    v.trackers = [a.interrupt, AlertTracker.fresh q.threshold q.alertGapInMillisecond] := by
  have hnew : ¬ (q.alertGapInMillisecond = p.alertGapInMillisecond ∧ q.threshold = p.threshold) :=
    fun hsame => hne (by rw [hsame.1, hsame.2])
  rw [h.trackers_eq, hvars, ha]
  simp [Sniffer.alertCommands, varsOf, hnew, AlertTracker.perform]
  rfl

theorem HandledTo.two_timers {u v : Monitor PcapIf} {p q : UserPreferences PcapIf}
    (h : HandledTo q u v) (hvars : u.sniffer.vars = varsOf p)
    (hne : p.timeGapInMillisecond ≠ q.timeGapInMillisecond) {t : MostHitsTimer}
    (ht : u.timers = [t]) :
    v.timers = [{ t with cancelled := true },
      MostHitsTimer.fresh q.timeGapInMillisecond u.store.clock] := by
  rw [h.timers_eq, hvars, ht]
  simp [Sniffer.timerCommands, varsOf, hne.symm, MostHitsTimer.perform]
  rfl

/-! ## Steps of single threads -/

theorem reaches_tick (u : Monitor PcapIf) (d : ℕ) :
    machine.Reaches u { u with store := u.store.tick d } :=
  .of_step (e := .tick d) rfl

theorem step_tracker {u : Monitor PcapIf} (pre post : List AlertTracker) {a a' : AlertTracker}
    {s : Store} (heq : u.trackers = pre ++ a :: post) (h : AlertTracker.Steps u.store a s a') :
    machine.step u (.tracker pre.length) =
      some { u with store := s, trackers := pre ++ a' :: post } := by
  simp [machine, step, heq, Threads.stepAt_append pre post h.step_eq]

theorem reaches_tracker {u : Monitor PcapIf} (pre post : List AlertTracker)
    {a a' : AlertTracker} {s : Store} (heq : u.trackers = pre ++ a :: post)
    (h : AlertTracker.Steps u.store a s a') :
    machine.Reaches u { u with store := s, trackers := pre ++ a' :: post } :=
  .of_step (step_tracker pre post heq h)

theorem reaches_calculator {u : Monitor PcapIf} (pre post : List MostHitsTimer)
    {t : MostHitsTimer} {iteration : List HttpObject} {s : Store} {r : CalculatorRun}
    (heq : u.timers = pre ++ t :: post)
    (h : CalculatorRun.step iteration u.store t.calculator = some (s, r)) :
    machine.Reaches u { u with store := s, timers := pre ++ { t with calculator := r } :: post } := by
  have hstep : MostHitsTimer.step iteration u.store t = some (s, { t with calculator := r }) := by
    simp [MostHitsTimer.step, h]
  exact .of_step (e := .calculator pre.length iteration)
    (by simp [machine, step, heq, Threads.stepAt_append pre post hstep])

theorem reaches_fire {u : Monitor PcapIf} (pre post : List MostHitsTimer) {t : MostHitsTimer}
    (heq : u.timers = pre ++ t :: post) (hdone : t.calculator.pc = .done)
    (hcancelled : t.cancelled = false) (hnext : t.next ≤ u.store.clock) :
    machine.Reaches u { u with timers := pre ++
      { t with next := t.next + t.period.toInt, calculator := CalculatorRun.fresh } :: post } := by
  have hfire : MostHitsTimer.fire u.store t = some (u.store,
      { t with next := t.next + t.period.toInt, calculator := CalculatorRun.fresh }) := by
    simp [MostHitsTimer.fire, hdone, hcancelled, hnext]
  exact .of_step (e := .fire pre.length)
    (by simp [machine, step, heq, Threads.stepAt_append pre post hfire])

def withHit (s : Store) : Store :=
  { s.create [] with
    mostHitsURLQueue := s.mostHitsURLQueue.put (s.newHit [])
    alertURLQueue := s.alertURLQueue.put (s.newHit []) }

omit [DecidableEq PcapIf] in
/-- The first hit is alone on both queues. -/
theorem Started.queued {p : UserPreferences PcapIf} {clock : ℤ} {v : Monitor PcapIf}
    (h : Started p clock v) :
    (withHit v.store).mostHitsURLQueue.items = [v.store.newHit []] ∧
      (withHit v.store).alertURLQueue.items = [v.store.newHit []] := by
  rw [h.store_eq]
  exact ⟨rfl, rfl⟩

/-- A request, with the call of `nextPacket` left after its second put. -/
theorem reaches_hit {u : Monitor PcapIf} {device : PcapIf}
    (heq : u.runLoops = [⟨device, Callback.fresh⟩]) : machine.Reaches u
      { u with store := withHit u.store, runLoops := [⟨device, ⟨.readSize, false⟩⟩] } := by
  obtain ⟨preferences, sniffer, store, runLoops, timers, trackers⟩ := u
  obtain rfl : runLoops = [⟨device, Callback.fresh⟩] := heq
  exact ⟨[.packet 0 (.request []), .capture 0, .capture 0], rfl⟩

omit [DecidableEq PcapIf] in
/-- Settings that are not the same throughout change from one preference
to the next. -/
theorem exists_change {β : Type} {f : UserPreferences PcapIf → β}
    {preferences : List (UserPreferences PcapIf)}
    (h : ¬ ∀ p ∈ preferences, ∀ q ∈ preferences, f p = f q) :
    ∃ pre p q rest, preferences = pre ++ p :: q :: rest ∧ f p ≠ f q := by
  induction preferences with
  | nil => simp at h
  | cons p tail ih =>
      by_cases htail : ∀ a ∈ tail, ∀ b ∈ tail, f a = f b
      · cases tail with
        | nil => simp at h
        | cons q rest =>
            refine ⟨[], p, q, rest, rfl, fun heq => h ?_⟩
            have hall : ∀ a ∈ p :: q :: rest, f a = f q := by
              intro a ha
              rcases List.mem_cons.1 ha with rfl | ha
              · exact heq
              · exact htail a ha q List.mem_cons_self
            exact fun a ha b hb => (hall a ha).trans (hall b hb).symm
      · obtain ⟨pre, a, b, rest, rfl, hne⟩ := ih htail
        exact ⟨p :: pre, a, b, rest, rfl, hne⟩

/-! ## Preferences on their way -/

omit [DecidableEq PcapIf] in
structure All (P : UserPreferences PcapIf → Prop) (u : Monitor PcapIf) : Prop where
  coming : ∀ p ∈ u.preferences, P p
  sniffer : u.sniffer.All P

omit [DecidableEq PcapIf] in
theorem all_initial {P : UserPreferences PcapIf → Prop}
    {preferences : List (UserPreferences PcapIf)} (h : ∀ p ∈ preferences, P p)
    (threshold : Int32) (clock : ℤ) : (initial preferences threshold clock).All P :=
  ⟨h, by simp [initial, Sniffer.initial], by simp [initial, Sniffer.initial, Sniffer.preference]⟩

theorem All.step {P : UserPreferences PcapIf → Prop} {u v : Monitor PcapIf} {e : MonitorEvent}
    (h : u.All P) (hs : Steps u e v) : v.All P := by
  cases hs with
  | enter heq =>
      have hcoming := h.coming
      rw [heq] at hcoming
      exact ⟨fun q hq => hcoming q (List.mem_cons_of_mem _ hq),
        h.sniffer.put (hcoming _ List.mem_cons_self)⟩
  | quiet hsniffer => exact ⟨h.coming, h.sniffer.step hsniffer⟩
  | command hsniffer => exact ⟨h.coming, h.sniffer.step hsniffer⟩
  | _ => exact ⟨h.coming, h.sniffer⟩

omit [DecidableEq PcapIf] in
theorem exists_constant {β : Type} {f : UserPreferences PcapIf → β} {Q : β → Prop}
    {preferences : List (UserPreferences PcapIf)} (b : β) (hb : Q b)
    (hQ : ∀ p ∈ preferences, Q (f p)) (h : ∀ p ∈ preferences, ∀ q ∈ preferences, f p = f q) :
    ∃ k, Q k ∧ ∀ p ∈ preferences, f p = k := by
  cases preferences with
  | nil => exact ⟨b, hb, by simp⟩
  | cons p rest => exact ⟨f p, hQ p List.mem_cons_self, fun q hq => h q hq p List.mem_cons_self⟩

/-- A property that any change of a setting can break, and that no run
breaks while the setting is constant. -/
theorem forall_reachable_iff {β : Type} {f : UserPreferences PcapIf → β} {Q : β → Prop}
    {P : Monitor PcapIf → Prop} {preferences : List (UserPreferences PcapIf)} {threshold : Int32}
    {clock : ℤ} (b : β) (hb : Q b) (hQ : ∀ p ∈ preferences, Q (f p))
    (hchange : ∀ pre p q rest, preferences = pre ++ p :: q :: rest → f p ≠ f q →
      ∃ es u, machine.run (initial preferences threshold clock) es = some u ∧ ¬ P u)
    (hconstant : ∀ k, Q k → (∀ p ∈ preferences, f p = k) →
      ∀ es u, machine.run (initial preferences threshold clock) es = some u → P u) :
    (∀ es u, machine.run (initial preferences threshold clock) es = some u → P u) ↔
      ∀ p ∈ preferences, ∀ q ∈ preferences, f p = f q := by
  constructor
  · intro hP
    by_contra hdiffer
    obtain ⟨pre, p, q, rest, heq, hne⟩ := exists_change hdiffer
    obtain ⟨es, u, hes, hnot⟩ := hchange pre p q rest heq hne
    exact hnot (hP es u hes)
  · intro hsame
    obtain ⟨k, hk, hall⟩ := exists_constant b hb hQ hsame
    exact hconstant k hk hall

end Monitor

end HttpLogMonitor
