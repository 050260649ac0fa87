import HttpLogMonitor.HomeFrame
import HttpLogMonitor.Sniffer

/-!
# Applied as a whole or not at all

In every reachable state the running workers agree with the variables of
the loop. The outcome of a handling is then known from the preference
and the variables: it is all or nothing for a positive period, except
that a first alert gap of 0 at the initial threshold starts no tracker.
A period that is not positive, which the form lets through, ends the
loop after the old timer has been cancelled.
-/

namespace HttpLogMonitor

inductive SnifferEvent (PcapIf : Type) where
  | put (preference : UserPreferences PcapIf)
  | step
  deriving DecidableEq

namespace Sniffer

variable {PcapIf : Type}

/-! ## The workers agree with the variables -/

/-- The variables at an operation that replaces something are those of
the preference, and everything not under replacement is running as the
variables say. -/
structure Agrees (threshold : Int32) (pc : SnifferPc PcapIf) (x : SnifferVars PcapIf) : Prop where
  loop : match pc with
    | .interruptLoop p | .startLoop p => x.device = some p.device
    | _ => x.loopThread = x.device
  timer : match pc with
    | .cancelTimer p | .startTimer p => x.timeGapInMillisecond = p.timeGapInMillisecond
    | .dead _ => True
    | _ => x.mostHitsTimer = some x.timeGapInMillisecond ∧ 0 < x.timeGapInMillisecond.toInt ∨
      x.mostHitsTimer = none ∧ x.timeGapInMillisecond = 0
  alert : match pc with
    | .interruptAlert p | .startAlert p =>
      x.alertGapInMillisecond = p.alertGapInMillisecond ∧ x.threshold = p.threshold
    | _ => x.alertThread = some (x.threshold, x.alertGapInMillisecond) ∨
      x.alertThread = none ∧ x.alertGapInMillisecond = 0 ∧ x.threshold = threshold

theorem agrees_initial (threshold : Int32) :
    Agrees threshold (.take : SnifferPc PcapIf) (initial threshold).vars :=
  ⟨rfl, Or.inr ⟨rfl, rfl⟩, Or.inr ⟨rfl, rfl, rfl⟩⟩

variable [DecidableEq PcapIf]

def eventStep (u : Sniffer PcapIf) : SnifferEvent PcapIf → Option (Sniffer PcapIf)
  | .put preference => some (u.put preference)
  | .step => u.step.map Prod.fst

def machine : Machine (Sniffer PcapIf) (SnifferEvent PcapIf) := ⟨eventStep⟩

theorem Agrees.stepVars {threshold : Int32} {x x' : SnifferVars PcapIf}
    {pc pc' : SnifferPc PcapIf} {c : Option (SnifferCommand PcapIf)} (ha : Agrees threshold pc x)
    (h : stepVars x pc = some (pc', x', c)) : Agrees threshold pc' x' := by
  obtain ⟨hloop, htimer, halert⟩ := ha
  cases stepVars_cases h with
  | replaceDevice p hnew hsome => exact ⟨rfl, htimer, halert⟩
  | firstDevice p hnew hnone => exact ⟨rfl, htimer, halert⟩
  | startLoop p => exact ⟨hloop.symm, htimer, halert⟩
  | replaceTime p hnew hsome => exact ⟨hloop, rfl, halert⟩
  | firstTime p hnew hnone => exact ⟨hloop, rfl, halert⟩
  | startTimer p hpos =>
      refine ⟨hloop, Or.inl ⟨congrArg some (Eq.symm htimer), ?_⟩, halert⟩
      exact (Eq.symm htimer) ▸ hpos
  | illegalPeriod p hillegal => exact ⟨hloop, trivial, halert⟩
  | replaceAlert p hnew hsome => exact ⟨hloop, htimer, rfl, rfl⟩
  | firstAlert p hnew hnone => exact ⟨hloop, htimer, rfl, rfl⟩
  | startAlert p =>
      obtain ⟨hgap, hthreshold⟩ := halert
      refine ⟨hloop, htimer, Or.inl ?_⟩
      change some (p.threshold, p.alertGapInMillisecond) =
        some (x.threshold, x.alertGapInMillisecond)
      rw [hgap, hthreshold]
  | _ => exact ⟨hloop, htimer, halert⟩

theorem Agrees.step {threshold : Int32} {u v : Sniffer PcapIf} {e : SnifferEvent PcapIf}
    (ha : Agrees threshold u.pc u.vars) (h : machine.step u e = some v) :
    Agrees threshold v.pc v.vars := by
  cases e with
  | put preference =>
      cases h
      exact ha
  | step =>
      obtain ⟨⟨v', c⟩, hs, rfl⟩ := Option.map_eq_some_iff.1 h
      cases step_cases hs with
      | vars hs => exact ha.stepVars hs
      | take p hpc hpeek =>
          rw [hpc] at ha
          exact ⟨ha.loop, ha.timer, ha.alert⟩
      | skip p hpc hq =>
          rw [hpc] at ha
          exact ⟨ha.loop, ha.timer, ha.alert⟩
      | handle p hpc hq =>
          rw [hpc] at ha
          exact ⟨ha.loop, ha.timer, ha.alert⟩

theorem run_agrees {threshold : Int32} {u : Sniffer PcapIf} {es : List (SnifferEvent PcapIf)}
    (h : machine.run (initial threshold) es = some u) : Agrees threshold u.pc u.vars :=
  machine.run_invariant (fun u => Agrees threshold u.pc u.vars) (fun _ _ _ ha hs => ha.step hs)
    (agrees_initial threshold) h

/-! ## The outcome of a handling -/

def newVars (p : UserPreferences PcapIf) (x : SnifferVars PcapIf) : SnifferVars PcapIf where
  device := some p.device
  timeGapInMillisecond := p.timeGapInMillisecond
  alertGapInMillisecond := p.alertGapInMillisecond
  threshold := p.threshold
  loopThread := some p.device
  mostHitsTimer :=
    if p.timeGapInMillisecond = x.timeGapInMillisecond then x.mostHitsTimer
    else some p.timeGapInMillisecond
  alertThread :=
    if p.alertGapInMillisecond = x.alertGapInMillisecond ∧ p.threshold = x.threshold then
      x.alertThread
    else some (p.threshold, p.alertGapInMillisecond)

section Outcome

variable (p : UserPreferences PcapIf) (x : SnifferVars PcapIf)

omit [DecidableEq PcapIf] in
theorem replaceAlert_vars : (replaceAlert p x).pc = .take ∧ (replaceAlert p x).vars =
    { x with
      alertGapInMillisecond := p.alertGapInMillisecond
      threshold := p.threshold
      alertThread := (newVars p x).alertThread } := by
  by_cases hsame : p.alertGapInMillisecond = x.alertGapInMillisecond ∧ p.threshold = x.threshold
  · rw [replaceAlert, if_pos hsame]
    exact ⟨rfl, by simp [newVars, hsame]⟩
  · rw [replaceAlert, if_neg hsame]
    exact ⟨rfl, by simp [newVars, hsame, startAlert]⟩

omit [DecidableEq PcapIf] in
theorem replaceTimer_vars (hok : 0 < p.timeGapInMillisecond.toInt ∨
      p.timeGapInMillisecond = x.timeGapInMillisecond) :
    (replaceTimer p x).pc = .take ∧ (replaceTimer p x).vars =
      { newVars p x with
        device := x.device
        loopThread := x.loopThread } := by
  by_cases hsame : p.timeGapInMillisecond = x.timeGapInMillisecond
  · rw [replaceTimer, if_pos hsame]
    obtain ⟨hpc, hvars⟩ := replaceAlert_vars p x
    exact ⟨hpc, by simp [hvars, newVars, hsame]⟩
  · have hpos := hok.resolve_right hsame
    rw [replaceTimer, if_neg hsame, startTimer, if_pos hpos]
    obtain ⟨hpc, hvars⟩ := replaceAlert_vars p
      { x with
        timeGapInMillisecond := p.timeGapInMillisecond
        mostHitsTimer := some p.timeGapInMillisecond }
    exact ⟨hpc, by simp [hvars, newVars, hsame]⟩

theorem replaceLoop_vars (hloop : x.loopThread = x.device)
    (hok : 0 < p.timeGapInMillisecond.toInt ∨
      p.timeGapInMillisecond = x.timeGapInMillisecond) :
    (replaceLoop p x).pc = .take ∧ (replaceLoop p x).vars = newVars p x := by
  by_cases hsame : x.device = some p.device
  · rw [replaceLoop, if_pos hsame]
    obtain ⟨hpc, hvars⟩ := replaceTimer_vars p x hok
    exact ⟨hpc, by simp [hvars, newVars, hloop, hsame]⟩
  · rw [replaceLoop, if_neg hsame, startLoop]
    obtain ⟨hpc, hvars⟩ := replaceTimer_vars p
      { x with
        device := some p.device
        loopThread := some p.device } hok
    exact ⟨hpc, by simp [hvars, newVars]⟩

theorem replaceLoop_dead (hpos : ¬ 0 < p.timeGapInMillisecond.toInt)
    (hne : p.timeGapInMillisecond ≠ x.timeGapInMillisecond) :
    (replaceLoop p x).pc = .dead .illegalArgument := by
  by_cases hsame : x.device = some p.device <;>
    simp [replaceLoop, hsame, startLoop, replaceTimer, hne, startTimer, hpos]

end Outcome

/-! ## All or nothing -/

/-- The capture device, the report timer and the alert tracker are those
of the preference. -/
structure Applied (p : UserPreferences PcapIf) (x : SnifferVars PcapIf) : Prop where
  device_eq : x.device = some p.device
  loop_eq : x.loopThread = some p.device
  timeGap_eq : x.timeGapInMillisecond = p.timeGapInMillisecond
  timer_eq : x.mostHitsTimer = some p.timeGapInMillisecond
  alertGap_eq : x.alertGapInMillisecond = p.alertGapInMillisecond
  threshold_eq : x.threshold = p.threshold
  tracker_eq : x.alertThread = some (p.threshold, p.alertGapInMillisecond)

def Handled (p : UserPreferences PcapIf) (x : SnifferVars PcapIf) (w : Sniffer PcapIf) : Prop :=
  w.pc = .take ∧ (Applied p w.vars ∨ w.vars = x)

/-- The period is positive and there is or will be a tracker, or nothing
is new about the preference. -/
def Usable (p : UserPreferences PcapIf) (x : SnifferVars PcapIf) : Prop :=
  0 < p.timeGapInMillisecond.toInt ∧
      ¬ (x.alertThread = none ∧ p.alertGapInMillisecond = x.alertGapInMillisecond ∧
        p.threshold = x.threshold) ∨
    x.device = some p.device ∧ p.timeGapInMillisecond = x.timeGapInMillisecond ∧
      p.alertGapInMillisecond = x.alertGapInMillisecond ∧ p.threshold = x.threshold

omit [DecidableEq PcapIf] in
theorem newVars_eq_iff {p : UserPreferences PcapIf} {x : SnifferVars PcapIf}
    (hloop : x.loopThread = x.device) :
    newVars p x = x ↔ x.device = some p.device ∧
      p.timeGapInMillisecond = x.timeGapInMillisecond ∧
      p.alertGapInMillisecond = x.alertGapInMillisecond ∧ p.threshold = x.threshold := by
  obtain ⟨device, timeGap, alertGap, threshold, loop, timer, tracker⟩ := x
  cases hloop
  constructor
  · intro h
    simp only [newVars, SnifferVars.mk.injEq] at h
    exact ⟨h.1.symm, h.2.1, h.2.2.1, h.2.2.2.1⟩
  · rintro ⟨hdevice, htime, halert, hthreshold⟩
    simp_all [newVars]

omit [DecidableEq PcapIf] in
theorem applied_newVars_iff {initialThreshold : Int32} {p : UserPreferences PcapIf}
    {x : SnifferVars PcapIf} (ha : Agrees initialThreshold (.deviceTest p) x)
    (hok : 0 < p.timeGapInMillisecond.toInt ∨
      p.timeGapInMillisecond = x.timeGapInMillisecond) :
    Applied p (newVars p x) ↔ 0 < p.timeGapInMillisecond.toInt ∧
      ¬ (x.alertThread = none ∧ p.alertGapInMillisecond = x.alertGapInMillisecond ∧
        p.threshold = x.threshold) := by
  have htimer : (newVars p x).mostHitsTimer = some p.timeGapInMillisecond ↔
      0 < p.timeGapInMillisecond.toInt := by
    by_cases hsame : p.timeGapInMillisecond = x.timeGapInMillisecond
    · rcases ha.timer with ⟨hrunning, hpos⟩ | ⟨hnone, hzero⟩
      · simp [newVars, hsame, hrunning, hpos]
      · simp [newVars, hsame, hnone, hzero]
    · simp [newVars, hsame, hok.resolve_right hsame]
  have htracker : (newVars p x).alertThread = some (p.threshold, p.alertGapInMillisecond) ↔
      ¬ (x.alertThread = none ∧ p.alertGapInMillisecond = x.alertGapInMillisecond ∧
        p.threshold = x.threshold) := by
    by_cases hsame : p.alertGapInMillisecond = x.alertGapInMillisecond ∧ p.threshold = x.threshold
    · rcases ha.alert with hrunning | ⟨hnone, -⟩
      · simp [newVars, hsame, hrunning]
      · simp [newVars, hsame, hnone]
    · simp [newVars, hsame]
  rw [← htimer, ← htracker]
  exact ⟨fun h => ⟨h.timer_eq, h.tracker_eq⟩, fun h => ⟨rfl, rfl, rfl, h.1, rfl, rfl, h.2⟩⟩

theorem replaceLoop_iff {initialThreshold : Int32} {p : UserPreferences PcapIf}
    {x : SnifferVars PcapIf} (ha : Agrees initialThreshold (.deviceTest p) x) :
    (replaceLoop p x).pc = .take ∧
      (Applied p (replaceLoop p x).vars ∨ (replaceLoop p x).vars = x) ↔ Usable p x := by
  by_cases hok : 0 < p.timeGapInMillisecond.toInt ∨
      p.timeGapInMillisecond = x.timeGapInMillisecond
  · obtain ⟨hpc, hvars⟩ := replaceLoop_vars p x ha.loop hok
    rw [hpc, hvars, applied_newVars_iff ha hok, newVars_eq_iff ha.loop]
    simp [Usable]
  · obtain ⟨hpos, hne⟩ := not_or.1 hok
    rw [replaceLoop_dead p x hpos hne]
    simp [Usable, hpos, hne]

def Handling (u : Sniffer PcapIf) : Prop := u.pc ≠ .take ∧ ∀ ex, u.pc ≠ .dead ex

omit [DecidableEq PcapIf] in
theorem Busy.handling {u : Sniffer PcapIf} (h : u.Busy) : u.Handling := by
  constructor
  · intro hpc
    simp [Busy, hpc, rank] at h
  · intro ex hpc
    simp [Busy, hpc, rank] at h

theorem run_outcome (u : Sniffer PcapIf) : ∃ es,
    machine.run u es = some { u with
      pc := (outcome u.vars u.pc).pc
      vars := (outcome u.vars u.pc).vars } ∧
    machine.Along (fun v _ => v.Handling) u es := by
  induction u using busy_induction with
  | rest u hrest =>
      have hout : outcome u.vars u.pc = ⟨u.pc, u.vars, []⟩ :=
        outcome_of_rank_eq_zero (not_not.1 hrest)
      exact ⟨[], by simp [hout], trivial⟩
  | step u pc x c hbusy hvars hstep ih =>
      obtain ⟨es, hrun, halong⟩ := ih
      have hone : machine.step u .step = some { u with pc := pc, vars := x } := by
        simp [machine, eventStep, hstep]
      refine ⟨.step :: es, machine.run_cons_iff.2 ⟨_, hone, ?_⟩,
        (machine.along_cons_iff hone).2 ⟨hbusy.handling, halong⟩⟩
      rw [hrun, stepVars_outcome hvars]
      rfl

def OnTheWay (p : UserPreferences PcapIf) (x : SnifferVars PcapIf) (v : Sniffer PcapIf) : Prop :=
  (v.pc = .emptyTest p ∨ v.pc = .take) ∧ v.vars = x ∨
    (∀ q, v.pc ≠ .emptyTest q) ∧ (outcome v.vars v.pc).pc = (replaceLoop p x).pc ∧
      (outcome v.vars v.pc).vars = (replaceLoop p x).vars

theorem OnTheWay.step {p : UserPreferences PcapIf} {x : SnifferVars PcapIf}
    {v w : Sniffer PcapIf} {e : SnifferEvent PcapIf} (hhandling : v.Handling)
    (hv : OnTheWay p x v) (h : machine.step v e = some w) : OnTheWay p x w := by
  cases e with
  | put preference =>
      cases h
      exact hv
  | step =>
      obtain ⟨⟨w', c⟩, hs, rfl⟩ := Option.map_eq_some_iff.1 h
      cases step_cases hs with
      | take q hpc hpeek => exact (hhandling.1 hpc).elim
      | skip q hpc hq =>
          rcases hv with ⟨-, hvars⟩ | ⟨hne, -⟩
          · exact Or.inl ⟨Or.inr rfl, hvars⟩
          · exact (hne q hpc).elim
      | handle q hpc hq =>
          rcases hv with ⟨hpc' | hpc', hvars⟩ | ⟨hne, -⟩
          · rw [hpc] at hpc'
            cases hpc'
            refine Or.inr ⟨by simp [goto], ?_⟩
            simp [outcome, goto, hvars]
          · exact (hhandling.1 hpc').elim
          · exact (hne q hpc).elim
      | vars hs =>
          have hout := stepVars_outcome hs
          rcases hv with ⟨hpc' | hpc', hvars⟩ | ⟨hne, hpc', hvars⟩
          · simp [hpc', stepVars] at hs
          · exact (hhandling.1 hpc').elim
          · rw [hout] at hpc' hvars
            exact Or.inr ⟨stepVars_ne_emptyTest hs, hpc', hvars⟩

theorem OnTheWay.handled {p : UserPreferences PcapIf} {x : SnifferVars PcapIf}
    {w : Sniffer PcapIf} (hw : OnTheWay p x w) (hend : ¬ w.Handling)
    (hgood : (replaceLoop p x).pc = .take ∧
      (Applied p (replaceLoop p x).vars ∨ (replaceLoop p x).vars = x)) : Handled p x w := by
  have hrank : rank w.pc = 0 := by
    by_contra hbusy
    exact hend (Busy.handling hbusy)
  have hout : outcome w.vars w.pc = ⟨w.pc, w.vars, []⟩ := outcome_of_rank_eq_zero hrank
  rcases hw with ⟨hpc | hpc, hvars⟩ | ⟨-, hpc, hvars⟩
  · exact (hend ⟨by simp [hpc], by simp [hpc]⟩).elim
  · exact ⟨hpc, Or.inr hvars⟩
  · simp only [hout] at hpc hvars
    rw [Handled, hpc, hvars]
    exact hgood

theorem replaceLoop_ends {initialThreshold : Int32} {p : UserPreferences PcapIf}
    {x : SnifferVars PcapIf} (ha : Agrees initialThreshold (.deviceTest p) x) :
    (replaceLoop p x).pc = .take ∨ ∃ ex, (replaceLoop p x).pc = .dead ex := by
  by_cases hok : 0 < p.timeGapInMillisecond.toInt ∨
      p.timeGapInMillisecond = x.timeGapInMillisecond
  · exact Or.inl (replaceLoop_vars p x ha.loop hok).1
  · obtain ⟨hpos, hne⟩ := not_or.1 hok
    exact Or.inr ⟨_, replaceLoop_dead p x hpos hne⟩

theorem handled_of_later {u w : Sniffer PcapIf} {p : UserPreferences PcapIf}
    {es : List (SnifferEvent PcapIf)} (hpc : u.pc = .emptyTest p)
    (hlater : u.preferenceQueue.items ≠ []) (hrun : machine.run u es = some w)
    (halong : machine.Along (fun v _ => v.Handling) u es) (hend : ¬ w.Handling) :
    Handled p u.vars w := by
  have hw := machine.run_invariant_along
    (fun v => (v.pc = .emptyTest p ∧ v.preferenceQueue.items ≠ [] ∨ v.pc = .take) ∧
      v.vars = u.vars) (fun v e w hhandling hv hs => ?_) halong ⟨Or.inl ⟨hpc, hlater⟩, rfl⟩ hrun
  · obtain ⟨⟨hpc', -⟩ | hpc', hvars⟩ := hw
    · exact (hend ⟨by simp [hpc'], by simp [hpc']⟩).elim
    · exact ⟨hpc', Or.inr hvars⟩
  · obtain ⟨⟨hpc', hq⟩ | hpc', hvars⟩ := hv
    · cases e with
      | put preference =>
          cases hs
          exact ⟨Or.inl ⟨hpc', by simp [put]⟩, hvars⟩
      | step =>
          obtain ⟨⟨w', c⟩, hs', rfl⟩ := Option.map_eq_some_iff.1 hs
          cases step_cases hs' with
          | take q hq' hpeek => simp [hpc'] at hq'
          | skip q hq' hitems => exact ⟨Or.inr rfl, hvars⟩
          | handle q hq' hitems => exact (hq hitems).elim
          | vars hs => simp [hpc', stepVars] at hs
    · exact (hhandling.1 hpc').elim

theorem step_of_later {u : Sniffer PcapIf} {p : UserPreferences PcapIf}
    (hpc : u.pc = .emptyTest p) (hlater : u.preferenceQueue.items ≠ []) :
    machine.step u .step = some (u.goto .take) := by
  simp [machine, eventStep, step, hpc, Fifo.isEmpty, hlater]

theorem exists_handling {u : Sniffer PcapIf} {p : UserPreferences PcapIf}
    (hpc : u.pc = .emptyTest p) (hlast : u.preferenceQueue.items = []) :
    ∃ es w, machine.run u es = some w ∧ machine.Along (fun v _ => v.Handling) u es ∧
      w.pc = (replaceLoop p u.vars).pc ∧ w.vars = (replaceLoop p u.vars).vars := by
  have hstep : machine.step u .step = some (u.goto (.deviceTest p)) := by
    simp [machine, eventStep, step, hpc, Fifo.isEmpty, hlast]
  obtain ⟨es, hrun, halong⟩ := run_outcome (u.goto (.deviceTest p))
  exact ⟨.step :: es, _, machine.run_cons_iff.2 ⟨_, hstep, hrun⟩,
    (machine.along_cons_iff hstep).2 ⟨⟨by simp [hpc], by simp [hpc]⟩, halong⟩, rfl, rfl⟩

/-- From every reachable state in which a preference has just been
taken: every handling, with preferences arriving at any moment, is all or
nothing and brings the loop back to `take`, exactly if a later preference
is already queued or the preference is usable; and the handling ends if
it is left alone. -/
theorem handled_iff_usable (threshold : Int32) (es : List (SnifferEvent PcapIf))
    (u : Sniffer PcapIf) (p : UserPreferences PcapIf)
    (h : machine.run (initial threshold) es = some u) (hpc : u.pc = .emptyTest p) :
    ((∀ es' w, machine.run u es' = some w → machine.Along (fun v _ => v.Handling) u es' →
        ¬ w.Handling → Handled p u.vars w) ↔
      u.preferenceQueue.items ≠ [] ∨ Usable p u.vars) ∧
    ∃ es' w, machine.run u es' = some w ∧ machine.Along (fun v _ => v.Handling) u es' ∧
      ¬ w.Handling := by
  have ha : Agrees threshold (.deviceTest p) u.vars := by
    have hagrees := run_agrees h
    rw [hpc] at hagrees
    exact ⟨hagrees.loop, hagrees.timer, hagrees.alert⟩
  have hends : ∀ w : Sniffer PcapIf, w.pc = (replaceLoop p u.vars).pc → ¬ w.Handling := by
    rintro w hw ⟨htake, hdead⟩
    rcases replaceLoop_ends ha with hpc' | ⟨ex, hpc'⟩
    · exact htake (hw.trans hpc')
    · exact hdead ex (hw.trans hpc')
  by_cases hlast : u.preferenceQueue.items = []
  · obtain ⟨es', w, hrun, halong, hwpc, hwvars⟩ := exists_handling hpc hlast
    refine ⟨⟨fun hall => Or.inr ?_, ?_⟩, es', w, hrun, halong, hends w hwpc⟩
    · have hhandled := hall es' w hrun halong (hends w hwpc)
      rw [Handled, hwpc, hwvars] at hhandled
      exact (replaceLoop_iff ha).1 hhandled
    · rintro (hlater | husable) es'' v hrun' halong' hend
      · exact (hlater hlast).elim
      · have hv := machine.run_invariant_along (OnTheWay p u.vars)
          (fun _ _ _ hhandling hv hs => hv.step hhandling hs) halong'
          (Or.inl ⟨Or.inl hpc, rfl⟩) hrun'
        exact hv.handled hend ((replaceLoop_iff ha).2 husable)
  · have hstep := step_of_later hpc hlast
    refine ⟨⟨fun _ => Or.inl hlast, fun _ es' w hrun halong hend =>
      handled_of_later hpc hlast hrun halong hend⟩, [.step], u.goto .take,
      machine.run_cons_iff.2 ⟨_, hstep, rfl⟩, ?_, fun hw => hw.1 rfl⟩
    exact (machine.along_cons_iff hstep).2 ⟨⟨by simp [hpc], by simp [hpc]⟩, trivial⟩

def periodForm (seconds : String) : HomeFrame ℕ where
  thresholdTextField := "10".toList
  alertTextField := "120".toList
  mostHitsTextField := seconds.toList
  devices := [0]
  selectedIndex := some 0
  threshold := 10
  startUpdateButton := "Start".toList
  preferenceQueue := Fifo.empty

def periodEvents : List (SnifferEvent ℕ) :=
  List.flatten [[.put ⟨10, 0, 10000, 120000⟩], List.replicate 8 .step,
    [.put ⟨10, 0, 0, 120000⟩, .step]]

theorem zero_period_ends_loop : ¬ ∀ (frame : HomeFrame ℕ) (p : UserPreferences ℕ)
    (es : List (SnifferEvent ℕ)) (u : Sniffer ℕ),
    HomeFrame.validator asciiDigit frame = true →
    HomeFrame.userPreferences asciiDigit frame = some p →
    machine.run (initial 10) es = some u → u.pc = .emptyTest p →
    ∀ es' w, machine.run u es' = some w → machine.Along (fun v _ => v.Handling) u es' →
      ¬ w.Handling → Handled p u.vars w := by
  intro hclaim
  have hrun : (machine.run (initial 10) periodEvents).any
      (fun u => u.pc == .emptyTest ⟨10, 0, 0, 120000⟩ && u.preferenceQueue.items == [] &&
        u.vars == ⟨some 0, 10000, 120000, 10, some 0, some 10000, some (10, 120000)⟩) = true := by
    decide
  obtain ⟨u, hu, htest⟩ := (Option.any_eq_true _ _).1 hrun
  simp only [Bool.and_eq_true, beq_iff_eq] at htest
  obtain ⟨⟨hpc, hlast⟩, hvars⟩ := htest
  obtain ⟨es', w, hw, halong, hwpc, -⟩ := exists_handling hpc hlast
  have hdead : w.pc = .dead .illegalArgument := by
    rw [hwpc, hvars]
    decide
  have hhandled := hclaim (periodForm "0") ⟨10, 0, 0, 120000⟩ periodEvents u (by decide)
    (by decide) hu hpc es' w hw halong (fun hh => hh.2 _ hdead)
  rw [Handled, hdead] at hhandled
  cases hhandled.1

theorem handled_iff_usable_first : ∃ u : Sniffer ℕ,
    machine.run (initial 10) [.put ⟨10, 0, 10000, 120000⟩, .step] = some u ∧
      ((∀ es' w, machine.run u es' = some w → machine.Along (fun v _ => v.Handling) u es' →
          ¬ w.Handling → Handled ⟨10, 0, 10000, 120000⟩ u.vars w) ↔
        u.preferenceQueue.items ≠ [] ∨ Usable ⟨10, 0, 10000, 120000⟩ u.vars) ∧
      Usable ⟨10, 0, 10000, 120000⟩ u.vars :=
  ⟨_, rfl, (handled_iff_usable 10 [.put ⟨10, 0, 10000, 120000⟩, .step] _
    ⟨10, 0, 10000, 120000⟩ rfl rfl).1, Or.inl ⟨by decide, by decide⟩⟩

end Sniffer

end HttpLogMonitor
