import HttpLogMonitor.Library.Fifo
import HttpLogMonitor.Library.Machine
import HttpLogMonitor.Objects

/-!
# The sniffer loop

`Sniffer.run` takes a preference, skips it when a later one is already
queued, and otherwise compares and replaces the capture thread, the
report timer and the alert tracker, in this order. What it does to other
threads is returned as a command.

Only `InterruptedException` is caught, so the `IllegalArgumentException`
of `scheduleAtFixedRate` for a period that is not positive ends the loop.
-/

namespace HttpLogMonitor

inductive SnifferPc (PcapIf : Type) where
  | take
  | emptyTest (preference : UserPreferences PcapIf)
  | deviceTest (preference : UserPreferences PcapIf)
  | interruptLoop (preference : UserPreferences PcapIf)
  | startLoop (preference : UserPreferences PcapIf)
  | timeTest (preference : UserPreferences PcapIf)
  | cancelTimer (preference : UserPreferences PcapIf)
  | startTimer (preference : UserPreferences PcapIf)
  | alertTest (preference : UserPreferences PcapIf)
  | interruptAlert (preference : UserPreferences PcapIf)
  | startAlert (preference : UserPreferences PcapIf)
  | dead (ex : JavaException)
  deriving DecidableEq

/-- The local variables and the field `threshold`. A thread is given by
what it was constructed with, the timer by the period of its task;
`mostHitsTimer` is `none` for null and for a timer without a task. -/
structure SnifferVars (PcapIf : Type) where
  device : Option PcapIf
  timeGapInMillisecond : Int32
  alertGapInMillisecond : Int32
  threshold : Int32
  loopThread : Option PcapIf
  mostHitsTimer : Option Int32
  alertThread : Option (Int32 × Int32)
  deriving DecidableEq

structure Sniffer (PcapIf : Type) where
  preferenceQueue : Fifo (UserPreferences PcapIf)
  pc : SnifferPc PcapIf
  vars : SnifferVars PcapIf

inductive SnifferCommand (PcapIf : Type) where
  | interruptLoop
  | startLoop (device : PcapIf)
  | cancelTimer
  | startTimer (period : Int32)
  | interruptAlert
  | startAlert (threshold alertGapInMillisecond : Int32)
  deriving DecidableEq

namespace Sniffer

variable {PcapIf : Type}

def initial (threshold : Int32) : Sniffer PcapIf where
  preferenceQueue := Fifo.empty
  pc := .take
  vars := ⟨none, 0, 0, threshold, none, none, none⟩

def goto (u : Sniffer PcapIf) (pc : SnifferPc PcapIf) : Sniffer PcapIf := { u with pc := pc }

def put (u : Sniffer PcapIf) (preference : UserPreferences PcapIf) : Sniffer PcapIf :=
  { u with preferenceQueue := u.preferenceQueue.put preference }

/-- Where a handling ends, and what it has done to the other threads. -/
structure Outcome (PcapIf : Type) where
  pc : SnifferPc PcapIf
  vars : SnifferVars PcapIf
  commands : List (SnifferCommand PcapIf)

def Outcome.after (o : Outcome PcapIf) (commands : List (SnifferCommand PcapIf)) :
    Outcome PcapIf := { o with commands := commands ++ o.commands }

@[simp] theorem Outcome.after_pc (o : Outcome PcapIf) (cs : List (SnifferCommand PcapIf)) :
    (o.after cs).pc = o.pc := rfl

@[simp] theorem Outcome.after_vars (o : Outcome PcapIf) (cs : List (SnifferCommand PcapIf)) :
    (o.after cs).vars = o.vars := rfl

@[simp] theorem Outcome.after_nil (o : Outcome PcapIf) : o.after [] = o := rfl

variable [DecidableEq PcapIf]

def stepVars (x : SnifferVars PcapIf) :
    SnifferPc PcapIf → Option (SnifferPc PcapIf × SnifferVars PcapIf × Option (SnifferCommand PcapIf))
  | .take | .emptyTest _ | .dead _ => none
  | .deviceTest p =>
      if x.device = some p.device then some (.timeTest p, x, none)
      else some (if x.loopThread.isSome then .interruptLoop p else .startLoop p,
        { x with device := some p.device }, none)
  | .interruptLoop p => some (.startLoop p, x, some .interruptLoop)
  | .startLoop p =>
      some (.timeTest p, { x with loopThread := some p.device }, some (.startLoop p.device))
  | .timeTest p =>
      if p.timeGapInMillisecond = x.timeGapInMillisecond then some (.alertTest p, x, none)
      else some (if x.mostHitsTimer.isSome then .cancelTimer p else .startTimer p,
        { x with timeGapInMillisecond := p.timeGapInMillisecond }, none)
  | .cancelTimer p => some (.startTimer p, { x with mostHitsTimer := none }, some .cancelTimer)
  | .startTimer p =>
      if 0 < p.timeGapInMillisecond.toInt then
        some (.alertTest p, { x with mostHitsTimer := some p.timeGapInMillisecond },
          some (.startTimer p.timeGapInMillisecond))
      else some (.dead .illegalArgument, { x with mostHitsTimer := none }, none)
  | .alertTest p =>
      if p.alertGapInMillisecond = x.alertGapInMillisecond ∧ p.threshold = x.threshold then
        some (.take, x, none)
      else some (if x.alertThread.isSome then .interruptAlert p else .startAlert p,
        { x with
          alertGapInMillisecond := p.alertGapInMillisecond
          threshold := p.threshold }, none)
  | .interruptAlert p => some (.startAlert p, x, some .interruptAlert)
  | .startAlert p =>
      some (.take, { x with alertThread := some (p.threshold, p.alertGapInMillisecond) },
        some (.startAlert p.threshold p.alertGapInMillisecond))

/-- Everything an operation of a handling can do. -/
inductive VarsSteps (x : SnifferVars PcapIf) : SnifferPc PcapIf → SnifferPc PcapIf →
    SnifferVars PcapIf → Option (SnifferCommand PcapIf) → Prop
  | sameDevice (p : UserPreferences PcapIf) (hsame : x.device = some p.device) :
      VarsSteps x (.deviceTest p) (.timeTest p) x none
  | replaceDevice (p : UserPreferences PcapIf) (hnew : ¬ x.device = some p.device)
      (hsome : x.loopThread.isSome = true) :
      VarsSteps x (.deviceTest p) (.interruptLoop p) { x with device := some p.device } none
  | firstDevice (p : UserPreferences PcapIf) (hnew : ¬ x.device = some p.device)
      (hnone : x.loopThread = none) :
      VarsSteps x (.deviceTest p) (.startLoop p) { x with device := some p.device } none
  | interruptLoop (p : UserPreferences PcapIf) :
      VarsSteps x (.interruptLoop p) (.startLoop p) x (some .interruptLoop)
  | startLoop (p : UserPreferences PcapIf) :
      VarsSteps x (.startLoop p) (.timeTest p) { x with loopThread := some p.device }
        (some (.startLoop p.device))
  | sameTime (p : UserPreferences PcapIf)
      (hsame : p.timeGapInMillisecond = x.timeGapInMillisecond) :
      VarsSteps x (.timeTest p) (.alertTest p) x none
  | replaceTime (p : UserPreferences PcapIf)
      (hnew : ¬ p.timeGapInMillisecond = x.timeGapInMillisecond)
      (hsome : x.mostHitsTimer.isSome = true) :
      VarsSteps x (.timeTest p) (.cancelTimer p)
        { x with timeGapInMillisecond := p.timeGapInMillisecond } none
  | firstTime (p : UserPreferences PcapIf)
      (hnew : ¬ p.timeGapInMillisecond = x.timeGapInMillisecond)
      (hnone : x.mostHitsTimer = none) :
      VarsSteps x (.timeTest p) (.startTimer p)
        { x with timeGapInMillisecond := p.timeGapInMillisecond } none
  | cancelTimer (p : UserPreferences PcapIf) :
      VarsSteps x (.cancelTimer p) (.startTimer p) { x with mostHitsTimer := none }
        (some .cancelTimer)
  | startTimer (p : UserPreferences PcapIf) (hpos : 0 < p.timeGapInMillisecond.toInt) :
      VarsSteps x (.startTimer p) (.alertTest p)
        { x with mostHitsTimer := some p.timeGapInMillisecond }
        (some (.startTimer p.timeGapInMillisecond))
  | illegalPeriod (p : UserPreferences PcapIf) (hpos : ¬ 0 < p.timeGapInMillisecond.toInt) :
      VarsSteps x (.startTimer p) (.dead .illegalArgument) { x with mostHitsTimer := none } none
  | sameAlert (p : UserPreferences PcapIf)
      (hsame : p.alertGapInMillisecond = x.alertGapInMillisecond ∧ p.threshold = x.threshold) :
      VarsSteps x (.alertTest p) .take x none
  | replaceAlert (p : UserPreferences PcapIf)
      (hnew : ¬ (p.alertGapInMillisecond = x.alertGapInMillisecond ∧ p.threshold = x.threshold))
      (hsome : x.alertThread.isSome = true) :
      VarsSteps x (.alertTest p) (.interruptAlert p) { x with
        alertGapInMillisecond := p.alertGapInMillisecond
        threshold := p.threshold } none
  | firstAlert (p : UserPreferences PcapIf)
      (hnew : ¬ (p.alertGapInMillisecond = x.alertGapInMillisecond ∧ p.threshold = x.threshold))
      (hnone : x.alertThread = none) :
      VarsSteps x (.alertTest p) (.startAlert p) { x with
        alertGapInMillisecond := p.alertGapInMillisecond
        threshold := p.threshold } none
  | interruptAlert (p : UserPreferences PcapIf) :
      VarsSteps x (.interruptAlert p) (.startAlert p) x (some .interruptAlert)
  | startAlert (p : UserPreferences PcapIf) :
      VarsSteps x (.startAlert p) .take
        { x with alertThread := some (p.threshold, p.alertGapInMillisecond) }
        (some (.startAlert p.threshold p.alertGapInMillisecond))

theorem stepVars_cases {x x' : SnifferVars PcapIf} {pc pc' : SnifferPc PcapIf}
    {c : Option (SnifferCommand PcapIf)} (h : stepVars x pc = some (pc', x', c)) :
    VarsSteps x pc pc' x' c := by
  cases pc with
  | take => cases h
  | emptyTest p => cases h
  | dead ex => cases h
  | deviceTest p =>
      simp only [stepVars] at h
      split_ifs at h with hsame hsome
      · cases h
        exact .sameDevice p hsame
      · cases h
        exact .replaceDevice p hsame hsome
      · cases h
        exact .firstDevice p hsame (Option.not_isSome_iff_eq_none.1 hsome)
  | interruptLoop p =>
      cases h
      exact .interruptLoop p
  | startLoop p =>
      cases h
      exact .startLoop p
  | timeTest p =>
      simp only [stepVars] at h
      split_ifs at h with hsame hsome
      · cases h
        exact .sameTime p hsame
      · cases h
        exact .replaceTime p hsame hsome
      · cases h
        exact .firstTime p hsame (Option.not_isSome_iff_eq_none.1 hsome)
  | cancelTimer p =>
      cases h
      exact .cancelTimer p
  | startTimer p =>
      simp only [stepVars] at h
      split_ifs at h with hpos
      · cases h
        exact .startTimer p hpos
      · cases h
        exact .illegalPeriod p hpos
  | alertTest p =>
      simp only [stepVars] at h
      split_ifs at h with hsame hsome
      · cases h
        exact .sameAlert p hsame
      · cases h
        exact .replaceAlert p hsame hsome
      · cases h
        exact .firstAlert p hsame (Option.not_isSome_iff_eq_none.1 hsome)
  | interruptAlert p =>
      cases h
      exact .interruptAlert p
  | startAlert p =>
      cases h
      exact .startAlert p

def step (u : Sniffer PcapIf) : Option (Sniffer PcapIf × Option (SnifferCommand PcapIf)) :=
  match u.pc with
  | .take => u.preferenceQueue.peek.map fun p =>
      ({ u with preferenceQueue := u.preferenceQueue.remove, pc := .emptyTest p }, none)
  | .emptyTest p =>
      if u.preferenceQueue.isEmpty then some (u.goto (.deviceTest p), none)
      else some (u.goto .take, none)
  | pc => (stepVars u.vars pc).map fun r => ({ u with pc := r.1, vars := r.2.1 }, r.2.2)

inductive Steps (u : Sniffer PcapIf) : Sniffer PcapIf → Option (SnifferCommand PcapIf) → Prop
  | take (p : UserPreferences PcapIf) (hpc : u.pc = .take) (hpeek : u.preferenceQueue.peek = some p) :
      Steps u { u with preferenceQueue := u.preferenceQueue.remove, pc := .emptyTest p } none
  | skip (p : UserPreferences PcapIf) (hpc : u.pc = .emptyTest p)
      (hq : u.preferenceQueue.items ≠ []) : Steps u (u.goto .take) none
  | handle (p : UserPreferences PcapIf) (hpc : u.pc = .emptyTest p)
      (hq : u.preferenceQueue.items = []) : Steps u (u.goto (.deviceTest p)) none
  | vars {pc : SnifferPc PcapIf} {x : SnifferVars PcapIf} {c : Option (SnifferCommand PcapIf)}
      (h : stepVars u.vars u.pc = some (pc, x, c)) : Steps u { u with pc := pc, vars := x } c

theorem step_cases {u v : Sniffer PcapIf} {c : Option (SnifferCommand PcapIf)}
    (h : u.step = some (v, c)) : Steps u v c := by
  unfold step at h
  split at h
  · rename_i hpc
    obtain ⟨p, hpeek, heq⟩ := Option.map_eq_some_iff.1 h
    cases heq
    exact .take p hpc hpeek
  · rename_i p hpc
    simp only [Fifo.isEmpty_iff] at h
    split_ifs at h with hq
    · cases h
      exact .handle p hpc hq
    · cases h
      exact .skip p hpc hq
  · obtain ⟨⟨pc, x, c'⟩, hs, heq⟩ := Option.map_eq_some_iff.1 h
    cases heq
    exact .vars hs

/-! ## The whole handling of a preference -/

section Replace

variable (p : UserPreferences PcapIf) (x : SnifferVars PcapIf)

def startAlert : Outcome PcapIf where
  pc := .take
  vars := { x with alertThread := some (p.threshold, p.alertGapInMillisecond) }
  commands := [.startAlert p.threshold p.alertGapInMillisecond]

def replaceAlert : Outcome PcapIf :=
  if p.alertGapInMillisecond = x.alertGapInMillisecond ∧ p.threshold = x.threshold then
    ⟨.take, x, []⟩
  else
    (startAlert p { x with
      alertGapInMillisecond := p.alertGapInMillisecond
      threshold := p.threshold }).after (if x.alertThread.isSome then [.interruptAlert] else [])

def startTimer : Outcome PcapIf :=
  if 0 < p.timeGapInMillisecond.toInt then
    (replaceAlert p { x with mostHitsTimer := some p.timeGapInMillisecond }).after
      [.startTimer p.timeGapInMillisecond]
  else ⟨.dead .illegalArgument, { x with mostHitsTimer := none }, []⟩

def replaceTimer : Outcome PcapIf :=
  if p.timeGapInMillisecond = x.timeGapInMillisecond then replaceAlert p x
  else
    (startTimer p { x with
      timeGapInMillisecond := p.timeGapInMillisecond
      mostHitsTimer := none }).after (if x.mostHitsTimer.isSome then [.cancelTimer] else [])

def startLoop : Outcome PcapIf :=
  (replaceTimer p { x with loopThread := some p.device }).after [.startLoop p.device]

def replaceLoop : Outcome PcapIf :=
  if x.device = some p.device then replaceTimer p x
  else
    (startLoop p { x with device := some p.device }).after
      (if x.loopThread.isSome then [.interruptLoop] else [])

end Replace

/-- What is still to happen, from any operation after the test for a
later preference. -/
def outcome (x : SnifferVars PcapIf) : SnifferPc PcapIf → Outcome PcapIf
  | .deviceTest p => replaceLoop p x
  | .interruptLoop p => (startLoop p x).after [.interruptLoop]
  | .startLoop p => startLoop p x
  | .timeTest p => replaceTimer p x
  | .cancelTimer p => (startTimer p { x with mostHitsTimer := none }).after [.cancelTimer]
  | .startTimer p => startTimer p x
  | .alertTest p => replaceAlert p x
  | .interruptAlert p => (startAlert p x).after [.interruptAlert]
  | .startAlert p => startAlert p x
  | pc => ⟨pc, x, []⟩

theorem stepVars_outcome {x x' : SnifferVars PcapIf} {pc pc' : SnifferPc PcapIf}
    {c : Option (SnifferCommand PcapIf)} (h : stepVars x pc = some (pc', x', c)) :
    outcome x pc = (outcome x' pc').after c.toList := by
  cases stepVars_cases h with
  | sameDevice p hsame => simp [outcome, replaceLoop, hsame]
  | replaceDevice p hnew hsome => simp [outcome, replaceLoop, hnew, hsome]
  | firstDevice p hnew hnone => simp [outcome, replaceLoop, hnew, hnone]
  | sameTime p hsame => simp [outcome, replaceTimer, hsame]
  | replaceTime p hnew hsome => simp [outcome, replaceTimer, hnew, hsome]
  | firstTime p hnew hnone => simp [outcome, replaceTimer, hnew, hnone]
  | startTimer p hpos => simp [outcome, startTimer, hpos]
  | illegalPeriod p hpos => simp [outcome, startTimer, hpos]
  | sameAlert p hsame => simp [outcome, replaceAlert, hsame]
  | replaceAlert p hnew hsome => simp [outcome, replaceAlert, hnew, hsome]
  | firstAlert p hnew hnone => simp [outcome, replaceAlert, hnew, hnone]
  | _ => rfl

def rank : SnifferPc PcapIf → ℕ
  | .deviceTest _ => 9
  | .interruptLoop _ => 8
  | .startLoop _ => 7
  | .timeTest _ => 6
  | .cancelTimer _ => 5
  | .startTimer _ => 4
  | .alertTest _ => 3
  | .interruptAlert _ => 2
  | .startAlert _ => 1
  | _ => 0

theorem rank_stepVars {x x' : SnifferVars PcapIf} {pc pc' : SnifferPc PcapIf}
    {c : Option (SnifferCommand PcapIf)} (h : stepVars x pc = some (pc', x', c)) :
    rank pc' < rank pc := by
  cases stepVars_cases h <;> simp [rank]

theorem stepVars_eq_none_iff {x : SnifferVars PcapIf} {pc : SnifferPc PcapIf} :
    stepVars x pc = none ↔ rank pc = 0 := by
  cases pc <;> simp only [stepVars, rank] <;> (try split_ifs) <;> simp

theorem outcome_of_rank_eq_zero {x : SnifferVars PcapIf} {pc : SnifferPc PcapIf}
    (h : rank pc = 0) : outcome x pc = ⟨pc, x, []⟩ := by
  cases pc <;> first | rfl | simp [rank] at h

def Busy (u : Sniffer PcapIf) : Prop := rank u.pc ≠ 0

theorem step_eq_of_busy {u : Sniffer PcapIf} (h : u.Busy) :
    ∃ pc x c, stepVars u.vars u.pc = some (pc, x, c) ∧
      u.step = some ({ u with pc := pc, vars := x }, c) := by
  have hsome : stepVars u.vars u.pc ≠ none := fun hnone => h (stepVars_eq_none_iff.1 hnone)
  obtain ⟨⟨pc, x, c⟩, hr⟩ := Option.ne_none_iff_exists'.1 hsome
  refine ⟨pc, x, c, hr, ?_⟩
  unfold step
  split
  · rename_i hpc
    simp [Busy, hpc, rank] at h
  · rename_i hpc
    simp [Busy, hpc, rank] at h
  · simp [hr]

theorem busy_induction {motive : Sniffer PcapIf → Prop} (u : Sniffer PcapIf)
    (rest : ∀ u, ¬ u.Busy → motive u)
    (step : ∀ u pc x c, u.Busy → stepVars u.vars u.pc = some (pc, x, c) →
      u.step = some ({ u with pc := pc, vars := x }, c) →
      motive { u with pc := pc, vars := x } → motive u) : motive u := by
  induction hn : rank u.pc using Nat.strong_induction_on generalizing u with
  | _ n ih =>
      by_cases hbusy : u.Busy
      · obtain ⟨pc, x, c, hvars, hstep⟩ := step_eq_of_busy hbusy
        exact step u pc x c hbusy hvars hstep
          (ih (rank pc) (hn ▸ rank_stepVars hvars) { u with pc := pc, vars := x } rfl)
      · exact rest u hbusy

theorem stepVars_ne_emptyTest {x x' : SnifferVars PcapIf} {pc pc' : SnifferPc PcapIf}
    {c : Option (SnifferCommand PcapIf)} (h : stepVars x pc = some (pc', x', c))
    (p : UserPreferences PcapIf) : pc' ≠ .emptyTest p := by
  cases stepVars_cases h <;> simp

/-! ## Preferences on their way -/

def preference : SnifferPc PcapIf → Option (UserPreferences PcapIf)
  | .take | .dead _ => none
  | .emptyTest p | .deviceTest p | .interruptLoop p | .startLoop p | .timeTest p
  | .cancelTimer p | .startTimer p | .alertTest p | .interruptAlert p | .startAlert p => some p

theorem stepVars_preference {x x' : SnifferVars PcapIf} {pc pc' : SnifferPc PcapIf}
    {c : Option (SnifferCommand PcapIf)} (h : stepVars x pc = some (pc', x', c))
    {p : UserPreferences PcapIf} (hp : preference pc' = some p) : preference pc = some p := by
  cases stepVars_cases h <;> first | exact hp | cases hp

structure All (P : UserPreferences PcapIf → Prop) (u : Sniffer PcapIf) : Prop where
  queued : ∀ p ∈ u.preferenceQueue.items, P p
  handled : ∀ p, preference u.pc = some p → P p

omit [DecidableEq PcapIf] in
theorem All.put {P : UserPreferences PcapIf → Prop} {u : Sniffer PcapIf} (h : All P u)
    {p : UserPreferences PcapIf} (hp : P p) : All P (u.put p) := by
  refine ⟨fun q hq => ?_, h.handled⟩
  rcases List.mem_append.1 hq with hq | hq
  · exact h.queued q hq
  · exact List.mem_singleton.1 hq ▸ hp

theorem All.step {P : UserPreferences PcapIf → Prop} {u v : Sniffer PcapIf}
    {c : Option (SnifferCommand PcapIf)} (h : All P u) (hs : Steps u v c) : All P v := by
  cases hs with
  | take p hpc hpeek =>
      have hitems := Fifo.items_eq_of_peek hpeek
      refine ⟨fun q hq => h.queued q (List.mem_of_mem_tail hq), fun q hq => ?_⟩
      cases hq
      exact h.queued p (by rw [hitems]; exact List.mem_cons_self)
  | skip p hpc hq => exact ⟨h.queued, by simp [goto, preference]⟩
  | handle p hpc hq =>
      refine ⟨h.queued, fun q hq' => h.handled q ?_⟩
      rw [hpc]
      exact hq'
  | vars hs => exact ⟨h.queued, fun p hp => h.handled p (stepVars_preference hs hp)⟩

end Sniffer

end HttpLogMonitor
