import HttpLogMonitor.NextPacket

/-!
# The alert tracker

`AlertTracker.run`, one queue operation, sleep or clock reading a step.
The outer loop publishes a recovery when it finds the queue nonempty and
small. The inner loop removes expired hits one after the other and leaves
when it has waited for the head to expire, or when the queue is empty.

A sleep ends when the clock has reached its end, or at once with an
`InterruptedException` when the interrupt flag is set. All three `try`
blocks log the exception and go on.
-/

namespace HttpLogMonitor

/-- The operation the tracker is about to carry out. The first test of
`size` is `sizeTest`, its second reading, for the `Alert`, is `sizeRead`;
`readClock` computes `diff` and compares it. A sleep carries its end.
`removeBreak` is the `remove` before `break`, `removeContinue` the one at
the end of the inner loop, and `dead` is the end by an exception. -/
inductive TrackerPc where
  | outerTest
  | emptySleep (wake : ℤ)
  | sizeTest
  | sizeRead
  | putAlert (alert : Alert)
  | innerTest
  | peek
  | readClock
  | headSleep (wake : ℤ)
  | removeBreak
  | removeContinue
  | dead (ex : JavaException)
  deriving DecidableEq

/-- `received` is a history: the thread has caught an
`InterruptedException`. -/
structure AlertTracker where
  threshold : Int32
  alertGapInMillisecond : Int32
  pc : TrackerPc
  lastURL : Option HttpObject
  interrupted : Bool
  received : Bool
  deriving DecidableEq

namespace AlertTracker

def fresh (threshold alertGapInMillisecond : Int32) : AlertTracker where
  threshold := threshold
  alertGapInMillisecond := alertGapInMillisecond
  pc := .outerTest
  lastURL := none
  interrupted := false
  received := false

def goto (a : AlertTracker) (pc : TrackerPc) : AlertTracker := { a with pc := pc }

def interrupt (a : AlertTracker) : AlertTracker := { a with interrupted := true }

/-- An `InterruptedException` is logged, and the loop around it goes on. -/
def caught (a : AlertTracker) (pc : TrackerPc) : AlertTracker :=
  { a with pc := pc, interrupted := false, received := true }

/-- `alertGapInMillisecond-100`, an `int` subtraction. -/
def ageLimit (a : AlertTracker) : ℤ := (a.alertGapInMillisecond - 100).toInt

def headWait (a : AlertTracker) (diff : ℤ) : ℤ := a.alertGapInMillisecond.toInt - diff - 100

def step (s : Store) (a : AlertTracker) : Option (Store × AlertTracker) :=
  match a.pc with
  | .outerTest =>
      if s.alertURLQueue.isEmpty then some (s, a.goto (.emptySleep (s.clock + 5 * 1000)))
      else some (s, a.goto .sizeTest)
  | .emptySleep wake =>
      if a.interrupted then some (s, a.caught .outerTest)
      else if wake ≤ s.clock then some (s, a.goto .outerTest)
      else none
  | .sizeTest =>
      if s.alertURLQueue.size ≤ a.threshold.toInt then some (s, a.goto .sizeRead)
      else some (s, a.goto .innerTest)
  | .sizeRead => some (s, a.goto (.putAlert ⟨s.clock, s.alertURLQueue.size, false⟩))
  | .putAlert alert =>
      if a.interrupted then some (s, a.caught .innerTest)
      else some ({ s with alertQueue := s.alertQueue.put alert }, a.goto .innerTest)
  | .innerTest =>
      if s.alertURLQueue.isEmpty then some (s, a.goto .outerTest)
      else some (s, a.goto .peek)
  | .peek => some (s, { a with pc := .readClock, lastURL := s.alertURLQueue.peek })
  | .readClock =>
      match a.lastURL with
      | none => some (s, a.goto (.dead .nullPointer))
      | some lastURL =>
          let diff := s.clock - lastURL.hittingTime
          if diff < a.ageLimit then
            if a.headWait diff < 0 then some (s, a.goto (.dead .illegalArgument))
            else some (s, a.goto (.headSleep (s.clock + a.headWait diff)))
          else some (s, a.goto .removeContinue)
  | .headSleep wake =>
      if a.interrupted then some (s, a.caught .innerTest)
      else if wake ≤ s.clock then some (s, a.goto .removeBreak)
      else none
  | .removeBreak =>
      if s.alertURLQueue.isEmpty then some (s, a.goto (.dead .noSuchElement))
      else some ({ s with alertURLQueue := s.alertURLQueue.remove }, a.goto .outerTest)
  | .removeContinue =>
      if s.alertURLQueue.isEmpty then some (s, a.goto (.dead .noSuchElement))
      else some ({ s with alertURLQueue := s.alertURLQueue.remove }, a.goto .innerTest)
  | .dead _ => none

/-- For a positive gap the `int` subtraction does not wrap. -/
theorem ageLimit_eq {a : AlertTracker} (hgap : 0 < a.alertGapInMillisecond.toInt) :
    a.ageLimit = a.alertGapInMillisecond.toInt - 100 := by
  have hlt := a.alertGapInMillisecond.toInt_lt
  have hhundred : (100 : Int32).toInt = 100 := by decide
  rw [ageLimit, Int32.toInt_sub, hhundred]
  apply Int.bmod_eq_of_le <;> omega

def Sleeping (a : AlertTracker) : Prop :=
  match a.pc with
  | .emptySleep _ | .headSleep _ => True
  | _ => False

instance (a : AlertTracker) : Decidable a.Sleeping := by
  unfold Sleeping
  split <;> infer_instance

/-- Everything a step can do. -/
inductive Steps (s : Store) (a : AlertTracker) : Store → AlertTracker → Prop
  | waitEmpty (hpc : a.pc = .outerTest) (hq : s.alertURLQueue.items = []) :
      Steps s a s (a.goto (.emptySleep (s.clock + 5 * 1000)))
  | leaveOuter (hpc : a.pc = .outerTest) (hq : s.alertURLQueue.items ≠ []) :
      Steps s a s (a.goto .sizeTest)
  | emptyInterrupted (wake : ℤ) (hpc : a.pc = .emptySleep wake) (hflag : a.interrupted = true) :
      Steps s a s (a.caught .outerTest)
  | emptyWake (wake : ℤ) (hpc : a.pc = .emptySleep wake) (hflag : a.interrupted = false)
      (hwake : wake ≤ s.clock) : Steps s a s (a.goto .outerTest)
  | low (hpc : a.pc = .sizeTest) (hsize : s.alertURLQueue.size ≤ a.threshold.toInt) :
      Steps s a s (a.goto .sizeRead)
  | high (hpc : a.pc = .sizeTest) (hsize : a.threshold.toInt < s.alertURLQueue.size) :
      Steps s a s (a.goto .innerTest)
  | sizeRead (hpc : a.pc = .sizeRead) :
      Steps s a s (a.goto (.putAlert ⟨s.clock, s.alertURLQueue.size, false⟩))
  | putInterrupted (alert : Alert) (hpc : a.pc = .putAlert alert) (hflag : a.interrupted = true) :
      Steps s a s (a.caught .innerTest)
  | putAlert (alert : Alert) (hpc : a.pc = .putAlert alert) (hflag : a.interrupted = false) :
      Steps s a { s with alertQueue := s.alertQueue.put alert } (a.goto .innerTest)
  | leaveInner (hpc : a.pc = .innerTest) (hq : s.alertURLQueue.items = []) :
      Steps s a s (a.goto .outerTest)
  | enterInner (hpc : a.pc = .innerTest) (hq : s.alertURLQueue.items ≠ []) :
      Steps s a s (a.goto .peek)
  | peek (hpc : a.pc = .peek) :
      Steps s a s { a with pc := .readClock, lastURL := s.alertURLQueue.peek }
  | nullHead (hpc : a.pc = .readClock) (hlast : a.lastURL = none) :
      Steps s a s (a.goto (.dead .nullPointer))
  | negativeSleep (hit : HttpObject) (hpc : a.pc = .readClock) (hlast : a.lastURL = some hit)
      (hage : s.clock - hit.hittingTime < a.ageLimit)
      (hneg : a.headWait (s.clock - hit.hittingTime) < 0) :
      Steps s a s (a.goto (.dead .illegalArgument))
  | waitHead (hit : HttpObject) (hpc : a.pc = .readClock) (hlast : a.lastURL = some hit)
      (hage : s.clock - hit.hittingTime < a.ageLimit)
      (hwait : 0 ≤ a.headWait (s.clock - hit.hittingTime)) :
      Steps s a s (a.goto (.headSleep (s.clock + a.headWait (s.clock - hit.hittingTime))))
  | expired (hit : HttpObject) (hpc : a.pc = .readClock) (hlast : a.lastURL = some hit)
      (hage : a.ageLimit ≤ s.clock - hit.hittingTime) : Steps s a s (a.goto .removeContinue)
  | headInterrupted (wake : ℤ) (hpc : a.pc = .headSleep wake) (hflag : a.interrupted = true) :
      Steps s a s (a.caught .innerTest)
  | headWake (wake : ℤ) (hpc : a.pc = .headSleep wake) (hflag : a.interrupted = false)
      (hwake : wake ≤ s.clock) : Steps s a s (a.goto .removeBreak)
  | removeNothing (hpc : a.pc = .removeBreak ∨ a.pc = .removeContinue)
      (hq : s.alertURLQueue.items = []) : Steps s a s (a.goto (.dead .noSuchElement))
  | removeBreak (hpc : a.pc = .removeBreak) (hq : s.alertURLQueue.items ≠ []) :
      Steps s a { s with alertURLQueue := s.alertURLQueue.remove } (a.goto .outerTest)
  | removeContinue (hpc : a.pc = .removeContinue) (hq : s.alertURLQueue.items ≠ []) :
      Steps s a { s with alertURLQueue := s.alertURLQueue.remove } (a.goto .innerTest)

theorem step_readClock {s s' : Store} {a a' : AlertTracker} (hpc : a.pc = .readClock)
    (h : step s a = some (s', a')) : Steps s a s' a' := by
  simp only [step, hpc] at h
  cases hlast : a.lastURL with
  | none =>
      simp only [hlast] at h
      cases h
      exact .nullHead hpc hlast
  | some hit =>
      simp only [hlast] at h
      split_ifs at h with hage hneg
      · cases h
        exact .negativeSleep hit hpc hlast hage hneg
      · cases h
        exact .waitHead hit hpc hlast hage (Int.not_lt.1 hneg)
      · cases h
        exact .expired hit hpc hlast (Int.not_lt.1 hage)

theorem step_cases {s s' : Store} {a a' : AlertTracker} (h : step s a = some (s', a')) :
    Steps s a s' a' := by
  cases hpc : a.pc with
  | readClock => exact step_readClock hpc h
  | outerTest =>
      simp only [step, hpc, Fifo.isEmpty_iff] at h
      split_ifs at h with hq
      · cases h
        exact .waitEmpty hpc hq
      · cases h
        exact .leaveOuter hpc hq
  | emptySleep wake =>
      simp only [step, hpc] at h
      split_ifs at h with hflag hwake
      · cases h
        exact .emptyInterrupted wake hpc hflag
      · cases h
        exact .emptyWake wake hpc (by simpa using hflag) hwake
  | sizeTest =>
      simp only [step, hpc] at h
      split_ifs at h with hsize
      · cases h
        exact .low hpc hsize
      · cases h
        exact .high hpc (Int.not_le.1 hsize)
  | sizeRead =>
      simp only [step, hpc] at h
      cases h
      exact .sizeRead hpc
  | putAlert alert =>
      simp only [step, hpc] at h
      split_ifs at h with hflag
      · cases h
        exact .putInterrupted alert hpc hflag
      · cases h
        exact .putAlert alert hpc (by simpa using hflag)
  | innerTest =>
      simp only [step, hpc, Fifo.isEmpty_iff] at h
      split_ifs at h with hq
      · cases h
        exact .leaveInner hpc hq
      · cases h
        exact .enterInner hpc hq
  | peek =>
      simp only [step, hpc] at h
      cases h
      exact .peek hpc
  | headSleep wake =>
      simp only [step, hpc] at h
      split_ifs at h with hflag hwake
      · cases h
        exact .headInterrupted wake hpc hflag
      · cases h
        exact .headWake wake hpc (by simpa using hflag) hwake
  | removeBreak =>
      simp only [step, hpc, Fifo.isEmpty_iff] at h
      split_ifs at h with hq
      · cases h
        exact .removeNothing (Or.inl hpc) hq
      · cases h
        exact .removeBreak hpc hq
  | removeContinue =>
      simp only [step, hpc, Fifo.isEmpty_iff] at h
      split_ifs at h with hq
      · cases h
        exact .removeNothing (Or.inr hpc) hq
      · cases h
        exact .removeContinue hpc hq
  | dead ex => simp [step, hpc] at h

theorem Steps.step_eq {s s' : Store} {a a' : AlertTracker} (h : Steps s a s' a') :
    step s a = some (s', a') := by
  cases h with
  | high hpc hsize => simp [step, hpc, Int.not_le.2 hsize]
  | negativeSleep hit hpc hlast hage hneg => simp [step, hpc, hlast, hage, hneg]
  | waitHead hit hpc hlast hage hwait => simp [step, hpc, hlast, hage, Int.not_lt.2 hwait]
  | expired hit hpc hlast hage => simp [step, hpc, hlast, Int.not_lt.2 hage]
  | removeNothing hpc hq => rcases hpc with hpc | hpc <;> simp [step, hpc, hq, Fifo.isEmpty_iff]
  | _ => simp_all [step, Fifo.isEmpty_iff]

/-! ## What the other threads see of a step -/

section Frame

variable {s s' : Store} {a a' : AlertTracker}

theorem Steps.clock_eq (h : Steps s a s' a') : s'.clock = s.clock := by
  cases h <;> rfl

theorem Steps.settings_eq (h : Steps s a s' a') :
    a'.threshold = a.threshold ∧ a'.alertGapInMillisecond = a.alertGapInMillisecond := by
  cases h <;> exact ⟨rfl, rfl⟩

theorem Steps.interrupted_eq (h : Steps s a s' a') (hflag : a.interrupted = false) :
    a'.interrupted = false := by
  cases h <;> first | exact hflag | rfl

theorem Steps.alertURLQueue_cases (h : Steps s a s' a') :
    s'.alertURLQueue = s.alertURLQueue ∨
      (a.pc = .removeBreak ∨ a.pc = .removeContinue) ∧ s.alertURLQueue.items ≠ [] ∧
        s'.alertURLQueue = s.alertURLQueue.remove := by
  cases h with
  | removeBreak hpc hq => exact Or.inr ⟨Or.inl hpc, hq, rfl⟩
  | removeContinue hpc hq => exact Or.inr ⟨Or.inr hpc, hq, rfl⟩
  | _ => exact Or.inl rfl

theorem Steps.captures_eq (h : Steps s a s' a') :
    s'.alertURLQueue.log = s.alertURLQueue.log ∧ s'.nextRef = s.nextRef := by
  cases h <;> exact ⟨rfl, rfl⟩

theorem Steps.alertQueue_cases (h : Steps s a s' a') :
    s'.alertQueue = s.alertQueue ∨
      ∃ alert, a.pc = .putAlert alert ∧ s'.alertQueue = s.alertQueue.put alert := by
  cases h with
  | putAlert alert hpc _ => exact Or.inr ⟨alert, hpc, rfl⟩
  | _ => exact Or.inl rfl

end Frame

/-! ## A tracker that is the only consumer -/

/-- What the tracker has peeked is still the head of the queue, and it
has not died. -/
def Safe (q : Fifo HttpObject) (a : AlertTracker) : Prop :=
  match a.pc with
  | .peek => q.items ≠ []
  | .readClock | .headSleep _ | .removeBreak | .removeContinue =>
      ∃ hit, a.lastURL = some hit ∧ q.peek = some hit
  | .dead _ => False
  | _ => True

theorem safe_fresh (q : Fifo HttpObject) (threshold gap : Int32) :
    (fresh threshold gap).Safe q := trivial

theorem Safe.put {q : Fifo HttpObject} {a : AlertTracker} (h : a.Safe q) (hit : HttpObject) :
    a.Safe (q.put hit) := by
  have hpeek : ∀ head, q.peek = some head → (q.put hit).peek = some head := by
    intro head hhead
    rw [Fifo.peek_put_of_ne_nil (Fifo.items_ne_nil_of_peek hhead) hit, hhead]
  unfold Safe at h ⊢
  cases hpc : a.pc <;> simp only [hpc] at h ⊢
  case peek => simp
  all_goals
    obtain ⟨head, hlast, hhead⟩ := h
    exact ⟨head, hlast, hpeek head hhead⟩

/-- Nothing but this step changes the queue, so a peeked head is there
to be removed, and a young head leaves a positive wait. -/
theorem Safe.step {s s' : Store} {a a' : AlertTracker}
    (hgap : 0 < a.alertGapInMillisecond.toInt) (h : a.Safe s.alertURLQueue)
    (hs : Steps s a s' a') : a'.Safe s'.alertURLQueue := by
  have hlimit := ageLimit_eq hgap
  have hpeek : s.alertURLQueue.items ≠ [] →
      ∃ hit, s.alertURLQueue.peek = some hit ∧ s.alertURLQueue.peek = some hit := by
    intro hq
    obtain ⟨hit, hhead⟩ := Fifo.exists_peek hq
    exact ⟨hit, hhead, hhead⟩
  cases hs with
  | enterInner hpc hq => exact hq
  | peek hpc =>
      simp only [Safe, hpc] at h
      exact hpeek h
  | nullHead hpc hlast =>
      simp only [Safe, hpc] at h
      obtain ⟨hit, hlast', -⟩ := h
      simp [hlast] at hlast'
  | negativeSleep hit hpc hlast hage hneg =>
      simp only [headWait] at hneg
      omega
  | waitHead hit hpc hlast hage hwait =>
      simp only [Safe, hpc] at h
      exact h
  | expired hit hpc hlast hage =>
      simp only [Safe, hpc] at h
      exact h
  | headWake wake hpc hflag hwake =>
      simp only [Safe, hpc] at h
      exact h
  | removeNothing hpc hq =>
      rcases hpc with hpc | hpc <;> simp only [Safe, hpc] at h <;> obtain ⟨hit, -, hhead⟩ := h <;>
        exact (Fifo.items_ne_nil_of_peek hhead hq).elim
  | _ => trivial

end AlertTracker

end HttpLogMonitor
