import HttpLogMonitor.AlertTracker
import HttpLogMonitor.CalculatorRun
import HttpLogMonitor.Library.Threads
import HttpLogMonitor.Sniffer
import Mathlib.Data.List.ModifyLast

/-!
# The whole monitor

The sniffer loop with every capture thread, report timer and alert
tracker it has ever started. `interrupt` and `cancel` go to the thread
or timer started last, the one the loop's variable refers to. Nothing
else ends a thread: an interrupt only sets a flag, and a cancelled timer
lets a run in progress go on.
-/

namespace HttpLogMonitor

open Threads

structure RunLoop (PcapIf : Type) where
  device : PcapIf
  callback : Callback

/-- A `Timer` with its one task. A timer has one thread, so it starts no
run before the last one is done; `next` is when the next run is due, and
`start` is a history: when the timer was created. -/
structure MostHitsTimer where
  period : Int32
  start : ℤ
  next : ℤ
  cancelled : Bool
  calculator : CalculatorRun

/-- `preferences` is what the user is still going to enter. -/
structure Monitor (PcapIf : Type) where
  preferences : List (UserPreferences PcapIf)
  sniffer : Sniffer PcapIf
  store : Store
  runLoops : List (RunLoop PcapIf)
  timers : List MostHitsTimer
  trackers : List AlertTracker

inductive MonitorEvent where
  | tick (d : ℕ)
  | enter
  | sniffer
  | packet (i : ℕ) (packet : PcapPacket)
  | capture (i : ℕ)
  | fire (i : ℕ)
  | calculator (i : ℕ) (iteration : List HttpObject)
  | tracker (i : ℕ)
  deriving DecidableEq

namespace RunLoop

variable {PcapIf : Type}

def receive (packet : PcapPacket) (s : Store) (l : RunLoop PcapIf) :
    Option (Store × RunLoop PcapIf) :=
  (Callback.receive s l.callback packet).map fun r => (r.1, { l with callback := r.2 })

def step (threshold : Int32) (s : Store) (l : RunLoop PcapIf) :
    Option (Store × RunLoop PcapIf) :=
  (Callback.step threshold s l.callback).map fun r => (r.1, { l with callback := r.2 })

def perform (loops : List (RunLoop PcapIf)) : SnifferCommand PcapIf → List (RunLoop PcapIf)
  | .interruptLoop => loops.modifyLast fun l => { l with callback := l.callback.interrupt }
  | .startLoop device => loops ++ [⟨device, Callback.fresh⟩]
  | _ => loops

end RunLoop

namespace MostHitsTimer

/-- The first run of a new timer is due at once. -/
def fresh (period : Int32) (clock : ℤ) : MostHitsTimer :=
  ⟨period, clock, clock, false, CalculatorRun.fresh.goto .done⟩

def fire (s : Store) (t : MostHitsTimer) : Option (Store × MostHitsTimer) :=
  if t.calculator.pc = .done ∧ t.cancelled = false ∧ t.next ≤ s.clock then
    some (s, { t with next := t.next + t.period.toInt, calculator := CalculatorRun.fresh })
  else none

def step (iteration : List HttpObject) (s : Store) (t : MostHitsTimer) :
    Option (Store × MostHitsTimer) :=
  (CalculatorRun.step iteration s t.calculator).map fun r => (r.1, { t with calculator := r.2 })

def perform {PcapIf : Type} (clock : ℤ) (timers : List MostHitsTimer) :
    SnifferCommand PcapIf → List MostHitsTimer
  | .cancelTimer => timers.modifyLast fun t => { t with cancelled := true }
  | .startTimer period => timers ++ [fresh period clock]
  | _ => timers

end MostHitsTimer

namespace AlertTracker

def perform {PcapIf : Type} (trackers : List AlertTracker) :
    SnifferCommand PcapIf → List AlertTracker
  | .interruptAlert => trackers.modifyLast interrupt
  | .startAlert threshold gap => trackers ++ [fresh threshold gap]
  | _ => trackers

end AlertTracker

namespace Monitor

variable {PcapIf : Type}

def initial (preferences : List (UserPreferences PcapIf)) (threshold : Int32) (clock : ℤ) :
    Monitor PcapIf :=
  ⟨preferences, Sniffer.initial threshold, Store.initial clock, [], [], []⟩

def perform (u : Monitor PcapIf) (c : SnifferCommand PcapIf) : Monitor PcapIf :=
  { u with
    runLoops := RunLoop.perform u.runLoops c
    timers := MostHitsTimer.perform u.store.clock u.timers c
    trackers := AlertTracker.perform u.trackers c }

variable [DecidableEq PcapIf]

def step (u : Monitor PcapIf) : MonitorEvent → Option (Monitor PcapIf)
  | .tick d => some { u with store := u.store.tick d }
  | .enter =>
      match u.preferences with
      | [] => none
      | p :: rest => some { u with preferences := rest, sniffer := u.sniffer.put p }
  | .sniffer => u.sniffer.step.map fun r => r.2.toList.foldl perform { u with sniffer := r.1 }
  | .packet i packet => (stepAt (RunLoop.receive packet) u.store u.runLoops i).map fun r =>
      { u with store := r.1, runLoops := r.2 }
  | .capture i =>
      (stepAt (RunLoop.step u.sniffer.vars.threshold) u.store u.runLoops i).map fun r =>
        { u with store := r.1, runLoops := r.2 }
  | .fire i => (stepAt MostHitsTimer.fire u.store u.timers i).map fun r =>
      { u with store := r.1, timers := r.2 }
  | .calculator i iteration =>
      (stepAt (MostHitsTimer.step iteration) u.store u.timers i).map fun r =>
        { u with store := r.1, timers := r.2 }
  | .tracker i => (stepAt AlertTracker.step u.store u.trackers i).map fun r =>
      { u with store := r.1, trackers := r.2 }

def machine : Machine (Monitor PcapIf) MonitorEvent := ⟨step⟩

inductive Steps (u : Monitor PcapIf) : MonitorEvent → Monitor PcapIf → Prop
  | tick (d : ℕ) : Steps u (.tick d) { u with store := u.store.tick d }
  | enter {p : UserPreferences PcapIf} {rest : List (UserPreferences PcapIf)}
      (heq : u.preferences = p :: rest) :
      Steps u .enter { u with preferences := rest, sniffer := u.sniffer.put p }
  | quiet {s : Sniffer PcapIf} (h : Sniffer.Steps u.sniffer s none) :
      Steps u .sniffer { u with sniffer := s }
  | command {s : Sniffer PcapIf} {c : SnifferCommand PcapIf}
      (h : Sniffer.Steps u.sniffer s (some c)) :
      Steps u .sniffer (perform { u with sniffer := s } c)
  | packet {pre post : List (RunLoop PcapIf)} {l : RunLoop PcapIf} {packet : PcapPacket}
      {s : Store} {c : Callback} (heq : u.runLoops = pre ++ l :: post)
      (h : Callback.receive u.store l.callback packet = some (s, c)) :
      Steps u (.packet pre.length packet)
        { u with store := s, runLoops := pre ++ { l with callback := c } :: post }
  | capture {pre post : List (RunLoop PcapIf)} {l : RunLoop PcapIf} {s : Store} {c : Callback}
      (heq : u.runLoops = pre ++ l :: post)
      (h : Callback.Steps u.sniffer.vars.threshold u.store l.callback s c) :
      Steps u (.capture pre.length)
        { u with store := s, runLoops := pre ++ { l with callback := c } :: post }
  | fire {pre post : List MostHitsTimer} {t : MostHitsTimer}
      (heq : u.timers = pre ++ t :: post) (hdone : t.calculator.pc = .done)
      (hcancelled : t.cancelled = false) (hnext : t.next ≤ u.store.clock) :
      Steps u (.fire pre.length) { u with timers := pre ++
        { t with next := t.next + t.period.toInt, calculator := CalculatorRun.fresh } :: post }
  | calculator {pre post : List MostHitsTimer} {t : MostHitsTimer} {s : Store}
      {r : CalculatorRun} {iteration : List HttpObject} (heq : u.timers = pre ++ t :: post)
      (h : CalculatorRun.Steps u.store t.calculator s r) :
      Steps u (.calculator pre.length iteration)
        { u with store := s, timers := pre ++ { t with calculator := r } :: post }
  | tracker {pre post : List AlertTracker} {a a' : AlertTracker} {s : Store}
      (heq : u.trackers = pre ++ a :: post) (h : AlertTracker.Steps u.store a s a') :
      Steps u (.tracker pre.length) { u with store := s, trackers := pre ++ a' :: post }

theorem step_cases {u v : Monitor PcapIf} {e : MonitorEvent} (h : machine.step u e = some v) :
    Steps u e v := by
  cases e with
  | tick d =>
      cases h
      exact .tick d
  | enter =>
      simp only [machine, step] at h
      cases heq : u.preferences with
      | nil => simp [heq] at h
      | cons p rest =>
          simp only [heq, Option.some.injEq] at h
          exact h ▸ .enter heq
  | sniffer =>
      obtain ⟨⟨s, c⟩, hs, rfl⟩ := Option.map_eq_some_iff.1 h
      cases c with
      | none => exact .quiet (Sniffer.step_cases hs)
      | some c => exact .command (Sniffer.step_cases hs)
  | packet i packet =>
      obtain ⟨⟨s, loops⟩, hs, rfl⟩ := Option.map_eq_some_iff.1 h
      generalize heq : u.runLoops = threads at hs
      cases stepAt_cases hs with
      | mk pre post ht =>
          obtain ⟨⟨s', c⟩, hc, hmk⟩ := Option.map_eq_some_iff.1 ht
          cases hmk
          exact .packet heq hc
  | capture i =>
      obtain ⟨⟨s, loops⟩, hs, rfl⟩ := Option.map_eq_some_iff.1 h
      generalize heq : u.runLoops = threads at hs
      cases stepAt_cases hs with
      | mk pre post ht =>
          obtain ⟨⟨s', c⟩, hc, hmk⟩ := Option.map_eq_some_iff.1 ht
          cases hmk
          exact .capture heq (Callback.step_cases hc)
  | fire i =>
      obtain ⟨⟨s, timers⟩, hs, rfl⟩ := Option.map_eq_some_iff.1 h
      generalize heq : u.timers = threads at hs
      cases stepAt_cases hs with
      | mk pre post ht =>
          simp only [MostHitsTimer.fire] at ht
          split_ifs at ht with hready
          cases ht
          exact .fire heq hready.1 hready.2.1 hready.2.2
  | calculator i iteration =>
      obtain ⟨⟨s, timers⟩, hs, rfl⟩ := Option.map_eq_some_iff.1 h
      generalize heq : u.timers = threads at hs
      cases stepAt_cases hs with
      | mk pre post ht =>
          obtain ⟨⟨s', r⟩, hr, hmk⟩ := Option.map_eq_some_iff.1 ht
          cases hmk
          exact .calculator heq (CalculatorRun.step_cases hr)
  | tracker i =>
      obtain ⟨⟨s, trackers⟩, hs, rfl⟩ := Option.map_eq_some_iff.1 h
      generalize heq : u.trackers = threads at hs
      cases stepAt_cases hs with
      | mk pre post ht => exact .tracker heq (AlertTracker.step_cases ht)

end Monitor

end HttpLogMonitor
