import HttpLogMonitor.CalculatorRun
import HttpLogMonitor.Library.Threads

/-!
# Capture threads and calculator runs

Any number of capture threads put hits on `mostHitsURLQueue`, and any
number of runs take them, one after the other or at the same time. The
invariant accounts for every hit ever put and for every object whose
`hitCount` a run may write.
-/

namespace HttpLogMonitor

open MostHitsCalculator Threads

namespace Callback

/-- The hit that the call in progress has created and not yet put on
`mostHitsURLQueue`. -/
def newHits (c : Callback) : List HttpObject :=
  match c.pc with
  | .putMostHits newHit => [newHit]
  | _ => []

/-- What the reports see of a capture thread. -/
inductive Moves (s : Store) (c : Callback) (s' : Store) (c' : Callback) : Prop
  | quiet (hheap : s'.heap = s.heap) (hqueue : s'.mostHitsURLQueue = s.mostHitsURLQueue)
      (htop : s'.mostHitsTopURL = s.mostHitsTopURL) (hnext : s'.nextRef = s.nextRef)
      (hnewHits : c'.newHits.Sublist c.newHits)
  | create (url : JavaString) (hs : s' = s.create url) (hc : c.newHits = [])
      (hc' : c'.newHits = [s.newHit url])
  | put (hit : HttpObject)
      (hs : s' = { s with mostHitsURLQueue := s.mostHitsURLQueue.put hit })
      (hc : c.newHits = [hit]) (hc' : c'.newHits = [])

theorem moves_of_receive {s s' : Store} {c c' : Callback} {packet : PcapPacket}
    (h : receive s c packet = some (s', c')) : Moves s c s' c' := by
  obtain ⟨hidle, -, ⟨rfl, rfl⟩ | ⟨url, -, rfl, hpc⟩⟩ := receive_cases h
  · exact .quiet rfl rfl rfl rfl (List.Sublist.refl _)
  · exact .create url rfl (by simp [newHits, hidle]) (by simp [newHits, hpc])

theorem moves_of_steps {threshold : Int32} {s s' : Store} {c c' : Callback}
    (h : Steps threshold s c s' c') : Moves s c s' c' := by
  cases h with
  | putMostHits hit hpc hflag => exact .put hit rfl (by simp [newHits, hpc]) rfl
  | _ => exact .quiet rfl rfl rfl rfl (List.nil_sublist _)

theorem moves_of_interrupt (s : Store) (c : Callback) : Moves s c s c.interrupt :=
  .quiet rfl rfl rfl rfl (List.Sublist.refl _)

end Callback

namespace CalculatorRun

def owned (r : CalculatorRun) : List HttpObject := r.held ++ r.counted

end CalculatorRun

structure ReportSystem where
  store : Store
  callbacks : List Callback
  runs : List CalculatorRun

/-- `callback` carries the threshold that the capture thread reads, and
`calculator` the order in which the run iterates its map. -/
inductive ReportEvent where
  | tick (d : ℕ)
  | capture
  | interrupt (i : ℕ)
  | packet (i : ℕ) (packet : PcapPacket)
  | callback (i : ℕ) (threshold : Int32)
  | start
  | calculator (i : ℕ) (iteration : List HttpObject)
  deriving DecidableEq

namespace ReportSystem

def initial (clock : ℤ) : ReportSystem := ⟨Store.initial clock, [], []⟩

def moveCallback (u : ReportSystem) (i : ℕ)
    (step : Store → Callback → Option (Store × Callback)) : Option ReportSystem :=
  (stepAt step u.store u.callbacks i).map fun r => { u with store := r.1, callbacks := r.2 }

def step (u : ReportSystem) : ReportEvent → Option ReportSystem
  | .tick d => some { u with store := u.store.tick d }
  | .capture => some { u with callbacks := u.callbacks ++ [Callback.fresh] }
  | .interrupt i => u.moveCallback i fun s c => some (s, c.interrupt)
  | .packet i packet => u.moveCallback i fun s c => Callback.receive s c packet
  | .callback i threshold => u.moveCallback i (Callback.step threshold)
  | .start => some { u with runs := u.runs ++ [CalculatorRun.fresh] }
  | .calculator i iteration =>
      (stepAt (CalculatorRun.step iteration) u.store u.runs i).map fun r =>
        { u with store := r.1, runs := r.2 }

def machine : Machine ReportSystem ReportEvent := ⟨step⟩

inductive Steps (u : ReportSystem) : ReportSystem → Prop
  | tick (d : ℕ) : Steps u { u with store := u.store.tick d }
  | capture : Steps u { u with callbacks := u.callbacks ++ [Callback.fresh] }
  | callback {pre post : List Callback} {c c' : Callback} {s : Store}
      (heq : u.callbacks = pre ++ c :: post) (h : Callback.Moves u.store c s c') :
      Steps u { u with store := s, callbacks := pre ++ c' :: post }
  | start : Steps u { u with runs := u.runs ++ [CalculatorRun.fresh] }
  | calculator {pre post : List CalculatorRun} {r r' : CalculatorRun} {s : Store}
      (heq : u.runs = pre ++ r :: post) (h : CalculatorRun.Steps u.store r s r') :
      Steps u { u with store := s, runs := pre ++ r' :: post }

theorem moveCallback_cases {u v : ReportSystem} {i : ℕ}
    {step : Store → Callback → Option (Store × Callback)}
    (hstep : ∀ s c s' c', step s c = some (s', c') → Callback.Moves s c s' c')
    (h : u.moveCallback i step = some v) : Steps u v := by
  obtain ⟨⟨s, callbacks⟩, hs, rfl⟩ := Option.map_eq_some_iff.1 h
  generalize heq : u.callbacks = threads at hs
  cases stepAt_cases hs with
  | mk pre post ht => exact .callback heq (hstep _ _ _ _ ht)

theorem step_cases {u v : ReportSystem} {e : ReportEvent} (h : machine.step u e = some v) :
    Steps u v := by
  cases e with
  | tick d =>
      cases h
      exact .tick d
  | capture =>
      cases h
      exact .capture
  | interrupt i =>
      refine moveCallback_cases (fun s c s' c' hc => ?_) h
      cases hc
      exact Callback.moves_of_interrupt s c
  | packet i packet => exact moveCallback_cases (fun _ _ _ _ => Callback.moves_of_receive) h
  | callback i threshold =>
      exact moveCallback_cases
        (fun _ _ _ _ hc => Callback.moves_of_steps (Callback.step_cases hc)) h
  | start =>
      cases h
      exact .start
  | calculator i iteration =>
      obtain ⟨⟨s, runs⟩, hs, rfl⟩ := Option.map_eq_some_iff.1 h
      generalize heq : u.runs = threads at hs
      cases stepAt_cases hs with
      | mk pre post ht => exact .calculator heq (CalculatorRun.step_cases ht)

end ReportSystem

end HttpLogMonitor
