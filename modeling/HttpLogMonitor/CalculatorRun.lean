import HttpLogMonitor.Library.Machine
import HttpLogMonitor.MostHitsReport
import HttpLogMonitor.NextPacket

/-!
# A run of the calculator in single operations

`MostHitsCalculator.run` again, one queue operation a step, so that runs
can overlap. The order in which the map is iterated is chosen at the
step that builds the report.
-/

namespace HttpLogMonitor

/-- The operation a run is about to carry out: the two tests of
`isEmpty`, `take`, the rest of the loop body, the selection and sorting
of `topFive`, and the put of `topFive`. -/
inductive CalculatorPc where
  | firstTest
  | loopTest
  | take
  | count (thisHit : HttpObject)
  | select
  | putTop (topFive : List HttpObject)
  | done
  deriving DecidableEq

/-- `counted` is a history: the objects the run has counted, in order. -/
structure CalculatorRun where
  pc : CalculatorPc
  mapping : HitCountMapping
  counted : List HttpObject

namespace CalculatorRun

open MostHitsCalculator

def fresh : CalculatorRun := ⟨.firstTest, ∅, []⟩

def goto (r : CalculatorRun) (pc : CalculatorPc) : CalculatorRun := { r with pc := pc }

def held (r : CalculatorRun) : List HttpObject :=
  match r.pc with
  | .count thisHit => [thisHit]
  | _ => []

/-- `take` waits for the queue to become nonempty. -/
def step (iteration : List HttpObject) (s : Store) (r : CalculatorRun) :
    Option (Store × CalculatorRun) :=
  match r.pc with
  | .firstTest =>
      if s.mostHitsURLQueue.isEmpty then some (s, r.goto .done) else some (s, r.goto .loopTest)
  | .loopTest =>
      if s.mostHitsURLQueue.isEmpty then some (s, r.goto .select) else some (s, r.goto .take)
  | .take => s.mostHitsURLQueue.peek.map fun thisHit =>
      ({ s with mostHitsURLQueue := s.mostHitsURLQueue.remove }, r.goto (.count thisHit))
  | .count thisHit =>
      some ({ s with heap := (countHit s.heap r.mapping thisHit).1 },
        { pc := .loopTest
          mapping := (countHit s.heap r.mapping thisHit).2
          counted := r.counted ++ [thisHit] })
  | .select =>
      if iteration.Perm r.mapping.values then some (s, r.goto (.putTop (report s.heap iteration)))
      else none
  | .putTop topFive =>
      some ({ s with mostHitsTopURL := s.mostHitsTopURL.put topFive }, r.goto .done)
  | .done => none

inductive Steps (s : Store) (r : CalculatorRun) : Store → CalculatorRun → Prop
  | nothing (hpc : r.pc = .firstTest) (hq : s.mostHitsURLQueue.items = []) :
      Steps s r s (r.goto .done)
  | begin (hpc : r.pc = .firstTest) (hq : s.mostHitsURLQueue.items ≠ []) :
      Steps s r s (r.goto .loopTest)
  | leave (hpc : r.pc = .loopTest) (hq : s.mostHitsURLQueue.items = []) :
      Steps s r s (r.goto .select)
  | enter (hpc : r.pc = .loopTest) (hq : s.mostHitsURLQueue.items ≠ []) :
      Steps s r s (r.goto .take)
  | take (thisHit : HttpObject) (hpc : r.pc = .take)
      (hq : s.mostHitsURLQueue.items = thisHit :: s.mostHitsURLQueue.remove.items) :
      Steps s r { s with mostHitsURLQueue := s.mostHitsURLQueue.remove } (r.goto (.count thisHit))
  | count (thisHit : HttpObject) (hpc : r.pc = .count thisHit) :
      Steps s r { s with heap := (countHit s.heap r.mapping thisHit).1 }
        ⟨.loopTest, (countHit s.heap r.mapping thisHit).2, r.counted ++ [thisHit]⟩
  | select (iteration : List HttpObject) (hpc : r.pc = .select)
      (hiter : iteration.Perm r.mapping.values) :
      Steps s r s (r.goto (.putTop (report s.heap iteration)))
  | putTop (topFive : List HttpObject) (hpc : r.pc = .putTop topFive) :
      Steps s r { s with mostHitsTopURL := s.mostHitsTopURL.put topFive } (r.goto .done)

theorem step_cases {iteration : List HttpObject} {s s' : Store} {r r' : CalculatorRun}
    (h : step iteration s r = some (s', r')) : Steps s r s' r' := by
  cases hpc : r.pc with
  | firstTest =>
      simp only [step, hpc, Fifo.isEmpty_iff] at h
      split_ifs at h with hq
      · cases h
        exact .nothing hpc hq
      · cases h
        exact .begin hpc hq
  | loopTest =>
      simp only [step, hpc, Fifo.isEmpty_iff] at h
      split_ifs at h with hq
      · cases h
        exact .leave hpc hq
      · cases h
        exact .enter hpc hq
  | take =>
      simp only [step, hpc, Option.map_eq_some_iff] at h
      obtain ⟨thisHit, hpeek, heq⟩ := h
      cases heq
      exact .take thisHit hpc (Fifo.items_eq_of_peek hpeek)
  | count thisHit =>
      simp only [step, hpc] at h
      cases h
      exact .count thisHit hpc
  | select =>
      simp only [step, hpc] at h
      split_ifs at h with hiter
      cases h
      exact .select iteration hpc hiter
  | putTop topFive =>
      simp only [step, hpc] at h
      cases h
      exact .putTop topFive hpc
  | done => simp [step, hpc] at h

/-! ## A run with nothing else going on -/

def reportStore (s : Store) : ReportStore := ⟨s.heap, s.mostHitsURLQueue, s.mostHitsTopURL⟩

def alone : Machine (Store × CalculatorRun) (List HttpObject) :=
  ⟨fun u iteration => step iteration u.1 u.2⟩

theorem drain_eq_self {q : Fifo HttpObject} (h : q.items = []) : drain q = q := by
  obtain ⟨items, log, hsuffix⟩ := q
  cases h
  rfl

theorem alone_drains {s : Store} {r : CalculatorRun} (hpc : r.pc = .loopTest) :
    ∃ es, alone.run (s, r) es = some
      ({ s with
          heap := (countAll s.heap r.mapping s.mostHitsURLQueue.items).1
          mostHitsURLQueue := drain s.mostHitsURLQueue },
        ⟨.select, (countAll s.heap r.mapping s.mostHitsURLQueue.items).2,
          r.counted ++ s.mostHitsURLQueue.items⟩) := by
  generalize hitems : s.mostHitsURLQueue.items = items
  induction items generalizing s r with
  | nil =>
      refine ⟨[[]], ?_⟩
      simp [Machine.run, alone, step, hpc, Fifo.isEmpty, hitems, countAll, drain_eq_self, goto]
  | cons hit rest ih =>
      obtain ⟨es, hes⟩ := @ih
        { s with
          heap := (countHit s.heap r.mapping hit).1
          mostHitsURLQueue := s.mostHitsURLQueue.remove }
        ⟨.loopTest, (countHit s.heap r.mapping hit).2, r.counted ++ [hit]⟩ rfl (by simp [hitems])
      refine ⟨[] :: [] :: [] :: es, ?_⟩
      have hthree : alone.run (s, r) [[], [], []] = some
          ({ s with
              heap := (countHit s.heap r.mapping hit).1
              mostHitsURLQueue := s.mostHitsURLQueue.remove },
            ⟨.loopTest, (countHit s.heap r.mapping hit).2, r.counted ++ [hit]⟩) := by
        simp [Machine.run, alone, step, hpc, Fifo.isEmpty, Fifo.peek, hitems, goto]
      have hboth := alone.run_append_iff.2 ⟨_, hthree, hes⟩
      simpa [countAll, drain] using hboth

theorem alone_publishes (s : Store) {r : CalculatorRun} {iteration : List HttpObject}
    (hpc : r.pc = .select) (hiter : iteration.Perm r.mapping.values) :
    alone.run (s, r) [iteration, []] = some
      ({ s with mostHitsTopURL := s.mostHitsTopURL.put (report s.heap iteration) },
        r.goto .done) := by
  simp [Machine.run, alone, step, hpc, hiter, goto]

/-- With nothing else going on, the single operations make up
`MostHitsCalculator.run`. -/
theorem alone_run (entrySet : HitCountMapping → List HttpObject)
    (hiter : ∀ mapping, (entrySet mapping).Perm mapping.values) (s : Store) :
    ∃ es t r, alone.run (s, fresh) es = some (t, r) ∧ r.pc = .done ∧
      reportStore t = MostHitsCalculator.run entrySet (reportStore s) := by
  by_cases hq : s.mostHitsURLQueue.isEmpty = true
  · refine ⟨[[]], s, fresh.goto .done, ?_, rfl, ?_⟩
    · simp [Machine.run, alone, step, fresh, hq]
    · simp [MostHitsCalculator.run, reportStore, hq]
  · have hfirst : alone.run (s, fresh) [[]] = some (s, fresh.goto .loopTest) := by
      simp [Machine.run, alone, step, fresh, hq]
    obtain ⟨es, hes⟩ := alone_drains (s := s) (r := fresh.goto .loopTest) rfl
    have hselect := alone.run_append_iff.2 ⟨_, hfirst, hes⟩
    have hdone := alone.run_append_iff.2 ⟨_, hselect, alone_publishes _ rfl (hiter _)⟩
    refine ⟨_, _, _, hdone, rfl, ?_⟩
    exact (if_neg hq).symm

end CalculatorRun

end HttpLogMonitor
