import HttpLogMonitor.AlertSystem

/-!
# Recoveries

The callback publishes a high alert for every hit that leaves the queue
above the threshold. The recovery is published only when the outer loop
of the tracker finds the queue nonempty and small. A drop to the
threshold that happens inside the inner loop, or that empties the queue,
is followed by a sleep without a recovery.

Here a call of `nextPacket` is one event.
-/

namespace HttpLogMonitor

namespace AlertSystem

inductive CallEvent where
  | tick (d : ℕ)
  | call (packet : PcapPacket)
  | tracker
  deriving DecidableEq

def finishCall (u : AlertSystem) : AlertSystem :=
  Nat.iterate (fun u => (machine.step u .callback).getD u) 6 u

def callStep (u : AlertSystem) : CallEvent → Option AlertSystem
  | .tick d => machine.step u (.tick d)
  | .call packet => (machine.step u (.packet packet)).map finishCall
  | .tracker => machine.step u .tracker

def callMachine : Machine AlertSystem CallEvent := ⟨callStep⟩

theorem exists_run_iterate (n : ℕ) (u : AlertSystem) :
    ∃ es, machine.run u es =
      some (Nat.iterate (fun u => (machine.step u .callback).getD u) n u) := by
  induction n generalizing u with
  | zero => exact ⟨[], rfl⟩
  | succ n ih =>
      rw [Function.iterate_succ_apply]
      cases hs : machine.step u .callback with
      | none => simpa [hs] using ih u
      | some v =>
          obtain ⟨es, hes⟩ := ih v
          exact ⟨.callback :: es, machine.run_cons_iff.2 ⟨v, hs, hes⟩⟩

/-- Runs with atomic calls are among the runs in single operations. -/
theorem exists_run_of_callMachine {u v : AlertSystem} {es : List CallEvent}
    (h : callMachine.run u es = some v) : ∃ es', machine.run u es' = some v := by
  refine callMachine.run_simulation machine id (fun _ => True) ?_ trivial h
  intro u e v _ hs
  refine ⟨trivial, ?_⟩
  cases e with
  | tick d => exact ⟨[.tick d], machine.run_cons_iff.2 ⟨v, hs, rfl⟩⟩
  | tracker => exact ⟨[.tracker], machine.run_cons_iff.2 ⟨v, hs, rfl⟩⟩
  | call packet =>
      obtain ⟨w, hw, rfl⟩ := Option.map_eq_some_iff.1 hs
      obtain ⟨es', hes'⟩ := exists_run_iterate 6 w
      exact ⟨.packet packet :: es', machine.run_cons_iff.2 ⟨w, hw, hes'⟩⟩

def recorded (u : AlertSystem) (url : JavaString) : Store :=
  let hit := u.store.newHit url
  let q := u.store.alertURLQueue.put hit
  { u.store.create url with
    mostHitsURLQueue := u.store.mostHitsURLQueue.put hit
    alertURLQueue := q
    alertQueue :=
      if u.tracker.threshold.toInt < q.size then
        u.store.alertQueue.put ⟨u.store.clock, q.size, true⟩
      else u.store.alertQueue
    stats := ⟨u.store.stats.hitCount + 1⟩ }

theorem call_eq {u : AlertSystem} (hidle : u.callback = Callback.fresh) (packet : PcapPacket) :
    callMachine.step u (.call packet) = some
      (match packet.hitUrl with
      | none => u
      | some url => { u with store := u.recorded url }) := by
  obtain ⟨store, callback, tracker⟩ := u
  cases hidle
  cases hurl : packet.hitUrl with
  | none =>
      simp [callMachine, callStep, machine, step, Callback.receive, hurl, finishCall, Callback.step]
  | some url =>
      by_cases hn : tracker.threshold.toInt < (store.alertURLQueue.size : ℤ) + 1 <;>
        simp [callMachine, callStep, machine, step, Callback.receive, hurl, finishCall,
          Callback.step, recorded, Store.create, hn]

inductive CallSteps (u : AlertSystem) : CallEvent → AlertSystem → Prop
  | tick (d : ℕ) : CallSteps u (.tick d) { u with store := u.store.tick d }
  | ignored {packet : PcapPacket} (h : packet.hitUrl = none) : CallSteps u (.call packet) u
  | hit {packet : PcapPacket} (url : JavaString) (h : packet.hitUrl = some url) :
      CallSteps u (.call packet) { u with store := u.recorded url }
  | tracker {s : Store} {a : AlertTracker} (h : AlertTracker.Steps u.store u.tracker s a) :
      CallSteps u .tracker { u with store := s, tracker := a }

theorem callStep_cases {u v : AlertSystem} {e : CallEvent} (hidle : u.callback = Callback.fresh)
    (h : callMachine.step u e = some v) : CallSteps u e v := by
  cases e with
  | tick d =>
      cases h
      exact .tick d
  | call packet =>
      rw [call_eq hidle] at h
      cases hurl : packet.hitUrl with
      | none =>
          simp only [hurl, Option.some.injEq] at h
          exact h ▸ .ignored hurl
      | some url =>
          simp only [hurl, Option.some.injEq] at h
          exact h ▸ .hit url hurl
  | tracker =>
      have hs : machine.step u .tracker = some v := h
      cases step_cases hs with
      | tracker ha => exact .tracker ha

theorem callStep_tracker {u : AlertSystem} {s : Store} {a : AlertTracker}
    (h : AlertTracker.Steps u.store u.tracker s a) :
    callMachine.step u .tracker = some { u with store := s, tracker := a } := by
  simp [callMachine, callStep, machine, step, h.step_eq]

/-! ## A recovery before every sleep -/

def HighLast (u : AlertSystem) : Prop :=
  ∃ alert, u.store.alertQueue.log.getLast? = some alert ∧ alert.alertType = true

instance (u : AlertSystem) : Decidable u.HighLast :=
  decidable_of_iff (u.store.alertQueue.log.getLast?.any Alert.alertType = true)
    (by simp [HighLast, Option.any_eq_true])

/-- A sleeping tracker has let the user know that traffic is low. -/
def RecoveryShown (u : AlertSystem) : Prop :=
  u.tracker.Sleeping → u.store.alertURLQueue.size ≤ u.tracker.threshold.toInt →
    ∀ alert, u.store.alertQueue.log.getLast? = some alert → alert.alertType = false

/-- The tracker does not take the hit that brings the queue down to the
threshold, after a high alert, on a way that misses the size test: by
the second `remove` of the inner loop, or by the first at threshold 0,
which empties the queue. -/
def ReportsDrop (u : AlertSystem) (e : CallEvent) : Prop :=
  ¬ (e = .tracker ∧ u.HighLast ∧
    (u.store.alertURLQueue.size : ℤ) = u.tracker.threshold.toInt + 1 ∧
    (u.tracker.pc = .removeContinue ∨
      u.tracker.pc = .removeBreak ∧ u.tracker.threshold.toInt = 0))

instance (u : AlertSystem) (e : CallEvent) : Decidable (u.ReportsDrop e) :=
  inferInstanceAs (Decidable (¬ _))

def Unreported (u : AlertSystem) : Prop :=
  u.HighLast ∧ u.store.alertURLQueue.size ≤ u.tracker.threshold.toInt

/-- The tracker is on its way to publish a recovery, or to find that it
need not. -/
def AtHead (a : AlertTracker) : Prop :=
  match a.pc with
  | .outerTest | .sizeTest | .sizeRead | .putAlert _ => True
  | _ => False

structure Reporting (u : AlertSystem) : Prop where
  idle : u.callback = Callback.fresh
  flag : u.tracker.interrupted = false
  nonneg : 0 ≤ u.tracker.threshold.toInt
  recovery : ∀ alert, u.tracker.pc = .putAlert alert → alert.alertType = false
  unreported : u.Unreported → u.store.alertURLQueue.items ≠ [] ∧ AtHead u.tracker

theorem reporting_initial {threshold gap : Int32} (hthr : 0 ≤ threshold.toInt) (clock : ℤ) :
    (initial threshold gap clock).Reporting := by
  refine ⟨rfl, rfl, hthr, by simp [initial, AlertTracker.fresh], ?_⟩
  rintro ⟨⟨alert, halert, -⟩, -⟩
  simp [initial, Store.initial] at halert

theorem Reporting.recoveryShown {u : AlertSystem} (hu : u.Reporting) : u.RecoveryShown := by
  intro hsleep hsize alert halert
  by_contra htype
  have hhead := (hu.unreported ⟨⟨alert, halert, by simpa using htype⟩, hsize⟩).2
  unfold AlertTracker.Sleeping at hsleep
  unfold AtHead at hhead
  cases hpc : u.tracker.pc <;> simp [hpc] at hsleep hhead

theorem Reporting.hit {u : AlertSystem} (hu : u.Reporting) (url : JavaString) :
    Reporting { u with store := u.recorded url } := by
  refine ⟨hu.idle, hu.flag, hu.nonneg, hu.recovery, ?_⟩
  rintro ⟨hhigh, hsize⟩
  simp only [recorded, Fifo.size_put, Nat.cast_add, Nat.cast_one] at hsize
  have hnot : ¬ u.tracker.threshold.toInt < (u.store.alertURLQueue.size : ℤ) + 1 :=
    Int.not_lt.2 hsize
  have hhigh' : u.HighLast := by
    simpa [HighLast, recorded, hnot] using hhigh
  exact ⟨by simp [recorded], (hu.unreported ⟨hhigh', by omega⟩).2⟩

theorem Reporting.tracker {u : AlertSystem} {s : Store} {a : AlertTracker} (hu : u.Reporting)
    (hdrop : u.ReportsDrop .tracker) (ha : AlertTracker.Steps u.store u.tracker s a) :
    Reporting { u with store := s, tracker := a } := by
  obtain ⟨hidle, hflag, hnonneg, hrecovery, hunrep⟩ := hu
  -- Away from the head of the outer loop nothing is left unreported.
  have haway : ¬ AtHead u.tracker → u.HighLast →
      u.tracker.threshold.toInt < u.store.alertURLQueue.size := by
    intro hhead hhigh
    by_contra hle
    exact hhead (hunrep ⟨hhigh, Int.not_lt.1 hle⟩).2
  refine ⟨hidle, ha.interrupted_eq hflag, by rwa [ha.settings_eq.1], ?_, ?_⟩
  · cases ha with
    | sizeRead hpc =>
        intro alert halert
        cases halert
        rfl
    | _ => simp [AlertTracker.goto, AlertTracker.caught]
  · rintro ⟨hhigh, hsize⟩
    simp only [ha.settings_eq.1] at hsize
    cases ha with
    | removeBreak hpc hq =>
        have hlt := haway (by simp [AtHead, hpc]) hhigh
        simp only [Fifo.size_remove] at hsize
        have hone : (u.store.alertURLQueue.size : ℤ) = u.tracker.threshold.toInt + 1 := by omega
        have hpos : u.tracker.threshold.toInt ≠ 0 := fun hzero =>
          hdrop ⟨rfl, hhigh, hone, Or.inr ⟨hpc, hzero⟩⟩
        refine ⟨fun hnil => ?_, trivial⟩
        change u.store.alertURLQueue.remove.items = [] at hnil
        have hlen := congrArg List.length hnil
        change u.store.alertURLQueue.remove.size = 0 at hlen
        rw [Fifo.size_remove] at hlen
        omega
    | removeContinue hpc hq =>
        have hlt := haway (by simp [AtHead, hpc]) hhigh
        simp only [Fifo.size_remove] at hsize
        exact (hdrop ⟨rfl, hhigh, by omega, Or.inl hpc⟩).elim
    | putAlert alert hpc hflag' =>
        obtain ⟨other, hother, htype⟩ := hhigh
        have heq : alert = other := by simpa using hother
        simp [← heq, hrecovery alert hpc] at htype
    | putInterrupted alert hpc hflag' => simp [hflag] at hflag'
    | waitEmpty hpc hq => exact ((hunrep ⟨hhigh, hsize⟩).1 hq).elim
    | leaveOuter hpc hq => exact ⟨hq, trivial⟩
    | low hpc hsize' => exact ⟨(hunrep ⟨hhigh, hsize⟩).1, trivial⟩
    | high hpc hlarge => omega
    | sizeRead hpc => exact ⟨(hunrep ⟨hhigh, hsize⟩).1, trivial⟩
    | emptyInterrupted wake hpc hflag' => simp [hflag] at hflag'
    | removeNothing hpc hq =>
        have hlt := haway (by rcases hpc with hpc | hpc <;> simp [AtHead, hpc]) hhigh
        omega
    | _ =>
        have := haway (by simp [AtHead, *]) hhigh
        omega

theorem Reporting.step {u v : AlertSystem} {e : CallEvent} (hu : u.Reporting)
    (hdrop : u.ReportsDrop e) (h : callMachine.step u e = some v) : v.Reporting := by
  cases callStep_cases hu.idle h with
  | tick d => exact ⟨hu.idle, hu.flag, hu.nonneg, hu.recovery, hu.unreported⟩
  | ignored hurl => exact hu
  | hit url hurl => exact hu.hit url
  | tracker ha => exact hu.tracker hdrop ha

/-! ## Drops that lead to a sleep without a recovery -/

theorem not_recoveryShown {u : AlertSystem} (hhigh : u.HighLast)
    (hsize : u.store.alertURLQueue.size ≤ u.tracker.threshold.toInt) (hsleep : u.tracker.Sleeping) :
    ¬ u.RecoveryShown := by
  obtain ⟨alert, halert, htype⟩ := hhigh
  intro hshown
  rw [hshown hsleep hsize alert halert] at htype
  cases htype

def Sleeps (u : AlertSystem) : Prop :=
  ∃ n w, callMachine.run u (List.replicate n .tracker) = some w ∧ ¬ w.RecoveryShown

theorem Sleeps.of_step {u : AlertSystem} {s : Store} {a : AlertTracker}
    (ha : AlertTracker.Steps u.store u.tracker s a)
    (h : Sleeps { u with store := s, tracker := a }) : u.Sleeps := by
  obtain ⟨n, w, hrun, hw⟩ := h
  refine ⟨n + 1, w, ?_, hw⟩
  rw [List.replicate_succ]
  exact callMachine.run_cons_iff.2 ⟨_, callStep_tracker ha, hrun⟩

theorem Sleeps.here {u : AlertSystem} (h : ¬ u.RecoveryShown) : u.Sleeps := ⟨0, u, rfl, h⟩

theorem sleeps_of_empty {u : AlertSystem} (hpc : u.tracker.pc = .outerTest)
    (hq : u.store.alertURLQueue.items = []) (hhigh : u.HighLast)
    (hsize : u.store.alertURLQueue.size ≤ u.tracker.threshold.toInt) : u.Sleeps :=
  .of_step (.waitEmpty hpc hq) (.here (not_recoveryShown hhigh hsize trivial))

/-- A tracker in the inner loop publishes nothing before its next sleep.
By induction on the queue it has left to go through. -/
theorem sleeps_of_innerTest {u : AlertSystem} (hgap : 0 < u.tracker.alertGapInMillisecond.toInt)
    (hpc : u.tracker.pc = .innerTest) (hhigh : u.HighLast)
    (hsize : u.store.alertURLQueue.size ≤ u.tracker.threshold.toInt) : u.Sleeps := by
  generalize hitems : u.store.alertURLQueue.items = items
  induction items generalizing u with
  | nil =>
      exact .of_step (.leaveInner hpc hitems) (sleeps_of_empty rfl hitems hhigh hsize)
  | cons hit rest ih =>
      have hne : u.store.alertURLQueue.items ≠ [] := by simp [hitems]
      have hpeek : u.store.alertURLQueue.peek = some hit := by simp [Fifo.peek, hitems]
      have hlimit := AlertTracker.ageLimit_eq hgap
      apply Sleeps.of_step (.enterInner hpc hne)
      apply Sleeps.of_step (.peek rfl)
      by_cases hage : u.store.clock - hit.hittingTime < u.tracker.ageLimit
      · have hwait : 0 ≤ u.tracker.headWait (u.store.clock - hit.hittingTime) := by
          simp only [AlertTracker.headWait]
          omega
        exact .of_step (.waitHead hit rfl hpeek hage hwait)
          (.here (not_recoveryShown hhigh hsize trivial))
      · refine .of_step (.expired hit rfl hpeek (Int.not_lt.1 hage)) ?_
        refine .of_step (.removeContinue rfl hne) (ih hgap rfl hhigh ?_ (by simp [hitems]))
        simp only [Fifo.size_remove]
        exact le_trans (Int.ofNat_le.2 (Nat.sub_le _ 1)) hsize

theorem sleeps_of_drop {u : AlertSystem} (hgap : 0 < u.tracker.alertGapInMillisecond.toInt)
    (hthr : 0 ≤ u.tracker.threshold.toInt) {e : CallEvent} (hdrop : ¬ u.ReportsDrop e) :
    u.Sleeps := by
  obtain ⟨-, hhigh, hone, hpc⟩ := not_not.1 hdrop
  have hne : u.store.alertURLQueue.items ≠ [] := by
    intro hnil
    simp only [Fifo.size, hnil, List.length_nil, Nat.cast_zero] at hone
    omega
  have hsize : (u.store.alertURLQueue.remove.size : ℤ) ≤ u.tracker.threshold.toInt := by
    rw [Fifo.size_remove]
    omega
  rcases hpc with hpc | ⟨hpc, hzero⟩
  · exact .of_step (.removeContinue hpc hne) (sleeps_of_innerTest hgap rfl hhigh hsize)
  · refine .of_step (.removeBreak hpc hne) (sleeps_of_empty rfl ?_ hhigh hsize)
    apply List.eq_nil_of_length_eq_zero
    change u.store.alertURLQueue.remove.size = 0
    rw [hzero] at hsize
    omega

theorem callStep_settings_eq {u v : AlertSystem} {e : CallEvent}
    (hidle : u.callback = Callback.fresh) (h : callMachine.step u e = some v) :
    v.callback = Callback.fresh ∧ v.tracker.threshold = u.tracker.threshold ∧
      v.tracker.alertGapInMillisecond = u.tracker.alertGapInMillisecond := by
  cases callStep_cases hidle h with
  | tracker ha => exact ⟨hidle, ha.settings_eq⟩
  | _ => exact ⟨hidle, rfl, rfl⟩

/-- The recovery is shown in every state of a run whose drops are all
reported, and any other drop leads to a sleep without it. -/
theorem recoveryShown_of_reportsDrop (threshold gap : Int32) (clock : ℤ)
    (hthr : 0 ≤ threshold.toInt) (hgap : 0 < gap.toInt) (es : List CallEvent) (u : AlertSystem)
    (h : callMachine.run (initial threshold gap clock) es = some u) :
    (callMachine.Along ReportsDrop (initial threshold gap clock) es → u.RecoveryShown) ∧
      ∀ e, ¬ u.ReportsDrop e → ∃ n w,
        callMachine.run (initial threshold gap clock) (es ++ List.replicate n .tracker) = some w ∧
          ¬ w.RecoveryShown := by
  refine ⟨fun halong => ?_, fun e hdrop => ?_⟩
  · have hreporting := callMachine.run_invariant_along Reporting
      (fun _ _ _ hdrop hu hs => hu.step hdrop hs) halong (reporting_initial hthr clock) h
    exact hreporting.recoveryShown
  · have hset := callMachine.run_invariant
      (fun u => u.callback = Callback.fresh ∧ u.tracker.threshold = threshold ∧
        u.tracker.alertGapInMillisecond = gap)
      (fun u e v hu hs => by
        obtain ⟨hidle, hthreshold, hgap⟩ := callStep_settings_eq hu.1 hs
        exact ⟨hidle, hthreshold.trans hu.2.1, hgap.trans hu.2.2⟩)
      ⟨rfl, rfl, rfl⟩ h
    obtain ⟨n, w, hrun, hw⟩ :=
      sleeps_of_drop (hset.2.2.symm ▸ hgap) (hset.2.1.symm ▸ hthr) hdrop
    exact ⟨n, w, callMachine.run_append_iff.2 ⟨u, h, hrun⟩, hw⟩

/-- Three hits at once, of which the last two are above the threshold of
one. When they have expired the tracker removes all three in the inner
loop and sleeps. -/
def burstEvents : List CallEvent :=
  List.flatten [List.replicate 3 (.call (.request [])), List.replicate 5 .tracker, [.tick 119900],
    List.replicate 14 .tracker]

theorem recovery_lost : ¬ ∀ (threshold gap : Int32) (clock : ℤ) (es : List CallEvent)
    (u : AlertSystem), 0 ≤ threshold.toInt → 0 < gap.toInt →
      callMachine.run (initial threshold gap clock) es = some u → u.RecoveryShown := by
  intro hclaim
  have hrun : (callMachine.run (initial 1 120000 0) burstEvents).any
      (fun u => u.store.alertQueue.log == [⟨0, 2, true⟩, ⟨0, 3, true⟩] && u.tracker.threshold == 1 &&
        u.store.alertURLQueue.size == 0 && decide u.tracker.Sleeping) = true := by
    decide
  obtain ⟨u, hu, htest⟩ := (Option.any_eq_true _ _).1 hrun
  simp only [Bool.and_eq_true, beq_iff_eq, decide_eq_true_eq] at htest
  obtain ⟨⟨⟨hlog, hthreshold⟩, hsize⟩, hsleep⟩ := htest
  have hhigh : u.HighLast := ⟨⟨0, 3, true⟩, by simp [hlog], rfl⟩
  refine not_recoveryShown hhigh ?_ hsleep (hclaim 1 120000 0 _ u (by decide) (by decide) hu)
  rw [hsize, hthreshold]
  decide

/-- Two hits, of which the second is above the threshold of one. The
first has a head sleep to itself, and the tracker is back at the size
test when it has removed it. -/
def reportedDropEvents : List CallEvent :=
  List.flatten [[.call (.request []), .tick 1000, .call (.request [])], List.replicate 5 .tracker,
    [.tick 118900], List.replicate 9 .tracker]

theorem recoveryShown_of_reportsDrop_two_hits : ∃ u,
    callMachine.run (initial 1 120000 0) reportedDropEvents = some u ∧
      u.store.alertQueue.log = [⟨1000, 2, true⟩, ⟨119900, 1, false⟩] ∧
      u.tracker.Sleeping ∧ u.store.alertURLQueue.size = 1 ∧ u.RecoveryShown := by
  have hrun : (callMachine.run (initial 1 120000 0) reportedDropEvents).any
      (fun u => u.store.alertQueue.log == [⟨1000, 2, true⟩, ⟨119900, 1, false⟩] &&
        decide u.tracker.Sleeping && u.store.alertURLQueue.size == 1) = true := by
    decide
  obtain ⟨u, hu, htest⟩ := (Option.any_eq_true _ _).1 hrun
  simp only [Bool.and_eq_true, beq_iff_eq, decide_eq_true_eq] at htest
  obtain ⟨⟨hlog, hsleep⟩, hsize⟩ := htest
  have hshown := (recoveryShown_of_reportsDrop 1 120000 0 (by decide) (by decide) _ u hu).1
    (by decide)
  exact ⟨u, hu, hlog, hsleep, hsize, hshown⟩

end AlertSystem

end HttpLogMonitor
