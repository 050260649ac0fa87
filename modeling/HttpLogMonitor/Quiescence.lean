import HttpLogMonitor.MonitorRuns

/-!
# The monitor comes to rest

With no new packet, no new preference and no time passing, the threads run
out of work. Each operation still ahead is counted, an element of a queue by
what it can still cause: a preference by its handling, a hit on
`mostHitsURLQueue` by being counted, a hit on `alertURLQueue` by its removal
and by the trackers it wakes, an interrupt by the exception it raises, a due
timer by its runs.
-/

namespace HttpLogMonitor

open Threads

namespace Sniffer

variable {PcapIf : Type}

def effort (u : Sniffer PcapIf) : ℕ :=
  (match u.pc with
    | .emptyTest _ => 10
    | pc => rank pc) + 11 * u.preferenceQueue.items.length

variable [DecidableEq PcapIf]

theorem Steps.effort_lt {u v : Sniffer PcapIf} {c : Option (SnifferCommand PcapIf)}
    (h : Steps u v c) : v.effort < u.effort := by
  cases h with
  | take p hpc hpeek =>
      have hitems := Fifo.items_eq_of_peek hpeek
      simp only [effort, hpc, hitems, rank, List.length_cons]
      omega
  | skip p hpc hq =>
      simp only [effort, goto, hpc, rank]
      omega
  | handle p hpc hq =>
      simp only [effort, goto, hpc, rank]
      omega
  | @vars pc x c hs =>
      have hrank := rank_stepVars hs
      have hafter : effort { u with pc := pc, vars := x } =
          rank pc + 11 * u.preferenceQueue.items.length := by
        cases pc <;> first | rfl | exact (stepVars_ne_emptyTest hs _ rfl).elim
      have hbefore : u.effort = rank u.pc + 11 * u.preferenceQueue.items.length := by
        unfold effort
        split
        · rename_i hpc
          simp [hpc, rank] at hrank
        · rfl
      omega

theorem Steps.period_pos {u v : Sniffer PcapIf} {period : Int32}
    (h : Steps u v (some (.startTimer period))) : 0 < period.toInt := by
  cases h with
  | vars hs =>
      generalize u.pc = pc at hs
      cases stepVars_cases hs with
      | startTimer p hpos => exact hpos

end Sniffer

namespace Callback

/-- A put on `alertURLQueue` can wake each of the trackers. -/
def effort (trackers : ℕ) (c : Callback) : ℕ :=
  match c.pc with
  | .idle => 0
  | .updateStats => 1
  | .putAlert _ => 2
  | .testThreshold _ => 3
  | .readSize => 4
  | .putAlertURL _ => 15 + 8 * trackers
  | .putMostHits _ => 20 + 8 * trackers

theorem effort_le {k k' : ℕ} (hk : k' ≤ k) (c : Callback) : c.effort k' ≤ c.effort k := by
  unfold effort
  split <;> omega

theorem Steps.effort_lt {threshold : Int32} {s s' : Store} {c c' : Callback}
    (h : Steps threshold s c s' c') (k : ℕ) :
    c'.effort k + 4 * s'.mostHitsURLQueue.items.length < c.effort k +
        4 * s.mostHitsURLQueue.items.length ∧ s'.alertURLQueue = s.alertURLQueue ∨
      c'.effort k + 10 + 8 * k < c.effort k ∧ s'.mostHitsURLQueue = s.mostHitsURLQueue ∧
        ∃ hit, s'.alertURLQueue = s.alertURLQueue.put hit := by
  cases h with
  | caught hflag hput =>
      refine Or.inl ⟨?_, rfl⟩
      obtain ⟨hit, hpc⟩ | ⟨hit, hpc⟩ | ⟨n, hpc⟩ := hput <;> simp [effort, hpc, Callback.caught]
  | putMostHits hit hpc hflag =>
      refine Or.inl ⟨?_, rfl⟩
      simp only [effort, hpc, Fifo.items_put, List.length_append, List.length_singleton]
      omega
  | putAlertURL hit hpc hflag =>
      refine Or.inr ⟨?_, rfl, hit, rfl⟩
      simp only [effort, hpc]
      omega
  | _ =>
      refine Or.inl ⟨?_, rfl⟩
      simp_all [effort]

end Callback

namespace CalculatorRun

def effort (r : CalculatorRun) : ℕ :=
  match r.pc with
  | .firstTest => 6
  | .loopTest => 5
  | .take => 4
  | .count _ => 6
  | .select => 2
  | .putTop _ => 1
  | .done => 0

theorem Steps.effort_lt {s s' : Store} {r r' : CalculatorRun} (h : Steps s r s' r') :
    r'.effort + 4 * s'.mostHitsURLQueue.items.length <
      r.effort + 4 * s.mostHitsURLQueue.items.length := by
  cases h with
  | take thisHit hpc hq =>
      simp only [effort, goto, hpc, hq, List.length_cons]
      omega
  | _ => simp_all [effort, goto]

theorem Steps.alertURLQueue_eq {s s' : Store} {r r' : CalculatorRun} (h : Steps s r s' r') :
    s'.alertURLQueue = s.alertURLQueue ∧ s'.clock = s.clock := by
  cases h <;> exact ⟨rfl, rfl⟩

end CalculatorRun

namespace MostHitsTimer

/-- The runs that are due: a timer that is late makes up for it. -/
def due (clock : ℤ) (t : MostHitsTimer) : ℕ :=
  if t.cancelled = false ∧ t.next ≤ clock then
    ((clock - t.next) / t.period.toInt).toNat + 1
  else 0

def effort (clock : ℤ) (t : MostHitsTimer) : ℕ := t.calculator.effort + 7 * t.due clock

theorem due_fire {clock : ℤ} {t : MostHitsTimer} (hpos : 0 < t.period.toInt)
    (hcancelled : t.cancelled = false) (hnext : t.next ≤ clock) (r : CalculatorRun) :
    due clock { t with next := t.next + t.period.toInt, calculator := r } + 1 = t.due clock := by
  have hshift : (clock - (t.next + t.period.toInt)) / t.period.toInt =
      (clock - t.next) / t.period.toInt - 1 := by
    rw [show clock - (t.next + t.period.toInt) = (clock - t.next) + (-1) * t.period.toInt by ring,
      Int.add_mul_ediv_right _ _ hpos.ne']
    rfl
  simp only [due, hcancelled, hnext, and_self, if_true, true_and, hshift]
  split_ifs with hlate
  · have hone : 1 ≤ (clock - t.next) / t.period.toInt :=
      (Int.le_ediv_iff_mul_le hpos).2 (by omega)
    omega
  · rw [Int.ediv_eq_zero_of_lt (by omega) (by omega)]
    rfl

theorem effort_fresh (period : Int32) (clock : ℤ) : (fresh period clock).effort clock = 7 := by
  simp [fresh, effort, due, CalculatorRun.effort, CalculatorRun.goto]

end MostHitsTimer

namespace AlertTracker

/-- What is ahead of the tracker while the queue stays as it is. A sleep
that is not over needs the clock or an interrupt. -/
def ahead (empty : Bool) (clock : ℤ) : TrackerPc → ℕ
  | .outerTest => if empty then 1 else 9
  | .emptySleep wake => if clock < wake then 0 else if empty then 2 else 10
  | .sizeTest => if empty then 5 else 8
  | .sizeRead => if empty then 4 else 7
  | .putAlert _ => if empty then 3 else 6
  | .innerTest => if empty then 2 else 5
  | .peek => 4
  | .readClock => 3
  | .headSleep wake => if clock < wake then 0 else 2
  | .removeBreak | .removeContinue => 1
  | .dead _ => 0

def effort (empty : Bool) (clock : ℤ) (a : AlertTracker) : ℕ :=
  ahead empty clock a.pc + if a.interrupted then 11 else 0

theorem ahead_le (empty : Bool) (clock : ℤ) (pc : TrackerPc) :
    ahead true clock pc ≤ ahead empty clock pc ∧ ahead false clock pc ≤ ahead empty clock pc + 8 := by
  cases empty with
  | true =>
      refine ⟨le_refl _, ?_⟩
      cases pc with
      | emptySleep wake =>
          simp only [ahead]
          split_ifs <;> simp_all
      | _ => simp [ahead]
  | false =>
      refine ⟨?_, Nat.le_add_right _ 8⟩
      cases pc with
      | emptySleep wake =>
          simp only [ahead]
          split_ifs <;> simp_all
      | _ => simp [ahead]

theorem effort_true_le (empty : Bool) (clock : ℤ) (a : AlertTracker) :
    a.effort true clock ≤ a.effort empty clock :=
  Nat.add_le_add_right (ahead_le empty clock a.pc).1 _

theorem effort_le_false (empty : Bool) (clock : ℤ) (a : AlertTracker) :
    a.effort empty clock ≤ a.effort false clock := by
  cases empty with
  | true => exact effort_true_le false clock a
  | false => exact le_refl _

theorem effort_false_le (empty : Bool) (clock : ℤ) (a : AlertTracker) :
    a.effort false clock ≤ a.effort empty clock + 8 := by
  have hahead := (ahead_le empty clock a.pc).2
  unfold effort
  omega

theorem effort_interrupt_le (empty : Bool) (clock : ℤ) (a : AlertTracker) :
    a.interrupt.effort empty clock ≤ a.effort empty clock + 11 := by
  simp only [effort, interrupt]
  split <;> omega

theorem effort_fresh_le (empty : Bool) (clock : ℤ) (threshold gap : Int32) :
    (fresh threshold gap).effort empty clock ≤ 9 := by
  cases empty <;> simp [fresh, effort, ahead]

theorem effort_goto (empty : Bool) (clock : ℤ) (a : AlertTracker) (pc : TrackerPc) :
    (a.goto pc).effort empty clock =
      ahead empty clock pc + if a.interrupted then 11 else 0 := rfl

theorem effort_caught (empty : Bool) (clock : ℤ) (a : AlertTracker) (pc : TrackerPc) :
    (a.caught pc).effort empty clock = ahead empty clock pc := rfl

theorem effort_lt_of_ahead {empty : Bool} {clock : ℤ} {a : AlertTracker} {pc : TrackerPc}
    (h : ahead empty clock pc < ahead empty clock a.pc) :
    (a.goto pc).effort empty clock < a.effort empty clock :=
  Nat.add_lt_add_right h _

/-- A removal pays for the next round of the outer loop. -/
theorem effort_remove {s : Store} {a : AlertTracker} (hq : s.alertURLQueue.items ≠ [])
    {pc : TrackerPc} (hahead : 1 ≤ ahead false s.clock a.pc)
    (hpc : ∀ empty, ahead empty s.clock pc ≤ 9) :
    (a.goto pc).effort s.alertURLQueue.remove.isEmpty s.clock +
        10 * s.alertURLQueue.remove.items.length <
      a.effort s.alertURLQueue.isEmpty s.clock + 10 * s.alertURLQueue.items.length := by
  obtain ⟨hit, rest, hitems⟩ := List.exists_cons_of_ne_nil hq
  have hempty : s.alertURLQueue.isEmpty = false := by simp [Fifo.isEmpty, hitems]
  have hle := hpc s.alertURLQueue.remove.isEmpty
  rw [effort_goto, effort, hempty, Fifo.items_remove, hitems, List.tail_cons, List.length_cons]
  omega

theorem Steps.effort_lt {s s' : Store} {a a' : AlertTracker} (h : Steps s a s' a') :
    a'.effort s'.alertURLQueue.isEmpty s.clock + 10 * s'.alertURLQueue.items.length <
      a.effort s.alertURLQueue.isEmpty s.clock + 10 * s.alertURLQueue.items.length := by
  cases h with
  | removeBreak hpc hq =>
      exact effort_remove hq (by simp [hpc, ahead]) (by rintro (- | -) <;> simp [ahead])
  | removeContinue hpc hq =>
      exact effort_remove hq (by simp [hpc, ahead]) (by rintro (- | -) <;> simp [ahead])
  | waitEmpty hpc hq =>
      have hempty := Fifo.isEmpty_iff.2 hq
      refine Nat.add_lt_add_right (effort_lt_of_ahead ?_) _
      simp [hpc, ahead, hempty]
  | waitHead hit hpc hlast hage hwait =>
      refine Nat.add_lt_add_right (effort_lt_of_ahead ?_) _
      simp only [hpc, ahead]
      split <;> omega
  | emptyInterrupted wake hpc hflag =>
      refine Nat.add_lt_add_right ?_ _
      rw [effort_caught]
      simp only [effort, hflag, if_true, ahead]
      split <;> omega
  | putInterrupted alert hpc hflag =>
      refine Nat.add_lt_add_right ?_ _
      rw [effort_caught]
      simp only [effort, hflag, if_true, ahead]
      split <;> omega
  | headInterrupted wake hpc hflag =>
      refine Nat.add_lt_add_right ?_ _
      rw [effort_caught]
      simp only [effort, hflag, if_true, ahead]
      split <;> omega
  | removeNothing hpc hq =>
      refine Nat.add_lt_add_right (effort_lt_of_ahead ?_) _
      rcases hpc with hpc | hpc <;> simp [hpc, ahead]
  | peek hpc =>
      refine Nat.add_lt_add_right (Nat.add_lt_add_right ?_ _) _
      simp [hpc, ahead]
  | leaveInner hpc hq =>
      have hempty := Fifo.isEmpty_iff.2 hq
      refine Nat.add_lt_add_right (effort_lt_of_ahead ?_) _
      simp [hpc, ahead, hempty]
  | leaveOuter hpc hq =>
      have hempty : s.alertURLQueue.isEmpty = false :=
        Bool.eq_false_iff.2 (mt Fifo.isEmpty_iff.1 hq)
      refine Nat.add_lt_add_right (effort_lt_of_ahead ?_) _
      simp [hpc, ahead, hempty]
  | enterInner hpc hq =>
      have hempty : s.alertURLQueue.isEmpty = false :=
        Bool.eq_false_iff.2 (mt Fifo.isEmpty_iff.1 hq)
      refine Nat.add_lt_add_right (effort_lt_of_ahead ?_) _
      simp [hpc, ahead, hempty]
  | _ =>
      refine Nat.add_lt_add_right (effort_lt_of_ahead ?_) _
      simp only [ahead, *]
      first | omega | (split_ifs <;> omega)

end AlertTracker

/-- The steps the threads make by themselves: not time, the user or the
network. -/
def MonitorEvent.Internal : MonitorEvent → Prop
  | .tick _ | .enter | .packet _ _ => False
  | _ => True

namespace RunLoop

variable {PcapIf : Type}

def effort (trackers : ℕ) (l : RunLoop PcapIf) : ℕ := l.callback.effort trackers

theorem work_perform_le (k : ℕ) (loops : List (RunLoop PcapIf)) (c : SnifferCommand PcapIf) :
    work (effort k) (perform loops c) ≤ work (effort k) loops := by
  cases c with
  | interruptLoop =>
      exact (work_modifyLast (f := effort k) (m := fun l : RunLoop PcapIf =>
        { l with callback := l.callback.interrupt }) (fun _ => rfl) loops).le
  | startLoop device => simp [perform, effort, Callback.effort, Callback.fresh]
  | _ => exact le_refl _

end RunLoop

namespace Monitor

variable {PcapIf : Type}

/-- `scheduleAtFixedRate` has accepted the period. -/
def LegalTimers (u : Monitor PcapIf) : Prop :=
  ∀ period ∈ u.timers.map MostHitsTimer.period, 0 < period.toInt

/-- No more trackers than these can be woken by a hit. -/
def wakeable (u : Monitor PcapIf) : ℕ := u.trackers.length + u.sniffer.effort

def effort (u : Monitor PcapIf) : ℕ :=
  12 * u.sniffer.effort + work (RunLoop.effort u.wakeable) u.runLoops +
    4 * u.store.mostHitsURLQueue.items.length + work (MostHitsTimer.effort u.store.clock) u.timers +
    10 * u.store.alertURLQueue.items.length +
    work (AlertTracker.effort u.store.alertURLQueue.isEmpty u.store.clock) u.trackers

theorem work_perform_le (empty : Bool) (clock : ℤ) (timers : List MostHitsTimer)
    (trackers : List AlertTracker) (c : SnifferCommand PcapIf) :
    work (MostHitsTimer.effort clock) (MostHitsTimer.perform clock timers c) +
        work (AlertTracker.effort empty clock) (AlertTracker.perform trackers c) ≤
      work (MostHitsTimer.effort clock) timers + work (AlertTracker.effort empty clock) trackers +
        11 ∧
      (AlertTracker.perform trackers c).length ≤ trackers.length + 1 := by
  cases c with
  | cancelTimer =>
      have hle := work_modifyLast_le (f := MostHitsTimer.effort clock)
        (m := fun t => { t with cancelled := true }) (c := 0)
        (fun t => by simp [MostHitsTimer.effort, MostHitsTimer.due]) timers
      simp only [MostHitsTimer.perform, AlertTracker.perform]
      omega
  | startTimer period =>
      simp [MostHitsTimer.perform, AlertTracker.perform, MostHitsTimer.effort_fresh]
      omega
  | interruptAlert =>
      have hle := work_modifyLast_le (AlertTracker.effort_interrupt_le empty clock) trackers
      simp only [MostHitsTimer.perform, AlertTracker.perform, length_modifyLast]
      omega
  | startAlert threshold gap =>
      have hle := AlertTracker.effort_fresh_le empty clock threshold gap
      simp [MostHitsTimer.perform, AlertTracker.perform]
      omega
  | _ =>
      simp only [MostHitsTimer.perform, AlertTracker.perform]
      omega

variable [DecidableEq PcapIf]

theorem LegalTimers.step {u v : Monitor PcapIf} {e : MonitorEvent} (h : u.LegalTimers)
    (hs : Steps u e v) : v.LegalTimers := by
  cases hs with
  | @command s c hs =>
      cases c with
      | startTimer period =>
          intro p hp
          simp only [perform, MostHitsTimer.perform, List.map_append, List.map_cons, List.map_nil,
            List.mem_append, List.mem_singleton] at hp
          rcases hp with hp | rfl
          · exact h p hp
          · exact hs.period_pos
      | cancelTimer =>
          have hmap : (MostHitsTimer.perform u.store.clock u.timers
              (.cancelTimer : SnifferCommand PcapIf)).map MostHitsTimer.period =
              u.timers.map MostHitsTimer.period :=
            map_modifyLast_of_eq (f := fun t : MostHitsTimer => { t with cancelled := true })
              (fun _ => rfl) u.timers
          intro p hp
          exact h p (hmap ▸ hp)
      | _ => exact h
  | fire heq hdone hcancelled hnext =>
      intro p hp
      exact h p (by simpa [heq] using hp)
  | calculator heq hr =>
      intro p hp
      exact h p (by simpa [heq] using hp)
  | _ => exact h

theorem Steps.effort_lt {u v : Monitor PcapIf} {e : MonitorEvent} (hlegal : u.LegalTimers)
    (h : Steps u e v) (he : e.Internal) : v.effort < u.effort := by
  cases h with
  | tick d => exact he.elim
  | enter heq => exact he.elim
  | packet heq hr => exact he.elim
  | @quiet s hs =>
      have hlt := hs.effort_lt
      have hloops : work (RunLoop.effort (u.trackers.length + s.effort)) u.runLoops ≤
          work (RunLoop.effort u.wakeable) u.runLoops :=
        work_le fun l _ => Callback.effort_le (by unfold wakeable; omega) l.callback
      simp only [effort, wakeable] at hloops ⊢
      omega
  | @command s c hs =>
      have hlt := hs.effort_lt
      obtain ⟨hwork, hlength⟩ := work_perform_le u.store.alertURLQueue.isEmpty u.store.clock u.timers
        u.trackers c
      have hloops : work (RunLoop.effort ((AlertTracker.perform u.trackers c).length + s.effort))
          u.runLoops ≤ work (RunLoop.effort u.wakeable) u.runLoops :=
        work_le fun l _ => Callback.effort_le (by unfold wakeable; omega) l.callback
      have hperform := RunLoop.work_perform_le
        ((AlertTracker.perform u.trackers c).length + s.effort) u.runLoops c
      simp only [effort, wakeable, perform] at hloops ⊢
      omega
  | @capture pre post l s c heq hc =>
      have hclock := hc.clock_eq
      obtain ⟨hlt, halert⟩ | ⟨hlt, hmost, hit, halert⟩ := hc.effort_lt u.wakeable
      · simp only [effort, wakeable, heq, halert, hclock, work_append, work_cons, RunLoop.effort]
          at hlt ⊢
        omega
      · have hempty : (u.store.alertURLQueue.put hit).isEmpty = false := by simp [Fifo.isEmpty]
        have htrackers := work_le_add (AlertTracker.effort_false_le u.store.alertURLQueue.isEmpty
          u.store.clock) u.trackers
        simp only [effort, wakeable, heq, halert, hmost, hclock, hempty, work_append, work_cons,
          RunLoop.effort, Fifo.items_put, List.length_append, List.length_singleton] at hlt ⊢
        omega
  | @fire pre post t heq hdone hcancelled hnext =>
      have hdue := MostHitsTimer.due_fire (hlegal t.period (by simp [heq])) hcancelled hnext
        CalculatorRun.fresh
      have hrest : t.calculator.effort = 0 := by simp [CalculatorRun.effort, hdone]
      have hfresh : CalculatorRun.fresh.effort = 6 := rfl
      simp only [effort, wakeable, heq, work_append, work_cons, MostHitsTimer.effort, hrest, hfresh]
        at hdue ⊢
      omega
  | @calculator pre post t s r iteration heq hr =>
      have hlt := hr.effort_lt
      obtain ⟨halert, hclock⟩ := hr.alertURLQueue_eq
      have hdue : MostHitsTimer.due u.store.clock { t with calculator := r } =
          t.due u.store.clock := rfl
      simp only [effort, wakeable, heq, halert, hclock, work_append, work_cons,
        MostHitsTimer.effort, hdue]
      omega
  | @tracker pre post a a' s heq ha =>
      have hlt := ha.effort_lt
      have hclock := ha.clock_eq
      have hmost : s.mostHitsURLQueue = u.store.mostHitsURLQueue := by cases ha <;> rfl
      have hothers : ∀ threads, work (AlertTracker.effort s.alertURLQueue.isEmpty u.store.clock)
          threads ≤ work (AlertTracker.effort u.store.alertURLQueue.isEmpty u.store.clock)
            threads := by
        rcases ha.alertURLQueue_cases with heq' | ⟨-, hq, -⟩
        · simp [heq']
        · have hempty : u.store.alertURLQueue.isEmpty = false :=
            Bool.eq_false_iff.2 (mt Fifo.isEmpty_iff.1 hq)
          rw [hempty]
          exact fun threads => work_le fun a _ => a.effort_le_false _ _
      have hpre := hothers pre
      have hpost := hothers post
      simp only [effort, wakeable, heq, hmost, hclock, work_append, work_cons, List.length_append,
        List.length_cons]
      omega

end Monitor

/-! ## What is left when nothing can move -/

namespace Sniffer

variable {PcapIf : Type} [DecidableEq PcapIf]

theorem step_eq_none_iff {u : Sniffer PcapIf} : u.step = none ↔
    (u.pc = .take ∧ u.preferenceQueue.items = []) ∨ ∃ ex, u.pc = .dead ex := by
  obtain ⟨q, pc, x⟩ := u
  cases pc with
  | take => simp [step, Fifo.peek]
  | dead ex => simp [step, stepVars]
  | emptyTest p =>
      simp only [step]
      split <;> simp
  | _ => simp [step, stepVars_eq_none_iff, rank]

end Sniffer

theorem Callback.step_eq_none_iff {threshold : Int32} {s : Store} {c : Callback} :
    step threshold s c = none ↔ c.pc = .idle := by
  refine ⟨fun h => ?_, fun h => by simp [step, h]⟩
  by_contra hpc
  have hsome := step_isSome threshold s hpc
  simp [h] at hsome

theorem CalculatorRun.step_eq_none_iff {s : Store} {r : CalculatorRun} :
    (∀ iteration, step iteration s r = none) ↔
      r.pc = .done ∨ (r.pc = .take ∧ s.mostHitsURLQueue.items = []) := by
  cases hpc : r.pc with
  | done => simp [step, hpc]
  | take => simp [step, hpc, Fifo.peek]
  | firstTest =>
      simp only [step, hpc]
      split <;> simp
  | loopTest =>
      simp only [step, hpc]
      split <;> simp
  | select =>
      simp only [step, hpc, reduceCtorEq, false_and, or_self, iff_false, not_forall]
      exact ⟨r.mapping.values, by simp⟩
  | _ => simp [step, hpc]

/-- The timer waits for its next run, or for nothing at all when it is
cancelled, or a run waits for a hit that it has seen and another has taken. -/
def MostHitsTimer.AtRest (s : Store) (t : MostHitsTimer) : Prop :=
  (t.calculator.pc = .done ∧ (t.cancelled = false → s.clock < t.next)) ∨
    (t.calculator.pc = .take ∧ s.mostHitsURLQueue.items = [])

theorem MostHitsTimer.atRest_iff {s : Store} {t : MostHitsTimer} :
    (fire s t = none ∧ ∀ iteration, step iteration s t = none) ↔ t.AtRest s := by
  simp only [step, Option.map_eq_none_iff, CalculatorRun.step_eq_none_iff, fire, AtRest]
  split_ifs with hfire
  · simp only [reduceCtorEq, false_and, hfire.1, true_and, false_iff, or_false]
    exact fun hrest => absurd (hrest hfire.2.1) (Int.not_lt.2 hfire.2.2)
  · simp only [true_and]
    refine or_congr_left ⟨fun hpc => ⟨hpc, fun hcancelled => ?_⟩, fun hpc => hpc.1⟩
    exact Int.not_le.1 fun hnext => hfire ⟨hpc, hcancelled, hnext⟩

/-- The tracker is dead or asleep. -/
def AlertTracker.AtRest (clock : ℤ) (a : AlertTracker) : Prop :=
  match a.pc with
  | .emptySleep wake | .headSleep wake => a.interrupted = false ∧ clock < wake
  | .dead _ => True
  | _ => False

theorem AlertTracker.step_eq_none_iff {s : Store} {a : AlertTracker} :
    step s a = none ↔ a.AtRest s.clock := by
  unfold step AtRest
  cases hpc : a.pc with
  | emptySleep wake =>
      simp only
      split_ifs with hflag hwake <;> simp_all
  | headSleep wake =>
      simp only
      split_ifs with hflag hwake <;> simp_all
  | dead ex => simp
  | readClock =>
      cases a.lastURL with
      | none => simp
      | some hit =>
          simp only
          split_ifs <;> simp
  | sizeRead => simp
  | peek => simp
  | _ =>
      simp only
      split_ifs <;> simp

namespace Monitor

variable {PcapIf : Type} [DecidableEq PcapIf]

/-- No thread can move before time passes, the user clicks or a packet
arrives. -/
structure AtRest (u : Monitor PcapIf) : Prop where
  sniffer : (u.sniffer.pc = .take ∧ u.sniffer.preferenceQueue.items = []) ∨
    ∃ ex, u.sniffer.pc = .dead ex
  runLoops : ∀ l ∈ u.runLoops, l.callback.pc = .idle
  timers : ∀ t ∈ u.timers, t.AtRest u.store
  trackers : ∀ a ∈ u.trackers, a.AtRest u.store.clock

theorem settled_iff {u : Monitor PcapIf} :
    machine.Settled MonitorEvent.Internal u ↔ u.AtRest := by
  have hsniffer : machine.step u .sniffer = none ↔ u.sniffer.step = none :=
    Option.map_eq_none_iff
  have hcapture : (∀ i, machine.step u (.capture i) = none) ↔
      ∀ l ∈ u.runLoops, l.callback.pc = .idle := by
    simp only [machine, step, Option.map_eq_none_iff, stepAt_eq_none_iff, RunLoop.step,
      Callback.step_eq_none_iff]
  have htimers : ((∀ i, machine.step u (.fire i) = none) ∧
      ∀ i iteration, machine.step u (.calculator i iteration) = none) ↔
      ∀ t ∈ u.timers, t.AtRest u.store := by
    have hswap : (∀ i iteration, machine.step u (.calculator i iteration) = none) ↔
        ∀ t ∈ u.timers, ∀ iteration, MostHitsTimer.step iteration u.store t = none := by
      rw [forall_comm]
      simp only [machine, step, Option.map_eq_none_iff, stepAt_eq_none_iff]
      exact ⟨fun h t ht iteration => h iteration t ht, fun h iteration t ht => h t ht iteration⟩
    rw [hswap]
    simp only [machine, step, Option.map_eq_none_iff, stepAt_eq_none_iff,
      ← MostHitsTimer.atRest_iff]
    exact ⟨fun h t ht => ⟨h.1 t ht, h.2 t ht⟩, fun h =>
      ⟨fun t ht => (h t ht).1, fun t ht => (h t ht).2⟩⟩
  have htrackers : (∀ i, machine.step u (.tracker i) = none) ↔
      ∀ a ∈ u.trackers, a.AtRest u.store.clock := by
    simp only [machine, step, Option.map_eq_none_iff, stepAt_eq_none_iff,
      AlertTracker.step_eq_none_iff]
  constructor
  · intro h
    exact ⟨Sniffer.step_eq_none_iff.1 (hsniffer.1 (h .sniffer trivial)),
      hcapture.1 fun i => h (.capture i) trivial,
      htimers.1 ⟨fun i => h (.fire i) trivial, fun i iteration => h (.calculator i iteration) trivial⟩,
      htrackers.1 fun i => h (.tracker i) trivial⟩
  · intro h e he
    cases e with
    | tick d => exact he.elim
    | enter => exact he.elim
    | packet i packet => exact he.elim
    | sniffer => exact hsniffer.2 (Sniffer.step_eq_none_iff.2 h.sniffer)
    | capture i => exact hcapture.2 h.runLoops i
    | fire i => exact (htimers.2 h.timers).1 i
    | calculator i iteration => exact (htimers.2 h.timers).2 i iteration
    | tracker i => exact htrackers.2 h.trackers i

theorem internal_step (u : Monitor PcapIf) (e : MonitorEvent) (v : Monitor PcapIf)
    (hu : u.LegalTimers) (he : e.Internal) (hs : machine.step u e = some v) :
    v.LegalTimers ∧ v.effort < u.effort :=
  ⟨hu.step (step_cases hs), (step_cases hs).effort_lt hu he⟩

theorem run_legalTimers {preferences : List (UserPreferences PcapIf)} {threshold : Int32}
    {clock : ℤ} {es : List MonitorEvent} {u : Monitor PcapIf}
    (h : machine.run (initial preferences threshold clock) es = some u) : u.LegalTimers :=
  machine.run_invariant LegalTimers (fun _ _ _ hu hs => hu.step (step_cases hs))
    (fun _ hp => (List.not_mem_nil hp).elim) h

/-- Left to themselves, the threads of the monitor stop after at most
`effort` operations, in whatever order they move, and then all of them wait:
the sniffer for a preference or dead, no call of `nextPacket` in progress,
every timer for its next run or for a hit that is gone, every tracker asleep
or dead. -/
theorem comes_to_rest (preferences : List (UserPreferences PcapIf)) (threshold : Int32) (clock : ℤ)
    (es : List MonitorEvent) (u : Monitor PcapIf)
    (h : machine.run (initial preferences threshold clock) es = some u) :
    (∀ es' v, (∀ e ∈ es', e.Internal) → machine.run u es' = some v → es'.length ≤ u.effort) ∧
      (∃ es' v, (∀ e ∈ es', e.Internal) ∧ machine.run u es' = some v ∧ v.AtRest) ∧
      ∀ v : Monitor PcapIf, (∀ e, e.Internal → machine.step v e = none) ↔ v.AtRest := by
  have hlegal := run_legalTimers h
  refine ⟨fun es' v hes hrun => ?_, ?_, fun v => settled_iff⟩
  · exact (Nat.le_add_right _ _).trans (machine.length_add_le internal_step hlegal hes hrun)
  · obtain ⟨es', v, hes, hrun, -, hsettled⟩ := machine.exists_settled internal_step hlegal
    exact ⟨es', v, hes, hrun, settled_iff.1 hsettled⟩

/-- The first preference, put while nothing has been started yet. -/
def oneHit : List (UserPreferences ℕ) := [⟨20, 0, 10000, 120000⟩]

/-- It is handled, a hit is captured, and the first run of the timer is due. -/
def oneHitEvents : List MonitorEvent :=
  .enter :: List.replicate 8 .sniffer ++ [.packet 0 (.request [])]

theorem comes_to_rest_oneHit : ∃ u : Monitor ℕ,
    machine.run (initial oneHit 10 0) oneHitEvents = some u ∧ u.effort = 36 ∧
      ∃ es' v, (∀ e ∈ es', MonitorEvent.Internal e) ∧ machine.run u es' = some v ∧ v.AtRest := by
  have hrun : (machine.run (initial oneHit 10 0) oneHitEvents).any (fun u =>
      decide (u.effort = 36)) = true := by
    decide +kernel
  obtain ⟨u, hu, htest⟩ := (Option.any_eq_true _ _).1 hrun
  exact ⟨u, hu, of_decide_eq_true htest, (comes_to_rest oneHit 10 0 oneHitEvents u hu).2.1⟩

end Monitor

end HttpLogMonitor
