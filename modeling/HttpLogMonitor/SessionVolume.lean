import HttpLogMonitor.AlertVolume
import HttpLogMonitor.Monitor

/-!
# The volume of alerts of a whole session

A superseded tracker goes on, so a session with many changes of threshold or
gap has many trackers on the one `alertURLQueue`, and a single removal can
bring all of them back to the outer loop. Each tracker publishes at most one
recovery for each hit, and each capture thread at most one high alert for
each hit it puts.
-/

namespace HttpLogMonitor

open Threads

/-- The recoveries a tracker can have published: one for each hit removed,
and one for the hits still queued. -/
def payable (q : Fifo HttpObject) : ℕ := q.removed.length + if q.isEmpty then 0 else 1

theorem payable_le_log (q : Fifo HttpObject) : payable q ≤ q.log.length := by
  have hlog := q.length_removed_add
  unfold payable
  split_ifs with hempty
  · omega
  · have hpos := List.length_pos_iff.2 (mt Fifo.isEmpty_iff.2 hempty)
    omega

theorem payable_put (q : Fifo HttpObject) (hit : HttpObject) :
    payable (q.put hit) = payable q + if q.isEmpty then 1 else 0 := by
  have hempty : (q.put hit).isEmpty = false := by simp [Fifo.isEmpty]
  simp only [payable, Fifo.removed_put, hempty, Bool.false_eq_true, if_false]
  split <;> rfl

theorem payable_remove {q : Fifo HttpObject} (hq : q.items ≠ []) :
    payable q.remove = payable q + if q.remove.isEmpty then 0 else 1 := by
  have hempty : q.isEmpty = false := Bool.eq_false_iff.2 (mt Fifo.isEmpty_iff.1 hq)
  simp only [payable, Fifo.length_removed_remove hq, hempty]
  rfl

namespace AlertTracker

/-- The tracker may publish a recovery before the next removal. -/
def owed (empty : Bool) (a : AlertTracker) : ℕ :=
  match a.pc with
  | .outerTest | .emptySleep _ => if empty then 0 else 1
  | .sizeTest | .sizeRead | .putAlert _ => 1
  | _ => 0

theorem owed_true_le (empty : Bool) (a : AlertTracker) : a.owed true ≤ a.owed empty := by
  unfold owed
  cases a.pc <;> simp

theorem owed_false_le (empty : Bool) (a : AlertTracker) :
    a.owed false ≤ a.owed empty + if empty then 1 else 0 := by
  cases empty with
  | true =>
      unfold owed
      cases a.pc <;> simp
  | false => exact le_refl _

def Low (a : AlertTracker) : Prop := ∀ alert, a.pc = .putAlert alert → alert.alertType = false

section Owed

variable {s s' : Store} {a a' : AlertTracker}

theorem Steps.leaves_low (h : Steps s a s' a') : a'.Low := by
  intro alert hpc
  cases h with
  | sizeRead hpc' =>
      cases hpc
      rfl
  | _ => simp_all [goto, caught]

theorem Steps.published_high (h : Steps s a s' a') (hlow : a.Low) :
    published s'.alertQueue true = published s.alertQueue true := by
  cases h with
  | putAlert alert hpc hflag => exact published_put_other s.alertQueue (by simp [hlow alert hpc])
  | _ => rfl

/-- Without a removal a recovery uses up what is owed; after one, what is
owed is at most one recovery, and none if the queue is empty. -/
theorem Steps.owed_cases (h : Steps s a s' a') (hlow : a.Low) :
    (s'.alertURLQueue = s.alertURLQueue ∧
      published s'.alertQueue false + a'.owed s.alertURLQueue.isEmpty ≤
        published s.alertQueue false + a.owed s.alertURLQueue.isEmpty) ∨
    (s.alertURLQueue.items ≠ [] ∧ s'.alertURLQueue = s.alertURLQueue.remove ∧
      s'.alertQueue = s.alertQueue ∧
      a'.owed s'.alertURLQueue.isEmpty ≤ if s'.alertURLQueue.isEmpty then 0 else 1) := by
  cases h with
  | removeBreak hpc hq => exact Or.inr ⟨hq, rfl, rfl, le_refl _⟩
  | removeContinue hpc hq => exact Or.inr ⟨hq, rfl, rfl, Nat.zero_le _⟩
  | putAlert alert hpc hflag =>
      have hcount := published_put_same s.alertQueue alert
      rw [hlow alert hpc] at hcount
      refine Or.inl ⟨rfl, ?_⟩
      simp only [owed, goto, hpc]
      exact hcount.le
  | leaveOuter hpc hq =>
      have hempty := mt Fifo.isEmpty_iff.1 hq
      exact Or.inl ⟨rfl, by simp [owed, goto, hpc, hempty]⟩
  | leaveInner hpc hq =>
      have hempty := Fifo.isEmpty_iff.2 hq
      exact Or.inl ⟨rfl, by simp [owed, goto, hpc, hempty]⟩
  | removeNothing hpc hq => exact Or.inl ⟨rfl, Nat.add_le_add_left (Nat.zero_le _) _⟩
  | _ => exact Or.inl ⟨rfl, by simp_all [owed, goto, caught]⟩

end Owed

end AlertTracker

/-- A hit put may raise one alert, and raising it uses that up. -/
theorem Callback.Steps.raised_add_le {threshold : Int32} {s s' : Store} {c c' : Callback}
    (h : Steps threshold s c s' c') :
    published s'.alertQueue true + c'.unraised + s.alertURLQueue.log.length ≤
      published s.alertQueue true + c.unraised + s'.alertURLQueue.log.length := by
  cases h with
  | putAlert n hpc hflag =>
      have hcount := published_put_same s.alertQueue ⟨s.clock, n, true⟩
      simp only [unraised, hpc] at hcount ⊢
      omega
  | putAlertURL hit hpc hflag =>
      simp only [unraised, hpc, Fifo.log_put, List.length_append, List.length_singleton]
      omega
  | caught hflag hput => exact Nat.add_le_add_right (Nat.add_le_add_left (Nat.zero_le _) _) _
  | below n hpc hn => exact Nat.add_le_add_right (Nat.add_le_add_left (Nat.zero_le _) _) _
  | _ => simp_all [unraised]

namespace Monitor

variable {PcapIf : Type}

/-- The accounts of all trackers and all capture threads. -/
structure Funded (u : Monitor PcapIf) : Prop where
  low : ∀ a ∈ u.trackers, a.Low
  paid : published u.store.alertQueue false +
      work (AlertTracker.owed u.store.alertURLQueue.isEmpty) u.trackers ≤
    u.trackers.length * payable u.store.alertURLQueue
  raised : published u.store.alertQueue true +
      work (fun l => Callback.unraised l.callback) u.runLoops ≤ u.store.alertURLQueue.log.length

theorem funded_initial (preferences : List (UserPreferences PcapIf)) (threshold : Int32)
    (clock : ℤ) : (initial preferences threshold clock).Funded :=
  ⟨fun _ ha => (List.not_mem_nil ha).elim, Nat.le_refl 0, Nat.le_refl 0⟩

theorem Funded.perform {u : Monitor PcapIf} (h : u.Funded) (c : SnifferCommand PcapIf) :
    (perform u c).Funded := by
  obtain ⟨hlow, hpaid, hraised⟩ := h
  cases c with
  | interruptLoop =>
      have hwork := work_modifyLast (f := fun l : RunLoop PcapIf => Callback.unraised l.callback)
        (m := fun l => { l with callback := l.callback.interrupt }) (fun _ => rfl) u.runLoops
      exact ⟨hlow, hpaid, (congrArg _ hwork).trans_le hraised⟩
  | startLoop device =>
      refine ⟨hlow, hpaid, ?_⟩
      simpa [Monitor.perform, RunLoop.perform, Callback.unraised, Callback.fresh] using hraised
  | interruptAlert =>
      have hwork := work_modifyLast (f := AlertTracker.owed u.store.alertURLQueue.isEmpty)
        (m := AlertTracker.interrupt) (fun _ => rfl) u.trackers
      refine ⟨forall_modifyLast (P := AlertTracker.Low) (f := AlertTracker.interrupt)
        (fun _ ha => ha) hlow, ?_, hraised⟩
      simpa only [Monitor.perform, AlertTracker.perform, length_modifyLast, hwork] using hpaid
  | startAlert threshold gap =>
      have hfresh : (AlertTracker.fresh threshold gap).Low := by
        intro alert hpc
        cases hpc
      refine ⟨forall_concat hlow hfresh, ?_, hraised⟩
      · have hnew : (AlertTracker.fresh threshold gap).owed u.store.alertURLQueue.isEmpty ≤
            payable u.store.alertURLQueue := Nat.le_add_left _ _
        simp only [Monitor.perform, AlertTracker.perform, work_append, work_cons, work_nil,
          List.length_append, List.length_singleton, Nat.succ_mul]
        omega
  | _ => exact ⟨hlow, hpaid, hraised⟩

variable [DecidableEq PcapIf]

omit [DecidableEq PcapIf] in
theorem Funded.capture {u : Monitor PcapIf} {pre post : List (RunLoop PcapIf)} {l : RunLoop PcapIf}
    {threshold : Int32} {s : Store} {c : Callback} (h : u.Funded)
    (heq : u.runLoops = pre ++ l :: post) (hc : Callback.Steps threshold u.store l.callback s c) :
    Funded { u with store := s, runLoops := pre ++ { l with callback := c } :: post } := by
  obtain ⟨hlow, hpaid, hraised⟩ := h
  refine ⟨hlow, ?_, ?_⟩
  · simp only [hc.published_low]
    rcases hc.alertURLQueue_cases with hqueue | ⟨hit, -, hqueue⟩
    · rwa [hqueue]
    · have hnonempty : (u.store.alertURLQueue.put hit).isEmpty = false := by simp [Fifo.isEmpty]
      have hwork := work_le_add
        (AlertTracker.owed_false_le u.store.alertURLQueue.isEmpty) u.trackers
      rw [hqueue, hnonempty, payable_put, Nat.mul_add]
      rw [Nat.mul_comm] at hwork
      omega
  · have hstep := hc.raised_add_le
    simp only [heq, work_append, work_cons] at hraised ⊢
    omega

omit [DecidableEq PcapIf] in
theorem Funded.tracker {u : Monitor PcapIf} {pre post : List AlertTracker} {a a' : AlertTracker}
    {s : Store} (h : u.Funded) (heq : u.trackers = pre ++ a :: post)
    (ha : AlertTracker.Steps u.store a s a') :
    Funded { u with store := s, trackers := pre ++ a' :: post } := by
  obtain ⟨hlow, hpaid, hraised⟩ := h
  have hlow' : a.Low := hlow a (by simp [heq])
  refine ⟨forall_replace (heq ▸ hlow) ha.leaves_low, ?_, ?_⟩
  · simp only [heq, work_append, work_cons, List.length_append, List.length_cons] at hpaid ⊢
    obtain ⟨hqueue, hle⟩ | ⟨hq, hqueue, halerts, howed⟩ := ha.owed_cases hlow'
    · rw [hqueue]
      omega
    · have hempty : u.store.alertURLQueue.isEmpty = false :=
        Bool.eq_false_iff.2 (mt Fifo.isEmpty_iff.1 hq)
      rw [halerts, hqueue, payable_remove hq, Nat.mul_add]
      rw [hqueue] at howed
      cases hrest : u.store.alertURLQueue.remove.isEmpty with
      | true =>
          have hothers : ∀ threads, work (AlertTracker.owed true) threads ≤
              work (AlertTracker.owed u.store.alertURLQueue.isEmpty) threads :=
            fun threads => work_le fun a _ => a.owed_true_le _
          have hpre := hothers pre
          have hpost := hothers post
          simp only [hrest, if_true, Nat.mul_zero] at howed ⊢
          omega
      | false =>
          simp only [hrest, Bool.false_eq_true, if_false, Nat.mul_one, hempty] at howed hpaid ⊢
          omega
  · simp only [ha.published_high hlow', ha.captures_eq.1]
    exact hraised

theorem Funded.step {u v : Monitor PcapIf} {e : MonitorEvent} (h : u.Funded) (hs : Steps u e v) :
    v.Funded := by
  cases hs with
  | @command s c hs =>
      have hsniffer : Funded { u with sniffer := s } := ⟨h.low, h.paid, h.raised⟩
      exact hsniffer.perform c
  | @packet pre post l packet s c heq hr =>
      have hraised := h.raised
      simp only [heq, work_append, work_cons] at hraised
      obtain ⟨hidle, -, ⟨rfl, rfl⟩ | ⟨url, -, rfl, hpc⟩⟩ := Callback.receive_cases hr
      · refine ⟨h.low, h.paid, ?_⟩
        simpa only [work_append, work_cons] using hraised
      · refine ⟨h.low, h.paid, ?_⟩
        simp only [Callback.unraised, hidle] at hraised
        simpa only [work_append, work_cons, Callback.unraised, hpc, Store.create] using hraised
  | capture heq hc => exact h.capture heq hc
  | calculator heq hr =>
      obtain ⟨hlow, hpaid, hraised⟩ := h
      cases hr <;> exact ⟨hlow, hpaid, hraised⟩
  | tracker heq ha => exact h.tracker heq ha
  | _ => exact ⟨h.low, h.paid, h.raised⟩

/-- In every state of every session, with `k` trackers ever started, no more
recoveries were published than `k` for each hit removed and `k` for those
queued, no more high alerts than hits put on `alertURLQueue`, and no more
than `k + 1` alerts for each hit. -/
theorem session_alert_volume (preferences : List (UserPreferences PcapIf)) (threshold : Int32)
    (clock : ℤ) (es : List MonitorEvent) (u : Monitor PcapIf)
    (h : machine.run (initial preferences threshold clock) es = some u) :
    published u.store.alertQueue false ≤
        u.trackers.length * (u.store.alertURLQueue.removed.length + 1) ∧
      published u.store.alertQueue true ≤ u.store.alertURLQueue.log.length ∧
      u.store.alertQueue.log.length ≤
        (u.trackers.length + 1) * u.store.alertURLQueue.log.length := by
  have hu := machine.run_invariant Funded (fun _ _ _ hu hs => hu.step (step_cases hs))
    (funded_initial preferences threshold clock) h
  have hlow := (Nat.le_add_right _ _).trans hu.paid
  have hhigh := (Nat.le_add_right _ _).trans hu.raised
  have hremoved : payable u.store.alertURLQueue ≤ u.store.alertURLQueue.removed.length + 1 := by
    unfold payable
    split <;> omega
  have hlog := Nat.mul_le_mul_left u.trackers.length (payable_le_log u.store.alertURLQueue)
  have hsum := published_add u.store.alertQueue
  refine ⟨hlow.trans (Nat.mul_le_mul_left _ hremoved), hhigh, ?_⟩
  rw [Nat.succ_mul]
  omega

def twoThresholds : List (UserPreferences ℕ) := [⟨20, 0, 10000, 120000⟩, ⟨21, 0, 10000, 120000⟩]

/-- The first tracker has its interrupt behind it when a hit comes, and
both trackers publish a recovery for that hit. -/
def twoRecoveriesEvents : List MonitorEvent :=
  List.flatten [[.enter], List.replicate 8 .sniffer, [.enter], List.replicate 7 .sniffer,
    [.tracker 0, .tracker 0, .packet 0 (.request []), .capture 0, .capture 0],
    List.replicate 4 (.tracker 0), List.replicate 4 (.tracker 1)]

theorem session_alert_volume_twoRecoveries : ∃ u,
    machine.run (initial twoThresholds 10 0) twoRecoveriesEvents = some u ∧
      published u.store.alertQueue false = 2 ∧ u.trackers.length = 2 ∧
      published u.store.alertQueue false ≤
        u.trackers.length * (u.store.alertURLQueue.removed.length + 1) := by
  have hrun : (machine.run (initial twoThresholds 10 0) twoRecoveriesEvents).any (fun u =>
      decide (published u.store.alertQueue false = 2 ∧ u.trackers.length = 2)) = true := by
    decide +kernel
  obtain ⟨u, hu, htest⟩ := (Option.any_eq_true _ _).1 hrun
  obtain ⟨hcount, htrackers⟩ := of_decide_eq_true htest
  exact ⟨u, hu, hcount, htrackers,
    (session_alert_volume twoThresholds 10 0 twoRecoveriesEvents u hu).1⟩

end Monitor

end HttpLogMonitor
