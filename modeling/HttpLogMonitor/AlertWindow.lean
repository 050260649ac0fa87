import HttpLogMonitor.AlertSystem

/-!
# The window of recent hits

`alertURLQueue` holds the hits that may still be young. The tracker
removes a hit only at an age of at least `alertGapInMillisecond-100`,
however its sleep and the arrivals interleave, so the queue holds every
younger hit and its size bounds their number.
-/

namespace HttpLogMonitor

namespace AlertTracker

/-- What the tracker remembers of the age of the hit it has peeked. -/
def Aged (now : ℤ) (a : AlertTracker) : Prop :=
  match a.pc with
  | .headSleep wake => ∃ hit, a.lastURL = some hit ∧ hit.hittingTime + a.ageLimit ≤ wake
  | .removeBreak | .removeContinue =>
      ∃ hit, a.lastURL = some hit ∧ a.ageLimit ≤ now - hit.hittingTime
  | _ => True

theorem Aged.later {now later : ℤ} {a : AlertTracker} (h : a.Aged now) (hle : now ≤ later) :
    a.Aged later := by
  unfold Aged at h ⊢
  cases hpc : a.pc <;> simp only [hpc] at h ⊢
  case headSleep wake => exact h
  all_goals
    obtain ⟨hit, hlast, hage⟩ := h
    exact ⟨hit, hlast, by omega⟩

theorem Aged.step {s s' : Store} {a a' : AlertTracker}
    (hgap : 0 < a.alertGapInMillisecond.toInt) (h : a.Aged s.clock) (hs : Steps s a s' a') :
    a'.Aged s'.clock := by
  have hlimit := ageLimit_eq hgap
  cases hs with
  | waitHead hit hpc hlast hage hwait =>
      -- The sleep ends when the peeked hit reaches the age limit.
      refine ⟨hit, hlast, ?_⟩
      change hit.hittingTime + a.ageLimit ≤ _
      simp only [headWait]
      omega
  | expired hit hpc hlast hage => exact ⟨hit, hlast, hage⟩
  | headWake wake hpc hflag hwake =>
      simp only [Aged, hpc] at h
      obtain ⟨hit, hlast, hwait⟩ := h
      refine ⟨hit, hlast, ?_⟩
      change a.ageLimit ≤ _
      omega
  | _ => trivial

theorem Safe.removed_eq {s s' : Store} {a a' : AlertTracker} (hsafe : a.Safe s.alertURLQueue)
    (haged : a.Aged s.clock) (hs : Steps s a s' a')
    (hne : s'.alertURLQueue.removed ≠ s.alertURLQueue.removed) :
    ∃ hit, a.lastURL = some hit ∧ s.alertURLQueue.peek = some hit ∧
      s'.alertURLQueue.removed = s.alertURLQueue.removed ++ [hit] ∧
      a.ageLimit ≤ s.clock - hit.hittingTime := by
  rcases hs.alertURLQueue_cases with heq | ⟨hpc, -, heq⟩
  · rw [heq] at hne
    exact (hne rfl).elim
  · have hfacts : (∃ hit, a.lastURL = some hit ∧ s.alertURLQueue.peek = some hit) ∧
        ∃ hit, a.lastURL = some hit ∧ a.ageLimit ≤ s.clock - hit.hittingTime := by
      rcases hpc with hpc | hpc <;> simp only [Safe, Aged, hpc] at hsafe haged <;>
        exact ⟨hsafe, haged⟩
    obtain ⟨⟨hit, hlast, hpeek⟩, hit', hlast', hage⟩ := hfacts
    have hsame : hit' = hit := Option.some.inj (hlast'.symm.trans hlast)
    subst hsame
    exact ⟨hit', hlast, hpeek, heq ▸ Fifo.removed_remove hpeek, hage⟩

end AlertTracker

def HttpObject.CapturedBefore (a b : HttpObject) : Prop :=
  a.ref < b.ref ∧ a.hittingTime ≤ b.hittingTime

namespace Callback

/-- The hit of the call in progress, while it is still to be put on
`alertURLQueue`. -/
def pending (c : Callback) : List HttpObject :=
  match c.pc with
  | .putMostHits hit | .putAlertURL hit => [hit]
  | _ => []

theorem Steps.captured_sublist {threshold : Int32} {s s' : Store} {c c' : Callback}
    (h : Steps threshold s c s' c') :
    (s'.alertURLQueue.log ++ c'.pending).Sublist (s.alertURLQueue.log ++ c.pending) := by
  cases h with
  | caught hflag hput => simp [pending, Callback.caught]
  | putMostHits hit hpc hflag => simp [pending, hpc]
  | putAlertURL hit hpc hflag => simp [pending, hpc]
  | readSize hpc => simp [pending, hpc]
  | above n hpc hn => simp [pending, hpc]
  | below n hpc hn => simp [pending, hpc]
  | putAlert n hpc hflag => simp [pending, hpc]
  | updateStats hpc => simp [pending, hpc]

end Callback

namespace AlertSystem

/-! ## Capture order -/

/-- Everything captured so far, with what is about to be put, is in
capture order, and comes before any later capture. -/
structure Ordered (u : AlertSystem) : Prop where
  captured : (u.store.alertURLQueue.log ++ u.callback.pending).Pairwise HttpObject.CapturedBefore
  past : ∀ hit ∈ u.store.alertURLQueue.log ++ u.callback.pending,
    hit.ref < u.store.nextRef ∧ hit.hittingTime ≤ u.store.clock

theorem ordered_initial (threshold gap : Int32) (clock : ℤ) :
    (initial threshold gap clock).Ordered :=
  ⟨List.Pairwise.nil, by simp [initial, Store.initial, Callback.fresh, Callback.pending]⟩

theorem Ordered.step {u v : AlertSystem} {e : AlertEvent} (hu : u.Ordered) (h : Steps u e v) :
    v.Ordered := by
  obtain ⟨hcap, hpast⟩ := hu
  cases h with
  | tick d =>
      refine ⟨hcap, fun hit hhit => ⟨(hpast hit hhit).1, ?_⟩⟩
      have := (hpast hit hhit).2
      simp only [Store.tick]
      omega
  | packet hr =>
      obtain ⟨hidle, -, ⟨rfl, rfl⟩ | ⟨url, -, rfl, hpc⟩⟩ := Callback.receive_cases hr
      · exact ⟨hcap, hpast⟩
      · have hnil : u.callback.pending = [] := by simp [Callback.pending, hidle]
        simp only [hnil, List.append_nil] at hcap hpast
        refine ⟨?_, ?_⟩
        · simp only [Callback.pending, hpc, Store.create]
          refine List.pairwise_append.2 ⟨hcap, List.pairwise_singleton _ _, ?_⟩
          intro a ha b hb
          obtain rfl : b = u.store.newHit url := by simpa using hb
          exact hpast a ha
        · intro hit hhit
          simp only [Callback.pending, hpc, Store.create, List.mem_append,
            List.mem_singleton] at hhit ⊢
          rcases hhit with hhit | rfl
          · have := hpast hit hhit
            exact ⟨by omega, this.2⟩
          · exact ⟨Nat.lt_succ_self _, le_rfl⟩
  | callback hc =>
      have hsub := hc.captured_sublist
      refine ⟨hcap.sublist hsub, fun hit hhit => ?_⟩
      have := hpast hit (hsub.subset hhit)
      exact ⟨hc.nextRef_eq ▸ this.1, hc.clock_eq ▸ this.2⟩
  | tracker ha =>
      obtain ⟨heq, hnext⟩ := ha.captures_eq
      refine ⟨by simpa only [heq] using hcap, fun hit hhit => ?_⟩
      simp only [heq] at hhit
      exact ⟨hnext ▸ (hpast hit hhit).1, ha.clock_eq.symm ▸ (hpast hit hhit).2⟩

/-! ## The window -/

/-- What has left the queue is old, and the tracker is about to remove
nothing that is not. -/
structure Window (u : AlertSystem) : Prop where
  safe : u.tracker.Safe u.store.alertURLQueue
  aged : u.tracker.Aged u.store.clock
  removed_old : ∀ hit ∈ u.store.alertURLQueue.removed,
    u.tracker.ageLimit ≤ u.store.clock - hit.hittingTime

theorem window_initial (threshold gap : Int32) (clock : ℤ) :
    (initial threshold gap clock).Window :=
  ⟨trivial, trivial, by simp [initial, Store.initial]⟩

theorem Window.step {u v : AlertSystem} {e : AlertEvent}
    (hgap : 0 < u.tracker.alertGapInMillisecond.toInt) (hu : u.Window) (h : Steps u e v) :
    v.Window := by
  obtain ⟨hsafe, haged, hold⟩ := hu
  cases h with
  | tick d =>
      refine ⟨hsafe, haged.later (by simp [Store.tick]), fun hit hhit => ?_⟩
      have := hold hit hhit
      simp only [Store.tick]
      omega
  | packet hr =>
      have hq := Callback.receive_alertURLQueue_eq hr
      have hclock := Callback.receive_clock_eq hr
      exact ⟨by simpa only [hq] using hsafe, by simpa only [hclock] using haged,
        by simpa only [hq, hclock] using hold⟩
  | callback hc =>
      have hclock := hc.clock_eq
      rcases hc.alertURLQueue_cases with hq | ⟨hit, -, hq⟩
      · exact ⟨by simpa only [hq] using hsafe, by simpa only [hclock] using haged,
          by simpa only [hq, hclock] using hold⟩
      · exact ⟨by simpa only [hq] using hsafe.put hit, by simpa only [hclock] using haged,
          by simpa only [hq, hclock, Fifo.removed_put] using hold⟩
  | @tracker s a ha =>
      have hclock := ha.clock_eq
      have hlimit : a.ageLimit = u.tracker.ageLimit := by
        simp only [AlertTracker.ageLimit, ha.settings_eq.2]
      refine ⟨hsafe.step hgap ha, haged.step hgap ha, ?_⟩
      intro hit hhit
      simp only at hhit ⊢
      rw [hclock, hlimit]
      by_cases hsame : s.alertURLQueue.removed = u.store.alertURLQueue.removed
      · exact hold hit (hsame ▸ hhit)
      · obtain ⟨head, -, -, hrem, hage⟩ := hsafe.removed_eq haged ha hsame
        rw [hrem, List.mem_append, List.mem_singleton] at hhit
        rcases hhit with hhit | rfl
        · exact hold hit hhit
        · exact hage

theorem run_window {threshold gap : Int32} (hgap : 0 < gap.toInt) {clock : ℤ} {u : AlertSystem}
    {es : List AlertEvent} (h : machine.run (initial threshold gap clock) es = some u) :
    u.Window := by
  have hinv := machine.run_invariant (fun u => u.Settled threshold gap ∧ u.Window)
    (fun u e v hu hs => ⟨hu.1.step (step_cases hs),
      hu.2.step (hu.1.gap_eq.symm ▸ hgap) (step_cases hs)⟩)
    ⟨settled_initial threshold gap clock, window_initial threshold gap clock⟩ h
  exact hinv.2

theorem run_ordered {threshold gap : Int32} {clock : ℤ} {u : AlertSystem}
    {es : List AlertEvent} (h : machine.run (initial threshold gap clock) es = some u) :
    u.Ordered :=
  machine.run_invariant Ordered (fun _ _ _ hu hs => hu.step (step_cases hs))
    (ordered_initial threshold gap clock) h

def young (gap : Int32) (u : AlertSystem) : List HttpObject :=
  u.store.alertURLQueue.log.filter fun hit =>
    decide (u.store.clock - hit.hittingTime < gap.toInt - 100)

theorem length_young_le {threshold gap : Int32} (hgap : 0 < gap.toInt) {u : AlertSystem}
    (hu : u.Settled threshold gap) (hw : u.Window) :
    (u.young gap).length ≤ u.store.alertURLQueue.size := by
  have hlimit : u.tracker.ageLimit = gap.toInt - 100 := by
    rw [AlertTracker.ageLimit_eq (hu.gap_eq.symm ▸ hgap), hu.gap_eq]
  have hnone : u.store.alertURLQueue.removed.filter
      (fun hit => decide (u.store.clock - hit.hittingTime < gap.toInt - 100)) = [] := by
    rw [List.filter_eq_nil_iff]
    intro hit hhit
    have := hw.removed_old hit hhit
    simp only [decide_eq_true_eq]
    omega
  rw [young, ← Fifo.removed_append_items, List.filter_append, hnone, List.nil_append]
  exact List.length_filter_le _ _

/-! ## Detection -/

def alertsSince (u v : AlertSystem) : List Alert :=
  v.store.alertQueue.log.drop u.store.alertQueue.log.length

theorem mem_drop_of_append_prefix {α : Type*} {xs ys zs : List α} {a : α}
    (hxy : xs <+: ys) (hyz : ys ++ [a] <+: zs) : a ∈ zs.drop xs.length := by
  obtain ⟨mid, rfl⟩ := hxy
  obtain ⟨post, rfl⟩ := hyz
  simp

section Publishing

variable {threshold gap : Int32} {u v : AlertSystem} {es : List AlertEvent} {n : ℕ}

theorem publishes_of_putAlert (hu : u.Settled threshold gap) (hpc : u.callback.pc = .putAlert n)
    (h : machine.run u es = some v) (hcount : 1 ≤ es.count .callback) :
    ∃ time, (⟨time, n, true⟩ : Alert) ∈ alertsSince u v := by
  obtain ⟨es₁, t, w, es₂, h₁, ht, hw, h₂, -⟩ := run_split_callback (by simp [hpc]) h hcount
  have htpc : t.callback.pc = .putAlert n := ht ▸ hpc
  have hflag : t.callback.interrupted = false := (hu.run h₁).callback_flag
  have hw' : w.store.alertQueue.log = t.store.alertQueue.log ++ [⟨t.store.clock, n, true⟩] := by
    simp only [machine, step, Callback.step, htpc, hflag] at hw
    cases hw
    rfl
  exact ⟨t.store.clock, mem_drop_of_append_prefix (run_alertQueue_log h₁)
    (hw' ▸ run_alertQueue_log h₂)⟩

theorem alertsSince_subset {t : AlertSystem} (h : u.store.alertQueue.log <+: t.store.alertQueue.log) :
    alertsSince t v ⊆ alertsSince u v :=
  (List.drop_sublist_drop_left _ h.length_le).subset

theorem publishes_of_testThreshold (hu : u.Settled threshold gap)
    (hpc : u.callback.pc = .testThreshold n) (hn : threshold.toInt < n)
    (h : machine.run u es = some v) (hcount : 2 ≤ es.count .callback) :
    ∃ time, (⟨time, n, true⟩ : Alert) ∈ alertsSince u v := by
  obtain ⟨es₁, t, w, es₂, h₁, ht, hw, h₂, hcount₂⟩ := run_split_callback (by simp [hpc]) h hcount
  have htpc : t.callback.pc = .testThreshold n := ht ▸ hpc
  have hut := hu.run h₁
  have hw' : w.callback.pc = .putAlert n ∧ w.store = t.store := by
    simp only [machine, step, Callback.step, htpc, hut.threshold_eq, if_pos hn] at hw
    cases hw
    exact ⟨rfl, rfl⟩
  obtain ⟨time, hmem⟩ := publishes_of_putAlert (hut.step (step_cases hw)) hw'.1 h₂ hcount₂
  exact ⟨time, alertsSince_subset (hw'.2 ▸ run_alertQueue_log h₁) hmem⟩

end Publishing

/-- From any reachable state of the two threads: the queue is a suffix of
the hits in capture order; what a step removes is the hit last peeked,
at an age of at least `gap - 100`; and a callback that is about to read
the size while more than `threshold` hits are younger publishes an alert
counting at least these, as soon as it has made its next three steps,
which are never blocked. -/
theorem burst_never_missed (threshold gap : Int32) (hgap : 0 < gap.toInt) (clock : ℤ)
    (es : List AlertEvent) (u : AlertSystem)
    (h : machine.run (initial threshold gap clock) es = some u) :
    (u.store.alertURLQueue.items <:+ u.store.alertURLQueue.log ∧
      u.store.alertURLQueue.log.Pairwise HttpObject.CapturedBefore) ∧
    (∀ e v, machine.step u e = some v →
      v.store.alertURLQueue.removed ≠ u.store.alertURLQueue.removed →
      ∃ hit, u.tracker.lastURL = some hit ∧ u.store.alertURLQueue.peek = some hit ∧
        v.store.alertURLQueue.removed = u.store.alertURLQueue.removed ++ [hit] ∧
        gap.toInt - 100 ≤ u.store.clock - hit.hittingTime) ∧
    (u.callback.pc = .readSize → threshold.toInt < (u.young gap).length →
      ∀ es' v, machine.run u (.callback :: es') = some v → 2 ≤ es'.count .callback →
        ∃ alert ∈ alertsSince u v, alert.alertType = true ∧
          ((u.young gap).length : ℤ) ≤ alert.hitCount) ∧
    (u.callback.pc ≠ .idle → (machine.step u .callback).isSome = true) := by
  have hset := run_settled h
  have hw := run_window hgap h
  have hlimit : u.tracker.ageLimit = gap.toInt - 100 := by
    rw [AlertTracker.ageLimit_eq (hset.gap_eq.symm ▸ hgap), hset.gap_eq]
  refine ⟨⟨u.store.alertURLQueue.items_suffix, ?_⟩, ?_, ?_, callback_isSome⟩
  · exact (List.pairwise_append.1 (run_ordered h).captured).1
  · intro e v hs hne
    cases step_cases hs with
    | tick d => exact (hne rfl).elim
    | packet hr => exact (hne (by rw [Callback.receive_alertURLQueue_eq hr])).elim
    | callback hc =>
        rcases hc.alertURLQueue_cases with heq | ⟨hit, -, heq⟩
        · exact (hne (by rw [heq])).elim
        · exact (hne (by rw [heq, Fifo.removed_put])).elim
    | tracker ha =>
        obtain ⟨hit, hlast, hpeek, hrem, hage⟩ := hw.safe.removed_eq hw.aged ha hne
        exact ⟨hit, hlast, hpeek, hrem, hlimit ▸ hage⟩
  · intro hpc hyoung es' v hrun hcount
    obtain ⟨t, ht, hr⟩ := machine.run_cons_iff.1 hrun
    have ht' : t.callback.pc = .testThreshold u.store.alertURLQueue.size ∧ t.store = u.store := by
      simp only [machine, step, Callback.step, hpc] at ht
      cases ht
      exact ⟨rfl, rfl⟩
    have hle := length_young_le hgap hset hw
    obtain ⟨time, hmem⟩ := publishes_of_testThreshold (hset.step (step_cases ht)) ht'.1
      (by omega) hr hcount
    exact ⟨_, alertsSince_subset (ht'.2 ▸ List.prefix_rfl) hmem, rfl, by simpa using hle⟩

/-- Three hits within two seconds above a threshold of two, the last one
on its way, and the tracker asleep until the first is old. -/
def risingEvents : List AlertEvent :=
  List.flatten [.packet (.request []) :: List.replicate 5 .callback, List.replicate 7 .tracker,
    [.tick 1000], .packet (.request []) :: List.replicate 5 .callback,
    [.tick 1000, .packet (.request []), .callback, .callback]]

theorem burst_never_missed_three_hits : ∃ u v,
    machine.run (initial 2 120000 0) risingEvents = some u ∧ (u.young 120000).length = 3 ∧
      machine.run u [.callback, .callback, .tick 500, .callback, .callback] = some v ∧
      ∃ alert ∈ alertsSince u v, alert.alertType = true ∧
        ((u.young 120000).length : ℤ) ≤ alert.hitCount := by
  have hrun : (machine.run (initial 2 120000 0) risingEvents).any (fun u =>
      decide ((u.young 120000).length = 3 ∧ u.callback.pc = .readSize) &&
        (machine.run u [.callback, .callback, .tick 500, .callback, .callback]).isSome) = true := by
    decide
  obtain ⟨u, hu, htest⟩ := (Option.any_eq_true _ _).1 hrun
  obtain ⟨hstate, hsome⟩ := (Bool.and_eq_true _ _).mp htest
  obtain ⟨hyoung, hpc⟩ := of_decide_eq_true hstate
  obtain ⟨v, hv⟩ := Option.isSome_iff_exists.1 hsome
  have hburst := (burst_never_missed 2 120000 (by decide) 0 risingEvents u hu).2.2.1 hpc
    (by rw [hyoung]; decide)
  exact ⟨u, v, hu, hyoung, hv, hburst _ v hv (by decide)⟩

end AlertSystem

end HttpLogMonitor
