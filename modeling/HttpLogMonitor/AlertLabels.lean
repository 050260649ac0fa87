import HttpLogMonitor.AlertSystem

/-!
# Labels of alerts

An alert is labelled high when its own count exceeds the threshold. The
callback compares and reports one reading of the size. The tracker reads
the size twice, once to compare and once to report, and a hit put in
between can make the report exceed the threshold.
-/

namespace HttpLogMonitor

def Alert.LabelAgrees (threshold : Int32) (alert : Alert) : Prop :=
  alert.alertType = true ↔ threshold.toInt < alert.hitCount

instance (threshold : Int32) (alert : Alert) : Decidable (alert.LabelAgrees threshold) :=
  inferInstanceAs (Decidable (_ ↔ _))

namespace AlertSystem

def LabelsAgree (u : AlertSystem) : Prop :=
  ∀ alert ∈ u.store.alertQueue.log, alert.LabelAgrees u.tracker.threshold

/-- The step does not put the hit that takes the queue above the
threshold while the tracker is between its two readings of the size. -/
def NoRace (u : AlertSystem) (e : AlertEvent) : Prop :=
  ¬ (e = .callback ∧ (∃ hit, u.callback.pc = .putAlertURL hit) ∧ u.tracker.pc = .sizeRead ∧
    (u.store.alertURLQueue.size : ℤ) = u.tracker.threshold.toInt)

instance (pc : PacketPc) : Decidable (∃ hit, pc = .putAlertURL hit) :=
  match pc with
  | .putAlertURL hit => isTrue ⟨hit, rfl⟩
  | .idle | .putMostHits _ | .readSize | .testThreshold _ | .putAlert _ | .updateStats =>
      isFalse (by simp)

instance (u : AlertSystem) (e : AlertEvent) : Decidable (u.NoRace e) :=
  inferInstanceAs (Decidable (¬ (_ ∧ _)))

def Recovering (u : AlertSystem) : Prop :=
  u.tracker.pc = .sizeRead ∨ ∃ alert, u.tracker.pc = .putAlert alert

structure Labelled (u : AlertSystem) : Prop where
  agree : u.LabelsAgree
  reading : u.tracker.pc = .sizeRead → u.store.alertURLQueue.size ≤ u.tracker.threshold.toInt
  recovering : ∀ alert, u.tracker.pc = .putAlert alert → alert.LabelAgrees u.tracker.threshold
  alarming : ∀ n, u.callback.pc = .putAlert n → u.tracker.threshold.toInt < n

theorem labelled_initial (threshold gap : Int32) (clock : ℤ) :
    (initial threshold gap clock).Labelled := by
  refine ⟨fun alert halert => ?_, ?_, ?_, ?_⟩
  · simp [initial, Store.initial] at halert
  all_goals simp [initial, AlertTracker.fresh, Callback.fresh]

theorem Labelled.callback {u : AlertSystem} {s : Store} {c : Callback} (hu : u.Labelled)
    (hrace : u.NoRace .callback)
    (hc : Callback.Steps u.tracker.threshold u.store u.callback s c) :
    Labelled { u with store := s, callback := c } := by
  obtain ⟨hagree, hreading, hrecovering, halarming⟩ := hu
  cases hc with
  | putAlertURL hit hpc hflag =>
      refine ⟨hagree, fun hread => ?_, hrecovering, by simp⟩
      have hne : (u.store.alertURLQueue.size : ℤ) ≠ u.tracker.threshold.toInt := fun heq =>
        hrace ⟨rfl, ⟨hit, hpc⟩, hread, heq⟩
      have hle := hreading hread
      simp only [Fifo.size_put, Nat.cast_add, Nat.cast_one]
      omega
  | above n hpc hn =>
      refine ⟨hagree, hreading, hrecovering, fun m hm => ?_⟩
      cases hm
      exact hn
  | putAlert n hpc hflag =>
      refine ⟨fun alert halert => ?_, hreading, hrecovering, by simp⟩
      rw [Fifo.log_put, List.mem_append, List.mem_singleton] at halert
      rcases halert with halert | rfl
      · exact hagree alert halert
      · exact iff_of_true rfl (halarming n hpc)
  | _ => exact ⟨hagree, hreading, hrecovering, by simp [Callback.caught]⟩

theorem Labelled.tracker {u : AlertSystem} {s : Store} {a : AlertTracker} (hu : u.Labelled)
    (ha : AlertTracker.Steps u.store u.tracker s a) :
    Labelled { u with store := s, tracker := a } := by
  obtain ⟨hagree, hreading, hrecovering, halarming⟩ := hu
  have hthreshold := ha.settings_eq.1
  cases ha with
  | low hpc hsize => exact ⟨hagree, fun _ => hsize, by simp [AlertTracker.goto], halarming⟩
  | sizeRead hpc =>
      refine ⟨hagree, by simp [AlertTracker.goto], fun alert halert => ?_, halarming⟩
      cases halert
      exact iff_of_false (by simp) (Int.not_lt.2 (hreading hpc))
  | putAlert alert hpc hflag =>
      refine ⟨fun other hother => ?_, by simp [AlertTracker.goto], by simp [AlertTracker.goto],
        halarming⟩
      rw [Fifo.log_put, List.mem_append, List.mem_singleton] at hother
      rcases hother with hother | rfl
      · exact hagree other hother
      · exact hrecovering _ hpc
  | _ =>
      exact ⟨hagree, by simp [AlertTracker.goto, AlertTracker.caught],
        by simp [AlertTracker.goto, AlertTracker.caught], halarming⟩

theorem Labelled.step {u v : AlertSystem} {e : AlertEvent} (hrace : u.NoRace e)
    (hu : u.Labelled) (h : Steps u e v) : v.Labelled := by
  cases h with
  | tick d => exact ⟨hu.agree, hu.reading, hu.recovering, hu.alarming⟩
  | packet hr =>
      have hq := Callback.receive_alertURLQueue_eq hr
      have ha := Callback.receive_alertQueue_eq hr
      obtain ⟨hidle, -, hcases⟩ := Callback.receive_cases hr
      refine ⟨?_, ?_, hu.recovering, ?_⟩
      · simpa only [LabelsAgree, ha] using hu.agree
      · simpa only [hq] using hu.reading
      · rcases hcases with ⟨-, rfl⟩ | ⟨url, -, -, hpc⟩
        · exact hu.alarming
        · simp [hpc]
  | callback hc => exact hu.callback hrace hc
  | tracker ha => exact hu.tracker ha

def Mislabelling (u : AlertSystem) : Prop :=
  (u.tracker.pc = .sizeRead ∧ u.tracker.threshold.toInt < u.store.alertURLQueue.size) ∨
    (∃ alert, u.tracker.pc = .putAlert alert ∧ ¬ alert.LabelAgrees u.tracker.threshold) ∨
      ¬ u.LabelsAgree

theorem not_labelsAgree_mono {u v : AlertSystem} {e : AlertEvent} (h : Steps u e v)
    (hu : ¬ u.LabelsAgree) : ¬ v.LabelsAgree := by
  intro hv
  apply hu
  intro alert halert
  have hthreshold : v.tracker.threshold = u.tracker.threshold := by
    cases h with
    | tracker ha => exact ha.settings_eq.1
    | _ => rfl
  exact hthreshold ▸ hv alert (h.alertQueue_log.subset halert)

/-- The race cannot be undone: the next two steps of the tracker read
the size that is too large and put it as a recovery. -/
theorem Mislabelling.step {u v : AlertSystem} {e : AlertEvent}
    (hflag : u.tracker.interrupted = false) (hu : u.Mislabelling) (h : Steps u e v) :
    v.Mislabelling := by
  rcases hu with ⟨hpc, hsize⟩ | ⟨alert, hpc, hbad⟩ | hbad
  · cases h with
    | tick d => exact Or.inl ⟨hpc, hsize⟩
    | packet hr => exact Or.inl ⟨hpc, by simpa only [Callback.receive_alertURLQueue_eq hr]⟩
    | callback hc =>
        refine Or.inl ⟨hpc, ?_⟩
        rcases hc.alertURLQueue_cases with heq | ⟨hit, -, heq⟩
        · simpa only [heq] using hsize
        · simp only [heq, Fifo.size_put, Nat.cast_add, Nat.cast_one]
          omega
    | tracker ha =>
        cases ha <;> simp_all
        exact Or.inr (Or.inl ⟨_, rfl, by simpa [Alert.LabelAgrees, AlertTracker.goto] using hsize⟩)
  · cases h with
    | tracker ha =>
        cases ha <;> simp_all
        refine Or.inr (Or.inr fun hv => hbad ?_)
        exact hv alert (by simp)
    | _ => exact Or.inr (Or.inl ⟨alert, hpc, hbad⟩)
  · exact Or.inr (Or.inr (not_labelsAgree_mono h hbad))

theorem mislabelling_of_race {u v : AlertSystem} {e : AlertEvent}
    (hflag : u.callback.interrupted = false) (hrace : ¬ u.NoRace e) (h : Steps u e v) :
    v.Mislabelling := by
  obtain ⟨rfl, ⟨hit, hpc⟩, hread, hsize⟩ := not_not.1 hrace
  cases h with
  | callback hc =>
      cases hc <;> simp_all
      refine Or.inl ⟨hread, ?_⟩
      simp only [Fifo.size_put, Nat.cast_add, Nat.cast_one]
      omega

/-- In every run without the race all labels agree, and a run that ends
with the tracker outside its recovery branch has agreeing labels only if
it was without the race. -/
theorem labelsAgree_iff (threshold gap : Int32) (clock : ℤ) (es : List AlertEvent)
    (u : AlertSystem) (h : machine.run (initial threshold gap clock) es = some u) :
    (machine.Along NoRace (initial threshold gap clock) es → u.LabelsAgree) ∧
      (¬ u.Recovering →
        (u.LabelsAgree ↔ machine.Along NoRace (initial threshold gap clock) es)) := by
  have hforward : machine.Along NoRace (initial threshold gap clock) es → u.LabelsAgree :=
    fun halong => (machine.run_invariant_along Labelled
      (fun _ _ _ hrace hu hs => hu.step hrace (step_cases hs)) halong
      (labelled_initial threshold gap clock) h).agree
  refine ⟨hforward, fun hrest => ⟨fun hagree => ?_, hforward⟩⟩
  by_contra halong
  obtain ⟨pre, e, post, t, rfl, hpre, hrace⟩ := machine.exists_of_not_along h halong
  obtain ⟨t', ht', hpost⟩ := machine.run_append_iff.1 h
  obtain rfl : t = t' := Option.some.inj (hpre.symm.trans ht')
  obtain ⟨w, hw, hrun⟩ := machine.run_cons_iff.1 hpost
  have ht := run_settled hpre
  have hinv := machine.run_invariant (fun u => u.Settled threshold gap ∧ u.Mislabelling)
    (fun _ _ _ hu hs => ⟨hu.1.step (step_cases hs), hu.2.step hu.1.tracker_flag (step_cases hs)⟩)
    ⟨ht.step (step_cases hw), mislabelling_of_race ht.callback_flag hrace (step_cases hw)⟩ hrun
  rcases hinv.2 with ⟨hpc, -⟩ | ⟨alert, hpc, -⟩ | hbad
  · exact hrest (Or.inl hpc)
  · exact hrest (Or.inr ⟨alert, hpc⟩)
  · exact hbad hagree

/-- A first hit, which the tracker takes for a recovery at threshold 1,
and a second hit before the tracker reads the size again. -/
def raceEvents : List AlertEvent :=
  [.packet (.request []), .callback, .callback, .callback, .callback, .callback, .tracker, .tracker,
    .packet (.request []), .callback, .callback, .callback, .callback, .tracker, .tracker]

theorem label_race : ¬ ∀ (threshold gap : Int32) (clock : ℤ) (es : List AlertEvent)
    (u : AlertSystem), 0 < gap.toInt →
      machine.run (initial threshold gap clock) es = some u → u.LabelsAgree := by
  intro hclaim
  have hrun : (machine.run (initial 1 120000 0) raceEvents).any
      (fun u => u.store.alertQueue.log == [⟨0, 2, false⟩] && u.tracker.threshold == 1) = true := by
    decide
  obtain ⟨u, hu, htest⟩ := (Option.any_eq_true _ _).1 hrun
  simp only [Bool.and_eq_true, beq_iff_eq] at htest
  have hagree := hclaim 1 120000 0 raceEvents u (by decide) hu ⟨0, 2, false⟩ (by simp [htest.1])
  rw [htest.2] at hagree
  exact absurd hagree (by decide)

/-- The same two hits, with the recovery put before the second one. -/
def twoAlertEvents : List AlertEvent :=
  List.flatten [raceEvents.take 6, List.replicate 4 .tracker, [.packet (.request [])],
    List.replicate 6 .callback]

theorem labelsAgree_iff_two_alerts : ∃ u,
    machine.run (initial 1 120000 0) twoAlertEvents = some u ∧
      u.store.alertQueue.log = [⟨0, 1, false⟩, ⟨0, 2, true⟩] ∧ u.LabelsAgree ∧
      machine.Along NoRace (initial 1 120000 0) twoAlertEvents := by
  have hrun : (machine.run (initial 1 120000 0) twoAlertEvents).any
      (fun u => u.store.alertQueue.log == [⟨0, 1, false⟩, ⟨0, 2, true⟩] &&
        u.tracker.pc == .innerTest) = true := by
    decide
  obtain ⟨u, hu, htest⟩ := (Option.any_eq_true _ _).1 hrun
  simp only [Bool.and_eq_true, beq_iff_eq] at htest
  have hiff := labelsAgree_iff 1 120000 0 twoAlertEvents u hu
  have hagree := hiff.1 (by decide)
  have hrest : ¬ u.Recovering := by simp [Recovering, htest.2]
  exact ⟨u, hu, htest.1, hagree, (hiff.2 hrest).1 hagree⟩

end AlertSystem

end HttpLogMonitor
