import HttpLogMonitor.CaptureAccounts
import HttpLogMonitor.FrameThread
import HttpLogMonitor.PublishedReports

/-!
# The two tables

The cell of the statistics table shows the hit count at the moment it was
read. The table of most hits shows the newest report taken: the program is
a `MostHitsFrame`, whose `updateMostHitsTable` is spread over three steps.
-/

namespace HttpLogMonitor

namespace MostHitsFrame

theorem reaches_report (w : MostHitsFrame) {reports : ReportSystem}
    (h : ReportSystem.machine.Reaches w.reports reports) :
    machine.Reaches w { w with reports := reports } := by
  obtain ⟨es, hes⟩ := h
  exact ReportSystem.machine.run_simulation machine (fun reports => { w with reports := reports })
    (fun _ => True) (fun _ e _ _ hs => ⟨trivial, [.report e],
      machine.run_cons_iff.2 ⟨_, by simp [machine, step, hs], rfl⟩⟩) trivial hes

end MostHitsFrame

namespace Program

variable {PcapIf : Type} [DecidableEq PcapIf] {digit : Char → Option ℕ}

/-! ## The hit count -/

/-- The cell shows at least `low` hits, and at most those counted. -/
def Shows (u : Program PcapIf) (low counted : ℕ) : Prop :=
  ∃ shown, u.statsTable = some (Int64.ofNat shown) ∧ low ≤ shown ∧ shown ≤ counted

/-- The cell shows a count that was reached, and each element of
`statsQueue` has a second of its own. -/
structure Counted (clock : ℤ) (counted : ℕ) (u : Program PcapIf) : Prop where
  shown : ∀ n, u.statsTable = some n → ∃ shown ≤ counted, n = Int64.ofNat shown
  sent : match u.sendStats with
    | .put => 1000 * (u.statsQueue.log.length : ℤ) ≤ u.store.clock - clock
    | .sleep => 1000 * (u.statsQueue.log.length : ℤ) ≤ u.store.clock - clock + 1000
    | .sleeping wake => 1000 * (u.statsQueue.log.length : ℤ) ≤ wake - clock ∧
        wake ≤ u.store.clock + 1000

omit [DecidableEq PcapIf] in
theorem counted_initial (form : Form PcapIf) (clock : ℤ) :
    (initial form clock).Counted clock 0 := by
  refine ⟨by simp [initial], ?_⟩
  simp [initial, store, Monitor.initial, Store.initial]

/-- The frame takes from queues that the accounts do not mention. -/
theorem accounted_step {u v : Program PcapIf} {e : ProgramEvent} {counted cut : ℕ}
    (h : u.monitor.Accounted counted cut) (hs : Steps digit u e v) :
    ∃ counted' cut', counted ≤ counted' ∧ v.monitor.Accounted counted' cut' := by
  cases hs with
  | monitor hm => exact h.exists_step (Monitor.step_cases hm)
  | sendStats hs => cases hs <;> exact ⟨counted, cut, le_refl _, h⟩
  | click hidle =>
      exact ⟨counted, cut, le_refl _, h.of_sameRecords ⟨rfl, rfl, rfl⟩ rfl rfl⟩
  | frame hs =>
      refine ⟨counted, cut, le_refl _, ?_⟩
      cases hs <;> exact h.of_sameRecords ⟨rfl, rfl, rfl⟩ rfl rfl
  | _ => exact ⟨counted, cut, le_refl _, h⟩

omit [DecidableEq PcapIf] in
theorem Counted.mono {clock : ℤ} {u : Program PcapIf} {counted counted' : ℕ}
    (h : u.Counted clock counted) (hle : counted ≤ counted') : u.Counted clock counted' := by
  refine ⟨fun n hn => ?_, h.sent⟩
  obtain ⟨shown, hshown, heq⟩ := h.shown n hn
  exact ⟨shown, hshown.trans hle, heq⟩

omit [DecidableEq PcapIf] in
theorem Counted.sendStats {clock : ℤ} {u v : Program PcapIf} {counted : ℕ}
    (h : u.Counted clock counted) (hs : SendStatsSteps u v) : v.Counted clock counted := by
  obtain ⟨hshown, hsent⟩ := h
  refine ⟨?_, ?_⟩
  · cases hs <;> exact hshown
  · cases hs with
    | put hpc =>
        simp only [hpc] at hsent
        simp only [Fifo.log_put, List.length_append, List.length_singleton, store] at hsent ⊢
        push_cast
        omega
    | sleep hpc =>
        simp only [hpc] at hsent
        have hwake : 1000 * (u.statsQueue.log.length : ℤ) ≤ u.store.clock + 1000 - clock := by omega
        exact ⟨hwake, le_refl _⟩
    | wake wake hpc hwake =>
        simp only [hpc, store] at hsent hwake ⊢
        omega

theorem Counted.step {clock : ℤ} {u v : Program PcapIf} {e : ProgramEvent} {counted cut : ℕ}
    (h : u.Counted clock counted) (haccounted : u.monitor.Accounted counted cut)
    (hs : Steps digit u e v) : v.Counted clock counted := by
  cases hs with
  | monitor hm =>
      have hclock := (Monitor.step_cases hm).clock_le
      have hsent := h.sent
      refine ⟨h.shown, ?_⟩
      simp only [store] at hsent ⊢
      cases hpc : u.sendStats <;> simp only [hpc] at hsent ⊢ <;> omega
  | sendStats hs => exact h.sendStats hs
  | edit threshold alert mostHits selectedIndex hidle => exact ⟨h.shown, h.sent⟩
  | click hidle => exact ⟨h.shown, h.sent⟩
  | timer hidle => exact ⟨h.shown, h.sent⟩
  | frame hs =>
      cases hs with
      | showStats hpc =>
          refine ⟨fun n hn => ?_, h.sent⟩
          cases hn
          exact ⟨counted, le_refl _, haccounted.stats_eq⟩
      | _ => exact ⟨h.shown, h.sent⟩

omit [DecidableEq PcapIf] in
theorem Counted.sent_le {clock : ℤ} {u : Program PcapIf} {counted : ℕ}
    (h : u.Counted clock counted) :
    1000 * (u.statsQueue.log.length : ℤ) ≤ u.store.clock - clock + 1000 := by
  have hsent := h.sent
  split at hsent <;> omega

theorem Shows.step {u v : Program PcapIf} {e : ProgramEvent} {low counted cut : ℕ}
    (h : u.Shows low counted) (haccounted : u.monitor.Accounted counted cut)
    (hs : Steps digit u e v) : v.Shows low counted := by
  cases hs with
  | sendStats hs => cases hs <;> exact h
  | frame hs =>
      cases hs with
      | showStats hpc =>
          obtain ⟨shown, -, hlow, hshown⟩ := h
          exact ⟨counted, congrArg some haccounted.stats_eq, hlow.trans hshown, le_refl _⟩
      | _ => exact h
  | _ => exact h

omit [DecidableEq PcapIf] in
theorem Shows.mono {u : Program PcapIf} {low counted counted' : ℕ} (h : u.Shows low counted)
    (hle : counted ≤ counted') : u.Shows low counted' := by
  obtain ⟨shown, heq, hlow, hshown⟩ := h
  exact ⟨shown, heq, hlow, hshown.trans hle⟩

theorem ofNat_le {m n : ℕ} (h : m ≤ n) (hn : n < 2 ^ 63) : Int64.ofNat m ≤ Int64.ofNat n := by
  rw [Int64.le_iff_toInt_le, Int64.toInt_ofNat_of_lt hn, Int64.toInt_ofNat_of_lt (by omega)]
  exact_mod_cast h

omit [DecidableEq PcapIf] in
theorem Shows.exists_le {u : Program PcapIf} {low counted cut : ℕ} (h : u.Shows low counted)
    (haccounted : u.monitor.Accounted counted cut)
    (hlt : u.store.mostHitsURLQueue.log.length < 2 ^ 63) :
    ∃ n, u.statsTable = some n ∧ Int64.ofNat low ≤ n := by
  obtain ⟨shown, heq, hlow, hshown⟩ := h
  have hle : counted ≤ u.store.mostHitsURLQueue.log.length := haccounted.counted_le
  exact ⟨_, heq, ofNat_le hlow (by omega)⟩

/-- `updateStatsTable` has found stats and not yet shown them. -/
def StatsDue (u : Program PcapIf) : Prop :=
  match u.framePc with
  | .statsTest => u.statsQueue.items ≠ []
  | .statsLoop _ | .statsTake | .statsShow _ => True
  | _ => False

/-- At least `low` hits are shown or about to be. -/
structure Refreshing (low counted : ℕ) (u : Program PcapIf) : Prop where
  ready : u.Ready
  low_le : low ≤ counted
  progress : u.StatsDue ∨ u.Shows low counted

omit [DecidableEq PcapIf] in
theorem Refreshing.frame {low counted cut : ℕ} {u v : Program PcapIf}
    (h : u.Refreshing low counted) (haccounted : u.monitor.Accounted counted cut)
    (hs : FrameSteps u v) : v.Refreshing low counted := by
  obtain ⟨hready, hle, hprogress⟩ := h
  refine ⟨hready.frame hs, hle, ?_⟩
  cases hs with
  | stats hpc hq => exact Or.inl trivial
  | moreStats stats hpc hq => exact Or.inl trivial
  | takeStats hpc hq => exact Or.inl trivial
  | leaveStats stats hpc hq => exact Or.inl trivial
  | showStats hpc =>
      exact Or.inr ⟨counted, congrArg some haccounted.stats_eq, hle, le_refl _⟩
  | nullStats hpc => simp [Ready, hpc] at hready
  | _ => exact Or.inr (hprogress.resolve_left (by simp_all [StatsDue]))

theorem Refreshing.step {low counted cut : ℕ} {u v : Program PcapIf} {e : ProgramEvent}
    (h : u.Refreshing low counted) (haccounted : u.monitor.Accounted counted cut)
    (hs : Steps digit u e v) : v.Refreshing low counted := by
  have hready := h.ready.step hs
  cases hs with
  | monitor hm => exact ⟨hready, h.low_le, h.progress⟩
  | sendStats hs =>
      refine ⟨hready, h.low_le, ?_⟩
      cases hs with
      | put hpc =>
          refine h.progress.imp_left fun hdue => ?_
          unfold StatsDue at hdue ⊢
          split at hdue <;> simp_all
      | _ => exact h.progress
  | edit threshold alert mostHits selectedIndex hidle => exact ⟨h.ready, h.low_le, h.progress⟩
  | click hidle => exact ⟨h.ready, h.low_le, h.progress⟩
  | timer hidle =>
      exact ⟨trivial, h.low_le, Or.inr (h.progress.resolve_left (by simp [StatsDue, hidle]))⟩
  | frame hs => exact h.frame haccounted hs

omit [DecidableEq PcapIf] in
theorem Refreshing.mono {low counted counted' : ℕ} {u : Program PcapIf}
    (h : u.Refreshing low counted) (hle : counted ≤ counted') : u.Refreshing low counted' :=
  ⟨h.ready, h.low_le.trans hle, h.progress.imp_right fun hshows => hshows.mono hle⟩

/-- What every step keeps of a state and its number of counted hits, and
what a larger number does not spoil, every run keeps. -/
theorem run_counted {I : ℕ → Program PcapIf → Prop}
    (hstep : ∀ counted cut u e v, I counted u → u.monitor.Accounted counted cut →
      Steps digit u e v → I counted v)
    (hmono : ∀ counted counted' u, I counted u → counted ≤ counted' → I counted' u)
    {u v : Program PcapIf} {es : List ProgramEvent} {counted cut : ℕ}
    (haccounted : u.monitor.Accounted counted cut) (hu : I counted u)
    (h : (machine digit).run u es = some v) :
    ∃ counted' cut', v.monitor.Accounted counted' cut' ∧ I counted' v :=
  (machine digit).run_invariant
    (fun u => ∃ counted cut, u.monitor.Accounted counted cut ∧ I counted u)
    (fun u e v hu hs => by
      obtain ⟨counted, cut, haccounted, hI⟩ := hu
      have hs := step_cases digit hs
      obtain ⟨counted', cut', hle, haccounted'⟩ := accounted_step haccounted hs
      exact ⟨counted', cut', haccounted',
        hmono counted counted' v (hstep counted cut u e v hI haccounted hs) hle⟩)
    ⟨counted, cut, haccounted, hu⟩ h

/-- The queue gets at most one element a second. As long as the counter
has room for the hits, the cell never shows more than there are and never
goes back, and a tick that finds stats brings it up to the count at that
moment. -/
theorem hit_count_shown (digit : Char → Option ℕ) (form : Form PcapIf) (clock : ℤ)
    (es : List ProgramEvent) (u : Program PcapIf)
    (h : (machine digit).run (initial form clock) es = some u) :
    1000 * (u.statsQueue.log.length : ℤ) ≤ u.store.clock - clock + 1000 ∧
      (u.store.mostHitsURLQueue.log.length < 2 ^ 63 →
        ∀ n, u.statsTable = some n → 0 ≤ n ∧ n ≤ u.store.stats.hitCount) ∧
      ∀ es' v, (machine digit).run u es' = some v →
        v.store.mostHitsURLQueue.log.length < 2 ^ 63 →
        (∀ n, u.statsTable = some n → ∃ m, v.statsTable = some m ∧ n ≤ m) ∧
        (u.framePc = .statsTest → u.statsQueue.items ≠ [] → v.framePc = .idle →
          ∃ n, v.statsTable = some n ∧ u.store.stats.hitCount ≤ n) := by
  obtain ⟨counted, cut, haccounted, hcounted⟩ := run_counted (I := Counted clock)
    (fun _ _ _ _ _ hu haccounted hs => hu.step haccounted hs) (fun _ _ _ hu hle => hu.mono hle)
    (Monitor.accounted_initial _ _ _) (counted_initial form clock) h
  refine ⟨hcounted.sent_le, fun hlt n hn => ?_, fun es' v hrun hlt => ⟨fun n hn => ?_, ?_⟩⟩
  · obtain ⟨shown, hshown, rfl⟩ := hcounted.shown n hn
    have hle : counted ≤ u.store.mostHitsURLQueue.log.length := haccounted.counted_le
    rw [store, haccounted.stats_eq]
    exact ⟨ofNat_le (Nat.zero_le shown) (by omega), ofNat_le hshown (by omega)⟩
  · obtain ⟨shown, hshown, rfl⟩ := hcounted.shown n hn
    obtain ⟨counted', cut', haccounted', hshows⟩ := run_counted
      (I := fun counted u => u.Shows shown counted)
      (fun _ _ _ _ _ hu haccounted hs => hu.step haccounted hs) (fun _ _ _ hu hle => hu.mono hle)
      haccounted ⟨shown, hn, le_refl _, hshown⟩ hrun
    exact hshows.exists_le haccounted' hlt
  · intro hpc hq hidle
    have hdue : u.StatsDue := by
      simp only [StatsDue, hpc]
      exact hq
    obtain ⟨counted', cut', haccounted', hv⟩ := run_counted
      (I := fun count u => u.Refreshing counted count)
      (fun _ _ _ _ _ hu haccounted hs => hu.step haccounted hs) (fun _ _ _ hu hle => hu.mono hle)
      haccounted ⟨run_ready h, le_refl _, Or.inl hdue⟩ hrun
    have hshows := hv.progress.resolve_left (by simp [StatsDue, hidle])
    rw [store, haccounted.stats_eq]
    exact hshows.exists_le haccounted' hlt

theorem hit_count_shown_hit : ∃ u v : Program ℕ,
    (machine asciiDigit).run (initial everyHit 0)
      (hitEvents ++ [.timer, .frame, .frame, .frame]) = some u ∧
      (machine asciiDigit).run u (List.replicate 9 .frame) = some v ∧
      u.store.stats.hitCount = 1 ∧ ∃ n, v.statsTable = some n ∧ u.store.stats.hitCount ≤ n := by
  have hrun : ((machine asciiDigit).run (initial everyHit 0)
      (hitEvents ++ [.timer, .frame, .frame, .frame])).any (fun u =>
        decide (u.framePc = .statsTest ∧ u.statsQueue.items ≠ [] ∧ u.store.stats.hitCount = 1) &&
          ((machine asciiDigit).run u (List.replicate 9 .frame)).any fun v =>
            decide (v.framePc = .idle ∧ v.store.mostHitsURLQueue.log.length = 1)) = true := by
    decide +kernel
  obtain ⟨u, hu, htest⟩ := (Option.any_eq_true _ _).1 hrun
  obtain ⟨hstats, hrest⟩ := (Bool.and_eq_true _ _).mp htest
  obtain ⟨hpc, hq, hcount⟩ := of_decide_eq_true hstats
  obtain ⟨v, hv, hend⟩ := (Option.any_eq_true _ _).1 hrest
  obtain ⟨hidle, hhits⟩ := of_decide_eq_true hend
  have hshown := (hit_count_shown asciiDigit everyHit 0 _ u hu).2.2 _ v hv (by omega)
  exact ⟨u, v, hu, hv, hcount, hshown.2 hpc hq hidle⟩

/-! ## The table of most hits -/

/-- A tick of the frame alone is `updateMostHitsTable` from its `take` to
its new model. -/
structure Displayed (u : Program PcapIf) (w : MostHitsFrame) : Prop where
  reported : u.monitor.Reported w.reports
  shown : w.Shown
  table : match u.framePc with
    | .mostHitsRows topURLs => MostHitsFrame.newest w.mostHitsTopURL.removed = some topURLs
    | _ => w.mostHitsTable = u.mostHitsTable

omit [DecidableEq PcapIf] in
theorem displayed_initial (form : Form PcapIf) (clock : ℤ) :
    (initial form clock).Displayed (MostHitsFrame.initial clock) :=
  ⟨Monitor.reported_initial [] mainThreshold clock, MostHitsFrame.shown_initial clock, rfl⟩

theorem Displayed.monitor {u : Program PcapIf} {w : MostHitsFrame} (h : u.Displayed w)
    {e : MonitorEvent} {m : Monitor PcapIf} (hm : Monitor.machine.step u.monitor e = some m) :
    ∃ w', MostHitsFrame.machine.Reaches w w' ∧ Displayed { u with monitor := m } w' := by
  have hs := Monitor.step_cases hm
  obtain ⟨reports, hreach, hreported⟩ := h.reported.step hs
  obtain ⟨es, hes⟩ := MostHitsFrame.reaches_report w hreach
  have hshown := MostHitsFrame.machine.run_invariant MostHitsFrame.Shown
    (fun _ _ _ hu hs => hu.step hs) h.shown hes
  have hremoved : reports.store.mostHitsTopURL.removed = w.mostHitsTopURL.removed := by
    rw [hreported.store.top_eq, hs.frameQueues.1.removed_eq, MostHitsFrame.mostHitsTopURL,
      h.reported.store.top_eq]
  refine ⟨_, ⟨es, hes⟩, hreported, hshown, ?_⟩
  have htable := h.table
  simp only [MostHitsFrame.mostHitsTopURL] at htable hremoved ⊢
  rwa [hremoved]

omit [DecidableEq PcapIf] in
theorem Displayed.frame {u v : Program PcapIf} {w : MostHitsFrame} (h : u.Displayed w)
    (hs : FrameSteps u v) : ∃ w', MostHitsFrame.machine.Reaches w w' ∧ v.Displayed w' := by
  obtain ⟨hreported, hshown, htable⟩ := h
  have htop : w.mostHitsTopURL = u.store.mostHitsTopURL := hreported.store.top_eq
  cases hs with
  | takeReport topURLs hpc hpeek =>
      rw [← htop] at hpeek
      simp only [hpc] at htable
      have htick : MostHitsFrame.machine.step w .uiTick = some w.updateMostHitsTable := rfl
      have hupdate : w.updateMostHitsTable =
          { reports := w.withQueue w.mostHitsTopURL.remove
            mostHitsTable := if topURLs.isEmpty then w.mostHitsTable else w.tableRows topURLs } := by
        simp only [MostHitsFrame.updateMostHitsTable, hpeek]
      refine ⟨w.updateMostHitsTable, .of_step htick, ?_, hshown.tick.1, ?_⟩
      · rw [hupdate]
        obtain ⟨⟨hclock, hnext, hheap, hqueue, -⟩, hcallbacks, hruns⟩ := hreported
        exact ⟨⟨hclock, hnext, hheap, hqueue, by rw [MostHitsFrame.withQueue, htop]; rfl⟩,
          hcallbacks, hruns⟩
      · rw [hupdate]
        cases topURLs with
        | nil => exact htable
        | cons obj rest =>
            have hremoved := Fifo.removed_remove hpeek
            change MostHitsFrame.newest w.mostHitsTopURL.remove.removed = _
            rw [hremoved, MostHitsFrame.newest_concat, if_neg (List.cons_ne_nil _ _)]
  | showReport topURLs hpc =>
      simp only [hpc] at htable
      refine ⟨w, .refl _ w, hreported, hshown, ?_⟩
      change w.mostHitsTable = u.tableRows topURLs
      rw [hshown.table, htable]
      have hheap : w.reports.store.heap = u.store.heap := hreported.store.heap_eq
      simp only [MostHitsFrame.rowsOrBlank, Option.map_some, Option.getD_some,
        MostHitsFrame.tableRows, tableRows, hheap]
  | takeAlert alert hpc hpeek =>
      obtain ⟨⟨hclock, hnext, hheap, hqueue, htop⟩, hcallbacks, hruns⟩ := hreported
      simp only [hpc] at htable
      exact ⟨w, .refl _ w, ⟨⟨hclock, hnext, hheap, hqueue, htop⟩, hcallbacks, hruns⟩, hshown,
        htable⟩
  | _ =>
      refine ⟨w, .refl _ w, hreported, hshown, ?_⟩
      simp_all [goto]

theorem Displayed.step {u v : Program PcapIf} {w : MostHitsFrame} {e : ProgramEvent}
    (h : u.Displayed w) (hs : Steps digit u e v) :
    ∃ w', MostHitsFrame.machine.Reaches w w' ∧ v.Displayed w' := by
  cases hs with
  | monitor hm => exact h.monitor hm
  | sendStats hs => exact ⟨w, .refl _ w, by cases hs <;> exact ⟨h.reported, h.shown, h.table⟩⟩
  | edit threshold alert mostHits selectedIndex hidle =>
      exact ⟨w, .refl _ w, h.reported, h.shown, h.table⟩
  | click hidle =>
      exact ⟨w, .refl _ w, ⟨h.reported.store, h.reported.callbacks, h.reported.runs⟩, h.shown,
        h.table⟩
  | timer hidle =>
      have htable := h.table
      simp only [hidle] at htable
      exact ⟨w, .refl _ w, h.reported, h.shown, htable⟩
  | frame hs => exact h.frame hs

/-- Outside the step that builds the new model, the table shows the newest
report with a row among those taken, with the counts that the objects have
now, or is still the blank one. -/
theorem table_shows_newest_taken (digit : Char → Option ℕ) (form : Form PcapIf) (clock : ℤ)
    (es : List ProgramEvent) (u : Program PcapIf)
    (h : (machine digit).run (initial form clock) es = some u)
    (hpc : ∀ topURLs, u.framePc ≠ .mostHitsRows topURLs) :
    u.mostHitsTable = ((MostHitsFrame.newest u.store.mostHitsTopURL.removed).map u.tableRows).getD
      (List.replicate 5 none) := by
  obtain ⟨w, -, hreported, hshown, htable⟩ := (machine digit).run_forward MostHitsFrame.machine
    Displayed (fun _ _ _ _ hw hs => hw.step (step_cases digit hs)) (displayed_initial form clock) h
  have hrows : w.tableRows = u.tableRows := by
    have hheap : w.reports.store.heap = u.store.heap := hreported.store.heap_eq
    funext topURLs
    simp only [MostHitsFrame.tableRows, tableRows, hheap]
  have htop : w.mostHitsTopURL = u.store.mostHitsTopURL := hreported.store.top_eq
  have heq : w.mostHitsTable = u.mostHitsTable := by
    split at htable
    · exact (hpc _ ‹_›).elim
    · exact htable
  rw [← heq, hshown.table, htop, MostHitsFrame.rowsOrBlank, hrows]

theorem table_shows_newest_taken_hit : ∃ u : Program ℕ,
    (machine asciiDigit).run (initial everyHit 0) (hitEvents ++ tickEvents) = some u ∧
      u.store.mostHitsTopURL.removed = [[⟨0, [], 0⟩]] ∧
      u.mostHitsTable = ((MostHitsFrame.newest u.store.mostHitsTopURL.removed).map
        u.tableRows).getD (List.replicate 5 none) := by
  have hrun : ((machine asciiDigit).run (initial everyHit 0) (hitEvents ++ tickEvents)).any
      (fun u => decide (u.framePc = .idle ∧
        u.store.mostHitsTopURL.removed = [[⟨0, [], 0⟩]])) = true := by
    decide +kernel
  obtain ⟨u, hu, htest⟩ := (Option.any_eq_true _ _).1 hrun
  obtain ⟨hidle, hremoved⟩ := of_decide_eq_true htest
  exact ⟨u, hu, hremoved, table_shows_newest_taken asciiDigit everyHit 0 _ u hu (by simp [hidle])⟩

end Program

end HttpLogMonitor
