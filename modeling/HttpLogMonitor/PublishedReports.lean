import HttpLogMonitor.ReportRefinement

/-!
# What overlapping runs publish

A run that overlaps others counts only what it takes itself. The list it
publishes is the top five of exactly these hits, and stays so, since the
counters belong to objects that no other run has counted.
-/

namespace HttpLogMonitor

open MostHitsCalculator Threads

namespace MostHitsCalculator

theorem TopFive.frame {h h' : Heap} {hits L : List HttpObject} (ht : TopFive h hits L)
    (heq : ∀ obj ∈ L, h'.getHitCount obj = h.getHitCount obj) : TopFive h' hits L where
  length_eq := ht.length_eq
  sections_nodup := ht.sections_nodup
  hitCount_eq obj hobj := by
    rw [heq obj hobj]
    exact ht.hitCount_eq obj hobj
  sorted := ht.sorted.imp_of_mem fun ha hb hle => by
    rw [heq _ ha, heq _ hb]
    exact hle
  dominates hit hhit hmissing obj hobj := by
    rw [heq obj hobj]
    exact ht.dominates hit hhit hmissing obj hobj

end MostHitsCalculator

namespace CalculatorRun

/-- The list is what the run has to say about the hits it has counted. -/
structure Reports (h : Heap) (r : CalculatorRun) (topFive : List HttpObject) : Prop where
  subset : topFive ⊆ r.counted
  topFive : TopFive h r.counted topFive

theorem Reports.frame {h h' : Heap} {r : CalculatorRun} {topFive : List HttpObject}
    (hr : r.Reports h topFive)
    (heq : ∀ obj ∈ r.counted, h'.getHitCount obj = h.getHitCount obj) : r.Reports h' topFive :=
  ⟨hr.subset, hr.topFive.frame fun obj hobj => heq obj (hr.subset hobj)⟩

end CalculatorRun

/-- What is about to be published and what has been, with the run that
published it. -/
structure Reporting (h : Heap) (runs : List CalculatorRun) (log : List (List HttpObject)) :
    Prop where
  pending : ∀ r ∈ runs, ∀ topFive, r.pc = .putTop topFive → r.Reports h topFive
  published : ∃ authors : List CalculatorRun,
    authors.Subperm (runs.filter fun r => !r.active) ∧
      List.Forall₂ (CalculatorRun.Reports h) authors log

namespace Reporting

variable {h h' : Heap} {runs pre post : List CalculatorRun} {r r' : CalculatorRun}
  {log log' : List (List HttpObject)}

theorem nil (h : Heap) : Reporting h [] [] :=
  ⟨by simp, [], List.nil_subperm, .nil⟩

theorem authors_frame {authors : List CalculatorRun}
    (heq : ∀ r ∈ authors, ∀ obj ∈ r.counted, h'.getHitCount obj = h.getHitCount obj)
    (hall : List.Forall₂ (CalculatorRun.Reports h) authors log) :
    List.Forall₂ (CalculatorRun.Reports h') authors log :=
  ((List.forall₂_and_left authors log).2 ⟨heq, hall⟩).imp fun _ _ hboth =>
    hboth.2.frame hboth.1

theorem frame (hr : Reporting h runs log)
    (heq : ∀ r ∈ runs, ∀ obj ∈ r.counted, h'.getHitCount obj = h.getHitCount obj) :
    Reporting h' runs log := by
  obtain ⟨authors, hsub, hall⟩ := hr.published
  refine ⟨fun r hmem topFive hpc => (hr.pending r hmem topFive hpc).frame (heq r hmem),
    authors, hsub, ?_⟩
  exact authors_frame (fun r hmem => heq r (List.mem_of_mem_filter (hsub.subset hmem))) hall

theorem start (hr : Reporting h runs log) : Reporting h (runs ++ [CalculatorRun.fresh]) log := by
  obtain ⟨authors, hsub, hall⟩ := hr.published
  refine ⟨?_, authors, ?_, hall⟩
  · intro r hmem topFive hpc
    rcases List.mem_append.1 hmem with hmem | hmem
    · exact hr.pending r hmem topFive hpc
    · rw [List.mem_singleton.1 hmem] at hpc
      cases hpc
  · rwa [filter_concat (by rfl)]

theorem idle_split (hactive : r.active = true) (pre post : List CalculatorRun) :
    (pre ++ r :: post).filter (fun r => !r.active) =
      pre.filter (fun r => !r.active) ++ post.filter fun r => !r.active := by
  simp [hactive]

/-- The run that moves is not done, so the runs that have published are
others. -/
theorem move (hr : Reporting h (pre ++ r :: post) log) (hactive : r.active = true)
    (heq : ∀ q, q ∈ pre ∨ q ∈ post → ∀ obj ∈ q.counted,
      h'.getHitCount obj = h.getHitCount obj)
    (hpending : ∀ topFive, r'.pc = .putTop topFive → r'.Reports h' topFive)
    (hnew : log' = log ∨ r'.active = false ∧
      ∃ topFive, r'.Reports h' topFive ∧ log' = log ++ [topFive]) :
    Reporting h' (pre ++ r' :: post) log' := by
  obtain ⟨authors, hsub, hall⟩ := hr.published
  rw [idle_split hactive] at hsub
  have hother : ∀ q ∈ authors, q ∈ pre ∨ q ∈ post := fun q hq =>
    (List.mem_append.1 (hsub.subset hq)).imp List.mem_of_mem_filter List.mem_of_mem_filter
  have hframed := authors_frame (fun q hq => heq q (hother q hq)) hall
  constructor
  · intro q hq topFive hpc
    rcases List.mem_append.1 hq with hpre | hq
    · exact (hr.pending q (List.mem_append_left _ hpre) topFive hpc).frame (heq q (Or.inl hpre))
    · rcases List.mem_cons.1 hq with rfl | hpost
      · exact hpending topFive hpc
      · exact (hr.pending q (by simp [hpost]) topFive hpc).frame (heq q (Or.inr hpost))
  · rcases hnew with rfl | ⟨hdone, topFive, hreports, rfl⟩
    · refine ⟨authors, hsub.trans ?_, hframed⟩
      rw [List.filter_append]
      exact (((List.sublist_cons_self r' post).filter _).append_left _).subperm
    · refine ⟨authors ++ [r'], ?_, List.rel_append hframed (.cons hreports .nil)⟩
      have hmiddle : ((pre ++ r' :: post).filter fun r => !r.active) =
          pre.filter (fun r => !r.active) ++ r' :: post.filter fun r => !r.active := by
        simp [hdone]
      have hlast : (pre.filter (fun r => !r.active) ++ post.filter (fun r => !r.active) ++ [r']).Perm
          (pre.filter (fun r => !r.active) ++ r' :: post.filter fun r => !r.active) := by
        rw [List.append_assoc]
        exact (List.perm_append_singleton r' _).append_left _
      rw [hmiddle]
      exact ((List.subperm_append_right [r']).2 hsub).trans hlast.subperm

end Reporting

namespace ReportSystem

/-- The bound keeps the counters, which are `int`, from wrapping. -/
structure Truthful (u : ReportSystem) : Prop where
  accounted : u.Accounted
  reporting : u.store.mostHitsURLQueue.log.length ≤ 2147483647 →
    Reporting u.store.heap u.runs u.store.mostHitsTopURL.log

theorem truthful_initial (clock : ℤ) : (initial clock).Truthful :=
  ⟨accounted_initial clock, fun _ => .nil _⟩

theorem Accounted.reports_select {u : ReportSystem} (hu : u.Accounted)
    (hsize : u.store.mostHitsURLQueue.log.length ≤ 2147483647) {r : CalculatorRun}
    (hr : r ∈ u.runs) {iteration : List HttpObject} (hiter : iteration.Perm r.mapping.values)
    (pc : CalculatorPc) : (r.goto pc).Reports u.store.heap (report u.store.heap iteration) := by
  have hnodup : r.counted.Nodup :=
    ((List.nodup_flatMap.1 hu.owned_nodup.of_map).1 r hr).of_append_right
  have hlen := (List.subperm_of_subset hnodup (hu.counted_subset hr)).length_le
  refine ⟨fun obj hobj => ?_, (hu.tally r hr).report_topFive (hlen.trans hsize) hiter⟩
  exact hu.values_subset hr (hiter.subset (report_subset _ _ hobj))

theorem Truthful.step {u v : ReportSystem} (hu : u.Truthful) (h : Steps u v) : v.Truthful := by
  obtain ⟨hu, hreporting⟩ := hu
  refine ⟨hu.step h, ?_⟩
  cases h with
  | tick d => exact hreporting
  | capture => exact hreporting
  | start => exact fun hsize => (hreporting hsize).start
  | callback heq hc =>
      cases hc with
      | quiet hheap hqueue htop hnext hnewHits =>
          simpa only [hheap, hqueue, htop] using hreporting
      | create url hs hc hc' =>
          subst hs
          exact fun hsize => (hreporting hsize).frame fun r hr obj hobj =>
            hu.getHitCount_create url (List.mem_append_right _ (hu.counted_subset hr hobj))
      | put hit hs hc hc' =>
          subst hs
          intro hsize
          rw [Fifo.log_put, List.length_append] at hsize
          exact hreporting (by omega)
  | @calculator pre post r r' s heq hr =>
      have hu' : Accounts u.store (u.callbacks.flatMap Callback.newHits) (pre ++ r :: post) :=
        heq ▸ hu
      have hmem : r ∈ u.runs := by simp [heq]
      have hother := fun q hq obj (hobj : obj ∈ q.counted) =>
        hu'.getHitCount_other (q := q) hr hq hobj
      intro hsize
      have hlog : s.mostHitsURLQueue.log = u.store.mostHitsURLQueue.log := by
        cases hr <;> rfl
      have hreports := hreporting (hlog ▸ hsize)
      rw [heq] at hreports
      refine hreports.move hr.active hother ?_ ?_
      · intro topFive hpc
        cases hr with
        | select iteration _ hiter =>
            cases hpc
            exact Accounted.reports_select hu (hlog ▸ hsize) hmem hiter _
        | _ => cases hpc
      · cases hr with
        | putTop topFive hpc =>
            have hpending := hreports.pending r (by simp) topFive hpc
            exact Or.inr ⟨rfl, topFive, ⟨hpending.subset, hpending.topFive⟩, rfl⟩
        | _ => exact Or.inl rfl

theorem run_truthful {clock : ℤ} {u : ReportSystem}
    (h : machine.Reaches (initial clock) u) : u.Truthful := by
  obtain ⟨es, hes⟩ := h
  exact machine.run_invariant Truthful (fun _ _ _ hu hs => hu.step (step_cases hs))
    (truthful_initial clock) hes

/-- The hits behind the published lists, list by list. -/
theorem Truthful.exists_counted {u : ReportSystem} (hu : u.Truthful)
    (hsize : u.store.mostHitsURLQueue.log.length ≤ 2147483647) :
    ∃ counted : List (List HttpObject),
      List.Forall₂ (TopFive u.store.heap) counted u.store.mostHitsTopURL.log ∧
        (u.store.mostHitsURLQueue.items ++ counted.flatten).Subperm
          u.store.mostHitsURLQueue.log := by
  obtain ⟨authors, ⟨runs, hperm, hsub⟩, hall⟩ := (hu.reporting hsize).published
  refine ⟨authors.map CalculatorRun.counted, ?_, ?_⟩
  · rw [List.forall₂_map_left_iff]
    exact hall.imp fun _ _ hr => hr.topFive
  · have hcounted : (runs.flatMap CalculatorRun.counted).Sublist
        (u.runs.flatMap CalculatorRun.owned) :=
      (List.Sublist.flatMap_right runs fun _ _ => List.sublist_append_right _ _).trans
        ((hsub.trans List.filter_sublist).flatMap _)
    have hauthors := (hperm.symm.flatMap_right CalculatorRun.counted).subperm.trans
      hcounted.subperm
    rw [← List.flatMap_def]
    exact ((List.subperm_append_left _).2 hauthors).trans hu.accounted.ledger.symm.subperm

end ReportSystem

/-- Published lists stay published, with the counts they had. -/
def Store.KeepsReports (s s' : Store) : Prop :=
  ∀ topFive ∈ s.mostHitsTopURL.log, topFive ∈ s'.mostHitsTopURL.log ∧
    ∀ obj ∈ topFive, s'.heap.getHitCount obj = s.heap.getHitCount obj

namespace Monitor

variable {PcapIf : Type} [DecidableEq PcapIf]

theorem keepsReports_from {u v : Monitor PcapIf} {w : ReportSystem} {es : List MonitorEvent}
    (hw : w.Accounted) (hu : u.Reported w) (h : machine.run u es = some v) :
    u.store.KeepsReports v.store := by
  obtain ⟨w', ⟨es', hes'⟩, hv⟩ := run_reported_from hu h
  have hkeeps := hw.keeps_run hes'
  unfold ReportSystem.Keeps at hkeeps
  rw [hu.store.top_eq, hu.store.heap_eq, hv.store.top_eq, hv.store.heap_eq] at hkeeps
  exact hkeeps

/-- In a whole session, whatever the changes of device and period: each
list published is the top five of hits that no other list and no later
run counts, and neither the list nor its counts ever change. -/
theorem published_topFive (preferences : List (UserPreferences PcapIf)) (threshold : Int32)
    (clock : ℤ) (es : List MonitorEvent) (u : Monitor PcapIf)
    (h : machine.run (initial preferences threshold clock) es = some u)
    (hsize : u.store.mostHitsURLQueue.log.length ≤ 2147483647) :
    u.store.mostHitsURLQueue.log.Nodup ∧
      (∃ counted : List (List HttpObject),
        List.Forall₂ (TopFive u.store.heap) counted u.store.mostHitsTopURL.log ∧
          (u.store.mostHitsURLQueue.items ++ counted.flatten).Subperm
            u.store.mostHitsURLQueue.log) ∧
      ∀ es' v, machine.run u es' = some v → u.store.KeepsReports v.store := by
  obtain ⟨w, hreach, hu⟩ := run_reported_from (reported_initial preferences threshold clock) h
  have hw := ReportSystem.run_truthful hreach
  rw [← hu.store.queue_eq] at hsize
  have hcounted := hw.exists_counted hsize
  have hdistinct := hw.accounted.distinct
  rw [List.map_append] at hdistinct
  have hnodup := hdistinct.of_append_right.of_map
  rw [hu.store.queue_eq] at hcounted hnodup
  rw [hu.store.heap_eq, hu.store.top_eq] at hcounted
  exact ⟨hnodup, hcounted, fun es' v hrun => keepsReports_from hw.accounted hu hrun⟩

theorem published_topFive_twoPeriods : ∃ u,
    machine.run (initial twoPeriods 10 0) twoPeriodsEvents = some u ∧
      u.store.mostHitsTopURL.log = [[⟨1, [], 0⟩], [⟨0, [], 0⟩]] ∧
      ∃ counted, List.Forall₂ (TopFive u.store.heap) counted u.store.mostHitsTopURL.log := by
  have hrun : (machine.run (initial twoPeriods 10 0) twoPeriodsEvents).any (fun u =>
      decide (u.store.mostHitsTopURL.log = [[⟨1, [], 0⟩], [⟨0, [], 0⟩]] ∧
        u.store.mostHitsURLQueue.log.length ≤ 2147483647)) = true := by
    decide +kernel
  obtain ⟨u, hu, htest⟩ := (Option.any_eq_true _ _).1 hrun
  obtain ⟨hlog, hsize⟩ := of_decide_eq_true htest
  obtain ⟨-, ⟨counted, hall, -⟩, -⟩ :=
    published_topFive twoPeriods 10 0 twoPeriodsEvents u hu hsize
  exact ⟨u, hu, hlog, counted, hall⟩

end Monitor

end HttpLogMonitor
