import HttpLogMonitor.ReportSystem

/-!
# Every hit is accounted for

What has been put on `mostHitsURLQueue` is queued, held by one run or
counted by one run. All these objects are distinct, so a run writes the
`hitCount` of no object that another run has counted, and a finished run
writes none at all.
-/

namespace HttpLogMonitor

open MostHitsCalculator

structure Accounts (s : Store) (newHits : List HttpObject) (runs : List CalculatorRun) :
    Prop where
  tally : ∀ r ∈ runs, Tally s.heap r.mapping r.counted
  ledger : s.mostHitsURLQueue.log.Perm
    (s.mostHitsURLQueue.items ++ runs.flatMap CalculatorRun.owned)
  distinct : ((newHits ++ s.mostHitsURLQueue.log).map HttpObject.ref).Nodup
  created : ∀ obj ∈ newHits ++ s.mostHitsURLQueue.log, obj.ref < s.nextRef
  publishing : ∀ r ∈ runs, ∀ topFive, r.pc = .putTop topFive → topFive ⊆ r.counted
  published : ∀ topFive ∈ s.mostHitsTopURL.log,
    ∃ r ∈ runs, r.pc = .done ∧ topFive ⊆ r.counted

namespace Accounts

variable {s s' : Store} {newHits : List HttpObject} {runs : List CalculatorRun}

theorem initial (clock : ℤ) : Accounts (Store.initial clock) [] [] := by
  constructor <;> simp [Store.initial]

theorem owned_subset (h : Accounts s newHits runs) :
    runs.flatMap CalculatorRun.owned ⊆ s.mostHitsURLQueue.log := fun _ hobj =>
  h.ledger.symm.subset (List.mem_append_right _ hobj)

theorem counted_subset (h : Accounts s newHits runs) {r : CalculatorRun} (hr : r ∈ runs) :
    r.counted ⊆ s.mostHitsURLQueue.log := fun _ hobj =>
  h.owned_subset (List.mem_flatMap.2 ⟨r, hr, List.mem_append_right _ hobj⟩)

/-! ## Captures -/

theorem quiet (h : Accounts s newHits runs) (hheap : s'.heap = s.heap)
    (hqueue : s'.mostHitsURLQueue = s.mostHitsURLQueue)
    (htop : s'.mostHitsTopURL = s.mostHitsTopURL) (hnext : s'.nextRef = s.nextRef)
    {newHits' : List HttpObject} (hnewHits : newHits'.Sublist newHits) :
    Accounts s' newHits' runs := by
  have hsub : (newHits' ++ s.mostHitsURLQueue.log).Sublist (newHits ++ s.mostHitsURLQueue.log) :=
    hnewHits.append_right _
  refine ⟨?_, ?_, ?_, ?_, h.publishing, ?_⟩
  · rw [hheap]
    exact h.tally
  · rw [hqueue]
    exact h.ledger
  · rw [hqueue]
    exact h.distinct.sublist (hsub.map _)
  · rw [hqueue, hnext]
    exact fun obj hobj => h.created obj (hsub.subset hobj)
  · rw [htop]
    exact h.published

theorem getHitCount_create (h : Accounts s newHits runs) (url : JavaString) {obj : HttpObject}
    (hobj : obj ∈ newHits ++ s.mostHitsURLQueue.log) :
    (s.create url).heap.getHitCount obj = s.heap.getHitCount obj :=
  Heap.getHitCount_setHitCount_ne _ (Nat.ne_of_lt (h.created obj hobj)) _

theorem create {pre post : List HttpObject} (h : Accounts s (pre ++ post) runs)
    (url : JavaString) : Accounts (s.create url) (pre ++ s.newHit url :: post) runs := by
  have hperm : (pre ++ s.newHit url :: post ++ s.mostHitsURLQueue.log).Perm
      (s.newHit url :: (pre ++ post ++ s.mostHitsURLQueue.log)) := by
    simp
  refine ⟨fun r hr => ?_, h.ledger, ?_, ?_, h.publishing, h.published⟩
  · exact (h.tally r hr).frame fun obj hobj =>
      h.getHitCount_create url (List.mem_append_right _ (h.counted_subset hr hobj))
  · refine (hperm.map _).nodup_iff.2 (List.nodup_cons.2 ⟨?_, h.distinct⟩)
    intro hmem
    obtain ⟨obj, hobj, href⟩ := List.mem_map.1 hmem
    exact Nat.ne_of_lt (h.created obj hobj) href
  · intro obj hobj
    rcases List.mem_cons.1 (hperm.subset hobj) with rfl | hobj
    · exact Nat.lt_succ_self _
    · exact Nat.lt_succ_of_lt (h.created obj hobj)

theorem put {pre post : List HttpObject} {hit : HttpObject}
    (h : Accounts s (pre ++ hit :: post) runs) :
    Accounts { s with mostHitsURLQueue := s.mostHitsURLQueue.put hit } (pre ++ post) runs := by
  have hperm : (pre ++ post ++ (s.mostHitsURLQueue.log ++ [hit])).Perm
      (pre ++ hit :: post ++ s.mostHitsURLQueue.log) := by
    rw [List.perm_iff_count]
    intro obj
    simp only [List.count_append, List.count_cons, List.count_nil]
    omega
  refine ⟨h.tally, ?_, (hperm.map _).nodup_iff.2 h.distinct,
    fun obj hobj => h.created obj (hperm.subset hobj), h.publishing, h.published⟩
  rw [Fifo.log_put, Fifo.items_put, List.perm_iff_count]
  intro obj
  have hcount := h.ledger.count_eq obj
  simp only [List.count_append] at hcount ⊢
  omega

theorem callback {pre post : List Callback} {c c' : Callback}
    (h : Accounts s ((pre ++ c :: post).flatMap Callback.newHits) runs)
    (hc : Callback.Moves s c s' c') :
    Accounts s' ((pre ++ c' :: post).flatMap Callback.newHits) runs := by
  simp only [List.flatMap_append, List.flatMap_cons] at h ⊢
  cases hc with
  | quiet hheap hqueue htop hnext hnewHits =>
      exact h.quiet hheap hqueue htop hnext ((hnewHits.append_right _).append_left _)
  | create url hs hc hc' =>
      rw [hc, List.nil_append] at h
      rw [hc', hs]
      exact h.create url
  | put hit hs hc hc' =>
      rw [hc] at h
      rw [hc', hs, List.nil_append]
      exact h.put

/-! ## Runs -/

theorem start (h : Accounts s newHits runs) :
    Accounts s newHits (runs ++ [CalculatorRun.fresh]) := by
  refine ⟨?_, ?_, h.distinct, h.created, ?_, ?_⟩
  · intro r hr
    rcases List.mem_append.1 hr with hr | hr
    · exact h.tally r hr
    · rw [List.mem_singleton.1 hr]
      exact Tally.nil _
  · simpa [CalculatorRun.fresh, CalculatorRun.owned, CalculatorRun.held] using h.ledger
  · intro r hr topFive hpc
    rcases List.mem_append.1 hr with hr | hr
    · exact h.publishing r hr topFive hpc
    · rw [List.mem_singleton.1 hr] at hpc
      cases hpc
  · intro topFive hL
    obtain ⟨r, hr, hdone⟩ := h.published topFive hL
    exact ⟨r, List.mem_append_left _ hr, hdone⟩

section Running

variable {pre post : List CalculatorRun} {r r' : CalculatorRun}

theorem owned_nodup (h : Accounts s newHits runs) :
    ((runs.flatMap CalculatorRun.owned).map HttpObject.ref).Nodup := by
  have hdistinct := h.distinct
  rw [List.map_append] at hdistinct
  have hlog := (h.ledger.map HttpObject.ref).nodup_iff.1 hdistinct.of_append_right
  rw [List.map_append] at hlog
  exact hlog.of_append_right

theorem ref_ne (h : Accounts s newHits (pre ++ r :: post)) {q : CalculatorRun}
    (hq : q ∈ pre ∨ q ∈ post) {a b : HttpObject} (ha : a ∈ q.owned) (hb : b ∈ r.owned) :
    a.ref ≠ b.ref := by
  have hnodup := h.owned_nodup
  simp only [List.flatMap_append, List.flatMap_cons, List.map_append] at hnodup
  obtain ⟨-, hright, hleft⟩ := List.nodup_append'.1 hnodup
  obtain ⟨-, -, hmiddle⟩ := List.nodup_append'.1 hright
  have hbref : b.ref ∈ r.owned.map HttpObject.ref := List.mem_map_of_mem hb
  intro heq
  rcases hq with hq | hq
  · have hmem : a.ref ∈ (pre.flatMap CalculatorRun.owned).map HttpObject.ref :=
      List.mem_map_of_mem (List.mem_flatMap.2 ⟨q, hq, ha⟩)
    exact hleft hmem (List.mem_append_left _ (heq ▸ hbref))
  · have hmem : a.ref ∈ (post.flatMap CalculatorRun.owned).map HttpObject.ref :=
      List.mem_map_of_mem (List.mem_flatMap.2 ⟨q, hq, ha⟩)
    exact hmiddle hbref (heq ▸ hmem)

/-- The run that moves owns the object whose `hitCount` it writes, so no
counter of another run changes. -/
theorem getHitCount_other (h : Accounts s newHits (pre ++ r :: post))
    (hs : CalculatorRun.Steps s r s' r') {q : CalculatorRun} (hq : q ∈ pre ∨ q ∈ post)
    {obj : HttpObject} (hobj : obj ∈ q.counted) :
    s'.heap.getHitCount obj = s.heap.getHitCount obj := by
  cases hs with
  | count thisHit hpc =>
      apply getHitCount_countHit_ne
      apply h.ref_ne hq (List.mem_append_right _ hobj)
      have hmem := ((h.tally r (by simp)).counter_mem thisHit).1
      simp only [CalculatorRun.owned, CalculatorRun.held, hpc]
      exact List.perm_append_comm.subset hmem
  | _ => rfl

theorem replace (h : Accounts s newHits (pre ++ r :: post)) (hs : CalculatorRun.Steps s r s' r')
    (hlog : s'.mostHitsURLQueue.log = s.mostHitsURLQueue.log) (hnext : s'.nextRef = s.nextRef)
    (hdone : r.pc ≠ .done) (htally : Tally s'.heap r'.mapping r'.counted)
    (howned : (s'.mostHitsURLQueue.items ++ r'.owned).Perm (s.mostHitsURLQueue.items ++ r.owned))
    (hpublishing : ∀ topFive, r'.pc = .putTop topFive → topFive ⊆ r'.counted)
    (hpublished : ∀ topFive ∈ s'.mostHitsTopURL.log,
      topFive ∈ s.mostHitsTopURL.log ∨ r'.pc = .done ∧ topFive ⊆ r'.counted) :
    Accounts s' newHits (pre ++ r' :: post) := by
  have hother : ∀ q ∈ pre ++ r' :: post, q = r' ∨ q ∈ pre ∨ q ∈ post := by
    intro q hq
    simp only [List.mem_append, List.mem_cons] at hq
    tauto
  have hold : ∀ q, q ∈ pre ∨ q ∈ post → q ∈ pre ++ r :: post := by
    rintro q (hq | hq) <;> simp [hq]
  have hnew : ∀ q, q ∈ pre ∨ q ∈ post → q ∈ pre ++ r' :: post := by
    rintro q (hq | hq) <;> simp [hq]
  refine ⟨fun q hq => ?_, ?_, hlog ▸ h.distinct, hnext ▸ hlog ▸ h.created, fun q hq => ?_,
    fun topFive hL => ?_⟩
  · rcases hother q hq with rfl | hq
    · exact htally
    · exact (h.tally q (hold q hq)).frame fun obj hobj => h.getHitCount_other hs hq hobj
  · rw [hlog, List.perm_iff_count]
    intro obj
    have hledger := h.ledger.count_eq obj
    have hmoved := howned.count_eq obj
    simp only [List.flatMap_append, List.flatMap_cons, List.count_append] at hledger hmoved ⊢
    omega
  · rcases hother q hq with rfl | hq
    · exact hpublishing
    · exact h.publishing q (hold q hq)
  · rcases hpublished topFive hL with hL | hL
    · obtain ⟨q, hq, hqdone, hsub⟩ := h.published topFive hL
      have hne : q ≠ r := fun heq => hdone (heq ▸ hqdone)
      have hq' : q ∈ pre ∨ q ∈ post := by
        simp only [List.mem_append, List.mem_cons] at hq
        tauto
      exact ⟨q, hnew q hq', hqdone, hsub⟩
    · exact ⟨r', by simp, hL⟩

theorem goto {pc : CalculatorPc} (h : Accounts s newHits (pre ++ r :: post))
    (hs : CalculatorRun.Steps s r s (r.goto pc)) (hdone : r.pc ≠ .done)
    (howned : (r.goto pc).owned = r.owned)
    (hpublishing : ∀ topFive, pc = .putTop topFive → topFive ⊆ r.counted) :
    Accounts s newHits (pre ++ r.goto pc :: post) :=
  h.replace hs rfl rfl hdone (h.tally r (by simp)) (by rw [howned]) hpublishing (fun _ => Or.inl)

theorem values_subset (h : Accounts s newHits runs) (hr : r ∈ runs) :
    r.mapping.values ⊆ r.counted := fun _ hobj =>
  ((h.tally r hr).owner _ _ ((h.tally r hr).lookup_of_mem_values hobj)).1

theorem calculator (h : Accounts s newHits (pre ++ r :: post))
    (hs : CalculatorRun.Steps s r s' r') : Accounts s' newHits (pre ++ r' :: post) := by
  have hr : r ∈ pre ++ r :: post := by simp
  have howned : ∀ pc, r.held = [] → (r.goto pc).held = [] → (r.goto pc).owned = r.owned := by
    intro pc hheld hheld'
    rw [CalculatorRun.owned, CalculatorRun.owned, hheld, hheld']
    rfl
  cases hs with
  | nothing hpc hq =>
      exact h.goto (.nothing hpc hq) (by simp [hpc]) (howned _ (by simp [CalculatorRun.held, hpc]) rfl)
        (by simp)
  | begin hpc hq =>
      exact h.goto (.begin hpc hq) (by simp [hpc]) (howned _ (by simp [CalculatorRun.held, hpc]) rfl)
        (by simp)
  | leave hpc hq =>
      exact h.goto (.leave hpc hq) (by simp [hpc]) (howned _ (by simp [CalculatorRun.held, hpc]) rfl)
        (by simp)
  | enter hpc hq =>
      exact h.goto (.enter hpc hq) (by simp [hpc]) (howned _ (by simp [CalculatorRun.held, hpc]) rfl)
        (by simp)
  | take thisHit hpc hq =>
      refine h.replace (.take thisHit hpc hq) rfl rfl (by simp [hpc]) (h.tally r hr) ?_
        (by simp [CalculatorRun.goto]) (fun _ => Or.inl)
      rw [hq]
      simp [CalculatorRun.owned, CalculatorRun.held, CalculatorRun.goto, hpc]
  | count thisHit hpc =>
      have hperm : (r.counted ++ [thisHit]).Perm r.owned := by
        simp [CalculatorRun.owned, CalculatorRun.held, hpc]
      have hnodup : (r.owned.map HttpObject.ref).Nodup := by
        have hall := h.owned_nodup
        rw [List.map_flatMap] at hall
        exact (List.nodup_flatMap.1 hall).1 r hr
      exact h.replace (.count thisHit hpc) rfl rfl (by simp [hpc])
        ((h.tally r hr).countHit thisHit ((hperm.map _).nodup_iff.2 hnodup))
        (hperm.append_left _) (by simp) (fun _ => Or.inl)
  | select iteration hpc hiter =>
      refine h.goto (.select iteration hpc hiter) (by simp [hpc])
        (howned _ (by simp [CalculatorRun.held, hpc]) rfl) ?_
      rintro topFive heq obj hobj
      cases heq
      exact h.values_subset hr (hiter.subset (report_subset _ _ hobj))
  | putTop topFive hpc =>
      refine h.replace (.putTop topFive hpc) rfl rfl (by simp [hpc]) (h.tally r hr) ?_
        (by simp [CalculatorRun.goto]) ?_
      · rw [howned _ (by simp [CalculatorRun.held, hpc]) rfl]
      · intro L hL
        rcases List.mem_append.1 hL with hL | hL
        · exact Or.inl hL
        · rw [List.mem_singleton.1 hL]
          exact Or.inr ⟨rfl, h.publishing r hr topFive hpc⟩

end Running

end Accounts

namespace ReportSystem

def Accounted (u : ReportSystem) : Prop :=
  Accounts u.store (u.callbacks.flatMap Callback.newHits) u.runs

theorem Accounted.step {u v : ReportSystem} (hu : u.Accounted) (h : Steps u v) : v.Accounted := by
  cases h with
  | tick d =>
      have hquiet := @Accounts.quiet u.store (u.store.tick d) _ _ hu rfl rfl rfl rfl
      exact hquiet (List.Sublist.refl _)
  | capture => exact hu.quiet rfl rfl rfl rfl (by simp [Callback.newHits, Callback.fresh])
  | callback heq hc => exact Accounts.callback (heq ▸ hu) hc
  | start => exact Accounts.start hu
  | calculator heq hr => exact Accounts.calculator (heq ▸ hu) hr

/-- A published list stays published, with the counts it had. -/
def Keeps (u v : ReportSystem) : Prop :=
  ∀ topFive ∈ u.store.mostHitsTopURL.log, topFive ∈ v.store.mostHitsTopURL.log ∧
    ∀ obj ∈ topFive, v.store.heap.getHitCount obj = u.store.heap.getHitCount obj

/-- Published objects belong to a finished run, and what is written is a
new object or an object of a run in progress. -/
theorem Accounted.keeps_step {u v : ReportSystem} (hu : u.Accounted) (h : Steps u v) :
    u.Keeps v := by
  intro topFive hL
  obtain ⟨q, hq, hdone, hsub⟩ := hu.published topFive hL
  cases h with
  | tick d => exact ⟨hL, fun _ _ => rfl⟩
  | capture => exact ⟨hL, fun _ _ => rfl⟩
  | start => exact ⟨hL, fun _ _ => rfl⟩
  | callback heq hc =>
      cases hc with
      | quiet hheap hqueue htop hnext hnewHits =>
          exact ⟨by rwa [htop], fun obj _ => by rw [hheap]⟩
      | create url hs hc hc' =>
          subst hs
          exact ⟨hL, fun obj hobj => hu.getHitCount_create url
            (List.mem_append_right _ (hu.counted_subset hq (hsub hobj)))⟩
      | put hit hs hc hc' =>
          subst hs
          exact ⟨hL, fun _ _ => rfl⟩
  | @calculator pre post r r' s heq hr =>
      have hu' : Accounts u.store (u.callbacks.flatMap Callback.newHits) (pre ++ r :: post) :=
        heq ▸ hu
      have hmem : q ∈ pre ∨ q ∈ post := by
        have hne : q ≠ r := by
          rintro rfl
          cases hr <;> simp_all
        rw [heq] at hq
        simp only [List.mem_append, List.mem_cons] at hq
        tauto
      refine ⟨?_, fun obj hobj => hu'.getHitCount_other hr hmem (hsub hobj)⟩
      cases hr with
      | putTop _ hpc => exact List.mem_append_left _ hL
      | _ => exact hL

theorem accounted_initial (clock : ℤ) : (initial clock).Accounted := Accounts.initial clock

theorem run_accounted {clock : ℤ} {u : ReportSystem} {es : List ReportEvent}
    (h : machine.run (initial clock) es = some u) : u.Accounted :=
  machine.run_invariant Accounted (fun _ _ _ hu hs => hu.step (step_cases hs))
    (accounted_initial clock) h

theorem Accounted.keeps_run {u v : ReportSystem} {es : List ReportEvent} (hu : u.Accounted)
    (h : machine.run u es = some v) : u.Keeps v :=
  machine.run_relation Accounted Keeps (fun _ _ hL => ⟨hL, fun _ _ => rfl⟩)
    (fun _ _ _ huv hvw L hL => ⟨(hvw L (huv L hL).1).1, fun obj hobj =>
      ((hvw L (huv L hL).1).2 obj hobj).trans ((huv L hL).2 obj hobj)⟩)
    (fun _ _ _ hu hs => ⟨hu.step (step_cases hs), hu.keeps_step (step_cases hs)⟩) hu h

def totalHitCount (u : ReportSystem) : ℤ :=
  (u.runs.map fun r =>
    (r.mapping.values.map fun obj => (u.store.heap.getHitCount obj).toInt).sum).sum

theorem sum_hitCounts {h : Heap} {runs : List CalculatorRun}
    (ht : ∀ r ∈ runs, Tally h r.mapping r.counted)
    (hbound : ∀ r ∈ runs, ∀ sec, hitsIn sec r.counted < 2 ^ 31) :
    (runs.map fun r => (r.mapping.values.map fun obj => (h.getHitCount obj).toInt).sum).sum =
      (runs.flatMap CalculatorRun.counted).length := by
  induction runs with
  | nil => rfl
  | cons r runs ih =>
      have hrest := ih (fun q hq => ht q (List.mem_cons_of_mem _ hq))
        (fun q hq => hbound q (List.mem_cons_of_mem _ hq))
      have hfirst := (ht r List.mem_cons_self).sum_toInt (hbound r List.mem_cons_self)
      rw [List.map_cons, List.sum_cons, hrest, hfirst, List.flatMap_cons, List.length_append]
      push_cast
      ring

/-- At every reachable state the hits ever put are those queued, those
taken and not yet counted, and those in the counters of all runs; a hit
that is neither queued nor held is counted by exactly one run, whose
section map counts each section right; and published lists and their
counts never change. -/
theorem hits_counted_once (clock : ℤ) (es : List ReportEvent) (u : ReportSystem)
    (h : machine.run (initial clock) es = some u)
    (hbound : ∀ r ∈ u.runs, ∀ sec, hitsIn sec r.counted < 2 ^ 31) :
    (u.store.mostHitsURLQueue.log.length : ℤ) = u.store.mostHitsURLQueue.items.length +
      (u.runs.flatMap CalculatorRun.held).length + u.totalHitCount ∧
    (∀ hit ∈ u.store.mostHitsURLQueue.log, hit ∉ u.store.mostHitsURLQueue.items →
      hit ∉ u.runs.flatMap CalculatorRun.held →
      ∃! i : ℕ, ∃ r, u.runs[i]? = some r ∧ hit ∈ r.counted) ∧
    (∀ r ∈ u.runs, r.counted.Nodup ∧ (∀ hit ∈ r.counted, hit.sec ∈ r.mapping) ∧
      ∀ sec obj, r.mapping.lookup sec = some obj →
        obj.sec = sec ∧ (u.store.heap.getHitCount obj).toInt = hitsIn sec r.counted) ∧
    ∀ es' v, machine.run u es' = some v → u.Keeps v := by
  have hu := run_accounted h
  have hsplit : (u.runs.flatMap CalculatorRun.owned).Perm
      (u.runs.flatMap CalculatorRun.held ++ u.runs.flatMap CalculatorRun.counted) :=
    (List.flatMap_append_perm _ _ _).symm
  refine ⟨?_, ?_, ?_, fun es' v hrun => hu.keeps_run hrun⟩
  · have hlen := hu.ledger.length_eq
    have hlen' := hsplit.length_eq
    rw [totalHitCount, sum_hitCounts hu.tally hbound]
    simp only [List.length_append] at hlen hlen'
    omega
  · intro hit hlog hitems hheld
    have howned : hit ∈ u.runs.flatMap CalculatorRun.counted := by
      have hmem := hu.ledger.subset hlog
      simp only [List.mem_append, hitems, false_or] at hmem
      have hmem' := hsplit.subset hmem
      simpa only [List.mem_append, hheld, false_or] using hmem'
    refine Threads.existsUnique_owner ?_ howned
    have hnodup := hu.owned_nodup.of_map
    exact ((hsplit.nodup_iff).1 hnodup).of_append_right
  · intro r hr
    have ht := hu.tally r hr
    refine ⟨?_, fun hit hhit => ht.mem_iff.2 ⟨hit, hhit, rfl⟩, fun sec obj hobj =>
      ⟨(ht.owner sec obj hobj).2, ht.toInt_eq hobj (hbound r hr sec)⟩⟩
    have hnodup := (List.nodup_flatMap.1 hu.owned_nodup.of_map).1 r hr
    exact hnodup.of_append_right

def overlapEvents : List ReportEvent :=
  [.capture, .packet 0 (.request []), .callback 0 0, .callback 0 0, .callback 0 0, .callback 0 0,
    .callback 0 0, .callback 0 0, .packet 0 (.request []), .callback 0 0, .start, .start,
    .calculator 0 [], .calculator 1 [], .calculator 0 [], .calculator 1 [], .calculator 0 [],
    .calculator 1 [], .calculator 0 []]

theorem hits_counted_once_overlap : ∃ u,
    machine.run (initial 0) overlapEvents = some u ∧
      u.store.mostHitsURLQueue.log.length = 2 ∧
      (u.store.mostHitsURLQueue.log.length : ℤ) = u.store.mostHitsURLQueue.items.length +
        (u.runs.flatMap CalculatorRun.held).length + u.totalHitCount := by
  have hrun : (machine.run (initial 0) overlapEvents).any
      (fun u => u.store.mostHitsURLQueue.log.length == 2 &&
        u.runs.all fun r => decide (r.counted.length ≤ 1)) = true := by
    decide
  obtain ⟨u, hu, htest⟩ := (Option.any_eq_true _ _).1 hrun
  simp only [Bool.and_eq_true, beq_iff_eq, List.all_eq_true, decide_eq_true_eq] at htest
  refine ⟨u, hu, htest.1, (hits_counted_once 0 overlapEvents u hu fun r hr sec => ?_).1⟩
  have hle : hitsIn sec r.counted ≤ r.counted.length := List.countP_le_length
  have hone := htest.2 r hr
  omega

end ReportSystem

end HttpLogMonitor
