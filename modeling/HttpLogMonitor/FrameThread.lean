import HttpLogMonitor.AlertHistory
import HttpLogMonitor.ProgramRefinement

/-!
# The event thread

The event thread is the only consumer of the queues it tests, so it never
waits in `take`. The alerts it takes are those put, in order, and the panel
is theirs.
-/

namespace HttpLogMonitor

namespace Monitor

variable {PcapIf : Type} [DecidableEq PcapIf]

/-- The monitor only puts on the queues of the frame. -/
theorem Steps.frameQueues {u v : Monitor PcapIf} {e : MonitorEvent} (h : Steps u e v) :
    u.store.mostHitsTopURL.Grows v.store.mostHitsTopURL ∧
      u.store.alertQueue.Grows v.store.alertQueue := by
  cases h with
  | packet heq hr =>
      obtain ⟨-, -, ⟨rfl, -⟩ | ⟨url, -, rfl, -⟩⟩ := Callback.receive_cases hr <;>
        exact ⟨Or.inl rfl, Or.inl rfl⟩
  | capture heq hc =>
      cases hc with
      | putAlert n hpc hflag => exact ⟨Or.inl rfl, Or.inr ⟨_, rfl⟩⟩
      | _ => exact ⟨Or.inl rfl, Or.inl rfl⟩
  | calculator heq hr =>
      cases hr with
      | putTop topFive hpc => exact ⟨Or.inr ⟨topFive, rfl⟩, Or.inl rfl⟩
      | _ => exact ⟨Or.inl rfl, Or.inl rfl⟩
  | tracker heq ha =>
      cases ha with
      | putAlert alert hpc hflag => exact ⟨Or.inl rfl, Or.inr ⟨alert, rfl⟩⟩
      | _ => exact ⟨Or.inl rfl, Or.inl rfl⟩
  | _ => exact ⟨Or.inl rfl, Or.inl rfl⟩

theorem Steps.clock_le {u v : Monitor PcapIf} {e : MonitorEvent} (h : Steps u e v) :
    u.store.clock ≤ v.store.clock := by
  cases h with
  | tick d => exact Int.le.intro d rfl
  | packet heq hr => exact (Callback.receive_clock_eq hr).ge
  | capture heq hc => exact hc.clock_eq.ge
  | calculator heq hr => cases hr <;> exact le_refl _
  | tracker heq ha => exact ha.clock_eq.ge
  | _ => exact le_refl _

end Monitor

namespace Program

variable {PcapIf : Type} [DecidableEq PcapIf] {digit : Char → Option ℕ}

/-! ## The event thread does not wait -/

/-- Where the event thread takes, there is something to take. -/
def Ready (u : Program PcapIf) : Prop :=
  match u.framePc with
  | .mostHitsTake => u.store.mostHitsTopURL.items ≠ []
  | .statsLoop none | .statsTake => u.statsQueue.items ≠ []
  | .statsShow none => False
  | .alertsTake => u.store.alertQueue.items ≠ []
  | _ => True

omit [DecidableEq PcapIf] in
theorem Ready.isSome {u : Program PcapIf} (h : u.Ready) (hpc : u.framePc ≠ .idle) :
    u.stepFrame.isSome = true := by
  unfold Ready at h
  unfold stepFrame
  cases hpc' : u.framePc <;> simp only [hpc'] at h hpc ⊢
  case idle => exact (hpc rfl).elim
  case mostHitsTake =>
      obtain ⟨topURLs, hpeek⟩ := Fifo.exists_peek h
      simp [hpeek]
  case statsTake =>
      obtain ⟨stats, hpeek⟩ := Fifo.exists_peek h
      simp [hpeek]
  case alertsTake =>
      obtain ⟨alert, hpeek⟩ := Fifo.exists_peek h
      simp [hpeek]
  case statsShow stats => cases stats <;> rfl
  all_goals first | rfl | (split <;> rfl)

omit [DecidableEq PcapIf] in
/-- Puts by the other threads do no harm. -/
theorem Ready.grows {u v : Program PcapIf} (h : u.Ready) (hpc : v.framePc = u.framePc)
    (htop : u.store.mostHitsTopURL.Grows v.store.mostHitsTopURL)
    (hstats : u.statsQueue.Grows v.statsQueue)
    (halert : u.store.alertQueue.Grows v.store.alertQueue) : v.Ready := by
  unfold Ready at h ⊢
  rw [hpc]
  cases hpc' : u.framePc <;> simp only [hpc'] at h ⊢
  case mostHitsTake => exact htop.items_ne_nil h
  case statsTake => exact hstats.items_ne_nil h
  case alertsTake => exact halert.items_ne_nil h
  case statsLoop stats =>
      cases stats with
      | none => exact hstats.items_ne_nil h
      | some stats => trivial
  case statsShow stats => cases stats <;> exact h

omit [DecidableEq PcapIf] in
theorem Ready.frame {u v : Program PcapIf} (h : u.Ready) (hs : FrameSteps u v) : v.Ready := by
  cases hs with
  | report hpc hq => exact hq
  | takeReport topURLs hpc hpeek => cases topURLs <;> trivial
  | stats hpc hq => exact hq
  | leaveStats stats hpc hq =>
      cases stats with
      | none =>
          simp only [Ready, hpc] at h
          exact (h hq).elim
      | some stats => trivial
  | moreStats stats hpc hq => exact hq
  | moreAlerts hpc hq => exact hq
  | _ => trivial

theorem Ready.step {u v : Program PcapIf} {e : ProgramEvent} (h : u.Ready)
    (hs : Steps digit u e v) : v.Ready := by
  cases hs with
  | monitor hm =>
      obtain ⟨htop, halert⟩ := (Monitor.step_cases hm).frameQueues
      exact h.grows rfl htop (Or.inl rfl) halert
  | sendStats hs =>
      cases hs with
      | put hpc => exact h.grows rfl (Or.inl rfl) (Or.inr ⟨(), rfl⟩) (Or.inl rfl)
      | _ => exact h
  | edit threshold alert mostHits selectedIndex hidle => exact h
  | click hidle => exact h
  | timer hidle => trivial
  | frame hs => exact h.frame hs

omit [DecidableEq PcapIf] in
theorem ready_initial (form : Form PcapIf) (clock : ℤ) : (initial form clock).Ready := trivial

theorem run_ready {form : Form PcapIf} {clock : ℤ} {es : List ProgramEvent} {u : Program PcapIf}
    (h : (machine digit).run (initial form clock) es = some u) : u.Ready :=
  (machine digit).run_invariant Ready (fun _ _ _ hu hs => hu.step (step_cases digit hs))
    (ready_initial form clock) h

/-- Whatever the other threads do, the event thread is idle or can go on:
it never waits in `take` and never finds `stats` null. -/
theorem frame_never_stuck (digit : Char → Option ℕ) (form : Form PcapIf) (clock : ℤ)
    (es : List ProgramEvent) (u : Program PcapIf)
    (h : (machine digit).run (initial form clock) es = some u) :
    (u.framePc ≠ .idle → ((machine digit).step u .frame).isSome = true) ∧
      u.framePc ≠ .statsShow none := by
  have hready := run_ready h
  refine ⟨hready.isSome, fun hpc => ?_⟩
  simp only [Ready, hpc] at hready

theorem frame_never_stuck_hit : ∃ u : Program ℕ,
    (machine asciiDigit).run (initial everyHit 0) (hitEvents ++ [.timer, .frame]) = some u ∧
      ((machine asciiDigit).step u .frame).isSome = true := by
  have hrun : ((machine asciiDigit).run (initial everyHit 0) (hitEvents ++ [.timer, .frame])).any
      (fun u => decide (u.framePc = .mostHitsTake)) = true := by
    decide +kernel
  obtain ⟨u, hu, htest⟩ := (Option.any_eq_true _ _).1 hrun
  have hpc : u.framePc ≠ .idle := by simp [of_decide_eq_true htest]
  exact ⟨u, hu, (frame_never_stuck asciiDigit everyHit 0 _ u hu).1 hpc⟩

/-! ## The alert history -/

/-- The panel and the two remembered alerts are those of the alerts taken
so far. -/
def Posted (u : Program PcapIf) : Prop :=
  u.alertsFrame = { AlertsFrame.replay u.store.alertQueue.removed with
    alertQueue := u.store.alertQueue }

omit [DecidableEq PcapIf] in
theorem Posted.frame {u v : Program PcapIf} (h : u.Posted) (hs : FrameSteps u v) : v.Posted := by
  cases hs with
  | takeAlert alert hpc hpeek =>
      have hremoved := Fifo.removed_remove hpeek
      have hposted : u.alertsFrame.postAlert alert =
          { AlertsFrame.replay (u.store.alertQueue.removed ++ [alert]) with
            alertQueue := u.store.alertQueue.remove } := by
        rw [h, AlertsFrame.postAlert_withQueue, AlertsFrame.replay_concat]
      rw [← hremoved] at hposted
      unfold Posted
      rw [hposted]
      rfl
  | _ => exact h

theorem Posted.step {u v : Program PcapIf} {e : ProgramEvent} (h : u.Posted)
    (hs : Steps digit u e v) : v.Posted := by
  cases hs with
  | @monitor e m hm =>
      have hremoved := (Monitor.step_cases hm).frameQueues.2.removed_eq
      have hframe : alertsFrame { u with monitor := m } =
          { u.alertsFrame with alertQueue := m.store.alertQueue } := rfl
      unfold Posted at h ⊢
      rw [hframe, h]
      exact congrArg (fun alerts => { AlertsFrame.replay alerts with
        alertQueue := m.store.alertQueue }) hremoved.symm
  | sendStats hs => cases hs <;> exact h
  | edit threshold alert mostHits selectedIndex hidle => exact h
  | click hidle => exact h
  | timer hidle => exact h
  | frame hs => exact h.frame hs

omit [DecidableEq PcapIf] in
theorem posted_initial (form : Form PcapIf) (clock : ℤ) : (initial form clock).Posted := rfl

theorem run_posted {form : Form PcapIf} {clock : ℤ} {es : List ProgramEvent} {u : Program PcapIf}
    (h : (machine digit).run (initial form clock) es = some u) : u.Posted :=
  (machine digit).run_invariant Posted (fun _ _ _ hu hs => hu.step (step_cases digit hs))
    (posted_initial form clock) h

omit [DecidableEq PcapIf] in
theorem Posted.alertsPanel_eq {u : Program PcapIf} (h : u.Posted) :
    u.alertsPanel = (AlertsFrame.replay u.store.alertQueue.removed).alertsPanel :=
  congrArg AlertsFrame.alertsPanel h

theorem Steps.removed_initial {u v : Program PcapIf} {e : ProgramEvent}
    (hs : Steps digit u e v) : u.store.alertQueue.removed <+: v.store.alertQueue.removed := by
  cases hs with
  | monitor hm =>
      have hremoved := (Monitor.step_cases hm).frameQueues.2.removed_eq
      exact hremoved ▸ List.prefix_rfl
  | sendStats hs => cases hs <;> exact List.prefix_rfl
  | frame hs =>
      cases hs with
      | takeAlert alert hpc hpeek =>
          have hremoved := Fifo.removed_remove hpeek
          rw [← alertQueue_postAlert u alert] at hremoved
          exact ⟨[alert], hremoved.symm⟩
      | _ => exact List.prefix_rfl
  | _ => exact List.prefix_rfl

/-- However clicks, ticks and the other threads interleave, the panel is
that of the alerts taken, which are the first of those put, posted one after
the other: it shows their blocks, the rows alternate, and no row ever goes. -/
theorem panel_shows_history (digit : Char → Option ℕ) (form : Form PcapIf) (clock : ℤ)
    (es : List ProgramEvent) (u : Program PcapIf)
    (h : (machine digit).run (initial form clock) es = some u) :
    u.alertsPanel = (AlertsFrame.replay u.store.alertQueue.removed).alertsPanel ∧
      u.alertsPanel.map AlertRow.withoutPeak =
        (AlertsFrame.shownBlocks u.store.alertQueue.removed).flatMap AlertsFrame.blockRows ∧
      (∃ n more, u.alertsPanel.map AlertRow.kind =
        (List.replicate n [RowKind.high, .peak, .normal]).flatten ++ more ∧
          (more = [] ∨ more = [.high])) ∧
      u.store.alertQueue.removed ++ u.store.alertQueue.items = u.store.alertQueue.log ∧
      ∀ es' v, (machine digit).run u es' = some v → u.alertsPanel <+: v.alertsPanel := by
  have hposted := run_posted h
  rw [hposted.alertsPanel_eq]
  refine ⟨rfl, ?_, ?_, Fifo.removed_append_items _, ?_⟩
  · unfold AlertsFrame.shownBlocks
    rw [← AlertsFrame.flatMap_heads, ← Blocks.edges_eq_heads]
    exact AlertsFrame.map_withoutPeak_foldl AlertsFrame.initial _
  · obtain ⟨n, hn⟩ := AlertsFrame.kinds_replay u.store.alertQueue.removed
    refine ⟨n, _, hn, ?_⟩
    split
    · exact Or.inr rfl
    · exact Or.inl rfl
  · intro es' v hrun
    have hv := (machine digit).run_invariant Posted
      (fun _ _ _ hu hs => hu.step (step_cases digit hs)) hposted hrun
    have hprefix := (machine digit).run_relation (fun _ => True)
      (fun u v => u.store.alertQueue.removed <+: v.store.alertQueue.removed)
      (fun _ => List.prefix_rfl) (fun _ _ _ huv hvw => huv.trans hvw)
      (fun _ _ _ _ hs => ⟨trivial, (step_cases digit hs).removed_initial⟩) trivial hrun
    obtain ⟨more, hmore⟩ := hprefix
    rw [hv.alertsPanel_eq, ← hmore, AlertsFrame.replay_append]
    exact AlertsFrame.alertsPanel_foldl_prefix _ _

theorem panel_shows_history_hit : ∃ u : Program ℕ,
    (machine asciiDigit).run (initial everyHit 0) (hitEvents ++ tickEvents) = some u ∧
      u.alertsPanel.map AlertRow.kind = [.high] ∧
      u.alertsPanel = (AlertsFrame.replay u.store.alertQueue.removed).alertsPanel := by
  have hrun : ((machine asciiDigit).run (initial everyHit 0) (hitEvents ++ tickEvents)).any
      (fun u => decide (u.alertsPanel.map AlertRow.kind = [.high])) = true := by
    decide +kernel
  obtain ⟨u, hu, htest⟩ := (Option.any_eq_true _ _).1 hrun
  exact ⟨u, hu, of_decide_eq_true htest, (panel_shows_history asciiDigit everyHit 0 _ u hu).1⟩

/-! ## A whole tick -/

omit [DecidableEq PcapIf] in
theorem FrameSteps.statsQueue_initial {u v : Program PcapIf} (hs : FrameSteps u v) :
    v.statsQueue.log = u.statsQueue.log ∧ u.statsQueue.removed <+: v.statsQueue.removed := by
  cases hs with
  | takeStats hpc hq =>
      obtain ⟨stats, hpeek⟩ := Fifo.exists_peek hq
      exact ⟨rfl, [stats], (Fifo.removed_remove hpeek).symm⟩
  | _ => exact ⟨rfl, List.prefix_rfl⟩

theorem Steps.queues_initial {u v : Program PcapIf} {e : ProgramEvent} (hs : Steps digit u e v) :
    u.store.alertQueue.log <+: v.store.alertQueue.log ∧ u.statsQueue.log <+: v.statsQueue.log ∧
      u.statsQueue.removed <+: v.statsQueue.removed := by
  cases hs with
  | monitor hm =>
      refine ⟨?_, List.prefix_rfl, List.prefix_rfl⟩
      exact (Monitor.step_cases hm).frameQueues.2.log_initial
  | sendStats hs =>
      cases hs with
      | put hpc =>
          refine ⟨List.prefix_rfl, ⟨[()], rfl⟩, ?_⟩
          exact (Fifo.removed_put u.statsQueue ()).symm ▸ List.prefix_rfl
      | _ => exact ⟨List.prefix_rfl, List.prefix_rfl, List.prefix_rfl⟩
  | frame hs =>
      obtain ⟨hlog, hremoved⟩ := hs.statsQueue_initial
      refine ⟨?_, hlog ▸ List.prefix_rfl, hremoved⟩
      cases hs with
      | takeAlert alert hpc hpeek =>
          have hlog := congrArg Fifo.log (alertQueue_postAlert u alert)
          exact hlog ▸ List.prefix_rfl
      | _ => exact List.prefix_rfl
  | _ => exact ⟨List.prefix_rfl, List.prefix_rfl, List.prefix_rfl⟩

/-- The tick has not got to `updateStatsTable`, or is in its loop. -/
def BeforeStats (u : Program PcapIf) : Prop :=
  match u.framePc with
  | .mostHitsTest | .mostHitsTake | .mostHitsRows _ | .statsTest | .statsLoop _ | .statsTake => True
  | _ => False

/-- What has been put before the tick is taken before it ends. -/
structure Draining (alerts : List Alert) (stats : List Unit) (u : Program PcapIf) : Prop where
  ready : u.Ready
  alerts_log : alerts <+: u.store.alertQueue.log
  alerts_taken : alerts <+: u.store.alertQueue.removed ∨ u.framePc ≠ .idle
  stats_log : stats <+: u.statsQueue.log
  stats_taken : stats <+: u.statsQueue.removed ∨ u.BeforeStats

omit [DecidableEq PcapIf] in
theorem Draining.alerts_frame {alerts : List Alert} {stats : List Unit} {u v : Program PcapIf}
    (h : u.Draining alerts stats) (hs : FrameSteps u v) :
    alerts <+: v.store.alertQueue.removed ∨ v.framePc ≠ .idle := by
  obtain ⟨hready, hlog, -⟩ := h
  cases hs with
  | noAlert hpc hq => exact Or.inl ((Fifo.removed_eq_log hq).symm ▸ hlog)
  | leaveAlerts hpc hq => exact Or.inl ((Fifo.removed_eq_log hq).symm ▸ hlog)
  | nullStats hpc => simp [Ready, hpc] at hready
  | takeReport topURLs hpc hpeek =>
      refine Or.inr ?_
      simp only [goto]
      split <;> simp
  | _ => exact Or.inr (by simp [goto])

omit [DecidableEq PcapIf] in
theorem Draining.stats_frame {alerts : List Alert} {stats : List Unit} {u v : Program PcapIf}
    (h : u.Draining alerts stats) (hbefore : u.BeforeStats) (hs : FrameSteps u v) :
    stats <+: v.statsQueue.removed ∨ v.BeforeStats := by
  have hlog := h.stats_log
  cases hs with
  | noStats hpc hq => exact Or.inl ((Fifo.removed_eq_log hq).symm ▸ hlog)
  | leaveStats s hpc hq => exact Or.inl ((Fifo.removed_eq_log hq).symm ▸ hlog)
  | takeReport topURLs hpc hpeek => cases topURLs <;> exact Or.inr trivial
  | noReport hpc hq => exact Or.inr trivial
  | report hpc hq => exact Or.inr trivial
  | showReport topURLs hpc => exact Or.inr trivial
  | stats hpc hq => exact Or.inr trivial
  | moreStats s hpc hq => exact Or.inr trivial
  | takeStats hpc hq => exact Or.inr trivial
  | _ => simp_all [BeforeStats]

theorem Draining.step {alerts : List Alert} {stats : List Unit} {u v : Program PcapIf}
    {e : ProgramEvent} (h : u.Draining alerts stats) (hs : Steps digit u e v) :
    v.Draining alerts stats := by
  obtain ⟨halerts, hstats, hremovedStats⟩ := hs.queues_initial
  have hremoved := hs.removed_initial
  refine ⟨h.ready.step hs, h.alerts_log.trans halerts, ?_, h.stats_log.trans hstats, ?_⟩
  · refine h.alerts_taken.elim (fun htaken => Or.inl (htaken.trans hremoved)) fun hpc => ?_
    cases hs with
    | monitor hm => exact Or.inr hpc
    | sendStats hs => cases hs <;> exact Or.inr hpc
    | frame hs => exact h.alerts_frame hs
    | edit threshold alert mostHits selectedIndex hidle => exact (hpc hidle).elim
    | click hidle => exact (hpc hidle).elim
    | timer hidle => exact (hpc hidle).elim
  · refine h.stats_taken.elim (fun htaken => Or.inl (htaken.trans hremovedStats)) fun hbefore => ?_
    cases hs with
    | monitor hm => exact Or.inr hbefore
    | sendStats hs => cases hs <;> exact Or.inr hbefore
    | frame hs => exact h.stats_frame hbefore hs
    | edit threshold alert mostHits selectedIndex hidle => simp [BeforeStats, hidle] at hbefore
    | click hidle => simp [BeforeStats, hidle] at hbefore
    | timer hidle => simp [BeforeStats, hidle] at hbefore

theorem Ready.tick {u v : Program PcapIf} {es : List ProgramEvent} (h : u.Ready)
    (hpc : u.framePc = .mostHitsTest) (hrun : (machine digit).run u es = some v)
    (hidle : v.framePc = .idle) :
    u.store.alertQueue.log <+: v.store.alertQueue.removed ∧
      u.statsQueue.log <+: v.statsQueue.removed := by
  have hbefore : u.BeforeStats := by simp [BeforeStats, hpc]
  have hdraining := (machine digit).run_invariant
    (Draining u.store.alertQueue.log u.statsQueue.log)
    (fun _ _ _ hu hs => hu.step (step_cases digit hs))
    ⟨h, List.prefix_rfl, Or.inr (by simp [hpc]), List.prefix_rfl, Or.inr hbefore⟩ hrun
  exact ⟨hdraining.alerts_taken.resolve_right (by simp [hidle]),
    hdraining.stats_taken.resolve_right (by simp [BeforeStats, hidle])⟩

/-- When a tick is over, all alerts and stats put before it began have been
taken, whatever was put meanwhile, so the panel has a row for each of these
alerts that changed the state of the traffic. -/
theorem tick_takes_all (digit : Char → Option ℕ) (form : Form PcapIf) (clock : ℤ)
    (es : List ProgramEvent) (u v : Program PcapIf)
    (h : (machine digit).run (initial form clock) es = some u) (hpc : u.framePc = .mostHitsTest)
    (es' : List ProgramEvent) (hrun : (machine digit).run u es' = some v)
    (hidle : v.framePc = .idle) :
    u.store.alertQueue.log <+: v.store.alertQueue.removed ∧
      u.statsQueue.log <+: v.statsQueue.removed ∧
      (AlertsFrame.replay u.store.alertQueue.log).alertsPanel <+: v.alertsPanel := by
  have hall := (machine digit).run_append_iff.2 ⟨u, h, hrun⟩
  obtain ⟨halerts, hstats⟩ := (run_ready h).tick hpc hrun hidle
  refine ⟨halerts, hstats, ?_⟩
  obtain ⟨more, hmore⟩ := halerts
  rw [(run_posted hall).alertsPanel_eq, ← hmore, AlertsFrame.replay_append]
  exact AlertsFrame.alertsPanel_foldl_prefix _ _

theorem tick_takes_all_hit : ∃ u v : Program ℕ,
    (machine asciiDigit).run (initial everyHit 0) (hitEvents ++ [.timer]) = some u ∧
      (machine asciiDigit).run u (List.replicate 12 .frame) = some v ∧
      u.store.alertQueue.log.length = 1 ∧
      u.store.alertQueue.log <+: v.store.alertQueue.removed := by
  have hrun : ((machine asciiDigit).run (initial everyHit 0) (hitEvents ++ [.timer])).any
      (fun u => decide (u.framePc = .mostHitsTest ∧ u.store.alertQueue.log.length = 1) &&
        ((machine asciiDigit).run u (List.replicate 12 .frame)).any fun v =>
          decide (v.framePc = .idle)) = true := by
    decide +kernel
  obtain ⟨u, hu, htest⟩ := (Option.any_eq_true _ _).1 hrun
  obtain ⟨htick, hrest⟩ := (Bool.and_eq_true _ _).mp htest
  obtain ⟨hpc, hlog⟩ := of_decide_eq_true htick
  obtain ⟨v, hv, hidle⟩ := (Option.any_eq_true _ _).1 hrest
  exact ⟨u, v, hu, hv, hlog,
    (tick_takes_all asciiDigit everyHit 0 _ u v hu hpc _ hv (of_decide_eq_true hidle)).1⟩

end Program

end HttpLogMonitor
