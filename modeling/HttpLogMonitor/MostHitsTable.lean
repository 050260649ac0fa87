import HttpLogMonitor.ReportAccounts

/-!
# The table of most hits

`updateMostHitsTable` runs on every tick of the user interface. It takes
one report, where `updateStatsTable` and `postAlerts` empty their queues,
so the table falls behind as soon as two reports come between two ticks.
-/

namespace HttpLogMonitor

/-- A row of the table, `none` for one with null cells. -/
abbrev TableRow := Option (JavaString × Int32)

structure MostHitsFrame where
  reports : ReportSystem
  mostHitsTable : List TableRow

inductive FrameEvent where
  | report (e : ReportEvent)
  | uiTick
  deriving DecidableEq

namespace MostHitsFrame

def initial (clock : ℤ) : MostHitsFrame where
  reports := ReportSystem.initial clock
  mostHitsTable := List.replicate 5 none

def mostHitsTopURL (u : MostHitsFrame) : Fifo (List HttpObject) := u.reports.store.mostHitsTopURL

def tableRows (u : MostHitsFrame) (topURLs : List HttpObject) : List TableRow :=
  topURLs.map fun obj =>
    some (Utility.sectionOf obj.url, u.reports.store.heap.getHitCount obj)

def withQueue (u : MostHitsFrame) (q : Fifo (List HttpObject)) : ReportSystem :=
  { u.reports with store := { u.reports.store with mostHitsTopURL := q } }

def updateMostHitsTable (u : MostHitsFrame) : MostHitsFrame :=
  match u.mostHitsTopURL.peek with
  | none => u
  | some topURLs =>
      { reports := u.withQueue u.mostHitsTopURL.remove
        mostHitsTable := if topURLs.isEmpty then u.mostHitsTable else u.tableRows topURLs }

def step (u : MostHitsFrame) : FrameEvent → Option MostHitsFrame
  | .report e => (ReportSystem.machine.step u.reports e).map fun reports => { u with reports := reports }
  | .uiTick => some u.updateMostHitsTable

def machine : Machine MostHitsFrame FrameEvent := ⟨step⟩

/-- The newest of these reports that has a row. -/
def newest (reports : List (List HttpObject)) : Option (List HttpObject) :=
  (reports.filter fun topURLs => !topURLs.isEmpty).getLast?

/-- The rows of the report, or those of the new table. -/
def rowsOrBlank (u : MostHitsFrame) (topURLs : Option (List HttpObject)) : List TableRow :=
  (topURLs.map u.tableRows).getD (List.replicate 5 none)

structure Shown (u : MostHitsFrame) : Prop where
  accounted : u.reports.Accounted
  table : u.mostHitsTable = u.rowsOrBlank (newest u.mostHitsTopURL.removed)

theorem newest_concat (reports : List (List HttpObject)) (topURLs : List HttpObject) :
    newest (reports ++ [topURLs]) = if topURLs = [] then newest reports else some topURLs := by
  cases topURLs with
  | nil => simp [newest]
  | cons obj rest => simp [newest]

theorem newest_mem {reports : List (List HttpObject)} {topURLs : List HttpObject}
    (h : newest reports = some topURLs) : topURLs ∈ reports ∧ topURLs ≠ [] := by
  have hmem := List.mem_of_getLast? h
  rw [List.mem_filter] at hmem
  exact ⟨hmem.1, by simpa using hmem.2⟩

/-- Only the ticks take reports. -/
theorem removed_of_steps {u v : ReportSystem} (h : ReportSystem.Steps u v) :
    v.store.mostHitsTopURL.removed = u.store.mostHitsTopURL.removed := by
  cases h with
  | tick d => rfl
  | capture => rfl
  | start => rfl
  | callback heq hc =>
      cases hc with
      | quiet hheap hqueue htop hnext hnewHits => exact congrArg Fifo.removed htop
      | create url hs hc hc' =>
          subst hs
          rfl
      | put hit hs hc hc' =>
          subst hs
          rfl
  | calculator heq hr =>
      cases hr with
      | putTop topFive hpc => exact Fifo.removed_put _ topFive
      | _ => rfl

theorem rowsOrBlank_of_keeps {u v : MostHitsFrame} (h : u.reports.Keeps v.reports)
    {reports : List (List HttpObject)} (hsub : reports ⊆ u.mostHitsTopURL.log) :
    v.rowsOrBlank (newest reports) = u.rowsOrBlank (newest reports) := by
  cases hnewest : newest reports with
  | none => rfl
  | some topURLs =>
      have hcounts := (h topURLs (hsub (newest_mem hnewest).1)).2
      apply List.map_congr_left
      intro obj hobj
      rw [hcounts obj hobj]

theorem removed_subset_log {α : Type*} (q : Fifo α) : q.removed ⊆ q.log := by
  rw [← q.removed_append_items]
  exact List.subset_append_left _ _

theorem withQueue_accounted {u : MostHitsFrame} (hu : u.reports.Accounted) :
    (u.withQueue u.mostHitsTopURL.remove).Accounted :=
  ⟨hu.tally, hu.ledger, hu.distinct, hu.created, hu.publishing, hu.published⟩

/-- After a tick the table shows the newest report with a row among those
taken, the one at the head of the queue included. -/
theorem Shown.tick {u : MostHitsFrame} (hu : u.Shown) :
    u.updateMostHitsTable.Shown ∧ u.updateMostHitsTable.mostHitsTable =
      u.rowsOrBlank (newest (u.mostHitsTopURL.removed ++ u.mostHitsTopURL.items.take 1)) := by
  unfold updateMostHitsTable
  cases hpeek : u.mostHitsTopURL.peek with
  | none =>
      have hitems : u.mostHitsTopURL.items = [] := List.head?_eq_none_iff.1 hpeek
      rw [hitems, List.take_nil, List.append_nil]
      exact ⟨hu, hu.table⟩
  | some topURLs =>
      have hremoved := Fifo.removed_remove hpeek
      have hitems : u.mostHitsTopURL.items.take 1 = [topURLs] := by
        rw [Fifo.items_eq_of_peek hpeek]
        rfl
      have htable : (if topURLs.isEmpty then u.mostHitsTable else u.tableRows topURLs) =
          u.rowsOrBlank (newest (u.mostHitsTopURL.removed ++ [topURLs])) := by
        rw [newest_concat, hu.table]
        cases topURLs with
        | nil => rfl
        | cons obj rest => rfl
      rw [hitems]
      refine ⟨⟨withQueue_accounted hu.accounted, ?_⟩, htable⟩
      exact htable.trans (congrArg (fun reports => u.rowsOrBlank (newest reports)) hremoved.symm)

theorem Shown.step {u v : MostHitsFrame} {e : FrameEvent} (hu : u.Shown)
    (h : machine.step u e = some v) : v.Shown := by
  cases e with
  | report e =>
      obtain ⟨reports, hstep, rfl⟩ := Option.map_eq_some_iff.1 h
      have hsteps := ReportSystem.step_cases hstep
      refine ⟨hu.accounted.step hsteps, ?_⟩
      have hremoved := removed_of_steps hsteps
      have hkeeps := rowsOrBlank_of_keeps (v := { u with reports := reports })
        (hu.accounted.keeps_step hsteps) (removed_subset_log u.mostHitsTopURL)
      rw [hu.table, ← hkeeps]
      exact congrArg (fun taken => rowsOrBlank _ (newest taken)) hremoved.symm
  | uiTick =>
      cases h
      exact hu.tick.1

theorem shown_initial (clock : ℤ) : (initial clock).Shown :=
  ⟨ReportSystem.accounted_initial clock, rfl⟩

theorem run_shown {clock : ℤ} {u : MostHitsFrame} {es : List FrameEvent}
    (h : machine.run (initial clock) es = some u) : u.Shown :=
  machine.run_invariant Shown (fun _ _ _ hu hs => hu.step hs) (shown_initial clock) h

theorem tableRows_updateMostHitsTable (u : MostHitsFrame) (topURLs : List HttpObject) :
    u.updateMostHitsTable.tableRows topURLs = u.tableRows topURLs := by
  unfold updateMostHitsTable
  cases u.mostHitsTopURL.peek with
  | none => rfl
  | some head => rfl

theorem newest_eq_last {q : Fifo (List HttpObject)} {last : List HttpObject} (hsize : q.size ≤ 1)
    (hlast : q.log.getLast? = some last) (hne : last ≠ []) :
    newest (q.removed ++ q.items.take 1) = some last := by
  obtain ⟨earlier, hlog⟩ := List.getLast?_eq_some_iff.1 hlast
  rw [List.take_of_length_le hsize, q.removed_append_items, hlog, newest_concat, if_neg hne]

/-- A tick that finds at most one report waiting shows the last published
one, provided it has a row. -/
theorem Shown.tick_last {u : MostHitsFrame} (hu : u.Shown) (hsize : u.mostHitsTopURL.size ≤ 1)
    {last : List HttpObject} (hlast : u.mostHitsTopURL.log.getLast? = some last)
    (hne : last ≠ []) : u.updateMostHitsTable.mostHitsTable = u.tableRows last := by
  rw [hu.tick.2, newest_eq_last hsize hlast hne]
  rfl

/-- Right after a tick the table shows the last published report exactly
when that report has a row and either no other report waits with it, or
the older report shown instead happens to have the same rows. -/
theorem table_shows_last_iff (clock : ℤ) (es : List FrameEvent) (u v : MostHitsFrame)
    (h : machine.run (initial clock) es = some u) (htick : machine.step u .uiTick = some v)
    (last : List HttpObject) (hlast : u.mostHitsTopURL.log.getLast? = some last) :
    v.mostHitsTable = v.tableRows last ↔ last ≠ [] ∧ (u.mostHitsTopURL.size ≤ 1 ∨
      1 < u.mostHitsTopURL.size ∧
        ∃ shown, newest (u.mostHitsTopURL.removed ++ u.mostHitsTopURL.items.take 1) = some shown ∧
          u.tableRows shown = u.tableRows last) := by
  cases htick
  have hshown := run_shown h
  rw [tableRows_updateMostHitsTable]
  constructor
  · intro heq
    rw [hshown.tick.2] at heq
    cases hnewest : newest (u.mostHitsTopURL.removed ++ u.mostHitsTopURL.items.take 1) with
    | none =>
        rw [hnewest] at heq
        cases last with
        | nil => simp [rowsOrBlank, tableRows] at heq
        | cons obj rest => simp [rowsOrBlank, tableRows, List.replicate_succ] at heq
    | some shown =>
        rw [hnewest] at heq
        refine ⟨?_, (le_or_gt _ 1).imp_right fun hlarge => ⟨hlarge, shown, rfl, heq⟩⟩
        rintro rfl
        exact (newest_mem hnewest).2 (List.map_eq_nil_iff.1 heq)
  · rintro ⟨hne, hsize | ⟨-, shown, hnewest, heq⟩⟩
    · exact hshown.tick_last hsize hlast hne
    · rw [hshown.tick.2, hnewest]
      exact heq

/-- One request, and a run of the calculator that counts it. -/
def hitAndReport (run : ℕ) (hit : HttpObject) : List FrameEvent :=
  List.map FrameEvent.report
    [.packet 0 (.request hit.url), .callback 0 10, .callback 0 10, .callback 0 10, .callback 0 10,
      .callback 0 10, .start, .calculator run [], .calculator run [], .calculator run [],
      .calculator run [], .calculator run [], .calculator run [hit], .calculator run []]

def firstHit : HttpObject := ⟨0, "http://a".toList, 0⟩

def secondHit : HttpObject := ⟨1, "http://b".toList, 0⟩

/-- Two reports are published before the next tick. -/
def twoReports : List FrameEvent :=
  List.flatten [[.report .capture], hitAndReport 0 firstHit, hitAndReport 1 secondHit]

theorem table_shows_last_iff_one_report : ∃ u v,
    machine.run (initial 0) (.report .capture :: hitAndReport 0 firstHit) = some u ∧
      machine.step u .uiTick = some v ∧ v.mostHitsTable = v.tableRows [firstHit] := by
  have hrun : (machine.run (initial 0) (.report .capture :: hitAndReport 0 firstHit)).any
      (fun u => decide (u.mostHitsTopURL.log = [[firstHit]])) = true := by
    decide
  obtain ⟨u, hu, htest⟩ := (Option.any_eq_true _ _).1 hrun
  have hlog := of_decide_eq_true htest
  have hsize : u.mostHitsTopURL.size ≤ 1 := by
    have hle := u.mostHitsTopURL.items_suffix.length_le
    rw [hlog] at hle
    exact hle
  refine ⟨u, _, hu, rfl, ?_⟩
  exact (table_shows_last_iff 0 _ u _ hu rfl [firstHit] (by rw [hlog]; rfl)).2
    ⟨List.cons_ne_nil _ _, Or.inl hsize⟩

theorem table_shows_older_report :
    ¬ ∀ (clock : ℤ) (es : List FrameEvent) (u v : MostHitsFrame),
      machine.run (initial clock) es = some u → machine.step u .uiTick = some v →
      ∀ last, u.mostHitsTopURL.log.getLast? = some last → v.mostHitsTable = v.tableRows last := by
  intro h
  have hrun : (machine.run (initial 0) twoReports).any (fun u =>
      decide (u.mostHitsTopURL.log.getLast? = some [secondHit] ∧
        u.updateMostHitsTable.mostHitsTable ≠ u.updateMostHitsTable.tableRows [secondHit])) =
          true := by
    decide
  obtain ⟨u, hu, htest⟩ := (Option.any_eq_true _ _).1 hrun
  obtain ⟨hlast, hne⟩ := of_decide_eq_true htest
  exact hne (h 0 twoReports u _ hu rfl [secondHit] hlast)

end MostHitsFrame

end HttpLogMonitor
