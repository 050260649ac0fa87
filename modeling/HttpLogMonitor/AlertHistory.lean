import HttpLogMonitor.PostAlerts

/-!
# The alert history as blocks of the alert stream

The rows of the panel are those of the maximal blocks of alerts of one
type, a leading block without high traffic left out. What a peak row says
is left open here.
-/

namespace HttpLogMonitor

inductive RowKind where
  | high
  | peak
  | normal
  deriving DecidableEq

namespace AlertRow

def kind : AlertRow → RowKind
  | highTraffic _ _ => .high
  | peakTraffic _ _ => .peak
  | backToNormal _ _ => .normal

/-- A peak row keeps nothing but its kind. -/
def withoutPeak : AlertRow → AlertRow
  | peakTraffic _ _ => peakTraffic 0 none
  | row => row

theorem head?_text (dateText : ℤ → JavaString) (row : AlertRow) :
    (row.text dateText).head? =
      some (match row.kind with | .high => 'H' | .peak => 'P' | .normal => 'T') := by
  have hhigh : "High traffic alert - hits = ".toList.head? = some 'H' := by decide
  have hpeak : "Peak traffic - hits = ".toList.head? = some 'P' := by decide
  have hnormal : "Traffic back to normal - hits = ".toList.head? = some 'T' := by decide
  cases row with
  | highTraffic hitCount alertTime =>
      change ("High traffic alert - hits = ".toList ++ intText hitCount ++ ", triggered at ".toList ++
        dateText alertTime).head? = _
      rw [List.append_assoc, List.append_assoc, List.head?_append, hhigh]
      rfl
  | peakTraffic hitCount alertTime =>
      change ("Peak traffic - hits = ".toList ++ intText hitCount ++ ", triggered at ".toList ++
        (alertTime.map dateText).getD "null".toList).head? = _
      rw [List.append_assoc, List.append_assoc, List.head?_append, hpeak]
      rfl
  | backToNormal hitCount alertTime =>
      change ("Traffic back to normal - hits = ".toList ++ intText hitCount ++ ", at ".toList ++
        dateText alertTime).head? = _
      rw [List.append_assoc, List.append_assoc, List.head?_append, hnormal]
      rfl

/-- Rows of different kinds are told apart by their texts. -/
theorem kind_eq_of_text_eq {dateText : ℤ → JavaString} {row other : AlertRow}
    (h : row.text dateText = other.text dateText) : row.kind = other.kind := by
  have hhead := congrArg List.head? h
  rw [head?_text, head?_text, Option.some.injEq] at hhead
  revert hhead
  cases row.kind <;> cases other.kind <;> decide

end AlertRow

namespace AlertsFrame

/-- The rows of a block of alerts of one type. -/
def blockRows : List Alert → List AlertRow
  | [] => []
  | alert :: _ =>
      if alert.alertType then [.highTraffic alert.hitCount alert.alertTime]
      else [.peakTraffic 0 none, .backToNormal alert.hitCount alert.alertTime]

def shownBlocks (alerts : List Alert) : List (List Alert) :=
  Blocks.dropLeading Alert.alertType false (Blocks.blocks Alert.alertType alerts)

theorem map_withoutPeak_newRows (peak : FrameAlert) (alert : Alert) :
    (newRows peak alert).map AlertRow.withoutPeak = blockRows [alert] := by
  cases ha : alert.alertType with
  | true => simp [newRows, blockRows, ha, AlertRow.withoutPeak]
  | false => simp [newRows, blockRows, ha, AlertRow.withoutPeak]

theorem map_withoutPeak_foldl (frame : AlertsFrame) (alerts : List Alert) :
    (alerts.foldl postAlert frame).alertsPanel.map AlertRow.withoutPeak =
      frame.alertsPanel.map AlertRow.withoutPeak ++
        (Blocks.edges Alert.alertType frame.previousAlert.alertType alerts).flatMap
          fun alert => blockRows [alert] := by
  induction alerts generalizing frame with
  | nil => exact (List.append_nil _).symm
  | cons a as ih =>
      have htype : (frame.postAlert a).previousAlert.alertType = a.alertType := rfl
      rw [List.foldl_cons, ih, alertsPanel_postAlert, htype, Blocks.edges]
      by_cases hsame : a.alertType = frame.previousAlert.alertType
      · rw [if_pos hsame, if_pos hsame, List.append_nil]
      · rw [if_neg hsame, if_neg hsame, List.map_append, map_withoutPeak_newRows,
          List.flatMap_cons, List.append_assoc]

theorem flatMap_heads (blocks : List (List Alert)) :
    (blocks.filterMap List.head?).flatMap (fun alert => blockRows [alert]) =
      blocks.flatMap blockRows := by
  induction blocks with
  | nil => rfl
  | cons block rest ih =>
      cases block with
      | nil => exact ih
      | cons a as =>
          rw [List.filterMap_cons_some List.head?_cons, List.flatMap_cons, List.flatMap_cons, ih]
          rfl

/-- High rows and pairs of a peak and a normal row alternate. -/
theorem kinds_replay (alerts : List Alert) :
    ∃ n, (replay alerts).alertsPanel.map AlertRow.kind =
      (List.replicate n [RowKind.high, .peak, .normal]).flatten ++
        if (replay alerts).previousAlert.alertType then [.high] else [] := by
  induction alerts using List.reverseRecOn with
  | nil => exact ⟨0, rfl⟩
  | append_singleton alerts a ih =>
      obtain ⟨n, hn⟩ := ih
      have htype : ((replay alerts).postAlert a).previousAlert.alertType = a.alertType := rfl
      rw [replay_concat, alertsPanel_postAlert, htype, List.map_append, hn]
      cases hprev : (replay alerts).previousAlert.alertType with
      | false =>
          cases ha : a.alertType with
          | false => exact ⟨n, by simp⟩
          | true => exact ⟨n, by simp [newRows, ha, AlertRow.kind]⟩
      | true =>
          cases ha : a.alertType with
          | false =>
              refine ⟨n + 1, ?_⟩
              simp [newRows, ha, AlertRow.kind, List.replicate_succ']
          | true => exact ⟨n, by simp⟩

/-- The rows after all alerts have been posted, however they came in
ticks. -/
theorem alertsPanel_eq_blocks (batches : List (List Alert)) :
    (posted batches).alertQueue.items = [] ∧
      (posted batches).alertQueue.log = batches.flatten ∧
      (posted batches).alertsPanel.map AlertRow.withoutPeak =
        (shownBlocks batches.flatten).flatMap blockRows ∧
      (∀ earlier, earlier <+: batches →
        (posted earlier).alertsPanel <+: (posted batches).alertsPanel) ∧
      (∃ n more, (posted batches).alertsPanel.map AlertRow.kind =
        (List.replicate n [RowKind.high, .peak, .normal]).flatten ++ more ∧
          (more = [] ∨ more = [.high])) ∧
      ∀ others : List (List Alert), others.flatten = batches.flatten →
        (posted others).alertsPanel = (posted batches).alertsPanel := by
  obtain ⟨q, hitems, hlog, heq⟩ := posted_eq batches
  refine ⟨?_, ?_, ?_, ?_, ?_, ?_⟩
  · rw [heq]
    exact hitems
  · rw [heq]
    exact hlog
  · rw [alertsPanel_posted]
    unfold shownBlocks
    rw [← flatMap_heads, ← Blocks.edges_eq_heads]
    exact map_withoutPeak_foldl initial batches.flatten
  · rintro earlier ⟨later, rfl⟩
    rw [alertsPanel_posted, alertsPanel_posted, List.flatten_append, replay_append]
    exact alertsPanel_foldl_prefix _ _
  · obtain ⟨n, hn⟩ := kinds_replay batches.flatten
    rw [alertsPanel_posted]
    refine ⟨n, _, hn, ?_⟩
    split
    · exact Or.inr rfl
    · exact Or.inl rfl
  · intro others hflat
    rw [alertsPanel_posted, alertsPanel_posted, hflat]

end AlertsFrame

end HttpLogMonitor
