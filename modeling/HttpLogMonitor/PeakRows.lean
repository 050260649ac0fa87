import Mathlib.Data.List.DropRight
import HttpLogMonitor.AlertHistory
import HttpLogMonitor.Library.Selection

/-!
# What a peak row reports

The running peak is reset by the first recovery alert and then compared
with every alert, that one included. So a peak row takes the maximum over
the recovery alerts before its episode and over the episode.
-/

namespace HttpLogMonitor.AlertsFrame

/-- The order by which `argmax` compares, as a computable instance. -/
local instance intPreorder : Preorder ℤ := Int.instLinearOrder.toPreorder

/-- The first alert of greatest `hitCount`, as the frame keeps it. -/
def peakOf (alerts : List Alert) : FrameAlert :=
  (alerts.argmax Alert.hitCount).elim noPeak Alert.inFrame

def keepPeak (peak : FrameAlert) (alert : Alert) : FrameAlert :=
  if peak.hitCount < alert.hitCount then alert.inFrame else peak

theorem foldl_keepPeak {alerts : List Alert} (hpos : ∀ a ∈ alerts, 0 < a.hitCount) :
    alerts.foldl keepPeak noPeak = peakOf alerts := by
  induction alerts using List.reverseRecOn with
  | nil => rfl
  | append_singleton alerts a ih =>
      have ha : 0 < a.hitCount := hpos a (by simp)
      have hprev := ih fun b hb => hpos b (List.mem_append_left _ hb)
      rw [List.foldl_concat, hprev]
      unfold peakOf keepPeak
      rw [List.argmax_concat]
      cases hmax : alerts.argmax Alert.hitCount with
      | none => simp [noPeak, ha]
      | some c => grind [Alert.inFrame]

/-- Alerts of one type reset nothing, unless they are the first to go
back to normal. -/
theorem previousPeakAlert_foldl (frame : AlertsFrame) {type : Bool} {alerts : List Alert}
    (h : ∀ a ∈ alerts, a.alertType = type)
    (hframe : type = true ∨ frame.previousAlert.alertType = false) :
    (alerts.foldl postAlert frame).previousPeakAlert =
      alerts.foldl keepPeak frame.previousPeakAlert := by
  induction alerts generalizing frame with
  | nil => rfl
  | cons a as ih =>
      obtain ⟨ha, has⟩ := List.forall_mem_cons.1 h
      have hbefore : frame.peakBefore a = frame.previousPeakAlert := by
        unfold peakBefore
        apply if_neg
        rintro ⟨hlow, hhigh⟩
        rcases hframe with htrue | hfalse
        · rw [ha, htrue] at hlow
          exact Bool.noConfusion hlow
        · rw [hfalse] at hhigh
          exact Bool.noConfusion hhigh
      have hnext : type = true ∨ (frame.postAlert a).previousAlert.alertType = false := by
        rw [previousAlert_postAlert, ← ha]
        exact (Bool.eq_false_or_eq_true a.alertType)
      rw [List.foldl_cons, List.foldl_cons, ih _ has hnext, previousPeakAlert_postAlert, hbefore]
      rfl

theorem previousPeakAlert_reset (frame : AlertsFrame) {a : Alert} {alerts : List Alert}
    (hframe : frame.previousAlert.alertType = true)
    (h : ∀ b ∈ a :: alerts, b.alertType = false) :
    ((a :: alerts).foldl postAlert frame).previousPeakAlert =
      (a :: alerts).foldl keepPeak noPeak := by
  obtain ⟨ha, has⟩ := List.forall_mem_cons.1 h
  have hbefore : frame.peakBefore a = noPeak := if_pos ⟨ha, hframe⟩
  rw [List.foldl_cons, List.foldl_cons, previousPeakAlert_foldl _ has (Or.inr ha),
    previousPeakAlert_postAlert, hbefore]
  rfl

theorem previousAlert_replay {alerts : List Alert} {a : Alert} (h : alerts.getLast? = some a) :
    (replay alerts).previousAlert = a.inFrame := by
  obtain ⟨earlier, rfl⟩ := List.getLast?_eq_some_iff.1 h
  rw [replay_concat]
  rfl

/-- The recovery alerts right before an episode. -/
def lowBefore (before : List Alert) : List Alert := before.rtakeWhile fun a => !a.alertType

/-- An episode of high traffic and the recovery alert that closes it. -/
structure Closes (alerts before episode : List Alert) (recovery : Alert) (rest : List Alert) :
    Prop where
  parts : alerts = before ++ episode ++ recovery :: rest
  nonempty : episode ≠ []
  high : ∀ a ∈ episode, a.alertType = true
  low : recovery.alertType = false
  maximal : ∀ a ∈ before.getLast?, a.alertType = false

theorem forall_lowBefore (before : List Alert) : ∀ a ∈ lowBefore before, a.alertType = false := by
  intro a ha
  simpa using List.mem_rtakeWhile_imp ha

theorem previousPeakAlert_lowBefore {before : List Alert}
    (h : ∀ a ∈ before.getLast?, a.alertType = false) :
    (replay before).previousPeakAlert = (lowBefore before).foldl keepPeak noPeak := by
  have hparts : before.rdropWhile (fun a => !a.alertType) ++ lowBefore before = before :=
    List.rdropWhile_append_rtakeWhile
  have hlow := forall_lowBefore before
  generalize lowBefore before = low at hparts hlow ⊢
  cases hlast : (before.rdropWhile fun a => !a.alertType).getLast? with
  | none =>
      rw [List.getLast?_eq_none_iff.1 hlast, List.nil_append] at hparts
      rw [← hparts]
      exact previousPeakAlert_foldl initial hlow (Or.inr rfl)
  | some x =>
      have hne : before.rdropWhile (fun a => !a.alertType) ≠ [] := by
        intro hnil
        simp [hnil] at hlast
      have hx : x.alertType = true := by
        have hnot := List.rdropWhile_last_not (fun a : Alert => !a.alertType) before hne
        rw [List.getLast_of_getLast?_eq_some hlast] at hnot
        simpa using hnot
      rw [← hparts, replay_append]
      cases low with
      | nil =>
          rw [List.append_nil] at hparts
          rw [hparts] at hlast
          exact Bool.noConfusion (hx.symm.trans (h x hlast))
      | cons a as =>
          apply previousPeakAlert_reset _ _ hlow
          rw [previousAlert_replay hlast]
          exact hx

variable {alerts before episode rest : List Alert} {recovery : Alert}

theorem Closes.previousPeakAlert (h : Closes alerts before episode recovery rest)
    (hpos : ∀ a ∈ alerts, 0 < a.hitCount) :
    (replay (before ++ episode)).previousPeakAlert = peakOf (lowBefore before ++ episode) := by
  have hsub : ∀ a ∈ lowBefore before ++ episode, 0 < a.hitCount := by
    intro a ha
    apply hpos
    rw [h.parts]
    rcases List.mem_append.1 ha with hlow | hepisode
    · have hmem : a ∈ before := (List.rtakeWhile_suffix _ _).mem hlow
      simp [hmem]
    · simp [hepisode]
  rw [← foldl_keepPeak hsub, List.foldl_append, replay_append,
    previousPeakAlert_foldl _ h.high (Or.inl rfl), previousPeakAlert_lowBefore h.maximal]

/-- The rows that the recovery alert adds. -/
theorem Closes.alertsPanel (h : Closes alerts before episode recovery rest)
    (hpos : ∀ a ∈ alerts, 0 < a.hitCount) :
    ∃ later, (replay alerts).alertsPanel = (replay (before ++ episode)).alertsPanel ++
      .peakTraffic (peakOf (lowBefore before ++ episode)).hitCount
        (peakOf (lowBefore before ++ episode)).alertTime ::
          .backToNormal recovery.hitCount recovery.alertTime :: later := by
  obtain ⟨a, hlast⟩ := Option.isSome_iff_exists.1 (List.getLast?_isSome.2 h.nonempty)
  have hprev : (replay (before ++ episode)).previousAlert.alertType = true := by
    rw [previousAlert_replay (a := a) (by simp [hlast])]
    exact h.high a (List.mem_of_getLast? hlast)
  have hrows : (replay (before ++ episode ++ [recovery])).alertsPanel =
      (replay (before ++ episode)).alertsPanel ++
        newRows (replay (before ++ episode)).previousPeakAlert recovery := by
    rw [replay_concat, alertsPanel_postAlert, if_neg (by simp [hprev, h.low])]
  obtain ⟨later, hlater⟩ := alertsPanel_foldl_prefix (replay (before ++ episode ++ [recovery])) rest
  refine ⟨later, ?_⟩
  rw [h.parts, List.append_cons, replay_append, ← hlater, hrows, h.previousPeakAlert hpos]
  simp [newRows, h.low]

theorem peakOf_append_eq_iff (low : List Alert) {peak : Alert}
    (hpeak : peak ∈ episode.argmax Alert.hitCount) :
    ((peakOf (low ++ episode)).hitCount = peak.hitCount ∧
        (peakOf (low ++ episode)).alertTime = some peak.alertTime) ↔
      ∀ leaked ∈ low.argmax Alert.hitCount, leaked.hitCount < peak.hitCount ∨
        (leaked.hitCount = peak.hitCount ∧ leaked.alertTime = peak.alertTime) := by
  rw [Option.mem_def] at hpeak
  unfold peakOf
  rw [Selection.argmax_append, hpeak]
  cases hlow : low.argmax Alert.hitCount with
  | none => simp [Alert.inFrame]
  | some leaked =>
      by_cases hlt : leaked.hitCount < peak.hitCount
      · simp [hlt, Alert.inFrame]
      · simp [hlt, Alert.inFrame]

theorem Closes.append (h : Closes alerts before episode recovery rest) (more : List Alert) :
    Closes (alerts ++ more) before episode recovery (rest ++ more) := by
  refine ⟨?_, h.nonempty, h.high, h.low, h.maximal⟩
  rw [h.parts, List.append_assoc, List.cons_append]

/-- A recovery alert after high traffic closes an episode. -/
theorem closes_concat {recovery : Alert} (hlow : recovery.alertType = false)
    (hprev : (replay alerts).previousAlert.alertType = true) :
    ∃ before episode, alerts = before ++ episode ∧
      Closes (alerts ++ [recovery]) before episode recovery [] := by
  have hparts : alerts.rdropWhile Alert.alertType ++ alerts.rtakeWhile Alert.alertType = alerts :=
    List.rdropWhile_append_rtakeWhile
  refine ⟨_, _, hparts.symm, ⟨by rw [hparts], ?_, ?_, hlow, ?_⟩⟩
  · cases hlast : alerts.getLast? with
    | none =>
        rw [List.getLast?_eq_none_iff.1 hlast] at hprev
        exact Bool.noConfusion hprev
    | some a =>
        obtain ⟨earlier, rfl⟩ := List.getLast?_eq_some_iff.1 hlast
        have ha : a.alertType = true := by rwa [previousAlert_replay hlast] at hprev
        rw [List.rtakeWhile_concat_pos _ _ _ ha]
        exact List.concat_ne_nil a _
  · intro a ha
    exact List.mem_rtakeWhile_imp ha
  · intro a ha
    have hne : alerts.rdropWhile Alert.alertType ≠ [] := by
      intro hnil
      simp [hnil] at ha
    have hnot := List.rdropWhile_last_not Alert.alertType alerts hne
    rw [List.getLast_of_getLast?_eq_some ha] at hnot
    simpa using hnot

theorem peakTraffic_mem_newRows {frame : AlertsFrame} {a : Alert} {shown later : List AlertRow}
    {hitCount : ℤ} {alertTime : Option ℤ}
    (h : (if a.alertType = frame.previousAlert.alertType then []
      else newRows frame.previousPeakAlert a) = shown ++ .peakTraffic hitCount alertTime :: later) :
    shown = [] ∧ a.alertType = false ∧ frame.previousAlert.alertType = true := by
  by_cases hsame : a.alertType = frame.previousAlert.alertType
  · simp [hsame] at h
  rw [if_neg hsame] at h
  cases ha : a.alertType with
  | true => cases shown <;> simp [newRows, ha] at h
  | false =>
      have hprev : frame.previousAlert.alertType = true := by simpa [ha] using hsame
      cases shown with
      | nil => exact ⟨rfl, rfl, hprev⟩
      | cons row rows => cases rows <;> simp [newRows, ha] at h

/-- Every peak row is added by the recovery alert of an episode. -/
theorem exists_closes {shown later : List AlertRow} {hitCount : ℤ} {alertTime : Option ℤ}
    (h : (replay alerts).alertsPanel = shown ++ .peakTraffic hitCount alertTime :: later) :
    ∃ before episode recovery rest, Closes alerts before episode recovery rest ∧
      shown = (replay (before ++ episode)).alertsPanel := by
  induction alerts using List.reverseRecOn generalizing later with
  | nil =>
      have hmem : AlertRow.peakTraffic hitCount alertTime ∈ (replay []).alertsPanel := by
        rw [h]
        simp
      exact (List.not_mem_nil hmem).elim
  | append_singleton alerts a ih =>
      rw [replay_concat, alertsPanel_postAlert] at h
      have hnewest : ∀ as, shown = (replay alerts).alertsPanel ++ as →
          (if a.alertType = (replay alerts).previousAlert.alertType then []
            else newRows (replay alerts).previousPeakAlert a) =
              as ++ .peakTraffic hitCount alertTime :: later →
          ∃ before episode recovery rest, Closes (alerts ++ [a]) before episode recovery rest ∧
            shown = (replay (before ++ episode)).alertsPanel := by
        intro as hshown hnew
        obtain ⟨rfl, hlow, hprev⟩ := peakTraffic_mem_newRows hnew
        obtain ⟨before, episode, hparts, hcloses⟩ := closes_concat hlow hprev
        exact ⟨before, episode, a, [], hcloses, by rw [← hparts, hshown, List.append_nil]⟩
      rcases List.append_eq_append_iff.1 h with ⟨as, hshown, hnew⟩ | ⟨as, hpanel, hlater⟩
      · exact hnewest as hshown hnew
      · cases as with
        | nil => exact hnewest [] (by rw [hpanel, List.append_nil, List.append_nil]) hlater.symm
        | cons row rows =>
            obtain ⟨rfl, -⟩ := List.cons_eq_cons.1 hlater
            obtain ⟨before, episode, recovery, rest, hcloses, hshown⟩ := ih hpanel
            exact ⟨before, episode, recovery, rest ++ [a], hcloses.append [a], hshown⟩

/-- Every peak row closes an episode, and it reports the peak of that
episode exactly when no recovery alert before the episode exceeds it. -/
theorem peakRows_right_iff (batches : List (List Alert))
    (hpos : ∀ a ∈ batches.flatten, 0 < a.hitCount) :
    (∀ shown hitCount alertTime later,
        (posted batches).alertsPanel = shown ++ .peakTraffic hitCount alertTime :: later →
        ∃ before episode recovery rest, Closes batches.flatten before episode recovery rest ∧
          shown = (replay (before ++ episode)).alertsPanel) ∧
      ((∀ before episode recovery rest, Closes batches.flatten before episode recovery rest →
          ∃ peak ∈ episode.argmax Alert.hitCount, ∃ later,
            (posted batches).alertsPanel = (replay (before ++ episode)).alertsPanel ++
              .peakTraffic peak.hitCount (some peak.alertTime) :: later) ↔
        ∀ before episode recovery rest, Closes batches.flatten before episode recovery rest →
          ∀ leaked ∈ (lowBefore before).argmax Alert.hitCount,
          ∀ peak ∈ episode.argmax Alert.hitCount, leaked.hitCount < peak.hitCount ∨
            (leaked.hitCount = peak.hitCount ∧ leaked.alertTime = peak.alertTime)) := by
  rw [alertsPanel_posted]
  refine ⟨fun _ _ _ _ h => exists_closes h, ?_⟩
  refine forall_congr' fun before => forall_congr' fun episode => forall_congr' fun recovery =>
    forall_congr' fun rest => forall_congr' fun hcloses => ?_
  obtain ⟨later, hrows⟩ := hcloses.alertsPanel hpos
  constructor
  · rintro ⟨peak, hpeak, later', hright⟩ leaked hleaked peak' hpeak'
    obtain rfl := Option.mem_unique hpeak' hpeak
    rw [hrows, List.append_cancel_left_eq, List.cons_eq_cons, AlertRow.peakTraffic.injEq] at hright
    exact (peakOf_append_eq_iff _ hpeak).1 hright.1 leaked hleaked
  · intro hcond
    obtain ⟨peak, hpeak⟩ := Option.ne_none_iff_exists'.1
      (mt List.argmax_eq_none.1 hcloses.nonempty : episode.argmax Alert.hitCount ≠ none)
    obtain ⟨hhit, htime⟩ := (peakOf_append_eq_iff (lowBefore before) hpeak).2
      fun leaked hleaked => hcond leaked hleaked peak hpeak
    exact ⟨peak, hpeak, _, by rw [hrows, hhit, htime]⟩

/-- While the threshold stays the same, no recovery alert exceeds a high
one. -/
theorem Closes.leaked_lt (h : Closes alerts before episode recovery rest)
    (hexceed : ∀ low ∈ alerts, low.alertType = false → ∀ high ∈ alerts, high.alertType = true →
      low.hitCount < high.hitCount) {leaked peak : Alert}
    (hleaked : leaked ∈ (lowBefore before).argmax Alert.hitCount)
    (hpeak : peak ∈ episode.argmax Alert.hitCount) : leaked.hitCount < peak.hitCount := by
  have hlow : leaked ∈ lowBefore before := List.argmax_mem hleaked
  have hhigh : peak ∈ episode := List.argmax_mem hpeak
  have hbefore : leaked ∈ before := (List.rtakeWhile_suffix _ _).mem hlow
  refine hexceed leaked ?_ (forall_lowBefore before leaked hlow) peak ?_ (h.high peak hhigh)
  · simp [h.parts, hbefore]
  · simp [h.parts, hhigh]

def twoEpisodes : List (List Alert) :=
  [[⟨10, 11, true⟩, ⟨20, 8, false⟩], [⟨30, 12, true⟩, ⟨40, 9, false⟩]]

theorem peakRows_right_iff_two_episodes :
    (∃ before episode recovery rest,
      Closes twoEpisodes.flatten before episode recovery rest ∧
        [.highTraffic 11 10, .peakTraffic 11 (some 10), .backToNormal 8 20, .highTraffic 12 30] =
          (replay (before ++ episode)).alertsPanel) ∧
      ∀ before episode recovery rest, Closes twoEpisodes.flatten before episode recovery rest →
        ∃ peak ∈ episode.argmax Alert.hitCount, ∃ later,
          (posted twoEpisodes).alertsPanel = (replay (before ++ episode)).alertsPanel ++
            .peakTraffic peak.hitCount (some peak.alertTime) :: later := by
  have hpanel : (posted twoEpisodes).alertsPanel =
      [.highTraffic 11 10, .peakTraffic 11 (some 10), .backToNormal 8 20, .highTraffic 12 30] ++
        .peakTraffic 12 (some 30) :: [.backToNormal 9 40] := by decide
  have hiff := peakRows_right_iff twoEpisodes (by decide)
  refine ⟨hiff.1 _ _ _ _ hpanel, hiff.2.2 ?_⟩
  intro before episode recovery rest hcloses leaked hleaked peak hpeak
  exact Or.inl (hcloses.leaked_lt (by decide) hleaked hpeak)

/-- After a threshold change from 10 to 1 the recovery alert with 8 hits
is reported as the peak of an episode with 3. -/
theorem peak_of_recovery_alert :
    ¬ ∀ batches : List (List Alert), (∀ a ∈ batches.flatten, 0 < a.hitCount) →
      ∀ before episode recovery rest, Closes batches.flatten before episode recovery rest →
        ∃ peak ∈ episode.argmax Alert.hitCount, ∃ later,
          (posted batches).alertsPanel = (replay (before ++ episode)).alertsPanel ++
            .peakTraffic peak.hitCount (some peak.alertTime) :: later := by
  intro h
  obtain ⟨peak, hpeak, later, hrows⟩ :=
    h [[⟨10, 11, true⟩, ⟨20, 8, false⟩], [⟨30, 3, true⟩, ⟨40, 1, false⟩]] (by decide)
      [⟨10, 11, true⟩, ⟨20, 8, false⟩] [⟨30, 3, true⟩] ⟨40, 1, false⟩ []
      ⟨rfl, by decide, by decide, rfl, by decide⟩
  rw [List.argmax_singleton] at hpeak
  obtain rfl := Option.some.inj hpeak
  have hpanel : (posted [[⟨10, 11, true⟩, ⟨20, 8, false⟩],
      [⟨30, 3, true⟩, ⟨40, 1, false⟩]]).alertsPanel = [.highTraffic 11 10,
        .peakTraffic 11 (some 10), .backToNormal 8 20, .highTraffic 3 30,
        .peakTraffic 8 (some 20), .backToNormal 1 40] := by decide
  have hshown : (replay ([⟨10, 11, true⟩, ⟨20, 8, false⟩] ++ [⟨30, 3, true⟩])).alertsPanel =
      [.highTraffic 11 10, .peakTraffic 11 (some 10), .backToNormal 8 20, .highTraffic 3 30] := by
    decide
  rw [hpanel, hshown] at hrows
  simp at hrows

end HttpLogMonitor.AlertsFrame
