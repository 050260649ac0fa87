import HttpLogMonitor.AlertTracker
import HttpLogMonitor.HomeFrame

/-!
# Validated periods as durations

`validator` only parses the texts. The seconds are multiplied by 1000 as
`int`, the period goes to `Timer.scheduleAtFixedRate`, and the alert gap
to the head wait of `AlertTracker`.
-/

namespace HttpLogMonitor.HomeFrame

variable {PcapIf : Type} {digit : Char → Option ℕ}

/-- A period or gap is what the user typed, in milliseconds, and
positive. -/
def Exact (typed milliseconds : Int32) : Prop :=
  milliseconds.toInt = 1000 * typed.toInt ∧ 0 < milliseconds.toInt

/-- No head age leads `Thread.sleep` to a negative argument. -/
def LegalWaits (threshold alertGap : Int32) : Prop :=
  ∀ diff : ℤ, 0 ≤ diff → diff < (AlertTracker.fresh threshold alertGap).ageLimit →
    0 ≤ (AlertTracker.fresh threshold alertGap).headWait diff

theorem exact_iff (typed : Int32) :
    Exact typed (typed * 1000) ↔ 1 ≤ typed.toInt ∧ typed.toInt ≤ 2147483 := by
  have hthousand : (1000 : Int32).toInt = 1000 := by decide
  unfold Exact
  constructor
  · rintro ⟨heq, hpos⟩
    have hlt := (typed * 1000).toInt_lt
    omega
  · rintro ⟨hlow, hhigh⟩
    have hmul : (typed * 1000).toInt = typed.toInt * 1000 := by
      rw [Int32.toInt_mul, hthousand]
      apply Int.bmod_eq_of_le <;> omega
    omega

theorem legalWaits_of_pos (threshold : Int32) {alertGap : Int32} (hgap : 0 < alertGap.toInt) :
    LegalWaits threshold alertGap := by
  intro diff _ hdiff
  have hlimit : (AlertTracker.fresh threshold alertGap).ageLimit = alertGap.toInt - 100 :=
    AlertTracker.ageLimit_eq hgap
  rw [hlimit] at hdiff
  change 0 ≤ alertGap.toInt - diff - 100
  omega

theorem userPreferences_of_put {frame : HomeFrame PcapIf} {preference : UserPreferences PcapIf}
    (h : (startUpdateButtonActionPerformed digit frame).1.preferenceQueue.log =
      frame.preferenceQueue.log ++ [preference]) :
    userPreferences digit frame = some preference := by
  unfold startUpdateButtonActionPerformed at h
  split at h
  · cases hp : userPreferences digit frame with
    | none => simp [hp] at h
    | some p => simpa [hp] using h
  · simp at h

theorem parseInt_of_validator {frame : HomeFrame PcapIf} (h : validator digit frame = true) :
    ∃ timeGap alertGap : Int32, parseInt digit frame.mostHitsTextField = some timeGap ∧
      parseInt digit frame.alertTextField = some alertGap := by
  unfold validator at h
  simp only [Bool.and_eq_true, Option.isSome_iff_exists] at h
  obtain ⟨⟨⟨-, alertGap, halert⟩, timeGap, htime⟩, -⟩ := h
  exact ⟨timeGap, alertGap, htime, halert⟩

/-- The preferences that a valid form puts are usable exactly when both
typed numbers are positive and their products with 1000 are `int`s. -/
theorem durations_usable_iff (digit : Char → Option ℕ) (frame : HomeFrame PcapIf)
    (hvalid : validator digit frame = true) :
    ∃ timeGap alertGap : Int32, parseInt digit frame.mostHitsTextField = some timeGap ∧
      parseInt digit frame.alertTextField = some alertGap ∧
      ∀ preference, (startUpdateButtonActionPerformed digit frame).1.preferenceQueue.log =
          frame.preferenceQueue.log ++ [preference] →
        ((Exact timeGap preference.timeGapInMillisecond ∧
            Exact alertGap preference.alertGapInMillisecond ∧
            LegalWaits preference.threshold preference.alertGapInMillisecond) ↔
          (1 ≤ timeGap.toInt ∧ timeGap.toInt ≤ 2147483) ∧
            1 ≤ alertGap.toInt ∧ alertGap.toInt ≤ 2147483) := by
  obtain ⟨timeGap, alertGap, htime, halert⟩ := parseInt_of_validator hvalid
  refine ⟨timeGap, alertGap, htime, halert, ?_⟩
  intro preference hput
  have hp := userPreferences_of_put hput
  simp only [userPreferences, htime, halert, Option.bind_eq_bind, Option.bind_eq_some_iff,
    Option.pure_def, Option.some.injEq, exists_eq_left'] at hp
  obtain ⟨threshold, -, device, -, rfl⟩ := hp
  rw [exact_iff, exact_iff]
  constructor
  · rintro ⟨hperiod, hgap, -⟩
    exact ⟨hperiod, hgap⟩
  · rintro ⟨hperiod, hgap⟩
    exact ⟨hperiod, hgap, legalWaits_of_pos threshold ((exact_iff alertGap).2 hgap).2⟩

def formWith (mostHits alert : JavaString) : HomeFrame Unit where
  thresholdTextField := "10".toList
  alertTextField := alert
  mostHitsTextField := mostHits
  devices := [()]
  selectedIndex := some 0
  threshold := 10
  startUpdateButton := "Start".toList
  preferenceQueue := Fifo.empty

theorem durations_usable_iff_default :
    ∃ timeGap alertGap : Int32,
      parseInt asciiDigit (formWith "10".toList "120".toList).mostHitsTextField = some timeGap ∧
      parseInt asciiDigit (formWith "10".toList "120".toList).alertTextField = some alertGap ∧
      ∀ preference, (startUpdateButtonActionPerformed asciiDigit
            (formWith "10".toList "120".toList)).1.preferenceQueue.log = [preference] →
        ((Exact timeGap preference.timeGapInMillisecond ∧
            Exact alertGap preference.alertGapInMillisecond ∧
            LegalWaits preference.threshold preference.alertGapInMillisecond) ↔
          (1 ≤ timeGap.toInt ∧ timeGap.toInt ≤ 2147483) ∧
            1 ≤ alertGap.toInt ∧ alertGap.toInt ≤ 2147483) :=
  durations_usable_iff asciiDigit (formWith "10".toList "120".toList) (by decide)

theorem validated_period_zero :
    ¬ ∀ (digit : Char → Option ℕ) (frame : HomeFrame Unit) (timeGap alertGap : Int32),
      validator digit frame = true → parseInt digit frame.mostHitsTextField = some timeGap →
      parseInt digit frame.alertTextField = some alertGap →
      ∀ preference, (startUpdateButtonActionPerformed digit frame).1.preferenceQueue.log =
          frame.preferenceQueue.log ++ [preference] →
        Exact timeGap preference.timeGapInMillisecond ∧
          Exact alertGap preference.alertGapInMillisecond ∧
          LegalWaits preference.threshold preference.alertGapInMillisecond := by
  intro h
  obtain ⟨⟨-, hpos⟩, -, -⟩ := h asciiDigit (formWith "0".toList "120".toList) 0 120 (by decide)
    (by decide) (by decide) ⟨10, (), 0, 120000⟩ (by decide)
  exact absurd hpos (by decide)

end HttpLogMonitor.HomeFrame
