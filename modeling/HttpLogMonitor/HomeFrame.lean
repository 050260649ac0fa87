import HttpLogMonitor.Library.Fifo
import HttpLogMonitor.Objects

/-!
# The preferences form

The start button of `HomeFrame`: the three texts are parsed, and the
preferences are put on `preferenceQueue`. The digit value of a character,
`Character.digit(c, 10)`, is a parameter, since it follows the Unicode
tables of the Java version.
-/

namespace HttpLogMonitor

section Parsing

variable (digit : Char → Option ℕ)

def parseDigits (text : JavaString) : Option ℕ :=
  if text = [] then none
  else text.foldl (fun acc c => acc.bind fun n => (digit c).map fun d => 10 * n + d) (some 0)

/-- `Integer.parseInt`, with `none` for a `NumberFormatException`. -/
def parseInt (text : JavaString) : Option Int32 :=
  let value : Option ℤ :=
    match text with
    | '-' :: rest => (parseDigits digit rest).map fun n => -(n : ℤ)
    | '+' :: rest => (parseDigits digit rest).map fun n => (n : ℤ)
    | _ => (parseDigits digit text).map fun n => (n : ℤ)
  value.bind fun n =>
    if Int32.minValue.toInt ≤ n ∧ n ≤ Int32.maxValue.toInt then some (Int32.ofInt n) else none

end Parsing

def asciiDigit (c : Char) : Option ℕ := if c.isDigit then some (c.toNat - 48) else none

/-- The fields of the frame that the button reads and writes. The drop
down list has one item for each device, and `selectedIndex` is `none`
where `getSelectedIndex` is -1. -/
structure HomeFrame (PcapIf : Type) where
  thresholdTextField : JavaString
  alertTextField : JavaString
  mostHitsTextField : JavaString
  devices : List PcapIf
  selectedIndex : Option ℕ
  threshold : Int32
  startUpdateButton : JavaString
  preferenceQueue : Fifo (UserPreferences PcapIf)

namespace HomeFrame

variable {PcapIf : Type} (digit : Char → Option ℕ)

def validator (frame : HomeFrame PcapIf) : Bool :=
  (parseInt digit frame.thresholdTextField).isSome &&
    (parseInt digit frame.alertTextField).isSome &&
    (parseInt digit frame.mostHitsTextField).isSome && decide (0 < frame.devices.length)

/-- The preferences that the texts and the drop down list stand for. The
products with 1000 are `int` products. -/
def userPreferences (frame : HomeFrame PcapIf) : Option (UserPreferences PcapIf) := do
  let threshold ← parseInt digit frame.thresholdTextField
  let device ← frame.selectedIndex.bind fun i => frame.devices[i]?
  let timeGap ← parseInt digit frame.mostHitsTextField
  let alertGap ← parseInt digit frame.alertTextField
  return ⟨threshold, device, timeGap * 1000, alertGap * 1000⟩

/-- The frame after a click, and the message shown, if any. Without a
selected device `devices.get` throws before anything is put. -/
def startUpdateButtonActionPerformed (frame : HomeFrame PcapIf) :
    HomeFrame PcapIf × Option String :=
  if validator digit frame then
    let frame' := { frame with
      startUpdateButton := "Update".toList
      threshold := (parseInt digit frame.thresholdTextField).getD frame.threshold }
    match userPreferences digit frame with
    | some preference =>
        ({ frame' with preferenceQueue := frame.preferenceQueue.put preference }, none)
    | none => (frame', none)
  else (frame, some "Check your input.")

/-- A click puts at most one preference, made of four values of the form. -/
theorem startUpdateButtonActionPerformed_log {frame : HomeFrame PcapIf}
    {preference : UserPreferences PcapIf}
    (h : preference ∈ (startUpdateButtonActionPerformed digit frame).1.preferenceQueue.log)
    (hnew : preference ∉ frame.preferenceQueue.log) :
    preference.device ∈ frame.devices ∧ ∃ timeGap alertGap : Int32,
      preference.timeGapInMillisecond = timeGap * 1000 ∧
        preference.alertGapInMillisecond = alertGap * 1000 := by
  unfold startUpdateButtonActionPerformed at h
  split at h
  · cases hp : userPreferences digit frame with
    | none =>
        simp only [hp] at h
        exact (hnew h).elim
    | some p =>
        simp only [hp, Fifo.log_put, List.mem_append, hnew, List.mem_singleton, false_or] at h
        subst h
        simp only [userPreferences, Option.bind_eq_bind, Option.bind_eq_some_iff, Option.pure_def,
          Option.some.injEq] at hp
        obtain ⟨threshold, -, device, ⟨i, -, hi⟩, timeGap, -, alertGap, -, rfl⟩ := hp
        exact ⟨List.mem_of_getElem? hi, timeGap, alertGap, rfl, rfl⟩
  · exact (hnew h).elim

example : parseInt asciiDigit "-12".toList = some (-12) := by decide

end HomeFrame

end HttpLogMonitor
