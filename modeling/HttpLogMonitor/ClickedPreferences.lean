import HttpLogMonitor.Durations
import HttpLogMonitor.ProgramRefinement

/-!
# From the typed numbers to the workers

The decimal text of an `int` is parsed back to it, so a click with sane
numbers puts exactly what was typed, and the refinement by the monitor
brings it to the workers.
-/

namespace HttpLogMonitor

section Parsing

variable {digit : Char → Option ℕ}

/-- The values of the ten ASCII digits, which no version of Unicode
changes. -/
def ReadsDigits (digit : Char → Option ℕ) : Prop :=
  ∀ c : Char, c.isDigit = true → digit c = some (c.toNat - '0'.toNat)

theorem readsDigits_asciiDigit : ReadsDigits asciiDigit := fun _ hc => if_pos hc

theorem foldl_digits (hdigit : ReadsDigits digit) {text : JavaString}
    (hall : ∀ c ∈ text, c.isDigit = true) (n : ℕ) :
    text.foldl (fun acc c => acc.bind fun n => (digit c).map fun d => 10 * n + d) (some n) =
      some (Nat.ofDigitChars 10 text n) := by
  induction text generalizing n with
  | nil => rfl
  | cons c text ih =>
      rw [List.foldl_cons, Option.bind_some, hdigit c (hall c List.mem_cons_self), Option.map_some,
        ih fun c hc => hall c (List.mem_cons_of_mem _ hc)]
      rfl

theorem parseDigits_toDigits (hdigit : ReadsDigits digit) (n : ℕ) :
    parseDigits digit (Nat.toDigits 10 n) = some n := by
  have hall : ∀ c ∈ Nat.toDigits 10 n, c.isDigit = true := fun c hc =>
    Nat.isDigit_of_mem_toDigits (by decide) (by decide) hc
  rw [parseDigits, if_neg Nat.toDigits_ne_nil, foldl_digits hdigit hall,
    Nat.ofDigitChars_ten_toDigits]

theorem intText_natCast (n : ℕ) : intText n = Nat.toDigits 10 n := by
  rw [intText, ← Nat.toList_repr]
  rfl

theorem intText_negSucc (n : ℕ) : intText (Int.negSucc n) = '-' :: Nat.toDigits 10 (n + 1) := by
  rw [intText, ← Nat.toList_repr]
  simp [Int.toString_eq_repr, Int.repr]

/-- No digit is a sign. -/
theorem exists_cons_toDigits (n : ℕ) :
    ∃ c text, Nat.toDigits 10 n = c :: text ∧ c ≠ '-' ∧ c ≠ '+' := by
  obtain ⟨c, text, htext⟩ := List.exists_cons_of_ne_nil (@Nat.toDigits_ne_nil n 10)
  have hdigit : c.isDigit = true :=
    Nat.isDigit_of_mem_toDigits (by decide) (by decide)
      (htext ▸ List.mem_cons_self : c ∈ Nat.toDigits 10 n)
  refine ⟨c, text, htext, ?_, ?_⟩
  · rintro rfl
    cases hdigit
  · rintro rfl
    cases hdigit

/-- The check that a value is an `int`. -/
def inRange (n : ℤ) : Option Int32 :=
  if Int32.minValue.toInt ≤ n ∧ n ≤ Int32.maxValue.toInt then some (Int32.ofInt n) else none

theorem inRange_toInt (n : Int32) : inRange n.toInt = some n := by
  rw [inRange, if_pos ⟨n.minValue_le_toInt, n.toInt_le⟩, Int32.ofInt_toInt]

theorem parseInt_minus {text : JavaString} {n : ℕ} (h : parseDigits digit text = some n) :
    parseInt digit ('-' :: text) = inRange (-(n : ℤ)) := by
  unfold parseInt
  simp only [h]
  rfl

theorem parseInt_unsigned {c : Char} {text : JavaString} {n : ℕ} (hminus : c ≠ '-')
    (hplus : c ≠ '+') (h : parseDigits digit (c :: text) = some n) :
    parseInt digit (c :: text) = inRange n := by
  unfold parseInt
  split
  · rename_i heq
    exact (hminus (List.cons.inj heq).1).elim
  · rename_i heq
    exact (hplus (List.cons.inj heq).1).elim
  · simp only [h]
    rfl

/-- `Integer.parseInt` reads back what `String.valueOf` writes. -/
theorem parseInt_intText (hdigit : ReadsDigits digit) (n : Int32) :
    parseInt digit (intText n.toInt) = some n := by
  have hvalue := inRange_toInt n
  cases hn : n.toInt with
  | ofNat m =>
      obtain ⟨c, text, htext, hminus, hplus⟩ := exists_cons_toDigits m
      have hparse := parseDigits_toDigits hdigit m
      rw [hn, Int.ofNat_eq_natCast] at hvalue
      rw [Int.ofNat_eq_natCast, intText_natCast]
      rw [htext] at hparse ⊢
      rw [parseInt_unsigned hminus hplus hparse, hvalue]
  | negSucc m =>
      rw [hn, Int.negSucc_eq] at hvalue
      rw [intText_negSucc, parseInt_minus (parseDigits_toDigits hdigit (m + 1)), ← hvalue]
      rfl

end Parsing

namespace Program

variable {PcapIf : Type}

/-- The texts are those of numbers that stand for usable periods, and a
device is selected. -/
structure Typed (u : Program PcapIf) (threshold timeGap alertGap : Int32) (device : PcapIf) :
    Prop where
  threshold_eq : u.form.thresholdTextField = intText threshold.toInt
  timeGap_eq : u.form.mostHitsTextField = intText timeGap.toInt
  alertGap_eq : u.form.alertTextField = intText alertGap.toInt
  device_eq : u.form.selectedIndex.bind (fun i => u.form.devices[i]?) = some device
  timeGap_usable : 1 ≤ timeGap.toInt ∧ timeGap.toInt ≤ 2147483
  alertGap_usable : 1 ≤ alertGap.toInt ∧ alertGap.toInt ≤ 2147483

variable {digit : Char → Option ℕ} {u : Program PcapIf} {threshold timeGap alertGap : Int32}
  {device : PcapIf}

theorem Typed.clicked (h : u.Typed threshold timeGap alertGap device)
    (hdigit : ReadsDigits digit) : u.homeFrame.clicked digit =
      some ⟨threshold, device, timeGap * 1000, alertGap * 1000⟩ := by
  have hthreshold : parseInt digit u.homeFrame.thresholdTextField = some threshold := by
    rw [homeFrame, h.threshold_eq, parseInt_intText hdigit]
  have htime : parseInt digit u.homeFrame.mostHitsTextField = some timeGap := by
    rw [homeFrame, h.timeGap_eq, parseInt_intText hdigit]
  have halert : parseInt digit u.homeFrame.alertTextField = some alertGap := by
    rw [homeFrame, h.alertGap_eq, parseInt_intText hdigit]
  have hdevice : u.homeFrame.selectedIndex.bind (fun i => u.homeFrame.devices[i]?) =
      some device := h.device_eq
  have hlen : 0 < u.homeFrame.devices.length := by
    obtain ⟨i, -, hi⟩ := Option.bind_eq_some_iff.1 hdevice
    exact List.length_pos_of_mem (List.mem_of_getElem? hi)
  simp [HomeFrame.clicked, HomeFrame.validator, HomeFrame.userPreferences, hthreshold, htime,
    halert, hdevice, hlen]

variable [DecidableEq PcapIf]

/-- A resting sniffer has brought the last click to the workers. -/
theorem Refined.current {clock : ℤ} (h : u.Refined clock)
    (hpos : ∀ p ∈ u.preferences, p.Positive) (hrest : u.monitor.Resting)
    {p : UserPreferences PcapIf} (hlast : u.preferences.getLast? = some p) :
    u.monitor.Current p := by
  obtain ⟨es, hes⟩ := h.reaches
  have hcurrent := (Monitor.run_recorded hpos hes).current ⟨hrest.pc_eq, hrest.queue_eq⟩ hlast
  exact ⟨hcurrent.device_eq, hcurrent.timeGap_eq, hcurrent.alertGap_eq, hcurrent.threshold_eq,
    hcurrent.runLoop_eq, hcurrent.timer_eq, hcurrent.tracker_eq⟩

/-- What the user types is what the workers get: after a click with
usable numbers, once the sniffer rests and no later click was accepted, the
workers have the threshold, the device and exactly 1000 times the periods. -/
theorem typed_values_applied (digit : Char → Option ℕ) (hdigit : ReadsDigits digit)
    (form : Form PcapIf) (clock : ℤ) (es : List ProgramEvent) (u v : Program PcapIf)
    (h : (machine digit).run (initial form clock) es = some u)
    (hearlier : ∀ p ∈ u.preferences, p.Positive) (threshold timeGap alertGap : Int32)
    (device : PcapIf) (htyped : u.Typed threshold timeGap alertGap device)
    (hclick : (machine digit).step u .click = some v) (es' : List ProgramEvent)
    (w : Program PcapIf) (hrun : (machine digit).run v es' = some w)
    (hlast : w.preferences = v.preferences) (hrest : w.monitor.Resting) :
    ∃ p, w.monitor.Current p ∧ p.threshold = threshold ∧ p.device = device ∧
      p.timeGapInMillisecond.toInt = 1000 * timeGap.toInt ∧
      p.alertGapInMillisecond.toInt = 1000 * alertGap.toInt := by
  obtain ⟨htime, htimePos⟩ := (HomeFrame.exact_iff timeGap).2 htyped.timeGap_usable
  obtain ⟨halert, halertPos⟩ := (HomeFrame.exact_iff alertGap).2 htyped.alertGap_usable
  have hv : v.preferences =
      u.preferences ++ [⟨threshold, device, timeGap * 1000, alertGap * 1000⟩] := by
    cases step_cases digit hclick with
    | click hidle =>
        simp only [preferences, withHomeFrame, HomeFrame.preferenceQueue_click,
          htyped.clicked hdigit, Fifo.log_put]
        rfl
  have hall := (machine digit).run_append_iff.2
    ⟨u, h, (machine digit).run_cons_iff.2 ⟨v, hclick, hrun⟩⟩
  have hpos : ∀ p ∈ w.preferences, p.Positive := by
    intro p hp
    rw [hlast, hv] at hp
    rcases List.mem_append.1 hp with hp | hp
    · exact hearlier p hp
    · rw [List.mem_singleton.1 hp]
      exact ⟨htimePos, halertPos⟩
  have hcurrent := (run_refined hall).current hpos hrest
    (p := ⟨threshold, device, timeGap * 1000, alertGap * 1000⟩) (by rw [hlast, hv]; simp)
  exact ⟨_, hcurrent, rfl, rfl, htime, halert⟩

theorem typed_oneDevice : (initial oneDevice 0).Typed 20 10 120 0 := by
  constructor <;> decide

theorem typed_values_applied_default : ∃ w : Program ℕ,
    (machine asciiDigit).run (initial oneDevice 0) clickEvents = some w ∧
      ∃ p, w.monitor.Current p ∧ p.threshold = 20 ∧
        p.timeGapInMillisecond.toInt = 1000 * (10 : Int32).toInt := by
  have hrun : ((machine asciiDigit).step (initial oneDevice 0) .click).any (fun v =>
      ((machine asciiDigit).run v (List.replicate 8 (.monitor .sniffer))).any fun w =>
        decide (w.preferences = v.preferences ∧ w.monitor.sniffer.pc = .take ∧
          w.monitor.sniffer.preferenceQueue.items = [])) = true := by
    decide +kernel
  obtain ⟨v, hv, hrest⟩ := (Option.any_eq_true _ _).1 hrun
  obtain ⟨w, hw, htest⟩ := (Option.any_eq_true _ _).1 hrest
  obtain ⟨hlast, hpc, hq⟩ := of_decide_eq_true htest
  obtain ⟨p, hp, hthreshold, -, htime, -⟩ := typed_values_applied asciiDigit
    readsDigits_asciiDigit oneDevice 0 [] _ v rfl (fun p hp => (List.not_mem_nil hp).elim) 20 10
    120 0 typed_oneDevice hv _ w hw hlast ⟨hpc, hq⟩
  exact ⟨w, (machine asciiDigit).run_cons_iff.2 ⟨v, hv, hw⟩, p, hp, hthreshold, htime⟩

end Program

end HttpLogMonitor
