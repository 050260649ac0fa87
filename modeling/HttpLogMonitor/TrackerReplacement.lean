import HttpLogMonitor.MonitorRuns

/-!
# A change of the alert settings

The sniffer interrupts the old tracker and starts a new one. The old
tracker catches the interrupt in whichever of its loops it is and goes
on, so from the first change on two trackers publish alerts and remove
hits. A run in which no tracker is replaced keeps the promises of a single
tracker; all runs of a session keep them only if its settings never change.
-/

namespace HttpLogMonitor

open Threads

def UserPreferences.alertSettings {PcapIf : Type} (p : UserPreferences PcapIf) : Int32 × Int32 :=
  (p.threshold, p.alertGapInMillisecond)

def SnifferVars.alertSettings {PcapIf : Type} (x : SnifferVars PcapIf) : Int32 × Int32 :=
  (x.threshold, x.alertGapInMillisecond)

namespace Sniffer

variable {PcapIf : Type}

/-- The tracker in use, if there is one, has the current settings. -/
def AlertCurrent (pc : SnifferPc PcapIf) (x : SnifferVars PcapIf) : Prop :=
  match pc with
  | .interruptAlert _ => False
  | .startAlert p => x.alertThread = none ∧ x.alertSettings = p.alertSettings
  | _ => x.alertThread = none ∨ x.alertThread = some x.alertSettings

/-- The next operation of the handling sets out to replace the tracker. -/
def ReplacesAlert (pc : SnifferPc PcapIf) (x : SnifferVars PcapIf) : Prop :=
  ∃ p, pc = .alertTest p ∧ x.alertThread.isSome = true ∧ p.alertSettings ≠ x.alertSettings

instance (pc : SnifferPc PcapIf) (x : SnifferVars PcapIf) : Decidable (ReplacesAlert pc x) :=
  match pc with
  | .alertTest p =>
      decidable_of_iff (x.alertThread.isSome = true ∧ p.alertSettings ≠ x.alertSettings)
        (by simp [ReplacesAlert])
  | .take | .emptyTest _ | .deviceTest _ | .interruptLoop _ | .startLoop _ | .timeTest _
  | .cancelTimer _ | .startTimer _ | .interruptAlert _ | .startAlert _ | .dead _ =>
      isFalse (by simp [ReplacesAlert])

instance (pc : SnifferPc PcapIf) : Decidable (∃ p, pc = .startAlert p) :=
  match pc with
  | .startAlert p => isTrue ⟨p, rfl⟩
  | .take | .emptyTest _ | .deviceTest _ | .interruptLoop _ | .startLoop _ | .timeTest _
  | .cancelTimer _ | .startTimer _ | .alertTest _ | .interruptAlert _ | .dead _ =>
      isFalse (by simp)

variable [DecidableEq PcapIf]

theorem AlertCurrent.stepVars {x x' : SnifferVars PcapIf} {pc pc' : SnifferPc PcapIf}
    {c : Option (SnifferCommand PcapIf)} (h : AlertCurrent pc x) (hkeeps : ¬ ReplacesAlert pc x)
    (hs : stepVars x pc = some (pc', x', c)) :
    AlertCurrent pc' x' ∧
      (x'.alertThread = x.alertThread ∧
          (∀ trackers, c.toList.foldl AlertTracker.perform trackers = trackers) ∨
        x.alertThread = none ∧ ∃ p, preference pc = some p ∧
          x'.alertThread = some p.alertSettings ∧
          c = some (.startAlert p.threshold p.alertGapInMillisecond)) := by
  cases stepVars_cases hs with
  | replaceAlert p hnew hsome =>
      refine (hkeeps ⟨p, rfl, hsome, fun heq => hnew ?_⟩).elim
      exact ⟨congrArg Prod.snd heq, congrArg Prod.fst heq⟩
  | firstAlert p hnew hnone => exact ⟨⟨hnone, rfl⟩, Or.inl ⟨rfl, fun _ => rfl⟩⟩
  | startAlert p => exact ⟨Or.inr (congrArg some h.2.symm), Or.inr ⟨h.1, p, rfl, rfl, rfl⟩⟩
  | interruptAlert p => exact h.elim
  | _ => exact ⟨h, Or.inl ⟨rfl, fun _ => rfl⟩⟩

theorem AlertCurrent.step {u v : Sniffer PcapIf} {c : Option (SnifferCommand PcapIf)}
    (h : AlertCurrent u.pc u.vars) (hkeeps : ¬ ReplacesAlert u.pc u.vars) (hs : Steps u v c) :
    AlertCurrent v.pc v.vars ∧
      (v.vars.alertThread = u.vars.alertThread ∧
          (∀ trackers, c.toList.foldl AlertTracker.perform trackers = trackers) ∨
        u.vars.alertThread = none ∧ ∃ p, preference u.pc = some p ∧
          v.vars.alertThread = some p.alertSettings ∧
          c = some (.startAlert p.threshold p.alertGapInMillisecond)) := by
  cases hs with
  | take p hpc hpeek =>
      rw [hpc] at h
      exact ⟨h, Or.inl ⟨rfl, fun _ => rfl⟩⟩
  | skip p hpc hq =>
      rw [hpc] at h
      exact ⟨h, Or.inl ⟨rfl, fun _ => rfl⟩⟩
  | handle p hpc hq =>
      rw [hpc] at h
      exact ⟨h, Or.inl ⟨rfl, fun _ => rfl⟩⟩
  | vars hs => exact h.stepVars hkeeps hs

theorem Steps.startAlert_pc {u v : Sniffer PcapIf} {threshold gap : Int32}
    (h : Steps u v (some (.startAlert threshold gap))) :
    ∃ p, u.pc = .startAlert p ∧ threshold = p.threshold ∧ gap = p.alertGapInMillisecond := by
  cases h with
  | vars hs =>
      generalize u.pc = pc at hs
      cases stepVars_cases hs with
      | startAlert p => exact ⟨p, rfl, rfl, rfl⟩

end Sniffer

namespace AlertTracker

/-- A tracker that nobody interrupts. -/
structure Sole (k : Int32 × Int32) (a : AlertTracker) : Prop where
  threshold_eq : a.threshold = k.1
  gap_eq : a.alertGapInMillisecond = k.2
  flag : a.interrupted = false
  silent : a.received = false

theorem Sole.step {k : Int32 × Int32} {s s' : Store} {a a' : AlertTracker} (h : a.Sole k)
    (hs : Steps s a s' a') : a'.Sole k := by
  refine ⟨hs.settings_eq.1.trans h.threshold_eq, hs.settings_eq.2.trans h.gap_eq,
    hs.interrupted_eq h.flag, ?_⟩
  have hflag := h.flag
  have hsilent := h.silent
  cases hs <;> simp_all [goto]

structure Sound (s : Store) (a : AlertTracker) : Prop where
  head : a.pc = .readClock → a.lastURL ≠ none
  remove : a.pc = .removeBreak ∨ a.pc = .removeContinue → s.alertURLQueue.items ≠ []
  sleep : ∀ hit, a.pc = .readClock → a.lastURL = some hit →
    s.clock - hit.hittingTime < a.ageLimit → 0 ≤ a.headWait (s.clock - hit.hittingTime)
  alive : ∀ ex, a.pc ≠ .dead ex

theorem Safe.sound {s : Store} {a : AlertTracker} (hgap : 0 < a.alertGapInMillisecond.toInt)
    (hsafe : a.Safe s.alertURLQueue) : a.Sound s := by
  have hlimit := ageLimit_eq hgap
  refine ⟨?_, ?_, ?_, ?_⟩
  · intro hpc hnone
    simp [Safe, hpc, hnone] at hsafe
  · rintro (hpc | hpc) hnil <;>
      simp [Safe, hpc, Fifo.peek, hnil] at hsafe
  · intro hit hpc hlast hage
    simp only [headWait]
    omega
  · intro ex hpc
    simp [Safe, hpc] at hsafe

end AlertTracker

namespace Monitor

variable {PcapIf : Type} [DecidableEq PcapIf]

/-! ## Before a second tracker is started -/

/-- The step does not start a second tracker. -/
def StartsOneTracker (u : Monitor PcapIf) (e : MonitorEvent) : Prop :=
  ¬ (e = .sniffer ∧ (∃ p, u.sniffer.pc = .startAlert p) ∧ u.trackers ≠ [])

instance (u : Monitor PcapIf) (e : MonitorEvent) : Decidable (u.StartsOneTracker e) :=
  inferInstanceAs (Decidable (¬ (_ ∧ _ ∧ _)))

/-- An interrupt alone does not make a tracker unsafe. -/
structure SafeTracker (u : Monitor PcapIf) : Prop where
  legal : u.All fun p => 0 < p.alertGapInMillisecond.toInt
  one : u.trackers.length ≤ 1
  gaps : ∀ a ∈ u.trackers, 0 < a.alertGapInMillisecond.toInt
  safe : ∀ a ∈ u.trackers, a.Safe u.store.alertURLQueue

omit [DecidableEq PcapIf] in
theorem safeTracker_initial {preferences : List (UserPreferences PcapIf)}
    (h : ∀ p ∈ preferences, 0 < p.alertGapInMillisecond.toInt) (threshold : Int32) (clock : ℤ) :
    (initial preferences threshold clock).SafeTracker :=
  ⟨all_initial h threshold clock, Nat.zero_le 1, fun _ ha => (List.not_mem_nil ha).elim,
    fun _ ha => (List.not_mem_nil ha).elim⟩

omit [DecidableEq PcapIf] in
theorem SafeTracker.safe_of_queue {u : Monitor PcapIf} (h : u.SafeTracker)
    {q : Fifo HttpObject} (hq : q = u.store.alertURLQueue ∨
      ∃ hit, q = u.store.alertURLQueue.put hit) : ∀ a ∈ u.trackers, a.Safe q := by
  rcases hq with rfl | ⟨hit, rfl⟩
  · exact h.safe
  · exact fun a ha => (h.safe a ha).put hit

theorem SafeTracker.command {u : Monitor PcapIf} (h : u.SafeTracker)
    (hstarts : u.StartsOneTracker .sniffer) {s : Sniffer PcapIf} {c : SnifferCommand PcapIf}
    (hs : Sniffer.Steps u.sniffer s (some c)) :
    (perform { u with sniffer := s } c).SafeTracker := by
  have hlegal : All (fun p => 0 < p.alertGapInMillisecond.toInt)
      (perform { u with sniffer := s } c) := ⟨h.legal.coming, h.legal.sniffer.step hs⟩
  cases c with
  | interruptAlert =>
      refine ⟨hlegal, (length_modifyLast _ _).trans_le h.one, ?_, ?_⟩
      · exact forall_modifyLast (f := AlertTracker.interrupt) (fun _ ha => ha) h.gaps
      · exact forall_modifyLast (f := AlertTracker.interrupt) (fun _ ha => ha) h.safe
  | startAlert threshold gap =>
      obtain ⟨p, hpc, rfl, rfl⟩ := hs.startAlert_pc
      have hnil : u.trackers = [] := by
        by_contra hne
        exact hstarts ⟨rfl, ⟨p, hpc⟩, hne⟩
      have hgap := h.legal.sniffer.handled p (by rw [hpc]; rfl)
      refine ⟨hlegal, ?_, ?_, ?_⟩ <;> simp only [perform, AlertTracker.perform, hnil]
      · exact le_refl 1
      · intro a ha
        obtain rfl := List.mem_singleton.1 ha
        exact hgap
      · intro a ha
        obtain rfl := List.mem_singleton.1 ha
        exact AlertTracker.safe_fresh _ _ _
  | _ => exact ⟨hlegal, h.one, h.gaps, h.safe⟩

theorem SafeTracker.step {u v : Monitor PcapIf} {e : MonitorEvent} (h : u.SafeTracker)
    (hstarts : u.StartsOneTracker e) (hs : Steps u e v) : v.SafeTracker := by
  have hlegal := h.legal.step hs
  cases hs with
  | command hsniffer => exact h.command hstarts hsniffer
  | packet heq hr =>
      exact ⟨hlegal, h.one, h.gaps,
        h.safe_of_queue (Or.inl (Callback.receive_alertURLQueue_eq hr))⟩
  | capture heq hc =>
      refine ⟨hlegal, h.one, h.gaps, h.safe_of_queue ?_⟩
      rcases hc.alertURLQueue_cases with hq | ⟨hit, -, hq⟩
      · exact Or.inl hq
      · exact Or.inr ⟨hit, hq⟩
  | calculator heq hr =>
      exact ⟨hlegal, h.one, h.gaps, h.safe_of_queue (Or.inl (by cases hr <;> rfl))⟩
  | @tracker pre post a a' s heq ha =>
      have hone := h.one
      simp only [heq, List.length_append, List.length_cons] at hone
      obtain rfl : pre = [] := List.eq_nil_of_length_eq_zero (by omega)
      obtain rfl : post = [] := List.eq_nil_of_length_eq_zero (by omega)
      have hgap := h.gaps a (by simp [heq])
      refine ⟨hlegal, le_refl 1, fun b hb => ?_, fun b hb => ?_⟩
      · obtain rfl := List.mem_singleton.1 hb
        rwa [ha.settings_eq.2]
      · obtain rfl := List.mem_singleton.1 hb
        exact (h.safe a (by simp [heq])).step hgap ha
  | _ => exact ⟨hlegal, h.one, h.gaps, h.safe⟩

/-! ## Before a tracker is replaced -/

/-- The step does not set out to replace the tracker. -/
def KeepsTracker (u : Monitor PcapIf) (e : MonitorEvent) : Prop :=
  ¬ (e = .sniffer ∧ Sniffer.ReplacesAlert u.sniffer.pc u.sniffer.vars)

instance (u : Monitor PcapIf) (e : MonitorEvent) : Decidable (u.KeepsTracker e) :=
  inferInstanceAs (Decidable (¬ (_ ∧ _)))

structure CurrentTracker (u : Monitor PcapIf) : Prop where
  vars : Sniffer.AlertCurrent u.sniffer.pc u.sniffer.vars
  tracker : u.sniffer.vars.alertThread = none ∧ u.trackers = [] ∨
    ∃ k, u.sniffer.vars.alertThread = some k ∧ ∃ a, u.trackers = [a] ∧ a.Sole k

omit [DecidableEq PcapIf] in
theorem currentTracker_initial (preferences : List (UserPreferences PcapIf)) (threshold : Int32)
    (clock : ℤ) : (initial preferences threshold clock).CurrentTracker :=
  ⟨Or.inl rfl, Or.inl ⟨rfl, rfl⟩⟩

theorem CurrentTracker.sniffer {u : Monitor PcapIf} (h : u.CurrentTracker)
    (hkeeps : u.KeepsTracker .sniffer) {s : Sniffer PcapIf} {c : Option (SnifferCommand PcapIf)}
    (hs : Sniffer.Steps u.sniffer s c) :
    (c.toList.foldl perform { u with sniffer := s }).CurrentTracker := by
  obtain ⟨hvars, hcase⟩ := h.vars.step (fun hreplaces => hkeeps ⟨rfl, hreplaces⟩) hs
  rw [foldl_perform]
  refine ⟨hvars, ?_⟩
  rcases hcase with ⟨hthread, htrackers⟩ | ⟨hnone, p, -, hsome, rfl⟩
  · simpa only [hthread, htrackers] using h.tracker
  · rcases h.tracker with ⟨-, hnil⟩ | ⟨k, hrunning, -⟩
    · refine Or.inr ⟨p.alertSettings, hsome,
        AlertTracker.fresh p.threshold p.alertGapInMillisecond, ?_, rfl, rfl, rfl, rfl⟩
      simp [hnil, AlertTracker.perform]
    · simp [hnone] at hrunning

theorem CurrentTracker.step {u v : Monitor PcapIf} {e : MonitorEvent} (h : u.CurrentTracker)
    (hkeeps : u.KeepsTracker e) (hs : Steps u e v) : v.CurrentTracker := by
  cases hs with
  | quiet hsniffer => exact h.sniffer hkeeps hsniffer
  | command hsniffer => exact h.sniffer hkeeps hsniffer
  | tracker heq ha =>
      refine ⟨h.vars, ?_⟩
      rcases h.tracker with ⟨-, hnil⟩ | ⟨k, hsome, b, hb, hsole⟩
      · simp [hnil] at heq
      · obtain ⟨rfl, rfl, rfl⟩ := eq_of_append_cons (heq.symm.trans hb)
        exact Or.inr ⟨k, hsome, _, rfl, hsole.step ha⟩
  | _ => exact ⟨h.vars, h.tracker⟩

/-! ## Settings that stay the same -/

structure OneTracker (k : Int32 × Int32) (u : Monitor PcapIf) : Prop where
  settings : u.All fun p => p.alertSettings = k
  thread : ∀ k', u.sniffer.vars.alertThread = some k' → k' = k
  current : u.CurrentTracker
  safe : u.SafeTracker

omit [DecidableEq PcapIf] in
theorem oneTracker_initial {k : Int32 × Int32} {preferences : List (UserPreferences PcapIf)}
    (hk : 0 < k.2.toInt) (h : ∀ p ∈ preferences, p.alertSettings = k) (threshold : Int32)
    (clock : ℤ) : (initial preferences threshold clock).OneTracker k where
  settings := all_initial h threshold clock
  thread := fun _ hthread => by cases hthread
  current := currentTracker_initial preferences threshold clock
  safe := safeTracker_initial (fun p hp => by rwa [← h p hp] at hk) threshold clock

omit [DecidableEq PcapIf] in
theorem OneTracker.tracker {k : Int32 × Int32} {u : Monitor PcapIf} (h : u.OneTracker k) :
    u.sniffer.vars.alertThread = none ∧ u.trackers = [] ∨
      u.sniffer.vars.alertThread = some k ∧ ∃ a, u.trackers = [a] ∧ a.Sole k := by
  rcases h.current.tracker with hnone | ⟨k', hsome, hsole⟩
  · exact Or.inl hnone
  · obtain rfl := h.thread k' hsome
    exact Or.inr ⟨hsome, hsole⟩

omit [DecidableEq PcapIf] in
theorem OneTracker.startsOneTracker {k : Int32 × Int32} {u : Monitor PcapIf} (h : u.OneTracker k)
    (e : MonitorEvent) : u.StartsOneTracker e := by
  rintro ⟨-, ⟨p, hpc⟩, hne⟩
  have hvars := h.current.vars
  rw [hpc] at hvars
  rcases h.tracker with ⟨-, hnil⟩ | ⟨hsome, -⟩
  · exact hne hnil
  · simp [Sniffer.AlertCurrent, hsome] at hvars

omit [DecidableEq PcapIf] in
theorem OneTracker.keepsTracker {k : Int32 × Int32} {u : Monitor PcapIf} (h : u.OneTracker k)
    (e : MonitorEvent) : u.KeepsTracker e := by
  rintro ⟨-, p, hpc, hsome, hne⟩
  have hvars := h.current.vars
  have hp := h.settings.sniffer.handled p (by rw [hpc]; rfl)
  obtain ⟨k', hthread⟩ := Option.isSome_iff_exists.1 hsome
  obtain rfl := h.thread k' hthread
  rw [hpc] at hvars
  rcases hvars with hnone | hcurrent
  · simp [hthread] at hnone
  · exact hne (hp.trans (Option.some.inj (hthread.symm.trans hcurrent)))

theorem OneTracker.sniffer_cases {k : Int32 × Int32} {u : Monitor PcapIf} (h : u.OneTracker k)
    {s : Sniffer PcapIf} {c : Option (SnifferCommand PcapIf)}
    (hs : Sniffer.Steps u.sniffer s c) :
    s.vars.alertThread = u.sniffer.vars.alertThread ∧
        (∀ trackers, c.toList.foldl AlertTracker.perform trackers = trackers) ∨
      u.sniffer.vars.alertThread = none ∧ s.vars.alertThread = some k ∧
        c = some (.startAlert k.1 k.2) := by
  obtain ⟨-, hcase⟩ := h.current.vars.step
    (fun hreplaces => h.keepsTracker .sniffer ⟨rfl, hreplaces⟩) hs
  refine hcase.imp_right ?_
  rintro ⟨hnone, p, hp, hsome, rfl⟩
  obtain rfl := h.settings.sniffer.handled p hp
  exact ⟨hnone, hsome, rfl⟩

theorem OneTracker.step {k : Int32 × Int32} {u v : Monitor PcapIf} {e : MonitorEvent}
    (h : u.OneTracker k) (hs : Steps u e v) : v.OneTracker k := by
  have hthread : ∀ {s : Sniffer PcapIf} {c : Option (SnifferCommand PcapIf)},
      Sniffer.Steps u.sniffer s c → ∀ k', s.vars.alertThread = some k' → k' = k := by
    intro s c hsniffer k' hk'
    rcases h.sniffer_cases hsniffer with ⟨hsame, -⟩ | ⟨-, hsome, -⟩
    · exact h.thread k' (hsame ▸ hk')
    · exact Option.some.inj (hk'.symm.trans hsome)
  refine ⟨h.settings.step hs, ?_, h.current.step (h.keepsTracker e) hs,
    h.safe.step (h.startsOneTracker e) hs⟩
  cases hs with
  | quiet hsniffer => exact hthread hsniffer
  | command hsniffer => exact hthread hsniffer
  | _ => exact h.thread

/-! ## The promises -/

/-- A tracker that has received an interrupt neither publishes nor
removes anything, and when all trackers but the newest have received one,
alerts are published with the settings of the newest tracker and the
threshold of the capture callback. -/
structure CurrentOnly (u : Monitor PcapIf) : Prop where
  quiet : ∀ i a v, u.trackers[i]? = some a → a.received = true →
    machine.step u (.tracker i) = some v →
    v.store.alertQueue = u.store.alertQueue ∧ v.store.alertURLQueue = u.store.alertURLQueue
  current : ∀ i a v newest, u.trackers[i]? = some a → u.trackers.getLast? = some newest →
    (∀ b ∈ u.trackers.dropLast, b.received = true) → machine.step u (.tracker i) = some v →
    v.store.alertQueue ≠ u.store.alertQueue →
    a.threshold = newest.threshold ∧ a.alertGapInMillisecond = newest.alertGapInMillisecond ∧
      a.threshold = u.sniffer.vars.threshold

omit [DecidableEq PcapIf] in
def TrackersSound (u : Monitor PcapIf) : Prop := ∀ a ∈ u.trackers, a.Sound u.store

omit [DecidableEq PcapIf] in
theorem CurrentTracker.threshold_eq {k : Int32 × Int32} {u : Monitor PcapIf}
    (h : u.CurrentTracker) (hsome : u.sniffer.vars.alertThread = some k) :
    u.sniffer.vars.threshold = k.1 := by
  have hvars := h.vars
  unfold Sniffer.AlertCurrent at hvars
  split at hvars
  · exact hvars.elim
  · simp [hsome] at hvars
  · rcases hvars with hnone | hcurrent
    · simp [hsome] at hnone
    · exact congrArg Prod.fst (Option.some.inj (hcurrent.symm.trans hsome))

theorem CurrentTracker.currentOnly {u : Monitor PcapIf} (h : u.CurrentTracker) :
    u.CurrentOnly := by
  rcases h.tracker with ⟨-, hnil⟩ | ⟨k, hsome, b, hb, hsole⟩
  · constructor <;> simp [hnil]
  · have hsingle : ∀ (i : ℕ) a, u.trackers[i]? = some a → a = b := by
      intro i a ha
      have hmem := List.mem_of_getElem? ha
      rw [hb] at hmem
      exact List.mem_singleton.1 hmem
    constructor
    · intro i a v ha hreceived
      rw [hsingle i a ha, hsole.silent] at hreceived
      cases hreceived
    · intro i a v newest ha hlast _ _ _
      rw [hb] at hlast
      cases hlast
      rw [hsingle i a ha]
      exact ⟨rfl, rfl, hsole.threshold_eq.trans (h.threshold_eq hsome).symm⟩

omit [DecidableEq PcapIf] in
theorem SafeTracker.trackersSound {u : Monitor PcapIf} (h : u.SafeTracker) : u.TrackersSound :=
  fun a ha => (h.safe a ha).sound (h.gaps a ha)

/-! ## Two trackers -/

section TwoTrackers

variable {u : Monitor PcapIf} (pre post : List AlertTracker) {a : AlertTracker}

def withAlerts (s : Store) (alerts : Fifo Alert) : Store := { s with alertQueue := alerts }

theorem reaches_innerTest (heq : u.trackers = pre ++ a :: post) (hpc : a.pc = .outerTest)
    (hflag : a.interrupted = false) (hq : u.store.alertURLQueue.items ≠ []) :
    ∃ alerts, machine.Reaches u { u with
      store := withAlerts u.store alerts
      trackers := pre ++ a.goto .innerTest :: post } := by
  have hleave := reaches_tracker pre post heq (.leaveOuter hpc hq)
  by_cases hsize : u.store.alertURLQueue.size ≤ a.threshold.toInt
  · refine ⟨u.store.alertQueue.put ⟨u.store.clock, u.store.alertURLQueue.size, false⟩, ?_⟩
    have hlow := hleave.trans (reaches_tracker pre post rfl (.low rfl hsize))
    have hread := hlow.trans (reaches_tracker pre post rfl (.sizeRead rfl))
    exact hread.trans (reaches_tracker pre post rfl (.putAlert _ rfl hflag))
  · refine ⟨u.store.alertQueue, ?_⟩
    exact hleave.trans (reaches_tracker pre post rfl (.high rfl (Int.not_le.1 hsize)))

theorem reaches_removeContinue (heq : u.trackers = pre ++ a :: post) (hpc : a.pc = .outerTest)
    (hflag : a.interrupted = false) {hit : HttpObject} {rest : List HttpObject}
    (hq : u.store.alertURLQueue.items = hit :: rest)
    (hage : a.ageLimit ≤ u.store.clock - hit.hittingTime) :
    ∃ alerts, machine.Reaches u { u with
      store := withAlerts u.store alerts
      trackers := pre ++ { a with pc := .removeContinue, lastURL := some hit } :: post } := by
  have hne : u.store.alertURLQueue.items ≠ [] := by simp [hq]
  have hpeek : u.store.alertURLQueue.peek = some hit := by simp [Fifo.peek, hq]
  obtain ⟨alerts, hinner⟩ := reaches_innerTest pre post heq hpc hflag hne
  refine ⟨alerts, ?_⟩
  have henter := hinner.trans (reaches_tracker pre post rfl (.enterInner rfl hne))
  have hpeeked := henter.trans (reaches_tracker pre post rfl (.peek rfl))
  have hexpired := hpeeked.trans (reaches_tracker pre post rfl (.expired hit rfl hpeek hage))
  simpa only [AlertTracker.goto, withAlerts, hpeek] using hexpired

/-- No head wait is as long as 2^31 milliseconds. -/
theorem ageLimit_le (a : AlertTracker) : a.ageLimit ≤ 2147483648 := by
  have hlt := (a.alertGapInMillisecond - 100).toInt_lt
  unfold AlertTracker.ageLimit
  omega

end TwoTrackers

section Change

variable {pre rest : List (UserPreferences PcapIf)} {p q : UserPreferences PcapIf}

/-- The old tracker sleeps when the change comes. It catches the
interrupt, finds the hit that has arrived, and removes it when it is
old. -/
theorem exists_not_currentOnly (threshold : Int32) (clock : ℤ)
    (hpos : PositiveGaps (pre ++ p :: q :: rest)) (hne : p.alertSettings ≠ q.alertSettings) :
    ∃ es u, machine.run (initial (pre ++ p :: q :: rest) threshold clock) es = some u ∧
      ¬ u.CurrentOnly := by
  obtain ⟨v, hstart, hprefs, hv⟩ := @reaches_started _ _ pre (q :: rest) p threshold clock hpos
  have hempty : v.store.alertURLQueue.items = [] := by
    rw [hv.store_eq]
    rfl
  have hsleep := reaches_tracker [] [] hv.trackers_eq (.waitEmpty rfl hempty)
  have hhit := hsleep.trans (reaches_hit hv.runLoops_eq)
  obtain ⟨w, hchange, hw⟩ := reaches_changed (u := { v with
      store := withHit v.store
      runLoops := [⟨p.device, ⟨.readSize, false⟩⟩]
      trackers := [(AlertTracker.fresh p.threshold p.alertGapInMillisecond).goto
        (.emptySleep (v.store.clock + 5 * 1000))] })
    ⟨hv.resting.pc_eq, hv.resting.queue_eq⟩ hv.vars_eq hprefs (hpos q (by simp)).1
  have htrackers := hw.two_trackers hv.vars_eq hne rfl
  have hitems : w.store.alertURLQueue.items = [v.store.newHit []] := by
    rw [hw.store_eq]
    exact hv.queued.2
  have hclock : w.store.clock = v.store.clock := by
    rw [hw.store_eq]
    rfl
  have hcaught := reaches_tracker [] [_] htrackers (.emptyInterrupted _ rfl rfl)
  have htick := hcaught.trans (reaches_tick _ 2147483648)
  have hage := ageLimit_le (((AlertTracker.fresh p.threshold p.alertGapInMillisecond).goto
    (.emptySleep (v.store.clock + 5 * 1000))).interrupt.caught .outerTest)
  obtain ⟨alerts, hold⟩ := reaches_removeContinue (u := { w with
      store := w.store.tick 2147483648
      trackers := [((AlertTracker.fresh p.threshold p.alertGapInMillisecond).goto
          (.emptySleep (v.store.clock + 5 * 1000))).interrupt.caught .outerTest,
        AlertTracker.fresh q.threshold q.alertGapInMillisecond] }) [] [_] rfl rfl rfl hitems
    (hage.trans (by simp [Store.tick, Store.newHit, hclock]))
  obtain ⟨es, hes⟩ := hstart.trans (hhit.trans (hchange.trans (htick.trans hold)))
  refine ⟨es, _, hes, fun hcurrent => ?_⟩
  have hnonempty : (withAlerts (w.store.tick 2147483648) alerts).alertURLQueue.items ≠ [] := by
    simp [withAlerts, Store.tick, hitems]
  have hremove := (hcurrent.quiet 0 _ _ rfl rfl
    (step_tracker [] [_] rfl (.removeContinue rfl hnonempty))).2
  have hgone := congrArg Fifo.items hremove
  simp [withAlerts, Store.tick, hitems] at hgone

/-- The old tracker has found the queue nonempty when the change comes.
Before it peeks, the new tracker removes the only hit. -/
theorem exists_not_trackersSound (threshold : Int32) (clock : ℤ)
    (hpos : PositiveGaps (pre ++ p :: q :: rest)) (hne : p.alertSettings ≠ q.alertSettings) :
    ∃ es u, machine.run (initial (pre ++ p :: q :: rest) threshold clock) es = some u ∧
      ¬ u.TrackersSound := by
  obtain ⟨v, hstart, hprefs, hv⟩ := @reaches_started _ _ pre (q :: rest) p threshold clock hpos
  have hitems := hv.queued.2
  have hhit := reaches_hit hv.runLoops_eq
  obtain ⟨published, hinner⟩ := reaches_innerTest (u := { v with
      store := withHit v.store
      runLoops := [⟨p.device, ⟨.readSize, false⟩⟩] }) [] [] hv.trackers_eq rfl rfl
    (by simp [hitems])
  have hfound := hinner.trans (reaches_tracker [] [] rfl
    (.enterInner rfl (by simp [withAlerts, hitems])))
  obtain ⟨w, hchange, hw⟩ := reaches_changed (u := { v with
      store := withAlerts (withHit v.store) published
      runLoops := [⟨p.device, ⟨.readSize, false⟩⟩]
      trackers := [(AlertTracker.fresh p.threshold p.alertGapInMillisecond).goto .peek] })
    ⟨hv.resting.pc_eq, hv.resting.queue_eq⟩ hv.vars_eq hprefs (hpos q (by simp)).1
  have htrackers := hw.two_trackers hv.vars_eq hne rfl
  have hlater : w.store.alertURLQueue.items = [v.store.newHit []] := by
    rw [hw.store_eq]
    exact hitems
  have hclock : w.store.clock = v.store.clock := by
    rw [hw.store_eq]
    rfl
  have htick := reaches_tick w 2147483648
  have hage := ageLimit_le (AlertTracker.fresh q.threshold q.alertGapInMillisecond)
  obtain ⟨alerts, hnew⟩ := reaches_removeContinue
    (u := { w with store := w.store.tick 2147483648 }) [_] [] htrackers rfl rfl hlater
    (hage.trans (by simp [Store.tick, Store.newHit, hclock]))
  have hremoved := hnew.trans (reaches_tracker [_] [] rfl
    (.removeContinue rfl (by simp [withAlerts, Store.tick, hlater])))
  have hpeeked := hremoved.trans (reaches_tracker [] [_] rfl (.peek rfl))
  obtain ⟨es, hes⟩ := hstart.trans (hhit.trans (hfound.trans (hchange.trans (htick.trans hpeeked))))
  refine ⟨es, _, hes, fun hsound => ?_⟩
  have hhead := (hsound _ List.mem_cons_self).head rfl
  simp [Fifo.peek, withAlerts, Store.tick, hlater] at hhead

end Change

/-! ## The current settings -/

theorem run_currentOnly {preferences : List (UserPreferences PcapIf)} {threshold : Int32}
    {clock : ℤ} {es : List MonitorEvent} {u : Monitor PcapIf}
    (hkeeps : machine.Along KeepsTracker (initial preferences threshold clock) es)
    (h : machine.run (initial preferences threshold clock) es = some u) : u.CurrentOnly :=
  (machine.run_invariant_along CurrentTracker
    (fun _ _ _ hkeeps hu hs => hu.step hkeeps (step_cases hs)) hkeeps
    (currentTracker_initial preferences threshold clock) h).currentOnly

theorem along_oneTracker {k : Int32 × Int32} (hk : 0 < k.2.toInt)
    {preferences : List (UserPreferences PcapIf)} (hset : ∀ p ∈ preferences, p.alertSettings = k)
    (threshold : Int32) (clock : ℤ) (es : List MonitorEvent)
    {P : Monitor PcapIf → MonitorEvent → Prop} (hP : ∀ u e, u.OneTracker k → P u e) :
    machine.Along P (initial preferences threshold clock) es :=
  machine.along_of_invariant (OneTracker k) (fun _ _ _ hu hs => hu.step (step_cases hs)) hP
    (oneTracker_initial hk hset threshold clock) es

/-- One tracker with the current settings: in every run in which none is
replaced, and in all runs of a session exactly when its alert settings
are the same throughout. -/
theorem currentOnly_iff_same_settings (preferences : List (UserPreferences PcapIf))
    (threshold : Int32) (clock : ℤ) (hpos : PositiveGaps preferences) :
    (∀ es u, machine.run (initial preferences threshold clock) es = some u →
        machine.Along KeepsTracker (initial preferences threshold clock) es → u.CurrentOnly) ∧
      ((∀ es u, machine.run (initial preferences threshold clock) es = some u → u.CurrentOnly) ↔
        ∀ p ∈ preferences, ∀ q ∈ preferences, p.alertSettings = q.alertSettings) := by
  refine ⟨fun es u hes hkeeps => run_currentOnly hkeeps hes, ?_⟩
  apply forall_reachable_iff (Q := fun k => 0 < k.2.toInt) (0, 1) (by decide)
  · exact fun p hp => (hpos p hp).2
  · rintro pre p q rest rfl hne
    exact exists_not_currentOnly threshold clock hpos hne
  · intro k hk hall es u hes
    exact run_currentOnly
      (along_oneTracker hk hall threshold clock es fun _ e hu => hu.keepsTracker e) hes

def thresholdChange : List (UserPreferences ℕ) :=
  [⟨10, 0, 10000, 120000⟩, ⟨20, 0, 10000, 120000⟩]

/-- The old tracker catches the interrupt and, after a hit, comes to its
`alertQueue.put`. -/
def thresholdChangeEvents : List MonitorEvent :=
  List.flatten [[.enter], List.replicate 8 .sniffer, [.tracker 0, .enter],
    List.replicate 7 .sniffer, [.tracker 0, .packet 0 (.request []), .capture 0, .capture 0],
    List.replicate 3 (.tracker 0)]

theorem interrupted_tracker_publishes : ¬ ∀ (preferences : List (UserPreferences ℕ))
    (threshold : Int32) (clock : ℤ), PositiveGaps preferences →
    ∀ es u, machine.run (initial preferences threshold clock) es = some u → u.CurrentOnly := by
  intro hclaim
  have hrun : (machine.run (initial thresholdChange 10 0) thresholdChangeEvents).any
      (fun u => u.trackers[0]?.any (fun a => a.received) && (machine.step u (.tracker 0)).any
        fun v => v.store.alertQueue.log.length != u.store.alertQueue.log.length) = true := by
    decide
  obtain ⟨u, hu, htest⟩ := (Option.any_eq_true _ _).1 hrun
  simp only [Bool.and_eq_true, Option.any_eq_true, bne_iff_ne] at htest
  obtain ⟨⟨a, ha, hreceived⟩, v, hv, hlog⟩ := htest
  have hpos : PositiveGaps thresholdChange := by
    unfold PositiveGaps thresholdChange
    decide
  have hcurrent := hclaim thresholdChange 10 0 hpos thresholdChangeEvents u hu
  exact hlog (by rw [(hcurrent.quiet 0 a v ha hreceived hv).1])

/-- The change is skipped, since a third preference takes it back. -/
def skippedChangeEvents : List MonitorEvent :=
  List.flatten [[.enter], List.replicate 8 .sniffer, [.enter, .enter], List.replicate 7 .sniffer,
    [.packet 0 (.request []), .capture 0, .capture 0], List.replicate 4 (.tracker 0)]

/-- In the first session the device and the period change. The run of the
second ends with a recovery, and all three preferences are done with. -/
theorem currentOnly_iff_same_settings_new_device :
    (∀ es u, machine.run (initial [(⟨10, 0, 10000, 120000⟩ : UserPreferences ℕ),
        ⟨10, 1, 5000, 120000⟩] 10 0) es = some u → u.CurrentOnly) ∧
      ∃ u, machine.run (initial (thresholdChange ++ [⟨10, 0, 10000, 120000⟩]) 10 0)
          skippedChangeEvents = some u ∧
        u.preferences = [] ∧ u.sniffer.pc = .take ∧ u.store.alertQueue.log = [⟨0, 1, false⟩] ∧
          u.CurrentOnly := by
  have hpos : PositiveGaps
      [(⟨10, 0, 10000, 120000⟩ : UserPreferences ℕ), ⟨10, 1, 5000, 120000⟩] := by
    unfold PositiveGaps
    decide
  refine ⟨(currentOnly_iff_same_settings _ 10 0 hpos).2.2 (by decide), ?_⟩
  have hrun : (machine.run (initial (thresholdChange ++ [⟨10, 0, 10000, 120000⟩]) 10 0)
      skippedChangeEvents).any (fun u => decide (u.preferences = [] ∧ u.sniffer.pc = .take ∧
        u.store.alertQueue.log = [⟨0, 1, false⟩])) = true := by
    decide
  have hpos' : PositiveGaps (thresholdChange ++ [⟨10, 0, 10000, 120000⟩]) := by
    unfold PositiveGaps thresholdChange
    decide
  obtain ⟨u, hu, htest⟩ := (Option.any_eq_true _ _).1 hrun
  obtain ⟨hprefs, hpc, hlog⟩ := of_decide_eq_true htest
  exact ⟨u, hu, hprefs, hpc, hlog,
    (currentOnly_iff_same_settings _ 10 0 hpos').1 _ u hu (by decide)⟩

/-! ## Exceptions -/

theorem run_trackersSound {preferences : List (UserPreferences PcapIf)} {threshold : Int32}
    {clock : ℤ} {es : List MonitorEvent} {u : Monitor PcapIf} (hpos : PositiveGaps preferences)
    (hstarts : machine.Along StartsOneTracker (initial preferences threshold clock) es)
    (h : machine.run (initial preferences threshold clock) es = some u) : u.TrackersSound :=
  (machine.run_invariant_along SafeTracker
    (fun _ _ _ hstarts hu hs => hu.step hstarts (step_cases hs)) hstarts
    (safeTracker_initial (fun p hp => (hpos p hp).2) threshold clock) h).trackersSound

/-- No tracker dies: in every run in which no second one is started, and
in all runs of a session exactly when its alert settings are the same
throughout. -/
theorem trackersSound_iff_same_settings (preferences : List (UserPreferences PcapIf))
    (threshold : Int32) (clock : ℤ) (hpos : PositiveGaps preferences) :
    (∀ es u, machine.run (initial preferences threshold clock) es = some u →
        machine.Along StartsOneTracker (initial preferences threshold clock) es →
        u.TrackersSound) ∧
      ((∀ es u, machine.run (initial preferences threshold clock) es = some u →
          u.TrackersSound) ↔
        ∀ p ∈ preferences, ∀ q ∈ preferences, p.alertSettings = q.alertSettings) := by
  refine ⟨fun es u hes hstarts => run_trackersSound hpos hstarts hes, ?_⟩
  apply forall_reachable_iff (Q := fun k => 0 < k.2.toInt) (0, 1) (by decide)
  · exact fun p hp => (hpos p hp).2
  · rintro pre p q rest rfl hne
    exact exists_not_trackersSound threshold clock hpos hne
  · intro k hk hall es u hes
    exact run_trackersSound hpos
      (along_oneTracker hk hall threshold clock es fun _ e hu => hu.startsOneTracker e) hes

def gapChange : List (UserPreferences ℕ) := [⟨10, 0, 10000, 120000⟩, ⟨10, 0, 10000, 1000⟩]

/-- The new tracker finds the hit expired and removes it, and the old one
peeks. -/
def gapChangeEvents : List MonitorEvent :=
  List.flatten [[.enter], List.replicate 8 .sniffer,
    [.packet 0 (.request []), .capture 0, .capture 0], List.replicate 5 (.tracker 0),
    [.enter], List.replicate 7 .sniffer,
    [.tick 1000], List.replicate 8 (.tracker 1), List.replicate 2 (.tracker 0)]

theorem tracker_dies_of_null_head : ¬ ∀ (preferences : List (UserPreferences ℕ))
    (threshold : Int32) (clock : ℤ), PositiveGaps preferences →
    ∀ es u, machine.run (initial preferences threshold clock) es = some u → u.TrackersSound := by
  intro hclaim
  have hrun : (machine.run (initial gapChange 10 0) gapChangeEvents).any
      (fun u => u.trackers.any fun a => a.pc == .dead .nullPointer) = true := by
    decide
  obtain ⟨u, hu, htest⟩ := (Option.any_eq_true _ _).1 hrun
  obtain ⟨a, ha, hpc⟩ := List.any_eq_true.1 htest
  have hpos : PositiveGaps gapChange := by
    unfold PositiveGaps gapChange
    decide
  exact (hclaim gapChange 10 0 hpos gapChangeEvents u hu a ha).alive _ (beq_iff_eq.1 hpc)

/-- The old tracker catches its interrupt before the new one is started. -/
def interruptedEvents : List MonitorEvent :=
  gapChangeEvents.take 24 ++ List.replicate 3 (.tracker 0)

theorem trackersSound_iff_same_settings_new_period :
    (∀ es u, machine.run (initial [(⟨10, 0, 10000, 120000⟩ : UserPreferences ℕ),
        ⟨10, 1, 5000, 120000⟩] 10 0) es = some u → u.TrackersSound) ∧
      ∃ u, machine.run (initial gapChange 10 0) interruptedEvents = some u ∧
        (∃ a ∈ u.trackers, a.received = true) ∧ u.TrackersSound := by
  have hpos : PositiveGaps
      [(⟨10, 0, 10000, 120000⟩ : UserPreferences ℕ), ⟨10, 1, 5000, 120000⟩] := by
    unfold PositiveGaps
    decide
  refine ⟨(trackersSound_iff_same_settings _ 10 0 hpos).2.2 (by decide), ?_⟩
  have hrun : (machine.run (initial gapChange 10 0) interruptedEvents).any
      (fun u => decide (∃ a ∈ u.trackers, a.received = true)) = true := by
    decide
  have hpos' : PositiveGaps gapChange := by
    unfold PositiveGaps gapChange
    decide
  obtain ⟨u, hu, htest⟩ := (Option.any_eq_true _ _).1 hrun
  exact ⟨u, hu, of_decide_eq_true htest,
    (trackersSound_iff_same_settings _ 10 0 hpos').1 _ u hu (by decide)⟩

end Monitor

end HttpLogMonitor
