import HttpLogMonitor.Monitor
import Mathlib.Algebra.Order.BigOperators.Group.List

/-!
# Everywhere or nowhere

A call of `nextPacket` records a hit in three places. An interrupt before
the first put leaves all three alone. An interrupt at a later put ends
the call with the hit in the first place and not in all. Nothing makes up
for such a call, so the first place is ahead of the hits counted by the
number of these calls. The counter itself is a `long`.
-/

namespace HttpLogMonitor

namespace Callback

/-- The hit is on `mostHitsURLQueue` and not yet in the statistics. -/
def uncounted (c : Callback) : ℤ :=
  match c.pc with
  | .idle | .putMostHits _ => 0
  | _ => 1

/-- The hit is on `mostHitsURLQueue` and not yet on `alertURLQueue`. -/
def unlisted (c : Callback) : ℤ :=
  match c.pc with
  | .putAlertURL _ => 1
  | _ => 0

theorem uncounted_nonneg (c : Callback) : 0 ≤ c.uncounted := by
  unfold uncounted
  split <;> decide

def CutShort (c : Callback) : Prop :=
  c.interrupted = true ∧ ((∃ hit, c.pc = .putAlertURL hit) ∨ ∃ n, c.pc = .putAlert n)

end Callback

namespace Store

def hits (s : Store) : ℤ := s.mostHitsURLQueue.log.length

def unlisted (s : Store) : ℤ := s.hits - s.alertURLQueue.log.length

/-- Between the two stores `counted` hits are added to the statistics. -/
def AddsHits (s s' : Store) (counted : ℕ) : Prop :=
  s'.stats.hitCount = s.stats.hitCount + Int64.ofNat counted

def SameRecords (s s' : Store) : Prop :=
  s'.mostHitsURLQueue.log = s.mostHitsURLQueue.log ∧
    s'.alertURLQueue.log = s.alertURLQueue.log ∧ s'.stats = s.stats

theorem AddsHits.none {s s' : Store} (h : s'.stats = s.stats) : s.AddsHits s' 0 := by
  simp [AddsHits, h]

end Store

theorem Callback.receive_records {s s' : Store} {c c' : Callback} {packet : PcapPacket}
    (h : receive s c packet = some (s', c')) :
    s.SameRecords s' ∧ c'.uncounted = c.uncounted ∧ c'.unlisted = c.unlisted := by
  obtain ⟨hidle, -, ⟨rfl, rfl⟩ | ⟨url, -, rfl, hpc⟩⟩ := receive_cases h
  · exact ⟨⟨rfl, rfl, rfl⟩, rfl, rfl⟩
  · exact ⟨⟨rfl, rfl, rfl⟩, by simp [uncounted, hidle, hpc], by simp [unlisted, hidle, hpc]⟩

theorem Callback.Steps.records {threshold : Int32} {s s' : Store} {c c' : Callback}
    (h : Steps threshold s c s' c') (hcut : ¬ c.CutShort) :
    ∃ counted, s.AddsHits s' counted ∧
      s'.hits - c'.uncounted = s.hits - c.uncounted + counted ∧
      s'.unlisted - c'.unlisted = s.unlisted - c.unlisted := by
  cases h with
  | caught hflag hput =>
      obtain ⟨hit, hpc⟩ : ∃ hit, c.pc = .putMostHits hit := by
        rcases hput with hput | hput
        · exact hput
        · exact (hcut ⟨hflag, hput⟩).elim
      exact ⟨0, .none rfl, by simp [uncounted, Callback.caught, hpc],
        by simp [unlisted, Callback.caught, hpc]⟩
  | updateStats hpc =>
      exact ⟨1, rfl, by simp [uncounted, Store.hits, hpc],
        by simp [unlisted, Store.unlisted, Store.hits, hpc]⟩
  | _ =>
      refine ⟨0, .none rfl, ?_, ?_⟩ <;>
        simp_all [uncounted, unlisted, Store.hits, Store.unlisted] <;> omega

theorem Callback.Steps.of_cutShort {threshold : Int32} {s s' : Store} {c c' : Callback}
    (h : Steps threshold s c s' c') (hcut : c.CutShort) :
    s.SameRecords s' ∧ c'.uncounted = c.uncounted - 1 := by
  obtain ⟨hflag, hput⟩ := hcut
  cases h with
  | caught _ _ =>
      refine ⟨⟨rfl, rfl, rfl⟩, ?_⟩
      rcases hput with ⟨hit, hpc⟩ | ⟨n, hpc⟩ <;> simp [uncounted, Callback.caught, hpc]
  | _ => simp_all

theorem CalculatorRun.Steps.sameRecords {s s' : Store} {r r' : CalculatorRun}
    (h : Steps s r s' r') : s.SameRecords s' := by
  cases h <;> exact ⟨rfl, rfl, rfl⟩

theorem AlertTracker.Steps.sameRecords {s s' : Store} {a a' : AlertTracker}
    (h : Steps s a s' a') : s.SameRecords s' := by
  cases h <;> exact ⟨rfl, rfl, rfl⟩

namespace Monitor

variable {PcapIf : Type}

/-- The hits of the calls in progress that are on `mostHitsURLQueue` and
not yet in the statistics. -/
def uncounted (u : Monitor PcapIf) : ℤ := (u.runLoops.map fun l => l.callback.uncounted).sum

def unlisted (u : Monitor PcapIf) : ℤ := (u.runLoops.map fun l => l.callback.unlisted).sum

/-- `counted` hits have been added to the statistics, and `cut` calls have
put their hit on `mostHitsURLQueue` and given it up. -/
structure Accounted (u : Monitor PcapIf) (counted cut : ℕ) : Prop where
  stats_eq : u.store.stats.hitCount = Int64.ofNat counted
  hits_eq : u.store.hits = counted + cut + u.uncounted
  listed : cut = 0 → u.store.unlisted = u.unlisted

/-- No capture thread makes its second or third put with its interrupt
flag set. -/
def Uncut (u : Monitor PcapIf) (e : MonitorEvent) : Prop :=
  ∀ i l, e = .capture i → u.runLoops[i]? = some l → ¬ l.callback.CutShort

def Quiescent (u : Monitor PcapIf) : Prop := ∀ l ∈ u.runLoops, l.callback.pc = .idle

theorem accounted_initial (preferences : List (UserPreferences PcapIf)) (threshold : Int32)
    (clock : ℤ) : (initial preferences threshold clock).Accounted 0 0 :=
  ⟨rfl, rfl, fun _ => rfl⟩

theorem uncounted_nonneg (u : Monitor PcapIf) : 0 ≤ u.uncounted :=
  List.sum_nonneg fun n hn => by
    obtain ⟨l, -, rfl⟩ := List.mem_map.1 hn
    exact l.callback.uncounted_nonneg

theorem Accounted.counted_le {u : Monitor PcapIf} {counted cut : ℕ} (h : u.Accounted counted cut) :
    counted ≤ u.store.mostHitsURLQueue.log.length := by
  have hhits := h.hits_eq
  have hnonneg := u.uncounted_nonneg
  simp only [Store.hits] at hhits
  omega

theorem Accounted.of_sameRecords {u v : Monitor PcapIf} {counted cut : ℕ}
    (h : u.Accounted counted cut) (hrec : u.store.SameRecords v.store)
    (huncounted : v.uncounted = u.uncounted) (hunlisted : v.unlisted = u.unlisted) :
    v.Accounted counted cut := by
  obtain ⟨hhits, hurls, hstats⟩ := hrec
  refine ⟨by rw [hstats, h.stats_eq], ?_, fun hcut => ?_⟩
  · rw [Store.hits, hhits, huncounted]
    exact h.hits_eq
  · rw [Store.unlisted, Store.hits, hhits, hurls, hunlisted]
    exact h.listed hcut

theorem sum_perform {f : RunLoop PcapIf → ℤ}
    (hinterrupt : ∀ l : RunLoop PcapIf, f { l with callback := l.callback.interrupt } = f l)
    (hfresh : ∀ device, f ⟨device, Callback.fresh⟩ = 0) (loops : List (RunLoop PcapIf))
    (c : SnifferCommand PcapIf) :
    ((RunLoop.perform loops c).map f).sum = (loops.map f).sum := by
  cases c with
  | interruptLoop =>
      rcases List.eq_nil_or_concat' loops with rfl | ⟨pre, l, rfl⟩
      · rfl
      · simp [RunLoop.perform, List.modifyLast_concat, hinterrupt]
  | startLoop device => simp [RunLoop.perform, hfresh]
  | _ => rfl

theorem sum_replace {f : RunLoop PcapIf → ℤ} (pre post : List (RunLoop PcapIf))
    (l l' : RunLoop PcapIf) :
    ((pre ++ l' :: post).map f).sum = ((pre ++ l :: post).map f).sum - f l + f l' := by
  simp only [List.map_append, List.map_cons, List.sum_append, List.sum_cons]
  omega

theorem records_replace {u : Monitor PcapIf} {pre post : List (RunLoop PcapIf)}
    {l : RunLoop PcapIf} (heq : u.runLoops = pre ++ l :: post) (s : Store) (c : Callback) :
    let v := { u with store := s, runLoops := pre ++ { l with callback := c } :: post }
    v.uncounted = u.uncounted - l.callback.uncounted + c.uncounted ∧
      v.unlisted = u.unlisted - l.callback.unlisted + c.unlisted := by
  unfold uncounted unlisted
  rw [heq]
  exact ⟨sum_replace pre post l _, sum_replace pre post l _⟩

variable [DecidableEq PcapIf]

theorem Accounted.step {u v : Monitor PcapIf} {e : MonitorEvent} {counted cut : ℕ}
    (hu : u.Accounted counted cut) (hgood : u.Uncut e) (h : Steps u e v) :
    ∃ counted', counted ≤ counted' ∧ v.Accounted counted' cut := by
  cases h with
  | command hs =>
      refine ⟨counted, le_refl _, hu.of_sameRecords ⟨rfl, rfl, rfl⟩ ?_ ?_⟩
      · exact sum_perform (f := fun l => l.callback.uncounted) (fun l => rfl) (fun _ => rfl) _ _
      · exact sum_perform (f := fun l => l.callback.unlisted) (fun l => rfl) (fun _ => rfl) _ _
  | @packet pre post l packet s c heq hr =>
      obtain ⟨hrec, huncounted, hunlisted⟩ := Callback.receive_records hr
      obtain ⟨hsum, hlist⟩ := records_replace heq s c
      refine ⟨counted, le_refl _, hu.of_sameRecords hrec ?_ ?_⟩
      · rw [hsum, huncounted, sub_add_cancel]
      · rw [hlist, hunlisted, sub_add_cancel]
  | @capture pre post l s c heq hc =>
      obtain ⟨n, hstats, hhits, hlisted⟩ := hc.records (hgood pre.length l rfl (by simp [heq]))
      obtain ⟨hsum, hlist⟩ := records_replace heq s c
      refine ⟨counted + n, Nat.le_add_right _ _, ?_, ?_, fun hcut => ?_⟩
      · rw [hstats, hu.stats_eq, Int64.ofNat_add]
      · have hbefore := hu.hits_eq
        rw [hsum]
        push_cast
        omega
      · have hbefore := hu.listed hcut
        rw [hlist]
        change s.unlisted = _
        omega
  | calculator heq hr =>
      exact ⟨counted, le_refl _, hu.of_sameRecords hr.sameRecords rfl rfl⟩
  | tracker heq ha =>
      exact ⟨counted, le_refl _, hu.of_sameRecords ha.sameRecords rfl rfl⟩
  | _ => exact ⟨counted, le_refl _, hu.of_sameRecords ⟨rfl, rfl, rfl⟩ rfl rfl⟩

theorem Accounted.cut_step {u v : Monitor PcapIf} {e : MonitorEvent} {counted cut : ℕ}
    (hu : u.Accounted counted cut) (hbad : ¬ u.Uncut e) (h : Steps u e v) :
    v.Accounted counted (cut + 1) := by
  simp only [Uncut, not_forall, not_not] at hbad
  obtain ⟨i, l, rfl, hl, hcut⟩ := hbad
  cases h with
  | @capture pre post l' s c heq hc =>
      obtain rfl : l' = l := by simpa [heq] using hl
      obtain ⟨⟨hhits, hurls, hstats⟩, huncounted⟩ := hc.of_cutShort hcut
      obtain ⟨hsum, -⟩ := records_replace heq s c
      have hbefore := hu.hits_eq
      refine ⟨by rw [hstats, hu.stats_eq], ?_, fun hzero => by omega⟩
      rw [hsum, Store.hits, hhits, huncounted]
      rw [Store.hits] at hbefore
      push_cast
      omega

theorem Accounted.exists_step {u v : Monitor PcapIf} {e : MonitorEvent} {counted cut : ℕ}
    (hu : u.Accounted counted cut) (h : Steps u e v) :
    ∃ counted' cut', counted ≤ counted' ∧ v.Accounted counted' cut' := by
  by_cases hgood : u.Uncut e
  · obtain ⟨counted', hle, hv⟩ := hu.step hgood h
    exact ⟨counted', cut, hle, hv⟩
  · exact ⟨counted, cut + 1, le_refl _, hu.cut_step hgood h⟩

omit [DecidableEq PcapIf] in
theorem Quiescent.uncounted_eq {u : Monitor PcapIf} (h : u.Quiescent) : u.uncounted = 0 :=
  List.sum_eq_zero fun n hn => by
    obtain ⟨l, hl, rfl⟩ := List.mem_map.1 hn
    simp [Callback.uncounted, h l hl]

omit [DecidableEq PcapIf] in
theorem Quiescent.unlisted_eq {u : Monitor PcapIf} (h : u.Quiescent) : u.unlisted = 0 :=
  List.sum_eq_zero fun n hn => by
    obtain ⟨l, hl, rfl⟩ := List.mem_map.1 hn
    simp [Callback.unlisted, h l hl]

/-- The queues have got the same number of hits, and the counter has that
number, as far as a `long` can hold it. -/
def RecordsAgree (u : Monitor PcapIf) : Prop :=
  u.store.mostHitsURLQueue.log.length = u.store.alertURLQueue.log.length ∧
    u.store.stats.hitCount = Int64.ofNat u.store.alertURLQueue.log.length

theorem ofNat_inj {m n : ℕ} (hm : m < 2 ^ 64) (hn : n < 2 ^ 64)
    (h : Int64.ofNat m = Int64.ofNat n) : m = n := by
  have hbits := congrArg (fun x : Int64 => x.toBitVec.toNat) h
  simp at hbits
  omega

/-- In every quiescent state of every run, the three records of the hits
agree if no call was cut short after its first put, and, as long as the
counter cannot have gone round, only then. -/
theorem records_agree_iff (preferences : List (UserPreferences PcapIf)) (threshold : Int32)
    (clock : ℤ) (es : List MonitorEvent) (u : Monitor PcapIf)
    (h : machine.run (initial preferences threshold clock) es = some u) (hquiet : u.Quiescent) :
    (machine.Along Uncut (initial preferences threshold clock) es → u.RecordsAgree) ∧
      (u.store.mostHitsURLQueue.log.length < 2 ^ 64 →
        (u.RecordsAgree ↔ machine.Along Uncut (initial preferences threshold clock) es)) := by
  obtain ⟨cut, ⟨counted, hu⟩, hiff⟩ := machine.exists_failures
    (fun u cut => ∃ counted, Accounted u counted cut)
    (fun _ _ _ _ hgood hu hs => by
      obtain ⟨counted, hu⟩ := hu
      obtain ⟨counted', -, hv⟩ := hu.step hgood (step_cases hs)
      exact ⟨counted', hv⟩)
    (fun _ _ _ _ hbad hu hs => by
      obtain ⟨counted, hu⟩ := hu
      exact ⟨counted, hu.cut_step hbad (step_cases hs)⟩)
    ⟨0, accounted_initial preferences threshold clock⟩ h
  obtain ⟨hstats, hhits, hlisted⟩ := hu
  rw [hquiet.uncounted_eq, Store.hits] at hhits
  rw [hquiet.unlisted_eq, Store.unlisted, Store.hits] at hlisted
  have hforward : cut = 0 → u.RecordsAgree := by
    intro hcut
    have hlisted := hlisted (by omega)
    refine ⟨by omega, ?_⟩
    rw [hstats]
    congr 1
    omega
  rw [hiff]
  refine ⟨hforward, fun hlt => ⟨?_, hforward⟩⟩
  rintro ⟨hlen, hcount⟩
  have heq := ofNat_inj (by omega) (by omega) (hstats.symm.trans hcount)
  omega

/-- A device change in the middle of a call: the hit has been put on
`mostHitsURLQueue` when the interrupt comes. -/
def deviceChangeEvents : List MonitorEvent :=
  List.flatten [[.enter], List.replicate 8 .sniffer,
    [.packet 0 (.request []), .capture 0, .enter], List.replicate 4 .sniffer, [.capture 0]]

def deviceChange : List (UserPreferences ℕ) :=
  [⟨10, 0, 10000, 120000⟩, ⟨10, 1, 10000, 120000⟩]

theorem hit_recorded_in_part : ¬ ∀ (preferences : List (UserPreferences ℕ)) (threshold : Int32)
    (clock : ℤ) (es : List MonitorEvent) (u : Monitor ℕ),
    machine.run (initial preferences threshold clock) es = some u → u.Quiescent →
    u.RecordsAgree := by
  intro hclaim
  have hrun : (machine.run (initial deviceChange 10 0) deviceChangeEvents).any
      (fun u => u.store.mostHitsURLQueue.log.length == 1 && u.store.alertURLQueue.log.length == 0 &&
        u.runLoops.all fun l => l.callback.pc == .idle) = true := by
    decide
  obtain ⟨u, hu, htest⟩ := (Option.any_eq_true _ _).1 hrun
  simp only [Bool.and_eq_true, beq_iff_eq, List.all_eq_true] at htest
  have hagree := (hclaim deviceChange 10 0 deviceChangeEvents u hu htest.2).1
  rw [htest.1.1, htest.1.2] at hagree
  cases hagree

/-- The same device change after the call. The next call of the old thread
ends at its first put. -/
def wholeCallEvents : List MonitorEvent :=
  List.flatten [deviceChangeEvents.take 11, List.replicate 4 (.capture 0), [.enter],
    List.replicate 4 .sniffer, [.packet 0 (.request []), .capture 0]]

theorem records_agree_iff_whole_call : ∃ u : Monitor ℕ,
    machine.run (initial deviceChange 10 0) wholeCallEvents = some u ∧
      u.store.stats.hitCount = 1 ∧ u.RecordsAgree ∧
      machine.Along Uncut (initial deviceChange 10 0) wholeCallEvents := by
  have hrun : (machine.run (initial deviceChange 10 0) wholeCallEvents).any
      (fun u => u.store.mostHitsURLQueue.log.length == 1 && u.store.alertURLQueue.log.length == 1 &&
        u.store.stats.hitCount == 1 && u.runLoops.all fun l => l.callback.pc == .idle) = true := by
    decide
  obtain ⟨u, hu, htest⟩ := (Option.any_eq_true _ _).1 hrun
  simp only [Bool.and_eq_true, beq_iff_eq, List.all_eq_true] at htest
  obtain ⟨⟨⟨hhits, hurls⟩, hcount⟩, hquiet⟩ := htest
  have hagree : u.RecordsAgree := ⟨hhits.trans hurls.symm, by rw [hcount, hurls]; rfl⟩
  have hiff := (records_agree_iff deviceChange 10 0 wholeCallEvents u hu hquiet).2 (by omega)
  exact ⟨u, hu, hcount, hagree, hiff.1 hagree⟩

end Monitor

end HttpLogMonitor
