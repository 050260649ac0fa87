import HttpLogMonitor.MostHitsReport

/-!
# Eviction at the largest count

`removeMinimum` looks for an object strictly below a dummy of count
`Integer.MAX_VALUE`. Where every object has that count it finds none and
removes nothing. An object of that count is never evicted, so the list
outgrows five exactly when there are more than five of them.
-/

namespace HttpLogMonitor

namespace MostHitsCalculator

variable {h : Heap} {list iteration : List HttpObject}

/-- One object goes, the first of minimal count, and all others stay in
their order. -/
def RemovesFirstMinimum (h : Heap) (list : List HttpObject) : Prop :=
  ∃ pre m post, list = pre ++ m :: post ∧ removeMinimum h list = pre ++ post ∧
    (∀ obj ∈ pre, hitKey h m < hitKey h obj) ∧ ∀ obj ∈ post, hitKey h m ≤ hitKey h obj

/-- At most five objects are left of all that were appended, and none of
those dropped has a larger count than one of these. -/
def KeepsLargest (h : Heap) (iteration : List HttpObject) : Prop :=
  (topFive h iteration).length ≤ 5 ∧
    ∃ dropped, iteration.Perm (topFive h iteration ++ dropped) ∧
      ∀ d ∈ dropped, ∀ a ∈ topFive h iteration, hitKey h d ≤ hitKey h a

theorem RemovesFirstMinimum.length_eq (hr : RemovesFirstMinimum h list) :
    list.length = (removeMinimum h list).length + 1 := by
  obtain ⟨pre, m, post, hlist, hrem, -, -⟩ := hr
  rw [hrem, hlist, List.length_append, List.length_append, List.length_cons, Nat.add_assoc]

def atMaxValue (h : Heap) (obj : HttpObject) : Bool := h.getHitCount obj == Int32.maxValue

theorem hitKey_lt_iff {obj : HttpObject} :
    hitKey h obj < Int32.maxValue.toInt ↔ atMaxValue h obj = false := by
  have hle := (h.getHitCount obj).toInt_le
  simp only [atMaxValue, hitKey, beq_eq_false_iff_ne, ne_eq, ← Int32.toInt_inj]
  rw [Int32.toInt_maxValue] at hle ⊢
  omega

theorem forall_atMaxValue (hnone : ¬ ∃ obj ∈ list, atMaxValue h obj = false) :
    ∀ obj ∈ list, atMaxValue h obj = true := by
  simpa using hnone

theorem removeMinimum_of_atMaxValue (hmax : ∀ obj ∈ list, atMaxValue h obj = true) :
    removeMinimum h list = list := by
  have hnone : minimum h list = none := by
    apply Selection.runningMin_eq_candidate
    intro obj hobj
    apply not_lt.1
    intro hlt
    have hother := hitKey_lt_iff.1 hlt
    simp [hmax obj hobj] at hother
  simp [removeMinimum, hnone]

theorem removesFirstMinimum_iff (hlen : 6 ≤ list.length) :
    RemovesFirstMinimum h list ↔ ∃ obj ∈ list, atMaxValue h obj = false := by
  constructor
  · intro hr
    by_contra hnone
    have hlength := hr.length_eq
    rw [removeMinimum_of_atMaxValue (forall_atMaxValue hnone)] at hlength
    omega
  · rintro ⟨obj, hobj, hother⟩
    exact removeMinimum_first hlen ⟨obj, hobj, hitKey_lt_iff.2 hother⟩

theorem RemovesFirstMinimum.countP_eq (hr : RemovesFirstMinimum h list)
    (hex : ∃ obj ∈ list, atMaxValue h obj = false) :
    (removeMinimum h list).countP (atMaxValue h) = list.countP (atMaxValue h) := by
  obtain ⟨pre, m, post, hlist, hrem, hpre, hpost⟩ := hr
  obtain ⟨obj, hobj, hother⟩ := hex
  have hle : hitKey h m ≤ hitKey h obj := by
    rw [hlist, List.mem_append, List.mem_cons] at hobj
    rcases hobj with hobj | rfl | hobj
    · exact (hpre obj hobj).le
    · exact le_rfl
    · exact hpost obj hobj
  have hm : atMaxValue h m = false := hitKey_lt_iff.1 (hle.trans_lt (hitKey_lt_iff.2 hother))
  rw [hrem, hlist, List.countP_append, List.countP_append, List.countP_cons_of_neg (by simp [hm])]

/-- Eviction never takes an object of count `Integer.MAX_VALUE`. -/
theorem countP_removeMinimum (h : Heap) (list : List HttpObject) :
    (removeMinimum h list).countP (atMaxValue h) = list.countP (atMaxValue h) := by
  by_cases hshort : list.length < 6
  · rw [removeMinimum, if_pos hshort]
  · have hlen : 6 ≤ list.length := not_lt.1 hshort
    by_cases hex : ∃ obj ∈ list, atMaxValue h obj = false
    · exact ((removesFirstMinimum_iff hlen).2 hex).countP_eq hex
    · rw [removeMinimum_of_atMaxValue (forall_atMaxValue hex)]

theorem keepsLargest_iff : KeepsLargest h iteration ↔ iteration.countP (atMaxValue h) ≤ 5 := by
  constructor
  · rintro ⟨hlen, -⟩
    have hkept : (topFive h iteration).countP (atMaxValue h) = iteration.countP (atMaxValue h) := by
      rw [topFive, Selection.countP_select (countP_removeMinimum h), List.countP_nil, Nat.zero_add]
    calc
      iteration.countP (atMaxValue h) = (topFive h iteration).countP (atMaxValue h) := hkept.symm
      _ ≤ (topFive h iteration).length := List.countP_le_length
      _ ≤ 5 := hlen
  · intro hcount
    have hevict : ∀ l, l.Subperm iteration → l.length ≤ 5 + 1 →
        Selection.Evicts (hitKey h) 5 l (removeMinimum h l) := by
      intro l hsub hlen
      refine removeMinimum_evicts hlen fun hsix => ?_
      simp only [hitKey_lt_iff]
      by_contra hnone
      have hsixMax := List.countP_eq_length.2 (forall_atMaxValue hnone)
      have hle := hsub.countP_le (atMaxValue h)
      omega
    obtain ⟨dropped, hselected⟩ := Selection.select_selected hevict
    have hlength := hselected.length_eq
    exact ⟨hlength.trans_le (min_le_left 5 _), dropped, hselected.perm, hselected.dominates⟩

def sixObjects : List HttpObject := (List.range 6).map fun ref => ⟨ref, [], 0⟩

theorem eviction_stuck :
    (sixObjects.map HttpObject.ref).Nodup ∧ 6 ≤ sixObjects.length ∧
      ¬ RemovesFirstMinimum (fun _ => Int32.maxValue) sixObjects ∧
      ¬ KeepsLargest (fun _ => Int32.maxValue) sixObjects := by
  refine ⟨by decide, by decide, fun hr => ?_, fun hkeeps => ?_⟩
  · exact absurd hr.length_eq (by decide)
  · exact absurd hkeeps.1 (by decide)

/-- A list of six or more loses its first minimal object exactly when
one of its counts is below `Integer.MAX_VALUE`, and the five largest of a
sequence are kept exactly when at most five have that count. -/
theorem eviction_iff (h : Heap) :
    (∀ list : List HttpObject, 6 ≤ list.length →
      (RemovesFirstMinimum h list ↔ ∃ obj ∈ list, h.getHitCount obj ≠ Int32.maxValue)) ∧
    ∀ iteration : List HttpObject,
      (KeepsLargest h iteration ↔
        iteration.countP (fun obj => h.getHitCount obj == Int32.maxValue) ≤ 5) := by
  refine ⟨fun list hlen => ?_, fun iteration => keepsLargest_iff⟩
  simpa [atMaxValue] using removesFirstMinimum_iff hlen

theorem eviction_iff_sixObjects :
    RemovesFirstMinimum (fun ref => Int32.ofNat (ref % 2)) sixObjects ∧
      KeepsLargest (fun ref => Int32.ofNat (ref % 2)) sixObjects :=
  ⟨((eviction_iff _).1 sixObjects (by decide)).2 ⟨⟨0, [], 0⟩, by decide, by decide⟩,
    ((eviction_iff _).2 sixObjects).2 (by decide)⟩

end MostHitsCalculator

end HttpLogMonitor
