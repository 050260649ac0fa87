import HttpLogMonitor.MostHitsCalculator
import Mathlib.Algebra.BigOperators.Group.List.Lemmas
import Mathlib.Data.List.Count
import Mathlib.Data.List.Dedup

/-!
# The report of a run

The tally of a run relates its section map and the heap to the hits it
has counted. It holds of the empty map and one counting step preserves
it. What a run publishes follows from the tally of the drained hits and
from the selection of the five largest counts.
-/

namespace HttpLogMonitor

def hitsIn (sec : JavaString) (hits : List HttpObject) : ℕ :=
  hits.countP fun obj => decide (obj.sec = sec)

theorem hitsIn_append (sec : JavaString) (xs ys : List HttpObject) :
    hitsIn sec (xs ++ ys) = hitsIn sec xs + hitsIn sec ys := List.countP_append

@[simp] theorem hitsIn_singleton_self (obj : HttpObject) : hitsIn obj.sec [obj] = 1 := by
  simp [hitsIn]

theorem hitsIn_singleton_ne {sec : JavaString} {obj : HttpObject} (h : obj.sec ≠ sec) :
    hitsIn sec [obj] = 0 := by
  simp [hitsIn, h]

theorem hitsIn_pos_iff {sec : JavaString} {hits : List HttpObject} :
    0 < hitsIn sec hits ↔ ∃ obj ∈ hits, obj.sec = sec := by
  simp [hitsIn, List.countP_pos_iff]

namespace HttpObject

theorem notAfter_iff {h : Heap} {a b : HttpObject} :
    NotAfter h a b ↔ (h.getHitCount b).toInt ≤ (h.getHitCount a).toInt := by
  unfold NotAfter compareTo
  simp only [Int32.lt_iff_toInt_lt, ← Int32.toInt_inj]
  split_ifs
  · simp
    omega
  · simp
    omega
  · simp
    omega

instance (h : Heap) : Std.Total (NotAfter h) where
  total a b := by
    rw [notAfter_iff, notAfter_iff]
    exact le_total _ _

instance (h : Heap) : IsTrans HttpObject (NotAfter h) where
  trans _ _ _ hab hbc := notAfter_iff.2 ((notAfter_iff.1 hbc).trans (notAfter_iff.1 hab))

end HttpObject

namespace MostHitsCalculator

/-! ## Counting -/

/-- The map holds, for each section counted, an object that was counted
there, and the object's `hitCount` is the number of hits counted. -/
structure Tally (h : Heap) (mapping : HitCountMapping) (counted : List HttpObject) : Prop where
  owner : ∀ sec obj, mapping.lookup sec = some obj → obj ∈ counted ∧ obj.sec = sec
  count : ∀ sec obj, mapping.lookup sec = some obj →
    h.getHitCount obj = Int32.ofNat (hitsIn sec counted)
  absent : ∀ sec, mapping.lookup sec = none → hitsIn sec counted = 0

theorem Tally.nil (h : Heap) : Tally h ∅ [] := by
  constructor <;> simp [hitsIn]

theorem Tally.frame {h h' : Heap} {mapping : HitCountMapping} {counted : List HttpObject}
    (ht : Tally h mapping counted)
    (heq : ∀ obj ∈ counted, h'.getHitCount obj = h.getHitCount obj) : Tally h' mapping counted where
  owner := ht.owner
  count sec obj hobj := (heq obj (ht.owner sec obj hobj).1).trans (ht.count sec obj hobj)
  absent := ht.absent

theorem Tally.mem_iff {h : Heap} {mapping : HitCountMapping} {counted : List HttpObject}
    (ht : Tally h mapping counted) {sec : JavaString} :
    sec ∈ mapping ↔ ∃ obj ∈ counted, obj.sec = sec := by
  rw [← AList.lookup_isSome]
  cases hl : mapping.lookup sec with
  | none =>
      have hzero := ht.absent sec hl
      have hno : ¬ ∃ obj ∈ counted, obj.sec = sec := fun hex => by
        have := hitsIn_pos_iff.2 hex
        omega
      simpa using hno
  | some obj => simpa using ⟨obj, (ht.owner sec obj hl).1, (ht.owner sec obj hl).2⟩

def counter (mapping : HitCountMapping) (thisHit : HttpObject) : HttpObject :=
  (mapping.lookup thisHit.sec).getD thisHit

theorem countHit_snd (h : Heap) (mapping : HitCountMapping) (thisHit : HttpObject) :
    (countHit h mapping thisHit).2 = mapping.insert thisHit.sec (counter mapping thisHit) := by
  unfold countHit counter
  split <;> simp [*]

theorem getHitCount_countHit_ne (h : Heap) (mapping : HitCountMapping) (thisHit : HttpObject)
    {obj : HttpObject} (hne : obj.ref ≠ (counter mapping thisHit).ref) :
    (countHit h mapping thisHit).1.getHitCount obj = h.getHitCount obj := by
  unfold countHit
  unfold counter at hne
  split <;> rename_i hl <;> simp only [hl, Option.getD_some, Option.getD_none] at hne <;>
    exact Heap.getHitCount_setHitCount_ne h hne _

theorem Tally.counter_mem {h : Heap} {mapping : HitCountMapping} {counted : List HttpObject}
    (ht : Tally h mapping counted) (thisHit : HttpObject) :
    counter mapping thisHit ∈ counted ++ [thisHit] ∧
      (counter mapping thisHit).sec = thisHit.sec := by
  unfold counter
  cases hl : mapping.lookup thisHit.sec with
  | none => simp
  | some temp =>
      obtain ⟨hmem, hsec⟩ := ht.owner _ _ hl
      exact ⟨List.mem_append_left _ hmem, hsec⟩

theorem Tally.getHitCount_counter {h : Heap} {mapping : HitCountMapping}
    {counted : List HttpObject} (ht : Tally h mapping counted) (thisHit : HttpObject) :
    (countHit h mapping thisHit).1.getHitCount (counter mapping thisHit) =
      Int32.ofNat (hitsIn thisHit.sec (counted ++ [thisHit])) := by
  rw [hitsIn_append, hitsIn_singleton_self]
  unfold countHit counter
  cases hl : mapping.lookup thisHit.sec with
  | none => simp [ht.absent _ hl]
  | some temp => simp [ht.count _ _ hl, Int32.ofNat_add]

/-- One counting step. Distinct objects keep the sections' counters
apart. -/
theorem Tally.countHit {h : Heap} {mapping : HitCountMapping} {counted : List HttpObject}
    (ht : Tally h mapping counted) (thisHit : HttpObject)
    (hnodup : ((counted ++ [thisHit]).map HttpObject.ref).Nodup) :
    Tally (countHit h mapping thisHit).1 (countHit h mapping thisHit).2 (counted ++ [thisHit]) := by
  obtain ⟨hcmem, hcsec⟩ := ht.counter_mem thisHit
  rw [countHit_snd]
  refine ⟨?_, ?_, ?_⟩
  · intro sec obj hobj
    by_cases hsec : sec = thisHit.sec
    · subst hsec
      rw [AList.lookup_insert] at hobj
      cases hobj
      exact ⟨hcmem, hcsec⟩
    · rw [AList.lookup_insert_ne hsec] at hobj
      obtain ⟨hmem, hs⟩ := ht.owner sec obj hobj
      exact ⟨List.mem_append_left _ hmem, hs⟩
  · intro sec obj hobj
    by_cases hsec : sec = thisHit.sec
    · subst hsec
      rw [AList.lookup_insert] at hobj
      cases hobj
      exact ht.getHitCount_counter thisHit
    · rw [AList.lookup_insert_ne hsec] at hobj
      obtain ⟨hmem, hs⟩ := ht.owner sec obj hobj
      have hne : obj.ref ≠ (counter mapping thisHit).ref := by
        intro heq
        have hobjEq := List.inj_on_of_nodup_map hnodup (List.mem_append_left _ hmem) hcmem heq
        exact hsec (by rw [← hs, hobjEq, hcsec])
      rw [getHitCount_countHit_ne h mapping thisHit hne, ht.count sec obj hobj, hitsIn_append,
        hitsIn_singleton_ne (fun heq => hsec heq.symm), Nat.add_zero]
  · intro sec hnone
    by_cases hsec : sec = thisHit.sec
    · subst hsec
      simp at hnone
    · rw [AList.lookup_insert_ne hsec] at hnone
      rw [hitsIn_append, ht.absent sec hnone, hitsIn_singleton_ne (fun heq => hsec heq.symm)]

theorem Tally.countAll {h : Heap} {mapping : HitCountMapping} {counted hits : List HttpObject}
    (ht : Tally h mapping counted) (hnodup : ((counted ++ hits).map HttpObject.ref).Nodup) :
    Tally (countAll h mapping hits).1 (countAll h mapping hits).2 (counted ++ hits) := by
  induction hits generalizing h mapping counted with
  | nil => simpa [MostHitsCalculator.countAll] using ht
  | cons hit hits ih =>
      have hsplit : counted ++ hit :: hits = counted ++ [hit] ++ hits := by simp
      rw [hsplit] at hnodup ⊢
      have hfirst : ((counted ++ [hit]).map HttpObject.ref).Nodup := by
        rw [List.map_append] at hnodup
        exact hnodup.of_append_left
      exact ih (ht.countHit hit hfirst) hnodup

/-! ## Eviction -/

abbrev hitKey (h : Heap) (obj : HttpObject) : ℤ := (h.getHitCount obj).toInt

/-- Below the sentinel there is a first minimal element, and removal by
reference removes it and nothing else: an earlier object has a larger
count, so it is another object. -/
theorem removeMinimum_first {h : Heap} {list : List HttpObject} (hlen : 6 ≤ list.length)
    (hex : ∃ obj ∈ list, hitKey h obj < Int32.maxValue.toInt) :
    ∃ pre m post, list = pre ++ m :: post ∧ removeMinimum h list = pre ++ post ∧
      (∀ obj ∈ pre, hitKey h m < hitKey h obj) ∧ ∀ obj ∈ post, hitKey h m ≤ hitKey h obj := by
  obtain ⟨pre, m, post, hlist, hmin, hpre, hpost⟩ := Selection.runningMin_first (hitKey h) hex
  refine ⟨pre, m, post, hlist, ?_, hpre, hpost⟩
  have hminimum : minimum h list = some m := hmin
  have hother : ∀ obj ∈ pre, ¬ (obj.ref == m.ref) = true := by
    intro obj hobj heq
    have href : obj.ref = m.ref := by simpa using heq
    have hkey : hitKey h obj = hitKey h m := by simp [hitKey, Heap.getHitCount, href]
    have := hpre obj hobj
    omega
  simp only [removeMinimum, if_neg (not_lt.2 hlen), hminimum]
  rw [hlist, List.eraseP_append_right _ hother, List.eraseP_cons_of_pos (by simp)]

theorem removeMinimum_evicts {h : Heap} {list : List HttpObject} (hlen : list.length ≤ 6)
    (hex : list.length = 6 → ∃ obj ∈ list, hitKey h obj < Int32.maxValue.toInt) :
    Selection.Evicts (hitKey h) 5 list (removeMinimum h list) := by
  by_cases hsix : list.length < 6
  · rw [removeMinimum, if_pos hsix]
    exact .keep (by omega)
  · obtain ⟨pre, m, post, hlist, hrem, hpre, hpost⟩ :=
      removeMinimum_first (not_lt.1 hsix) (hex (by omega))
    rw [hrem]
    have hperm : list.Perm (m :: (pre ++ post)) := hlist ▸ List.perm_middle
    refine .drop (by omega) hperm ?_
    intro obj hobj
    rcases List.mem_append.1 hobj with hobj | hobj
    · exact (hpre obj hobj).le
    · exact hpost obj hobj

theorem removeMinimum_subset (h : Heap) (list : List HttpObject) :
    removeMinimum h list ⊆ list := by
  unfold removeMinimum
  split_ifs
  · exact List.Subset.refl _
  · split
    · exact List.Subset.refl _
    · exact List.eraseP_subset

theorem report_subset (h : Heap) (iteration : List HttpObject) :
    report h iteration ⊆ iteration := by
  intro obj hobj
  have hmem := (List.perm_insertionSort (HttpObject.NotAfter h) _).subset hobj
  simpa using Selection.select_subset (removeMinimum_subset h) [] iteration hmem

/-! ## The published list -/

structure TopFive (h : Heap) (hits L : List HttpObject) : Prop where
  length_eq : L.length = min 5 (hits.map HttpObject.sec).dedup.length
  sections_nodup : (L.map HttpObject.sec).Nodup
  hitCount_eq : ∀ obj ∈ L, (h.getHitCount obj).toInt = hitsIn obj.sec hits
  sorted : L.Pairwise fun a b => (h.getHitCount b).toInt ≤ (h.getHitCount a).toInt
  dominates : ∀ hit ∈ hits, hit.sec ∉ L.map HttpObject.sec →
    ∀ obj ∈ L, (hitsIn hit.sec hits : ℤ) ≤ (h.getHitCount obj).toInt

section Values

variable {h : Heap} {mapping : HitCountMapping} {hits : List HttpObject}

theorem Tally.lookup_of_mem_values (ht : Tally h mapping hits) {obj : HttpObject}
    (hobj : obj ∈ mapping.values) : mapping.lookup obj.sec = some obj := by
  obtain ⟨⟨sec, obj'⟩, hentry, hsnd⟩ := List.mem_map.1 hobj
  cases hsnd
  have hl : mapping.lookup sec = some obj' := AList.mem_lookup_iff.2 hentry
  rw [(ht.owner sec obj' hl).2]
  exact hl

theorem Tally.map_sec_values (ht : Tally h mapping hits) :
    mapping.values.map HttpObject.sec = mapping.keys := by
  unfold HitCountMapping.values AList.keys List.keys
  rw [List.map_map]
  apply List.map_congr_left
  intro entry hentry
  exact (ht.owner entry.1 entry.2 (AList.mem_lookup_iff.2 hentry)).2

theorem Tally.keys_perm (ht : Tally h mapping hits) :
    mapping.keys.Perm (hits.map HttpObject.sec).dedup := by
  rw [List.perm_ext_iff_of_nodup mapping.keys_nodup (List.nodup_dedup _)]
  intro sec
  rw [← AList.mem_keys, ht.mem_iff, List.mem_dedup, List.mem_map]

theorem Tally.toInt_eq (ht : Tally h mapping hits) {sec : JavaString} {obj : HttpObject}
    (hobj : mapping.lookup sec = some obj) (hbound : hitsIn sec hits < 2 ^ 31) :
    (h.getHitCount obj).toInt = hitsIn sec hits := by
  rw [ht.count _ _ hobj, Int32.toInt_ofNat_of_lt hbound]

theorem Tally.hitKey_eq (ht : Tally h mapping hits) (hsize : hits.length ≤ 2147483647)
    {obj : HttpObject} (hobj : obj ∈ mapping.values) :
    hitKey h obj = hitsIn obj.sec hits := by
  have hle : hitsIn obj.sec hits ≤ hits.length := List.countP_le_length
  exact ht.toInt_eq (ht.lookup_of_mem_values hobj) (by omega)

theorem Tally.sum_toInt (ht : Tally h mapping hits) (hbound : ∀ sec, hitsIn sec hits < 2 ^ 31) :
    (mapping.values.map fun obj => (h.getHitCount obj).toInt).sum = hits.length := by
  have hvalues : (mapping.values.map fun obj => (h.getHitCount obj).toInt) =
      mapping.values.map fun obj => ((hitsIn obj.sec hits : ℕ) : ℤ) := by
    apply List.map_congr_left
    intro obj hobj
    exact ht.toInt_eq (ht.lookup_of_mem_values hobj) (hbound _)
  have hperm : (mapping.values.map fun obj => hitsIn obj.sec hits).Perm
      ((hits.map HttpObject.sec).dedup.map fun sec => hitsIn sec hits) := by
    have hsecs := ht.map_sec_values ▸ ht.keys_perm
    simpa [List.map_map, Function.comp_def] using hsecs.map fun sec => hitsIn sec hits
  have hsum : (mapping.values.map fun obj => hitsIn obj.sec hits).sum = hits.length := by
    have hcount := List.sum_map_count_dedup_eq_length (hits.map HttpObject.sec)
    rw [List.length_map] at hcount
    rw [List.Perm.sum_eq hperm, ← hcount]
    refine congrArg List.sum (List.map_congr_left fun sec _ => ?_)
    exact (List.countP_congr fun obj _ => by simp).trans List.countP_map.symm
  have hcast := map_list_sum (Nat.castAddMonoidHom ℤ)
    (mapping.values.map fun obj => hitsIn obj.sec hits)
  rw [hsum, List.map_map] at hcast
  exact (congrArg List.sum hvalues).trans hcast.symm

/-- With a second section in the report no count is `MAX_VALUE`. -/
theorem Tally.hitKey_lt (ht : Tally h mapping hits) (hsize : hits.length ≤ 2147483647)
    {obj other : HttpObject} (hobj : obj ∈ mapping.values) (hother : other ∈ mapping.values)
    (hne : other.sec ≠ obj.sec) : hitKey h obj < Int32.maxValue.toInt := by
  have hmem := (ht.owner _ _ (ht.lookup_of_mem_values hother)).1
  have hlt : hitsIn obj.sec hits < hits.length :=
    List.countP_lt_length_iff.2 ⟨other, hmem, by simpa using hne⟩
  rw [ht.hitKey_eq hsize hobj, Int32.toInt_maxValue]
  omega

theorem Tally.topFive_selected (ht : Tally h mapping hits) (hsize : hits.length ≤ 2147483647)
    {iteration : List HttpObject} (hiter : iteration.Perm mapping.values) :
    ∃ dropped, Selection.Selected (hitKey h) 5 iteration (topFive h iteration) dropped := by
  apply Selection.select_selected
  intro list hsub hlen
  refine removeMinimum_evicts hlen fun hsix => ?_
  obtain ⟨a, b, rest, rfl⟩ : ∃ a b rest, list = a :: b :: rest := by
    match list, hsix with
    | a :: b :: rest, _ => exact ⟨a, b, rest, rfl⟩
  have hvalues : (a :: b :: rest).Subperm mapping.values := hsub.trans hiter.subperm
  have hnodup : (mapping.values.map HttpObject.sec).Nodup := ht.map_sec_values ▸ mapping.keys_nodup
  have hsecs : ((a :: b :: rest).map HttpObject.sec).Nodup := by
    obtain ⟨l, hperm, hl⟩ := hvalues
    exact (hperm.map _).nodup_iff.1 (hnodup.sublist (hl.map _))
  have hne : b.sec ≠ a.sec := by
    intro heq
    simp [heq] at hsecs
  exact ⟨a, List.mem_cons_self, ht.hitKey_lt hsize (hvalues.subset (by simp))
    (hvalues.subset (by simp)) hne⟩

theorem Tally.report_topFive (ht : Tally h mapping hits) (hsize : hits.length ≤ 2147483647)
    {iteration : List HttpObject} (hiter : iteration.Perm mapping.values) :
    TopFive h hits (report h iteration) := by
  obtain ⟨dropped, hsel⟩ := ht.topFive_selected hsize hiter
  have hperm : (report h iteration).Perm (topFive h iteration) := List.perm_insertionSort _ _
  have hvalues : (topFive h iteration ++ dropped).Perm mapping.values :=
    hsel.perm.symm.trans hiter
  have hmem : ∀ obj ∈ report h iteration, obj ∈ mapping.values := fun obj hobj =>
    hvalues.subset (List.mem_append_left _ (hperm.subset hobj))
  have hsecs : (mapping.values.map HttpObject.sec).Perm (hits.map HttpObject.sec).dedup :=
    ht.map_sec_values ▸ ht.keys_perm
  refine ⟨?_, ?_, fun obj hobj => ht.hitKey_eq hsize (hmem obj hobj), ?_, ?_⟩
  · rw [hperm.length_eq, hsel.length_eq, hiter.length_eq, ← hsecs.length_eq, List.length_map]
  · have hnodup : ((topFive h iteration ++ dropped).map HttpObject.sec).Nodup :=
      ((hvalues.map _).trans hsecs).nodup_iff.2 (List.nodup_dedup _)
    rw [List.map_append] at hnodup
    exact (hperm.map _).nodup_iff.2 hnodup.of_append_left
  · exact (List.pairwise_insertionSort (HttpObject.NotAfter h) _).imp HttpObject.notAfter_iff.1
  · intro hit hhit habsent obj hobj
    -- The section's object is in the map, so it was kept or dropped.
    have hin : hit.sec ∈ mapping := ht.mem_iff.2 ⟨hit, hhit, rfl⟩
    obtain ⟨missing, hmissing⟩ := Option.isSome_iff_exists.1 (AList.lookup_isSome.2 hin)
    have hsec := (ht.owner _ _ hmissing).2
    have hval : missing ∈ mapping.values :=
      List.mem_map.2 ⟨⟨hit.sec, missing⟩, AList.mem_lookup_iff.1 hmissing, rfl⟩
    have hdropped : missing ∈ dropped := by
      rcases List.mem_append.1 (hvalues.symm.subset hval) with hkept | hdropped
      · exact (habsent (List.mem_map.2 ⟨missing, hperm.symm.subset hkept, hsec⟩)).elim
      · exact hdropped
    have hle := hsel.dominates missing hdropped obj (hperm.subset hobj)
    rwa [ht.hitKey_eq hsize hval, hsec] at hle

end Values

/-- Whatever the order in which the map is iterated, a run drains the
queue and publishes the five sections with the most hits. -/
theorem run_publishes_topFive (entrySet : HitCountMapping → List HttpObject)
    (hiter : ∀ mapping, (entrySet mapping).Perm mapping.values) (s : ReportStore)
    (hne : s.mostHitsURLQueue.items ≠ []) (hsize : s.mostHitsURLQueue.size ≤ 2147483647)
    (hdistinct : (s.mostHitsURLQueue.items.map HttpObject.ref).Nodup) :
    (run entrySet s).mostHitsURLQueue.items = [] ∧
      ∃ L, (run entrySet s).mostHitsTopURL = s.mostHitsTopURL.put L ∧
        TopFive (run entrySet s).heap s.mostHitsURLQueue.items L := by
  have hempty : ¬ s.mostHitsURLQueue.isEmpty = true := fun h => hne (Fifo.isEmpty_iff.1 h)
  have ht : Tally (countAll s.heap ∅ s.mostHitsURLQueue.items).1
      (countAll s.heap ∅ s.mostHitsURLQueue.items).2 s.mostHitsURLQueue.items :=
    (Tally.nil s.heap).countAll hdistinct
  simp only [run, if_neg hempty]
  exact ⟨rfl, _, rfl, ht.report_topFive hsize (hiter _)⟩

def sevenHits : Fifo HttpObject :=
  (["http://a/1", "http://b/1", "http://c/1", "http://d/1", "http://e/1", "http://f/1",
    "http://f/1/2"].zipIdx.map fun p => ⟨p.2, p.1.toList, 0⟩).foldl Fifo.put Fifo.empty

theorem run_publishes_topFive_sevenHits :
    (run HitCountMapping.values ⟨fun _ => 0, sevenHits, Fifo.empty⟩).mostHitsURLQueue.items = [] ∧
      ∃ L, (run HitCountMapping.values ⟨fun _ => 0, sevenHits, Fifo.empty⟩).mostHitsTopURL =
          Fifo.empty.put L ∧
        TopFive (run HitCountMapping.values ⟨fun _ => 0, sevenHits, Fifo.empty⟩).heap
          sevenHits.items L :=
  run_publishes_topFive HitCountMapping.values (fun _ => .refl _)
    ⟨fun _ => 0, sevenHits, Fifo.empty⟩ (by decide) (by decide) (by decide)

example : (report (fun ref => if ref = 2 then 3 else 1)
    (sevenHits.items.take 6)).map HttpObject.ref = [2, 1, 3, 4, 5] := by decide

end MostHitsCalculator

end HttpLogMonitor
