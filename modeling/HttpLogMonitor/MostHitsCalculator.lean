import HttpLogMonitor.Library.Fifo
import HttpLogMonitor.Library.Selection
import HttpLogMonitor.Utility
import Mathlib.Data.List.AList
import Mathlib.Data.List.Sort

/-!
# One run of the most-hits report

A run drains `mostHitsURLQueue`, counts the hits of each section in the
`hitCount` of the first object of that section, selects five sections
and publishes them. Counting goes through the heap, so the functions
here are also the steps of runs that overlap.
-/

namespace HttpLogMonitor

/-- A `HashMap` has one entry for a key. The order of its entries says
nothing: an iteration over it is given as a separate argument. -/
abbrev HitCountMapping := AList fun _ : JavaString => HttpObject

namespace HitCountMapping

def values (mapping : HitCountMapping) : List HttpObject := mapping.entries.map Sigma.snd

end HitCountMapping

namespace HttpObject

def sec (obj : HttpObject) : JavaString := Utility.sectionOf obj.url

/-- `((Integer) o.getHitCount()).compareTo(this.hitCount)`: the larger
count comes first. -/
def compareTo (h : Heap) (obj o : HttpObject) : ℤ :=
  if h.getHitCount o < h.getHitCount obj then -1
  else if h.getHitCount o = h.getHitCount obj then 0 else 1

def NotAfter (h : Heap) (a b : HttpObject) : Prop := compareTo h a b ≤ 0

instance (h : Heap) : DecidableRel (NotAfter h) := fun a b =>
  inferInstanceAs (Decidable (compareTo h a b ≤ 0))

end HttpObject

namespace MostHitsCalculator

def countHit (h : Heap) (mapping : HitCountMapping) (thisHit : HttpObject) :
    Heap × HitCountMapping :=
  match mapping.lookup thisHit.sec with
  | some temp => (h.setHitCount temp (h.getHitCount temp + 1), mapping.insert thisHit.sec temp)
  | none => (h.setHitCount thisHit 1, mapping.insert thisHit.sec thisHit)

def countAll (h : Heap) (mapping : HitCountMapping) (hits : List HttpObject) :
    Heap × HitCountMapping :=
  hits.foldl (fun acc thisHit => countHit acc.1 acc.2 thisHit) (h, mapping)

/-- The candidate `none` stands for the dummy object of count
`Integer.MAX_VALUE`, which is in no list. -/
def minimum (h : Heap) (list : List HttpObject) : Option HttpObject :=
  Selection.runningMin (fun obj => (h.getHitCount obj).toInt) Int32.maxValue.toInt none list

/-- `list.remove(minimum)` compares references, as `HttpObject` does not
override `equals`. -/
def removeMinimum (h : Heap) (list : List HttpObject) : List HttpObject :=
  if list.length < 6 then list
  else
    match minimum h list with
    | none => list
    | some obj => list.eraseP fun o => o.ref == obj.ref

def topFive (h : Heap) (iteration : List HttpObject) : List HttpObject :=
  Selection.select (removeMinimum h) [] iteration

/-- `Collections.sort` is stable, and so is insertion sort. -/
def report (h : Heap) (iteration : List HttpObject) : List HttpObject :=
  (topFive h iteration).insertionSort (HttpObject.NotAfter h)

structure ReportStore where
  heap : Heap
  mostHitsURLQueue : Fifo HttpObject
  mostHitsTopURL : Fifo (List HttpObject)

def drain (q : Fifo HttpObject) : Fifo HttpObject where
  items := []
  log := q.log
  items_suffix := List.nil_suffix

/-- A whole run with nothing else going on. `entrySet` is the order in
which the map is iterated. -/
def run (entrySet : HitCountMapping → List HttpObject) (s : ReportStore) : ReportStore :=
  if s.mostHitsURLQueue.isEmpty then s
  else
    let counted := countAll s.heap ∅ s.mostHitsURLQueue.items
    { heap := counted.1
      mostHitsURLQueue := drain s.mostHitsURLQueue
      mostHitsTopURL := s.mostHitsTopURL.put (report counted.1 (entrySet counted.2)) }

end MostHitsCalculator

end HttpLogMonitor
