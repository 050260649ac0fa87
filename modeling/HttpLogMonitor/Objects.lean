import Mathlib.Data.Int.Basic
import Mathlib.Logic.Function.Basic

/-!
# The objects that travel through the queues

Java's `int` is `Int32`, so arithmetic wraps as it does there. Dates and
ages are `long` milliseconds and are taken as integers.

An `HttpObject` is a reference. Its `url` and `hittingTime` have no
setter and travel with the reference. Its `hitCount` is mutable and
shared by every holder, so it lives in a heap.
-/

namespace HttpLogMonitor

abbrev JavaString := List Char

inductive JavaException where
  | nullPointer
  | noSuchElement
  | illegalArgument
  | arrayIndexOutOfBounds
  deriving DecidableEq

structure HttpObject where
  ref : ℕ
  url : JavaString
  hittingTime : ℤ
  deriving DecidableEq

/-- The `hitCount` field of every `HttpObject`, by reference. -/
abbrev Heap := ℕ → Int32

namespace Heap

def getHitCount (h : Heap) (obj : HttpObject) : Int32 := h obj.ref

def setHitCount (h : Heap) (obj : HttpObject) (hitCount : Int32) : Heap :=
  Function.update h obj.ref hitCount

@[simp] theorem getHitCount_setHitCount (h : Heap) (obj : HttpObject) (n : Int32) :
    (h.setHitCount obj n).getHitCount obj = n := by
  simp [getHitCount, setHitCount]

theorem getHitCount_setHitCount_ne (h : Heap) {obj other : HttpObject}
    (hne : other.ref ≠ obj.ref) (n : Int32) :
    (h.setHitCount obj n).getHitCount other = h.getHitCount other := by
  simp [getHitCount, setHitCount, Function.update_of_ne hne]

end Heap

/-- `alertType` is true for above threshold, false for below threshold. -/
structure Alert where
  alertTime : ℤ
  hitCount : ℤ
  alertType : Bool
  deriving DecidableEq

/-- What `nextPacket` asks of a packet: does it have a TCP header, an
HTTP header, and if so the `RequestUrl` field. -/
structure PcapPacket where
  hasTcp : Bool
  hasHttp : Bool
  requestUrl : Option JavaString
  deriving DecidableEq

def PcapPacket.hitUrl (packet : PcapPacket) : Option JavaString :=
  if packet.hasTcp && packet.hasHttp then packet.requestUrl else none

def PcapPacket.request (url : JavaString) : PcapPacket := ⟨true, true, some url⟩

@[simp] theorem PcapPacket.hitUrl_request (url : JavaString) : (request url).hitUrl = some url := rfl

/-- The capture device class is a parameter; its `equals` is equality. -/
structure UserPreferences (PcapIf : Type) where
  threshold : Int32
  device : PcapIf
  timeGapInMillisecond : Int32
  alertGapInMillisecond : Int32
  deriving DecidableEq

end HttpLogMonitor
