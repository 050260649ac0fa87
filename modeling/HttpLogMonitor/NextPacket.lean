import HttpLogMonitor.Library.Fifo
import HttpLogMonitor.Objects

/-!
# The capture callback

`nextPacket` of `RunLoop`, one queue operation a step. The queues are
never full: a queue at its capacity of `Integer.MAX_VALUE` would only
hold a put back.

`put` throws `InterruptedException` when the thread's interrupt flag is
set, and clears the flag. The callback catches it, logs and returns, and
the capture loop goes on to the next packet.
-/

namespace HttpLogMonitor

/-- The counter of the statistics table; `nextPacket` is its only
writer. -/
structure Statistics where
  hitCount : Int64
  deriving DecidableEq

/-- Everything the threads share: the clock, the queues `main` creates,
the `hitCount` fields of the objects and the statistics. `nextRef` is the
number of objects created so far. -/
structure Store where
  clock : ℤ
  nextRef : ℕ
  heap : Heap
  mostHitsURLQueue : Fifo HttpObject
  mostHitsTopURL : Fifo (List HttpObject)
  alertURLQueue : Fifo HttpObject
  alertQueue : Fifo Alert
  stats : Statistics

namespace Store

def initial (clock : ℤ) : Store where
  clock := clock
  nextRef := 0
  heap := fun _ => 0
  mostHitsURLQueue := Fifo.empty
  mostHitsTopURL := Fifo.empty
  alertURLQueue := Fifo.empty
  alertQueue := Fifo.empty
  stats := ⟨0⟩

/-- `System.currentTimeMillis` does not go back. -/
def tick (s : Store) (d : ℕ) : Store := { s with clock := s.clock + d }

def newHit (s : Store) (url : JavaString) : HttpObject := ⟨s.nextRef, url, s.clock⟩

def create (s : Store) (url : JavaString) : Store :=
  { s with nextRef := s.nextRef + 1, heap := s.heap.setHitCount (s.newHit url) 0 }

end Store

/-- Where a call of `nextPacket` stands: the operation it is about to
carry out, with the local variables it still needs. -/
inductive PacketPc where
  | idle
  | putMostHits (newHit : HttpObject)
  | putAlertURL (newHit : HttpObject)
  | readSize
  | testThreshold (alertURLQueueSize : ℕ)
  | putAlert (alertURLQueueSize : ℕ)
  | updateStats
  deriving DecidableEq

structure Callback where
  pc : PacketPc
  interrupted : Bool
  deriving DecidableEq

namespace Callback

def fresh : Callback := ⟨.idle, false⟩

/-- `InterruptedException` caught: the call is over and the flag is
clear. -/
def caught : Callback := ⟨.idle, false⟩

def interrupt (c : Callback) : Callback := { c with interrupted := true }

/-- `pcap.loop` hands over a packet, which becomes a hit if it is an HTTP
request. -/
def receive (s : Store) (c : Callback) (packet : PcapPacket) : Option (Store × Callback) :=
  if c.pc = .idle then
    match packet.hitUrl with
    | some url => some (s.create url, { c with pc := .putMostHits (s.newHit url) })
    | none => some (s, c)
  else none

/-- The next operation of the call in progress. `threshold` is
`Sniffer.threshold` at this moment. -/
def step (threshold : Int32) (s : Store) (c : Callback) : Option (Store × Callback) :=
  match c.pc with
  | .idle => none
  | .putMostHits newHit =>
      if c.interrupted then some (s, caught)
      else some ({ s with mostHitsURLQueue := s.mostHitsURLQueue.put newHit },
        { c with pc := .putAlertURL newHit })
  | .putAlertURL newHit =>
      if c.interrupted then some (s, caught)
      else some ({ s with alertURLQueue := s.alertURLQueue.put newHit },
        { c with pc := .readSize })
  | .readSize => some (s, { c with pc := .testThreshold s.alertURLQueue.size })
  | .testThreshold n =>
      if threshold.toInt < n then some (s, { c with pc := .putAlert n })
      else some (s, { c with pc := .updateStats })
  | .putAlert n =>
      if c.interrupted then some (s, caught)
      else some ({ s with alertQueue := s.alertQueue.put ⟨s.clock, n, true⟩ },
        { c with pc := .updateStats })
  | .updateStats => some ({ s with stats := ⟨s.stats.hitCount + 1⟩ }, { c with pc := .idle })

theorem step_isSome (threshold : Int32) (s : Store) {c : Callback} (hc : c.pc ≠ .idle) :
    (step threshold s c).isSome = true := by
  unfold step
  split
  · exact (hc ‹_›).elim
  all_goals first | rfl | (split <;> rfl)

theorem receive_cases {s s' : Store} {c c' : Callback} {packet : PcapPacket}
    (h : receive s c packet = some (s', c')) :
    c.pc = .idle ∧ c'.interrupted = c.interrupted ∧
      ((s' = s ∧ c' = c) ∨
        ∃ url, packet.hitUrl = some url ∧ s' = s.create url ∧ c'.pc = .putMostHits (s.newHit url)) := by
  unfold receive at h
  split at h
  · rename_i hidle
    cases hurl : packet.hitUrl with
    | none =>
        simp only [hurl, Option.some.injEq, Prod.mk.injEq] at h
        exact ⟨hidle, by rw [h.2], Or.inl ⟨h.1.symm, h.2.symm⟩⟩
    | some url =>
        simp only [hurl, Option.some.injEq, Prod.mk.injEq] at h
        obtain ⟨rfl, rfl⟩ := h
        exact ⟨hidle, rfl, Or.inr ⟨url, rfl, rfl, rfl⟩⟩
  · cases h

inductive Steps (threshold : Int32) (s : Store) (c : Callback) : Store → Callback → Prop
  | caught (hflag : c.interrupted = true)
      (hput : (∃ hit, c.pc = .putMostHits hit) ∨ (∃ hit, c.pc = .putAlertURL hit) ∨
        ∃ n, c.pc = .putAlert n) : Steps threshold s c s .caught
  | putMostHits (hit : HttpObject) (hpc : c.pc = .putMostHits hit)
      (hflag : c.interrupted = false) : Steps threshold s c
        { s with mostHitsURLQueue := s.mostHitsURLQueue.put hit } { c with pc := .putAlertURL hit }
  | putAlertURL (hit : HttpObject) (hpc : c.pc = .putAlertURL hit)
      (hflag : c.interrupted = false) : Steps threshold s c
        { s with alertURLQueue := s.alertURLQueue.put hit } { c with pc := .readSize }
  | readSize (hpc : c.pc = .readSize) :
      Steps threshold s c s { c with pc := .testThreshold s.alertURLQueue.size }
  | above (n : ℕ) (hpc : c.pc = .testThreshold n) (h : threshold.toInt < n) :
      Steps threshold s c s { c with pc := .putAlert n }
  | below (n : ℕ) (hpc : c.pc = .testThreshold n) (h : n ≤ threshold.toInt) :
      Steps threshold s c s { c with pc := .updateStats }
  | putAlert (n : ℕ) (hpc : c.pc = .putAlert n) (hflag : c.interrupted = false) :
      Steps threshold s c
        { s with alertQueue := s.alertQueue.put ⟨s.clock, n, true⟩ } { c with pc := .updateStats }
  | updateStats (hpc : c.pc = .updateStats) :
      Steps threshold s c { s with stats := ⟨s.stats.hitCount + 1⟩ } { c with pc := .idle }

theorem step_cases {threshold : Int32} {s s' : Store} {c c' : Callback}
    (h : step threshold s c = some (s', c')) : Steps threshold s c s' c' := by
  obtain ⟨pc, flag⟩ := c
  cases pc with
  | idle => cases h
  | putMostHits hit =>
      cases flag with
      | true =>
          cases h
          exact .caught rfl (Or.inl ⟨hit, rfl⟩)
      | false =>
          cases h
          exact .putMostHits hit rfl rfl
  | putAlertURL hit =>
      cases flag with
      | true =>
          cases h
          exact .caught rfl (Or.inr (Or.inl ⟨hit, rfl⟩))
      | false =>
          cases h
          exact .putAlertURL hit rfl rfl
  | readSize =>
      cases h
      exact .readSize rfl
  | testThreshold n =>
      simp only [step] at h
      split at h
      · cases h
        exact .above n rfl ‹_›
      · cases h
        exact .below n rfl (by omega)
  | putAlert n =>
      cases flag with
      | true =>
          cases h
          exact .caught rfl (Or.inr (Or.inr ⟨n, rfl⟩))
      | false =>
          cases h
          exact .putAlert n rfl rfl
  | updateStats =>
      cases h
      exact .updateStats rfl

/-! ## What the other threads see of a step -/

section Frame

variable {threshold : Int32} {s s' : Store} {c c' : Callback} {packet : PcapPacket}

theorem Steps.clock_eq (h : Steps threshold s c s' c') : s'.clock = s.clock := by
  cases h <;> rfl

theorem Steps.nextRef_eq (h : Steps threshold s c s' c') : s'.nextRef = s.nextRef := by
  cases h <;> rfl

theorem receive_clock_eq (h : receive s c packet = some (s', c')) : s'.clock = s.clock := by
  obtain ⟨-, -, ⟨rfl, -⟩ | ⟨url, -, rfl, -⟩⟩ := receive_cases h <;> rfl

theorem Steps.alertURLQueue_cases (h : Steps threshold s c s' c') :
    s'.alertURLQueue = s.alertURLQueue ∨
      ∃ hit, c.pc = .putAlertURL hit ∧ s'.alertURLQueue = s.alertURLQueue.put hit := by
  cases h with
  | putAlertURL hit hpc _ => exact Or.inr ⟨hit, hpc, rfl⟩
  | _ => exact Or.inl rfl

theorem receive_alertURLQueue_eq (h : receive s c packet = some (s', c')) :
    s'.alertURLQueue = s.alertURLQueue := by
  obtain ⟨-, -, ⟨rfl, -⟩ | ⟨url, -, rfl, -⟩⟩ := receive_cases h <;> rfl

theorem Steps.alertQueue_cases (h : Steps threshold s c s' c') :
    s'.alertQueue = s.alertQueue ∨
      ∃ n, c.pc = .putAlert n ∧ s'.alertQueue = s.alertQueue.put ⟨s.clock, n, true⟩ := by
  cases h with
  | putAlert n hpc _ => exact Or.inr ⟨n, hpc, rfl⟩
  | _ => exact Or.inl rfl

theorem receive_alertQueue_eq (h : receive s c packet = some (s', c')) :
    s'.alertQueue = s.alertQueue := by
  obtain ⟨-, -, ⟨rfl, -⟩ | ⟨url, -, rfl, -⟩⟩ := receive_cases h <;> rfl

end Frame

end Callback

end HttpLogMonitor
