import Mathlib.Data.List.Basic
import Mathlib.Data.List.Infix

/-!
# Queues that remember what was put on them

`items` is what the queue holds, oldest first. `log` is a history: every
element ever put, in order. Elements enter at the back and leave at the
front, so the items are always a suffix of the log, and the structure
carries that fact.
-/

structure Fifo (α : Type*) where
  items : List α
  log : List α
  items_suffix : items <:+ log

namespace Fifo

variable {α : Type*}

def empty : Fifo α := ⟨[], [], List.suffix_rfl⟩

def size (q : Fifo α) : ℕ := q.items.length

def isEmpty (q : Fifo α) : Bool := q.items.isEmpty

def peek (q : Fifo α) : Option α := q.items.head?

def put (q : Fifo α) (x : α) : Fifo α where
  items := q.items ++ [x]
  log := q.log ++ [x]
  items_suffix := by
    obtain ⟨taken, htaken⟩ := q.items_suffix
    exact ⟨taken, by rw [← htaken, List.append_assoc]⟩

/-- Drops the head. The caller has checked that there is one. -/
def remove (q : Fifo α) : Fifo α where
  items := q.items.tail
  log := q.log
  items_suffix := (List.tail_suffix q.items).trans q.items_suffix

/-- What has left the queue, oldest first. -/
def removed (q : Fifo α) : List α := q.log.take (q.log.length - q.items.length)

@[simp] theorem items_empty : (empty : Fifo α).items = [] := rfl

@[simp] theorem log_empty : (empty : Fifo α).log = [] := rfl

@[simp] theorem removed_empty : (empty : Fifo α).removed = [] := rfl

@[simp] theorem items_put (q : Fifo α) (x : α) : (q.put x).items = q.items ++ [x] := rfl

@[simp] theorem log_put (q : Fifo α) (x : α) : (q.put x).log = q.log ++ [x] := rfl

@[simp] theorem items_remove (q : Fifo α) : q.remove.items = q.items.tail := rfl

@[simp] theorem log_remove (q : Fifo α) : q.remove.log = q.log := rfl

@[simp] theorem size_empty : (empty : Fifo α).size = 0 := rfl

@[simp] theorem size_put (q : Fifo α) (x : α) : (q.put x).size = q.size + 1 := by
  simp [size]

@[simp] theorem size_remove (q : Fifo α) : q.remove.size = q.size - 1 := by
  simp [size]

theorem isEmpty_iff {q : Fifo α} : q.isEmpty = true ↔ q.items = [] := by
  simp [isEmpty]

theorem removed_append_items (q : Fifo α) : q.removed ++ q.items = q.log := by
  obtain ⟨taken, htaken⟩ := q.items_suffix
  simp [removed, ← htaken]

@[simp] theorem removed_put (q : Fifo α) (x : α) : (q.put x).removed = q.removed := by
  apply (List.append_left_inj (q.items ++ [x])).1
  rw [← items_put, removed_append_items, log_put, ← removed_append_items q, items_put,
    List.append_assoc]

theorem items_eq_of_peek {q : Fifo α} {x : α} (h : q.peek = some x) :
    q.items = x :: q.remove.items := by
  cases hq : q.items with
  | nil => simp [peek, hq] at h
  | cons y ys => simpa [peek, hq] using h

theorem items_ne_nil_of_peek {q : Fifo α} {x : α} (h : q.peek = some x) : q.items ≠ [] := by
  rw [items_eq_of_peek h]
  exact List.cons_ne_nil x _

theorem exists_peek {q : Fifo α} (h : q.items ≠ []) : ∃ x, q.peek = some x := by
  obtain ⟨x, rest, hitems⟩ := List.exists_cons_of_ne_nil h
  exact ⟨x, by simp [peek, hitems]⟩

theorem removed_remove {q : Fifo α} {x : α} (h : q.peek = some x) :
    q.remove.removed = q.removed ++ [x] := by
  have hitems : q.items = x :: q.items.tail := items_eq_of_peek h
  apply (List.append_left_inj q.items.tail).1
  calc
    q.remove.removed ++ q.items.tail = q.log := removed_append_items q.remove
    _ = q.removed ++ (x :: q.items.tail) := by rw [← hitems, removed_append_items]
    _ = q.removed ++ [x] ++ q.items.tail := by simp

/-- What has been removed is passed over by the filter. -/
theorem length_filter_log_le {q : Fifo α} {p : α → Bool} (h : ∀ x ∈ q.removed, p x = false) :
    (q.log.filter p).length ≤ q.size := by
  have hnone : q.removed.filter p = [] := by
    rw [List.filter_eq_nil_iff]
    exact fun x hx => by simp [h x hx]
  rw [← removed_append_items, List.filter_append, hnone, List.nil_append]
  exact List.length_filter_le _ _

theorem length_removed_add (q : Fifo α) : q.removed.length + q.items.length = q.log.length := by
  rw [← List.length_append, removed_append_items]

theorem length_removed_remove {q : Fifo α} (h : q.items ≠ []) :
    q.remove.removed.length = q.removed.length + 1 := by
  obtain ⟨x, hpeek⟩ := exists_peek h
  simp [removed_remove hpeek]

theorem peek_put_of_ne_nil {q : Fifo α} (h : q.items ≠ []) (x : α) :
    (q.put x).peek = q.peek := by
  cases hq : q.items with
  | nil => exact (h hq).elim
  | cons y ys => simp [peek, hq]

/-! ## Queues to which others put -/

/-- Nothing has happened to the queue but a put. -/
def Grows (q q' : Fifo α) : Prop := q' = q ∨ ∃ x, q' = q.put x

theorem Grows.items_ne_nil {q q' : Fifo α} (h : q.Grows q') (hq : q.items ≠ []) :
    q'.items ≠ [] := by
  rcases h with rfl | ⟨x, rfl⟩
  · exact hq
  · simp

theorem Grows.removed_eq {q q' : Fifo α} (h : q.Grows q') : q'.removed = q.removed := by
  rcases h with rfl | ⟨x, rfl⟩
  · rfl
  · exact q.removed_put x

theorem Grows.log_initial {q q' : Fifo α} (h : q.Grows q') : q.log <+: q'.log := by
  rcases h with rfl | ⟨x, rfl⟩
  · exact List.prefix_rfl
  · exact List.prefix_append _ _

theorem removed_eq_log {q : Fifo α} (h : q.items = []) : q.removed = q.log := by
  rw [← removed_append_items, h, List.append_nil]

/-! ## The queue as it would be had nothing been taken -/

def undrained (q : Fifo α) : Fifo α := ⟨q.log, q.log, List.suffix_rfl⟩

@[simp] theorem undrained_empty : (empty : Fifo α).undrained = empty := rfl

@[simp] theorem undrained_put (q : Fifo α) (x : α) : (q.put x).undrained = q.undrained.put x := rfl

@[simp] theorem undrained_remove (q : Fifo α) : q.remove.undrained = q.undrained := rfl

end Fifo
