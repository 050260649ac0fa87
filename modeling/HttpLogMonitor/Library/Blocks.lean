import Mathlib.Data.List.MinMax
import Mathlib.Data.List.SplitBy
import Mathlib.Data.List.TakeWhile

/-!
# Blocks of equal keys

An edge of a list is an element whose key differs from the key before it.
The edges are the first elements of the maximal blocks of equal keys,
where a leading block is left out if it only continues the key before the
list.
-/

namespace Blocks

variable {α κ : Type*} [DecidableEq κ]

def edges (key : α → κ) : κ → List α → List α
  | _, [] => []
  | prev, a :: as => if key a = prev then edges key (key a) as else a :: edges key (key a) as

def blocks (key : α → κ) (l : List α) : List (List α) := l.splitBy fun a b => key a == key b

def dropLeading (key : α → κ) (prev : κ) : List (List α) → List (List α)
  | [] => []
  | block :: rest => if block.head?.map key = some prev then rest else block :: rest

variable (key : α → κ)

/-- The key that stands before whatever follows the list. -/
def lastKey : κ → List α → κ
  | prev, [] => prev
  | _, a :: as => lastKey (key a) as

theorem edges_append (prev : κ) (l m : List α) :
    edges key prev (l ++ m) = edges key prev l ++ edges key (lastKey key prev l) m := by
  induction l generalizing prev with
  | nil => rfl
  | cons a as ih =>
      rw [List.cons_append, edges, edges, lastKey, ih]
      split
      · rfl
      · rfl

theorem edges_of_forall {prev : κ} {l : List α} (h : ∀ a ∈ l, key a = prev) :
    edges key prev l = [] := by
  induction l with
  | nil => rfl
  | cons a as ih =>
      obtain ⟨ha, has⟩ := List.forall_mem_cons.1 h
      rw [edges, if_pos ha, ha, ih has]

omit [DecidableEq κ] in
theorem lastKey_of_forall {prev : κ} {l : List α} (h : ∀ a ∈ l, key a = prev) :
    lastKey key prev l = prev := by
  induction l with
  | nil => rfl
  | cons a as ih =>
      obtain ⟨ha, has⟩ := List.forall_mem_cons.1 h
      rw [lastKey, ha, ih has]

/-- The first block of a list and what follows it. -/
theorem blocks_cons (a : α) (l : List α) :
    ∃ as rest, l = as ++ rest ∧ (∀ b ∈ as, key b = key a) ∧
      (∀ b ∈ rest.head?, key b ≠ key a) ∧ blocks key (a :: l) = (a :: as) :: blocks key rest := by
  have hblock : ∀ b ∈ l.takeWhile (key · = key a), key b = key a := by
    intro b hb
    simpa using List.mem_takeWhile_imp hb
  have hnext : ∀ b ∈ (l.dropWhile (key · = key a)).head?, key b ≠ key a := by
    intro b hb
    have hnot := List.head?_dropWhile_not (fun b => decide (key b = key a)) l
    rw [Option.mem_def.1 hb] at hnot
    simpa using hnot
  refine ⟨_, _, List.takeWhile_append_dropWhile.symm, hblock, hnext, ?_⟩
  have hall : ∀ b ∈ a :: l.takeWhile (key · = key a), key b = key a :=
    List.forall_mem_cons.2 ⟨rfl, hblock⟩
  have hchain : (a :: l.takeWhile (key · = key a)).IsChain fun b c => (key b == key c) = true := by
    apply List.Pairwise.isChain
    apply List.pairwise_of_forall_mem_list
    intro b hb c hc
    rw [hall b hb, hall c hc]
    exact beq_self_eq_true _
  have hone : blocks key (a :: l.takeWhile (key · = key a)) = [a :: l.takeWhile (key · = key a)] :=
    List.splitBy_of_isChain (List.cons_ne_nil _ _) hchain
  have hsplit := List.splitBy_append (r := fun b c => key b == key c)
    (l := a :: l.takeWhile (key · = key a)) (m := l.dropWhile (key · = key a)) (by
      intro b hb c hc
      rw [hall b (List.mem_of_getLast? hb)]
      exact beq_false_of_ne (hnext c hc).symm)
  rw [List.cons_append, List.takeWhile_append_dropWhile] at hsplit
  unfold blocks at hone ⊢
  rw [hsplit, hone]
  rfl

theorem dropLeading_blocks {prev : κ} {l : List α} (h : ∀ a ∈ l.head?, key a ≠ prev) :
    dropLeading key prev (blocks key l) = blocks key l := by
  cases l with
  | nil => rfl
  | cons a as =>
      obtain ⟨block, rest, -, -, -, heq⟩ := blocks_cons key a as
      have hne : ¬ (some a).map key = some prev := by simpa using h
      rw [heq, dropLeading, List.head?_cons, if_neg hne]

/-- Edge detection gives the first element of each block. -/
theorem edges_eq_heads (prev : κ) (l : List α) :
    edges key prev l = (dropLeading key prev (blocks key l)).filterMap List.head? := by
  induction hn : l.length using Nat.strong_induction_on generalizing prev l with
  | _ n ih =>
      cases l with
      | nil => rfl
      | cons a as =>
          obtain ⟨block, rest, rfl, hblock, hnext, heq⟩ := blocks_cons key a as
          have hlt : rest.length < n := by
            rw [← hn, List.length_cons, List.length_append]
            omega
          have hrest : edges key (key a) (block ++ rest) =
              (blocks key rest).filterMap List.head? := by
            rw [edges_append, edges_of_forall key hblock, lastKey_of_forall key hblock,
              List.nil_append, ih rest.length hlt (key a) rest rfl, dropLeading_blocks key hnext]
          rw [edges, heq, dropLeading, hrest]
          by_cases ha : key a = prev
          · simp [ha]
          · simp [ha]

end Blocks
