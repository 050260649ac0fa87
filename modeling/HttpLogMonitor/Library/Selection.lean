import Mathlib.Data.List.MinMax
import Mathlib.Data.List.Perm.Basic
import Mathlib.Data.List.Perm.Subperm
import Mathlib.Order.MinMax
import Mathlib.Tactic.Linarith

/-!
# Online selection of the largest keys

Elements arrive one at a time and are appended to the elements kept so
far. An eviction then drops one element of minimal key as soon as more
than `k` are kept. Whatever the order of arrival and however ties are
broken, this keeps `k` elements of largest key.
-/

namespace Selection

variable {α β : Type*} [LinearOrder β]

/-! ## The running minimum below a bound -/

def keyOr (key : α → β) (bound : β) : Option α → β
  | none => bound
  | some a => key a

/-- A pass over the list that takes an element when its key is strictly
below that of the candidate. -/
def runningMin (key : α → β) (bound : β) (candidate : Option α) : List α → Option α
  | [] => candidate
  | a :: as => runningMin key bound (if key a < keyOr key bound candidate then some a else candidate) as

/-- Either the candidate survives, or the pass ends with the first
element of minimal key. -/
theorem runningMin_cases (key : α → β) (bound : β) (candidate : Option α) (as : List α) :
    (runningMin key bound candidate as = candidate ∧
      ∀ a ∈ as, keyOr key bound candidate ≤ key a) ∨
    ∃ pre m post, as = pre ++ m :: post ∧ runningMin key bound candidate as = some m ∧
      key m < keyOr key bound candidate ∧
      (∀ a ∈ pre, key m < key a) ∧ ∀ a ∈ post, key m ≤ key a := by
  induction as generalizing candidate with
  | nil => simp [runningMin]
  | cons x xs ih =>
      simp only [runningMin]
      by_cases hx : key x < keyOr key bound candidate
      · rw [if_pos hx]
        right
        rcases ih (some x) with ⟨heq, hle⟩ | ⟨pre, m, post, rfl, heq, hm, hpre, hpost⟩
        · exact ⟨[], x, xs, rfl, heq, hx, by simp, hle⟩
        · exact ⟨x :: pre, m, post, rfl, heq, hm.trans hx,
            List.forall_mem_cons.2 ⟨hm, hpre⟩, hpost⟩
      · rw [if_neg hx]
        have hx' : keyOr key bound candidate ≤ key x := not_lt.1 hx
        rcases ih candidate with ⟨heq, hle⟩ | ⟨pre, m, post, rfl, heq, hm, hpre, hpost⟩
        · exact Or.inl ⟨heq, List.forall_mem_cons.2 ⟨hx', hle⟩⟩
        · exact Or.inr ⟨x :: pre, m, post, rfl, heq, hm,
            List.forall_mem_cons.2 ⟨hm.trans_le hx', hpre⟩, hpost⟩

theorem runningMin_first (key : α → β) {bound : β} {as : List α}
    (h : ∃ a ∈ as, key a < bound) :
    ∃ pre m post, as = pre ++ m :: post ∧ runningMin key bound none as = some m ∧
      (∀ a ∈ pre, key m < key a) ∧ ∀ a ∈ post, key m ≤ key a := by
  rcases runningMin_cases key bound none as with ⟨-, hle⟩ | ⟨pre, m, post, has, heq, -, hrest⟩
  · obtain ⟨a, ha, hlt⟩ := h
    exact ((hle a ha).not_gt hlt).elim
  · exact ⟨pre, m, post, has, heq, hrest⟩

/-- Nothing is taken when nothing is below the candidate. -/
theorem runningMin_eq_candidate (key : α → β) {bound : β} {candidate : Option α} {as : List α}
    (h : ∀ a ∈ as, keyOr key bound candidate ≤ key a) :
    runningMin key bound candidate as = candidate := by
  rcases runningMin_cases key bound candidate as with ⟨heq, -⟩ | ⟨pre, m, post, rfl, -, hlt, -⟩
  · exact heq
  · exact ((h m (by simp)).not_gt hlt).elim

/-! ## Keeping the largest -/

/-- What an eviction may do to a list of kept elements: nothing while
there are at most `k`, and drop one of minimal key when there is one too
many. -/
inductive Evicts (key : α → β) (k : ℕ) : List α → List α → Prop
  | keep {l : List α} (hlen : l.length ≤ k) : Evicts key k l l
  | drop {l kept : List α} {m : α} (hlen : l.length = k + 1) (hperm : l.Perm (m :: kept))
      (hmin : ∀ a ∈ kept, key m ≤ key a) : Evicts key k l kept

def select (evict : List α → List α) (kept : List α) (as : List α) : List α :=
  as.foldl (fun kept a => evict (kept ++ [a])) kept

theorem select_subset {evict : List α → List α} (hevict : ∀ l, evict l ⊆ l) (kept as : List α) :
    select evict kept as ⊆ kept ++ as := by
  induction as generalizing kept with
  | nil => simp [select]
  | cons a as ih =>
      intro b hb
      rcases List.mem_append.1 (ih (evict (kept ++ [a])) hb) with hb | hb
      · have hmem := hevict _ hb
        simp only [List.mem_append, List.mem_singleton] at hmem
        rcases hmem with hmem | rfl <;> simp [*]
      · simp [hb]

/-- What arrives is not lost altogether if no eviction drops everything. -/
theorem select_ne_nil {evict : List α → List α} (hevict : ∀ l, l ≠ [] → evict l ≠ [])
    {kept as : List α} (h : kept ++ as ≠ []) : select evict kept as ≠ [] := by
  induction as generalizing kept with
  | nil => simpa [select] using h
  | cons a as ih =>
      have hnext : evict (kept ++ [a]) ≠ [] := hevict _ (by simp)
      exact ih (List.append_ne_nil_of_left_ne_nil hnext as)

/-- Elements that no eviction removes all stay. -/
theorem countP_select {evict : List α → List α} {p : α → Bool}
    (hevict : ∀ l, (evict l).countP p = l.countP p) (kept as : List α) :
    (select evict kept as).countP p = kept.countP p + as.countP p := by
  induction as generalizing kept with
  | nil => simp [select]
  | cons a as ih =>
      have hnext := ih (evict (kept ++ [a]))
      rw [hevict, List.countP_append, Nat.add_assoc, ← List.countP_append] at hnext
      exact hnext

/-- The kept elements are as many as possible, and no dropped one has a
larger key. -/
structure Selected (key : α → β) (k : ℕ) (seen kept dropped : List α) : Prop where
  perm : seen.Perm (kept ++ dropped)
  length_eq : kept.length = min k seen.length
  dominates : ∀ d ∈ dropped, ∀ a ∈ kept, key d ≤ key a

theorem Selected.nil (key : α → β) (k : ℕ) : Selected key k [] [] [] :=
  ⟨.refl _, by simp, by simp⟩

theorem Selected.step {key : α → β} {k : ℕ} {seen kept dropped kept' : List α} {x : α}
    (h : Selected key k seen kept dropped) (he : Evicts key k (kept ++ [x]) kept') :
    ∃ dropped', Selected key k (seen ++ [x]) kept' dropped' := by
  have hlen := h.length_eq
  have htotal := h.perm.length_eq
  have hseen : (seen ++ [x]).Perm (kept ++ [x] ++ dropped) := by
    have hp := h.perm.append_right [x]
    apply hp.trans
    simpa only [List.append_assoc] using List.perm_append_comm.append_left kept
  simp only [List.length_append] at htotal
  cases he with
  | keep hk =>
      -- Below capacity nothing has been dropped yet.
      simp only [List.length_append, List.length_singleton] at hk
      have hnil : dropped = [] := List.length_eq_zero_iff.1 (by omega)
      subst hnil
      refine ⟨[], by simpa using hseen, ?_, by simp⟩
      simp only [List.length_append, List.length_singleton]
      omega
  | @drop _ m hk hperm hmin =>
      refine ⟨m :: dropped, ?_, ?_, ?_⟩
      · apply hseen.trans
        apply (hperm.append_right dropped).trans
        have hmid : (kept' ++ m :: dropped).Perm (m :: (kept' ++ dropped)) := List.perm_middle
        simpa using hmid.symm
      · have hk' := hperm.length_eq
        simp only [List.length_append, List.length_cons, List.length_nil] at hk hk' ⊢
        omega
      · refine List.forall_mem_cons.2 ⟨hmin, ?_⟩
        intro d hd a ha
        have hm : m ∈ kept ++ [x] := hperm.symm.subset List.mem_cons_self
        rcases List.mem_append.1 hm with hmk | hmx
        · exact (h.dominates d hd m hmk).trans (hmin a ha)
        · -- The newcomer itself was dropped, so the kept ones are the old ones.
          have hmx' : m = x := by simpa using hmx
          have hold : (m :: kept').Perm (m :: kept) := by
            apply hperm.symm.trans
            rw [hmx']
            exact List.perm_append_singleton x kept
          exact h.dominates d hd a (hold.cons_inv.subset ha)

/-- An eviction that does its duty on every collection of arriving
elements selects the largest keys among all of them. -/
theorem select_selected {key : α → β} {k : ℕ} {evict : List α → List α} {as : List α}
    (hevict : ∀ l, l.Subperm as → l.length ≤ k + 1 → Evicts key k l (evict l)) :
    ∃ dropped, Selected key k as (select evict [] as) dropped := by
  suffices hgen : ∀ rest seen kept dropped, seen ++ rest = as →
      Selected key k seen kept dropped →
      ∃ dropped', Selected key k as (select evict kept rest) dropped' by
    exact hgen as [] [] [] rfl (Selected.nil key k)
  intro rest
  induction rest with
  | nil =>
      intro seen kept dropped hseen h
      rw [List.append_nil] at hseen
      exact ⟨dropped, hseen ▸ h⟩
  | cons x rest ih =>
      intro seen kept dropped hseen h
      have hsub : (kept ++ [x]).Subperm as := by
        have hkept : kept.Subperm seen :=
          ((List.sublist_append_left kept dropped).subperm).trans h.perm.symm.subperm
        have hx : [x].Subperm (x :: rest) := (List.singleton_sublist.2 List.mem_cons_self).subperm
        exact hseen ▸ hkept.append hx
      have hlen : (kept ++ [x]).length ≤ k + 1 := by
        have := h.length_eq
        simp only [List.length_append, List.length_singleton]
        omega
      obtain ⟨dropped', h'⟩ := h.step (hevict _ hsub hlen)
      exact ih (seen ++ [x]) _ dropped' (by simpa using hseen) h'

/-! ## The first maximum of two parts -/

/-- The later part gives the maximum only if it exceeds the earlier one. -/
theorem argmax_append (key : α → β) (l m : List α) :
    (l ++ m).argmax key =
      match l.argmax key, m.argmax key with
      | none, b => b
      | some a, none => some a
      | some a, some b => if key a < key b then some b else some a := by
  induction m using List.reverseRecOn with
  | nil =>
      rw [List.append_nil, List.argmax_nil]
      cases l.argmax key with
      | none => rfl
      | some a => rfl
  | append_singleton m x ih =>
      rw [← List.append_assoc, List.argmax_concat, List.argmax_concat, ih]
      cases l.argmax key with
      | none => rfl
      | some a =>
          cases m.argmax key with
          | none => rfl
          | some b =>
              by_cases hab : key a < key b
              · by_cases hbx : key b < key x
                · simp [hab, hbx, hab.trans hbx]
                · simp [hab, hbx]
              · by_cases hbx : key b < key x
                · simp [hab, hbx]
                · have hax : ¬ key a < key x := not_lt.2 ((not_lt.1 hbx).trans (not_lt.1 hab))
                  simp [hab, hbx, hax]

end Selection
