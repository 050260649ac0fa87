import Mathlib.Data.List.Induction
import Mathlib.Data.List.ModifyLast
import Mathlib.Data.List.Nodup
import Mathlib.Data.Option.Basic

/-!
# Lists of threads over a shared state

A thread's step may read and change the shared state. `stepAt` lets the
thread with a given index make its step. A thread list is split at the
thread that moves, so that facts about the others carry over.
-/

namespace Threads

variable {σ θ : Type*}

def stepAt (step : σ → θ → Option (σ × θ)) (s : σ) (threads : List θ) (i : ℕ) :
    Option (σ × List θ) :=
  threads[i]?.bind fun t => (step s t).map fun r => (r.1, threads.set i r.2)

inductive StepsAt (step : σ → θ → Option (σ × θ)) (s : σ) : List θ → ℕ → σ → List θ → Prop
  | mk (pre post : List θ) {t t' : θ} {s' : σ} (h : step s t = some (s', t')) :
      StepsAt step s (pre ++ t :: post) pre.length s' (pre ++ t' :: post)

theorem exists_split {threads : List θ} {i : ℕ} {t : θ} (h : threads[i]? = some t) :
    ∃ pre post, threads = pre ++ t :: post ∧ pre.length = i := by
  obtain ⟨hi, hget⟩ := List.getElem?_eq_some_iff.1 h
  refine ⟨threads.take i, threads.drop (i + 1), ?_, by simp; omega⟩
  rw [← hget, ← List.drop_eq_getElem_cons hi, List.take_append_drop]

theorem stepAt_cases {step : σ → θ → Option (σ × θ)} {s s' : σ} {threads threads' : List θ} {i : ℕ}
    (h : stepAt step s threads i = some (s', threads')) : StepsAt step s threads i s' threads' := by
  obtain ⟨t, ht, hs⟩ := Option.bind_eq_some_iff.1 h
  obtain ⟨⟨s'', t'⟩, hstep, heq⟩ := Option.map_eq_some_iff.1 hs
  cases heq
  obtain ⟨pre, post, rfl, rfl⟩ := exists_split ht
  rw [List.set_append_right _ _ (Nat.le_refl _), Nat.sub_self, List.set_cons_zero]
  exact .mk pre post hstep

theorem stepAt_append {step : σ → θ → Option (σ × θ)} {s s' : σ} {t t' : θ} (pre post : List θ)
    (h : step s t = some (s', t')) :
    stepAt step s (pre ++ t :: post) pre.length = some (s', pre ++ t' :: post) := by
  simp [stepAt, h]

/-- A change of the state that no thread notices. -/
theorem stepAt_map (step : σ → θ → Option (σ × θ)) (g : σ → σ)
    (h : ∀ s t, step (g s) t = (step s t).map fun r => (g r.1, r.2)) (s : σ) (threads : List θ)
    (i : ℕ) : stepAt step (g s) threads i = (stepAt step s threads i).map fun r => (g r.1, r.2) := by
  unfold stepAt
  cases threads[i]? with
  | none => rfl
  | some t => simp [h, Option.map_map, Function.comp_def]

theorem stepAt_eq_none_iff {step : σ → θ → Option (σ × θ)} {s : σ} {threads : List θ} :
    (∀ i, stepAt step s threads i = none) ↔ ∀ t ∈ threads, step s t = none := by
  refine ⟨fun h t ht => ?_, fun h i => ?_⟩
  · obtain ⟨i, hi⟩ := List.mem_iff_getElem?.1 ht
    simpa [stepAt, hi] using h i
  · cases hi : threads[i]? with
    | none => simp [stepAt, hi]
    | some t => simp [stepAt, hi, h t (List.mem_of_getElem? hi)]

theorem existsUnique_owner {α : Type*} {owned : θ → List α} {threads : List θ} {x : α}
    (hnodup : (threads.flatMap owned).Nodup) (hx : x ∈ threads.flatMap owned) :
    ∃! i : ℕ, ∃ t, threads[i]? = some t ∧ x ∈ owned t := by
  induction threads with
  | nil => simp at hx
  | cons t rest ih =>
      rw [List.flatMap_cons] at hnodup hx
      obtain ⟨-, hrest, hdisjoint⟩ := List.nodup_append'.1 hnodup
      have htail : ∀ (i : ℕ) (u : θ), rest[i]? = some u → x ∈ owned u → x ∈ rest.flatMap owned :=
        fun i u hu hxu => List.mem_flatMap.2 ⟨u, List.mem_of_getElem? hu, hxu⟩
      rcases List.mem_append.1 hx with hxt | hxr
      · refine ⟨0, ⟨t, rfl, hxt⟩, ?_⟩
        rintro (- | i) ⟨u, hu, hxu⟩
        · rfl
        · exact (hdisjoint hxt (htail i u hu hxu)).elim
      · obtain ⟨i, ⟨u, hu, hxu⟩, huniq⟩ := ih hrest hxr
        refine ⟨i + 1, ⟨u, hu, hxu⟩, ?_⟩
        rintro (- | j) ⟨v, hv, hxv⟩
        · cases hv
          exact (hdisjoint hxv hxr).elim
        · rw [huniq j ⟨v, hv, hxv⟩]

/-! ## The thread started last -/

theorem map_modifyLast {α : Type*} {f : θ → θ} {g : θ → α} {g' : α → α}
    (h : ∀ t, g (f t) = g' (g t)) (threads : List θ) :
    (threads.modifyLast f).map g = (threads.map g).modifyLast g' := by
  induction threads using List.reverseRecOn with
  | nil => rfl
  | append_singleton threads t _ => simp [List.modifyLast_concat, h]

theorem getLast?_append_toList (threads : List θ) (started : Option θ) :
    (threads ++ started.toList).getLast? = started.or threads.getLast? := by
  cases started <;> simp

theorem map_modifyLast_of_eq {α : Type*} {f : θ → θ} {g : θ → α} (h : ∀ t, g (f t) = g t)
    (threads : List θ) : (threads.modifyLast f).map g = threads.map g := by
  induction threads using List.reverseRecOn with
  | nil => rfl
  | append_singleton threads t _ => simp [List.modifyLast_concat, h]

theorem length_modifyLast (f : θ → θ) (threads : List θ) :
    (threads.modifyLast f).length = threads.length := by
  induction threads using List.reverseRecOn with
  | nil => rfl
  | append_singleton threads t _ => simp [List.modifyLast_concat]

/-- A thread that moves is the only one there is. -/
theorem eq_of_append_cons {pre post : List θ} {t u : θ} (h : pre ++ t :: post = [u]) :
    pre = [] ∧ t = u ∧ post = [] := by
  simpa [List.append_eq_singleton_iff] using h

theorem getElem?_replace {pre post : List θ} {t t' : θ} {i : ℕ} (hi : i ≠ pre.length) :
    (pre ++ t' :: post)[i]? = (pre ++ t :: post)[i]? := by
  rcases Nat.lt_or_gt_of_ne hi with hlt | hgt
  · rw [List.getElem?_append_left hlt, List.getElem?_append_left hlt]
  · obtain ⟨n, rfl⟩ := Nat.exists_eq_add_of_lt hgt
    have hle := Nat.le_of_lt hgt
    have hsub : pre.length + n + 1 - pre.length = n + 1 := by omega
    rw [List.getElem?_append_right hle, List.getElem?_append_right hle, hsub,
      List.getElem?_cons_succ, List.getElem?_cons_succ]

theorem forall_replace {P : θ → Prop} {pre post : List θ} {t t' : θ}
    (h : ∀ u ∈ pre ++ t :: post, P u) (ht' : P t') : ∀ u ∈ pre ++ t' :: post, P u := by
  intro u hu
  rcases List.mem_append.1 hu with hu | hu
  · exact h u (List.mem_append_left _ hu)
  rcases List.mem_cons.1 hu with rfl | hu
  · exact ht'
  · exact h u (List.mem_append_right _ (List.mem_cons_of_mem _ hu))

theorem forall_concat {P : θ → Prop} {threads : List θ} {t : θ} (h : ∀ u ∈ threads, P u)
    (ht : P t) : ∀ u ∈ threads ++ [t], P u := by
  intro u hu
  rcases List.mem_append.1 hu with hu | hu
  · exact h u hu
  · exact List.mem_singleton.1 hu ▸ ht

theorem forall_modifyLast {P : θ → Prop} {f : θ → θ} (hf : ∀ t, P t → P (f t))
    {threads : List θ} (h : ∀ t ∈ threads, P t) : ∀ t ∈ threads.modifyLast f, P t := by
  induction threads using List.reverseRecOn with
  | nil => exact h
  | append_singleton threads last _ =>
      rw [List.modifyLast_concat]
      exact forall_concat (fun t ht => h t (List.mem_append_left _ ht)) (hf last (h last (by simp)))

/-! ## Threads that still have something to do -/

/-- The same active threads, in any order and beside any others. -/
def SameActive (active : θ → Bool) (threads others : List θ) : Prop :=
  (threads.filter active).Perm (others.filter active)

section SameActive

variable {active : θ → Bool} {threads pre post : List θ} {t t' : θ}

theorem filter_replace (h : active t = false) (h' : active t' = false) (pre post : List θ) :
    (pre ++ t' :: post).filter active = (pre ++ t :: post).filter active := by
  simp [h, h']

theorem filter_concat (h : active t = false) (threads : List θ) :
    (threads ++ [t]).filter active = threads.filter active := by
  simp [h]

theorem SameActive.concat {others : List θ} (hsame : SameActive active threads others) (t : θ) :
    SameActive active (threads ++ [t]) (others ++ [t]) := by
  unfold SameActive at hsame ⊢
  rw [List.filter_append, List.filter_append]
  exact hsame.append_right _

/-- An active thread is among the others too, and both can make the same
step. -/
theorem SameActive.exists_split (hsame : SameActive active threads (pre ++ t :: post))
    (ht : active t = true) : ∃ pre' post', threads = pre' ++ t :: post' ∧
      ∀ t', SameActive active (pre' ++ t' :: post') (pre ++ t' :: post) := by
  have hmem : t ∈ threads.filter active := hsame.mem_iff.2 (by simp [ht])
  obtain ⟨pre', post', rfl⟩ := List.append_of_mem (List.mem_of_mem_filter hmem)
  refine ⟨pre', post', rfl, fun t' => ?_⟩
  have hmiddle : ∀ (t' : θ) (pre post : List θ), ((pre ++ t' :: post).filter active).Perm
      ((t' :: (pre ++ post)).filter active) := fun _ _ _ => List.perm_middle.filter active
  have hcons := (hmiddle t pre' post').symm.trans (hsame.trans (hmiddle t pre post))
  rw [List.filter_cons_of_pos ht, List.filter_cons_of_pos ht] at hcons
  have hnew : ((t' :: (pre' ++ post')).filter active).Perm
      ((t' :: (pre ++ post)).filter active) := by
    cases ht' : active t' with
    | true => simpa only [List.filter_cons_of_pos ht'] using hcons.cons_inv.cons t'
    | false => simpa only [List.filter_cons, ht', Bool.false_eq_true, if_false] using hcons.cons_inv
  exact (hmiddle t' pre' post').trans (hnew.trans (hmiddle t' pre post).symm)

/-- A thread starts in the one list where an idle one wakes in the
other. -/
theorem SameActive.wake {others : List θ} (hsame : SameActive active others (pre ++ t :: post))
    (ht : active t = false) (t' : θ) :
    SameActive active (others ++ [t']) (pre ++ t' :: post) := by
  have hmiddle : ((pre ++ t' :: post).filter active).Perm
      ((pre ++ t :: post).filter active ++ [t'].filter active) := by
    have hall := (@List.perm_append_comm _ [t'] post).append_left pre
    have hfilter := hall.filter active
    rw [List.singleton_append, ← List.append_assoc, List.filter_append (pre ++ post)] at hfilter
    simpa only [List.filter_append, List.filter_cons_of_neg (Bool.eq_false_iff.1 ht)] using hfilter
  unfold SameActive at hsame ⊢
  rw [List.filter_append]
  exact (hsame.append_right _).trans hmiddle.symm

end SameActive

/-! ## The work of all threads together -/

section Work

variable {f g : θ → ℕ}

def work (f : θ → ℕ) : List θ → ℕ
  | [] => 0
  | t :: threads => f t + work f threads

@[simp] theorem work_nil : work f [] = 0 := rfl

@[simp] theorem work_cons (t : θ) (threads : List θ) :
    work f (t :: threads) = f t + work f threads := rfl

@[simp] theorem work_append (threads others : List θ) :
    work f (threads ++ others) = work f threads + work f others := by
  induction threads with
  | nil => exact (Nat.zero_add _).symm
  | cons t threads ih => rw [List.cons_append, work_cons, work_cons, ih, Nat.add_assoc]

theorem work_le {threads : List θ} (h : ∀ t ∈ threads, g t ≤ f t) :
    work g threads ≤ work f threads := by
  induction threads with
  | nil => exact Nat.le_refl _
  | cons t threads ih =>
      exact Nat.add_le_add (h t List.mem_cons_self)
        (ih fun t ht => h t (List.mem_cons_of_mem _ ht))

/-- A change of the shared state that makes each thread's work more. -/
theorem work_le_add {c : ℕ} (h : ∀ t, g t ≤ f t + c) (threads : List θ) :
    work g threads ≤ work f threads + c * threads.length := by
  induction threads with
  | nil => simp
  | cons t threads ih =>
      have ht := h t
      rw [work_cons, work_cons, List.length_cons, Nat.mul_succ]
      omega

theorem work_modifyLast {m : θ → θ} (h : ∀ t, f (m t) = f t) (threads : List θ) :
    work f (threads.modifyLast m) = work f threads := by
  induction threads using List.reverseRecOn with
  | nil => rfl
  | append_singleton threads t _ =>
      rw [List.modifyLast_concat, work_append, work_append, work_cons, work_cons, h]

theorem work_modifyLast_le {m : θ → θ} {c : ℕ} (h : ∀ t, f (m t) ≤ f t + c) (threads : List θ) :
    work f (threads.modifyLast m) ≤ work f threads + c := by
  induction threads using List.reverseRecOn with
  | nil => exact Nat.zero_le _
  | append_singleton threads t _ =>
      have ht := h t
      rw [List.modifyLast_concat, work_append, work_append, work_cons, work_cons, work_nil]
      omega

end Work

end Threads
