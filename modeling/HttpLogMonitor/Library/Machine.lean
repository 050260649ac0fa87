import Mathlib.Data.List.Basic
import Mathlib.Data.Option.Basic
import Mathlib.Tactic.Ring

/-!
# Deterministic machines driven by event lists

All nondeterminism sits in the event: which thread moves, which packet
arrives, how far the clock advances. A state together with an event has
at most one successor, so a run is a list of events, a property of
every run is a statement about every list, and a concrete run can be
evaluated.
-/

structure Machine (σ ε : Type*) where
  step : σ → ε → Option σ

namespace Machine

variable {σ τ ε ε' : Type*} (M : Machine σ ε)

def run : σ → List ε → Option σ
  | s, [] => some s
  | s, e :: es => (M.step s e).bind fun t => run t es

@[simp] theorem run_nil (s : σ) : M.run s [] = some s := rfl

theorem run_cons_iff {s u : σ} {e : ε} {es : List ε} :
    M.run s (e :: es) = some u ↔ ∃ t, M.step s e = some t ∧ M.run t es = some u := by
  simp [run, Option.bind_eq_some_iff]

theorem run_append (s : σ) (xs ys : List ε) :
    M.run s (xs ++ ys) = (M.run s xs).bind fun t => M.run t ys := by
  induction xs generalizing s with
  | nil => rfl
  | cons x xs ih =>
      cases h : M.step s x with
      | none => simp [run, h]
      | some t => simpa [run, h] using ih t

theorem run_append_iff {s u : σ} {xs ys : List ε} :
    M.run s (xs ++ ys) = some u ↔ ∃ t, M.run s xs = some t ∧ M.run t ys = some u := by
  rw [run_append, Option.bind_eq_some_iff]

/-- What one step preserves, every run preserves. -/
theorem run_invariant (I : σ → Prop)
    (hstep : ∀ s e t, I s → M.step s e = some t → I t)
    {s u : σ} {es : List ε} (hs : I s) (h : M.run s es = some u) : I u := by
  induction es generalizing s with
  | nil =>
      have hsu : s = u := by simpa using h
      exact hsu ▸ hs
  | cons e es ih =>
      obtain ⟨t, ht, hr⟩ := M.run_cons_iff.1 h
      exact ih (hstep s e t hs ht) hr

/-- A reflexive and transitive relation that contains every step from an
invariant state contains every run from one. -/
theorem run_relation (I : σ → Prop) (R : σ → σ → Prop)
    (hrefl : ∀ s, R s s) (htrans : ∀ s t u, R s t → R t u → R s u)
    (hstep : ∀ s e t, I s → M.step s e = some t → I t ∧ R s t)
    {s u : σ} {es : List ε} (hs : I s) (h : M.run s es = some u) : R s u := by
  induction es generalizing s with
  | nil =>
      have hsu : s = u := by simpa using h
      exact hsu ▸ hrefl s
  | cons e es ih =>
      obtain ⟨t, ht, hr⟩ := M.run_cons_iff.1 h
      obtain ⟨hI, hR⟩ := hstep s e t hs ht
      exact htrans s t u hR (ih hI hr)

/-! ## Runs whose steps all meet a condition -/

/-- Every step that the event list takes from `s` is taken at a state
and with an event satisfying `P`. -/
def Along (P : σ → ε → Prop) : σ → List ε → Prop
  | _, [] => True
  | s, e :: es => P s e ∧ ∀ t, M.step s e = some t → Along P t es

theorem along_cons_iff {P : σ → ε → Prop} {s t : σ} {e : ε} {es : List ε}
    (ht : M.step s e = some t) :
    M.Along P s (e :: es) ↔ P s e ∧ M.Along P t es := by
  simp [Along, ht]

instance decidableAlong {P : σ → ε → Prop} [∀ s e, Decidable (P s e)] :
    ∀ s es, Decidable (M.Along P s es)
  | _, [] => isTrue trivial
  | s, e :: es =>
      match ht : M.step s e with
      | none => decidable_of_iff (P s e) (by simp [Along, ht])
      | some t =>
          have : Decidable (M.Along P t es) := decidableAlong t es
          decidable_of_iff (P s e ∧ M.Along P t es) (M.along_cons_iff ht).symm

theorem run_invariant_along {P : σ → ε → Prop} (I : σ → Prop)
    (hstep : ∀ s e t, P s e → I s → M.step s e = some t → I t)
    {s u : σ} {es : List ε} (hP : M.Along P s es) (hs : I s)
    (h : M.run s es = some u) : I u := by
  induction es generalizing s with
  | nil =>
      have hsu : s = u := by simpa using h
      exact hsu ▸ hs
  | cons e es ih =>
      obtain ⟨t, ht, hr⟩ := M.run_cons_iff.1 h
      obtain ⟨hPs, hPt⟩ := (M.along_cons_iff ht).1 hP
      exact ih hPt (hstep s e t hPs hs ht) hr

/-- A condition that an invariant implies is met by every step. -/
theorem along_of_invariant {P : σ → ε → Prop} (I : σ → Prop)
    (hstep : ∀ s e t, I s → M.step s e = some t → I t) (hP : ∀ s e, I s → P s e)
    {s : σ} (hs : I s) (es : List ε) : M.Along P s es := by
  induction es generalizing s with
  | nil => trivial
  | cons e es ih => exact ⟨hP s e hs, fun t ht => ih (hstep s e t hs ht)⟩

/-- A thread that is `n` of its steps from the end has got there when it has
made them, whatever the others do in between. -/
theorem run_stages [DecidableEq ε] {P : σ → ε → Prop} (own : ε) (Q : ℕ → σ → Prop)
    (hother : ∀ n s e t, P s e → e ≠ own → Q n s → M.step s e = some t → Q n t)
    (hown : ∀ n s t, P s own → Q (n + 1) s → M.step s own = some t → Q n t)
    (hdone : ∀ s t, Q 0 s → M.step s own = some t → Q 0 t)
    {s u : σ} {es : List ε} {n : ℕ} (hP : M.Along P s es) (hQ : Q n s)
    (h : M.run s es = some u) (hcount : n ≤ es.count own) : Q 0 u := by
  induction es generalizing s n with
  | nil =>
      have hsu : s = u := by simpa using h
      have hzero : n = 0 := by simpa using hcount
      exact hsu ▸ hzero ▸ hQ
  | cons e es ih =>
      obtain ⟨t, ht, hr⟩ := M.run_cons_iff.1 h
      obtain ⟨hPs, hPt⟩ := (M.along_cons_iff ht).1 hP
      by_cases he : e = own
      · subst he
        rw [List.count_cons_self] at hcount
        cases n with
        | zero => exact ih hPt (hdone s t hQ ht) hr (Nat.zero_le _)
        | succ n => exact ih hPt (hown n s t hPs hQ ht) hr (by omega)
      · rw [List.count_cons_of_ne he] at hcount
        exact ih hPt (hother n s e t hPs he hQ ht) hr hcount

/-- A run that fails the condition somewhere has a first part that ends
exactly where it fails. -/
theorem exists_of_not_along {P : σ → ε → Prop} {s u : σ} {es : List ε}
    (h : M.run s es = some u) (hn : ¬ M.Along P s es) :
    ∃ pre e post t, es = pre ++ e :: post ∧ M.run s pre = some t ∧ ¬ P t e := by
  induction es generalizing s with
  | nil => exact (hn trivial).elim
  | cons e es ih =>
      obtain ⟨t, ht, hr⟩ := M.run_cons_iff.1 h
      by_cases hP : P s e
      · have hn' : ¬ M.Along P t es := fun ha => hn ((M.along_cons_iff ht).2 ⟨hP, ha⟩)
        obtain ⟨pre, e', post, t', rfl, hpre, hPt⟩ := ih hr hn'
        exact ⟨e :: pre, e', post, t', rfl, M.run_cons_iff.2 ⟨t, ht, hpre⟩, hPt⟩
      · exact ⟨[], e, es, s, rfl, rfl, hP⟩

/-- What is preserved by the steps that meet the condition, and with one
more by the others, holds at the end with the number of failures. -/
theorem exists_failures {P : σ → ε → Prop} (I : σ → ℕ → Prop)
    (hgood : ∀ s e t n, P s e → I s n → M.step s e = some t → I t n)
    (hbad : ∀ s e t n, ¬ P s e → I s n → M.step s e = some t → I t (n + 1))
    {s u : σ} {es : List ε} {n : ℕ} (hs : I s n) (h : M.run s es = some u) :
    ∃ failures, I u (n + failures) ∧ (M.Along P s es ↔ failures = 0) := by
  induction es generalizing s n with
  | nil =>
      have hsu : s = u := by simpa using h
      exact ⟨0, hsu ▸ hs, by simp [Along]⟩
  | cons e es ih =>
      obtain ⟨t, ht, hr⟩ := M.run_cons_iff.1 h
      by_cases hP : P s e
      · obtain ⟨failures, hu, hiff⟩ := ih (hgood s e t n hP hs ht) hr
        refine ⟨failures, hu, ?_⟩
        rw [M.along_cons_iff ht, hiff]
        simp [hP]
      · obtain ⟨failures, hu, -⟩ := ih (hbad s e t n hP hs ht) hr
        refine ⟨failures + 1, by rwa [Nat.add_right_comm] at hu, ?_⟩
        rw [M.along_cons_iff ht]
        simp [hP]

/-! ## Restriction to the steps that meet a condition -/

def restrict (P : σ → ε → Prop) [∀ s e, Decidable (P s e)] : Machine σ ε :=
  ⟨fun s e => if P s e then M.step s e else none⟩

theorem restrict_step_iff {P : σ → ε → Prop} [∀ s e, Decidable (P s e)] {s t : σ} {e : ε} :
    (M.restrict P).step s e = some t ↔ P s e ∧ M.step s e = some t := by
  unfold restrict
  by_cases hP : P s e
  · simp [hP]
  · simp [hP]

theorem run_of_restrict {P : σ → ε → Prop} [∀ s e, Decidable (P s e)] {s u : σ} {es : List ε}
    (h : (M.restrict P).run s es = some u) : M.run s es = some u := by
  induction es generalizing s with
  | nil => exact h
  | cons e es ih =>
      obtain ⟨t, ht, hr⟩ := (M.restrict P).run_cons_iff.1 h
      exact M.run_cons_iff.2 ⟨t, (M.restrict_step_iff.1 ht).2, ih hr⟩

/-! ## History variables -/

/-- A value that each step of a run updates, and that no step reads. -/
def history {β : Type*} (record : σ → ε → β → β) : σ → β → List ε → β
  | _, b, [] => b
  | s, b, e :: es =>
      match M.step s e with
      | none => b
      | some t => history record t (record s e b) es

theorem run_history_invariant {β : Type*} {record : σ → ε → β → β} (I : σ → β → Prop)
    (hstep : ∀ s e t b, I s b → M.step s e = some t → I t (record s e b))
    {s u : σ} {b : β} {es : List ε} (hs : I s b) (h : M.run s es = some u) :
    I u (M.history record s b es) := by
  induction es generalizing s b with
  | nil =>
      have hsu : s = u := by simpa using h
      exact hsu ▸ hs
  | cons e es ih =>
      obtain ⟨t, ht, hr⟩ := M.run_cons_iff.1 h
      have hnext := ih (hstep s e t b hs ht) hr
      simpa only [history, ht] using hnext

/-! ## Reachability -/

def Reaches (s t : σ) : Prop := ∃ es, M.run s es = some t

theorem Reaches.refl (s : σ) : M.Reaches s s := ⟨[], rfl⟩

variable {M} in
theorem Reaches.trans {s t u : σ} (h : M.Reaches s t) (h' : M.Reaches t u) : M.Reaches s u := by
  obtain ⟨es, hes⟩ := h
  obtain ⟨es', hes'⟩ := h'
  exact ⟨es ++ es', M.run_append_iff.2 ⟨t, hes, hes'⟩⟩

variable {M} in
theorem Reaches.of_step {s t : σ} {e : ε} (h : M.step s e = some t) : M.Reaches s t :=
  ⟨[e], M.run_cons_iff.2 ⟨t, h, rfl⟩⟩

/-! ## Simulation -/

theorem run_simulation (N : Machine τ ε') (f : σ → τ) (I : σ → Prop)
    (hstep : ∀ s e t, I s → M.step s e = some t →
      I t ∧ ∃ es', N.run (f s) es' = some (f t))
    {s u : σ} {es : List ε} (hs : I s) (h : M.run s es = some u) :
    ∃ es', N.run (f s) es' = some (f u) := by
  induction es generalizing s with
  | nil =>
      have hsu : s = u := by simpa using h
      exact ⟨[], by simp [hsu]⟩
  | cons e es ih =>
      obtain ⟨t, ht, hr⟩ := M.run_cons_iff.1 h
      obtain ⟨hI, es₁, h₁⟩ := hstep s e t hs ht
      obtain ⟨es₂, h₂⟩ := ih hI hr
      exact ⟨es₁ ++ es₂, N.run_append_iff.2 ⟨f t, h₁, h₂⟩⟩

/-- A relation that every step can restore relates the ends of runs. -/
theorem run_forward (N : Machine τ ε') (R : σ → τ → Prop)
    (hstep : ∀ s e t w, R s w → M.step s e = some t → ∃ w', N.Reaches w w' ∧ R t w')
    {s u : σ} {w : τ} {es : List ε} (hR : R s w) (h : M.run s es = some u) :
    ∃ w', N.Reaches w w' ∧ R u w' := by
  induction es generalizing s w with
  | nil =>
      have hsu : s = u := by simpa using h
      exact ⟨w, .refl N w, hsu ▸ hR⟩
  | cons e es ih =>
      obtain ⟨t, ht, hr⟩ := M.run_cons_iff.1 h
      obtain ⟨w₁, h₁, hR₁⟩ := hstep s e t w hR ht
      obtain ⟨w₂, h₂, hR₂⟩ := ih hR₁ hr
      exact ⟨w₂, h₁.trans h₂, hR₂⟩

/-! ## Runs that have to end

A potential that every step with an event of `P` lowers. Other events may
raise it. -/

def Settled (P : ε → Prop) (s : σ) : Prop := ∀ e, P e → M.step s e = none

section Potential

variable {I : σ → Prop} {P : ε → Prop} {φ : σ → ℕ}

theorem length_add_le (hstep : ∀ s e t, I s → P e → M.step s e = some t → I t ∧ φ t < φ s)
    {s u : σ} {es : List ε} (hs : I s) (hP : ∀ e ∈ es, P e) (h : M.run s es = some u) :
    es.length + φ u ≤ φ s := by
  induction es generalizing s with
  | nil =>
      have hsu : s = u := by simpa using h
      simp [hsu]
  | cons e es ih =>
      obtain ⟨t, ht, hr⟩ := M.run_cons_iff.1 h
      obtain ⟨hI, hlt⟩ := hstep s e t hs (hP e List.mem_cons_self) ht
      have hle := ih hI (fun e he => hP e (List.mem_cons_of_mem _ he)) hr
      rw [List.length_cons]
      omega

theorem exists_settled (hstep : ∀ s e t, I s → P e → M.step s e = some t → I t ∧ φ t < φ s)
    {s : σ} (hs : I s) :
    ∃ es u, (∀ e ∈ es, P e) ∧ M.run s es = some u ∧ I u ∧ M.Settled P u := by
  induction hn : φ s using Nat.strong_induction_on generalizing s with
  | _ n ih =>
      by_cases hsettled : M.Settled P s
      · exact ⟨[], s, by simp, rfl, hs, hsettled⟩
      · simp only [Settled, not_forall] at hsettled
        obtain ⟨e, he, hsome⟩ := hsettled
        obtain ⟨t, ht⟩ := Option.ne_none_iff_exists'.1 hsome
        obtain ⟨hI, hlt⟩ := hstep s e t hs he ht
        obtain ⟨es, u, hes, hrun, hu⟩ := ih (φ t) (hn ▸ hlt) hI rfl
        refine ⟨e :: es, u, fun e' he' => ?_, M.run_cons_iff.2 ⟨t, ht, hrun⟩, hu⟩
        rcases List.mem_cons.1 he' with rfl | he'
        · exact he
        · exact hes e' he'

end Potential

end Machine
