import Mathlib.Data.List.DropRight
import Mathlib.Data.List.Infix

/-!
# Substring search, splitting and substitution

The string operations of the Java library, over lists of any letters.
`replaceFirst` substitutes at the leftmost occurrence, `replace` from
left to right without overlap, and `split` cuts at a separator and drops
trailing empty parts, but leaves a text without separator whole.
-/

namespace Text

variable {α : Type*} [DecidableEq α]

def contains (s pat : List α) : Bool := decide (pat <:+: s)

def replaceFirst (pat rep : List α) : List α → List α
  | [] => if pat = [] then rep else []
  | c :: cs =>
      if pat <+: c :: cs then rep ++ (c :: cs).drop pat.length
      else c :: replaceFirst pat rep cs

/-- `skip` letters of an occurrence already substituted are still to be
passed over. -/
def replaceFrom (pat rep : List α) : ℕ → List α → List α
  | _, [] => []
  | 0, c :: cs =>
      if pat <+: c :: cs then rep ++ replaceFrom pat rep (pat.length - 1) cs
      else c :: replaceFrom pat rep 0 cs
  | skip + 1, _ :: cs => replaceFrom pat rep skip cs

/-- The pattern is taken to be nonempty. -/
def replace (pat rep s : List α) : List α := replaceFrom pat rep 0 s

def split (sep : α) (s : List α) : List (List α) :=
  if sep ∈ s then (s.splitOn sep).rdropWhile List.isEmpty else [s]

theorem mem_replaceFirst_of_infix {pat rep s : List α} (h : pat <:+: s) {c : α}
    (hc : c ∈ rep) : c ∈ replaceFirst pat rep s := by
  induction s with
  | nil =>
      have hpat : pat = [] := List.eq_nil_of_infix_nil h
      simpa [replaceFirst, hpat] using hc
  | cons d ds ih =>
      unfold replaceFirst
      split
      · exact List.mem_append_left _ hc
      · rename_i hhead
        exact List.mem_cons_of_mem d (ih ((List.infix_cons_iff.1 h).resolve_left hhead))

theorem eq_of_forall_splitOn_nil {sep : α} {s : List α}
    (h : ∀ part ∈ s.splitOn sep, part = []) : ∀ c ∈ s, c = sep := by
  induction s with
  | nil => simp
  | cons d ds ih =>
      rw [List.splitOn_cons_eq_if_modifyHead] at h
      by_cases hd : d = sep
      · simp only [hd, beq_self_eq_true, if_true, List.forall_mem_cons, true_and] at h
        exact List.forall_mem_cons.2 ⟨hd, ih h⟩
      · obtain ⟨p, ps, hp⟩ := List.exists_cons_of_ne_nil (List.splitOn_ne_nil sep ds)
        simp [hd, hp] at h

/-- A letter other than the separator keeps its part, and every part
before it, from being dropped. -/
theorem split_ne_nil {sep c : α} {s : List α} (hc : c ∈ s) (hne : c ≠ sep) :
    split sep s ≠ [] := by
  unfold split
  split
  · intro hnil
    rw [List.rdropWhile_eq_nil_iff] at hnil
    exact hne (eq_of_forall_splitOn_nil (fun part hp => by simpa using hnil part hp) c hc)
  · simp

end Text
