import HttpLogMonitor.Library.FirstTwo
import HttpLogMonitor.Utility

/-!
# What a section keeps of its URL

The plain section of a URL is what stands before its second slash, the
slashes of the first `http://` not counted. `getSection` computes it with
the scheme hidden behind the marker instead of behind a letter of its own,
so the two differ where the URL itself brings the marker.
-/

namespace HttpLogMonitor.Utility

open Text

variable {url pre post q : JavaString}

/-- What is kept of a URL, with the first `http://` as one letter. -/
def keptPart (url : JavaString) : List (Option Char) :=
  firstTwo (some '/') (hideFirst scheme url)

def plainSection (url : JavaString) : JavaString := shown scheme (keptPart url)

theorem scheme_ne_nil : scheme ≠ [] := List.cons_ne_nil _ _

theorem marker_ne_nil : marker ≠ [] := List.cons_ne_nil _ _

theorem getSection_of_not_isInfix (h : ¬ scheme <:+: url) : getSection url = .ok [] := by
  unfold getSection contains
  rw [decide_eq_false h]
  rfl

theorem getSection_of_isInfix (h : scheme <:+: url) :
    getSection url = .ok (replace marker scheme (shown marker (keptPart url))) := by
  obtain ⟨pre, post, rfl, hfirst⟩ := exists_firstAfter scheme_ne_nil h
  have hhidden : replaceFirst scheme marker (pre ++ (scheme ++ post)) =
      shown marker (hideFirst scheme (pre ++ (scheme ++ post))) := by
    rw [replaceFirst_first scheme_ne_nil hfirst, hideFirst_first scheme_ne_nil hfirst,
      shown_hidden]
  have hmem : '~' ∈ replaceFirst scheme marker (pre ++ (scheme ++ post)) :=
    mem_replaceFirst_of_infix h (by decide)
  have hkept : firstTwo '/' (replaceFirst scheme marker (pre ++ (scheme ++ post))) =
      shown marker (keptPart (pre ++ (scheme ++ post))) := by
    rw [hhidden, firstTwo_shown (by decide) marker_ne_nil]
    rfl
  unfold getSection contains
  rw [decide_eq_true h, if_pos rfl]
  rcases split_cases hmem (show '~' ≠ '/' by decide) with hone | ⟨p, r, more, htwo, hjoin⟩
  · rw [hone, ← hkept]
  · rw [htwo, ← hkept, hjoin]

theorem sectionOf_of_not_infix (h : ¬ scheme <:+: url) : sectionOf url = [] := by
  rw [sectionOf, getSection_of_not_isInfix h]

theorem sectionOf_of_infix (h : scheme <:+: url) :
    sectionOf url = replace marker scheme (shown marker (keptPart url)) := by
  rw [sectionOf, getSection_of_isInfix h]

theorem not_scheme_isInfix {s : JavaString} (h : s.count '/' ≤ 1) : ¬ scheme <:+: s := by
  intro hinf
  have hcount := hinf.sublist.count_le '/'
  have hscheme : scheme.count '/' = 2 := by decide
  omega

theorem scheme_firstAfter (h : ¬ scheme <:+: pre) : FirstAfter scheme pre :=
  firstAfter_of_head_notMem (by decide) h

/-- Either the second slash comes before the scheme, or the scheme is kept
with what stands before it. -/
theorem keptPart_cases (h : scheme <:+: url) :
    ∃ pre post, url = pre ++ (scheme ++ post) ∧ FirstAfter scheme pre ∧
      ((∃ s, s <+: pre ∧ s.count '/' ≤ 1 ∧ keptPart url = s.map some) ∨
        ∃ q, q <+: post ∧ (pre ++ q).count '/' ≤ 1 ∧
          keptPart url = pre.map some ++ none :: q.map some) := by
  obtain ⟨pre, post, rfl, hfirst⟩ := exists_firstAfter scheme_ne_nil h
  refine ⟨pre, post, rfl, hfirst, ?_⟩
  have hbegin : keptPart (pre ++ (scheme ++ post)) <+: pre.map some ++ none :: post.map some := by
    rw [← hideFirst_first scheme_ne_nil hfirst]
    exact firstTwo_isPrefix _ _
  have hcount : (shown marker (keptPart (pre ++ (scheme ++ post)))).count '/' ≤ 1 := by
    unfold keptPart
    rw [← firstTwo_shown (by decide) marker_ne_nil]
    exact count_firstTwo_le '/' _
  rcases prefix_hidden hbegin with ⟨s, hs, hkept⟩ | ⟨r, hr, hkept⟩
  · rw [hkept, shown_map_some] at hcount
    exact Or.inl ⟨s, hs, hcount, hkept⟩
  · rw [hkept, shown_hidden, List.count_append, List.count_append] at hcount
    rw [List.count_eq_zero_of_not_mem (l := marker) (by decide), Nat.zero_add,
      ← List.count_append] at hcount
    exact Or.inr ⟨r, hr, hcount, hkept⟩

theorem plainSection_prefix (h : scheme <:+: url) : plainSection url <+: url := by
  obtain ⟨pre, post, rfl, hfirst⟩ := exists_firstAfter scheme_ne_nil h
  have hbegin : plainSection (pre ++ (scheme ++ post)) <+:
      shown scheme (hideFirst scheme (pre ++ (scheme ++ post))) :=
    shown_prefix scheme (firstTwo_isPrefix _ _)
  rw [hideFirst_first scheme_ne_nil hfirst, shown_hidden] at hbegin
  exact hbegin

/-- The section of an absolute URL: the scheme and host, and the first
part of the path unless nothing but slashes follows the host. -/
theorem getSection_absolute (r : JavaString) (h : ¬ marker <:+: scheme ++ r) :
    getSection (scheme ++ r) = .ok
      (if (r.dropWhile (· ≠ '/')).all (· == '/') then scheme ++ r.takeWhile (· ≠ '/')
        else scheme ++ r.takeWhile (· ≠ '/') ++
          '/' :: (r.dropWhile (· ≠ '/')).tail.takeWhile (· ≠ '/')) := by
  have hfirst : FirstAfter scheme [] := firstAfter_nil scheme_ne_nil
  have hhide : hideFirst scheme (scheme ++ r) = [none] ++ r.map some :=
    hideFirst_first scheme_ne_nil hfirst
  have hplain : firstTwo '/' (shown marker (r.map some)) =
      shown marker (firstTwo (some '/') (r.map some)) :=
    firstTwo_shown (by decide) marker_ne_nil _
  have hmarked : shown marker (keptPart (scheme ++ r)) = marker ++ firstTwo '/' r := by
    unfold keptPart
    rw [hhide, firstTwo_append (by simp), shown_append, ← hplain, shown_map_some]
    rfl
  have hunmarked : ¬ marker <:+: firstTwo '/' r := by
    intro hinf
    exact h (hinf.trans ((firstTwo_isPrefix '/' r).isInfix.trans List.infix_append_right))
  have hrep : replace marker scheme (marker ++ firstTwo '/' r) = scheme ++ firstTwo '/' r := by
    have hstart : replace marker scheme ([] ++ (marker ++ firstTwo '/' r)) =
        [] ++ (scheme ++ replace marker scheme (firstTwo '/' r)) :=
      replace_first marker_ne_nil (firstAfter_nil marker_ne_nil)
    rwa [replace_of_not_isInfix hunmarked] at hstart
  have hall : (r.dropWhile (· ≠ '/')).all (· == '/') = true ↔
      ∀ c ∈ r.dropWhile (· ≠ '/'), c = '/' := by
    rw [List.all_eq_true]
    simp only [beq_iff_eq]
  rw [getSection_of_isInfix List.infix_append_left, hmarked, hrep, firstTwo]
  by_cases hslashes : ∀ c ∈ r.dropWhile (· ≠ '/'), c = '/'
  · rw [if_pos hslashes, if_pos (hall.2 hslashes)]
  · rw [if_neg hslashes, if_neg (mt hall.1 hslashes), List.append_assoc]

theorem getSection_absolute_page :
    getSection (scheme ++ "host/a/b".toList) = .ok (scheme ++ "host/a".toList) :=
  getSection_absolute "host/a/b".toList (by decide)

end HttpLogMonitor.Utility
