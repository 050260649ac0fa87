import HttpLogMonitor.SectionLaws

/-!
# Sections of request targets

A request line carries the target without scheme and host. Such a target
gets a section only if `http://` occurs in it, so its section says little
about what stands before its second slash.
-/

namespace HttpLogMonitor.Utility

open Text

variable {a b x y : JavaString}

/-- The scheme starts in the first segment `a` and ends after it. -/
def Straddles (a x : JavaString) : Prop :=
  ['h', 't', 't', 'p', ':'] <:+ a ∧ ['/', '/'] <+: x

instance (a x : JavaString) : Decidable (Straddles a x) :=
  inferInstanceAs (Decidable (_ ∧ _))

/-- What follows a scheme that ends in `x`, up to the next slash. -/
def host (x : JavaString) : JavaString := (x.drop 2).takeWhile (· ≠ '/')

/-- The first segment as the section of `/a…` shows it, with the marker
for a scheme that runs into it. -/
def shownName (a x : JavaString) : JavaString :=
  if Straddles a x then a.take (a.length - 5) ++ (marker ++ host x) else a

theorem shownName_straddling (a x : JavaString) :
    shownName (a ++ ['h', 't', 't', 'p', ':']) ('/' :: '/' :: x) =
      a ++ (marker ++ x.takeWhile (· ≠ '/')) := by
  have htake : (a ++ ['h', 't', 't', 'p', ':']).take (a.length + 5 - 5) = a := by simp
  have hlen : (a ++ ['h', 't', 't', 'p', ':']).length = a.length + 5 := List.length_append
  unfold shownName
  rw [if_pos ⟨List.suffix_append _ _, List.prefix_append ['/', '/'] x⟩, hlen, htake]
  rfl

theorem Straddles.scheme_isInfix (h : Straddles a x) : scheme <:+: '/' :: (a ++ x) := by
  obtain ⟨⟨a₀, rfl⟩, x₀, rfl⟩ := h
  exact ⟨'/' :: a₀, x₀, by simp [scheme]⟩

theorem Straddles.shownName_ne (h : Straddles a x) : shownName a x ≠ a := by
  obtain ⟨⟨a₀, rfl⟩, x₀, rfl⟩ := h
  intro heq
  rw [List.cons_append, List.cons_append, List.nil_append, shownName_straddling] at heq
  have hmarker := (List.append_right_inj a₀).1 heq
  simp [marker] at hmarker

/-- Equal segments are shown alike if the scheme runs into both or
neither, and into both with the same host. -/
theorem shownName_eq_iff (a x y : JavaString) : shownName a x = shownName a y ↔
    (Straddles a x ↔ Straddles a y) ∧ (Straddles a x → host x = host y) := by
  by_cases hx : Straddles a x
  · by_cases hy : Straddles a y
    · simp [shownName, hx, hy]
    · have hname : shownName a y = a := if_neg hy
      simp [hname, hx, hy, hx.shownName_ne]
  · have hname : shownName a x = a := if_neg hx
    by_cases hy : Straddles a y
    · simp [hname, hx, hy, hy.shownName_ne.symm]
    · have hname' : shownName a y = a := if_neg hy
      simp [hname, hname', hx, hy]

theorem slash_notMem_shownName (ha : '/' ∉ a) (x : JavaString) : '/' ∉ shownName a x := by
  unfold shownName
  split
  · simp only [List.mem_append, not_or]
    refine ⟨fun h => ha (List.mem_of_mem_take h), by decide, fun h => ?_⟩
    simpa using List.mem_takeWhile_imp h
  · exact ha

/-- The scheme in a target of first segment `a` either straddles the end of
the segment or comes after it. -/
theorem target_cases {pre post : JavaString} (ha : '/' ∉ a) (hx : x = [] ∨ ['/'] <+: x)
    (heq : '/' :: (a ++ x) = pre ++ (scheme ++ post)) :
    (∃ a₀, a = a₀ ++ ['h', 't', 't', 'p', ':'] ∧ x = '/' :: '/' :: post ∧ pre = '/' :: a₀) ∨
      ∃ t, pre = '/' :: a ++ '/' :: t := by
  rw [← List.cons_append] at heq
  rcases List.append_eq_append_iff.1 heq with ⟨u, rfl, hu⟩ | ⟨v, hv, hpost⟩
  · right
    rcases hx with rfl | ⟨t, rfl⟩
    · simp [scheme] at hu
    · cases u with
      | nil => simp [scheme] at hu
      | cons c cs =>
          obtain ⟨rfl, -⟩ := List.cons_eq_cons.1 hu
          exact ⟨cs, rfl⟩
  · cases pre with
    | nil =>
        rw [List.nil_append] at hv
        rw [← hv] at hpost
        simp [scheme] at hpost
    | cons c cs =>
        obtain ⟨rfl, rfl⟩ := List.cons_eq_cons.1 hv
        have hslash : '/' ∉ v := fun h => ha (List.mem_append_right cs h)
        rcases hx with rfl | ⟨t, rfl⟩
        · rw [List.append_nil] at hpost
          exact (hslash (hpost ▸ List.mem_append_left post (by decide))).elim
        · have hcut : ['h', 't', 't', 'p', ':'] ++ '/' :: ('/' :: post) = v ++ '/' :: t := hpost
          obtain ⟨rfl, rfl⟩ := append_sep_inj (by decide) hslash hcut
          exact Or.inl ⟨cs, rfl, rfl, rfl⟩

theorem getSection_target (ha : '/' ∉ a) (hx : x = [] ∨ ['/'] <+: x)
    (h : scheme <:+: '/' :: (a ++ x)) :
    getSection ('/' :: (a ++ x)) = .ok ('/' :: replace marker scheme (shownName a x)) := by
  obtain ⟨pre, post, heq, hfirst⟩ := exists_firstAfter scheme_ne_nil h
  have hother (s t : JavaString) : ¬ ∀ c ∈ s ++ (marker ++ t), c = '/' := by
    intro hall
    have hmem : '~' ∈ s ++ (marker ++ t) :=
      List.mem_append_right s (List.mem_append_left t (by decide))
    exact absurd (hall '~' hmem) (by decide)
  have hkept : shown marker (keptPart ('/' :: (a ++ x))) = '/' :: shownName a x := by
    rw [heq, shown_keptPart hfirst]
    rcases target_cases ha hx heq with ⟨a₀, rfl, rfl, rfl⟩ | ⟨t, rfl⟩
    · have hslash : '/' ∉ a₀ ++ marker := by
        rw [List.mem_append, not_or]
        exact ⟨fun hmem => ha (List.mem_append_left _ hmem), by decide⟩
      rw [List.cons_append, firstTwo_sep_cons, if_neg (hother a₀ post), ← List.append_assoc,
        takeWhile_append_notMem hslash, shownName_straddling, List.append_assoc]
    · have hname : shownName a x = a := by
        unfold shownName
        apply if_neg
        rintro ⟨⟨a₀, rfl⟩, ⟨x', rfl⟩⟩
        have hearly : '/' :: a₀ ++ (scheme ++ x') = '/' :: (a₀ ++ ['h', 't', 't', 'p', ':']) ++
            '/' :: t ++ (scheme ++ post) := by
          rw [← heq]
          simp [scheme]
        have hle := hfirst.length_le hearly.symm
        simp only [List.length_append, List.length_cons] at hle
        omega
      have hcons : '/' :: a ++ '/' :: t ++ (marker ++ post) =
          '/' :: (a ++ '/' :: (t ++ (marker ++ post))) := by
        simp only [List.cons_append, List.append_assoc]
      have hnot := hother (a ++ '/' :: t) post
      rw [List.append_assoc, List.cons_append] at hnot
      rw [hcons, firstTwo_sep_cons, if_neg hnot, takeWhile_append_notMem ha, hname]
      simp
  rw [getSection_of_isInfix h, hkept, replace_cons (by decide) marker_ne_nil]

theorem shownName_inj (ha : '/' ∉ a) (hb : '/' ∉ b) :
    replace marker scheme (shownName a x) = replace marker scheme (shownName b y) ↔
      shownName a x = shownName b y := by
  apply replace_inj
  · apply not_scheme_isInfix
    rw [List.count_eq_zero_of_not_mem (slash_notMem_shownName ha x)]
    exact Nat.zero_le 1
  · apply not_scheme_isInfix
    rw [List.count_eq_zero_of_not_mem (slash_notMem_shownName hb y)]
    exact Nat.zero_le 1

/-- When two targets fall in the same row exactly if their first segments
agree. -/
theorem same_section_iff (a b x y : JavaString) (ha : '/' ∉ a) (hb : '/' ∉ b)
    (hx : x = [] ∨ ['/'] <+: x) (hy : y = [] ∨ ['/'] <+: y) :
    ((getSection ('/' :: (a ++ x)) = getSection ('/' :: (b ++ y)) ↔ a = b) ↔
      (a = b → (scheme <:+: '/' :: (a ++ x) ↔ scheme <:+: '/' :: (b ++ y)) ∧
          (Straddles a x ↔ Straddles b y) ∧ (Straddles a x → host x = host y)) ∧
        (a ≠ b → (scheme <:+: '/' :: (a ++ x) ∨ scheme <:+: '/' :: (b ++ y)) ∧
          (scheme <:+: '/' :: (a ++ x) → scheme <:+: '/' :: (b ++ y) →
            shownName a x ≠ shownName b y))) := by
  by_cases hP : scheme <:+: '/' :: (a ++ x)
  · rw [getSection_target ha hx hP]
    by_cases hQ : scheme <:+: '/' :: (b ++ y)
    · rw [getSection_target hb hy hQ, Except.ok.injEq, List.cons_inj_right, shownName_inj ha hb]
      by_cases hab : a = b
      · subst hab
        rw [shownName_eq_iff]
        simp [hP, hQ]
      · simp [hP, hQ, hab]
    · rw [getSection_of_not_isInfix hQ]
      simp [hP, hQ]
  · have hnx : ¬ Straddles a x := fun h => hP h.scheme_isInfix
    rw [getSection_of_not_isInfix hP]
    by_cases hQ : scheme <:+: '/' :: (b ++ y)
    · rw [getSection_target hb hy hQ]
      simp [hP, hQ]
    · have hny : ¬ Straddles b y := fun h => hQ h.scheme_isInfix
      rw [getSection_of_not_isInfix hQ]
      simp [hP, hQ, hnx, hny]

theorem same_section_iff_queries :
    getSection "/a/b?u=http://h".toList = getSection "/a/c?v=http://h".toList ↔
      ['a'] = ['a'] :=
  (same_section_iff ['a'] ['a'] "/b?u=http://h".toList "/c?v=http://h".toList (by decide)
    (by decide) (by decide) (by decide)).2
      ⟨fun _ => ⟨by decide, by decide, by decide⟩, fun hne => (hne rfl).elim⟩

theorem different_segments_same_section :
    ¬ ∀ a b x y : JavaString, a ≠ [] → b ≠ [] → '/' ∉ a → '/' ∉ b →
      (x = [] ∨ ['/'] <+: x) → (y = [] ∨ ['/'] <+: y) →
      (getSection ('/' :: (a ++ x)) = getSection ('/' :: (b ++ y)) ↔ a = b) := by
  intro h
  have hrow := h ['a'] ['b'] [] [] (by decide) (by decide) (by decide) (by decide) (by decide)
    (by decide)
  revert hrow
  decide

end HttpLogMonitor.Utility
