import HttpLogMonitor.Sections

/-!
# A section as a prefix, and the section of a section

Both laws fail where the marker occurs in the URL or is formed together
with the hidden scheme: the last letter of the marker is also its first,
so a text that ends in `~___` in front of the scheme makes one more.
-/

namespace HttpLogMonitor.Utility

open Text

variable {url pre post q : JavaString}

/-! ## Occurrences of the scheme and of the marker -/

theorem notMem_marker_of_mem_scheme : ∀ c ∈ scheme, c ∉ marker := by
  simp [scheme, marker]

theorem marker_infix_iff : marker <:+: pre ++ (scheme ++ q) ↔ marker <:+: pre ∨ marker <:+: q :=
  infix_append_append marker_ne_nil scheme_ne_nil notMem_marker_of_mem_scheme

theorem not_marker_infix_replace (s : JavaString) : ¬ marker <:+: replace marker scheme s :=
  not_infix_replace marker_ne_nil scheme_ne_nil notMem_marker_of_mem_scheme s

theorem not_scheme_infix_right (h : (pre ++ q).count '/' ≤ 1) : ¬ scheme <:+: q := by
  rw [List.count_append] at h
  exact not_scheme_isInfix (by omega)

theorem only_scheme {pre' q' : JavaString} (hfirst : FirstAfter scheme pre)
    (hq : ¬ scheme <:+: q) (heq : pre ++ (scheme ++ q) = pre' ++ (scheme ++ q')) :
    pre = pre' ∧ q = q' := by
  rcases List.append_eq_append_iff.1 heq with ⟨as, rfl, hrest⟩ | ⟨as, rfl, hrest⟩
  · cases as with
    | nil => exact ⟨(List.append_nil pre).symm, List.append_cancel_left hrest⟩
    | cons c cs =>
        obtain ⟨-, htail⟩ := List.cons_eq_cons.1 hrest
        have hinf : scheme <:+: ['t', 't', 'p', ':', '/', '/'] ++ q :=
          ⟨cs, q', by rw [List.append_assoc]; exact htail.symm⟩
        exact (hq ((infix_append_of_head_notMem (by decide)).1 hinf)).elim
  · cases as with
    | nil => exact ⟨List.append_nil pre', (List.append_cancel_left hrest).symm⟩
    | cons c cs =>
        have hle := hfirst.length_le heq
        rw [List.length_append, List.length_cons] at hle
        omega

/-- What stands around the only `http://`. -/
theorem around_scheme_iff {w v : JavaString} (hfirst : FirstAfter scheme pre)
    (hq : ¬ scheme <:+: q) :
    w ++ (scheme ++ v) <:+: pre ++ (scheme ++ q) ↔ w <:+ pre ∧ v <+: q := by
  constructor
  · rintro ⟨l, r, heq⟩
    have hcut : pre ++ (scheme ++ q) = (l ++ w) ++ (scheme ++ (v ++ r)) := by
      rw [← heq]
      simp only [List.append_assoc]
    obtain ⟨rfl, rfl⟩ := only_scheme hfirst hq hcut
    exact ⟨List.suffix_append l w, List.prefix_append v r⟩
  · rintro ⟨⟨l, rfl⟩, ⟨r, rfl⟩⟩
    exact ⟨l, r, by simp only [List.append_assoc]⟩

/-- The marker overlaps with itself in its last letter only. -/
theorem marker_cut {l₁ l₂ : JavaString} (heq : marker = l₁ ++ l₂) (h₁ : l₁ ≠ [])
    (h₂ : l₂ ≠ []) (hbegin : l₂ <+: marker) : l₁ = marker.dropLast ∧ l₂ = ['~'] := by
  have hcuts : ∀ n < marker.length, n ≠ 0 → marker.drop n <+: marker →
      marker.take n = marker.dropLast ∧ marker.drop n = ['~'] := by
    decide
  have hlen : l₁.length < marker.length := by
    have hpos := List.length_pos_of_ne_nil h₂
    rw [heq, List.length_append]
    omega
  have htake : marker.take l₁.length = l₁ := by rw [heq, List.take_left]
  have hdrop : marker.drop l₁.length = l₂ := by rw [heq, List.drop_left]
  have hcut := hcuts l₁.length hlen (mt List.length_eq_zero_iff.1 h₁)
  rw [htake, hdrop] at hcut
  exact hcut hbegin

theorem marker_firstAfter_iff :
    FirstAfter marker pre ↔ ¬ marker <:+: pre ∧ ¬ marker.dropLast <:+ pre := by
  constructor
  · intro hfirst
    refine ⟨hfirst.not_infix, ?_⟩
    rintro ⟨l, rfl⟩
    exact hfirst ⟨l, ['_', '_', '_'], by simp [marker]⟩
  · rintro ⟨hinf, hend⟩ h
    rcases List.infix_append_iff_ne_nil.1 h with hpre | hlast | ⟨l₁, l₂, h₁, h₂, heq, hl₁, hl₂⟩
    · exact hinf hpre
    · exact firstAfter_nil marker_ne_nil hlast
    · obtain ⟨rfl, -⟩ := marker_cut heq h₁ h₂ (hl₂.trans (List.dropLast_prefix marker))
      exact hend hl₁

/-- How an occurrence of the marker can meet one that comes first. -/
theorem marker_overlap {a b : JavaString} (hfirst : FirstAfter marker a)
    (heq : pre ++ (marker ++ q) = a ++ (marker ++ b)) :
    (pre = a ∧ q = b) ∨ (pre = a ++ marker.dropLast ∧ b = marker.tail ++ q) ∨
      ∃ z, pre = a ++ (marker ++ z) ∧ b = z ++ (marker ++ q) := by
  have hle := hfirst.length_le heq.symm
  rcases List.append_eq_append_iff.1 heq.symm with ⟨u, rfl, hrest⟩ | ⟨u, rfl, hrest⟩
  · rcases List.append_eq_append_iff.1 hrest with ⟨z, rfl, hb⟩ | ⟨v, hmarker, hv⟩
    · exact Or.inr (Or.inr ⟨z, rfl, hb⟩)
    · by_cases hu : u = []
      · rw [hu, List.nil_append] at hrest
        exact Or.inl ⟨by rw [hu, List.append_nil], (List.append_cancel_left hrest).symm⟩
      by_cases hvnil : v = []
      · rw [hvnil, List.append_nil] at hmarker
        rw [hvnil, List.nil_append] at hv
        exact Or.inr (Or.inr ⟨[], by rw [hmarker, List.append_nil], hv.symm⟩)
      have hbegin : v <+: marker := by
        apply List.prefix_of_prefix_length_le ⟨b, hv.symm⟩ (List.prefix_append marker q)
        rw [hmarker, List.length_append]
        omega
      obtain ⟨rfl, rfl⟩ := marker_cut hmarker hu hvnil hbegin
      exact Or.inr (Or.inl ⟨rfl, (List.cons_eq_cons.1 hv).2.symm⟩)
  · rw [List.length_append] at hle
    have hu : u = [] := List.length_eq_zero_iff.1 (by omega)
    rw [hu, List.nil_append] at hrest
    exact Or.inl ⟨by rw [hu, List.append_nil], List.append_cancel_left hrest⟩

/-! ## A section is a prefix of its URL -/

theorem replace_kept_prefix_iff {s more : JavaString} :
    replace marker scheme s <+: s ++ more ↔ ¬ marker <:+: s :=
  replace_prefix_iff (by decide)

/-- The scheme is put back where it was exactly when the marker that hides
it is the first one and no other follows. -/
theorem replace_hidden_prefix_iff (hfirst : FirstAfter scheme pre) (hq : q <+: post) :
    replace marker scheme (pre ++ (marker ++ q)) <+: pre ++ (scheme ++ post) ↔
      FirstAfter marker pre ∧ ¬ marker <:+: q := by
  obtain ⟨more, rfl⟩ := hq
  constructor
  · intro hbegin
    obtain ⟨a, b, heq, ha⟩ := exists_firstAfter marker_ne_nil
      (List.infix_append_left.trans List.infix_append_right : marker <:+: pre ++ (marker ++ q))
    rw [heq, replace_first marker_ne_nil ha] at hbegin
    obtain ⟨rest, hrest⟩ := hbegin
    have hcut : pre ++ (scheme ++ (q ++ more)) =
        a ++ (scheme ++ (replace marker scheme b ++ rest)) := by
      rw [← hrest]
      simp only [List.append_assoc]
    have hlen := Nat.le_antisymm (hfirst.length_le hcut) (ha.length_le heq.symm)
    obtain ⟨rfl, hqb⟩ := List.append_inj heq hlen
    obtain rfl := List.append_cancel_left hqb
    rw [List.append_cancel_left_eq, List.append_cancel_left_eq] at hcut
    exact ⟨ha, replace_kept_prefix_iff.1 ⟨rest, hcut.symm⟩⟩
  · rintro ⟨hpre, hnot⟩
    rw [replace_first marker_ne_nil hpre, replace_of_not_isInfix hnot,
      List.prefix_append_right_inj, List.prefix_append_right_inj]
    exact List.prefix_append q more

/-- A section is a prefix of its URL unless the URL's own marker, or one
formed with the hidden scheme, is turned into a scheme. -/
theorem section_prefix_iff (url : JavaString) :
    ∃ sec, getSection url = .ok sec ∧
      (sec <+: url ↔ ¬ scheme <:+: url ∨
        (¬ marker <:+: plainSection url ∧ ¬ marker.dropLast ++ scheme <:+: plainSection url)) := by
  by_cases hscheme : scheme <:+: url
  · refine ⟨_, getSection_of_isInfix hscheme, ?_⟩
    obtain ⟨pre, post, rfl, hfirst, hcases⟩ := keptPart_cases hscheme
    rw [or_iff_right (not_not.2 hscheme)]
    unfold plainSection
    rcases hcases with ⟨s, ⟨t, rfl⟩, hcount, hkept⟩ | ⟨r, hr, hcount, hkept⟩
    · have hnot : ¬ marker.dropLast ++ scheme <:+: s := fun hinf =>
        not_scheme_isInfix hcount (List.infix_append_right.trans hinf)
      rw [hkept, shown_map_some, shown_map_some, List.append_assoc, replace_kept_prefix_iff,
        and_iff_left hnot]
    · have hend := around_scheme_iff hfirst (not_scheme_infix_right hcount)
        (w := marker.dropLast) (v := [])
      rw [List.append_nil, and_iff_left List.nil_prefix] at hend
      rw [hkept, shown_hidden, shown_hidden, replace_hidden_prefix_iff hfirst hr,
        marker_infix_iff, marker_firstAfter_iff, hend, not_or]
      exact and_right_comm
  · exact ⟨[], getSection_of_not_isInfix hscheme, iff_of_true List.nil_prefix (Or.inl hscheme)⟩

theorem section_not_prefix : ¬ ∀ url : JavaString, ∃ sec, getSection url = .ok sec ∧ sec <+: url := by
  intro h
  obtain ⟨sec, hsec, hbegin⟩ := h "http://a~___~b".toList
  rw [show getSection "http://a~___~b".toList = .ok "http://ahttp://b".toList by decide] at hsec
  obtain rfl := Except.ok.inj hsec
  revert hbegin
  decide

/-! ## The section of a section -/

/-- Read from the left, the text has one marker. -/
def MarkedOnce (s : JavaString) : Prop :=
  ∃ a b, s = a ++ (marker ++ b) ∧ FirstAfter marker a ∧ ¬ marker <:+: b

theorem MarkedOnce.rest {a b : JavaString} (h : MarkedOnce (a ++ (marker ++ b)))
    (ha : FirstAfter marker a) : ¬ marker <:+: b := by
  obtain ⟨a', b', heq, ha', hb'⟩ := h
  obtain ⟨-, rfl⟩ := ha.unique ha' heq
  exact hb'

theorem shown_keptPart (hfirst : FirstAfter scheme pre) :
    shown marker (keptPart (pre ++ (scheme ++ post))) = firstTwo '/' (pre ++ (marker ++ post)) := by
  unfold keptPart
  rw [hideFirst_first scheme_ne_nil hfirst, ← firstTwo_shown (by decide) marker_ne_nil,
    shown_hidden]

theorem replace_inj {s t : JavaString} (hs : ¬ scheme <:+: s) (ht : ¬ scheme <:+: t) :
    replace marker scheme s = replace marker scheme t ↔ s = t := by
  constructor
  · intro h
    rw [← replace_replace marker_ne_nil scheme_ne_nil (fun _ => scheme_firstAfter) hs, h,
      replace_replace marker_ne_nil scheme_ne_nil (fun _ => scheme_firstAfter) ht]
  · exact congrArg _

theorem firstTwo_eq_self_iff {k : JavaString} (hcount : k.count '/' ≤ 1) :
    firstTwo '/' k = k ↔ ¬ ['/'] <:+ k := by
  constructor
  · rintro heq ⟨s, rfl⟩
    rw [List.count_append, List.count_singleton_self] at hcount
    rw [firstTwo_concat (List.count_eq_zero.1 (by omega))] at heq
    have hlen := congrArg List.length heq
    rw [List.length_append, List.length_singleton] at hlen
    omega
  · exact firstTwo_eq_self hcount

/-- `getSection` gives a restored text back when one scheme has been
restored in it and no slash ends it. -/
theorem sectionOf_replace_iff {k : JavaString} (hcount : k.count '/' ≤ 1) (hne : k ≠ []) :
    sectionOf (replace marker scheme k) = replace marker scheme k ↔
      MarkedOnce k ∧ ¬ ['/'] <:+ k := by
  by_cases hinf : marker <:+: k
  · have hk := not_scheme_isInfix hcount
    obtain ⟨a, b, rfl, ha⟩ := exists_firstAfter marker_ne_nil hinf
    have hscheme : FirstAfter scheme a :=
      scheme_firstAfter fun h => hk (h.trans List.infix_append_left)
    have htwo := not_scheme_isInfix (count_firstTwo_le '/' (a ++ (marker ++ replace marker scheme b)))
    rw [replace_first marker_ne_nil ha,
      sectionOf_of_infix (List.infix_append_left.trans List.infix_append_right),
      shown_keptPart hscheme, ← replace_first marker_ne_nil ha, replace_inj htwo hk]
    by_cases hb : marker <:+: b
    · have hleft : firstTwo '/' (a ++ (marker ++ replace marker scheme b)) ≠ a ++ (marker ++ b) := by
        intro heq
        have hbegin := firstTwo_isPrefix '/' (a ++ (marker ++ replace marker scheme b))
        rw [heq, List.prefix_append_right_inj, List.prefix_append_right_inj] at hbegin
        exact not_marker_infix_replace b (hb.trans hbegin.isInfix)
      exact iff_of_false hleft fun h => h.1.rest ha hb
    · rw [replace_of_not_isInfix hb, firstTwo_eq_self_iff hcount]
      exact (and_iff_right ⟨a, b, rfl, ha, hb⟩).symm
  · rw [replace_of_not_isInfix hinf, sectionOf_of_not_infix (not_scheme_isInfix hcount)]
    refine iff_of_false hne.symm ?_
    rintro ⟨⟨a, b, rfl, -, -⟩, -⟩
    exact hinf (List.infix_append_left.trans List.infix_append_right)

theorem markedOnce_hidden_iff (hfirst : FirstAfter scheme pre) (hq : ¬ scheme <:+: q) :
    MarkedOnce (pre ++ (marker ++ q)) ↔
      ¬ marker <:+: pre ++ (scheme ++ q) ∧
        ¬ marker.dropLast ++ (scheme ++ marker.tail) <:+: pre ++ (scheme ++ q) := by
  rw [marker_infix_iff, around_scheme_iff hfirst hq, not_or, not_and]
  constructor
  · rintro ⟨a, b, heq, ha, hb⟩
    rcases marker_overlap ha heq with ⟨rfl, rfl⟩ | ⟨rfl, rfl⟩ | ⟨z, rfl, rfl⟩
    · obtain ⟨hpre, hend⟩ := marker_firstAfter_iff.1 ha
      exact ⟨⟨hpre, hb⟩, fun h => (hend h).elim⟩
    · refine ⟨⟨ha, fun h => hb (h.trans List.infix_append_right)⟩, ?_⟩
      rintro - ⟨r, rfl⟩
      exact hb ⟨['_', '_', '_'], r, by simp [marker]⟩
    · exact (hb (List.infix_append_left.trans List.infix_append_right)).elim
  · rintro ⟨⟨hpre, hqm⟩, haround⟩
    by_cases hend : marker.dropLast <:+ pre
    · obtain ⟨a, rfl⟩ := hend
      refine ⟨a, marker.tail ++ q, ?_, hpre, ?_⟩
      · simp [marker]
      · have hnot : ¬ marker <:+: '~' :: q := by
          rw [List.infix_cons_iff]
          rintro (hstart | hin)
          · exact haround (List.suffix_append _ _) (List.cons_prefix_cons.1 hstart).2
          · exact hqm hin
        intro hinf
        have hsplit : marker <:+: ['_', '_', '_'] ++ '~' :: q := hinf
        exact hnot ((infix_append_of_head_notMem (by decide)).1 hsplit)
    · exact ⟨pre, q, rfl, marker_firstAfter_iff.2 ⟨hpre, hend⟩, hqm⟩

theorem slash_suffix_hidden_iff (hfirst : FirstAfter scheme pre) (hq : ¬ scheme <:+: q) :
    ¬ ['/'] <:+ pre ++ (marker ++ q) ↔
      (['/'] <:+ pre ++ (scheme ++ q) → scheme <:+ pre ++ (scheme ++ q)) := by
  rcases List.eq_nil_or_concat' q with rfl | ⟨q', c, rfl⟩
  · have hmarker : ¬ ['/'] <:+ pre ++ (marker ++ []) := by
      rintro ⟨l, heq⟩
      have hlast := congrArg List.getLast? heq
      rw [List.append_nil, List.getLast?_append, List.getLast?_append] at hlast
      simp [marker] at hlast
    refine iff_of_true hmarker fun _ => ?_
    rw [List.append_nil]
    exact List.suffix_append pre scheme
  · have hend (w : JavaString) : ['/'] <:+ pre ++ (w ++ (q' ++ [c])) ↔ c = '/' := by
      constructor
      · rintro ⟨l, heq⟩
        rw [← List.append_assoc, ← List.append_assoc] at heq
        exact (List.singleton_inj.1 (List.append_inj_right' heq rfl)).symm
      · rintro rfl
        exact ⟨pre ++ (w ++ q'), by simp only [List.append_assoc]⟩
    have hscheme : ¬ scheme <:+ pre ++ (scheme ++ (q' ++ [c])) := by
      rintro ⟨l, heq⟩
      have hcut : pre ++ (scheme ++ (q' ++ [c])) = l ++ (scheme ++ []) := by
        rw [List.append_nil, heq]
      obtain ⟨-, hnil⟩ := only_scheme hfirst hq hcut
      exact List.append_ne_nil_of_right_ne_nil q' (List.cons_ne_nil c []) hnil
    rw [hend, hend, imp_iff_not hscheme]

/-- The section of a section is itself in exactly these cases: no scheme
in the URL; or one scheme restored in the section and no slash at its end
that `split` would drop. -/
theorem section_idempotent_iff (url : JavaString) :
    ∃ sec, getSection url = .ok sec ∧
      (getSection sec = .ok sec ↔ ¬ scheme <:+: url ∨
        (scheme <:+: plainSection url → ¬ marker <:+: plainSection url ∧
          ¬ marker.dropLast ++ (scheme ++ marker.tail) <:+: plainSection url) ∧
        (¬ scheme <:+: plainSection url → MarkedOnce (plainSection url)) ∧
        (['/'] <:+ plainSection url → scheme <:+ plainSection url)) := by
  have hok (sec : JavaString) : getSection sec = .ok sec ↔ sectionOf sec = sec := by
    rw [getSection_eq_ok, Except.ok.injEq]
  by_cases hscheme : scheme <:+: url
  · refine ⟨_, getSection_of_isInfix hscheme, ?_⟩
    rw [hok, or_iff_right (not_not.2 hscheme)]
    obtain ⟨pre, post, rfl, hfirst, hcases⟩ := keptPart_cases hscheme
    have hne : keptPart (pre ++ (scheme ++ post)) ≠ [] := by
      unfold keptPart
      rw [hideFirst_first scheme_ne_nil hfirst]
      apply firstTwo_ne_nil (c := none) _ (by simp)
      exact List.mem_append_right _ List.mem_cons_self
    unfold plainSection
    rcases hcases with ⟨s, -, hcount, hkept⟩ | ⟨r, -, hcount, hkept⟩
    · have hnot := not_scheme_isInfix hcount
      have hs : s ≠ [] := by
        rintro rfl
        exact hne hkept
      have hend : ¬ scheme <:+ s := fun h => hnot h.isInfix
      rw [hkept, shown_map_some, shown_map_some, sectionOf_replace_iff hcount hs,
        imp_iff_not hend]
      simp [hnot]
    · have hr := not_scheme_infix_right hcount
      have hin : scheme <:+: pre ++ (scheme ++ r) :=
        List.infix_append_left.trans List.infix_append_right
      have hk : pre ++ (marker ++ r) ≠ [] := by simp [marker]
      have hcountMarked : (pre ++ (marker ++ r)).count '/' ≤ 1 := by
        rw [List.count_append, List.count_append, List.count_eq_zero_of_not_mem (l := marker)
          (by decide), Nat.zero_add, ← List.count_append]
        exact hcount
      rw [hkept, shown_hidden, shown_hidden, sectionOf_replace_iff hcountMarked hk,
        markedOnce_hidden_iff hfirst hr, slash_suffix_hidden_iff hfirst hr]
      simp [hin]
  · refine ⟨[], getSection_of_not_isInfix hscheme, ?_⟩
    exact iff_of_true (by decide) (Or.inl hscheme)

theorem section_not_idempotent :
    ¬ ∀ url : JavaString, ∃ sec, getSection url = .ok sec ∧ getSection sec = .ok sec := by
  intro h
  obtain ⟨sec, hsec, hagain⟩ := h "/a/b?u=http://x".toList
  rw [show getSection "/a/b?u=http://x".toList = .ok "/a".toList by decide] at hsec
  obtain rfl := Except.ok.inj hsec
  revert hagain
  decide

end HttpLogMonitor.Utility
