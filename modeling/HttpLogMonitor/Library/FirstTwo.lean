import HttpLogMonitor.Library.Occurrence

/-!
# The first two parts of a text

`firstTwo` keeps what stands before the second separator, and drops the
first separator where nothing but separators follows it. This is what
joining the first two parts of `split` gives.
-/

namespace Text

variable {α : Type*} [DecidableEq α] {sep : α}

def firstTwo (sep : α) (s : List α) : List α :=
  if ∀ c ∈ s.dropWhile (· ≠ sep), c = sep then s.takeWhile (· ≠ sep)
  else s.takeWhile (· ≠ sep) ++ sep :: (s.dropWhile (· ≠ sep)).tail.takeWhile (· ≠ sep)

theorem takeWhile_of_notMem {w : List α} (hw : sep ∉ w) : w.takeWhile (· ≠ sep) = w := by
  apply List.takeWhile_eq_self_iff.2
  intro c hc
  exact decide_eq_true (ne_of_mem_of_not_mem hc hw)

theorem dropWhile_of_notMem {w : List α} (hw : sep ∉ w) : w.dropWhile (· ≠ sep) = [] := by
  apply List.dropWhile_eq_nil_iff.2
  intro c hc
  exact decide_eq_true (ne_of_mem_of_not_mem hc hw)

theorem takeWhile_append_notMem {w : List α} (hw : sep ∉ w) (s : List α) :
    (w ++ s).takeWhile (· ≠ sep) = w ++ s.takeWhile (· ≠ sep) :=
  List.takeWhile_append_of_pos fun _ hc => decide_eq_true (ne_of_mem_of_not_mem hc hw)

theorem dropWhile_append_notMem {w : List α} (hw : sep ∉ w) (s : List α) :
    (w ++ s).dropWhile (· ≠ sep) = s.dropWhile (· ≠ sep) :=
  List.dropWhile_append_of_pos fun _ hc => decide_eq_true (ne_of_mem_of_not_mem hc hw)

theorem append_sep_inj {v w s t : List α} (hv : sep ∉ v) (hw : sep ∉ w)
    (h : v ++ sep :: s = w ++ sep :: t) : v = w ∧ s = t := by
  have htake := congrArg (List.takeWhile (· ≠ sep)) h
  rw [takeWhile_append_notMem hv, takeWhile_append_notMem hw,
    List.takeWhile_cons_of_neg (by simp), List.takeWhile_cons_of_neg (by simp),
    List.append_nil, List.append_nil] at htake
  subst htake
  exact ⟨rfl, (List.cons_eq_cons.1 (List.append_cancel_left h)).2⟩

theorem firstTwo_of_notMem {s : List α} (hs : sep ∉ s) : firstTwo sep s = s := by
  unfold firstTwo
  rw [dropWhile_of_notMem hs, takeWhile_of_notMem hs, if_pos (by simp)]

theorem firstTwo_append {w : List α} (hw : sep ∉ w) (s : List α) :
    firstTwo sep (w ++ s) = w ++ firstTwo sep s := by
  unfold firstTwo
  rw [takeWhile_append_notMem hw, dropWhile_append_notMem hw]
  split
  · rfl
  · rw [List.append_assoc]

theorem firstTwo_sep_cons (t : List α) :
    firstTwo sep (sep :: t) =
      if ∀ c ∈ t, c = sep then [] else sep :: t.takeWhile (· ≠ sep) := by
  unfold firstTwo
  simp

/-- A text without separator, or its part before the first one. -/
theorem cut_cases (sep : α) (s : List α) :
    sep ∉ s ∨ ∃ h t, sep ∉ h ∧ s = h ++ sep :: t := by
  by_cases hs : sep ∈ s
  · obtain ⟨h, t, heq, hnot⟩ := List.eq_append_cons_of_mem hs
    exact Or.inr ⟨h, t, hnot, heq⟩
  · exact Or.inl hs

theorem firstTwo_isPrefix (sep : α) (s : List α) : firstTwo sep s <+: s := by
  rcases cut_cases sep s with hs | ⟨h, t, hh, rfl⟩
  · rw [firstTwo_of_notMem hs]
  · rw [firstTwo_append hh, firstTwo_sep_cons, List.prefix_append_right_inj]
    split
    · exact List.nil_prefix
    · exact List.cons_prefix_cons.2 ⟨rfl, List.takeWhile_prefix _⟩

theorem firstTwo_ne_nil {c : α} {s : List α} (hc : c ∈ s) (hne : c ≠ sep) :
    firstTwo sep s ≠ [] := by
  intro hnil
  rcases cut_cases sep s with hs | ⟨h, t, hh, rfl⟩
  · rw [firstTwo_of_notMem hs] at hnil
    exact List.ne_nil_of_mem hc hnil
  · rw [firstTwo_append hh, firstTwo_sep_cons, List.append_eq_nil_iff] at hnil
    obtain ⟨rfl, hcut⟩ := hnil
    split at hcut
    · rename_i hall
      rcases List.mem_cons.1 hc with hsep | hct
      · exact hne hsep
      · exact hne (hall c hct)
    · exact List.cons_ne_nil _ _ hcut

theorem count_firstTwo_le (sep : α) (s : List α) : (firstTwo sep s).count sep ≤ 1 := by
  rcases cut_cases sep s with hs | ⟨h, t, hh, rfl⟩
  · rw [firstTwo_of_notMem hs, List.count_eq_zero_of_not_mem hs]
    exact Nat.zero_le 1
  · rw [firstTwo_append hh, firstTwo_sep_cons, List.count_append,
      List.count_eq_zero_of_not_mem hh]
    split
    · simp
    · have hnot : sep ∉ t.takeWhile (· ≠ sep) := by
        intro hmem
        simpa using List.mem_takeWhile_imp hmem
      rw [List.count_cons_self, List.count_eq_zero_of_not_mem hnot]

/-- At most one separator, and not at the end: all is kept. -/
theorem firstTwo_eq_self {s : List α} (hcount : s.count sep ≤ 1) (hend : ¬ [sep] <:+ s) :
    firstTwo sep s = s := by
  rcases cut_cases sep s with hs | ⟨h, t, hh, rfl⟩
  · exact firstTwo_of_notMem hs
  · rw [List.count_append, List.count_cons_self] at hcount
    have ht : sep ∉ t := List.count_eq_zero.1 (by omega)
    have hne : t ≠ [] := by
      rintro rfl
      exact hend (List.suffix_append h [sep])
    have hother : ¬ ∀ c ∈ t, c = sep := by
      intro hall
      obtain ⟨c, hc⟩ := List.exists_mem_of_ne_nil t hne
      exact ht (hall c hc ▸ hc)
    rw [firstTwo_append hh, firstTwo_sep_cons, if_neg hother, takeWhile_of_notMem ht]

theorem firstTwo_concat {s : List α} (hs : sep ∉ s) : firstTwo sep (s ++ [sep]) = s := by
  rw [firstTwo_append hs, firstTwo_sep_cons, if_pos (by simp), List.append_nil]

section Hidden

variable {word : List α} (hword : sep ∉ word)
include hword

omit [DecidableEq α] in
theorem mem_shown (s : List (Option α)) : sep ∈ shown word s ↔ some sep ∈ s := by
  unfold shown
  rw [List.mem_flatMap]
  constructor
  · rintro ⟨c, hc, hmem⟩
    cases c with
    | none => exact (hword hmem).elim
    | some d => rwa [List.mem_singleton.1 hmem]
  · intro hmem
    exact ⟨some sep, hmem, List.mem_singleton_self sep⟩

theorem takeWhile_shown (s : List (Option α)) :
    (shown word s).takeWhile (· ≠ sep) = shown word (s.takeWhile (· ≠ some sep)) := by
  rcases cut_cases (some sep) s with hs | ⟨h, t, hh, rfl⟩
  · rw [takeWhile_of_notMem hs, takeWhile_of_notMem (mt (mem_shown hword s).1 hs)]
  · have hshown : shown word (some sep :: t) = sep :: shown word t := rfl
    rw [takeWhile_append_notMem hh, shown_append,
      takeWhile_append_notMem (mt (mem_shown hword h).1 hh), hshown, shown_append]
    simp [shown]

omit [DecidableEq α] in
theorem forall_shown (hne : word ≠ []) (s : List (Option α)) :
    (∀ c ∈ shown word s, c = sep) ↔ ∀ c ∈ s, c = some sep := by
  constructor
  · intro h c hc
    cases c with
    | none =>
        obtain ⟨d, hd⟩ := List.exists_mem_of_ne_nil word hne
        have hsep : d = sep := h d (List.mem_flatMap.2 ⟨none, hc, hd⟩)
        exact (hword (hsep ▸ hd)).elim
    | some d => rw [h d (List.mem_flatMap.2 ⟨some d, hc, List.mem_singleton_self d⟩)]
  · intro h c hc
    obtain ⟨d, hd, hcd⟩ := List.mem_flatMap.1 hc
    rw [h d hd] at hcd
    exact List.mem_singleton.1 hcd

/-- Hiding a word without separators changes nothing in what is kept. -/
theorem firstTwo_shown (hne : word ≠ []) (s : List (Option α)) :
    firstTwo sep (shown word s) = shown word (firstTwo (some sep) s) := by
  rcases cut_cases (some sep) s with hs | ⟨h, t, hh, rfl⟩
  · rw [firstTwo_of_notMem hs, firstTwo_of_notMem (mt (mem_shown hword s).1 hs)]
  · have hcons (u : List (Option α)) : shown word (some sep :: u) = sep :: shown word u := rfl
    rw [firstTwo_append hh, firstTwo_sep_cons, shown_append, shown_append, hcons,
      firstTwo_append (mt (mem_shown hword h).1 hh), firstTwo_sep_cons, takeWhile_shown hword]
    simp only [forall_shown hword hne]
    split
    · rfl
    · rw [hcons]

end Hidden

section Split

omit [DecidableEq α] in
theorem rdropWhile_cons (p : α → Bool) (a : α) (l : List α) :
    (a :: l).rdropWhile p =
      if l.rdropWhile p = [] then (if p a then [] else [a]) else a :: l.rdropWhile p := by
  unfold List.rdropWhile
  rw [List.reverse_cons, List.dropWhile_append]
  by_cases hl : l.reverse.dropWhile p = []
  · rw [hl]
    by_cases ha : p a
    · simp [ha]
    · simp [ha]
  · simp [hl]

theorem splitOn_eq_cons (sep : α) (s : List α) :
    ∃ parts, s.splitOn sep = s.takeWhile (· ≠ sep) :: parts := by
  rcases cut_cases sep s with hs | ⟨h, t, hh, rfl⟩
  · exact ⟨[], by rw [List.splitOn_eq_singleton hs, takeWhile_of_notMem hs]⟩
  · refine ⟨t.splitOn sep, ?_⟩
    rw [List.splitOn_append_cons_self_of_not_mem hh, takeWhile_append_notMem hh]
    simp

theorem rdropWhile_splitOn_eq_nil {s : List α} :
    (s.splitOn sep).rdropWhile List.isEmpty = [] ↔ ∀ c ∈ s, c = sep := by
  rw [List.rdropWhile_eq_nil_iff]
  constructor
  · intro h
    exact eq_of_forall_splitOn_nil fun part hpart => by simpa using h part hpart
  · intro h
    induction s with
    | nil => simp
    | cons c cs ih =>
        obtain ⟨rfl, hcs⟩ := List.forall_mem_cons.1 h
        have hsplit : (c :: cs).splitOn c = [] :: cs.splitOn c :=
          List.splitOn_append_cons_self_of_not_mem List.not_mem_nil cs
        rw [hsplit]
        exact List.forall_mem_cons.2 ⟨rfl, ih hcs⟩

/-- A text with some other letter than the separator has one or two parts
that `firstTwo` keeps. -/
theorem split_cases {c : α} {s : List α} (hc : c ∈ s) (hne : c ≠ sep) :
    split sep s = [firstTwo sep s] ∨
      ∃ p q more, split sep s = p :: q :: more ∧ firstTwo sep s = p ++ sep :: q := by
  unfold split
  rcases cut_cases sep s with hs | ⟨h, t, hh, rfl⟩
  · rw [if_neg hs, firstTwo_of_notMem hs]
    exact Or.inl rfl
  · rw [if_pos (List.mem_append_right h List.mem_cons_self),
      List.splitOn_append_cons_self_of_not_mem hh, rdropWhile_cons, firstTwo_append hh,
      firstTwo_sep_cons]
    by_cases hall : ∀ d ∈ t, d = sep
    · have hch : c ∈ h := by
        rcases List.mem_append.1 hc with hch | hct
        · exact hch
        · rcases List.mem_cons.1 hct with hsep | hct
          · exact (hne hsep).elim
          · exact (hne (hall c hct)).elim
      have hempty : h.isEmpty = false := List.isEmpty_eq_false_iff.2 (List.ne_nil_of_mem hch)
      rw [if_pos (rdropWhile_splitOn_eq_nil.2 hall), if_pos hall, hempty, List.append_nil]
      exact Or.inl rfl
    · rw [if_neg (mt rdropWhile_splitOn_eq_nil.1 hall), if_neg hall]
      obtain ⟨parts, hparts⟩ := splitOn_eq_cons sep t
      obtain ⟨q, more, hrest⟩ :=
        List.exists_cons_of_ne_nil (mt rdropWhile_splitOn_eq_nil.1 hall)
      have hq : q = t.takeWhile (· ≠ sep) := by
        have hbegin := List.rdropWhile_prefix (p := List.isEmpty) (l := t.splitOn sep)
        rw [hrest, hparts] at hbegin
        exact (List.cons_prefix_cons.1 hbegin).1
      refine Or.inr ⟨h, q, more, ?_, ?_⟩
      · rw [hrest]
      · rw [hq]

end Split

end Text
