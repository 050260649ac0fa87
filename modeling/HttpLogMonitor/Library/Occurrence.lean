import HttpLogMonitor.Library.Text

/-!
# First occurrences and substitution

A pattern stands for the first time after `pre` when it does not occur in
`pre` followed by all letters of the pattern but the last. Substitution of
every occurrence is then an equation at the first one.
-/

namespace Text

variable {α : Type*} {pat rep : List α}

def FirstAfter (pat pre : List α) : Prop := ¬ pat <:+: pre ++ pat.dropLast

theorem FirstAfter.not_infix {pre : List α} (h : FirstAfter pat pre) : ¬ pat <:+: pre :=
  fun hinf => h (hinf.trans (List.infix_append_left))

theorem FirstAfter.tail {c : α} {pre : List α} (h : FirstAfter pat (c :: pre)) :
    FirstAfter pat pre := by
  intro hinf
  apply h
  rw [List.cons_append]
  exact List.infix_cons hinf

theorem firstAfter_nil (hpat : pat ≠ []) : FirstAfter pat [] := by
  intro hinf
  have hlen := hinf.length_le
  have hpos := List.length_pos_of_ne_nil hpat
  rw [List.nil_append, List.length_dropLast] at hlen
  omega

/-- An occurrence that does not start later than `pre` ends stands within
`pre` and all letters of the pattern but the last. -/
theorem FirstAfter.length_le {pre post pre' post' : List α} (h : FirstAfter pat pre)
    (heq : pre ++ (pat ++ post) = pre' ++ (pat ++ post')) : pre.length ≤ pre'.length := by
  by_contra hlt
  have hshort : (pre' ++ pat).length ≤ (pre ++ pat.dropLast).length := by
    rw [List.length_append, List.length_append, List.length_dropLast]
    omega
  have hleft : pre' ++ pat <+: pre ++ (pat ++ post) := by
    rw [heq, ← List.append_assoc]
    exact List.prefix_append _ _
  have hright : pre ++ pat.dropLast <+: pre ++ (pat ++ post) :=
    List.prefix_append_right_inj pre |>.2
      ((List.dropLast_prefix pat).trans (List.prefix_append pat post))
  have hinf : pre' ++ pat <+: pre ++ pat.dropLast :=
    List.prefix_of_prefix_length_le hleft hright hshort
  exact h ((List.infix_append_right).trans hinf.isInfix)

theorem FirstAfter.unique {pre post pre' post' : List α} (h : FirstAfter pat pre)
    (h' : FirstAfter pat pre') (heq : pre ++ (pat ++ post) = pre' ++ (pat ++ post')) :
    pre = pre' ∧ post = post' := by
  have hlen := Nat.le_antisymm (h.length_le heq) (h'.length_le heq.symm)
  obtain ⟨hpre, hrest⟩ := List.append_inj heq hlen
  exact ⟨hpre, List.append_cancel_left hrest⟩

theorem FirstAfter.not_prefix {c : α} {pre : List α} (h : FirstAfter pat (c :: pre))
    (post : List α) : ¬ pat <+: c :: (pre ++ (pat ++ post)) := by
  rintro ⟨post', heq⟩
  have hle : (c :: pre).length ≤ ([] : List α).length := h.length_le heq.symm
  exact Nat.not_succ_le_zero _ hle

theorem exists_firstAfter (hpat : pat ≠ []) {s : List α} (h : pat <:+: s) :
    ∃ pre post, s = pre ++ (pat ++ post) ∧ FirstAfter pat pre := by
  induction s with
  | nil => exact (hpat (List.eq_nil_of_infix_nil h)).elim
  | cons c cs ih =>
      by_cases hhead : pat <+: c :: cs
      · obtain ⟨post, hpost⟩ := hhead
        exact ⟨[], post, hpost.symm, firstAfter_nil hpat⟩
      · obtain ⟨pre, post, rfl, hfirst⟩ := ih ((List.infix_cons_iff.1 h).resolve_left hhead)
        refine ⟨c :: pre, post, rfl, fun hinf => ?_⟩
        rcases List.infix_cons_iff.1 hinf with hbegin | htail
        · apply hhead
          apply hbegin.trans
          apply List.cons_prefix_cons.2 ⟨rfl, (List.prefix_append_right_inj pre).2 _⟩
          exact (List.dropLast_prefix pat).trans (List.prefix_append pat post)
        · exact hfirst htail

/-- A pattern whose first letter does not come again in it does not
overlap with itself. -/
theorem firstAfter_of_head_notMem {c : α} {p : List α} (hc : c ∉ p) {pre : List α}
    (h : ¬ c :: p <:+: pre) : FirstAfter (c :: p) pre := by
  intro hinf
  rcases List.infix_append_iff_ne_nil.1 hinf with hpre | hlast | ⟨l₁, l₂, h₁, h₂, heq, -, hl₂⟩
  · exact h hpre
  · exact firstAfter_nil (List.cons_ne_nil c p) hlast
  · obtain ⟨d, l₁', rfl⟩ := List.exists_cons_of_ne_nil h₁
    obtain ⟨e, l₂', rfl⟩ := List.exists_cons_of_ne_nil h₂
    obtain ⟨-, hp⟩ := List.cons_eq_cons.1 heq
    obtain ⟨rfl, -⟩ := List.cons_prefix_cons.1 (hl₂.trans (List.dropLast_prefix (c :: p)))
    apply hc
    rw [hp]
    exact List.mem_append_right _ List.mem_cons_self

theorem infix_append_of_head_notMem {c : α} {p w s : List α} (hc : c ∉ w) :
    c :: p <:+: w ++ s ↔ c :: p <:+: s := by
  induction w with
  | nil => rfl
  | cons d ds ih =>
      obtain ⟨hd, hds⟩ := not_or.1 (mt List.mem_cons.2 hc)
      rw [List.cons_append, List.infix_cons_iff, ih hds, or_iff_right]
      intro hbegin
      exact hd (List.cons_prefix_cons.1 hbegin).1

/-- No occurrence reaches across a word that has no letter of the
pattern. -/
theorem infix_append_append {p w q : List α} (hpat : pat ≠ []) (hne : w ≠ [])
    (hw : ∀ c ∈ w, c ∉ pat) : pat <:+: p ++ (w ++ q) ↔ pat <:+: p ∨ pat <:+: q := by
  constructor
  · intro h
    rcases List.infix_append_iff_ne_nil.1 h with hp | hwq | ⟨l₁, l₂, h₁, h₂, heq, -, hl₂⟩
    · exact Or.inl hp
    · obtain ⟨c, p', rfl⟩ := List.exists_cons_of_ne_nil hpat
      have hcw : c ∉ w := fun hmem => hw c hmem List.mem_cons_self
      exact Or.inr ((infix_append_of_head_notMem hcw).1 hwq)
    · obtain ⟨d, w', rfl⟩ := List.exists_cons_of_ne_nil hne
      obtain ⟨e, l₂', rfl⟩ := List.exists_cons_of_ne_nil h₂
      obtain ⟨rfl, -⟩ := List.cons_prefix_cons.1 hl₂
      refine (hw e List.mem_cons_self ?_).elim
      rw [heq]
      exact List.mem_append_right _ List.mem_cons_self
  · rintro (hp | hq)
    · exact hp.trans List.infix_append_left
    · exact hq.trans (List.infix_append_right.trans List.infix_append_right)

section Substitution

variable [DecidableEq α]

theorem replaceFirst_first (hpat : pat ≠ []) {pre post : List α} (h : FirstAfter pat pre) :
    replaceFirst pat rep (pre ++ (pat ++ post)) = pre ++ (rep ++ post) := by
  induction pre with
  | nil =>
      obtain ⟨c, p, rfl⟩ := List.exists_cons_of_ne_nil hpat
      simp [replaceFirst]
  | cons c cs ih =>
      rw [List.cons_append, replaceFirst, if_neg (h.not_prefix post), ih h.tail,
        List.cons_append]

theorem replaceFrom_skip (xs ys : List α) :
    replaceFrom pat rep xs.length (xs ++ ys) = replaceFrom pat rep 0 ys := by
  induction xs with
  | nil => rfl
  | cons x xs ih => exact ih

theorem replace_first (hpat : pat ≠ []) {pre post : List α} (h : FirstAfter pat pre) :
    replace pat rep (pre ++ (pat ++ post)) = pre ++ (rep ++ replace pat rep post) := by
  unfold replace
  induction pre with
  | nil =>
      obtain ⟨c, p, rfl⟩ := List.exists_cons_of_ne_nil hpat
      have hskip : replaceFrom (c :: p) rep p.length (p ++ post) = replaceFrom (c :: p) rep 0 post :=
        replaceFrom_skip p post
      simp [replaceFrom, hskip]
  | cons c cs ih =>
      rw [List.cons_append, replaceFrom, if_neg (h.not_prefix post), ih h.tail,
        List.cons_append]

theorem replace_of_not_isInfix {s : List α} (h : ¬ pat <:+: s) : replace pat rep s = s := by
  unfold replace
  induction s with
  | nil => rfl
  | cons c cs ih =>
      obtain ⟨hhead, htail⟩ := not_or.1 (fun hor => h (List.infix_cons_iff.2 hor))
      rw [replaceFrom, if_neg hhead, ih htail]

/-- Induction along the occurrences that `replace` substitutes. -/
theorem replace_induction (hpat : pat ≠ []) {motive : List α → Prop}
    (none : ∀ s, ¬ pat <:+: s → motive s)
    (first : ∀ pre post, FirstAfter pat pre → motive post → motive (pre ++ (pat ++ post)))
    (s : List α) : motive s := by
  induction hn : s.length using Nat.strong_induction_on generalizing s with
  | _ n ih =>
      by_cases hinf : pat <:+: s
      · obtain ⟨pre, post, rfl, hfirst⟩ := exists_firstAfter hpat hinf
        have hpos := List.length_pos_of_ne_nil hpat
        have hlt : post.length < n := by
          simp only [List.length_append] at hn
          omega
        exact first pre post hfirst (ih post.length hlt post rfl)
      · exact none s hinf

theorem not_infix_replace (hpat : pat ≠ []) (hne : rep ≠ []) (hrep : ∀ c ∈ rep, c ∉ pat)
    (s : List α) : ¬ pat <:+: replace pat rep s := by
  induction s using replace_induction hpat with
  | none s h =>
      rw [replace_of_not_isInfix h]
      exact h
  | first pre post hfirst ih =>
      rw [replace_first hpat hfirst, infix_append_append hpat hne hrep]
      exact not_or.2 ⟨hfirst.not_infix, ih⟩

/-- Where the new word is recognised wherever it stands, substitution can
be undone. -/
theorem replace_replace (hpat : pat ≠ []) (hrep : rep ≠ [])
    (hfirst : ∀ pre, ¬ rep <:+: pre → FirstAfter rep pre) {s : List α} (h : ¬ rep <:+: s) :
    replace rep pat (replace pat rep s) = s := by
  induction s using replace_induction hpat with
  | none s hnone => rw [replace_of_not_isInfix hnone, replace_of_not_isInfix h]
  | first pre post hpre ih =>
      have hpreRep : ¬ rep <:+: pre := fun hinf => h (hinf.trans List.infix_append_left)
      have hpostRep : ¬ rep <:+: post := fun hinf =>
        h (hinf.trans (List.infix_append_right.trans List.infix_append_right))
      rw [replace_first hpat hpre, replace_first hrep (hfirst pre hpreRep), ih hpostRep]

theorem replace_prefix_iff {c d : α} {p r : List α} (hcd : c ≠ d) {s more : List α} :
    replace (c :: p) (d :: r) s <+: s ++ more ↔ ¬ c :: p <:+: s := by
  constructor
  · intro hbegin hinf
    obtain ⟨pre, post, rfl, hfirst⟩ := exists_firstAfter (List.cons_ne_nil c p) hinf
    rw [replace_first (List.cons_ne_nil c p) hfirst, List.append_assoc,
      List.prefix_append_right_inj] at hbegin
    exact hcd (List.cons_prefix_cons.1 hbegin).1.symm
  · intro h
    rw [replace_of_not_isInfix h]
    exact List.prefix_append s more

theorem replace_cons {c : α} (hc : c ∉ pat) (hpat : pat ≠ []) (s : List α) :
    replace pat rep (c :: s) = c :: replace pat rep s := by
  have hhead : ¬ pat <+: c :: s := by
    intro hbegin
    obtain ⟨d, p, rfl⟩ := List.exists_cons_of_ne_nil hpat
    apply hc
    rw [(List.cons_prefix_cons.1 hbegin).1]
    exact List.mem_cons_self
  unfold replace
  rw [replaceFrom, if_neg hhead]

end Substitution

section Hiding

/-- A word hidden behind one letter of its own, `none`. -/
def shown (word : List α) (s : List (Option α)) : List α :=
  s.flatMap fun c => c.elim word ([·])

def hideFirst [DecidableEq α] (pat s : List α) : List (Option α) :=
  replaceFirst (pat.map some) [none] (s.map some)

theorem shown_map_some (word s : List α) : shown word (s.map some) = s := by
  induction s with
  | nil => rfl
  | cons c cs ih =>
      unfold shown at ih ⊢
      rw [List.map_cons, List.flatMap_cons, ih]
      rfl

theorem shown_append (word : List α) (s t : List (Option α)) :
    shown word (s ++ t) = shown word s ++ shown word t :=
  List.flatMap_append

theorem shown_hidden (word pre post : List α) :
    shown word (pre.map some ++ none :: post.map some) = pre ++ (word ++ post) := by
  have hcons : shown word (none :: post.map some) = word ++ shown word (post.map some) :=
    List.flatMap_cons
  rw [shown_append, hcons, shown_map_some, shown_map_some]

theorem shown_prefix (word : List α) {s t : List (Option α)} (h : s <+: t) :
    shown word s <+: shown word t := by
  obtain ⟨u, rfl⟩ := h
  rw [shown_append]
  exact List.prefix_append _ _

theorem FirstAfter.map_some {pre : List α} (h : FirstAfter pat pre) :
    FirstAfter (pat.map some) (pre.map some) := by
  intro hinf
  rw [← List.map_dropLast, ← List.map_append] at hinf
  obtain ⟨l, hl, heq⟩ := List.infix_map_iff.1 hinf
  have hpat : pat = l := List.map_injective_iff.2 (fun _ _ => Option.some.inj) heq
  rw [← hpat] at hl
  exact h hl

theorem hideFirst_first [DecidableEq α] (hpat : pat ≠ []) {pre post : List α}
    (h : FirstAfter pat pre) :
    hideFirst pat (pre ++ (pat ++ post)) = pre.map some ++ none :: post.map some := by
  unfold hideFirst
  rw [List.map_append, List.map_append,
    replaceFirst_first (by simpa using hpat) h.map_some]
  rfl

/-- What a part of a text with a hidden word can be. -/
theorem prefix_hidden {pre post : List α} {kept : List (Option α)}
    (h : kept <+: pre.map some ++ none :: post.map some) :
    (∃ s, s <+: pre ∧ kept = s.map some) ∨
      ∃ q, q <+: post ∧ kept = pre.map some ++ none :: q.map some := by
  obtain ⟨rest, heq⟩ := h
  rcases List.append_eq_append_iff.1 heq with ⟨more, hpre, -⟩ | ⟨more, hkept, hrest⟩
  · obtain ⟨s, hs, hkept⟩ := List.prefix_map_iff.1 ⟨more, hpre.symm⟩
    exact Or.inl ⟨s, hs, hkept⟩
  · cases more with
    | nil =>
        rw [List.append_nil] at hkept
        exact Or.inl ⟨pre, List.prefix_rfl, hkept⟩
    | cons c cs =>
        obtain ⟨rfl, hcs⟩ := List.cons_eq_cons.1 hrest
        obtain ⟨q, hq, rfl⟩ := List.prefix_map_iff.1 ⟨rest, hcs.symm⟩
        exact Or.inr ⟨q, hq, hkept⟩

end Hiding

end Text
