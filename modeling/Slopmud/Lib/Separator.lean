import Mathlib

/-!
# Lists around a separator

What `x ++ s :: y` has in it, when what is looked for has no `s` of its own, or just one; and runs,
which end where a separator stands.
-/

namespace Separator

variable {A : Type} {s : A} {e l d x y : List A}

/-- **The first separator** is found. -/
theorem inj {x' y' : List A} (hx : s ∉ x) (hx' : s ∉ x') (h : x ++ s :: y = x' ++ s :: y') :
    x = x' ∧ y = y' := by
  rcases List.append_eq_append_iff.mp h with ⟨w, rfl, hw⟩ | ⟨w, rfl, hw⟩
  · cases w with
    | nil => exact ⟨by simp, (List.cons.inj hw).2⟩
    | cons c w => exact absurd (by simp [(List.cons.inj hw).1]) hx'
  · cases w with
    | nil => exact ⟨by simp, (List.cons.inj hw).2.symm⟩
    | cons c w => exact absurd (by simp [(List.cons.inj hw).1]) hx

theorem prefix_iff (hd : s ∉ d) : d <+: x ++ s :: y ↔ d <+: x := by
  refine ⟨fun h => ?_, fun h => h.trans (List.prefix_append x _)⟩
  obtain ⟨z, hz⟩ := h
  rcases List.append_eq_append_iff.mp hz with ⟨w, rfl, -⟩ | ⟨w, rfl, hw⟩
  · exact List.prefix_append d w
  · cases w with
    | nil => simp
    | cons c w =>
      -- `d` would reach over the separator
      obtain ⟨rfl, -⟩ := List.cons.inj hw
      exact absurd (by simp) hd

theorem suffix_iff (hl : s ∉ l) : l <:+ x ++ s :: y ↔ l <:+ y := by
  rw [← List.reverse_prefix, ← List.reverse_prefix]
  have hrev : (x ++ s :: y).reverse = y.reverse ++ s :: x.reverse := by simp
  rw [hrev]
  exact prefix_iff (by simpa using hl)

theorem infix_iff (he : s ∉ e) : e <:+: x ++ s :: y ↔ e <:+: x ∨ e <:+: y := by
  constructor
  · induction x with
    | nil =>
      intro h
      rcases List.infix_cons_iff.mp h with hpre | hin
      · exact .inl ((prefix_iff (x := []) he).mp hpre).isInfix
      · exact .inr hin
    | cons c x ih =>
      intro h
      rcases List.infix_cons_iff.mp h with hpre | hin
      · exact .inl ((prefix_iff (x := c :: x) he).mp hpre).isInfix
      · exact (ih hin).imp_left fun h => h.trans (List.suffix_cons c x).isInfix
  · rintro (h | h)
    · exact h.trans (List.prefix_append x _).isInfix
    · exact h.trans ((List.suffix_cons s y).trans (List.suffix_append x _)).isInfix

/-- **One separator finds one.** -/
theorem infix_around_iff (hl : s ∉ l) (hx : s ∉ x) :
    l ++ s :: d <:+: x ++ s :: y ↔ (l <:+ x ∧ d <+: y) ∨ l ++ s :: d <:+: y := by
  constructor
  · induction x with
    | nil =>
      intro h
      rcases List.infix_cons_iff.mp h with ⟨z, hz⟩ | hin
      · cases l with
        | nil => exact .inl ⟨List.nil_suffix, z, (List.cons.inj hz).2⟩
        | cons c l => exact absurd (by simp [(List.cons.inj hz).1]) hl
      · exact .inr hin
    | cons c x ih =>
      intro h
      rcases List.infix_cons_iff.mp h with ⟨z, hz⟩ | hin
      · have heq : l ++ s :: (d ++ z) = (c :: x) ++ s :: y := by simpa using hz
        obtain ⟨rfl, rfl⟩ := inj hl hx heq
        exact .inl ⟨List.suffix_refl _, z, rfl⟩
      · exact (ih (fun h => hx (List.mem_cons_of_mem c h)) hin).imp_left
          fun h => ⟨h.1.trans (List.suffix_cons c x), h.2⟩
  · rintro (⟨⟨w, rfl⟩, z, rfl⟩ | h)
    · exact ⟨w, z, by simp⟩
    · exact h.trans ((List.suffix_cons s y).trans (List.suffix_append x _)).isInfix

/-! ## Runs -/

variable {p : A → Bool}

theorem takeWhile_append (hs : p s = false) : (x ++ s :: y).takeWhile p = x.takeWhile p := by
  induction x with
  | nil => simp [hs]
  | cons c x ih =>
    rw [List.cons_append, List.takeWhile_cons, List.takeWhile_cons, ih]

theorem rtakeWhile_append (hs : p s = false) : (x ++ s :: y).rtakeWhile p = y.rtakeWhile p := by
  have hrev : (x ++ s :: y).reverse = y.reverse ++ s :: x.reverse := by simp
  rw [List.rtakeWhile, hrev, takeWhile_append hs, List.rtakeWhile]

theorem reverse_dropWhile_append (hs : p s = false) (hy : ∀ c ∈ y, p c = true) :
    (x ++ s :: y).reverse.dropWhile p = s :: x.reverse := by
  have hrev : (x ++ s :: y).reverse = y.reverse ++ s :: x.reverse := by simp
  rw [hrev, List.dropWhile_append_of_pos (by simpa using hy), List.dropWhile_cons_of_neg (by simp [hs])]

/-! ## Split texts -/

variable [BEq A] [LawfulBEq A]

theorem two_le_length_splitOn {t : List A} (h : s ∈ t) : 2 ≤ (t.splitOn s).length := by
  obtain ⟨a, b, rfl⟩ := List.append_of_mem h
  have ha := List.length_pos_of_ne_nil (List.splitOn_ne_nil s a)
  have hb := List.length_pos_of_ne_nil (List.splitOn_ne_nil s b)
  rw [List.splitOn_append_cons_self, List.length_append]
  omega

/-- What is split in two had one separator. -/
theorem splitOn_eq_pair {t : List A} (h : t.splitOn s = [x, y]) : t = x ++ s :: y ∧ s ∉ x ∧ s ∉ y := by
  obtain rfl : t = x ++ s :: y := by
    have hjoin : [s].intercalate (t.splitOn s) = t := List.intercalate_splitOn s
    rw [← hjoin, h]
    simp [List.intercalate_cons_cons]
  have hlen := congrArg List.length h
  rw [List.splitOn_append_cons_self, List.length_append, List.length_cons, List.length_singleton] at hlen
  have hx := List.length_pos_of_ne_nil (List.splitOn_ne_nil s x)
  have hy := List.length_pos_of_ne_nil (List.splitOn_ne_nil s y)
  refine ⟨rfl, fun hmem => ?_, fun hmem => ?_⟩
  · have htwo := two_le_length_splitOn hmem
    omega
  · have htwo := two_le_length_splitOn hmem
    omega

/-- What is no separator is in a part. -/
theorem exists_mem_splitOn {t : List A} {c : A} (hc : c ∈ t) (hne : c ≠ s) :
    ∃ w ∈ t.splitOn s, c ∈ w := by
  have hin : ∀ ls : List (List A), c ∈ [s].intercalate ls → ∃ w ∈ ls, c ∈ w := by
    intro ls
    induction ls with
    | nil => simp
    | cons w ls ih =>
      intro hmem
      cases ls with
      | nil => exact ⟨w, by simp, by simpa using hmem⟩
      | cons v ls =>
        rw [List.intercalate_cons_cons, List.append_assoc, List.mem_append, List.mem_append] at hmem
        rcases hmem with hmem | hmem | hmem
        · exact ⟨w, List.mem_cons_self, hmem⟩
        · exact absurd (List.mem_singleton.mp hmem) hne
        · obtain ⟨u, hu, hcu⟩ := ih hmem
          exact ⟨u, List.mem_cons_of_mem w hu, hcu⟩
  refine hin _ ?_
  rwa [List.intercalate_splitOn]

/-- **Parts at the end** are the whole text, or what comes after a separator. -/
theorem splitOn_suffix_iff {t : List A} : t.splitOn s <:+ x.splitOn s ↔ x = t ∨ s :: t <:+ x := by
  have hjoin : ∀ ls {ms : List (List A)}, ms ≠ [] →
      ls = [] ∨ s :: [s].intercalate ms <:+ [s].intercalate (ls ++ ms) := by
    intro ls ms hms
    induction ls with
    | nil => exact .inl rfl
    | cons w ls ih =>
      have hne : ls ++ ms ≠ [] := by simp [hms]
      rw [List.cons_append, List.intercalate_cons_of_ne_nil hne, List.append_assoc]
      rcases ih with rfl | hin
      · exact .inr (List.suffix_append w _)
      · exact .inr (hin.trans ((List.suffix_append [s] _).trans (List.suffix_append w _)))
  constructor
  · rintro ⟨ls, hls⟩
    have ht : [s].intercalate (t.splitOn s) = t := List.intercalate_splitOn s
    have hx : [s].intercalate (x.splitOn s) = x := List.intercalate_splitOn s
    rcases hjoin ls (List.splitOn_ne_nil s t) with hnil | hin
    · left
      rw [← hx, ← hls, hnil, List.nil_append, ht]
    · rw [hls, ht, hx] at hin
      exact .inr hin
  · rintro (rfl | ⟨z, rfl⟩)
    · exact List.suffix_refl _
    · rw [List.splitOn_append_cons_self]
      exact List.suffix_append _ _

end Separator
