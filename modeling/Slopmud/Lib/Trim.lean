import Slopmud.Lib.Text

/-!
# Padded text

What `trim` does to text with white space around it.
-/

namespace Text

theorem trimStart_pad {pad : Text} (h : ∀ c ∈ pad, isWhitespace c = true) (s : Text) :
    trimStart (pad ++ s) = trimStart s := by
  exact List.dropWhile_append_of_pos h

theorem trimEnd_pad {pad : Text} (h : ∀ c ∈ pad, isWhitespace c = true) (s : Text) :
    trimEnd (s ++ pad) = trimEnd s := by
  have hrev := trimStart_pad (fun c hc => h c (List.mem_reverse.mp hc)) s.reverse
  rw [trimEnd, trimEnd, List.reverse_append]
  exact congrArg List.reverse hrev

/-- **Padding goes**, text without white space stays. -/
theorem trim_pad {before s after : Text} (hb : ∀ c ∈ before, isWhitespace c = true)
    (hs : NoWhitespace s) (ha : ∀ c ∈ after, isWhitespace c = true) :
    trim (before ++ s ++ after) = s := by
  rw [trim, List.append_assoc, trimStart_pad hb]
  cases s with
  | nil =>
    have hnil := trimStart_pad ha []
    rw [List.append_nil] at hnil
    rw [List.nil_append, hnil]
    rfl
  | cons c s =>
    have hc : isWhitespace c = false := hs c List.mem_cons_self
    have hstart : trimStart (c :: s ++ after) = c :: s ++ after :=
      List.dropWhile_cons_of_neg (by simp [hc])
    have hrev : ∀ d ∈ (c :: s).reverse, isWhitespace d = false :=
      fun d hd => hs d (List.mem_reverse.mp hd)
    rw [hstart, trimEnd_pad ha, trimEnd, dropWhile_eq_self hrev, List.reverse_reverse]

/-! ## Around a character that stays -/

theorem dropWhile_around {p : Char → Bool} {c : Char} (hc : p c = false) (x y : Text) :
    (x ++ c :: y).dropWhile p = x.dropWhile p ++ c :: y := by
  induction x with
  | nil => exact List.dropWhile_cons_of_neg (by simp [hc])
  | cons d x ih =>
    by_cases hd : p d = true
    · rw [List.cons_append, List.dropWhile_cons_of_pos hd, List.dropWhile_cons_of_pos hd, ih]
    · rw [List.cons_append, List.dropWhile_cons_of_neg hd, List.dropWhile_cons_of_neg hd, List.cons_append]

theorem trimStart_around {c : Char} (hc : isWhitespace c = false) (x y : Text) :
    trimStart (x ++ c :: y) = trimStart x ++ c :: y :=
  dropWhile_around hc x y

theorem trimEnd_around {c : Char} (hc : isWhitespace c = false) (x y : Text) :
    trimEnd (x ++ c :: y) = x ++ c :: trimEnd y := by
  have hrev : (x ++ c :: y).reverse = y.reverse ++ c :: x.reverse := by simp
  rw [trimEnd, hrev, dropWhile_around hc]
  simp [trimEnd]

/-- The two ends are trimmed in any order. -/
theorem trimStart_trimEnd (s : Text) : trimStart (trimEnd s) = trimEnd (trimStart s) := by
  by_cases hall : ∀ c ∈ s, isWhitespace c = true
  · have hend := trimEnd_pad hall []
    have hstart := trimStart_pad hall []
    rw [List.nil_append] at hend
    rw [List.append_nil] at hstart
    rw [hend, hstart]
    rfl
  · simp only [not_forall, Bool.not_eq_true] at hall
    obtain ⟨c, hmem, hc⟩ := hall
    obtain ⟨x, y, rfl⟩ := List.append_of_mem hmem
    rw [trimEnd_around hc, trimStart_around hc, trimStart_around hc, trimEnd_around hc]

theorem trim_trimEnd (s : Text) : trim (trimEnd s) = trim s := by
  rw [trim, trimStart_trimEnd, trimEnd_trimEnd, trim]

end Text
