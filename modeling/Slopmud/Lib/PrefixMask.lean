import Mathlib

/-!
# Masks of the leading bits

`mask w n` has the `n` leading bits of a word of `w` bits. Two words agree under it when they have
these bits in common, so agreement is an equivalence, and agreement on more bits is agreement on
fewer.
-/

namespace PrefixMask

def mask (w n : Nat) : BitVec w := BitVec.allOnes w <<< (w - n)

variable {w : Nat}

theorem getLsbD_mask (n i : Nat) : (mask w n).getLsbD i = (decide (i < w) && decide (w - n ≤ i)) := by
  simp only [mask, BitVec.getLsbD_shiftLeft, BitVec.getLsbD_allOnes]
  by_cases hi : i < w
  · by_cases hn : w - n ≤ i
    · have : i - (w - n) < w := by omega
      simp [hi, hn, this]
    · simp [hi, hn]
  · simp [hi]

theorem mask_zero : mask w 0 = 0 := by
  simp [mask]

/-- Of two masks the shorter one is left. -/
theorem mask_and_mask {m n : Nat} (h : m ≤ n) : mask w n &&& mask w m = mask w m := by
  apply BitVec.eq_of_getLsbD_eq
  intro i hi
  rw [BitVec.getLsbD_and, getLsbD_mask, getLsbD_mask]
  by_cases hm : w - m ≤ i
  · have : w - n ≤ i := by omega
    simp [hi, hm, this]
  · simp [hm]

/-- The words have their first `n` bits in common. -/
def Agree (n : Nat) (a b : BitVec w) : Prop := a &&& mask w n = b &&& mask w n

theorem Agree.symm {n : Nat} {a b : BitVec w} (h : Agree n a b) : Agree n b a := Eq.symm h

theorem Agree.trans {n : Nat} {a b c : BitVec w} (h : Agree n a b) (h' : Agree n b c) :
    Agree n a c :=
  Eq.trans h h'

theorem agree_iff {n : Nat} {a b : BitVec w} :
    Agree n a b ↔ ∀ i, i < w → w - n ≤ i → a.getLsbD i = b.getLsbD i := by
  unfold Agree
  constructor
  · intro h i hi hn
    have hbit := congrArg (fun c => BitVec.getLsbD c i) h
    simpa only [BitVec.getLsbD_and, getLsbD_mask, hi, hn, decide_true, Bool.and_true] using hbit
  · intro h
    apply BitVec.eq_of_getLsbD_eq
    intro i hi
    rw [BitVec.getLsbD_and, BitVec.getLsbD_and, getLsbD_mask]
    by_cases hn : w - n ≤ i
    · rw [h i hi hn]
    · simp [hn]

/-- Words that agree on some bits differ on more of them, for some words. -/
theorem exists_agree_not_agree {m n : Nat} (hmn : m < n) (hn : n ≤ w) (a : BitVec w) :
    ∃ b, Agree m a b ∧ ¬ Agree n a b := by
  -- the last of the `n` leading bits is flipped
  refine ⟨a ^^^ BitVec.twoPow w (w - n), agree_iff.mpr fun i hi hm => ?_, fun h => ?_⟩
  · have hne : w - n ≠ i := by omega
    simp [BitVec.getLsbD_xor, BitVec.getLsbD_twoPow, hne]
  · have hbit := agree_iff.mp h (w - n) (by omega) (Nat.le_refl _)
    have hlt : w - n < w := by omega
    simp only [BitVec.getLsbD_xor, BitVec.getLsbD_twoPow, hlt, decide_true, Bool.and_true] at hbit
    cases ha : a.getLsbD (w - n) <;> simp [ha] at hbit

theorem Agree.shorten {m n : Nat} (hmn : m ≤ n) {a b : BitVec w} (h : Agree n a b) :
    Agree m a b := by
  unfold Agree at *
  rw [← mask_and_mask hmn, ← BitVec.and_assoc, ← BitVec.and_assoc, h]

end PrefixMask
