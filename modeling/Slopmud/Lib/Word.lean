import Mathlib

/-!
# Bounded counters

Unsigned machine integers as natural numbers below a power of two, with the
saturating arithmetic of the Rust integer types; signed ones as integers, and how
they wrap.
-/

namespace Word

/-- The largest `u64`. -/
def maxU64 : Nat := 2 ^ 64 - 1

/-- `u64::saturating_add`. -/
def satAdd64 (a b : Nat) : Nat := min (a + b) maxU64

/-- The largest `u32`. -/
def maxU32 : Nat := 2 ^ 32 - 1

/-- `u32::saturating_add`. -/
def satAdd32 (a b : Nat) : Nat := min (a + b) maxU32

theorem satAdd64_of_lt {a b : Nat} (h : a + b ≤ maxU64) : satAdd64 a b = a + b :=
  Nat.min_eq_left h

theorem satAdd32_of_lt {a b : Nat} (h : a + b < 2 ^ 32) : satAdd32 a b = a + b :=
  Nat.min_eq_left (Nat.le_sub_one_of_lt h)

/-- A counter that has not run out did not run out before. -/
theorem satAdd64_lt {n : Nat} (h : satAdd64 n 1 < maxU64) : n < maxU64 ∧ satAdd64 n 1 = n + 1 := by
  unfold satAdd64 at h ⊢
  omega

/-- `x as i32`, and what the operations on `i32` wrap to. -/
def toI32 (x : Int) : Int := x.bmod (2 ^ 32)

theorem toI32_of_range {x : Int} (h : -2 ^ 31 ≤ x) (h' : x < 2 ^ 31) : toI32 x = x :=
  Int.bmod_eq_of_le (by omega) (by omega)

end Word
