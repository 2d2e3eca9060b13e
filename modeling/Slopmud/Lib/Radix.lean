import Mathlib

/-!
# Numerals

Numbers written in a base, the most significant digit first: numerals of a fixed width, the
value of a numeral, and its value again when the sum may not go over a limit.
-/

namespace Radix

/-- The last `n` digits of a number. -/
def numeral (b : Nat) : Nat → Nat → List Nat
  | 0, _ => []
  | n + 1, v => numeral b n (v / b) ++ [v % b]

def value (b : Nat) (ds : List Nat) : Nat := ds.foldl (fun v d => v * b + d) 0

/-- The value, unless the multiplication or the addition for some digit goes over the limit. -/
def checked (limit b : Nat) (ds : List Nat) : Option Nat :=
  ds.foldlM (fun v d => if v * b ≤ limit ∧ v * b + d ≤ limit then some (v * b + d) else none) 0

theorem value_concat (b : Nat) (ds : List Nat) (d : Nat) :
    value b (ds ++ [d]) = value b ds * b + d := by
  rw [value, List.foldl_append, ← value, List.foldl_cons, List.foldl_nil]

theorem numeral_length (b n v : Nat) : (numeral b n v).length = n := by
  induction n generalizing v with
  | zero => rfl
  | succ n ih => rw [numeral, List.length_append, ih, List.length_singleton]

/-- **A numeral that is wide enough** has the value of its number. -/
theorem value_numeral {b n v : Nat} (h : v < b ^ n) : value b (numeral b n v) = v := by
  induction n generalizing v with
  | zero =>
    rw [Nat.pow_zero, Nat.lt_one_iff] at h
    rw [h]
    rfl
  | succ n ih =>
    have hdiv : v / b < b ^ n := Nat.div_lt_of_lt_mul (by rwa [Nat.pow_succ'] at h)
    rw [numeral, value_concat, ih hdiv, Nat.div_add_mod']

/-- The digits are the remainders. -/
theorem mem_numeral {b n v d : Nat} : d ∈ numeral b n v ↔ ∃ i < n, v / b ^ i % b = d := by
  induction n generalizing v with
  | zero => simp [numeral]
  | succ n ih =>
    rw [numeral, List.mem_append, ih, List.mem_singleton]
    constructor
    · rintro (⟨i, hi, hd⟩ | hd)
      · refine ⟨i + 1, by omega, ?_⟩
        rwa [Nat.pow_succ', ← Nat.div_div_eq_div_mul]
      · exact ⟨0, by omega, by rw [Nat.pow_zero, Nat.div_one, hd]⟩
    · rintro ⟨i, hi, hd⟩
      cases i with
      | zero =>
        rw [Nat.pow_zero, Nat.div_one] at hd
        exact Or.inr hd.symm
      | succ i =>
        rw [Nat.pow_succ', ← Nat.div_div_eq_div_mul] at hd
        exact Or.inl ⟨i, by omega, hd⟩

theorem lt_of_mem_numeral {b n v d : Nat} (hb : 0 < b) (h : d ∈ numeral b n v) : d < b := by
  obtain ⟨i, -, rfl⟩ := mem_numeral.mp h
  exact Nat.mod_lt _ hb

/-- A value within the limit has its intermediate sums within the limit. -/
theorem checked_of_le {limit b : Nat} {ds : List Nat} (hb : 0 < b) (h : value b ds ≤ limit) :
    checked limit b ds = some (value b ds) := by
  induction ds using List.reverseRecOn with
  | nil => rfl
  | append_singleton ds d ih =>
    rw [value_concat] at h ⊢
    have hle : value b ds ≤ value b ds * b := Nat.le_mul_of_pos_right _ hb
    rw [checked, List.foldlM_append, ← checked, ih (by omega), Option.bind_eq_bind, Option.bind_some,
      List.foldlM_cons, if_pos ⟨by omega, h⟩]
    rfl

theorem value_mono {b b' : Nat} (h : b ≤ b') (ds : List Nat) : value b ds ≤ value b' ds := by
  induction ds using List.reverseRecOn with
  | nil => exact Nat.le_refl _
  | append_singleton ds d ih =>
    rw [value_concat, value_concat]
    exact Nat.add_le_add_right (Nat.mul_le_mul ih h) d

/-- **The same numeral in two bases** has one value only if it is a single digit, but for zeros. -/
theorem value_eq_value_iff {b b' : Nat} (h : b < b') {ds : List Nat} (hds : ∀ d ∈ ds, d < b)
    (hb : 0 < b) : value b ds = value b' ds ↔ value b' ds < b := by
  cases ds using List.reverseRecOn with
  | nil => simpa [value] using hb
  | append_singleton ds d =>
    have hd := hds d (by simp)
    have hle := value_mono h.le ds
    rw [value_concat, value_concat]
    constructor
    · intro heq
      -- the smaller base times the smaller value is less, unless both are zero
      have hzero : value b' ds = 0 := by
        by_contra hne
        have hlt : value b ds * b < value b' ds * b' :=
          Nat.lt_of_le_of_lt (Nat.mul_le_mul_right b hle) (Nat.mul_lt_mul_of_pos_left h (by omega))
        omega
      rw [hzero]
      omega
    · intro hlt
      have hzero : value b' ds = 0 := by
        by_contra hne
        have hmul : b' ≤ value b' ds * b' := Nat.le_mul_of_pos_left _ (by omega)
        omega
      have hzero' : value b ds = 0 := by omega
      rw [hzero, hzero', Nat.zero_mul, Nat.zero_mul]

end Radix
