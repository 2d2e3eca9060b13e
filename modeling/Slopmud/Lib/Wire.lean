import Mathlib.Algebra.Order.Ring.Nat
import Mathlib.Data.List.Induction
import Slopmud.Lib.Utf8

/-!
# Reading and writing bytes

Big-endian numbers, and a buffer read by index. A read that the language checks
at run time either returns or panics, so a reader is a `Checked` computation: it
panics, fails with an error of its own, or returns. `Returns` is its proof rule;
reads inside the buffer return what is there.
-/

namespace Wire

/-- `to_be_bytes` of an integer of `k` bytes. -/
def toBe : Nat → Nat → Bytes
  | 0, _ => []
  | k + 1, n => toBe k (n / 256) ++ [UInt8.ofNat (n % 256)]

/-- `from_be_bytes` -/
def ofBe (bs : Bytes) : Nat := bs.foldl (fun n b => n * 256 + b.toNat) 0

theorem toBe_length (k n : Nat) : (toBe k n).length = k := by
  induction k generalizing n with
  | zero => rfl
  | succ k ih => rw [toBe, List.length_append, ih, List.length_singleton]

theorem ofBe_toBe {k n : Nat} (h : n < 256 ^ k) : ofBe (toBe k n) = n := by
  induction k generalizing n with
  | zero =>
    rw [Nat.pow_zero, Nat.lt_one_iff] at h
    rw [h]
    rfl
  | succ k ih =>
    have hdiv : n / 256 < 256 ^ k := Nat.div_lt_of_lt_mul (by rwa [Nat.pow_succ'] at h)
    have hlow : (UInt8.ofNat (n % 256)).toNat = n % 256 :=
      Utf8.toNat_ofNat _ (Nat.mod_lt _ (by omega))
    rw [toBe, ofBe, List.foldl_append, ← ofBe, ih hdiv, List.foldl_cons, List.foldl_nil, hlow]
    omega

theorem ofBe_concat (bs : Bytes) (b : UInt8) : ofBe (bs ++ [b]) = ofBe bs * 256 + b.toNat := by
  rw [ofBe, List.foldl_append, ← ofBe, List.foldl_cons, List.foldl_nil]

theorem toBe_ofBe (bs : Bytes) : toBe bs.length (ofBe bs) = bs := by
  induction bs using List.reverseRecOn with
  | nil => rfl
  | append_singleton bs b ih =>
    have hb : b.toNat < 256 := b.toNat_lt
    have hdiv : (ofBe bs * 256 + b.toNat) / 256 = ofBe bs := by omega
    have hmod : (ofBe bs * 256 + b.toNat) % 256 = b.toNat := by omega
    rw [List.length_append, List.length_singleton, toBe, ofBe_concat, hdiv, hmod, ih, UInt8.ofNat_toNat]

theorem ofBe_lt (bs : Bytes) : ofBe bs < 256 ^ bs.length := by
  induction bs using List.reverseRecOn with
  | nil => exact Nat.one_pos
  | append_singleton bs b ih =>
    have hb : b.toNat < 256 := b.toNat_lt
    rw [List.length_append, List.length_singleton, Nat.pow_succ, ofBe_concat]
    omega

end Wire

/-- A computation that panics (`none`), fails, or returns. -/
abbrev Checked (ε α : Type) := ExceptT ε Option α

namespace Checked

variable {ε α β : Type}

/-- It panicked. -/
def panic : Checked ε α := ExceptT.lift none

/-- `p[i]` -/
def byteAt (p : Bytes) (i : Nat) : Checked ε UInt8 := ExceptT.lift p[i]?

/-- `p.slice(i..j)` -/
def slice (p : Bytes) (i j : Nat) : Checked ε Bytes :=
  ExceptT.lift (if i ≤ j ∧ j ≤ p.length then some ((p.take j).drop i) else none)

/-- It does not panic, and what it returns satisfies `Q`. -/
def Returns (m : Checked ε α) (Q : α → Prop) : Prop := ∃ r, m.run = some r ∧ ∀ a, r = .ok a → Q a

theorem Returns.isSome {m : Checked ε α} {Q : α → Prop} (h : Returns m Q) : m.run.isSome = true := by
  obtain ⟨r, hr, -⟩ := h
  rw [hr]
  rfl

theorem returns_pure {Q : α → Prop} {a : α} (h : Q a) : Returns (pure a : Checked ε α) Q :=
  ⟨.ok a, rfl, by rintro _ ⟨⟩; exact h⟩

theorem returns_throw {Q : α → Prop} {e : ε} : Returns (throw e : Checked ε α) Q :=
  ⟨.error e, rfl, by rintro _ ⟨⟩⟩

/-- **The sequencing rule.** -/
theorem Returns.bind {m : Checked ε α} {f : α → Checked ε β} {P : α → Prop} {Q : β → Prop}
    (hm : Returns m P) (hf : ∀ a, P a → Returns (f a) Q) : Returns (m >>= f) Q := by
  obtain ⟨r, hr, hP⟩ := hm
  cases r with
  | error e => exact ⟨.error e, by rw [ExceptT.run_bind, hr]; rfl, by rintro _ ⟨⟩⟩
  | ok a =>
    obtain ⟨r', hr', hQ⟩ := hf a (hP a rfl)
    exact ⟨r', by rw [ExceptT.run_bind, hr]; exact hr', hQ⟩

theorem byteAt_eq {p : Bytes} {i : Nat} (h : i < p.length) :
    (byteAt p i : Checked ε UInt8) = pure p[i] := by
  rw [byteAt, List.getElem?_eq_getElem h]
  rfl

theorem slice_eq {p : Bytes} {i j : Nat} (hij : i ≤ j) (hj : j ≤ p.length) :
    (slice p i j : Checked ε Bytes) = pure ((p.take j).drop i) := by
  rw [slice, if_pos ⟨hij, hj⟩]
  rfl

theorem returns_byteAt {p : Bytes} {i : Nat} (h : i < p.length) :
    Returns (byteAt p i : Checked ε UInt8) (fun _ => True) := by
  rw [byteAt_eq h]
  exact returns_pure trivial

theorem returns_slice {p : Bytes} {i j : Nat} (hij : i ≤ j) (hj : j ≤ p.length) :
    Returns (slice p i j : Checked ε Bytes) (fun _ => True) := by
  rw [slice_eq hij hj]
  exact returns_pure trivial

/-- The byte after `pre`. -/
theorem byteAt_append {p : Bytes} {i : Nat} (pre : Bytes) (b : UInt8) (suf : Bytes)
    (hp : p = pre ++ b :: suf) (hi : pre.length = i) : (byteAt p i : Checked ε UInt8) = pure b := by
  subst hp hi
  rw [byteAt_eq (by simp)]
  simp

/-- The part between `pre` and `suf`. -/
theorem slice_append {p : Bytes} {i j : Nat} (pre mid suf : Bytes) (hp : p = pre ++ mid ++ suf)
    (hi : pre.length = i) (hj : i + mid.length = j) : (slice p i j : Checked ε Bytes) = pure mid := by
  subst hp hi hj
  rw [slice_eq (by omega) (by simp), ← List.length_append, List.take_left, List.drop_left]

end Checked
