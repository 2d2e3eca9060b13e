import Mathlib.Data.List.Induction
import Slopmud.Lib.Utf8

/-!
# Scanning bytes for ASCII

A scanner that goes over the bytes of a text and looks for ASCII only: what it stops at is a
character, and the runs it takes are runs of characters.
-/

namespace Utf8

theorem encode_cons (c : Char) (t : Text) : encode (c :: t) = encodeChar c ++ encode t :=
  List.flatMap_cons

/-- The byte of an ASCII character passes. -/
def charPass (P : UInt8 → Bool) (c : Char) : Bool := c.toNat < 0x80 && P (.ofNat c.toNat)

/-- A predicate of ASCII characters is known from the first 128. -/
theorem charPass_eq {P : UInt8 → Bool} {Q : Char → Bool}
    (hlow : ∀ n < 128, charPass P (Char.ofNat n) = Q (Char.ofNat n)) (hQ : ∀ c, Q c = true → c.toNat < 128)
    (c : Char) : charPass P c = Q c := by
  by_cases hc : c.toNat < 128
  · have h := hlow c.toNat hc
    rwa [charOfNat_toNat] at h
  · have hno : Q c = false := by
      by_contra hyes
      exact hc (hQ c (by simpa using hyes))
    rw [hno, charPass, decide_eq_false (by omega), Bool.false_and]

theorem encodeChar_of_lt {c : Char} (h : c.toNat < 0x80) : encodeChar c = [.ofNat c.toNat] := by
  rw [encodeChar, if_pos h]

/-- A character with an ASCII byte is that byte. -/
theorem encodeChar_of_mem {c : Char} {b : UInt8} (hb : isAscii b = true) (h : b ∈ encodeChar c) :
    c.toNat < 0x80 ∧ b = .ofNat c.toNat := by
  have hc := toNat_lt c
  have hlt : b.toNat < 0x80 := of_decide_eq_true hb
  have high : ∀ n, 0x80 ≤ n → n < 256 → b ≠ .ofNat n := by
    intro n hn hn' hbn
    rw [hbn, toNat_ofNat n hn'] at hlt
    omega
  by_cases h1 : c.toNat < 0x80
  · rw [encodeChar_of_lt h1] at h
    exact ⟨h1, List.mem_singleton.mp h⟩
  · -- every byte of the longer forms is at least 0x80
    exfalso
    have hmod := mod_lt_64
    simp only [encodeChar, if_neg h1] at h
    split at h
    · rcases List.mem_cons.mp h with h | h
      · exact high _ (by omega) (by omega) h
      · exact high _ (by omega) (by have := hmod c.toNat; omega) (List.mem_singleton.mp h)
    · split at h
      · simp only [List.mem_cons, List.not_mem_nil, or_false] at h
        rcases h with h | h | h
        · exact high _ (by omega) (by omega) h
        · exact high _ (by omega) (by have := hmod (c.toNat / 0x40); omega) h
        · exact high _ (by omega) (by have := hmod c.toNat; omega) h
      · simp only [List.mem_cons, List.not_mem_nil, or_false] at h
        rcases h with h | h | h | h
        · exact high _ (by omega) (by omega) h
        · exact high _ (by omega) (by have := hmod (c.toNat / 0x1000); omega) h
        · exact high _ (by omega) (by have := hmod (c.toNat / 0x40); omega) h
        · exact high _ (by omega) (by have := hmod c.toNat; omega) h

/-- **Where an ASCII byte stands, a character stands.** -/
theorem split_of_ascii {t : Text} {k : Nat} {b : UInt8} (hb : isAscii b = true)
    (h : (encode t)[k]? = some b) : ∃ pre c post, t = pre ++ c :: post ∧ (encode pre).length = k ∧
      encodeChar c = [b] ∧ c.toNat < 0x80 ∧ b = .ofNat c.toNat := by
  induction t generalizing k with
  | nil => simp [encode] at h
  | cons c t ih =>
    rw [encode_cons] at h
    by_cases hk : k < (encodeChar c).length
    · rw [List.getElem?_append_left hk] at h
      obtain ⟨hc, hbc⟩ := encodeChar_of_mem hb (List.mem_of_getElem? h)
      have hone : encodeChar c = [b] := by rw [encodeChar_of_lt hc, hbc]
      rw [hone, List.length_singleton] at hk
      exact ⟨[], c, t, rfl, (Nat.lt_one_iff.mp hk).symm, hone, hc, hbc⟩
    · rw [List.getElem?_append_right (by omega)] at h
      obtain ⟨pre, d, post, rfl, hlen, hd⟩ := ih h
      refine ⟨c :: pre, d, post, rfl, ?_, hd⟩
      rw [encode_cons, List.length_append]
      omega

variable {P : UInt8 → Bool} (hP : ∀ b, P b = true → isAscii b = true)

include hP

theorem not_pass_of_mem {c : Char} (hc : charPass P c = false) {b : UInt8} (h : b ∈ encodeChar c) :
    P b = false := by
  by_contra hb
  have hb : P b = true := by simpa using hb
  obtain ⟨hlt, rfl⟩ := encodeChar_of_mem (hP b hb) h
  simp [charPass, hlt, hb] at hc

omit hP in
theorem encodeChar_of_pass {c : Char} (hc : charPass P c = true) :
    encodeChar c = [.ofNat c.toNat] ∧ P (.ofNat c.toNat) = true := by
  simp only [charPass, Bool.and_eq_true, decide_eq_true_eq] at hc
  exact ⟨encodeChar_of_lt hc.1, hc.2⟩

/-- A run of bytes that pass is a run of characters. -/
theorem takeWhile_encode (t : Text) :
    ((encode t).takeWhile P).length = (t.takeWhile (charPass P)).length := by
  induction t with
  | nil => rfl
  | cons c t ih =>
    rw [encode_cons]
    by_cases hc : charPass P c = true
    · obtain ⟨henc, hpass⟩ := encodeChar_of_pass hc
      simp [henc, hpass, hc, ih]
    · have hc : charPass P c = false := by simpa using hc
      obtain ⟨b, bs, henc⟩ := List.exists_cons_of_length_pos (encodeChar_length_pos c)
      have hb := not_pass_of_mem hP hc (henc ▸ List.mem_cons_self)
      simp [henc, hb, hc]

/-- The same for a run taken backwards from the end -/
theorem takeWhile_reverse_encode (t : Text) :
    ((encode t).reverse.takeWhile P).length = (t.reverse.takeWhile (charPass P)).length := by
  induction t using List.reverseRecOn with
  | nil => rfl
  | append_singleton t c ih =>
    have hsnoc : encode (t ++ [c]) = encode t ++ encodeChar c := by
      rw [encode_append, encode_cons]
      simp [encode]
    rw [hsnoc, List.reverse_append, List.reverse_append]
    by_cases hc : charPass P c = true
    · obtain ⟨henc, hpass⟩ := encodeChar_of_pass hc
      simp [henc, hpass, hc, ih]
    · have hc : charPass P c = false := by simpa using hc
      have hpos : 0 < (encodeChar c).reverse.length := by
        rw [List.length_reverse]
        exact encodeChar_length_pos c
      obtain ⟨b, bs, henc⟩ := List.exists_cons_of_length_pos hpos
      have hmem : b ∈ encodeChar c := List.mem_reverse.mp (henc ▸ List.mem_cons_self)
      simp [henc, not_pass_of_mem hP hc hmem, hc]

omit hP in
theorem encode_length_of_all {t : Text} (h : ∀ c ∈ t, charPass P c = true) :
    (encode t).length = t.length := by
  induction t with
  | nil => rfl
  | cons c t ih =>
    obtain ⟨henc, -⟩ := encodeChar_of_pass (h c List.mem_cons_self)
    rw [encode_cons, henc, List.length_append, ih fun d hd => h d (List.mem_cons_of_mem _ hd)]
    simp [Nat.add_comm]

end Utf8
