import Slopmud.Lib.Table

/-!
# A table and its index

Values filed under ids, and a second table from a key of the value to the id. The two agree when
the index has exactly the bindings that the values call for; then no two values have one key. Each
operation on the pair is one lemma.
-/

namespace Table

variable {I K V : Type} [DecidableEq I] [DecidableEq K]

/-- The index has the key of every value, with its id, and nothing else. -/
def Indexes (keyOf : V → K) (m : Table I V) (ix : Table K I) : Prop :=
  ∀ k i, ix.lookup k = some i ↔ ∃ v, m.lookup i = some v ∧ keyOf v = k

variable {keyOf : V → K} {m : Table I V} {ix : Table K I}

theorem indexes_empty (keyOf : V → K) : Indexes keyOf (∅ : Table I V) ∅ := by
  intro k i
  simp

theorem Indexes.lookup_key (h : Indexes keyOf m ix) {i : I} {v : V} (hv : m.lookup i = some v) :
    ix.lookup (keyOf v) = some i :=
  (h (keyOf v) i).mpr ⟨v, hv, rfl⟩

/-- Values with one key are the same value, under the same id. -/
theorem Indexes.inj (h : Indexes keyOf m ix) {i j : I} {v v' : V} (hv : m.lookup i = some v)
    (hv' : m.lookup j = some v') (hkey : keyOf v = keyOf v') : i = j := by
  have hi := h.lookup_key hv
  rw [hkey, h.lookup_key hv'] at hi
  exact (Option.some.inj hi).symm

/-- A key that is not in the index is the key of no value. -/
theorem Indexes.none_key (h : Indexes keyOf m ix) {k : K} (hk : ix.lookup k = none) {i : I} {v : V}
    (hv : m.lookup i = some v) : keyOf v ≠ k := by
  rintro rfl
  rw [h.lookup_key hv] at hk
  cases hk

/-- A new value under a new id, with a key of its own. -/
theorem Indexes.insert_new (h : Indexes keyOf m ix) {i : I} {v : V} (hi : m.lookup i = none)
    (hk : ix.lookup (keyOf v) = none) : Indexes keyOf (m.insert i v) (ix.insert (keyOf v) i) := by
  intro k j
  rw [lookup_insert_eq, lookup_insert_eq]
  by_cases hkv : k = keyOf v
  · subst hkv
    rw [if_pos rfl]
    constructor
    · rintro ⟨⟩
      exact ⟨v, if_pos rfl, rfl⟩
    · rintro ⟨v', hv', hkey⟩
      by_cases hji : j = i
      · rw [hji]
      · rw [if_neg hji] at hv'
        exact absurd hkey (h.none_key hk hv')
  · rw [if_neg hkv, h k j]
    by_cases hji : j = i
    · subst hji
      simp [hi, Ne.symm hkv]
    · rw [if_neg hji]

/-- Another value with the same key in the place of one. -/
theorem Indexes.replace (h : Indexes keyOf m ix) {i : I} {v : V}
    (hk : ix.lookup (keyOf v) = some i) : Indexes keyOf (m.insert i v) ix := by
  obtain ⟨v₀, hv₀, hkey₀⟩ := (h (keyOf v) i).mp hk
  intro k j
  rw [h k j, lookup_insert_eq]
  by_cases hji : j = i
  · subst hji
    simp [hv₀, hkey₀]
  · rw [if_neg hji]

/-- Removing a value, and its key from the index. -/
theorem Indexes.erase (h : Indexes keyOf m ix) {i : I} {v : V} (hv : m.lookup i = some v) :
    Indexes keyOf (m.erase i) (ix.erase (keyOf v)) := by
  intro k j
  rw [lookup_erase_eq, lookup_erase_eq]
  by_cases hkv : k = keyOf v
  · subst hkv
    rw [if_pos rfl]
    constructor
    · intro hnone
      cases hnone
    · rintro ⟨v', hv', hkey⟩
      by_cases hji : j = i
      · rw [if_pos hji] at hv'
        cases hv'
      · rw [if_neg hji] at hv'
        exact absurd (h.inj hv' hv hkey) hji
  · rw [if_neg hkv, h k j]
    by_cases hji : j = i
    · subst hji
      simp [hv, Ne.symm hkv]
    · rw [if_neg hji]

/-- What is not filed under an id is not in the index with that id. -/
theorem Indexes.ne_of_none (h : Indexes keyOf m ix) {i : I} (hi : m.lookup i = none) (k : K) :
    ix.lookup k ≠ some i := by
  intro hk
  obtain ⟨v, hv, -⟩ := (h k i).mp hk
  rw [hi] at hv
  cases hv

end Table
