import Slopmud.Lib.Table

/-!
# Counts in a table

A table of natural numbers as a bag: what has no entry counts as zero. An entry of zero says the same
and is another table, so a bag that is well kept has none.
-/

namespace Table

variable {K : Type} [DecidableEq K]

def countOf (m : Table K Nat) (k : K) : Nat := (m.lookup k).getD 0

/-- Write a count, without an entry for zero. -/
def putCount (m : Table K Nat) (k : K) (n : Nat) : Table K Nat := if n = 0 then m.erase k else m.insert k n

/-- Every entry of zero in `m'` is in `m`. -/
def LeavesNoZero (m m' : Table K Nat) : Prop := ∀ k, m'.lookup k = some 0 → m.lookup k = some 0

/-- Nothing is different but that an entry of zero may be gone. -/
def Struck (m m' : Table K Nat) : Prop := m' = m ∨ ∃ k, m.lookup k = some 0 ∧ m' = m.erase k

theorem countOf_insert (m : Table K Nat) (k k' : K) (n : Nat) :
    countOf (m.insert k n) k' = if k' = k then n else countOf m k' := by
  unfold countOf
  rw [lookup_insert_eq]
  split
  · rfl
  · rfl

theorem countOf_erase (m : Table K Nat) (k k' : K) :
    countOf (m.erase k) k' = if k' = k then 0 else countOf m k' := by
  unfold countOf
  rw [lookup_erase_eq]
  split
  · rfl
  · rfl

theorem countOf_putCount (m : Table K Nat) (k k' : K) (n : Nat) :
    countOf (putCount m k n) k' = if k' = k then n else countOf m k' := by
  unfold putCount
  split
  · next hn => rw [countOf_erase, hn]
  · exact countOf_insert m k k' n

theorem LeavesNoZero.refl (m : Table K Nat) : LeavesNoZero m m := fun _ h => h

theorem LeavesNoZero.trans {m m' m'' : Table K Nat} (h : LeavesNoZero m m') (h' : LeavesNoZero m' m'') :
    LeavesNoZero m m'' := fun k hk => h k (h' k hk)

theorem LeavesNoZero.insert (m : Table K Nat) (k : K) {n : Nat} (hn : n ≠ 0) :
    LeavesNoZero m (m.insert k n) := by
  intro k' hk'
  rw [lookup_insert_eq] at hk'
  split at hk'
  · exact absurd (Option.some.inj hk') hn
  · exact hk'

theorem LeavesNoZero.erase (m : Table K Nat) (k : K) : LeavesNoZero m (m.erase k) := by
  intro k' hk'
  rw [lookup_erase_eq] at hk'
  split at hk'
  · cases hk'
  · exact hk'

theorem LeavesNoZero.putCount (m : Table K Nat) (k : K) (n : Nat) : LeavesNoZero m (putCount m k n) := by
  unfold Table.putCount
  split
  · exact .erase m k
  · next hn => exact .insert m k hn

theorem Struck.countOf {m m' : Table K Nat} (h : Struck m m') (k : K) : countOf m' k = countOf m k := by
  rcases h with rfl | ⟨k', hzero, rfl⟩
  · rfl
  · rw [countOf_erase]
    split
    · next heq => rw [heq, Table.countOf, hzero, Option.getD_some]
    · rfl

theorem Struck.leavesNoZero {m m' : Table K Nat} (h : Struck m m') : LeavesNoZero m m' := by
  rcases h with rfl | ⟨k, -, rfl⟩
  · exact .refl _
  · exact .erase m k

theorem Struck.eq {m m' : Table K Nat} (h : Struck m m') (hnone : ∀ k, m.lookup k ≠ some 0) : m' = m := by
  rcases h with rfl | ⟨k, hzero, -⟩
  · rfl
  · exact absurd hzero (hnone k)

end Table
