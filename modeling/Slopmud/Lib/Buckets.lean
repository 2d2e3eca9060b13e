import Mathlib.Data.Finset.Basic
import Slopmud.Lib.Table

/-!
# Buckets

A table of sets, in which everything is filed in the bucket of its place, and a bucket is there
only while it has something in it. `put` and `take` are the two operations on such a table; moving
something is one after the other.
-/

namespace Buckets

variable {K A : Type} [DecidableEq K]

def elems (b : Table K (Finset A)) (k : K) : Finset A := (b.lookup k).getD ∅

/-- Everything with a place is in the bucket of its place and in no other, and no bucket is empty. -/
structure Filed (place : A → Option K) (b : Table K (Finset A)) : Prop where
  mem : ∀ a k, a ∈ elems b k ↔ place a = some k
  full : ∀ k, b.lookup k ≠ some ∅

variable {place place' : A → Option K} {b : Table K (Finset A)}

theorem filed_empty : Filed (fun _ => none) (∅ : Table K (Finset A)) where
  mem := by simp [elems]
  full := by simp

theorem Filed.congr (h : Filed place b) (hplace : ∀ a, place' a = place a) : Filed place' b where
  mem a k := by rw [hplace]; exact h.mem a k
  full := h.full

/-- A bucket goes, with everything in it. -/
theorem Filed.erase (h : Filed place b) {k : K}
    (hplace : ∀ a, place' a = if place a = some k then none else place a) : Filed place' (b.erase k) where
  mem a k' := by
    rw [elems, Table.lookup_erase_eq, hplace]
    by_cases hk : k' = k
    · subst hk
      rw [if_pos rfl, Option.getD_none]
      split
      · simp
      · next hne => simpa using hne
    · rw [if_neg hk]
      refine (h.mem a k').trans ?_
      split
      · next heq => simp [heq, Ne.symm hk]
      · rfl
  full k' := by
    rw [Table.lookup_erase_eq]
    split
    · exact nofun
    · exact h.full k'

variable [DecidableEq A]

def put (b : Table K (Finset A)) (k : K) (a : A) : Table K (Finset A) := b.insert k (insert a (elems b k))

/-- A bucket that is empty afterwards goes. -/
def take (b : Table K (Finset A)) (k : K) (a : A) : Table K (Finset A) :=
  match b.lookup k with
  | none => b
  | some s => if s.erase a = ∅ then b.erase k else b.insert k (s.erase a)

theorem mem_put {k k' : K} {a a' : A} :
    a' ∈ elems (put b k a) k' ↔ (k' = k ∧ a' = a) ∨ a' ∈ elems b k' := by
  rw [elems, put, Table.lookup_insert_eq]
  by_cases hk : k' = k
  · subst hk
    simp
  · simp [hk, elems]

theorem mem_take {k k' : K} {a a' : A} :
    a' ∈ elems (take b k a) k' ↔ a' ∈ elems b k' ∧ ¬ (k' = k ∧ a' = a) := by
  unfold take
  cases hs : b.lookup k with
  | none =>
    refine ⟨fun h => ⟨h, ?_⟩, And.left⟩
    rintro ⟨rfl, -⟩
    simp [elems, hs] at h
  | some s =>
    dsimp only
    by_cases hk : k' = k
    · subst hk
      have hmem : a' ∈ s.erase a ↔ a' ∈ s ∧ ¬ (k' = k' ∧ a' = a) := by simp [and_comm]
      split
      · next hempty =>
        rw [elems, Table.lookup_erase_eq, if_pos rfl, elems, hs, Option.getD_some, ← hmem, hempty]
        rfl
      · rw [elems, Table.lookup_insert_eq, if_pos rfl, elems, hs]
        exact hmem
    · split
      · rw [elems, Table.lookup_erase_eq, if_neg hk]
        simp [hk, elems]
      · rw [elems, Table.lookup_insert_eq, if_neg hk]
        simp [hk, elems]

theorem full_put (h : ∀ k, b.lookup k ≠ some ∅) (k : K) (a : A) (k' : K) :
    (put b k a).lookup k' ≠ some ∅ := by
  rw [put, Table.lookup_insert_eq]
  split
  · intro hempty
    exact Finset.insert_ne_empty _ _ (Option.some.inj hempty)
  · exact h k'

theorem full_take (h : ∀ k, b.lookup k ≠ some ∅) (k : K) (a : A) (k' : K) :
    (take b k a).lookup k' ≠ some ∅ := by
  unfold take
  cases b.lookup k with
  | none => exact h k'
  | some s =>
    dsimp only
    split
    · rw [Table.lookup_erase_eq]
      split
      · exact nofun
      · exact h k'
    · next hne =>
      rw [Table.lookup_insert_eq]
      split
      · exact fun hempty => hne (Option.some.inj hempty)
      · exact h k'

/-- Filing something that is nowhere else. -/
theorem Filed.put (h : Filed place b) {k : K} {a : A} (ha : place a = none ∨ place a = some k)
    (hplace : ∀ a', place' a' = if a' = a then some k else place a') : Filed place' (put b k a) where
  mem a' k' := by
    rw [mem_put, h.mem, hplace]
    by_cases haa : a' = a
    · subst haa
      rw [if_pos rfl]
      rcases ha with hnone | hsome
      · simp [hnone, eq_comm]
      · simp [hsome, eq_comm]
    · simp [haa]
  full := full_put h.full k a

/-- Taking something out of a bucket, where it may not be. -/
theorem Filed.take (h : Filed place b) {k : K} {a : A}
    (hplace : ∀ a', place' a' = if a' = a ∧ place a = some k then none else place a') :
    Filed place' (take b k a) where
  mem a' k' := by
    rw [mem_take, h.mem, hplace]
    by_cases haa : a' = a
    · subst haa
      by_cases hk : place a' = some k
      · simp [hk, eq_comm]
      · simp only [hk, and_false, if_false, and_true]
        refine ⟨And.left, fun hk' => ⟨hk', ?_⟩⟩
        rintro rfl
        exact hk hk'
    · simp [haa]
  full := full_take h.full k a

/-- **Moving something** that is in its old or already in its new place. -/
theorem Filed.move (h : Filed place b) {src dest : K} {a : A}
    (ha : place a = some src ∨ place a = some dest)
    (hplace : ∀ a', place' a' = if a' = a then some dest else place a') :
    Filed place' (Buckets.put (Buckets.take b src a) dest a) := by
  refine Filed.put (h.take fun _ => rfl) ?_ ?_
  · by_cases hsrc : place a = some src
    · simp [hsrc]
    · rw [if_neg (fun hboth => hsrc hboth.2)]
      exact .inr (ha.resolve_left hsrc)
  · intro a'
    rw [hplace]
    by_cases haa : a' = a
    · rw [if_pos haa, if_pos haa]
    · rw [if_neg haa, if_neg haa, if_neg (fun hboth => haa hboth.1)]

end Buckets
