import Mathlib

/-!
# Rings of segments

A log kept in `max` numbered segments that are used in turn. The one after the current one is
the oldest, so the log is read from there, all the way round, to the current one. A writer
appends to the current segment; to turn, it empties the oldest one and makes that the current
one. Read oldest to newest, an append adds at the end, emptying the oldest segment takes its
contents from the front, and the turn itself changes nothing.
-/

namespace SegmentRing

variable {β : Type} {max c : Nat}

/-- The segment after `c`. -/
def next (max c : Nat) : Nat := (c + 1) % max

/-- All segments, oldest first, when `c` is the current one. -/
def walk (max c : Nat) : List Nat := (List.range max).map fun i => (c + 1 + i) % max

/-- What the segments hold, oldest first. -/
def read (max c : Nat) (f : Nat → List β) : List β := (walk max c).flatMap f

theorem next_lt (h : c < max) : next max c < max := Nat.mod_lt _ (by omega)

theorem walk_nodup (max c : Nat) : (walk max c).Nodup := by
  refine (List.nodup_map_iff_inj_on List.nodup_range).mpr ?_
  intro i hi j hj heq
  rw [List.mem_range] at hi hj
  have hmod : Nat.ModEq max (c + 1 + i) (c + 1 + j) := heq
  have hij := Nat.ModEq.add_left_cancel' (c + 1) hmod
  rwa [Nat.ModEq, Nat.mod_eq_of_lt hi, Nat.mod_eq_of_lt hj] at hij

/-- The walk begins with the oldest segment. -/
theorem walk_eq_cons (h : c < max) : ∃ rest, walk max c = next max c :: rest ∧ next max c ∉ rest
    ∧ walk max (next max c) = rest ++ [next max c] := by
  obtain ⟨m, rfl⟩ : ∃ m, max = m + 1 := ⟨max - 1, by omega⟩
  refine ⟨(List.range m).map fun i => (c + 2 + i) % (m + 1), ?_, ?_, ?_⟩
  · rw [walk, List.range_succ_eq_map, List.map_cons, List.map_map, next]
    congr 1
    refine List.map_congr_left fun i _ => ?_
    simp only [Function.comp_apply]
    congr 1
    omega
  · have hnodup := walk_nodup (m + 1) c
    rw [walk, List.range_succ_eq_map, List.map_cons, List.map_map, List.nodup_cons] at hnodup
    intro hmem
    refine hnodup.1 ?_
    obtain ⟨i, hi, heq⟩ := List.mem_map.mp hmem
    refine List.mem_map.mpr ⟨i, hi, ?_⟩
    simp only [Function.comp_apply]
    rw [next] at heq
    rw [← Nat.add_zero (c + 1)] at heq
    rw [← heq]
    congr 1
    omega
  · rw [walk, List.range_succ, List.map_append, List.map_singleton, next]
    congr 1
    · refine List.map_congr_left fun i _ => ?_
      rw [Nat.add_assoc, Nat.mod_add_mod]
      congr 1
      omega
    · have hround : ((c + 1) % (m + 1) + 1 + m) % (m + 1) = (c + 1) % (m + 1) := by
        rw [Nat.add_assoc, Nat.mod_add_mod, Nat.add_comm 1 m, Nat.add_mod_right]
      rw [hround]

/-- The walk ends with the current segment. -/
theorem walk_eq_concat (h : c < max) : ∃ init, walk max c = init ++ [c] ∧ c ∉ init := by
  obtain ⟨m, rfl⟩ : ∃ m, max = m + 1 := ⟨max - 1, by omega⟩
  have hlast : (c + 1 + m) % (m + 1) = c := by
    rw [Nat.add_assoc, Nat.add_comm 1 m, Nat.add_mod_right, Nat.mod_eq_of_lt h]
  have hwalk : walk (m + 1) c = (List.range m).map (fun i => (c + 1 + i) % (m + 1)) ++ [c] := by
    rw [walk, List.range_succ, List.map_append, List.map_singleton, hlast]
  refine ⟨_, hwalk, ?_⟩
  have hnodup := walk_nodup (m + 1) c
  rw [hwalk] at hnodup
  exact fun hmem => (List.nodup_append.mp hnodup).2.2 c hmem c (List.mem_singleton_self c) rfl

theorem flatMap_update {l : List Nat} {k : Nat} (h : k ∉ l) (f : Nat → List β) (x : List β) :
    l.flatMap (Function.update f k x) = l.flatMap f := by
  refine List.flatMap_congr fun i hi => ?_
  rw [Function.update_of_ne]
  rintro rfl
  exact h hi

/-- What is appended to the current segment comes last. -/
theorem read_append (h : c < max) (f : Nat → List β) (xs : List β) :
    read max c (Function.update f c (f c ++ xs)) = read max c f ++ xs := by
  obtain ⟨init, hwalk, hc⟩ := walk_eq_concat h
  rw [read, read, hwalk, List.flatMap_append, List.flatMap_append, flatMap_update hc]
  simp

/-- Emptying the oldest segment takes what it held from the front. -/
theorem read_clear (h : c < max) (f : Nat → List β) :
    f (next max c) ++ read max c (Function.update f (next max c) []) = read max c f := by
  obtain ⟨rest, hwalk, hc, -⟩ := walk_eq_cons h
  rw [read, read, hwalk, List.flatMap_cons, List.flatMap_cons, flatMap_update hc]
  simp

/-- The turn to an empty segment changes nothing. -/
theorem read_turn (h : c < max) {f : Nat → List β} (hempty : f (next max c) = []) :
    read max (next max c) f = read max c f := by
  obtain ⟨rest, hwalk, -, hnext⟩ := walk_eq_cons h
  rw [read, read, hwalk, hnext, List.flatMap_append, List.flatMap_cons]
  simp [hempty]

/-- The walk the other way round. -/
theorem walk_reverse (max c : Nat) :
    (walk max c).reverse = (List.range max).map fun i => (c + max - i % max) % max := by
  rw [walk, ← List.map_reverse]
  refine List.ext_getElem (by simp) fun i hi hi' => ?_
  simp only [List.length_map, List.length_reverse, List.length_range] at hi
  simp only [List.getElem_map, List.getElem_reverse, List.getElem_range, List.length_range]
  rw [Nat.mod_eq_of_lt hi]
  congr 1
  omega

end SegmentRing
