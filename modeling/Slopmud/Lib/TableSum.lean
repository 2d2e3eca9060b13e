import Mathlib.Algebra.BigOperators.Group.List.Basic
import Slopmud.Lib.Table

/-!
# Sums over a table

A quantity of the entries, added up. Writing one entry changes the sum by the new value minus the
one it replaces.
-/

namespace Table

variable {K V : Type}

/-- The quantity may depend on the key. -/
def totalOn (f : K → V → Nat) (m : Table K V) : Nat := (m.entries.map fun e => f e.1 e.2).sum

def total (f : V → Nat) (m : Table K V) : Nat := ((values m).map f).sum

theorem total_eq_totalOn (f : V → Nat) (m : Table K V) : total f m = totalOn (fun _ => f) m := by
  simp [total, totalOn, values, Function.comp_def]

variable [DecidableEq K]

/-- What remains when an entry is taken out. -/
theorem totalOn_kerase {f : K → V → Nat} {m : Table K V} {k : K} {v : V} (h : m.lookup k = some v) :
    totalOn f m = f k v + ((m.entries.kerase k).map fun e => f e.1 e.2).sum := by
  have hmem : (⟨k, v⟩ : Sigma fun _ : K => V) ∈ m.entries := lookup_eq_some_iff.mp h
  have hkey : k ∈ m.entries.keys := List.mem_keys_of_mem hmem
  obtain ⟨v', l₁, l₂, -, hl, herase⟩ := List.exists_of_kerase hkey
  have hv : v' = v := by
    have hmem' : (⟨k, v'⟩ : Sigma fun _ : K => V) ∈ m.entries := hl ▸ List.mem_append_right _ List.mem_cons_self
    have hlook : m.lookup k = some v' := lookup_eq_some_iff.mpr hmem'
    exact Option.some.inj (hlook.symm.trans h)
  subst hv
  rw [totalOn, herase, hl]
  simp only [List.map_append, List.map_cons, List.sum_append, List.sum_cons]
  omega

theorem totalOn_erase {f : K → V → Nat} {m : Table K V} {k : K} {v : V} (h : m.lookup k = some v) :
    totalOn f m = f k v + totalOn f (m.erase k) := totalOn_kerase h

theorem totalOn_insert {f : K → V → Nat} {m : Table K V} {k : K} {v : V} (h : m.lookup k = some v) (v' : V) :
    totalOn f (m.insert k v') + f k v = totalOn f m + f k v' := by
  have hnew : totalOn f (m.insert k v') = f k v' + ((m.entries.kerase k).map fun e => f e.1 e.2).sum := by
    rw [totalOn, AList.entries_insert]
    simp
  rw [hnew, totalOn_kerase h]
  omega

/-- A new entry -/
theorem totalOn_insert_new {f : K → V → Nat} {m : Table K V} {k : K} (h : m.lookup k = none) (v' : V) :
    totalOn f (m.insert k v') = totalOn f m + f k v' := by
  have hkey : k ∉ m.entries.keys := by
    intro hin
    have hsome := AList.lookup_isSome.mpr (AList.mem_keys.mpr hin)
    rw [h] at hsome
    cases hsome
  rw [totalOn, AList.entries_insert, List.kerase_of_notMem_keys hkey, totalOn]
  simp [Nat.add_comm]

/-- An entry that stands for `d` while it is not there. -/
theorem totalOn_upsert {f : K → V → Nat} {k : K} {d : V} (hd : f k d = 0) (m : Table K V) (v' : V) :
    totalOn f (m.insert k v') + f k ((m.lookup k).getD d) = totalOn f m + f k v' := by
  cases h : m.lookup k with
  | none => simp [totalOn_insert_new h, hd]
  | some v => exact totalOn_insert h v'

theorem total_insert {f : V → Nat} {m : Table K V} {k : K} {v : V} (h : m.lookup k = some v) (v' : V) :
    total f (m.insert k v') + f v = total f m + f v' := by
  rw [total_eq_totalOn, total_eq_totalOn]
  exact totalOn_insert h v'

theorem total_insert_new {f : V → Nat} {m : Table K V} {k : K} (h : m.lookup k = none) (v' : V) :
    total f (m.insert k v') = total f m + f v' := by
  rw [total_eq_totalOn, total_eq_totalOn]
  exact totalOn_insert_new h v'

end Table
