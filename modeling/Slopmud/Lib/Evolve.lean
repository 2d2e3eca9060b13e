import Slopmud.Lib.Table

/-!
# Tables whose entries evolve

A step of a program that keeps its objects in a table changes some entries and removes others.
`Evolves R` says that every entry afterwards comes by `R` from the entry that was there before,
under the same key; `All P` that every entry has a property. With an `R` that is reflexive and
transitive the small steps compose, and a property that `R` carries over is kept by all of them.
-/

namespace Table

variable {K V : Type}

/-- A relation on values, for each key, of which steps can be composed. -/
structure Composes (R : K → V → V → Prop) : Prop where
  refl : ∀ k v, R k v v
  trans : ∀ {k v v' v''}, R k v v' → R k v' v'' → R k v v''

/-- Whatever a property does: it is carried over, or not. -/
theorem composes_carry (P : K → V → Prop) : Composes (fun k v v' => P k v → P k v') where
  refl _ _ h := h
  trans h h' hP := h' (h hP)

variable [DecidableEq K]

def All (P : K → V → Prop) (m : Table K V) : Prop := ∀ k v, m.lookup k = some v → P k v

def Evolves (R : K → V → V → Prop) (m m' : Table K V) : Prop :=
  ∀ k v', m'.lookup k = some v' → ∃ v, m.lookup k = some v ∧ R k v v'

variable {P : K → V → Prop} {R S : K → V → V → Prop} {m m' m'' : Table K V}

theorem All.empty : All P (∅ : Table K V) := fun _ _ h => by simp at h

theorem All.insert (h : All P m) {k : K} {v : V} (hv : P k v) : All P (m.insert k v) := by
  intro k' v' hv'
  rw [lookup_insert_eq] at hv'
  split at hv'
  · next hk => cases hv'; exact hk ▸ hv
  · exact h k' v' hv'

theorem All.mono {Q : K → V → Prop} (h : All P m) (hPQ : ∀ k v, P k v → Q k v) : All Q m :=
  fun k v hv => hPQ k v (h k v hv)

/-- **What `R` carries over is kept.** -/
theorem All.evolve (h : All P m) (he : Evolves R m m') (hR : ∀ k v v', R k v v' → P k v → P k v') :
    All P m' := by
  intro k v' hv'
  obtain ⟨v, hv, hstep⟩ := he k v' hv'
  exact hR k v v' hstep (h k v hv)

theorem Evolves.refl (h : Composes R) (m : Table K V) : Evolves R m m :=
  fun k v hv => ⟨v, hv, h.refl k v⟩

theorem Evolves.trans (h : Composes R) (h₁ : Evolves R m m') (h₂ : Evolves R m' m'') :
    Evolves R m m'' := by
  intro k v'' hv''
  obtain ⟨v', hv', hR'⟩ := h₂ k v'' hv''
  obtain ⟨v, hv, hR⟩ := h₁ k v' hv'
  exact ⟨v, hv, h.trans hR hR'⟩

theorem Evolves.mono (h : Evolves R m m') (hRS : ∀ k v v', R k v v' → S k v v') : Evolves S m m' := by
  intro k v' hv'
  obtain ⟨v, hv, hR⟩ := h k v' hv'
  exact ⟨v, hv, hRS k v v' hR⟩

/-- Some entries are gone. -/
theorem Evolves.of_sub (h : Composes R) (hsub : ∀ k v, m'.lookup k = some v → m.lookup k = some v) :
    Evolves R m m' :=
  fun k v hv => ⟨v, hsub k v hv, h.refl k v⟩

theorem Evolves.erase (h : Composes R) (m : Table K V) (k : K) : Evolves R m (m.erase k) := by
  refine .of_sub h fun k' v hv => ?_
  rw [lookup_erase_eq] at hv
  split at hv
  · cases hv
  · exact hv

/-- One entry changes. -/
theorem Evolves.insert (h : Composes R) {k : K} {v v' : V} (hv : m.lookup k = some v) (hR : R k v v') :
    Evolves R m (m.insert k v') := by
  intro k' v'' hv''
  rw [lookup_insert_eq] at hv''
  split at hv''
  · next hk => cases hv''; exact ⟨v, hk ▸ hv, hk ▸ hR⟩
  · exact ⟨v'', hv'', h.refl k' v''⟩

/-- One entry changes and is then removed. -/
theorem Evolves.insert_erase (h : Composes R) (m : Table K V) (k : K) (v : V) :
    Evolves R m ((m.insert k v).erase k) := by
  refine .of_sub h fun k' v' hv' => ?_
  rw [lookup_erase_eq] at hv'
  split at hv'
  · cases hv'
  · next hk => rwa [lookup_insert_eq, if_neg hk] at hv'

theorem Evolves.mapVals (f : K → V → V) (hR : ∀ k v, R k v (f k v)) (m : Table K V) :
    Evolves R m (m.mapVals f) := by
  intro k v' hv'
  rw [lookup_mapVals] at hv'
  obtain ⟨v, hv, rfl⟩ := Option.map_eq_some_iff.mp hv'
  exact ⟨v, hv, hR k v⟩

end Table
