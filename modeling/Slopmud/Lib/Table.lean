import Mathlib

/-!
# Tables

A hash map is an association list without duplicate keys; the order of the list
stands for the iteration order, which nothing may depend on. Everything comes
from `AList`; this file only fixes the value type and reads `insert` and `erase`
back through `lookup`, which is how the rest of the development sees a map.
-/

/-- A finite map from `K` to `V`. -/
abbrev Table (K V : Type) := AList (fun _ : K => V)

namespace Table

variable {K V : Type} [DecidableEq K]

/-- The values, in iteration order. -/
def values (m : Table K V) : List V := m.entries.map Sigma.snd

theorem lookup_insert_eq (m : Table K V) (k k' : K) (v : V) :
    (m.insert k v).lookup k' = if k' = k then some v else m.lookup k' := by
  by_cases h : k' = k
  · subst h; simp [AList.lookup_insert]
  · rw [if_neg h, AList.lookup_insert_ne h]

theorem lookup_erase_eq (m : Table K V) (k k' : K) :
    (m.erase k).lookup k' = if k' = k then none else m.lookup k' := by
  by_cases h : k' = k
  · subst h; simp [AList.lookup_erase]
  · rw [if_neg h, AList.lookup_erase_ne h]

theorem mem_values {m : Table K V} {v : V} : v ∈ values m ↔ ∃ k, m.lookup k = some v := by
  constructor
  · intro h
    obtain ⟨⟨k, v'⟩, hmem, rfl⟩ := List.mem_map.mp h
    exact ⟨k, AList.mem_lookup_iff.mpr hmem⟩
  · rintro ⟨k, h⟩
    exact List.mem_map.mpr ⟨⟨k, v⟩, AList.mem_lookup_iff.mp h, rfl⟩

/-- `HashMap::retain`. -/
def retain (p : K → V → Bool) (m : Table K V) : Table K V where
  entries := m.entries.filter fun e => p e.1 e.2
  nodupKeys := m.nodupKeys.sublist List.filter_sublist

theorem lookup_eq_some_iff {m : Table K V} {k : K} {v : V} :
    m.lookup k = some v ↔ (⟨k, v⟩ : Sigma fun _ : K => V) ∈ m.entries :=
  AList.mem_lookup_iff

/-- Without repetition, and one of a kind -/
theorem eq_singleton_iff {α : Type} {l : List α} (hnd : l.Nodup) {a : α} (ha : a ∈ l) :
    l = [a] ↔ ∀ x ∈ l, x = a := by
  constructor
  · rintro rfl x hx
    exact List.mem_singleton.mp hx
  · intro hall
    cases l with
    | nil => cases ha
    | cons b l =>
      obtain rfl := hall b List.mem_cons_self
      have hnil : l = [] := by
        refine List.eq_nil_iff_forall_not_mem.mpr fun x hx => ?_
        obtain rfl := hall x (List.mem_cons_of_mem _ hx)
        exact (List.nodup_cons.mp hnd).1 hx
      rw [hnil]

/-- The only entry that meets a condition -/
theorem filter_entries_eq {m : Table K V} {k : K} {v : V} (h : m.lookup k = some v)
    {p : (Sigma fun _ : K => V) → Bool} (hp : p ⟨k, v⟩ = true)
    (honly : ∀ k' v', m.lookup k' = some v' → p ⟨k', v'⟩ = true → k' = k) :
    m.entries.filter p = [⟨k, v⟩] := by
  have hmem : (⟨k, v⟩ : Sigma fun _ : K => V) ∈ m.entries.filter p :=
    List.mem_filter.mpr ⟨lookup_eq_some_iff.mp h, hp⟩
  refine (eq_singleton_iff (m.nodupKeys.nodup.filter _) hmem).mpr ?_
  rintro ⟨k', v'⟩ he
  obtain ⟨hmem', hpe⟩ := List.mem_filter.mp he
  have hlook : m.lookup k' = some v' := lookup_eq_some_iff.mpr hmem'
  obtain rfl := honly k' v' hlook hpe
  rw [h] at hlook
  cases hlook
  rfl

theorem lookup_retain (p : K → V → Bool) (m : Table K V) (k : K) :
    (m.retain p).lookup k = (m.lookup k).filter (p k) := by
  apply Option.ext
  intro v
  rw [lookup_eq_some_iff, Option.filter_eq_some_iff, lookup_eq_some_iff]
  simp [retain]

/-- Change every value. -/
def mapVals {V' : Type} (f : K → V → V') (m : Table K V) : Table K V' where
  entries := m.entries.map fun e => ⟨e.1, f e.1 e.2⟩
  nodupKeys := by
    have hkeys : (m.entries.map fun e => (⟨e.1, f e.1 e.2⟩ : Sigma fun _ : K => V')).keys
        = m.entries.keys := by simp [List.keys, Function.comp_def]
    rw [List.NodupKeys, hkeys]
    exact m.nodupKeys

theorem lookup_mapVals {V' : Type} (f : K → V → V') (m : Table K V) (k : K) :
    (m.mapVals f).lookup k = (m.lookup k).map (f k) := by
  apply Option.ext
  intro v
  rw [lookup_eq_some_iff, Option.map_eq_some_iff]
  constructor
  · intro h
    obtain ⟨⟨k', v'⟩, hmem, heq⟩ := List.mem_map.mp h
    cases heq
    exact ⟨v', lookup_eq_some_iff.mpr hmem, rfl⟩
  · rintro ⟨v', h, rfl⟩
    exact List.mem_map.mpr ⟨⟨k, v'⟩, lookup_eq_some_iff.mp h, rfl⟩

/-- Insert each value under its own key. -/
def fileAll (f : V → K) (t : Table K V) (vs : List V) : Table K V :=
  vs.foldl (fun t v => AList.insert (f v) v t) t

/-- Filing values that `m` has under their own keys leaves what `m` has there. -/
theorem lookup_fileAll {f : V → K} {m : Table K V} {vs : List V}
    (h : ∀ v ∈ vs, m.lookup (f v) = some v) (t : Table K V) (k : K) :
    (fileAll f t vs).lookup k = if k ∈ vs.map f then m.lookup k else t.lookup k := by
  induction vs generalizing t with
  | nil => simp [fileAll]
  | cons v vs ih =>
    have hrest := ih (fun v' hv' => h v' (List.mem_cons_of_mem _ hv')) (t.insert (f v) v)
    rw [fileAll, List.foldl_cons, ← fileAll, hrest, lookup_insert_eq, List.map_cons]
    by_cases hvs : k ∈ vs.map f
    · rw [if_pos hvs, if_pos (List.mem_cons_of_mem _ hvs)]
    · by_cases hk : k = f v
      · rw [if_neg hvs, if_pos hk, if_pos (by simp [hk]), hk, h v List.mem_cons_self]
      · rw [if_neg hvs, if_neg hk, if_neg (by rw [List.mem_cons]; tauto)]

/-- What is filed is bound. -/
theorem lookup_fileAll_isSome (f : V → K) (vs : List V) (t : Table K V) (k : K) :
    ((fileAll f t vs).lookup k).isSome = (decide (k ∈ vs.map f) || (t.lookup k).isSome) := by
  induction vs generalizing t with
  | nil => simp [fileAll]
  | cons v vs ih =>
    rw [fileAll, List.foldl_cons, ← fileAll, ih, lookup_insert_eq, List.map_cons]
    by_cases hk : k = f v
    · simp [hk]
    · simp [hk]

/-- What is filed under its own key stays stored under its own key. -/
theorem fileAll_keyed {f : V → K} {t : Table K V} (h : ∀ k v, t.lookup k = some v → f v = k)
    (vs : List V) (k : K) (v : V) (hv : (fileAll f t vs).lookup k = some v) : f v = k := by
  induction vs generalizing t with
  | nil => exact h k v hv
  | cons v' vs ih =>
    refine ih (t := AList.insert (f v') v' t) (fun k v hv => ?_) hv
    rw [lookup_insert_eq] at hv
    split at hv
    · next hk => cases hv; exact hk.symm
    · exact h k v hv

/-- A value is stored under its key when no other value of the list has that key. -/
theorem lookup_fileAll_self {f : V → K} {vs : List V} (h : ∀ v ∈ vs, ∀ v' ∈ vs, f v = f v' → v = v')
    {v : V} (hv : v ∈ vs) (t : Table K V) : (fileAll f t vs).lookup (f v) = some v := by
  suffices hsuffix : ∀ (us : List V) (t : Table K V), (∀ u ∈ us, f v = f u → v = u) →
      (v ∈ us ∨ t.lookup (f v) = some v) → (fileAll f t us).lookup (f v) = some v from
    hsuffix vs t (h v hv) (.inl hv)
  intro us
  induction us with
  | nil => exact fun t _ hor => hor.resolve_left List.not_mem_nil
  | cons u us ih =>
    intro t hus hor
    refine ih _ (fun u' hu' => hus u' (List.mem_cons_of_mem _ hu')) ?_
    rw [lookup_insert_eq]
    by_cases hfu : f v = f u
    · rw [if_pos hfu, hus u List.mem_cons_self hfu]
      exact .inr rfl
    · rw [if_neg hfu]
      refine hor.imp (fun hmem => (List.mem_cons.mp hmem).resolve_left ?_) id
      rintro rfl
      exact hfu rfl

/-- A map can be rebuilt from its values when every value knows its key. -/
theorem lookup_refile {f : V → K} {m : Table K V} (hown : ∀ k v, m.lookup k = some v → f v = k)
    (p : V → Bool) (k : K) :
    (fileAll f ∅ ((values m).filter p)).lookup k = (m.lookup k).filter p := by
  have hfiled : ∀ v ∈ (values m).filter p, m.lookup (f v) = some v := by
    intro v hv
    obtain ⟨k', hk'⟩ := mem_values.mp (List.mem_filter.mp hv).1
    rw [hown k' v hk', hk']
  have hmem : k ∈ ((values m).filter p).map f ↔ ∃ v, m.lookup k = some v ∧ p v = true := by
    constructor
    · intro h
      obtain ⟨v, hv, rfl⟩ := List.mem_map.mp h
      exact ⟨v, hfiled v hv, (List.mem_filter.mp hv).2⟩
    · rintro ⟨v, hv, hp⟩
      exact List.mem_map.mpr ⟨v, List.mem_filter.mpr ⟨mem_values.mpr ⟨k, hv⟩, hp⟩, hown k v hv⟩
  rw [lookup_fileAll hfiled]
  cases hlook : m.lookup k with
  | none => simp
  | some v =>
    by_cases hp : p v = true
    · rw [if_pos (hmem.mpr ⟨v, hlook, hp⟩), Option.filter_some_pos hp]
    · rw [if_neg (by rw [hmem, hlook]; simpa using hp), Option.filter_some_neg (by simpa using hp)]
      rfl

theorem lookup_refile_all {f : V → K} {m : Table K V}
    (hown : ∀ k v, m.lookup k = some v → f v = k) (k : K) :
    (fileAll f ∅ (values m)).lookup k = m.lookup k := by
  have h := lookup_refile hown (fun _ => true) k
  rw [List.filter_eq_self.mpr fun _ _ => rfl] at h
  cases hlook : m.lookup k with
  | none => rw [h, hlook]; rfl
  | some v => rw [h, hlook]; rfl

/-- Two maps with the same bindings. -/
def Same (m m' : Table K V) : Prop := ∀ k, m.lookup k = m'.lookup k

theorem Same.refl (m : Table K V) : Same m m := fun _ => rfl

theorem Same.insert {m m' : Table K V} (h : Same m m') (k : K) (v : V) :
    Same (m.insert k v) (m'.insert k v) := by
  intro k'; rw [lookup_insert_eq, lookup_insert_eq, h k']

theorem Same.erase {m m' : Table K V} (h : Same m m') (k : K) :
    Same (m.erase k) (m'.erase k) := by
  intro k'; rw [lookup_erase_eq, lookup_erase_eq, h k']

end Table
