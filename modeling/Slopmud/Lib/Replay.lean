import Mathlib.Data.List.Induction
import Slopmud.Lib.Table

/-!
# Replaying keyed writes

An event writes at most one key of a table: `write e = some (k, some v)` sets it,
`some (k, none)` deletes it. What a table holds at a key after a replay is decided
by the last event about that key (`lookup_replay`), so only the order of the
events about one key matters, and replaying the end of a log over a table that
already has some of it changes nothing (`lookup_replay_suffix`).
-/

namespace Replay

variable {K V E : Type} [DecidableEq K]

/-- The effect of one event on a table. -/
def put (m : Table K V) : Option (K × Option V) → Table K V
  | none => m
  | some (k, some v) => m.insert k v
  | some (k, none) => m.erase k

/-- The effect of a list of events, one by one. -/
def replay (write : E → Option (K × Option V)) (m : Table K V) (evs : List E) : Table K V :=
  evs.foldl (fun m e => put m (write e)) m

/-- The events about key `k`, in order. -/
def about (write : E → Option (K × Option V)) (k : K) (evs : List E) : List E :=
  evs.filter fun e => (write e).map Prod.fst = some k

variable {write : E → Option (K × Option V)} {m m' : Table K V} {k : K} {evs evs' : List E}

@[simp] theorem replay_nil : replay write m [] = m := rfl

@[simp] theorem replay_cons {e : E} :
    replay write m (e :: evs) = replay write (put m (write e)) evs := rfl

theorem replay_append : replay write m (evs ++ evs') = replay write (replay write m evs) evs' :=
  List.foldl_append

@[simp] theorem about_append : about write k (evs ++ evs') = about write k evs ++ about write k evs' :=
  List.filter_append ..

theorem mem_about {e : E} : e ∈ about write k evs ↔ e ∈ evs ∧ (write e).map Prod.fst = some k := by
  simp [about]

/-- What one event leaves at a key. -/
theorem lookup_put {w : Option (K × Option V)} :
    (put m w).lookup k = if w.map Prod.fst = some k then w.bind Prod.snd else m.lookup k := by
  rcases w with _ | ⟨k', _ | v⟩
  · simp [put]
  · simp only [put, Table.lookup_erase_eq, Option.map_some, Option.some.injEq, eq_comm,
      Option.bind_some]
  · simp only [put, Table.lookup_insert_eq, Option.map_some, Option.some.injEq, eq_comm,
      Option.bind_some]

/-- **The last event about a key decides**; where there is none, the table is as it was. -/
theorem lookup_replay : (replay write m evs).lookup k =
    match (about write k evs).getLast? with
    | some e => (write e).bind Prod.snd
    | none => m.lookup k := by
  induction evs using List.reverseRec with
  | nil => rfl
  | append_singleton evs e ih =>
    rw [replay_append, replay_cons, replay_nil, lookup_put, about_append]
    by_cases hk : (write e).map Prod.fst = some k
    · rw [if_pos hk]
      simp [about, hk]
    · rw [if_neg hk, ih]
      simp [about, hk]

/-- Two replays that end with the same events about a key agree there. -/
theorem lookup_replay_congr (hm : m.lookup k = m'.lookup k)
    (h : about write k evs = about write k evs') :
    (replay write m evs).lookup k = (replay write m' evs').lookup k := by
  rw [lookup_replay, lookup_replay, h, hm]

theorem replay_same (h : Table.Same m m') (evs : List E) :
    Table.Same (replay write m evs) (replay write m' evs) :=
  fun _ => lookup_replay_congr (h _) rfl

/-- Either an event decides what two replays of the same events leave at a key, or none is about
it. -/
theorem lookup_replay_cases (write : E → Option (K × Option V)) (m m' : Table K V) (evs : List E) (k : K) :
    (replay write m evs).lookup k = (replay write m' evs).lookup k ∨
      ((replay write m evs).lookup k = m.lookup k ∧ (replay write m' evs).lookup k = m'.lookup k) := by
  rw [lookup_replay, lookup_replay]
  cases (about write k evs).getLast? with
  | none => exact Or.inr ⟨rfl, rfl⟩
  | some e => exact Or.inl rfl

/-- Entries that know their own keys stay under them. -/
theorem replay_own {f : V → K} (hm : ∀ k v, m.lookup k = some v → f v = k)
    (hw : ∀ e k v, write e = some (k, some v) → f v = k) :
    ∀ k v, (replay write m evs).lookup k = some v → f v = k := by
  intro k v hv
  rw [lookup_replay] at hv
  cases hlast : (about write k evs).getLast? with
  | none => rw [hlast] at hv; exact hm k v hv
  | some e =>
    rw [hlast] at hv
    have hkey := (mem_about.mp (List.mem_of_getLast? hlast)).2
    obtain ⟨⟨k', v'⟩, hwrite, rfl⟩ := Option.map_eq_some_iff.mp hkey
    simp only [hwrite, Option.bind_some] at hv
    exact hw e k' v (by rw [hwrite, hv])

/-- **Replaying a suffix catches up.** The log is `pre` and then `late`. A table that has `pre`,
and then replays a part of the log that leaves out only events of `pre`, has the whole log. -/
theorem lookup_replay_suffix {pre late tail : List E} (early : List E)
    (hsplit : about write k (pre ++ late) = about write k early ++ about write k tail)
    (hearly : about write k early <+: about write k pre) :
    (replay write (replay write m pre) tail).lookup k = (replay write m (pre ++ late)).lookup k := by
  obtain ⟨again, hagain⟩ := hearly
  rw [about_append, ← hagain, List.append_assoc] at hsplit
  have htail : about write k tail = again ++ about write k late :=
    (List.append_cancel_left hsplit).symm
  rw [replay_append, lookup_replay, @lookup_replay _ _ _ _ _ _ _ late, htail]
  -- the last event of `late` decides on both sides; without one, the repeated events do
  rcases List.eq_nil_or_concat (about write k late) with hlate | ⟨front, e, hlate⟩
  · rw [hlate, List.append_nil, lookup_replay, ← hagain]
    rcases List.eq_nil_or_concat again with rfl | ⟨front, e, rfl⟩
    · simp
    · simp [← List.append_assoc]
  · rw [hlate]
    simp [← List.append_assoc]

/-! ## Presence

A flag that says whether a key is bound needs no table to follow the events. -/

/-- Whether a key is bound after these events, when `b` says whether it was before. -/
def presence (write : E → Option (K × Option V)) (k : K) (b : Bool) (evs : List E) : Bool :=
  evs.foldl (fun b e =>
    if (write e).map Prod.fst = some k then ((write e).bind Prod.snd).isSome else b) b

@[simp] theorem presence_nil (b : Bool) : presence write k b [] = b := rfl

theorem presence_append (b : Bool) :
    presence write k b (evs ++ evs') = presence write k (presence write k b evs) evs' :=
  List.foldl_append

theorem presence_concat (b : Bool) (e : E) :
    presence write k b (evs ++ [e]) =
      if (write e).map Prod.fst = some k then ((write e).bind Prod.snd).isSome
      else presence write k b evs := by
  rw [presence_append]
  rfl

theorem presence_lookup (m : Table K V) (evs : List E) :
    ((replay write m evs).lookup k).isSome = presence write k (m.lookup k).isSome evs := by
  induction evs using List.reverseRec with
  | nil => rfl
  | append_singleton evs e ih =>
    rw [replay_append, replay_cons, replay_nil, lookup_put, presence_concat]
    split
    · rfl
    · exact ih

/-- Events about other keys say nothing. -/
theorem presence_of_about (h : about write k evs = []) (b : Bool) : presence write k b evs = b := by
  induction evs using List.reverseRec with
  | nil => rfl
  | append_singleton evs e ih =>
    rw [about_append, List.append_eq_nil_iff] at h
    have hne : (write e).map Prod.fst ≠ some k := by
      intro hk
      have hmem : e ∈ about write k [e] := mem_about.mpr ⟨List.mem_singleton_self e, hk⟩
      rw [h.2] at hmem
      cases hmem
    rw [presence_concat, if_neg hne, ih h.1]

/-- With an event about the key, it does not matter what was before. -/
theorem presence_of_ne (h : about write k evs ≠ []) (b b' : Bool) :
    presence write k b evs = presence write k b' evs := by
  induction evs using List.reverseRec with
  | nil => exact absurd rfl h
  | append_singleton evs e ih =>
    rw [presence_concat, presence_concat]
    split
    · rfl
    · rename_i hne
      refine ih ?_
      intro hnil
      refine h ?_
      rw [about_append, hnil]
      simp [about, hne]

end Replay
