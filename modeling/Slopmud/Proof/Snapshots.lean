import Slopmud.Shard.World

/-!
# What a snapshot keeps

A snapshot that the shard wrote holds the same gold and the same items as the
character it was taken from, and restoring it gives them all back. The one thing
to prove is that equipment survives the detour through slot tokens: each slot is
saved under its own token, and the token parses back to the slot.
-/

namespace Slopmud.Shard

/-- What a principal can own. -/
inductive Good where
  | gold
  | item (name : Text)
deriving DecidableEq, Repr

/-- How much of a good a character carries, worn and wielded items included. -/
def Character.holds (c : Character) : Good → Nat
  | .gold => c.gold
  | .item name => (c.inv.lookup name).getD 0
      + EquipSlot.all.countP fun slot => c.equip.lookup slot == some name

/-- How much of a good a snapshot records. -/
def PlayerSnapshot.holds (s : PlayerSnapshot) : Good → Nat
  | .gold => s.gold
  | .item name => (s.inv.lookup name).getD 0 + s.equip.entries.countP fun e => e.2 == name

/-- The snapshot of some character: what the shard itself writes. -/
def PlayerSnapshot.Written (s : PlayerSnapshot) : Prop :=
  ∃ c, PlayerSnapshot.fromCharacter c = some s

/-! ## Equipment -/

/-- One round of the loop of `saveEquip`. -/
def saveSlot (e : Equipment) (m : Table Text Text) (slot : EquipSlot) : Table Text Text :=
  match e.lookup slot with
  | some item => m.insert slot.asStr item
  | none => m

theorem saveEquip_eq (e : Equipment) : saveEquip e = EquipSlot.all.foldl (saveSlot e) ∅ := rfl

theorem lookup_saveSlot (e : Equipment) (m : Table Text Text) (slot slot' : EquipSlot) :
    (saveSlot e m slot).lookup slot'.asStr
      = if slot' = slot then (e.lookup slot).or (m.lookup slot'.asStr) else m.lookup slot'.asStr := by
  unfold saveSlot
  cases he : e.lookup slot with
  | none => simp
  | some item =>
      rw [Table.lookup_insert_eq]
      by_cases hs : slot' = slot
      · simp [hs]
      · have hne : slot'.asStr ≠ slot.asStr := fun h => hs (EquipSlot.asStr_injective h)
        simp [hs, hne]

theorem lookup_foldl_saveSlot (e : Equipment) (slots : List EquipSlot) (m : Table Text Text)
    (slot : EquipSlot) (hm : slot ∈ slots ∨ m.lookup slot.asStr = e.lookup slot)
    (hold : m.lookup slot.asStr = none ∨ m.lookup slot.asStr = e.lookup slot) :
    (slots.foldl (saveSlot e) m).lookup slot.asStr = e.lookup slot := by
  induction slots generalizing m with
  | nil =>
      rcases hm with hm | hm
      · simp at hm
      · exact hm
  | cons s slots ih =>
      rw [List.foldl_cons]
      have hnext : (saveSlot e m s).lookup slot.asStr = none ∨
          (saveSlot e m s).lookup slot.asStr = e.lookup slot := by
        rw [lookup_saveSlot]
        by_cases hs : slot = s
        · subst hs
          rcases hold with hold | hold <;> simp [hold]
        · simpa [hs] using hold
      refine ih _ ?_ hnext
      by_cases hs : slot = s
      · right
        subst hs
        rw [lookup_saveSlot]
        rcases hold with hold | hold <;> simp [hold]
      · rcases hm with hm | hm
        · exact Or.inl ((List.mem_cons.mp hm).resolve_left hs)
        · right
          rw [lookup_saveSlot, if_neg hs, hm]

/-- Each slot is saved under its token. -/
theorem lookup_saveEquip (e : Equipment) (slot : EquipSlot) :
    (saveEquip e).lookup slot.asStr = e.lookup slot := by
  rw [saveEquip_eq]
  exact lookup_foldl_saveSlot e _ ∅ slot (Or.inl (EquipSlot.mem_all slot)) (Or.inl rfl)

theorem keys_saveSlot {e : Equipment} {m : Table Text Text} {slot : EquipSlot} {k : Text}
    (h : k ∈ saveSlot e m slot) : k = slot.asStr ∨ k ∈ m := by
  unfold saveSlot at h
  cases he : e.lookup slot with
  | none => simp only [he] at h; exact Or.inr h
  | some item => simp only [he] at h; exact (AList.mem_insert m).mp h

theorem keys_foldl_saveSlot {e : Equipment} {slots : List EquipSlot} {m : Table Text Text} {k : Text}
    (h : k ∈ slots.foldl (saveSlot e) m) : (∃ slot ∈ slots, k = slot.asStr) ∨ k ∈ m := by
  induction slots generalizing m with
  | nil => exact Or.inr h
  | cons s slots ih =>
      rcases ih h with ⟨slot, hmem, hk⟩ | hk
      · exact Or.inl ⟨slot, List.mem_cons_of_mem _ hmem, hk⟩
      · rcases keys_saveSlot hk with hk | hk
        · exact Or.inl ⟨s, List.mem_cons_self, hk⟩
        · exact Or.inr hk

/-- Nothing but slots is saved. -/
theorem keys_saveEquip {e : Equipment} {k : Text} (h : k ∈ saveEquip e) :
    ∃ slot : EquipSlot, k = slot.asStr := by
  rcases keys_foldl_saveSlot h with ⟨slot, -, hk⟩ | hk
  · exact ⟨slot, hk⟩
  · exact absurd hk (AList.notMem_empty k)

/-- As many slots hold an item as there are saved entries with it. -/
theorem countP_saveEquip (e : Equipment) (name : Text) :
    (saveEquip e).entries.countP (fun x => x.2 == name)
      = EquipSlot.all.countP fun slot => e.lookup slot == some name := by
  suffices h : ∀ (slots : List EquipSlot) (m : Table Text Text), slots.Nodup →
      (∀ slot ∈ slots, slot.asStr ∉ m) →
      (slots.foldl (saveSlot e) m).entries.countP (fun x => x.2 == name)
        = m.entries.countP (fun x => x.2 == name)
          + slots.countP fun slot => e.lookup slot == some name by
    rw [saveEquip_eq, h EquipSlot.all ∅ (by decide) (fun _ _ => AList.notMem_empty _)]
    simp
  intro slots
  induction slots with
  | nil => intro m _ _; rfl
  | cons s slots ih =>
      intro m hnd hfresh
      obtain ⟨hs, hnd⟩ := List.nodup_cons.mp hnd
      have hrest : ∀ slot ∈ slots, slot.asStr ∉ saveSlot e m s := by
        intro slot hslot hmem
        rcases keys_saveSlot hmem with heq | hmem
        · exact hs (EquipSlot.asStr_injective heq ▸ hslot)
        · exact hfresh slot (List.mem_cons_of_mem _ hslot) hmem
      rw [List.foldl_cons, ih _ hnd hrest, List.countP_cons]
      unfold saveSlot
      cases he : e.lookup s with
      | none => simp
      | some item =>
          rw [AList.entries_insert_of_notMem (hfresh s List.mem_cons_self), List.countP_cons]
          by_cases hi : item = name
          · simp only [hi, beq_self_eq_true, if_true]
            omega
          · simp [hi]

/-- One round of the loop of `loadEquip`. -/
def loadSlot (e : Equipment) (s : Sigma fun _ : Text => Text) : Equipment :=
  match EquipSlot.parse s.1 with
  | some slot => e.insert slot s.2
  | none => e

theorem loadEquip_eq (m : Table Text Text) : loadEquip m = m.entries.foldl loadSlot ∅ := rfl

/-- Loading entries that all name slots by their own tokens, each once. -/
theorem lookup_foldl_loadSlot (es : List (Sigma fun _ : Text => Text)) (hnd : es.NodupKeys)
    (htok : ∀ s ∈ es, ∃ slot : EquipSlot, s.1 = slot.asStr) (e : Equipment) (slot : EquipSlot) :
    (es.foldl loadSlot e).lookup slot = (es.dlookup slot.asStr).or (e.lookup slot) := by
  induction es generalizing e with
  | nil => rfl
  | cons s es ih =>
      obtain ⟨hs, hnd⟩ := List.nodupKeys_cons.mp hnd
      obtain ⟨slot', htok'⟩ := htok s List.mem_cons_self
      rw [List.foldl_cons, ih hnd (fun x hx => htok x (List.mem_cons_of_mem _ hx))]
      obtain ⟨k, item⟩ := s
      simp only at htok'
      subst htok'
      simp only [loadSlot, EquipSlot.parse_asStr]
      rw [Table.lookup_insert_eq]
      by_cases hslot : slot = slot'
      · subst hslot
        rw [List.dlookup_cons_eq, if_pos rfl, List.dlookup_eq_none.mpr hs]
        rfl
      · have hne : slot.asStr ≠ slot'.asStr := fun h => hslot (EquipSlot.asStr_injective h)
        rw [List.dlookup_cons_ne es (⟨slot'.asStr, item⟩ : Sigma fun _ : Text => Text) hne,
          if_neg hslot]

/-- **Equipment survives being saved.** -/
theorem lookup_loadEquip_saveEquip (e : Equipment) (slot : EquipSlot) :
    (loadEquip (saveEquip e)).lookup slot = e.lookup slot := by
  rw [loadEquip_eq, lookup_foldl_loadSlot _ (saveEquip e).nodupKeys ?_ ∅ slot]
  · have h : (saveEquip e).entries.dlookup slot.asStr = e.lookup slot := lookup_saveEquip e slot
    rw [h, AList.lookup_empty, Option.or_none]
  · intro s hs
    exact keys_saveEquip (List.mem_map_of_mem hs)

/-! ## Goods -/

theorem fromCharacter_isSome {c : Character} :
    (PlayerSnapshot.fromCharacter c).isSome ↔ c.race.isSome ∧ c.cls.isSome := by
  unfold PlayerSnapshot.fromCharacter
  cases c.race <;> cases c.cls <;> simp

/-- What a snapshot says of the character it was taken from. -/
theorem fromCharacter_spec {c : Character} {s : PlayerSnapshot}
    (h : PlayerSnapshot.fromCharacter c = some s) :
    s.principal = c.principal ∧ s.name = c.name ∧ s.gold = c.gold ∧ s.inv = c.inv
      ∧ s.equip = saveEquip c.equip := by
  unfold PlayerSnapshot.fromCharacter at h
  cases hr : c.race with
  | none => simp [hr] at h
  | some race =>
      cases hk : c.cls with
      | none => simp [hr, hk] at h
      | some cls =>
          simp only [hr, hk, Option.bind_eq_bind, Option.bind_some, Option.some.injEq] at h
          subst h
          exact ⟨rfl, rfl, rfl, rfl, rfl⟩

/-- **Saving keeps the goods.** -/
theorem holds_fromCharacter {c : Character} {s : PlayerSnapshot}
    (h : PlayerSnapshot.fromCharacter c = some s) (g : Good) : s.holds g = c.holds g := by
  obtain ⟨-, -, hgold, hinv, hequip⟩ := fromCharacter_spec h
  cases g with
  | gold => exact hgold
  | item name =>
      simp only [PlayerSnapshot.holds, Character.holds]
      rw [hinv, hequip, countP_saveEquip]

variable {Raw : Type}

/-- **Restoring gives them back.** -/
theorem holds_restoredCharacter (w : World Raw) (session : Nat) {s : PlayerSnapshot}
    (h : s.Written) (principal : Text) (authCaps : List Capability) (g : Good) :
    (w.restoredCharacter session s principal authCaps).holds g = s.holds g := by
  obtain ⟨c, hc⟩ := h
  rw [holds_fromCharacter hc]
  obtain ⟨-, -, hgold, hinv, hequip⟩ := fromCharacter_spec hc
  cases g with
  | gold => exact hgold
  | item name =>
      simp only [World.restoredCharacter, Character.holds]
      rw [hinv, hequip]
      simp only [lookup_loadEquip_saveEquip]

/-! ## The file -/

variable {J : Codec Raw (List PlayerSnapshot)}

/-- The snapshots that a file has. -/
def InFile (J : Codec Raw (List PlayerSnapshot)) (file : Option Raw) (s : PlayerSnapshot) : Prop :=
  ∃ v, file.bind J.parse = some v ∧ s ∈ v

/-- What a save puts into the file. -/
theorem inFile_persist {w : World Raw} {s : PlayerSnapshot} :
    InFile J (w.persistPlayerSnapshots J true).file s ↔ ∃ p, w.players.lookup p = some s := by
  simp only [World.persistPlayerSnapshots, if_true, InFile, Option.bind_some, Codec.parse_print,
    Option.some.injEq, exists_eq_left', List.mem_mergeSort, Table.mem_values]

/-- **Loading gives snapshots of the file**, under their own principals. -/
theorem loadPlayerSnapshots_spec {readOk : Bool} {file : Option Raw} {p : Text} {s : PlayerSnapshot}
    (h : (loadPlayerSnapshots J readOk file).lookup p = some s) : s.principal = p ∧ InFile J file s := by
  unfold loadPlayerSnapshots at h
  cases hv : (if readOk then file else none).bind J.parse with
  | none => simp [hv] at h
  | some v =>
    simp only [hv] at h
    have hread : file.bind J.parse = some v := by
      cases readOk with
      | true => exact hv
      | false => simp at hv
    -- what the loop has stored so far is in the file
    have hloop : ∀ p s, (v.foldl loadPlayerSnapshot ∅).lookup p = some s → s.principal = p ∧ s ∈ v := by
      refine List.foldlRecOn (motive := fun m : Table Text PlayerSnapshot =>
        ∀ p s, m.lookup p = some s → s.principal = p ∧ s ∈ v) v _ (by simp) fun m hm a ha p s hs => ?_
      unfold loadPlayerSnapshot at hs
      split at hs
      · exact hm p s hs
      · rw [Table.lookup_insert_eq] at hs
        split at hs
        · next hp => cases hs; exact ⟨hp.symm, ha⟩
        · exact hm p s hs
    obtain ⟨hp, hmem⟩ := hloop p s h
    exact ⟨hp, v, hread, hmem⟩

/-- The loop finds a snapshot that is the only one of its principal. -/
theorem lookup_foldl_loadPlayerSnapshot {s : PlayerSnapshot} (hs : (Text.trim s.principal).isEmpty = false)
    (v : List PlayerSnapshot) (m : Table Text PlayerSnapshot) (hone : ∀ a ∈ v, a.principal = s.principal → a = s)
    (hin : s ∈ v ∨ m.lookup s.principal = some s) :
    (v.foldl loadPlayerSnapshot m).lookup s.principal = some s := by
  induction v generalizing m with
  | nil => exact hin.resolve_left (List.not_mem_nil)
  | cons a v ih =>
    refine ih _ (fun b hb => hone b (List.mem_cons_of_mem _ hb)) ?_
    by_cases ha : a.principal = s.principal
    · right
      rw [hone a List.mem_cons_self ha, loadPlayerSnapshot, hs]
      exact AList.lookup_insert _
    · have hsame : (loadPlayerSnapshot m a).lookup s.principal = m.lookup s.principal := by
        unfold loadPlayerSnapshot
        split
        · rfl
        · rw [Table.lookup_insert_eq, if_neg fun heq => ha heq.symm]
      rw [hsame]
      refine hin.imp_left fun hmem => ?_
      rcases List.mem_cons.mp hmem with rfl | hmem
      · exact absurd rfl ha
      · exact hmem

/-- **What is saved is loaded again**, unless its principal is blank. -/
theorem loadPlayerSnapshots_persist {w : World Raw}
    (hkeyed : ∀ p s, w.players.lookup p = some s → s.principal = p) {p : Text} {s : PlayerSnapshot}
    (hp : (Text.trim p).isEmpty = false) (hs : w.players.lookup p = some s) :
    (loadPlayerSnapshots J true (w.persistPlayerSnapshots J true).file).lookup p = some s := by
  have hmem : ∀ a, a ∈ (Table.values w.players).mergeSort PlayerSnapshot.le ↔ ∃ q, w.players.lookup q = some a := by
    intro a
    rw [List.mem_mergeSort, Table.mem_values]
  simp only [loadPlayerSnapshots, World.persistPlayerSnapshots, if_true, Option.bind_some, Codec.parse_print]
  obtain rfl := hkeyed p s hs
  refine lookup_foldl_loadPlayerSnapshot hp _ _ (fun a ha heq => ?_) (.inl ((hmem s).mpr ⟨_, hs⟩))
  obtain ⟨q, hq⟩ := (hmem a).mp ha
  rw [← hkeyed q a hq, heq] at hq
  exact Option.some.inj (hq.symm.trans hs)

end Slopmud.Shard
