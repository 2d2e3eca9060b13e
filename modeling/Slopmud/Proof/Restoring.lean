import Slopmud.Proof.Experience

/-!
# Saving and restoring

What is saved of a character is restored as it was: tokens parse back to what they were written
for, and the clamps of `restore_character` change nothing that is in range, as everything is while
the clock and the levels are within their limits.
-/

namespace Slopmud.Shard

open Machine Table

variable {Raw Auth : Type} {J : Codec Raw (List PlayerSnapshot)} {A : Codec Auth AuthBlob}

/-- Two characters have the same persisted part: they differ in what belongs to a session and its
clock at most, and wear the same in every slot. -/
structure SamePersisted (c c' : Character) : Prop where
  rest : c' = { c with
    id := c'.id
    controller := c'.controller
    createdBy := c'.createdBy
    principal := c'.principal
    authCaps := c'.authCaps
    skillCdMs := c'.skillCdMs
    lastManaRegenMs := c'.lastManaRegenMs
    lastStaminaRegenMs := c'.lastStaminaRegenMs
    stunnedUntilMs := c'.stunnedUntilMs
    combat := c'.combat
    equip := c'.equip }
  equip : ∀ slot, c'.equip.lookup slot = c.equip.lookup slot

/-- A snapshot of equipment depends on what is in the slots only. -/
theorem saveEquip_congr {e e' : Equipment} (h : ∀ slot, e'.lookup slot = e.lookup slot) :
    saveEquip e' = saveEquip e := by
  have hslot : saveSlot e' = saveSlot e := by
    funext m slot
    rw [saveSlot, saveSlot, h]
  rw [saveEquip_eq, saveEquip_eq, hslot]

/-- The snapshot is taken of the persisted part, and of the principal. -/
theorem SamePersisted.fromCharacter {c c' : Character} (h : SamePersisted c c')
    (hprincipal : c'.principal = c.principal) :
    PlayerSnapshot.fromCharacter c' = PlayerSnapshot.fromCharacter c := by
  rw [h.rest, hprincipal]
  unfold PlayerSnapshot.fromCharacter
  dsimp only
  rw [saveEquip_congr h.equip]

/-- Numbers that `restore_character` does not change. -/
structure Clamped (c : Character) : Prop where
  vitals : InRange c
  level : 1 ≤ c.level

/-- **Restoring undoes saving**, for a character in range whose room is there. -/
theorem restoredCharacter_same (w : World Raw) (session : SessionId) (principal : Text)
    (authCaps : List Capability) {c : Character} {s : PlayerSnapshot} (h : Clamped c)
    (hroom : w.rooms.hasRoom c.roomId = true) (hs : PlayerSnapshot.fromCharacter c = some s) :
    SamePersisted c (w.restoredCharacter session s principal authCaps) := by
  simp only [PlayerSnapshot.fromCharacter, Option.bind_eq_bind, Option.bind_eq_some_iff,
    Option.some.injEq] at hs
  obtain ⟨race, hrace, cls, hcls, rfl⟩ := hs
  obtain ⟨⟨⟨hhp, hmaxHp⟩, ⟨hmana, hmaxMana⟩, ⟨hstamina, hmaxStamina⟩⟩, hlevel⟩ := h
  have hlevel' : max c.level 1 = c.level := Nat.max_eq_left hlevel
  have hhp' : min (max c.hp 1) (max c.maxHp 1) = c.hp := by omega
  have hmaxHp' : max c.maxHp 1 = c.maxHp := by omega
  have hmana' : min (max c.mana 0) (max c.maxMana 0) = c.mana := by omega
  have hmaxMana' : max c.maxMana 0 = c.maxMana := by omega
  have hstamina' : min (max c.stamina 0) (max c.maxStamina 0) = c.stamina := by omega
  have hmaxStamina' : max c.maxStamina 0 = c.maxStamina := by omega
  refine ⟨?_, fun slot => lookup_loadEquip_saveEquip c.equip slot⟩
  unfold World.restoredCharacter
  dsimp only
  rw [if_pos hroom, Finset.sort_toFinset, Race.parse_asStr, Class.parse_asStr, Sex.parse_asStr,
    PronounKey.parse_asStr, hlevel', hhp', hmaxHp', hmana', hmaxMana', hstamina', hmaxStamina', hrace, hcls]
  rfl

theorem lookup_restoreCharacter (w : World Raw) (session : SessionId) (s : PlayerSnapshot)
    (principal : Text) (authCaps : List Capability) :
    (w.restoreCharacter session s principal authCaps).chars.lookup w.nextCharId
      = some (w.restoredCharacter session s principal authCaps) := AList.lookup_insert _

namespace Battle

/-- Everybody is as the restore would have it. -/
theorem clamped_run {file : Option Raw} (hfile : Written J A file) (readOk : Bool) (rooms : RoomMap)
    {ms : List (BattleMove Auth)} {b : Battle Raw}
    (hex : exec (step J A) (.new J readOk rooms file) ms = some b)
    (hbounds : Throughout (step J A) InBounds (.new J readOk rooms file) ms) :
    All (fun _ c => Clamped c) b.world.chars := by
  intro cid c hc
  have hfit := (fit_run hfile.fit hex hbounds).chars cid c hc
  obtain ⟨-, hlevels⟩ := hbounds.last hex
  have hbudgeted := (budgeted_run hfile.budgeted hex).chars cid c hc (hlevels c (mem_values.mpr ⟨cid, hc⟩))
  exact ⟨⟨alive_run hex cid c hc, hfit.mana, hfit.stamina⟩, hbudgeted.1⟩

/-- **Save, then restore.** Of every built character that is reachable with the clock and the levels
within their limits there is a snapshot; in any world that has its room, whatever is persisted is
restored as it was; and the snapshot of the restored character is the one it was restored from. -/
theorem restore_save_identity {file : Option Raw} (hfile : Written J A file) (readOk : Bool)
    (rooms : RoomMap) {ms : List (BattleMove Auth)} {b : Battle Raw}
    (hex : exec (step J A) (.new J readOk rooms file) ms = some b)
    (hbounds : Throughout (step J A) InBounds (.new J readOk rooms file) ms)
    {cid : CharacterId} {c : Character} (hc : b.char cid = some c) (hbuilt : c.isBuilt = true)
    (w : World Raw) (hroom : w.rooms.hasRoom c.roomId = true) (session : SessionId) (authCaps : List Capability) :
    ∃ s c', PlayerSnapshot.fromCharacter c = some s
      ∧ (w.restoreCharacter session s c.principal authCaps).chars.lookup w.nextCharId = some c'
      ∧ SamePersisted c c' ∧ PlayerSnapshot.fromCharacter c' = some s := by
  have hsome : (PlayerSnapshot.fromCharacter c).isSome = true := by
    rw [fromCharacter_isSome]
    simpa [Character.isBuilt] using hbuilt
  obtain ⟨s, hs⟩ := Option.isSome_iff_exists.mp hsome
  have hsame := restoredCharacter_same w session c.principal authCaps
    (clamped_run hfile readOk rooms hex hbounds cid c hc) hroom hs
  exact ⟨s, _, hs, lookup_restoreCharacter w session s c.principal authCaps, hsame,
    (hsame.fromCharacter rfl).trans hs⟩

/-- Bob after the first round of the duel -/
theorem restore_save_identity_duel : ∃ (b : Duel) (c : Character), exec Duel.step Duel.start Duel.oneRound = some b
    ∧ b.char 2 = some c ∧ c.hp = 8 ∧ ∃ s c', PlayerSnapshot.fromCharacter c = some s
      ∧ (b.world.restoreCharacter 5 s c.principal []).chars.lookup b.world.nextCharId = some c'
      ∧ SamePersisted c c' ∧ PlayerSnapshot.fromCharacter c' = some s := by
  have hrun : ((exec Duel.step Duel.start Duel.oneRound).map fun b : Duel =>
      (decide b.InBounds, (b.char 2).map fun c => (c.hp, c.isBuilt, b.world.rooms.hasRoom c.roomId)))
      = some (true, some (8, true, true)) := by decide +kernel
  have halong : Along Duel.step (fun b _ => InBounds b) Duel.start Duel.oneRound := by decide +kernel
  obtain ⟨b, hex, hend⟩ := Option.map_eq_some_iff.mp hrun
  simp only [Prod.mk.injEq, Option.map_eq_some_iff] at hend
  obtain ⟨hlast, c, hc, hhp, hbuilt, hroom⟩ := hend
  refine ⟨b, c, hex, hc, hhp, ?_⟩
  refine restore_save_identity .none true arena hex (.of_along halong fun t ht => ?_) hc hbuilt b.world hroom 5 []
  cases hex.symm.trans ht
  exact of_decide_eq_true hlast

end Battle

/-! ## The end of the clock -/

namespace Duel

/-- Alice kills a stenchworm, and is left at level two with less stamina than she could have. -/
def hunt : List DuelMove :=
  [.realm (.shard (attachAs 1 "alice")), .spawnNamedMob "arena.pit".toList "stenchworm".toList,
    input 1 "kill stench", .event someOrder 0, .event someOrder 0, .clock 1000, .event someOrder 0,
    .event someOrder 0, .clock 2000, .event someOrder 0]

/-- Nothing happens for `2 ^ 31` seconds. -/
def longRest : List DuelMove := hunt ++ [.clock (2 ^ 31 * 1000), .regen]

end Duel

/-- What she would have recovered is negative, and is saved as such. She is restored with nothing. -/
theorem long_rest_not_restored :
    ((exec Duel.step Duel.start Duel.longRest).bind fun b : Duel => (b.char 1).bind fun c =>
      (PlayerSnapshot.fromCharacter c).map fun s =>
        (b.world.rooms.hasRoom c.roomId, c.stamina, (b.world.restoredCharacter 1 s c.principal []).stamina))
      = some (true, -2147483636, 0) := by decide +kernel

end Slopmud.Shard
