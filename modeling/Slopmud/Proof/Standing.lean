import Slopmud.Lib.Buckets
import Slopmud.Proof.Snapshots
import Slopmud.Shard.Realm

/-!
# Everybody stands in a room

A character stands somewhere when its room exists and the room's occupants include it. The second
half is what an evacuation needs: it empties the rooms by their occupants, so nobody is left in a
room that is cleared only if nobody is missing from the lists. Rooms of different instances are
told apart by their prefixes, so clearing one instance never takes a room of another, not even of
one that is still being built.

A party run sends the party to the first room of its adventure, or to `R_START` when the
adventure has no room; that room is never built.
-/

namespace Slopmud.Shard

open Machine

variable {Raw Auth : Type} {J : Codec Raw (List PlayerSnapshot)} {A : Codec Auth AuthBlob}

/-! ## Which rooms there are -/

/-- The room ids of an instance. -/
def InInstance (pre id : Text) : Prop := pre ++ ['.'] <+: id

theorem inInstance_instanceId (pre id : Text) : InInstance pre (ProtoAdventure.instanceId pre id) :=
  ⟨id, by simp [ProtoAdventure.instanceId]⟩

theorem InInstance.head {c : Char} {pre id : Text} (h : InInstance (c :: pre) id) :
    id.head? = some c := by
  obtain ⟨x, hx⟩ := h
  rw [← hx]
  rfl

theorem dot_notMem_toDigits (n : Nat) : '.' ∉ Nat.toDigits 10 n := Text.notMem_toDigits (by decide) n

/-- A room is in the instance of one party. -/
theorem party_of_inInstance {pid pid' : PartyId} {id : Text}
    (h : InInstance (Realm.partyPrefix pid) id) (h' : InInstance (Realm.partyPrefix pid') id) :
    pid = pid' := by
  obtain ⟨x, hx⟩ := h
  obtain ⟨y, hy⟩ := h'
  have hboth := hx.trans hy.symm
  unfold Realm.partyPrefix at hboth
  simp only [List.append_assoc, List.singleton_append] at hboth
  obtain ⟨hdigits, -⟩ := Text.first_inj (dot_notMem_toDigits pid) (dot_notMem_toDigits pid')
    (List.append_cancel_left hboth)
  calc pid = Nat.ofDigitChars 10 (Nat.toDigits 10 pid) 0 := Nat.ofDigitChars_ten_toDigits.symm
    _ = Nat.ofDigitChars 10 (Nat.toDigits 10 pid') 0 := by rw [hdigits]
    _ = pid' := Nat.ofDigitChars_ten_toDigits

/-- A prefix under which rooms can be cleared: what is cleared is the instance, and neither the
town gate nor a room of a party's run is in it, but for the rooms of the party itself. -/
structure Clearable (pre : Text) (own : Option PartyId) : Prop where
  dot : pre.getLast? ≠ some '.'
  gate : ¬ InInstance pre roomTownGate
  apart : ∀ pid id, InInstance (Realm.partyPrefix pid) id → InInstance pre id → own = some pid

theorem clearable_party (pid : PartyId) : Clearable (Realm.partyPrefix pid) (some pid) where
  dot := by
    unfold Realm.partyPrefix
    rw [List.getLast?_append_of_ne_nil _ Nat.toDigits_ne_nil]
    intro h
    exact dot_notMem_toDigits pid (List.mem_of_getLast? h)
  gate := fun h => absurd (InInstance.head (c := 'i') h) (by decide)
  apart := fun _ _ h h' => congrArg some (party_of_inInstance h' h)

theorem clearable_proto {id : Text} (hne : id ≠ []) (hid : '.' ∉ id) :
    Clearable (Realm.protoPrefix id) none where
  dot := by
    unfold Realm.protoPrefix
    rw [List.getLast?_append_of_ne_nil _ hne]
    intro h
    exact hid (List.mem_of_getLast? h)
  gate := fun h => absurd (InInstance.head (c := 'p') h) (by decide)
  apart := by
    intro pid id' h h'
    have hhead := (InInstance.head (c := 'i') h).symm.trans (InInstance.head (c := 'p') h')
    exact absurd hhead (by decide)

namespace RoomMap

theorem hasRoom_iff {m : RoomMap} {id : Text} :
    m.hasRoom id = true ↔ (m.dynRooms.lookup id).isSome ∨ (m.rooms.lookup id).isSome := by
  simp [hasRoom]

theorem hasRoom_start (m : RoomMap) : m.hasRoom m.startRoom = true :=
  hasRoom_iff.mpr (Or.inr m.hasStart)

theorem hasRoom_view (m : RoomMap) (id : Text) : m.view.hasRoom id = m.hasRoom id := by
  rw [Bool.eq_iff_iff, hasRoom_iff, AList.lookup_isSome, AList.lookup_isSome]
  simp [view, Rooms.hasRoom, AList.mem_keys]

theorem hasRoom_insertRoom {m : RoomMap} {id id' : Text} {d : RoomDef} :
    (m.insertRoom id d).hasRoom id' = true ↔ id' = id ∨ m.hasRoom id' = true := by
  rw [hasRoom_iff, hasRoom_iff, ← or_assoc]
  refine or_congr ?_ Iff.rfl
  simp [insertRoom, AList.lookup_isSome]

theorem hasRoom_insertRooms {m : RoomMap} {l : List (Text × RoomDef)} {id : Text} :
    (Realm.insertRooms m l).hasRoom id = true ↔ id ∈ l.map Prod.fst ∨ m.hasRoom id = true := by
  induction l generalizing m with
  | nil => simp [Realm.insertRooms]
  | cons e l ih =>
    rw [Realm.insertRooms, List.foldl_cons, ← Realm.insertRooms, ih, hasRoom_insertRoom, List.map_cons,
      List.mem_cons]
    tauto

/-- Only the rooms of the instance are cleared. -/
theorem lookup_clear {m : RoomMap} {pre : Text} (hdot : pre.getLast? ≠ some '.') {id : Text}
    (hout : ¬ InInstance pre id) :
    (m.clearDynRoomsWithPrefix pre).dynRooms.lookup id = m.dynRooms.lookup id := by
  have hkeep : (!(pre ++ ['.']).isPrefixOf id) = true := by
    rw [Bool.not_eq_true', ← Bool.not_eq_true, List.isPrefixOf_iff_prefix]
    exact hout
  rw [clearDynRoomsWithPrefix, if_neg hdot, Table.lookup_retain]
  cases m.dynRooms.lookup id with
  | none => rfl
  | some d => exact Option.filter_some_pos hkeep

theorem hasRoom_clear {m : RoomMap} {pre : Text} (hdot : pre.getLast? ≠ some '.') {id : Text}
    (hout : ¬ InInstance pre id) (h : m.hasRoom id = true) :
    (m.clearDynRoomsWithPrefix pre).hasRoom id = true := by
  rw [hasRoom_iff, lookup_clear hdot hout]
  exact hasRoom_iff.mp h

end RoomMap

/-! ## Who is in a room -/

namespace World

def occupantsOf (w : World Raw) (roomId : Text) : Finset CharacterId :=
  (w.occupants.lookup roomId).getD ∅

theorem removeOccupant_occupants (w : World Raw) (roomId : Text) (cid : CharacterId) :
    (w.removeOccupant roomId cid).occupants = Buckets.take w.occupants roomId cid := by
  unfold removeOccupant Buckets.take
  cases w.occupants.lookup roomId with
  | none => rfl
  | some s =>
    dsimp only
    split
    · rfl
    · rfl

theorem mem_occupantsOf_addOccupant {w : World Raw} {roomId roomId' : Text} {cid cid' : CharacterId} :
    cid' ∈ (w.addOccupant roomId cid).occupantsOf roomId'
      ↔ roomId' = roomId ∧ cid' = cid ∨ cid' ∈ w.occupantsOf roomId' := Buckets.mem_put

theorem mem_occupantsOf_removeOccupant {w : World Raw} {roomId roomId' : Text}
    {cid cid' : CharacterId} : cid' ∈ (w.removeOccupant roomId cid).occupantsOf roomId'
      ↔ cid' ∈ w.occupantsOf roomId' ∧ ¬ (roomId' = roomId ∧ cid' = cid) := by
  rw [occupantsOf, removeOccupant_occupants]
  exact Buckets.mem_take

theorem lookup_setRoom {w : World Raw} {cid cid' : CharacterId} {roomId : Text} :
    (w.setRoom cid roomId).chars.lookup cid'
      = (w.chars.lookup cid').map fun c => if cid' = cid then { c with roomId } else c := by
  unfold setRoom
  cases hc : w.chars.lookup cid with
  | none =>
    by_cases heq : cid' = cid
    · rw [heq, hc]
      rfl
    · simp [heq]
  | some c =>
    dsimp only
    rw [Table.lookup_insert_eq]
    by_cases heq : cid' = cid
    · rw [heq, hc, if_pos rfl, Option.map_some, if_pos rfl]
    · simp [heq]

@[simp] theorem occupantsOf_setRoom (w : World Raw) (cid : CharacterId) (roomId roomId' : Text) :
    (w.setRoom cid roomId).occupantsOf roomId' = w.occupantsOf roomId' := by
  unfold setRoom
  split
  · rfl
  · rfl

end World

/-! ## Standing -/

/-- Every player's character is in a room of some kind, and is one of its occupants. -/
def Standing (ok : Text → Prop) (w : World Raw) : Prop :=
  ∀ cid c, w.chars.lookup cid = some c → c.controller.isSome = true →
    ok c.roomId ∧ cid ∈ w.occupantsOf c.roomId

variable {ok ok' : Text → Prop} {w w' : World Raw}

theorem Standing.mono (h : Standing ok w) (hok : ∀ id, ok id → ok' id) : Standing ok' w :=
  fun cid c hc hplayer => ⟨hok _ (h cid c hc hplayer).1, (h cid c hc hplayer).2⟩

/-- **The frame rule.** Whoever is there afterwards was there before, in the same room, or is in a
room of the right kind. -/
theorem Standing.frame (h : Standing ok w)
    (hkeep : ∀ cid c', w'.chars.lookup cid = some c' → c'.controller.isSome = true →
      (∃ c, w.chars.lookup cid = some c ∧ c.controller = c'.controller ∧ c.roomId = c'.roomId ∧
        (cid ∈ w.occupantsOf c.roomId → cid ∈ w'.occupantsOf c.roomId))
      ∨ ok c'.roomId ∧ cid ∈ w'.occupantsOf c'.roomId) : Standing ok w' := by
  intro cid c' hc' hplayer
  rcases hkeep cid c' hc' hplayer with ⟨c, hc, hcontroller, hroom, hin⟩ | hnew
  · have hbefore := h cid c hc (by rw [hcontroller]; exact hplayer)
    rw [← hroom]
    exact ⟨hbefore.1, hin hbefore.2⟩
  · exact hnew

theorem Standing.congr (h : Standing ok w) (hchars : w'.chars = w.chars)
    (hoccupants : w'.occupants = w.occupants) : Standing ok w' := by
  refine h.frame fun cid c hc _ => Or.inl ⟨c, by rwa [hchars] at hc, rfl, rfl, fun hin => ?_⟩
  rwa [World.occupantsOf, hoccupants]

/-- Somebody leaves the world. -/
theorem Standing.leave (h : Standing ok w) {cid : CharacterId} {roomId : Text}
    {w₁ : World Raw} (hchars : w₁.chars = w.chars.erase cid) (hoccupants : w₁.occupants = w.occupants) :
    Standing ok (w₁.removeOccupant roomId cid) := by
  refine h.frame fun cid' c' hc' _ => ?_
  obtain ⟨occupants, hframe⟩ := World.removeOccupant_frame w₁ roomId cid
  rw [hframe] at hc'
  change w₁.chars.lookup cid' = some c' at hc'
  rw [hchars, Table.lookup_erase_eq] at hc'
  split at hc'
  · cases hc'
  · next hne =>
    refine Or.inl ⟨c', hc', rfl, rfl, fun hin => World.mem_occupantsOf_removeOccupant.mpr ⟨?_, ?_⟩⟩
    · rwa [World.occupantsOf, hoccupants]
    · exact fun hboth => hne hboth.2

/-- **Moving somebody into a room of the right kind.** -/
theorem Standing.relocate (h : Standing ok w) {dest : Text} (hdest : ok dest) (src : Text)
    (cid : CharacterId) : Standing ok (w.relocate src dest cid) := by
  refine h.frame fun cid' c' hc' _ => ?_
  obtain ⟨occupants, hframe⟩ := World.removeOccupant_frame w src cid
  have hlook : (w.chars.lookup cid').map (fun c => if cid' = cid then { c with roomId := dest } else c)
      = some c' := by
    rw [World.relocate, World.lookup_setRoom, hframe] at hc'
    exact hc'
  obtain ⟨c, hc, rfl⟩ := Option.map_eq_some_iff.mp hlook
  by_cases hcid : cid' = cid
  · right
    rw [if_pos hcid, World.relocate, World.occupantsOf_setRoom, World.mem_occupantsOf_addOccupant]
    exact ⟨hdest, Or.inl ⟨rfl, hcid⟩⟩
  · left
    rw [if_neg hcid]
    refine ⟨c, hc, rfl, rfl, fun hin => ?_⟩
    rw [World.relocate, World.occupantsOf_setRoom, World.mem_occupantsOf_addOccupant,
      World.mem_occupantsOf_removeOccupant]
    exact Or.inr ⟨hin, fun hboth => hcid hboth.2⟩

/-! ## Evacuation -/

/-- One room, emptied. -/
theorem Standing.evacuateRoom (h : Standing ok w) (dest rid : Text) :
    Standing (fun id => id = dest ∨ ok id ∧ id ≠ rid) (w.evacuateRoom dest rid) := by
  -- those who are still in the room are yet to be moved
  have hloop : ∀ (l : List CharacterId) (w : World Raw),
      (∀ cid c, w.chars.lookup cid = some c → c.controller.isSome = true →
        cid ∈ l ∨ (c.roomId = dest ∨ ok c.roomId ∧ c.roomId ≠ rid) ∧ cid ∈ w.occupantsOf c.roomId) →
      Standing (fun id => id = dest ∨ ok id ∧ id ≠ rid)
        (l.foldl (fun w cid => (w.addOccupant dest cid).setRoom cid dest) w) := by
    intro l
    induction l with
    | nil => exact fun w hw cid c hc hplayer => (hw cid c hc hplayer).resolve_left List.not_mem_nil
    | cons cid l ih =>
      refine fun w hw => ih _ fun cid' c' hc' hplayer => ?_
      rw [World.lookup_setRoom] at hc'
      obtain ⟨c, hc, rfl⟩ := Option.map_eq_some_iff.mp hc'
      change w.chars.lookup cid' = some c at hc
      rw [World.occupantsOf_setRoom, World.mem_occupantsOf_addOccupant]
      by_cases hcid : cid' = cid
      · simp [hcid]
      · rw [if_neg hcid] at hplayer ⊢
        rcases hw cid' c hc hplayer with hl | ⟨hok, hin⟩
        · exact Or.inl ((List.mem_cons.mp hl).resolve_left hcid)
        · exact Or.inr ⟨hok, Or.inr hin⟩
  unfold World.evacuateRoom
  cases hcids : w.occupants.lookup rid with
  | none =>
    intro cid c hc hplayer
    obtain ⟨hok, hin⟩ := h cid c hc hplayer
    refine ⟨Or.inr ⟨hok, fun heq => ?_⟩, hin⟩
    rw [heq, World.occupantsOf, hcids] at hin
    exact absurd hin (Finset.notMem_empty cid)
  | some cids =>
    refine hloop _ _ fun cid c hc hplayer => ?_
    change w.chars.lookup cid = some c at hc
    obtain ⟨hok, hin⟩ := h cid c hc hplayer
    by_cases hroom : c.roomId = rid
    · left
      rw [hroom, World.occupantsOf, hcids, Option.getD_some] at hin
      rw [World.present, List.mem_filter]
      exact ⟨AList.mem_keys.mp (AList.lookup_isSome.mp (by rw [hc]; rfl)), decide_eq_true hin⟩
    · right
      refine ⟨Or.inr ⟨hok, hroom⟩, ?_⟩
      rw [World.occupantsOf, Table.lookup_erase_eq, if_neg hroom]
      exact hin

/-- **Nobody is left in an instance that has been evacuated.** -/
theorem Standing.evacuate (h : Standing ok w) (pre dest : Text) :
    Standing (fun id => id = dest ∨ ok id ∧ ¬ InInstance pre id)
      (w.evacuateRoomsWithPrefix pre dest) := by
  have hloop : ∀ (rids : List Text) (ok : Text → Prop) (w : World Raw), Standing ok w →
      Standing (fun id => id = dest ∨ ok id ∧ id ∉ rids) (rids.foldl (World.evacuateRoom dest) w) := by
    intro rids
    induction rids with
    | nil => exact fun ok w h => h.mono fun id hid => Or.inr ⟨hid, List.not_mem_nil⟩
    | cons rid rids ih =>
      refine fun ok w h => (ih _ _ (h.evacuateRoom dest rid)).mono fun id hid => ?_
      rw [List.mem_cons, not_or]
      tauto
  -- every room with a player in it is among those that have occupants
  have hkeys : Standing (fun id => ok id ∧ id ∈ w.occupants.keys) w := by
    intro cid c hc hplayer
    obtain ⟨hok, hin⟩ := h cid c hc hplayer
    refine ⟨⟨hok, AList.mem_keys.mp ?_⟩, hin⟩
    by_contra hnone
    rw [World.occupantsOf, AList.lookup_eq_none.mpr hnone] at hin
    exact Finset.notMem_empty cid hin
  refine (hloop _ _ _ hkeys).mono fun id hid => ?_
  rcases hid with hdest | ⟨⟨hok, hkey⟩, hleft⟩
  · exact Or.inl hdest
  · refine Or.inr ⟨hok, fun hpre => hleft ?_⟩
    exact List.mem_filter.mpr ⟨hkey, List.isPrefixOf_iff_prefix.mpr hpre⟩

/-! ## Sessions and mobs -/

theorem Standing.enter (h : Standing ok w) {c : Character} (hroom : ok c.roomId) (session : SessionId) :
    Standing ok (w.enter session c) := by
  refine h.frame fun cid c' hc' _ => ?_
  change (w.chars.insert c.id c).lookup cid = some c' at hc'
  rw [Table.lookup_insert_eq] at hc'
  have hin : ∀ roomId, cid ∈ (w.enter session c).occupantsOf roomId
      ↔ roomId = c.roomId ∧ cid = c.id ∨ cid ∈ w.occupantsOf roomId :=
    fun roomId => World.mem_occupantsOf_addOccupant
  split at hc'
  · next hcid =>
    cases hc'
    exact Or.inr ⟨hroom, (hin _).mpr (Or.inl ⟨rfl, hcid⟩)⟩
  · exact Or.inl ⟨c', hc', rfl, rfl, fun hbefore => (hin _).mpr (Or.inr hbefore)⟩

theorem Standing.spawnMob (h : Standing ok w) (roomId name : Text) :
    Standing ok (w.spawnMob roomId name) := by
  refine h.frame fun cid c' hc' hplayer => ?_
  change (w.chars.insert w.nextCharId (w.newMob roomId name)).lookup cid = some c' at hc'
  rw [Table.lookup_insert_eq] at hc'
  split at hc'
  · -- a mob is no player
    cases hc'
    cases hplayer
  · exact Or.inl ⟨c', hc', rfl, rfl, fun hin => World.mem_occupantsOf_addOccupant.mpr (Or.inr hin)⟩

theorem Standing.removeChar (h : Standing ok w) (O : SetOrder) (cid : CharacterId) :
    Standing ok (w.removeChar O cid) := by
  obtain ⟨partyOf, parties, hleave⟩ := World.partyLeave_frame O
    { w with partyInvites := w.partyInvites.erase cid } cid
  unfold World.removeChar
  rw [hleave]
  dsimp only
  split
  · exact h.congr rfl rfl
  · exact h.leave rfl rfl

/-- Detaching one character keeps the rooms as well. -/
theorem Standing.detachOne (h : Standing ok w) (O : SetOrder) (saveOk : Bool) (cid : CharacterId) :
    Standing ok (w.detachOne J O saveOk cid) ∧ (w.detachOne J O saveOk cid).rooms = w.rooms := by
  obtain ⟨partyOf, parties, hleave⟩ := World.partyLeave_frame O
    { w with raftWatch := w.raftWatch.erase cid, partyInvites := w.partyInvites.erase cid } cid
  unfold World.detachOne
  rw [hleave]
  dsimp only
  split
  · exact ⟨h.congr rfl rfl, rfl⟩
  · next c _ =>
    obtain ⟨players, file, hsaved⟩ := World.rememberPlayer_frame J saveOk ({ w with
      raftWatch := w.raftWatch.erase cid
      partyInvites := w.partyInvites.erase cid
      partyOf, parties
      chars := w.chars.erase cid } : World Raw) c
    rw [hsaved]
    obtain ⟨occupants, hgone⟩ := World.removeOccupant_frame ({ w with
      raftWatch := w.raftWatch.erase cid
      partyInvites := w.partyInvites.erase cid
      partyOf, parties, players, file
      chars := w.chars.erase cid } : World Raw) c.roomId cid
    exact ⟨h.leave rfl rfl, by rw [hgone]⟩

theorem Standing.detachSession (h : Standing ok w) (O : SetOrder) (saveOk : Bool)
    (session : SessionId) : Standing ok (w.detachSession J O saveOk session)
      ∧ (w.detachSession J O saveOk session).rooms = w.rooms := by
  unfold World.detachSession
  split
  · exact ⟨h, rfl⟩
  · refine List.foldlRecOn (motive := fun w' : World Raw => Standing ok w' ∧ w'.rooms = w.rooms) _ _
      ⟨h.congr rfl rfl, rfl⟩ fun w' hw' cid _ => ?_
    obtain ⟨hstanding, hrooms⟩ := Standing.detachOne (J := J) hw'.1 O saveOk cid
    exact ⟨hstanding, hrooms.trans hw'.2⟩

/-- A new character stands in the start room, a restored one in its own room if it is there. -/
theorem Standing.attach (h : Standing ok w) (hstart : ok w.rooms.startRoom)
    (hrooms : ∀ id, w.rooms.hasRoom id = true → ok id) (O : SetOrder) (saveOk : Bool)
    (r : AttachReq Auth) : Standing ok (w.attach A J O saveOk r) := by
  unfold World.attach
  dsimp only
  split
  · exact h
  · obtain ⟨hleft, hsame⟩ := Standing.detachSession (J := J) h O saveOk r.session
    rw [← hsame] at hstart hrooms
    generalize w.detachSession J O saveOk r.session = w₁ at hleft hstart hrooms
    have hentered : ∀ principal authCaps b,
        Standing ok (w₁.spawnOrRestoreCharacter r.session principal authCaps b).2 := by
      intro principal authCaps b
      unfold World.spawnOrRestoreCharacter
      split
      · next snapshot _ =>
        refine hleft.enter ?_ r.session
        change ok (if w₁.rooms.hasRoom snapshot.roomId then snapshot.roomId else w₁.rooms.startRoom)
        split
        · next hroom => exact hrooms _ hroom
        · exact hstart
      · exact hleft.enter hstart r.session
    obtain ⟨players, file, hsaved⟩ := World.rememberPlayerById_frame J saveOk
      (w₁.spawnOrRestoreCharacter r.session (principalFromAttach A (Text.trim r.name) r.auth)
        (capsFromAttach A r.auth) (r.build (Text.trim r.name))).2
      (w₁.spawnOrRestoreCharacter r.session (principalFromAttach A (Text.trim r.name) r.auth)
        (capsFromAttach A r.auth) (r.build (Text.trim r.name))).1
    rw [hsaved]
    exact (hentered _ _ _).congr rfl rfl

/-- **Sessions and parties come and go, and everybody stands.** -/
theorem Standing.shard {m : ShardMove Auth} (h : Standing ok w) (hlocal : m.isLocal = true)
    (hstart : ok w.rooms.startRoom) (hrooms : ∀ id, w.rooms.hasRoom id = true → ok id)
    (hs : shardStep J A w m = some w') : Standing ok w' := by
  cases m with
  | attach saveOk O r =>
    cases hs
    exact h.attach hstart hrooms O saveOk r
  | detach saveOk O session =>
    cases hs
    exact (h.detachSession O saveOk session).1
  | input O session line =>
    obtain ⟨⟨p, cmd⟩, -, rfl⟩ := Option.map_eq_some_iff.mp hs
    obtain ⟨nextPartyId, parties, partyOf, partyInvites, hframe⟩ :=
      World.runParty_frame O w session p cmd
    dsimp only
    rw [hframe]
    exact h.congr rfl rfl
  | drop O session cid =>
    simp only [shardStep, World.sessionsDrop] at hs
    split at hs
    · split at hs
      · split at hs
        · cases hs
          exact h.removeChar O cid
        · cases hs
          exact (h.removeChar O cid).congr rfl rfl
      · cases hs
    · cases hs
  | killMob O cid =>
    simp only [shardStep, World.killMob] at hs
    split at hs
    · cases hs
    · split at hs
      · cases hs
      · cases hs
        exact h.removeChar O cid
  | game g => cases hlocal
  | relink clean saveOk readOk rooms => cases hlocal

/-- What leaves everybody where they are. -/
theorem Standing.game (h : Standing ok w) {g : World.GameEffect}
    (hroom : ∀ cid c, (g.chars cid c).roomId = c.roomId) (hoccupants : g.occupants = w.occupants) :
    Standing ok (w.game g) := by
  refine List.foldlRecOn _ _ ?_ fun w' hw' m _ => hw'.spawnMob m.1 m.2
  refine h.frame fun cid c' hc' _ => ?_
  simp only [Table.lookup_mapVals] at hc'
  obtain ⟨c, hc, rfl⟩ := Option.map_eq_some_iff.mp hc'
  refine Or.inl ⟨c, hc, rfl, (hroom cid c).symm, fun hin => ?_⟩
  rw [World.occupantsOf, hoccupants]
  exact hin

/-! ## The invariant -/

structure RealmOk (r : Realm Raw) : Prop where
  standing : Standing (fun id => r.rooms.hasRoom id = true) r.world
  /-- The room a party is about to enter is the party's own, and it is there or yet to be built. -/
  building : ∀ pid plan, r.partyBuilds.lookup pid = some plan →
    InInstance (Realm.partyPrefix pid) plan.startRoom ∧
      (plan.startRoom ∈ plan.rooms.map Prod.fst ∨ r.rooms.hasRoom plan.startRoom = true)

variable {r r' : Realm Raw}

theorem RealmOk.new (J : Codec Raw (List PlayerSnapshot)) (readOk : Bool) (rooms : RoomMap)
    (file : Option Raw) : RealmOk (Realm.new J readOk rooms file) where
  standing := by
    intro cid c hc
    simp [Realm.new, World.new] at hc
  building := by
    intro pid plan hplan
    simp [Realm.new] at hplan

/-- Only people move. -/
theorem RealmOk.move (h : RealmOk r) {w : World Raw}
    (hw : Standing (fun id => r.rooms.hasRoom id = true) w) : RealmOk { r with world := w } where
  standing := hw
  building := h.building

/-- Rooms are added. -/
theorem RealmOk.addRooms (h : RealmOk r) {m : RoomMap}
    (hm : ∀ id, r.rooms.hasRoom id = true → m.hasRoom id = true) : RealmOk { r with rooms := m } where
  standing := h.standing.mono hm
  building := fun pid plan hplan =>
    ⟨(h.building pid plan hplan).1, (h.building pid plan hplan).2.imp id (hm _)⟩

/-- A build is entered, or goes on. -/
theorem RealmOk.addBuild (h : RealmOk r) {pid : PartyId} {plan : PartyBuildPlan}
    {events : List PartyId} (hin : InInstance (Realm.partyPrefix pid) plan.startRoom)
    (hthere : plan.startRoom ∈ plan.rooms.map Prod.fst ∨ r.rooms.hasRoom plan.startRoom = true) :
    RealmOk { r with partyBuilds := r.partyBuilds.insert pid plan, events } where
  standing := h.standing
  building := by
    intro pid' plan' hplan'
    rw [Table.lookup_insert_eq] at hplan'
    split at hplan'
    · next hpid =>
      cases hplan'
      rw [hpid]
      exact ⟨hin, hthere⟩
    · exact h.building pid' plan' hplan'

/-- **Clearing an instance.** Nobody is left in a room that goes, and the rooms of other parties
stay. -/
theorem RealmOk.clearInstance (h : RealmOk r) {pre : Text} {own : Option PartyId}
    (hpre : Clearable pre own) (hown : ∀ pid, own = some pid → r.partyBuilds.lookup pid = none) :
    RealmOk (r.clearInstance pre) where
  standing := by
    have hevac : (r.rooms.clearDynRoomsWithPrefix pre).hasRoom r.evacTo = true := by
      unfold Realm.evacTo
      split
      · next hgate => exact RoomMap.hasRoom_clear hpre.dot hpre.gate hgate
      · exact RoomMap.hasRoom_start (r.rooms.clearDynRoomsWithPrefix pre)
    refine (h.standing.evacuate pre r.evacTo).mono fun id hid => ?_
    rcases hid with rfl | ⟨hroom, hout⟩
    · exact hevac
    · exact RoomMap.hasRoom_clear hpre.dot hout hroom
  building := by
    intro pid plan hplan
    obtain ⟨hin, hthere⟩ := h.building pid plan hplan
    refine ⟨hin, hthere.imp id fun hroom => RoomMap.hasRoom_clear hpre.dot (fun hout => ?_) hroom⟩
    have hnone := hown pid (hpre.apart pid _ hin hout)
    rw [show (r.clearInstance pre).partyBuilds = r.partyBuilds from rfl, hnone] at hplan
    cases hplan

theorem RealmOk.teleportTo (h : RealmOk r) (session : SessionId) (dest : Text) :
    RealmOk (r.teleportTo session dest) := by
  unfold Realm.teleportTo
  split
  · exact h
  · split
    · next hroom => exact h.move (h.standing.relocate hroom _ _)
    · exact h

/-! ## Moves -/

theorem wayOut_hasRoom {rooms : RoomMap} {p : Character} {token : Text} {ex : ExitDef}
    (h : Realm.wayOut rooms p token = some ex) : rooms.hasRoom ex.dest = true := by
  simp only [Realm.wayOut, Option.bind_eq_bind, Option.bind_eq_some_iff, Option.ite_none_left_eq_some,
    Option.some.injEq] at h
  obtain ⟨ex', -, -, -, -, hroom, rfl⟩ := h
  simpa using hroom

theorem RealmOk.tryMove (h : RealmOk r) {session : SessionId} {token : Text}
    (hs : r.tryMove session token = some r') : RealmOk r' := by
  simp only [Realm.tryMove, Option.bind_eq_bind, Option.bind_eq_some_iff] at hs
  obtain ⟨⟨cid, p⟩, -, ex, hex, hs⟩ := hs
  cases hs
  have hroom := wayOut_hasRoom hex
  refine h.move (List.foldlRecOn _ _ (h.standing.relocate hroom _ _) fun w hw mid _ => ?_)
  exact hw.relocate hroom _ mid

/-- The id of an adventure has no dot in it. -/
theorem dot_notMem_of_all {id : Text} (h : id.all Realm.isAdventureIdChar = true) : '.' ∉ id := by
  intro hdot
  exact absurd (List.all_eq_true.mp h '.' hdot) (by decide)

theorem RealmOk.proto (h : RealmOk r) {session : SessionId} {line : Text} {md : Option Text}
    (hs : r.proto session line md = some r') : RealmOk r' := by
  simp only [Realm.proto, Option.bind_eq_bind, Option.bind_eq_some_iff, Option.ite_none_left_eq_some] at hs
  obtain ⟨rest, -, -, ⟨start, r₁⟩, hload, hs⟩ := hs
  cases hs
  refine RealmOk.teleportTo ?_ session start
  simp only [Realm.loadProtoadventure, Option.bind_eq_bind, Option.bind_eq_some_iff,
    Option.ite_none_left_eq_some] at hload
  obtain ⟨hid, md, -, -, hload⟩ := hload
  cases hload
  simp only [Bool.or_eq_true, List.isEmpty_iff, Bool.not_eq_true', not_or, Bool.not_eq_false] at hid
  have hclear := h.clearInstance (clearable_proto hid.1 (dot_notMem_of_all hid.2))
    (fun pid hpid => nomatch hpid)
  exact hclear.addRooms fun id hroom => RoomMap.hasRoom_insertRooms.mpr (Or.inr hroom)

/-! ## Party runs -/

theorem head_dedupRooms {rooms : List RoomPlan} {r : RoomPlan} (h : rooms.head? = some r) :
    (ProtoAdventure.dedupRooms [] rooms).head? = some r := by
  cases rooms with
  | nil => cases h
  | cons r' rooms =>
    cases h
    simp [ProtoAdventure.dedupRooms]

/-- **An adventure that has a room starts in a room of its own.** -/
theorem startRoom_mem_instantiateRooms {md : Text} (hrooms : ProtoAdventure.readRooms md ≠ [])
    (pre aid : Text) :
    ProtoAdventure.instanceId pre (ProtoAdventure.parse aid md).startRoom
      ∈ (ProtoAdventure.instantiateRooms pre (ProtoAdventure.parse aid md)).map Prod.fst := by
  obtain ⟨first, rest, hread⟩ := List.exists_cons_of_ne_nil hrooms
  have hfirst : ((ProtoAdventure.readRooms md).map fun r => { r with
      exits := r.exits.filter fun e => e.dest ∈ (ProtoAdventure.readRooms md).map RoomPlan.id }).head?
        = some { first with
          exits := first.exits.filter fun e => e.dest ∈ (ProtoAdventure.readRooms md).map RoomPlan.id } := by
    rw [hread]
    rfl
  have hhead := head_dedupRooms hfirst
  have hstart : (ProtoAdventure.parse aid md).startRoom = first.id := by
    simp only [ProtoAdventure.parse, hhead]
    rfl
  rw [hstart, ProtoAdventure.instantiateRooms, List.map_map]
  exact List.mem_map.mpr ⟨_, List.mem_of_head? hhead, rfl⟩

/-- The adventure of a party run has a room. -/
def RealmMove.AdventureHasRooms : RealmMove Auth → Prop
  | .going _ (.partyRun _ (some md)) => ProtoAdventure.readRooms md ≠ []
  | _ => True

instance (m : RealmMove Auth) : Decidable m.AdventureHasRooms := by
  unfold RealmMove.AdventureHasRooms
  split
  · infer_instance
  · infer_instance

theorem RealmOk.partyRun (h : RealmOk r) {session : SessionId} {line md : Text}
    (hrooms : ProtoAdventure.readRooms md ≠ []) (hs : r.partyRun session line (some md) = some r') :
    RealmOk r' := by
  simp only [Realm.partyRun, Option.bind_eq_bind, Option.bind_some, Option.bind_eq_some_iff] at hs
  obtain ⟨⟨pid, aid⟩, hrun, hs⟩ := hs
  cases hs
  have hnone : r.partyBuilds.lookup pid = none := by
    simp only [Realm.partyRun?, Option.bind_eq_bind, Option.bind_eq_some_iff,
      Option.ite_none_left_eq_some, Option.some.injEq, Prod.mk.injEq] at hrun
    obtain ⟨_, -, _, -, -, pid', -, party, -, hfree, -, rfl, -⟩ := hrun
    rw [not_or, Bool.not_eq_true, Option.isSome_eq_false_iff, Option.isNone_iff_eq_none] at hfree
    exact hfree.2
  have hclear := h.clearInstance (clearable_party pid) (fun pid' hpid' => Option.some.inj hpid' ▸ hnone)
  refine hclear.addBuild (inInstance_instanceId _ _) (Or.inl ?_)
  rw [List.map_reverse, List.mem_reverse]
  exact startRoom_mem_instantiateRooms hrooms _ _

/-- **Building**: the next room goes from the plan into the world; when none is left, the room
that the party enters is there. -/
theorem RealmOk.buildNext (h : RealmOk r) {pid : PartyId} (hs : r.buildNext pid = some r') :
    RealmOk r' := by
  have hfewer : RealmOk { r with events := r.events.erase pid } := ⟨h.standing, h.building⟩
  unfold Realm.buildNext at hs
  dsimp only at hs
  split at hs
  · cases hplan : r.partyBuilds.lookup pid with
    | none =>
      rw [hplan] at hs
      cases hs
      exact hfewer
    | some plan =>
      obtain ⟨hin, hthere⟩ := h.building pid plan hplan
      rw [hplan] at hs
      dsimp only at hs
      split at hs
      · next rid d hlast =>
        cases hs
        have hmore := hfewer.addRooms (m := r.rooms.insertRoom rid d)
          fun id hroom => RoomMap.hasRoom_insertRoom.mpr (Or.inr hroom)
        refine hmore.addBuild hin ?_
        rw [← List.dropLast_append_getLast? _ hlast] at hthere
        simp only [List.map_append, List.mem_append, List.map_cons, List.map_nil, List.mem_singleton] at hthere
        rw [RoomMap.hasRoom_insertRoom]
        tauto
      · next hempty =>
        cases hs
        rw [List.getLast?_eq_none_iff.mp hempty] at hthere
        have hroom : r.rooms.hasRoom plan.startRoom = true := hthere.resolve_left List.not_mem_nil
        refine ⟨?_, fun pid' plan' hplan' => ?_⟩
        · refine List.foldlRecOn _ _ h.standing fun w hw mid _ => ?_
          dsimp only
          split
          · exact hw
          · exact hw.relocate hroom _ mid
        · rw [Table.lookup_erase_eq] at hplan'
          split at hplan'
          · cases hplan'
          · exact h.building pid' plan' hplan'
  · cases hs

/-! ## Mobs and deaths -/

theorem RealmOk.mobWander (h : RealmOk r) {mob : CharacterId} {idx : Nat}
    (hs : r.mobWander mob idx = some r') : RealmOk r' := by
  simp only [Realm.mobWander, Option.bind_eq_bind, Option.bind_eq_some_iff,
    Option.ite_none_left_eq_some] at hs
  obtain ⟨m, -, -, ex, hex, hs⟩ := hs
  cases hs
  have hroom := (List.mem_filter.mp (List.mem_of_getElem? hex)).2
  exact h.move (h.standing.relocate hroom _ _)

theorem RealmOk.sendToGraveyard (h : RealmOk r) (cid : CharacterId) : RealmOk (r.sendToGraveyard cid) := by
  unfold Realm.sendToGraveyard
  split
  · exact h
  · next c hc =>
    have hroom : r.rooms.hasRoom (if r.rooms.hasRoom graveyardRoomId then graveyardRoomId
        else r.rooms.startRoom) = true := by
      split
      · assumption
      · exact r.rooms.hasRoom_start
    generalize (if r.rooms.hasRoom graveyardRoomId then graveyardRoomId
      else r.rooms.startRoom) = dest at hroom ⊢
    refine h.move (h.standing.frame fun cid' c' hc' _ => ?_)
    have hin : ∀ roomId, cid' ∈ World.occupantsOf { (r.world.removeOccupant c.roomId cid).addOccupant dest cid
          with chars := ((r.world.removeOccupant c.roomId cid).addOccupant dest cid).chars.insert cid { c with
            roomId := dest
            hp := max c.maxHp 1
            combat := { c.combat with autoattack := false, target := none } } } roomId
        ↔ roomId = dest ∧ cid' = cid ∨ cid' ∈ (r.world.removeOccupant c.roomId cid).occupantsOf roomId :=
      fun roomId => World.mem_occupantsOf_addOccupant
    rw [Table.lookup_insert_eq] at hc'
    split at hc'
    · next hcid =>
      cases hc'
      exact Or.inr ⟨hroom, (hin _).mpr (Or.inl ⟨rfl, hcid⟩)⟩
    · next hcid =>
      obtain ⟨occupants, hframe⟩ := World.removeOccupant_frame r.world c.roomId cid
      rw [hframe] at hc'
      refine Or.inl ⟨c', hc', rfl, rfl, fun hbefore => (hin _).mpr (Or.inr ?_)⟩
      exact World.mem_occupantsOf_removeOccupant.mpr ⟨hbefore, fun hboth => hcid hboth.2⟩

theorem RealmOk.damage (h : RealmOk r) {attacker target : CharacterId} {dmg : Int}
    (hs : r.applyDamageToPlayer attacker target dmg = some r') : RealmOk r' := by
  simp only [Realm.applyDamageToPlayer, Option.bind_eq_bind, Option.bind_eq_some_iff,
    Option.ite_none_left_eq_some] at hs
  obtain ⟨att, -, tgt, htgt, -, hs⟩ := hs
  have hhurt : RealmOk { r with
      world := { r.world with chars := r.world.chars.insert target { tgt with hp := tgt.hp - dmg } } } := by
    refine h.move (h.standing.frame fun cid c' hc' _ => ?_)
    rw [Table.lookup_insert_eq] at hc'
    split at hc'
    · next hcid =>
      cases hc'
      exact Or.inl ⟨tgt, hcid ▸ htgt, rfl, rfl, fun hin => hin⟩
    · exact Or.inl ⟨c', hc', rfl, rfl, fun hin => hin⟩
  cases hs
  split
  · exact hhurt.sendToGraveyard target
  · exact hhurt

/-! ## Runs -/

theorem RealmOk.step {m : RealmMove Auth} (h : RealmOk r) (hm : m.AdventureHasRooms)
    (hs : Realm.step J A r m = some r') : RealmOk r' := by
  cases m with
  | shard m =>
    simp only [Realm.step, Option.ite_none_right_eq_some, Option.map_eq_some_iff] at hs
    obtain ⟨hlocal, w, hw, rfl⟩ := hs
    have hview : Standing (fun id => r.rooms.hasRoom id = true) { r.world with rooms := r.rooms.view } :=
      h.standing.congr rfl rfl
    refine h.move (hview.shard hlocal r.rooms.hasRoom_start (fun id hid => ?_) hw)
    rw [← r.rooms.hasRoom_view id]
    exact hid
  | effect e =>
    cases hs
    exact h.move (h.standing.game (fun _ _ => rfl) rfl)
  | going session g =>
    simp only [Realm.step, Option.ite_none_left_eq_some] at hs
    cases g with
    | tryMove token => exact h.tryMove hs.2
    | teleport dest =>
      cases hs.2
      exact h.teleportTo session dest
    | proto line md => exact h.proto hs.2
    | partyRun line md =>
      cases md with
      | none => simp [Realm.go, Realm.partyRun, Option.bind_eq_bind] at hs
      | some md => exact h.partyRun hm hs.2
  | buildNext pid => exact h.buildNext hs
  | mobWander mob idx => exact h.mobWander hs
  | damage attacker target dmg => exact h.damage hs
  | relink clean saveOk readOk =>
    cases hs
    exact RealmOk.new J readOk _ _

/-- **Players stand in rooms that exist.** In every run in which the adventures of party runs have
rooms, whatever rooms come and go, the room of every player's character is there. -/
theorem players_stand_in_rooms (J : Codec Raw (List PlayerSnapshot)) (A : Codec Auth AuthBlob)
    (readOk : Bool) (rooms : RoomMap) (file : Option Raw) (ms : List (RealmMove Auth))
    (hms : ∀ m ∈ ms, m.AdventureHasRooms) {r : Realm Raw}
    (hrun : exec (Realm.step J A) (Realm.new J readOk rooms file) ms = some r) :
    ∀ cid c, r.world.chars.lookup cid = some c → c.controller.isSome = true →
      r.rooms.hasRoom c.roomId = true := by
  have hal : Along (Realm.step J A) (fun _ m => m.AdventureHasRooms) (Realm.new J readOk rooms file) ms :=
    along_of_forall_mem (fun m hm _ => hms m hm) _
  have hok : RealmOk r := exec_invariant (fun h hm hs => h.step hm hs) (RealmOk.new J readOk rooms file)
    hal hrun
  exact fun cid c hc hplayer => (hok.standing cid c hc hplayer).1

/-! ## A run with and without rooms -/

/-- A shard with one room. -/
def oneRoom : RoomMap where
  rooms := (∅ : Table Text RoomDef).insert "gate".toList ⟨"gate".toList, [], [], []⟩
  dynRooms := ∅
  startRoom := "gate".toList
  hasStart := by decide

/-- Alice makes a party and runs an adventure of this text. -/
def adventureRun (md : String) : List (RealmMove (Option AuthBlob)) :=
  [.shard (attachAs 1 "alice"), .shard (say 1 "party create"),
    .going 1 (.partyRun "party run first-day".toList (some md.toList)), .buildNext 1]

def runRealm (ms : List (RealmMove (Option AuthBlob))) : Option (Realm (Option (List PlayerSnapshot))) :=
  exec (Realm.step (Codec.direct _) (Codec.direct _)) (Realm.new (Codec.direct _) true oneRoom none) ms

theorem players_stand_in_rooms_hall :
    ∃ r, runRealm (adventureRun "### R_HALL (a hall)\n" ++ [RealmMove.buildNext 1]) = some r ∧
      ∀ cid c, r.world.chars.lookup cid = some c → c.controller.isSome = true →
        r.rooms.hasRoom c.roomId = true := by
  have hsome : (runRealm (adventureRun "### R_HALL (a hall)\n" ++ [RealmMove.buildNext 1])).isSome = true := by
    decide +kernel
  have hrooms : ∀ m ∈ adventureRun "### R_HALL (a hall)\n" ++ [RealmMove.buildNext 1], m.AdventureHasRooms := by
    decide +kernel
  obtain ⟨r, hrun⟩ := Option.isSome_iff_exists.mp hsome
  have hstand := players_stand_in_rooms _ _ _ _ _ _ hrooms hrun
  exact ⟨r, hrun, hstand⟩

/-- An adventure without a room heading is run, and its party is moved into a room that is
nowhere. -/
theorem party_enters_missing_room :
    ∃ r c, runRealm (adventureRun "# First day\n") = some r ∧ r.world.chars.lookup 1 = some c ∧
      c.controller = some 1 ∧ c.roomId = "inst.p1.R_START".toList ∧ r.rooms.hasRoom c.roomId = false := by
  have hsome : ((runRealm (adventureRun "# First day\n")).bind fun r => (r.world.chars.lookup 1).map
      fun c => (c.controller, c.roomId, r.rooms.hasRoom c.roomId))
        = some (some 1, "inst.p1.R_START".toList, false) := by
    decide +kernel
  obtain ⟨r, hrun, hr⟩ := Option.bind_eq_some_iff.mp hsome
  obtain ⟨c, hc, heq⟩ := Option.map_eq_some_iff.mp hr
  rw [Prod.mk.injEq, Prod.mk.injEq] at heq
  exact ⟨r, c, hrun, hc, heq.1, heq.2.1, heq.2.2⟩

end Slopmud.Shard
