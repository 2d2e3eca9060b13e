import Slopmud.Proof.Standing

/-!
# The occupants of a room

Who is in a room is written down twice, in the characters and in the occupants of the rooms. The
two agree in every world in which ids have not run out: everything that puts somebody into a room
takes it out of the room it was in. At the end of the ids a character replaces the last one, which
stays among the occupants of its room.
-/

namespace Slopmud.Shard

open Machine

variable {Raw Auth : Type} {J : Codec Raw (List PlayerSnapshot)} {A : Codec Auth AuthBlob}

namespace World

/-- The room that a character says it is in. -/
def position (w : World Raw) (cid : CharacterId) : Option Text := (w.chars.lookup cid).map Character.roomId

theorem position_setRoom (w : World Raw) (cid cid' : CharacterId) (roomId : Text) :
    (w.setRoom cid roomId).position cid'
      = if cid' = cid then (w.position cid).map fun _ => roomId else w.position cid' := by
  rw [position, lookup_setRoom, Option.map_map]
  by_cases heq : cid' = cid
  · subst heq
    rw [if_pos rfl, position, Option.map_map]
    congr 1
    funext c
    simp
  · rw [if_neg heq, position]
    congr 1
    funext c
    simp [heq]

theorem position_insert {w : World Raw} {cid : CharacterId} {c : Character} (cid' : CharacterId) :
    ({ w with chars := w.chars.insert cid c } : World Raw).position cid'
      = if cid' = cid then some c.roomId else w.position cid' := by
  rw [position, Table.lookup_insert_eq]
  split
  · rfl
  · rfl

theorem position_erase {w : World Raw} {cid : CharacterId} (cid' : CharacterId) :
    ({ w with chars := w.chars.erase cid } : World Raw).position cid'
      = if cid' = cid then none else w.position cid' := by
  rw [position, Table.lookup_erase_eq]
  split
  · rfl
  · rfl

end World

/-- Everybody is an occupant of the room it is in and of no other, and ids are those that have been
given out. -/
structure Settled (w : World Raw) : Prop where
  filed : Buckets.Filed w.position w.occupants
  below : ∀ cid, w.position cid ≠ none → cid < w.nextCharId

variable {w w' : World Raw}

theorem Settled.congr (h : Settled w) (hplace : ∀ cid, w'.position cid = w.position cid)
    (hoccupants : w'.occupants = w.occupants) (hnext : w'.nextCharId = w.nextCharId) : Settled w' where
  filed := by
    rw [hoccupants]
    exact h.filed.congr hplace
  below cid hcid := by
    rw [hplace] at hcid
    rw [hnext]
    exact h.below cid hcid

/-- **The rule of moving.** One character is in a new room, where it was before or in the old one,
and is among the occupants. -/
theorem Settled.moved (h : Settled w) {src dest : Text} {cid : CharacterId}
    (hsrc : w.position cid = some src ∨ w.position cid = some dest)
    (hplace : ∀ cid', w'.position cid' = if cid' = cid then some dest else w.position cid')
    (hoccupants : w'.occupants = Buckets.put (Buckets.take w.occupants src cid) dest cid)
    (hnext : w'.nextCharId = w.nextCharId) : Settled w' where
  filed := by
    rw [hoccupants]
    exact h.filed.move hsrc hplace
  below cid' hcid' := by
    rw [hnext]
    refine h.below cid' ?_
    rw [hplace] at hcid'
    split at hcid'
    · next heq =>
      subst heq
      rcases hsrc with hsome | hsome
      · simp [hsome]
      · simp [hsome]
    · exact hcid'

/-- What `relocate` changes. -/
theorem World.relocate_frame (w : World Raw) (src dest : Text) (cid : CharacterId) :
    ∃ chars, w.relocate src dest cid
        = { w with chars, occupants := Buckets.put (Buckets.take w.occupants src cid) dest cid }
      ∧ ∀ cid', ({ w with chars } : World Raw).position cid'
        = if cid' = cid then (w.position cid).map fun _ => dest else w.position cid' := by
  obtain ⟨occupants, hframe⟩ := removeOccupant_frame w src cid
  have hremoved := removeOccupant_occupants w src cid
  rw [hframe] at hremoved
  have hoccupants : occupants = Buckets.take w.occupants src cid := hremoved
  have hset : ∀ v : World Raw, v.setRoom cid dest = { v with chars := (v.setRoom cid dest).chars } := by
    intro v
    unfold setRoom
    split
    · rfl
    · rfl
  refine ⟨((w.removeOccupant src cid).addOccupant dest cid |>.setRoom cid dest).chars, ?_, ?_⟩
  · rw [relocate, hset, hframe, hoccupants]
    rfl
  · intro cid'
    have hpos := position_setRoom ((w.removeOccupant src cid).addOccupant dest cid) cid cid' dest
    rw [hframe] at hpos ⊢
    exact hpos

theorem Settled.relocate (h : Settled w) {src dest : Text} {cid : CharacterId}
    (hsrc : w.position cid = some src ∨ w.position cid = some dest) :
    Settled (w.relocate src dest cid) ∧ ∀ cid', (w.relocate src dest cid).position cid'
      = if cid' = cid then some dest else w.position cid' := by
  obtain ⟨chars, heq, hpos⟩ := w.relocate_frame src dest cid
  rw [heq]
  have hplace : ∀ cid', ({ w with chars } : World Raw).position cid'
      = if cid' = cid then some dest else w.position cid' := by
    intro cid'
    rw [hpos]
    rcases hsrc with hsome | hsome
    · rw [hsome]
      rfl
    · rw [hsome]
      rfl
  exact ⟨h.moved hsrc hplace rfl rfl, hplace⟩

/-- **The rule of leaving.** -/
theorem Settled.left (h : Settled w) {roomId : Text} {cid : CharacterId}
    (hroom : w.position cid = some roomId)
    (hplace : ∀ cid', w'.position cid' = if cid' = cid then none else w.position cid')
    (hoccupants : w'.occupants = Buckets.take w.occupants roomId cid)
    (hnext : w'.nextCharId = w.nextCharId) : Settled w' where
  filed := by
    rw [hoccupants]
    refine h.filed.take ?_
    intro cid'
    rw [hplace]
    simp [hroom]
  below cid' hcid' := by
    rw [hnext]
    refine h.below cid' ?_
    rw [hplace] at hcid'
    split at hcid'
    · exact absurd rfl hcid'
    · exact hcid'

/-- **The rule of entering**: under the next id, which is nobody's. -/
theorem Settled.entered (h : Settled w) {roomId : Text}
    (hplace : ∀ cid', w'.position cid' = if cid' = w.nextCharId then some roomId else w.position cid')
    (hoccupants : w'.occupants = Buckets.put w.occupants roomId w.nextCharId)
    (hnext : w'.nextCharId = w.nextCharId + 1) : Settled w' where
  filed := by
    rw [hoccupants]
    refine h.filed.put (.inl ?_) hplace
    by_contra hne
    exact absurd (h.below _ hne) (Nat.lt_irrefl _)
  below cid' hcid' := by
    rw [hnext]
    rw [hplace] at hcid'
    split at hcid'
    · next heq =>
      rw [heq]
      exact Nat.lt_succ_self _
    · exact Nat.lt_succ_of_lt (h.below cid' hcid')

/-! ## Evacuation -/

/-- One room, emptied: whoever was in it is in the other room. -/
theorem Settled.evacuateRoom (h : Settled w) (dest rid : Text) : Settled (w.evacuateRoom dest rid) := by
  -- those who are still on the list are in no room
  have hloop : ∀ (l : List CharacterId) (w : World Raw), l.Nodup →
      Buckets.Filed (fun cid => if cid ∈ l then none else w.position cid) w.occupants →
      (∀ cid ∈ l, w.position cid ≠ none) → (∀ cid, w.position cid ≠ none → cid < w.nextCharId) →
      Settled (l.foldl (fun w cid => (w.addOccupant dest cid).setRoom cid dest) w) := by
    intro l
    induction l with
    | nil => exact fun w _ hfiled _ hbelow => ⟨hfiled.congr fun cid => by simp, hbelow⟩
    | cons cid l ih =>
      intro w hnodup hfiled hsome hbelow
      obtain ⟨hnotin, hnodup⟩ := List.nodup_cons.mp hnodup
      have hpos : ∀ cid', ((w.addOccupant dest cid).setRoom cid dest).position cid'
          = if cid' = cid then some dest else w.position cid' := by
        intro cid'
        rw [World.position_setRoom]
        split
        · have hcid := hsome cid List.mem_cons_self
          obtain ⟨room, hroom⟩ := Option.ne_none_iff_exists'.mp hcid
          have hroom' : (w.addOccupant dest cid).position cid = some room := hroom
          rw [hroom']
          rfl
        · rfl
      have hframe : ((w.addOccupant dest cid).setRoom cid dest).occupants = Buckets.put w.occupants dest cid
          ∧ ((w.addOccupant dest cid).setRoom cid dest).nextCharId = w.nextCharId := by
        unfold World.setRoom
        split
        · exact ⟨rfl, rfl⟩
        · exact ⟨rfl, rfl⟩
      refine ih _ hnodup ?_ ?_ ?_
      · rw [hframe.1]
        refine hfiled.put (.inl (if_pos List.mem_cons_self)) ?_
        intro cid'
        rw [hpos]
        by_cases heq : cid' = cid
        · subst heq
          rw [if_neg hnotin, if_pos rfl, if_pos rfl]
        · simp [heq]
      · intro cid' hmem
        rw [hpos]
        split
        · exact Option.some_ne_none dest
        · exact hsome cid' (List.mem_cons_of_mem _ hmem)
      · intro cid' hne
        rw [hframe.2]
        rw [hpos] at hne
        split at hne
        · next heq =>
          rw [heq]
          exact hbelow cid (hsome cid List.mem_cons_self)
        · exact hbelow cid' hne
  unfold World.evacuateRoom
  cases hcids : w.occupants.lookup rid with
  | none => exact h
  | some cids =>
    have hlist : ∀ cid, cid ∈ w.present cids ↔ w.position cid = some rid := by
      intro cid
      rw [World.present, List.mem_filter, ← h.filed.mem cid rid, Buckets.elems, hcids, Option.getD_some]
      simp only [decide_eq_true_eq, and_iff_right_iff_imp]
      intro hmem
      have hpos : w.position cid = some rid := by
        rw [← h.filed.mem cid rid, Buckets.elems, hcids]
        exact hmem
      obtain ⟨c, hc, -⟩ := Option.map_eq_some_iff.mp hpos
      exact AList.mem_keys.mp (AList.lookup_isSome.mp (by rw [hc]; rfl))
    refine hloop _ _ (w.chars.keys_nodup.filter _) (h.filed.erase ?_) ?_ h.below
    · intro cid
      exact if_congr (hlist cid) rfl rfl
    · intro cid hmem
      have hpos : w.position cid ≠ none := by simp [(hlist cid).mp hmem]
      exact hpos

theorem Settled.evacuate (h : Settled w) (pre dest : Text) : Settled (w.evacuateRoomsWithPrefix pre dest) :=
  List.foldlRecOn _ _ h fun _ hw rid _ => hw.evacuateRoom dest rid

/-! ## Sessions and mobs -/

namespace World

/-- Only the parties, the saved players and the occupants change when somebody leaves. -/
theorem removeChar_frame (w : World Raw) (O : SetOrder) (cid : CharacterId) :
    ∃ partyOf parties chars occupants, w.removeChar O cid
      = { w with partyInvites := w.partyInvites.erase cid, partyOf, parties, chars, occupants } ∧
      ((w.chars.lookup cid = none ∧ chars = w.chars ∧ occupants = w.occupants)
        ∨ ∃ c, w.chars.lookup cid = some c ∧ chars = w.chars.erase cid
          ∧ occupants = Buckets.take w.occupants c.roomId cid) := by
  obtain ⟨partyOf, parties, hleave⟩ := partyLeave_frame O
    { w with partyInvites := w.partyInvites.erase cid } cid
  unfold removeChar
  rw [hleave]
  dsimp only
  cases hc : w.chars.lookup cid with
  | none => exact ⟨partyOf, parties, w.chars, w.occupants, rfl, .inl ⟨rfl, rfl, rfl⟩⟩
  | some c =>
    have hoccupants := removeOccupant_occupants ({ w with
      partyInvites := w.partyInvites.erase cid
      partyOf, parties
      chars := w.chars.erase cid } : World Raw) c.roomId cid
    obtain ⟨occupants, hgone⟩ := removeOccupant_frame ({ w with
      partyInvites := w.partyInvites.erase cid
      partyOf, parties
      chars := w.chars.erase cid } : World Raw) c.roomId cid
    rw [hgone] at hoccupants
    exact ⟨partyOf, parties, w.chars.erase cid, occupants, hgone, .inr ⟨c, rfl, rfl, hoccupants⟩⟩

theorem detachOne_frame (w : World Raw) (O : SetOrder) (saveOk : Bool) (cid : CharacterId) :
    ∃ partyOf parties chars occupants players file, w.detachOne J O saveOk cid
      = { w with raftWatch := w.raftWatch.erase cid, partyInvites := w.partyInvites.erase cid,
                 partyOf, parties, chars, occupants, players, file } ∧
      ((w.chars.lookup cid = none ∧ chars = w.chars ∧ occupants = w.occupants)
        ∨ ∃ c, w.chars.lookup cid = some c ∧ chars = w.chars.erase cid
          ∧ occupants = Buckets.take w.occupants c.roomId cid) := by
  obtain ⟨partyOf, parties, hleave⟩ := partyLeave_frame O
    { w with raftWatch := w.raftWatch.erase cid, partyInvites := w.partyInvites.erase cid } cid
  unfold detachOne
  rw [hleave]
  dsimp only
  cases hc : w.chars.lookup cid with
  | none => exact ⟨partyOf, parties, w.chars, w.occupants, w.players, w.file, rfl, .inl ⟨rfl, rfl, rfl⟩⟩
  | some c =>
    obtain ⟨players, file, hsaved⟩ := rememberPlayer_frame J saveOk ({ w with
      raftWatch := w.raftWatch.erase cid
      partyInvites := w.partyInvites.erase cid
      partyOf, parties
      chars := w.chars.erase cid } : World Raw) c
    have hoccupants := removeOccupant_occupants ({ w with
      raftWatch := w.raftWatch.erase cid
      partyInvites := w.partyInvites.erase cid
      partyOf, parties, players, file
      chars := w.chars.erase cid } : World Raw) c.roomId cid
    obtain ⟨occupants, hgone⟩ := removeOccupant_frame ({ w with
      raftWatch := w.raftWatch.erase cid
      partyInvites := w.partyInvites.erase cid
      partyOf, parties, players, file
      chars := w.chars.erase cid } : World Raw) c.roomId cid
    rw [hgone] at hoccupants
    refine ⟨partyOf, parties, w.chars.erase cid, occupants, players, file, ?_, .inr ⟨c, rfl, rfl, hoccupants⟩⟩
    dsimp only
    rw [hsaved, hgone]

end World

/-- Somebody is taken out of the characters and out of its room, or there was nobody. -/
theorem Settled.gone (h : Settled w) {cid : CharacterId}
    (hgone : (w.chars.lookup cid = none ∧ w'.chars = w.chars ∧ w'.occupants = w.occupants)
      ∨ ∃ c, w.chars.lookup cid = some c ∧ w'.chars = w.chars.erase cid
        ∧ w'.occupants = Buckets.take w.occupants c.roomId cid)
    (hnext : w'.nextCharId = w.nextCharId) : Settled w' := by
  rcases hgone with ⟨-, hchars, hoccupants⟩ | ⟨c, hc, hchars, hoccupants⟩
  · refine h.congr ?_ hoccupants hnext
    intro cid'
    rw [World.position, hchars]
    rfl
  · have hroom : w.position cid = some c.roomId := by
      rw [World.position, hc]
      rfl
    refine h.left hroom ?_ hoccupants hnext
    intro cid'
    rw [World.position, hchars]
    exact World.position_erase (w := w) cid'

/-- The ids have not run out, or nothing is said. -/
def SettledSoFar (w : World Raw) : Prop := w.nextCharId < Word.maxU64 → Settled w

/-- What makes nobody new. -/
theorem SettledSoFar.same (h : SettledSoFar w) (hnext : w'.nextCharId = w.nextCharId)
    (hstep : Settled w → Settled w') : SettledSoFar w' := by
  intro hleft
  rw [hnext] at hleft
  exact hstep (h hleft)

theorem SettledSoFar.removeChar (h : SettledSoFar w) (O : SetOrder) (cid : CharacterId) :
    SettledSoFar (w.removeChar O cid) := by
  obtain ⟨partyOf, parties, chars, occupants, heq, hgone⟩ := w.removeChar_frame O cid
  rw [heq]
  exact h.same rfl fun hw => hw.gone hgone rfl

theorem SettledSoFar.detachSession (h : SettledSoFar w) (O : SetOrder) (saveOk : Bool)
    (session : SessionId) : SettledSoFar (w.detachSession J O saveOk session) := by
  unfold World.detachSession
  split
  · exact h
  · refine List.foldlRecOn _ _ (h.same rfl fun hw => hw.congr (fun _ => rfl) rfl rfl) fun w' hw' cid _ => ?_
    obtain ⟨partyOf, parties, chars, occupants, players, file, heq, hgone⟩ :=
      World.detachOne_frame (J := J) w' O saveOk cid
    rw [heq]
    exact hw'.same rfl fun hw => hw.gone hgone rfl

theorem SettledSoFar.enter (h : SettledSoFar w) {c : Character} (hid : c.id = w.nextCharId)
    (session : SessionId) : SettledSoFar (w.enter session c) := by
  intro hleft
  have hnext : (w.enter session c).nextCharId = Word.satAdd64 w.nextCharId 1 := rfl
  rw [hnext] at hleft
  obtain ⟨hlt, hadd⟩ := Word.satAdd64_lt hleft
  have hplace : ∀ cid', (w.enter session c).position cid'
      = if cid' = w.nextCharId then some c.roomId else w.position cid' := by
    intro cid'
    rw [← hid]
    exact World.position_insert (w := w) cid'
  refine (h hlt).entered hplace ?_ (hnext.trans hadd)
  rw [← hid]
  rfl

theorem SettledSoFar.spawnMob (h : SettledSoFar w) (roomId name : Text) :
    SettledSoFar (w.spawnMob roomId name) := by
  intro hleft
  have hnext : (w.spawnMob roomId name).nextCharId = Word.satAdd64 w.nextCharId 1 := rfl
  rw [hnext] at hleft
  obtain ⟨hlt, hadd⟩ := Word.satAdd64_lt hleft
  have hplace : ∀ cid', (w.spawnMob roomId name).position cid'
      = if cid' = w.nextCharId then some roomId else w.position cid' :=
    fun cid' => World.position_insert (w := w) cid'
  exact (h hlt).entered hplace rfl (hnext.trans hadd)

theorem SettledSoFar.attach (h : SettledSoFar w) (O : SetOrder) (saveOk : Bool) (r : AttachReq Auth) :
    SettledSoFar (w.attach A J O saveOk r) := by
  unfold World.attach
  dsimp only
  split
  · exact h
  · have hleft : SettledSoFar (w.detachSession J O saveOk r.session) :=
      h.detachSession O saveOk r.session
    generalize w.detachSession J O saveOk r.session = w₁ at hleft
    have hentered : ∀ principal authCaps b,
        SettledSoFar (w₁.spawnOrRestoreCharacter r.session principal authCaps b).2 := by
      intro principal authCaps b
      unfold World.spawnOrRestoreCharacter
      split
      · exact hleft.enter rfl r.session
      · exact hleft.enter rfl r.session
    obtain ⟨players, file, hsaved⟩ := World.rememberPlayerById_frame J saveOk
      (w₁.spawnOrRestoreCharacter r.session (principalFromAttach A (Text.trim r.name) r.auth)
        (capsFromAttach A r.auth) (r.build (Text.trim r.name))).2
      (w₁.spawnOrRestoreCharacter r.session (principalFromAttach A (Text.trim r.name) r.auth)
        (capsFromAttach A r.auth) (r.build (Text.trim r.name))).1
    rw [hsaved]
    exact (hentered _ _ _).same rfl fun hw => hw.congr (fun _ => rfl) rfl rfl

/-- **Sessions and parties come and go, and everybody is settled.** -/
theorem SettledSoFar.shard {m : ShardMove Auth} (h : SettledSoFar w) (hlocal : m.isLocal = true)
    (hs : shardStep J A w m = some w') : SettledSoFar w' := by
  cases m with
  | attach saveOk O r =>
    cases hs
    exact h.attach O saveOk r
  | detach saveOk O session =>
    cases hs
    exact h.detachSession O saveOk session
  | input O session line =>
    obtain ⟨⟨p, cmd⟩, -, rfl⟩ := Option.map_eq_some_iff.mp hs
    obtain ⟨nextPartyId, parties, partyOf, partyInvites, hframe⟩ :=
      World.runParty_frame O w session p cmd
    dsimp only
    rw [hframe]
    exact h.same rfl fun hw => hw.congr (fun _ => rfl) rfl rfl
  | drop O session cid =>
    simp only [shardStep, World.sessionsDrop] at hs
    split at hs
    · split at hs
      · split at hs
        · cases hs
          exact h.removeChar O cid
        · cases hs
          exact (h.removeChar O cid).same rfl fun hw => hw.congr (fun _ => rfl) rfl rfl
      · cases hs
    · cases hs
  | killMob O cid =>
    simp only [shardStep, World.killMob] at hs
    split at hs
    · cases hs
    · split at hs
      · cases hs
      · cases hs
        exact h.removeChar O cid
  | game g => cases hlocal
  | relink clean saveOk readOk rooms => cases hlocal

/-- What leaves everybody where they are. -/
theorem SettledSoFar.game (h : SettledSoFar w) {g : World.GameEffect}
    (hroom : ∀ cid c, (g.chars cid c).roomId = c.roomId) (hoccupants : g.occupants = w.occupants) :
    SettledSoFar (w.game g) := by
  refine List.foldlRecOn _ _ ?_ fun w' hw' m _ => hw'.spawnMob m.1 m.2
  refine h.same rfl fun hw => hw.congr ?_ hoccupants rfl
  intro cid
  rw [World.position, Table.lookup_mapVals, Option.map_map, World.position]
  congr 1
  funext c
  exact hroom cid c

/-! ## Moves of the realm -/

variable {r r' : Realm Raw}

theorem position_of_lookup {w : World Raw} {cid : CharacterId} {c : Character}
    (hc : w.chars.lookup cid = some c) : w.position cid = some c.roomId := by
  rw [World.position, hc]
  rfl

theorem nextCharId_relocate (w : World Raw) (src dest : Text) (cid : CharacterId) :
    (w.relocate src dest cid).nextCharId = w.nextCharId := by
  obtain ⟨chars, heq, -⟩ := w.relocate_frame src dest cid
  rw [heq]

theorem nextCharId_evacuate (w : World Raw) (pre dest : Text) :
    (w.evacuateRoomsWithPrefix pre dest).nextCharId = w.nextCharId := by
  have hmove : ∀ (v : World Raw) (cid : CharacterId),
      ((v.addOccupant dest cid).setRoom cid dest).nextCharId = v.nextCharId := by
    intro v cid
    unfold World.setRoom
    split
    · rfl
    · rfl
  refine List.foldlRecOn (motive := fun v : World Raw => v.nextCharId = w.nextCharId) _ _ rfl
    fun v hv rid _ => ?_
  unfold World.evacuateRoom
  split
  · exact hv
  · exact List.foldlRecOn (motive := fun v : World Raw => v.nextCharId = w.nextCharId) _ _ hv
      fun v' hv' cid _ => (hmove v' cid).trans hv'

theorem SettledSoFar.relocate (h : SettledSoFar w) (dest : Text) {cid : CharacterId} {c : Character}
    (hc : w.chars.lookup cid = some c) : SettledSoFar (w.relocate c.roomId dest cid) :=
  h.same (nextCharId_relocate _ _ _ _) fun hw => (hw.relocate (.inl (position_of_lookup hc))).1

/-- The character that a session plays is one of the characters. -/
theorem lookup_of_activeChar {session : SessionId} {cid : CharacterId} {p : Character}
    (h : w.activeChar session = some (cid, p)) : w.chars.lookup cid = some p := by
  simp only [World.activeChar, Option.bind_eq_bind, Option.bind_eq_some_iff, Option.some.injEq,
    Prod.mk.injEq] at h
  obtain ⟨ss, -, c, hc, rfl, rfl⟩ := h
  exact hc

/-- A party follows its leader: whoever comes along is in the old room, or in the new one already. -/
theorem SettledSoFar.follow (h : SettledSoFar w) {src dest : Text} {l : List CharacterId}
    (hl : ∀ cid ∈ l, w.position cid = some src ∨ w.position cid = some dest) :
    SettledSoFar (l.foldl (fun w mid => w.relocate src dest mid) w) := by
  induction l generalizing w with
  | nil => exact h
  | cons cid l ih =>
    have hcid := hl cid List.mem_cons_self
    refine ih (h.same (nextCharId_relocate _ _ _ _) fun hw => (hw.relocate hcid).1) ?_
    intro cid' hmem
    obtain ⟨chars, heq, hpos⟩ := w.relocate_frame src dest cid
    have hplace : (w.relocate src dest cid).position cid'
        = if cid' = cid then (w.position cid).map fun _ => dest else w.position cid' := by
      rw [heq]
      exact hpos cid'
    rw [hplace]
    split
    · right
      rcases hcid with hsome | hsome
      · rw [hsome]
        rfl
      · rw [hsome]
        rfl
    · exact hl cid' (List.mem_cons_of_mem _ hmem)

theorem position_of_mem_followers {cid mid : CharacterId} {src : Text} (h : mid ∈ w.followers cid src) :
    w.position mid = some src := by
  unfold World.followers at h
  split at h
  · cases h
  · split at h
    · obtain ⟨e, he, hsome⟩ := List.mem_filterMap.mp h
      split at hsome
      · next hcond =>
        cases hsome
        rw [position_of_lookup (AList.mem_lookup_iff.mpr he), hcond.2.2.2.1]
      · cases hsome
    · cases h

theorem SettledSoFar.tryMove (h : SettledSoFar r.world) {session : SessionId} {token : Text}
    (hs : r.tryMove session token = some r') : SettledSoFar r'.world := by
  simp only [Realm.tryMove, Option.bind_eq_bind, Option.bind_eq_some_iff] at hs
  obtain ⟨⟨cid, p⟩, hactive, ex, -, hs⟩ := hs
  cases hs
  refine (h.relocate ex.dest (lookup_of_activeChar hactive)).follow ?_
  exact fun mid hmid => .inl (position_of_mem_followers hmid)

theorem SettledSoFar.teleportTo (h : SettledSoFar r.world) (session : SessionId) (dest : Text) :
    SettledSoFar (r.teleportTo session dest).world := by
  unfold Realm.teleportTo
  split
  · exact h
  · next hactive =>
    split
    · exact h.relocate dest (lookup_of_activeChar hactive)
    · exact h

theorem SettledSoFar.clearInstance (h : SettledSoFar r.world) (pre : Text) :
    SettledSoFar (r.clearInstance pre).world := by
  exact h.same (nextCharId_evacuate r.world pre r.evacTo) fun hw => hw.evacuate pre r.evacTo

theorem SettledSoFar.proto (h : SettledSoFar r.world) {session : SessionId} {line : Text}
    {md : Option Text} (hs : r.proto session line md = some r') : SettledSoFar r'.world := by
  simp only [Realm.proto, Option.bind_eq_bind, Option.bind_eq_some_iff, Option.ite_none_left_eq_some] at hs
  obtain ⟨rest, -, -, ⟨start, r₁⟩, hload, hs⟩ := hs
  cases hs
  refine SettledSoFar.teleportTo ?_ session start
  simp only [Realm.loadProtoadventure, Option.bind_eq_bind, Option.bind_eq_some_iff,
    Option.ite_none_left_eq_some] at hload
  obtain ⟨-, md, -, -, hload⟩ := hload
  cases hload
  exact h.clearInstance _

theorem SettledSoFar.partyRun (h : SettledSoFar r.world) {session : SessionId} {line : Text}
    {md : Option Text} (hs : r.partyRun session line md = some r') : SettledSoFar r'.world := by
  simp only [Realm.partyRun, Option.bind_eq_bind, Option.bind_eq_some_iff] at hs
  obtain ⟨⟨pid, aid⟩, -, md, -, hs⟩ := hs
  cases hs
  exact h.clearInstance _

/-- The members of a party are moved in one by one, each from the room it is in then. -/
theorem SettledSoFar.gather (h : SettledSoFar w) (members : List CharacterId) (dest : Text) :
    SettledSoFar (Realm.gather w members dest) := by
  refine List.foldlRecOn _ _ h fun w' hw' mid _ => ?_
  split
  · exact hw'
  · next hc => exact hw'.relocate dest hc

theorem SettledSoFar.buildNext (h : SettledSoFar r.world) {pid : PartyId}
    (hs : r.buildNext pid = some r') : SettledSoFar r'.world := by
  unfold Realm.buildNext at hs
  dsimp only at hs
  split at hs
  · split at hs
    · cases hs
      exact h
    · split at hs
      · cases hs
        exact h
      · cases hs
        exact h.gather _ _
  · cases hs

theorem SettledSoFar.mobWander (h : SettledSoFar r.world) {mob : CharacterId} {idx : Nat}
    (hs : r.mobWander mob idx = some r') : SettledSoFar r'.world := by
  simp only [Realm.mobWander, Option.bind_eq_bind, Option.bind_eq_some_iff,
    Option.ite_none_left_eq_some] at hs
  obtain ⟨m, hm, -, ex, -, hs⟩ := hs
  cases hs
  exact h.relocate ex.dest hm

theorem SettledSoFar.sendToGraveyard (h : SettledSoFar r.world) (cid : CharacterId) :
    SettledSoFar (r.sendToGraveyard cid).world := by
  unfold Realm.sendToGraveyard
  split
  · exact h
  · next c hc =>
    dsimp only
    generalize (if r.rooms.hasRoom graveyardRoomId then graveyardRoomId
      else r.rooms.startRoom) = dest
    obtain ⟨occupants, hframe⟩ := World.removeOccupant_frame r.world c.roomId cid
    have hoccupants := World.removeOccupant_occupants r.world c.roomId cid
    rw [hframe] at hoccupants ⊢
    have hsrc : r.world.position cid = some c.roomId ∨ r.world.position cid = some dest :=
      .inl (position_of_lookup hc)
    refine h.same rfl fun hw => hw.moved hsrc ?_ ?_ rfl
    · exact fun cid' => World.position_insert (w := r.world) cid'
    · rw [← hoccupants]
      rfl

theorem SettledSoFar.damage (h : SettledSoFar r.world) {attacker target : CharacterId} {dmg : Int}
    (hs : r.applyDamageToPlayer attacker target dmg = some r') : SettledSoFar r'.world := by
  simp only [Realm.applyDamageToPlayer, Option.bind_eq_bind, Option.bind_eq_some_iff,
    Option.ite_none_left_eq_some] at hs
  obtain ⟨att, -, tgt, htgt, -, hs⟩ := hs
  have hhurt : SettledSoFar { r.world with
      chars := r.world.chars.insert target { tgt with hp := tgt.hp - dmg } } := by
    refine h.same rfl fun hw => hw.congr ?_ rfl rfl
    intro cid
    rw [World.position_insert]
    split
    · next heq => rw [heq, position_of_lookup htgt]
    · rfl
  cases hs
  split
  · exact SettledSoFar.sendToGraveyard (r := { r with world := _ }) hhurt target
  · exact hhurt

/-! ## Runs -/

theorem SettledSoFar.new (J : Codec Raw (List PlayerSnapshot)) (readOk : Bool) (rooms : RoomMap)
    (file : Option Raw) : SettledSoFar (Realm.new J readOk rooms file).world := by
  intro _
  refine ⟨Buckets.filed_empty, ?_⟩
  intro cid hcid
  exact absurd rfl hcid

theorem SettledSoFar.step {m : RealmMove Auth} (h : SettledSoFar r.world)
    (hs : Realm.step J A r m = some r') : SettledSoFar r'.world := by
  cases m with
  | shard m =>
    simp only [Realm.step, Option.ite_none_right_eq_some, Option.map_eq_some_iff] at hs
    obtain ⟨hlocal, w, hw, rfl⟩ := hs
    have hview : SettledSoFar { r.world with rooms := r.rooms.view } :=
      h.same rfl fun hw => hw.congr (fun _ => rfl) rfl rfl
    exact hview.shard hlocal hw
  | effect e =>
    cases hs
    exact h.game (fun _ _ => rfl) rfl
  | going session g =>
    simp only [Realm.step, Option.ite_none_left_eq_some] at hs
    cases g with
    | tryMove token => exact h.tryMove hs.2
    | teleport dest =>
      cases hs.2
      exact h.teleportTo session dest
    | proto line md => exact h.proto hs.2
    | partyRun line md => exact h.partyRun hs.2
  | buildNext pid => exact h.buildNext hs
  | mobWander mob idx => exact h.mobWander hs
  | damage attacker target dmg => exact h.damage hs
  | relink clean saveOk readOk =>
    cases hs
    exact SettledSoFar.new J readOk _ _

/-- **Everybody is where the rooms say.** In every run, in every state in which the ids have not run
out: the occupants of a room are the characters that are in it, and no room is listed without
any. -/
theorem occupants_agree (J : Codec Raw (List PlayerSnapshot)) (A : Codec Auth AuthBlob) (readOk : Bool)
    (rooms : RoomMap) (file : Option Raw) (ms : List (RealmMove Auth)) {r : Realm Raw}
    (hrun : exec (Realm.step J A) (Realm.new J readOk rooms file) ms = some r)
    (hleft : r.world.nextCharId < Word.maxU64) :
    (∀ cid roomId, (∃ s, r.world.occupants.lookup roomId = some s ∧ cid ∈ s)
      ↔ ∃ c, r.world.chars.lookup cid = some c ∧ c.roomId = roomId)
    ∧ ∀ roomId s, r.world.occupants.lookup roomId = some s → s.Nonempty := by
  have hsettled : Settled r.world :=
    exec_preserves (I := fun r : Realm Raw => SettledSoFar r.world) (fun h hs => h.step hs)
      (SettledSoFar.new J readOk rooms file) hrun hleft
  refine ⟨?_, ?_⟩
  · intro cid roomId
    have hmem := hsettled.filed.mem cid roomId
    rw [World.position, Option.map_eq_some_iff] at hmem
    rw [← hmem, Buckets.elems]
    cases r.world.occupants.lookup roomId with
    | none => simp
    | some s => simp
  · intro roomId s hs
    refine Finset.nonempty_iff_ne_empty.mpr ?_
    rintro rfl
    exact hsettled.filed.full roomId hs

/-! ## The last id -/

/-- Alice's party is gathered in the first room of its adventure. -/
theorem occupants_agree_hall :
    ∃ r, runRealm (adventureRun "### R_HALL (a hall)\n" ++ [RealmMove.buildNext 1]) = some r ∧
      r.world.nextCharId < Word.maxU64 ∧
      (∀ cid roomId, (∃ s, r.world.occupants.lookup roomId = some s ∧ cid ∈ s)
        ↔ ∃ c, r.world.chars.lookup cid = some c ∧ c.roomId = roomId)
      ∧ ∀ roomId s, r.world.occupants.lookup roomId = some s → s.Nonempty := by
  have hnext : (runRealm (adventureRun "### R_HALL (a hall)\n" ++ [RealmMove.buildNext 1])).map
      (fun r => r.world.nextCharId) = some 2 := by
    decide +kernel
  obtain ⟨r, hrun, heq⟩ := Option.map_eq_some_iff.mp hnext
  have hleft : r.world.nextCharId < Word.maxU64 := by
    rw [heq]
    decide
  exact ⟨r, hrun, hleft, occupants_agree _ _ _ _ _ _ hrun hleft⟩

/-- A rat appears in a room. -/
def spawnRat (roomId : Text) : RealmMove (Option AuthBlob) :=
  .effect ⟨fun _ c => c, [(roomId, "rat".toList)], ∅, fun _ => none, 0⟩

abbrev SampleRealm := Realm (Option (List PlayerSnapshot))

theorem step_spawnRat (r : SampleRealm) (roomId : Text) :
    ∃ r', Realm.step (Codec.direct _) (Codec.direct _) r (spawnRat roomId) = some r'
      ∧ r'.world.nextCharId = Word.satAdd64 r.world.nextCharId 1
      ∧ r'.world.position r.world.nextCharId = some roomId
      ∧ r'.world.occupants = Buckets.put r.world.occupants roomId r.world.nextCharId := by
  refine ⟨_, rfl, rfl, ?_, rfl⟩
  exact (World.position_insert _).trans (if_pos rfl)

theorem exec_spawnRats (n k : Nat) (r : SampleRealm) (roomId : Text) (hk : r.world.nextCharId = k)
    (hleft : k + n ≤ Word.maxU64) :
    ∃ r', exec (Realm.step (Codec.direct _) (Codec.direct _)) r (List.replicate n (spawnRat roomId)) = some r'
      ∧ r'.world.nextCharId = k + n := by
  induction n generalizing r k with
  | zero => exact ⟨r, rfl, hk⟩
  | succ n ih =>
    obtain ⟨r₁, hs, hnext, -, -⟩ := step_spawnRat r roomId
    rw [hk, Word.satAdd64_of_lt (by omega)] at hnext
    obtain ⟨r', hrun, hnext'⟩ := ih (k + 1) r₁ hnext (by omega)
    refine ⟨r', ?_, by rw [hnext', Nat.add_right_comm, Nat.add_assoc]⟩
    rw [List.replicate_succ]
    exact exec_cons.mpr ⟨r₁, hs, hrun⟩

/-- As many rats as there are ids, and one more in another room. -/
def ratRun : List (RealmMove (Option AuthBlob)) :=
  List.replicate (Word.maxU64 - 1) (spawnRat "gate".toList)
    ++ [spawnRat "gate".toList, spawnRat "hall".toList]

/-- The last two rats have one id. It is the rat in the hall, and an occupant of the gate. -/
theorem last_rat_in_two_rooms :
    ∃ r s c, runRealm ratRun = some r ∧ r.world.occupants.lookup "gate".toList = some s
      ∧ Word.maxU64 ∈ s ∧ r.world.chars.lookup Word.maxU64 = some c ∧ c.roomId = "hall".toList := by
  have hfirst : (Realm.new (Codec.direct (List PlayerSnapshot)) true oneRoom none).world.nextCharId = 1 := rfl
  obtain ⟨r₁, hrun₁, hnext₁⟩ := exec_spawnRats (Word.maxU64 - 1) 1
    (Realm.new (Codec.direct _) true oneRoom none) "gate".toList hfirst (by decide)
  have hmax : r₁.world.nextCharId = Word.maxU64 := by
    rw [hnext₁]
    decide
  obtain ⟨r₂, hs₂, hnext₂, -, hocc₂⟩ := step_spawnRat r₁ "gate".toList
  have hstuck : r₂.world.nextCharId = Word.maxU64 := by
    rw [hnext₂, hmax]
    decide
  obtain ⟨r₃, hs₃, -, hpos₃, hocc₃⟩ := step_spawnRat r₂ "hall".toList
  rw [hstuck] at hpos₃ hocc₃
  rw [hmax] at hocc₂
  have hmem : Word.maxU64 ∈ Buckets.elems r₃.world.occupants "gate".toList := by
    rw [hocc₃, Buckets.mem_put, hocc₂, Buckets.mem_put]
    exact .inr (.inl ⟨rfl, rfl⟩)
  obtain ⟨s, hs, hin⟩ : ∃ s, r₃.world.occupants.lookup "gate".toList = some s ∧ Word.maxU64 ∈ s := by
    rw [Buckets.elems] at hmem
    cases hlook : r₃.world.occupants.lookup "gate".toList with
    | none =>
      rw [hlook] at hmem
      exact absurd hmem (Finset.notMem_empty _)
    | some s =>
      rw [hlook] at hmem
      exact ⟨s, rfl, hmem⟩
  obtain ⟨c, hc, hroom⟩ := Option.map_eq_some_iff.mp hpos₃
  refine ⟨r₃, s, c, ?_, hs, hin, hc, hroom⟩
  exact exec_append.mpr ⟨r₁, hrun₁, exec_cons.mpr ⟨r₂, hs₂, exec_cons.mpr ⟨r₃, hs₃, rfl⟩⟩⟩

end Slopmud.Shard
