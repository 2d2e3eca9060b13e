import Slopmud.Lib.Evolve
import Slopmud.Proof.Occupants
import Slopmud.Proof.Snapshots
import Slopmud.Shard.Battle
import Slopmud.Shard.Link

/-!
# What moves without fights do to characters

Walking and building only put characters elsewhere; attaching and detaching bring characters in from
snapshots and take snapshots of those who leave. Each is said once here, for any relation that
allows these changes and can be composed, so that an invariant of characters is one instance.
-/

namespace Slopmud.Shard

open Machine Table

variable {Raw Auth : Type} {J : Codec Raw (List PlayerSnapshot)} {A : Codec Auth AuthBlob}
variable {R : CharacterId → Character → Character → Prop}

/-! ## Walking -/

/-- Characters change by `R`, some are gone, and nothing is saved. -/
structure Walked (R : CharacterId → Character → Character → Prop) (w w' : World Raw) : Prop where
  chars : Evolves R w.chars w'.chars
  players : w'.players = w.players
  file : w'.file = w.file
  nowMs : w'.nowMs = w.nowMs

/-- Relations that allow a character to be elsewhere. -/
structure Roams (R : CharacterId → Character → Character → Prop) : Prop extends Composes R where
  room : ∀ cid (c : Character) roomId, R cid c { c with roomId }

theorem Walked.refl (h : Composes R) (w : World Raw) : Walked R w w := ⟨.refl h _, rfl, rfl, rfl⟩

theorem Walked.trans {w w' w'' : World Raw} (h : Composes R) (h₁ : Walked R w w')
    (h₂ : Walked R w' w'') : Walked R w w'' :=
  ⟨h₁.chars.trans h h₂.chars, h₂.players.trans h₁.players, h₂.file.trans h₁.file, h₂.nowMs.trans h₁.nowMs⟩

theorem Walked.foldl {α : Type} {f : World Raw → α → World Raw} (h : Composes R)
    (hstep : ∀ w a, Walked R w (f w a)) (as : List α) (w : World Raw) : Walked R w (as.foldl f w) := by
  induction as generalizing w with
  | nil => exact .refl h w
  | cons a as ih => exact (hstep w a).trans h (ih (f w a))

/-- The same characters, and nothing saved. -/
theorem Walked.of_eq {w w' : World Raw} (h : Composes R) (hchars : w'.chars = w.chars)
    (hplayers : w'.players = w.players) (hfile : w'.file = w.file) (hnow : w'.nowMs = w.nowMs) :
    Walked R w w' :=
  ⟨hchars ▸ .refl h _, hplayers, hfile, hnow⟩

theorem setRoom_walked (h : Roams R) (w : World Raw) (cid : CharacterId) (roomId : Text) :
    Walked R w (w.setRoom cid roomId) := by
  unfold World.setRoom
  cases hc : w.chars.lookup cid with
  | none => exact .refl h.toComposes w
  | some c => exact ⟨.insert h.toComposes hc (h.room cid c roomId), rfl, rfl, rfl⟩

theorem placed_walked (h : Roams R) (w : World Raw) (occupants : Table Text (Finset CharacterId))
    (cid : CharacterId) (dest : Text) : Walked R w ({ w with occupants }.setRoom cid dest) := by
  have hset := setRoom_walked h { w with occupants } cid dest
  exact ⟨hset.chars, hset.players, hset.file, hset.nowMs⟩

theorem relocate_walked (h : Roams R) (w : World Raw) (src dest : Text) (cid : CharacterId) :
    Walked R w (w.relocate src dest cid) := by
  unfold World.relocate
  obtain ⟨occupants, heq⟩ := World.removeOccupant_frame w src cid
  rw [heq]
  exact placed_walked h w _ cid dest

theorem evacuate_walked (h : Roams R) (w : World Raw) (pre dest : Text) :
    Walked R w (w.evacuateRoomsWithPrefix pre dest) := by
  refine .foldl h.toComposes (fun w rid => ?_) _ w
  unfold World.evacuateRoom
  split
  · exact .refl h.toComposes w
  · next cids _ =>
    have hstart : Walked R w { w with occupants := w.occupants.erase rid } :=
      .of_eq h.toComposes rfl rfl rfl rfl
    refine hstart.trans h.toComposes (.foldl h.toComposes (fun w cid => ?_) _ _)
    exact placed_walked h w _ cid dest

section Realm

variable {r r' : Realm Raw}

theorem tryMove_walked (h : Roams R) {session : SessionId} {token : Text}
    (hs : r.tryMove session token = some r') : Walked R r.world r'.world := by
  simp only [Realm.tryMove, Option.bind_eq_bind, Option.bind_eq_some_iff] at hs
  obtain ⟨⟨cid, p⟩, -, ex, -, hs⟩ := hs
  cases hs
  exact (relocate_walked h _ _ _ _).trans h.toComposes
    (.foldl h.toComposes (fun w mid => relocate_walked h w _ _ mid) _ _)

theorem teleportTo_walked (h : Roams R) (session : SessionId) (dest : Text) :
    Walked R r.world (r.teleportTo session dest).world := by
  unfold Realm.teleportTo
  split
  · exact .refl h.toComposes _
  · split
    · exact relocate_walked h _ _ _ _
    · exact .refl h.toComposes _

theorem proto_walked (h : Roams R) {session : SessionId} {line : Text} {md : Option Text}
    (hs : r.proto session line md = some r') : Walked R r.world r'.world := by
  simp only [Realm.proto, Option.bind_eq_bind, Option.bind_eq_some_iff, Option.ite_none_left_eq_some] at hs
  obtain ⟨rest, -, -, ⟨start, r₁⟩, hload, hs⟩ := hs
  cases hs
  simp only [Realm.loadProtoadventure, Option.bind_eq_bind, Option.bind_eq_some_iff,
    Option.ite_none_left_eq_some] at hload
  obtain ⟨-, md, -, -, hload⟩ := hload
  cases hload
  refine Walked.trans h.toComposes ?_ (teleportTo_walked h session _)
  exact evacuate_walked h _ _ _

theorem partyRun_walked (h : Roams R) {session : SessionId} {line : Text} {md : Option Text}
    (hs : r.partyRun session line md = some r') : Walked R r.world r'.world := by
  simp only [Realm.partyRun, Option.bind_eq_bind, Option.bind_eq_some_iff] at hs
  obtain ⟨⟨pid, aid⟩, -, md, -, hs⟩ := hs
  cases hs
  exact evacuate_walked h _ _ _

/-- A line that moves its character, or makes rooms. -/
theorem go_walked (h : Roams R) {session : SessionId} {g : Going} (hs : r.go session g = some r') :
    Walked R r.world r'.world := by
  cases g with
  | tryMove token => exact tryMove_walked h hs
  | teleport dest => cases hs; exact teleportTo_walked h session dest
  | proto line md => exact proto_walked h hs
  | partyRun line md => exact partyRun_walked h hs

theorem buildNext_walked (h : Roams R) {pid : PartyId} (hs : r.buildNext pid = some r') :
    Walked R r.world r'.world := by
  have hgather : ∀ (members : List CharacterId) (dest : Text),
      Walked R r.world (Realm.gather r.world members dest) := by
    refine fun members dest => .foldl h.toComposes (fun w mid => ?_) members r.world
    split
    · exact .refl h.toComposes w
    · exact relocate_walked h _ _ _ _
  unfold Realm.buildNext at hs
  dsimp only at hs
  split at hs
  · split at hs
    · cases hs; exact .refl h.toComposes _
    · split at hs
      · cases hs; exact .refl h.toComposes _
      · cases hs; exact hgather _ _
  · cases hs

theorem mobWander_walked (h : Roams R) {mob : CharacterId} {idx : Nat}
    (hs : r.mobWander mob idx = some r') : Walked R r.world r'.world := by
  simp only [Realm.mobWander, Option.bind_eq_bind, Option.bind_eq_some_iff,
    Option.ite_none_left_eq_some] at hs
  obtain ⟨m, hm, -, ex, -, hs⟩ := hs
  cases hs
  exact relocate_walked h _ _ _ _

end Realm

theorem runParty_walked (h : Composes R) (O : SetOrder) (w : World Raw) (session : SessionId)
    (p : Character) (cmd : PartyCommand) : Walked R w (w.runParty O session p cmd).2 := by
  obtain ⟨nextPartyId, parties, partyOf, partyInvites, heq⟩ := World.runParty_frame O w session p cmd
  rw [heq]
  exact .of_eq h rfl rfl rfl rfl

theorem removeChar_walked (h : Composes R) (w : World Raw) (O : SetOrder) (cid : CharacterId) :
    Walked R w (w.removeChar O cid) := by
  obtain ⟨partyOf, parties, chars, occupants, heq, ⟨-, rfl, -⟩ | ⟨c, -, rfl, -⟩⟩ :=
    World.removeChar_frame w O cid
  · rw [heq]; exact .of_eq h rfl rfl rfl rfl
  · rw [heq]; exact ⟨.erase h _ _, rfl, rfl, rfl⟩

theorem sessionsDrop_walked (h : Composes R) {w w' : World Raw} {O : SetOrder} {session : SessionId}
    {cid : CharacterId} (hs : w.sessionsDrop O session cid = some w') : Walked R w w' := by
  have hgone := removeChar_walked h w O cid
  unfold World.sessionsDrop at hs
  split at hs
  · split at hs
    · dsimp only at hs
      split at hs
      · cases hs; exact hgone
      · cases hs; exact ⟨hgone.chars, hgone.players, hgone.file, hgone.nowMs⟩
    · cases hs
  · cases hs

theorem killMob_walked (h : Composes R) {w w' : World Raw} {O : SetOrder} {cid : CharacterId}
    (hs : w.killMob O cid = some w') : Walked R w w' := by
  unfold World.killMob at hs
  split at hs
  · cases hs
  · split at hs
    · cases hs
    · cases hs
      exact removeChar_walked h w O cid

/-! ## Coming and going -/

/-- Every character has the property `P`, and every snapshot the property `Q`. -/
structure Kept (J : Codec Raw (List PlayerSnapshot)) (P : CharacterId → Character → Prop)
    (Q : PlayerSnapshot → Prop) (w : World Raw) : Prop where
  chars : All P w.chars
  players : All (fun _ => Q) w.players
  file : ∀ s, InFile J w.file s → Q s

/-- Properties that are carried from characters to their snapshots and back, and that those who are
new have. -/
structure Carries (Raw : Type) (P : CharacterId → Character → Prop) (Q : PlayerSnapshot → Prop) :
    Prop where
  room : ∀ cid (c : Character) roomId, P cid c → P cid { c with roomId }
  saved : ∀ {cid c s}, P cid c → PlayerSnapshot.fromCharacter c = some s → Q s
  spawned : ∀ (w : World Raw) session principal authCaps b cid,
    P cid (w.newCharacter session principal authCaps b)
  restored : ∀ (w : World Raw) session {s} principal authCaps cid, Q s →
    P cid (w.restoredCharacter session s principal authCaps)
  mob : ∀ (w : World Raw) roomId name cid, P cid (w.newMob roomId name)

variable {P : CharacterId → Character → Prop} {Q : PlayerSnapshot → Prop}

/-- To carry `P` over is a way to change that allows walking. -/
theorem Carries.roams (h : Carries Raw P Q) : Roams (fun cid c c' => P cid c → P cid c') where
  toComposes := composes_carry P
  room := h.room

theorem Kept.evolve {w w' : World Raw} (h : Kept J P Q w)
    (hw : Walked (fun cid c c' => P cid c → P cid c') w w') : Kept J P Q w' where
  chars := h.chars.evolve hw.chars fun _ _ _ hR => hR
  players := hw.players ▸ h.players
  file := hw.file ▸ h.file

theorem Kept.persist {w : World Raw} (h : Kept J P Q w) (saveOk : Bool) :
    Kept J P Q (w.persistPlayerSnapshots J saveOk) := by
  cases saveOk with
  | false => exact h
  | true =>
    refine ⟨h.chars, h.players, fun s hs => ?_⟩
    obtain ⟨p, hp⟩ := inFile_persist.mp hs
    exact h.players p s hp

theorem Kept.rememberPlayer {w : World Raw} (h : Kept J P Q w) (hc : Carries Raw P Q) (saveOk : Bool)
    {cid : CharacterId} {c : Character} (hP : P cid c) : Kept J P Q (w.rememberPlayer J saveOk c) := by
  unfold World.rememberPlayer
  cases hs : PlayerSnapshot.fromCharacter c with
  | none => exact h
  | some snapshot =>
    have hplayers : Kept J P Q { w with players := w.players.insert snapshot.principal snapshot } :=
      ⟨h.chars, h.players.insert (hc.saved hP hs), h.file⟩
    exact hplayers.persist saveOk

theorem Kept.detachOne {w : World Raw} (h : Kept J P Q w) (hc : Carries Raw P Q) (O : SetOrder)
    (saveOk : Bool) (cid : CharacterId) : Kept J P Q (w.detachOne J O saveOk cid) := by
  unfold World.detachOne
  obtain ⟨partyOf, parties, hleave⟩ := World.partyLeave_frame O
    { w with raftWatch := w.raftWatch.erase cid, partyInvites := w.partyInvites.erase cid } cid
  rw [hleave]
  dsimp only
  cases hlook : w.chars.lookup cid with
  | none => exact ⟨h.chars, h.players, h.file⟩
  | some c =>
    dsimp only
    generalize hw₁ : ({ w with
      raftWatch := w.raftWatch.erase cid
      partyInvites := w.partyInvites.erase cid
      partyOf, parties
      chars := w.chars.erase cid } : World Raw) = w₁
    have h₁ : Kept J P Q w₁ := by
      subst hw₁
      exact ⟨h.chars.evolve (.erase (composes_carry P) _ _) fun _ _ _ hR => hR, h.players, h.file⟩
    obtain ⟨occupants, hocc⟩ := World.removeOccupant_frame (w₁.rememberPlayer J saveOk c) c.roomId cid
    have hsaved := h₁.rememberPlayer hc saveOk (h.chars cid c hlook)
    rw [hocc]
    exact ⟨hsaved.chars, hsaved.players, hsaved.file⟩

theorem Kept.detachSession {w : World Raw} (h : Kept J P Q w) (hc : Carries Raw P Q) (O : SetOrder)
    (saveOk : Bool) (session : SessionId) : Kept J P Q (w.detachSession J O saveOk session) := by
  unfold World.detachSession
  cases w.sessions.lookup session with
  | none => exact h
  | some ss =>
    refine List.foldlRecOn (motive := Kept J P Q) _ _ ?_ fun w hw cid _ => hw.detachOne hc O saveOk cid
    exact ⟨h.chars, h.players, h.file⟩

/-- Somebody enters. -/
theorem Kept.enter {w : World Raw} (h : Kept J P Q w) (session : SessionId) {c : Character}
    (hP : P c.id c) : Kept J P Q (w.enter session c) :=
  ⟨h.chars.insert hP, h.players, h.file⟩

theorem Kept.spawnMob {w : World Raw} (h : Kept J P Q w) (hc : Carries Raw P Q) (roomId name : Text) :
    Kept J P Q (w.spawnMob roomId name) :=
  ⟨h.chars.insert (hc.mob w roomId name _), h.players, h.file⟩

theorem Kept.join {w : World Raw} (h : Kept J P Q w) (hc : Carries Raw P Q) (O : SetOrder)
    (saveOk : Bool) (r : AttachReq Auth) : Kept J P Q (w.join J A O saveOk r) := by
  unfold World.join
  dsimp only
  split
  · exact h
  · have h₁ := h.detachSession hc O saveOk r.session
    generalize w.detachSession J O saveOk r.session = w₁ at h₁ ⊢
    unfold World.spawnOrRestoreCharacter
    cases hs : w₁.players.lookup (principalFromAttach A (Text.trim r.name) r.auth) with
    | some snapshot => exact h₁.enter r.session (hc.restored _ _ _ _ _ (h₁.players _ _ hs))
    | none => exact h₁.enter r.session (hc.spawned _ _ _ _ _ _)

/-- An attach is a join, and then the character is saved, when there is one. -/
theorem attach_eq_join (O : SetOrder) (saveOk : Bool) (w : World Raw) (r : AttachReq Auth) :
    w.attach A J O saveOk r = w.join J A O saveOk r
      ∨ ∃ cid, w.attach A J O saveOk r = (w.join J A O saveOk r).rememberPlayerById J saveOk cid := by
  unfold World.attach World.join
  dsimp only
  split
  · exact .inl rfl
  · exact .inr ⟨_, rfl⟩

theorem Kept.attach {w : World Raw} (h : Kept J P Q w) (hc : Carries Raw P Q) (O : SetOrder)
    (saveOk : Bool) (r : AttachReq Auth) : Kept J P Q (w.attach A J O saveOk r) := by
  have hjoin : Kept J P Q (w.join J A O saveOk r) := h.join hc O saveOk r
  rcases attach_eq_join (J := J) (A := A) O saveOk w r with heq | ⟨cid, heq⟩
  · rw [heq]; exact hjoin
  · rw [heq]
    unfold World.rememberPlayerById
    cases hlook : (w.join J A O saveOk r).chars.lookup cid with
    | none => exact hjoin
    | some c => exact hjoin.rememberPlayer hc saveOk (hjoin.chars cid c hlook)

/-- What the rest of the game does, when it keeps `P` and makes mobs. -/
theorem Kept.game {w : World Raw} (h : Kept J P Q w) (hc : Carries Raw P Q) (g : World.GameEffect)
    (hg : ∀ cid c, P cid c → P cid (World.keepIdentity c (g.chars cid c))) : Kept J P Q (w.game g) := by
  refine List.foldlRecOn (motive := Kept J P Q) _ _ ?_ fun w hw m _ => hw.spawnMob hc m.1 m.2
  exact ⟨h.chars.evolve (.mapVals _ hg _) fun _ _ _ hR => hR, h.players, h.file⟩

/-- **The steps of a shard keep what is carried.** -/
theorem Kept.shardStep {w w' : World Raw} {m : ShardMove Auth} (h : Kept J P Q w) (hc : Carries Raw P Q)
    (hgame : ∀ g, m = .game g → ∀ cid c, P cid c → P cid (World.keepIdentity c (g.chars cid c)))
    (hlink : ∀ clean saveOk readOk rooms, m ≠ .relink clean saveOk readOk rooms)
    (hs : shardStep J A w m = some w') : Kept J P Q w' := by
  have hcomposes := hc.roams.toComposes
  cases m with
  | attach saveOk O req => cases hs; exact h.attach hc O saveOk req
  | detach saveOk O session => cases hs; exact h.detachSession hc O saveOk session
  | input O session line =>
    obtain ⟨⟨p, cmd⟩, -, rfl⟩ := Option.map_eq_some_iff.mp hs
    exact h.evolve (runParty_walked hcomposes O _ session p cmd)
  | drop O session cid => exact h.evolve (sessionsDrop_walked hcomposes hs)
  | killMob O cid => exact h.evolve (killMob_walked hcomposes hs)
  | game g => cases hs; exact h.game hc g (hgame g rfl)
  | relink clean saveOk readOk rooms => exact absurd rfl (hlink clean saveOk readOk rooms)

/-- **The moves without fights keep what is carried.** -/
theorem Kept.realm {r r' : Realm Raw} {m : RealmMove Auth} (h : Kept J P Q r.world)
    (hc : Carries Raw P Q) (hpeace : m.isPeaceful = true) (hs : r.step J A m = some r') :
    Kept J P Q r'.world := by
  cases m with
  | shard m =>
    have hview : Kept J P Q { r.world with rooms := r.rooms.view } := ⟨h.chars, h.players, h.file⟩
    simp only [Realm.step, Option.ite_none_right_eq_some, Option.map_eq_some_iff] at hs
    obtain ⟨-, w, hw, rfl⟩ := hs
    refine hview.shardStep hc (fun g hg => ?_) (fun clean saveOk readOk rooms hm => ?_) hw
    · subst hg; cases hpeace
    · subst hm; cases hpeace
  | going session g =>
    simp only [Realm.step, Option.ite_none_left_eq_some] at hs
    exact h.evolve (go_walked hc.roams hs.2)
  | buildNext pid => exact h.evolve (buildNext_walked hc.roams hs)
  | mobWander mob idx => exact h.evolve (mobWander_walked hc.roams hs)
  | effect e => cases hpeace
  | damage attacker target dmg => cases hpeace
  | relink clean saveOk readOk => cases hpeace

/-- What a world starts with is what the file has. -/
theorem Kept.new (readOk : Bool) (rooms : Rooms) {file : Option Raw}
    (hfile : ∀ s, InFile J file s → Q s) : Kept J P Q (World.new J readOk rooms file) where
  chars := .empty
  players _ s hs := hfile s (loadPlayerSnapshots_spec hs).2
  file := hfile

/-- The snapshots that `persist_live_players` takes. -/
def World.liveSnapshots (w : World Raw) : List PlayerSnapshot :=
  (Table.values w.chars).filterMap PlayerSnapshot.fromCharacter

theorem persistLivePlayers_eq (w : World Raw) (saveOk : Bool) :
    w.persistLivePlayers J saveOk
      = { w with
          players := Table.fileAll PlayerSnapshot.principal w.players w.liveSnapshots
        }.persistPlayerSnapshots J saveOk := rfl

theorem Kept.persistLivePlayers {w : World Raw} (h : Kept J P Q w) (hc : Carries Raw P Q)
    (saveOk : Bool) : Kept J P Q (w.persistLivePlayers J saveOk) := by
  rw [persistLivePlayers_eq]
  have hsnaps : ∀ s ∈ w.liveSnapshots, Q s := by
    intro s hs
    obtain ⟨c, hmem, hsnap⟩ := List.mem_filterMap.mp hs
    obtain ⟨cid, hlook⟩ := Table.mem_values.mp hmem
    exact hc.saved (h.chars cid c hlook) hsnap
  have hplayers : All (fun _ => Q) (fileAll PlayerSnapshot.principal w.players w.liveSnapshots) :=
    List.foldlRecOn (motive := All fun _ => Q) _ _ h.players
      fun _ hm s hs => hm.insert (hsnaps s hs)
  have hfiled : Kept J P Q { w with
      players := fileAll PlayerSnapshot.principal w.players w.liveSnapshots } :=
    ⟨h.chars, hplayers, h.file⟩
  exact hfiled.persist saveOk

end Slopmud.Shard
