import Slopmud.Proof.Keeping
import Slopmud.Proof.OneBody

/-!
# Nobody comes or goes

The moves that are neither of sessions nor of mobs that appear put characters elsewhere and hurt them.
Sessions play whom they played, and no id is given out: a principal that had one body has it still.
-/

namespace Slopmud.Shard

open Machine Table

variable {Raw Auth : Type} {J : Codec Raw (List PlayerSnapshot)} {A : Codec Auth AuthBlob}
variable {R : CharacterId → Character → Character → Prop}

/-- Sessions and ids are as they were, and whoever was there is there. -/
structure Stays (w w' : World Raw) : Prop where
  sessions : w'.sessions = w.sessions
  nextCharId : w'.nextCharId = w.nextCharId
  chars : ∀ cid c, w.chars.lookup cid = some c → ∃ c', w'.chars.lookup cid = some c'

namespace Stays

variable {w w' w'' : World Raw}

theorem refl (w : World Raw) : Stays w w := ⟨rfl, rfl, fun _ c hc => ⟨c, hc⟩⟩

theorem trans (h : Stays w w') (h' : Stays w' w'') : Stays w w'' where
  sessions := h'.sessions.trans h.sessions
  nextCharId := h'.nextCharId.trans h.nextCharId
  chars cid c hc := by
    obtain ⟨c', hc'⟩ := h.chars cid c hc
    exact h'.chars cid c' hc'

theorem foldl {α : Type} {f : World Raw → α → World Raw} (hstep : ∀ w a, Stays w (f w a)) (as : List α)
    (w : World Raw) : Stays w (as.foldl f w) := by
  induction as generalizing w with
  | nil => exact .refl w
  | cons a as ih => exact (hstep w a).trans (ih (f w a))

/-- One character is put in place of another. -/
theorem insert (hsessions : w'.sessions = w.sessions) (hnext : w'.nextCharId = w.nextCharId) {cid : CharacterId}
    {c : Character} (hchars : w'.chars = w.chars.insert cid c) : Stays w w' := by
  refine ⟨hsessions, hnext, fun cid' c' hc' => ?_⟩
  rw [hchars, lookup_insert_eq]
  split
  · exact ⟨c, rfl⟩
  · exact ⟨c', hc'⟩

end Stays

/-! ## Walking -/

theorem setRoom_stays (w : World Raw) (cid : CharacterId) (roomId : Text) : Stays w (w.setRoom cid roomId) := by
  unfold World.setRoom
  cases w.chars.lookup cid with
  | none => exact .refl w
  | some c => exact .insert rfl rfl rfl

theorem placed_stays (w : World Raw) (occupants : Table Text (Finset CharacterId)) (cid : CharacterId)
    (dest : Text) : Stays w ({ w with occupants }.setRoom cid dest) := by
  have hset := setRoom_stays { w with occupants } cid dest
  exact ⟨hset.sessions, hset.nextCharId, hset.chars⟩

theorem relocate_stays (w : World Raw) (src dest : Text) (cid : CharacterId) :
    Stays w (w.relocate src dest cid) := by
  unfold World.relocate
  obtain ⟨occupants, heq⟩ := World.removeOccupant_frame w src cid
  rw [heq]
  exact placed_stays w _ cid dest

theorem evacuate_stays (w : World Raw) (pre dest : Text) : Stays w (w.evacuateRoomsWithPrefix pre dest) := by
  refine .foldl (fun w rid => ?_) _ w
  unfold World.evacuateRoom
  split
  · exact .refl w
  · next cids _ =>
    have hstart : Stays w { w with occupants := w.occupants.erase rid } := ⟨rfl, rfl, fun _ c hc => ⟨c, hc⟩⟩
    exact hstart.trans (.foldl (fun w cid => placed_stays w _ cid dest) _ _)

section Realm

variable {r r' : Realm Raw}

theorem tryMove_stays {session : SessionId} {token : Text} (hs : r.tryMove session token = some r') :
    Stays r.world r'.world := by
  simp only [Realm.tryMove, Option.bind_eq_bind, Option.bind_eq_some_iff] at hs
  obtain ⟨⟨cid, p⟩, -, ex, -, hs⟩ := hs
  cases hs
  exact (relocate_stays _ _ _ _).trans (.foldl (fun w mid => relocate_stays w _ _ mid) _ _)

theorem teleportTo_stays (r : Realm Raw) (session : SessionId) (dest : Text) :
    Stays r.world (r.teleportTo session dest).world := by
  unfold Realm.teleportTo
  split
  · exact .refl _
  · split
    · exact relocate_stays _ _ _ _
    · exact .refl _

theorem proto_stays {session : SessionId} {line : Text} {md : Option Text}
    (hs : r.proto session line md = some r') : Stays r.world r'.world := by
  simp only [Realm.proto, Option.bind_eq_bind, Option.bind_eq_some_iff, Option.ite_none_left_eq_some] at hs
  obtain ⟨rest, -, -, ⟨start, r₁⟩, hload, hs⟩ := hs
  cases hs
  simp only [Realm.loadProtoadventure, Option.bind_eq_bind, Option.bind_eq_some_iff,
    Option.ite_none_left_eq_some] at hload
  obtain ⟨-, md, -, -, hload⟩ := hload
  cases hload
  refine Stays.trans ?_ (teleportTo_stays _ session _)
  exact evacuate_stays _ _ _

theorem partyRun_stays {session : SessionId} {line : Text} {md : Option Text}
    (hs : r.partyRun session line md = some r') : Stays r.world r'.world := by
  simp only [Realm.partyRun, Option.bind_eq_bind, Option.bind_eq_some_iff] at hs
  obtain ⟨⟨pid, aid⟩, -, md, -, hs⟩ := hs
  cases hs
  exact evacuate_stays _ _ _

theorem go_stays {session : SessionId} {g : Going} (hs : r.go session g = some r') : Stays r.world r'.world := by
  cases g with
  | tryMove token => exact tryMove_stays hs
  | teleport dest => cases hs; exact teleportTo_stays r session dest
  | proto line md => exact proto_stays hs
  | partyRun line md => exact partyRun_stays hs

theorem buildNext_stays {pid : PartyId} (hs : r.buildNext pid = some r') : Stays r.world r'.world := by
  have hgather : ∀ (members : List CharacterId) (dest : Text),
      Stays r.world (Realm.gather r.world members dest) := by
    refine fun members dest => .foldl (fun w mid => ?_) members r.world
    split
    · exact .refl w
    · exact relocate_stays w _ _ mid
  unfold Realm.buildNext at hs
  dsimp only at hs
  split at hs
  · split at hs
    · cases hs; exact .refl _
    · split at hs
      · cases hs; exact .refl _
      · cases hs; exact hgather _ _
  · cases hs

theorem mobWander_stays {mob : CharacterId} {idx : Nat} (hs : r.mobWander mob idx = some r') :
    Stays r.world r'.world := by
  simp only [Realm.mobWander, Option.bind_eq_bind, Option.bind_eq_some_iff,
    Option.ite_none_left_eq_some] at hs
  obtain ⟨m, -, -, ex, -, hs⟩ := hs
  cases hs
  exact relocate_stays _ _ _ _

/-! ## Blows -/

theorem sendToGraveyard_stays (r : Realm Raw) (cid : CharacterId) :
    Stays r.world (r.sendToGraveyard cid).world := by
  unfold Realm.sendToGraveyard
  cases r.world.chars.lookup cid with
  | none => exact .refl _
  | some c =>
    dsimp only
    obtain ⟨occupants, heq⟩ := World.removeOccupant_frame r.world c.roomId cid
    rw [heq]
    exact .insert rfl rfl rfl

theorem damage_stays {attacker target : CharacterId} {dmg : Int}
    (hs : r.applyDamageToPlayer attacker target dmg = some r') : Stays r.world r'.world := by
  simp only [Realm.applyDamageToPlayer, Option.bind_eq_bind, Option.bind_eq_some_iff,
    Option.ite_none_left_eq_some] at hs
  obtain ⟨att, -, tgt, -, -, hs⟩ := hs
  have hhurt : Stays r.world { r.world with
      chars := r.world.chars.insert target { tgt with hp := tgt.hp - dmg } } := .insert rfl rfl rfl
  cases hs
  split
  · exact hhurt.trans (sendToGraveyard_stays { r with world := _ } target)
  · exact hhurt

/-- Relations that allow a character to be elsewhere, and hurt. -/
structure Bears (R : CharacterId → Character → Character → Prop) : Prop extends Roams R where
  hurt : ∀ cid (c : Character) hp combat, R cid c { c with hp, combat }

theorem sendToGraveyard_walked (h : Bears R) (r : Realm Raw) (cid : CharacterId) :
    Walked R r.world (r.sendToGraveyard cid).world := by
  unfold Realm.sendToGraveyard
  cases hc : r.world.chars.lookup cid with
  | none => exact .refl h.toComposes _
  | some c =>
    dsimp only
    generalize (if r.rooms.hasRoom graveyardRoomId then graveyardRoomId else r.rooms.startRoom) = dest
    obtain ⟨occupants, heq⟩ := World.removeOccupant_frame r.world c.roomId cid
    rw [heq]
    refine ⟨.insert h.toComposes hc ?_, rfl, rfl, rfl⟩
    exact h.trans (h.room cid c dest) (h.hurt cid { c with roomId := dest } _ _)

theorem damage_walked (h : Bears R) {attacker target : CharacterId} {dmg : Int}
    (hs : r.applyDamageToPlayer attacker target dmg = some r') : Walked R r.world r'.world := by
  simp only [Realm.applyDamageToPlayer, Option.bind_eq_bind, Option.bind_eq_some_iff,
    Option.ite_none_left_eq_some] at hs
  obtain ⟨att, -, tgt, htgt, -, hs⟩ := hs
  have hhurt : Walked R r.world { r.world with
      chars := r.world.chars.insert target { tgt with hp := tgt.hp - dmg } } :=
    ⟨.insert h.toComposes htgt (h.hurt target tgt _ _), rfl, rfl, rfl⟩
  cases hs
  split
  · exact hhurt.trans h.toComposes (sendToGraveyard_walked h { r with world := _ } target)
  · exact hhurt

/-! ## Moves of the realm -/

/-- The moves that put characters elsewhere, or hurt them -/
def RealmMove.isMotion : RealmMove Auth → Bool
  | .going .. | .buildNext .. | .mobWander .. | .damage .. => true
  | .shard .. | .effect .. | .relink .. => false

theorem motion_stays {m : RealmMove Auth} (hmotion : m.isMotion = true) (hs : r.step J A m = some r') :
    Stays r.world r'.world := by
  cases m with
  | going session g =>
    simp only [Realm.step, Option.ite_none_left_eq_some] at hs
    exact go_stays hs.2
  | buildNext pid => exact buildNext_stays hs
  | mobWander mob idx => exact mobWander_stays hs
  | damage attacker target dmg => exact damage_stays hs
  | _ => cases hmotion

theorem motion_walked (h : Bears R) {m : RealmMove Auth} (hmotion : m.isMotion = true)
    (hs : r.step J A m = some r') : Walked R r.world r'.world := by
  cases m with
  | going session g =>
    simp only [Realm.step, Option.ite_none_left_eq_some] at hs
    exact go_walked h.toRoams hs.2
  | buildNext pid => exact buildNext_walked h.toRoams hs
  | mobWander mob idx => exact mobWander_walked h.toRoams hs
  | damage attacker target dmg => exact damage_walked h hs
  | _ => cases hmotion

end Realm

/-! ## Bodies -/

/-- Who somebody is -/
structure SamePerson (c c' : Character) : Prop where
  id : c'.id = c.id
  controller : c'.controller = c.controller
  principal : c'.principal = c.principal
  race : c'.race = c.race
  cls : c'.cls = c.cls

theorem SamePerson.refl (c : Character) : SamePerson c c := ⟨rfl, rfl, rfl, rfl, rfl⟩

theorem SamePerson.trans {c c' c'' : Character} (h : SamePerson c c') (h' : SamePerson c' c'') :
    SamePerson c c'' :=
  ⟨h'.id.trans h.id, h'.controller.trans h.controller, h'.principal.trans h.principal, h'.race.trans h.race,
    h'.cls.trans h.cls⟩

theorem SamePerson.isSome {c c' : Character} (h : SamePerson c c') :
    (PlayerSnapshot.fromCharacter c').isSome ↔ (PlayerSnapshot.fromCharacter c).isSome := by
  rw [fromCharacter_isSome, fromCharacter_isSome, h.race, h.cls]

/-- **Whoever stays keeps its body.** -/
theorem Embodied.stay {w w' : World Raw} (h : Embodied J w) (hstay : Stays w w') (hw : Walked R w w')
    (hR : ∀ cid c c', R cid c c' → SamePerson c c') : Embodied J w' := by
  have hback : ∀ cid c', w'.chars.lookup cid = some c' → ∃ c, w.chars.lookup cid = some c ∧ SamePerson c c' := by
    intro cid c' hc'
    obtain ⟨c, hc, hstep⟩ := hw.chars cid c' hc'
    exact ⟨c, hc, hR cid c c' hstep⟩
  constructor
  · intro cid c' hc'
    obtain ⟨c, hc, hsame⟩ := hback cid c' hc'
    rw [hsame.id, hstay.nextCharId]
    exact h.key cid c hc
  · intro sid ss hss
    rw [hstay.sessions] at hss
    obtain ⟨cid, c, hcontrolled, hc, hcontroller⟩ := h.plays sid ss hss
    obtain ⟨c', hc'⟩ := hstay.chars cid c hc
    obtain ⟨c₀, hc₀, hsame⟩ := hback cid c' hc'
    rw [hc] at hc₀
    cases hc₀
    exact ⟨cid, c', hcontrolled, hc', hsame.controller.trans hcontroller⟩
  · intro cid c' sid hc' hcontroller
    obtain ⟨c, hc, hsame⟩ := hback cid c' hc'
    rw [hsame.controller] at hcontroller
    rw [hstay.sessions]
    obtain ⟨hplays, hbuilt⟩ := h.played cid c sid hc hcontroller
    exact ⟨hplays, hsame.isSome.mpr hbuilt⟩
  · intro cid c' hc' hnone
    obtain ⟨c, hc, hsame⟩ := hback cid c' hc'
    rw [hsame.controller] at hnone
    have hmob := h.mob cid c hc hnone
    rw [← Option.not_isSome_iff_eq_none, hsame.isSome, hmob]
    simp
  · intro cid₁ cid₂ c₁' c₂' h₁ h₂ hp₁ hp₂ hprincipal
    obtain ⟨c₁, hc₁, hsame₁⟩ := hback cid₁ c₁' h₁
    obtain ⟨c₂, hc₂, hsame₂⟩ := hback cid₂ c₂' h₂
    rw [hsame₁.controller] at hp₁
    rw [hsame₂.controller] at hp₂
    rw [hsame₁.principal, hsame₂.principal] at hprincipal
    exact h.one cid₁ cid₂ c₁ c₂ hc₁ hc₂ hp₁ hp₂ hprincipal
  · rw [hw.players]
    exact h.saved
  · rw [hw.file]
    exact h.file

end Slopmud.Shard
