import Slopmud.Shard.Commands
import Slopmud.Shard.ProtoAdventure

/-!
# Moving through the rooms

The world of `shard_01` together with its rooms: everything that puts a character into a room,
and everything that makes rooms or takes them away. Rooms that are cleared are evacuated first.
The rooms of a party run are built one by one, an event for each, and the party is moved in by
the last of these events.
-/

namespace Slopmud.Shard

/-- `ROOM_TOWN_GATE` -/
def roomTownGate : Text := "R_TOWN_GATE_01".toList

/-- `ROOM_SCHOOL_ORIENTATION` -/
def roomSchoolOrientation : Text := "R_NS_ORIENT_01".toList

/-- `graveyard_room_id` -/
def graveyardRoomId : Text := "R_TOWN_GRAVEYARD_01".toList

/-- `is_built` -/
def Character.isBuilt (c : Character) : Bool := c.race.isSome && c.cls.isSome

structure PartyBuildPlan where
  instancePrefix : Text
  /-- Those still to be built, the next one last. -/
  rooms : List (Text × RoomDef)
  startRoom : Text
deriving DecidableEq, Repr

/-- The world and its rooms. Of the events that are due only the building of rooms matters here. -/
structure Realm (Raw : Type) where
  world : World Raw
  rooms : RoomMap
  partyBuilds : Table PartyId PartyBuildPlan
  /-- `PartyBuildNext` for each of these parties. -/
  events : List PartyId

variable {Raw : Type}

namespace World

def setRoom (w : World Raw) (cid : CharacterId) (roomId : Text) : World Raw :=
  match w.chars.lookup cid with
  | none => w
  | some c => { w with chars := w.chars.insert cid { c with roomId } }

/-- Update the occupancy of both rooms, and the character. -/
def relocate (w : World Raw) (src dest : Text) (cid : CharacterId) : World Raw :=
  ((w.removeOccupant src cid).addOccupant dest cid).setRoom cid dest

/-- The character that a session plays. -/
def activeChar (w : World Raw) (session : SessionId) : Option (CharacterId × Character) := do
  let ss ← w.sessions.lookup session
  let c ← w.chars.lookup ss.active
  some (ss.active, c)

/-- A question is put to the session, and its next line is the answer. -/
def answering (w : World Raw) (session : SessionId) : Bool :=
  ((w.sessions.lookup session).bind SessionState.pendingConfirm).isSome

/-- The characters of a set. -/
def present (w : World Raw) (s : Finset CharacterId) : List CharacterId :=
  w.chars.keys.filter (· ∈ s)

/-- The body of the loop of `evacuate_rooms_with_prefix`. -/
def evacuateRoom (dest : Text) (w : World Raw) (rid : Text) : World Raw :=
  match w.occupants.lookup rid with
  | none => w
  | some cids => (w.present cids).foldl (fun w cid => (w.addOccupant dest cid).setRoom cid dest)
      { w with occupants := w.occupants.erase rid }

def evacuateRoomsWithPrefix (w : World Raw) (pre dest : Text) : World Raw :=
  (w.occupants.keys.filter fun rid => (pre ++ ['.']).isPrefixOf rid).foldl (evacuateRoom dest) w

/-- Whoever comes along when the leader of a party leaves the room `src`. -/
def followers (w : World Raw) (cid : CharacterId) (src : Text) : List CharacterId :=
  match (w.partyOf.lookup cid).bind w.parties.lookup with
  | none => []
  | some party =>
    if party.leader = cid then
      w.chars.entries.filterMap fun e =>
        if e.1 ∈ party.members ∧ e.1 ≠ cid ∧ e.2.controller.isSome ∧ e.2.roomId = src
            ∧ e.2.followLeader = true then some e.1 else none
    else []

end World

namespace Realm

/-- The exit that somebody is let through. -/
def wayOut (rooms : RoomMap) (p : Character) (token : Text) : Option ExitDef := do
  let ex ← rooms.findExit p.roomId token
  -- whoever is not built stays in the orientation room, or goes back to it
  if p.isBuilt = false ∧ (p.roomId = roomSchoolOrientation ∨ ex.dest ≠ roomSchoolOrientation) then none
  else if (ex.gate.map (evalGateExpr p.quest)).getD true = false then none
  -- a sealed exit can be opened by a gate
  else if ex.isSealed = true ∧ ex.gate.isNone then none
  else if rooms.hasRoom ex.dest = false then none
  else some ex

/-- `try_move`, with the followers -/
def tryMove (r : Realm Raw) (session : SessionId) (token : Text) : Option (Realm Raw) := do
  let (cid, p) ← r.world.activeChar session
  let ex ← wayOut r.rooms p token
  let w := r.world.relocate p.roomId ex.dest cid
  let w := (w.followers cid p.roomId).foldl (fun w mid => w.relocate p.roomId ex.dest mid) w
  some { r with world := w }

/-- `teleport_to`. The same realm when there is no such room, or nobody to move. -/
def teleportTo (r : Realm Raw) (session : SessionId) (dest : Text) : Realm Raw :=
  match r.world.activeChar session with
  | none => r
  | some (cid, p) =>
    if r.rooms.hasRoom dest then { r with world := r.world.relocate p.roomId dest cid } else r

/-- Where the characters in rooms that are about to go are put. -/
def evacTo (r : Realm Raw) : Text :=
  if r.rooms.hasRoom roomTownGate then roomTownGate else r.rooms.startRoom

/-- Evacuate the rooms of an instance, then clear them. -/
def clearInstance (r : Realm Raw) (pre : Text) : Realm Raw :=
  { r with
    world := r.world.evacuateRoomsWithPrefix pre r.evacTo
    rooms := r.rooms.clearDynRoomsWithPrefix pre }

def insertRooms (m : RoomMap) (rooms : List (Text × RoomDef)) : RoomMap :=
  rooms.foldl (fun m e => m.insertRoom e.1 e.2) m

/-- `a-z0-9-_` -/
def isAdventureIdChar (c : Char) : Bool :=
  Text.isAsciiLowercase c || Text.isAsciiDigit c || c == '-' || c == '_'

def protoPrefix (id : Text) : Text := "proto.".toList ++ id

/-- `load_protoadventure`, with the content of the adventure's file, if it can be read -/
def loadProtoadventure (r : Realm Raw) (id : Text) (md : Option Text) : Option (Text × Realm Raw) := do
  let id := Text.trim id
  if id.isEmpty || !id.all isAdventureIdChar then none
  else
    let md ← md
    let plan := ProtoAdventure.parse id md
    let rooms := ProtoAdventure.instantiateRooms (protoPrefix id) plan
    if rooms.isEmpty then none
    else
      let r := r.clearInstance (protoPrefix id)
      some (ProtoAdventure.instanceId (protoPrefix id) plan.startRoom,
        { r with rooms := insertRooms r.rooms rooms })

/-- The line `proto <adventure_id>`. -/
def proto (r : Realm Raw) (session : SessionId) (line : Text) (md : Option Text) :
    Option (Realm Raw) := do
  let line := Text.trim line
  let rest ← Text.stripPrefix "proto ".toList line
  if Text.toAsciiLowercase line ∈ ["proto list".toList, "proto exit".toList] then none
  else
    let id := Text.toAsciiLowercase (Text.trim rest)
    let id := (Text.stripSuffix ".md".toList id).getD id
    let (start, r) ← r.loadProtoadventure id md
    some (r.teleportTo session start)

/-! ## Party runs -/

def partyPrefix (pid : PartyId) : Text := "inst.p".toList ++ Nat.toDigits 10 pid

/-- The run that a line `party run <adventure>` starts: the party of the one who leads it, and
the name of the adventure. -/
def partyRun? (r : Realm Raw) (session : SessionId) (line : Text) : Option (PartyId × Text) := do
  let (_, p) ← r.world.activeChar session
  let rest ← Text.stripPrefix "party run ".toList (Text.toAsciiLowercase (Text.trim line))
  let adventure := Text.trim rest
  if adventure.isEmpty then none
  else
    let pid ← r.world.partyOf.lookup p.id
    let party ← r.world.parties.lookup pid
    if party.leader ≠ p.id ∨ (r.partyBuilds.lookup pid).isSome then none
    else
      let aid := (Text.stripSuffix ".md".toList adventure).getD adventure
      if Text.contains "/".toList aid || Text.contains "..".toList aid || (Text.trim aid).isEmpty then none
      else some (pid, aid)

/-- `party run`, with the content of the adventure's file, if it can be read -/
def partyRun (r : Realm Raw) (session : SessionId) (line : Text) (md : Option Text) :
    Option (Realm Raw) := do
  let (pid, aid) ← r.partyRun? session line
  let md ← md
  let plan := ProtoAdventure.parse aid md
  let r := r.clearInstance (partyPrefix pid)
  some { r with
    partyBuilds := r.partyBuilds.insert pid {
      instancePrefix := partyPrefix pid
      -- built in the order of the text, from the end
      rooms := (ProtoAdventure.instantiateRooms (partyPrefix pid) plan).reverse
      startRoom := ProtoAdventure.instanceId (partyPrefix pid) plan.startRoom }
    events := pid :: r.events }

/-- Move a whole party into a room. -/
def gather (w : World Raw) (members : List CharacterId) (dest : Text) : World Raw :=
  members.foldl (fun w mid =>
    match w.chars.lookup mid with
    | none => w
    | some c => w.relocate c.roomId dest mid) w

/-- `EventKind::PartyBuildNext`: build a room, or move the party in when there are none left. -/
def buildNext (r : Realm Raw) (pid : PartyId) : Option (Realm Raw) :=
  if pid ∈ r.events then
    let r := { r with events := r.events.erase pid }
    match r.partyBuilds.lookup pid with
    | none => some r
    | some plan =>
      match plan.rooms.getLast? with
      | some (rid, d) => some { r with
          rooms := r.rooms.insertRoom rid d
          partyBuilds := r.partyBuilds.insert pid { plan with rooms := plan.rooms.dropLast }
          events := pid :: r.events }
      | none =>
        let members := ((r.world.parties.lookup pid).map fun p => r.world.present p.members).getD []
        some { r with
          partyBuilds := r.partyBuilds.erase pid
          world := gather r.world members plan.startRoom }
  else none

/-! ## Mobs and deaths -/

/-- `EventKind::MobWander`, by the exit that is drawn -/
def mobWander (r : Realm Raw) (mob : CharacterId) (idx : Nat) : Option (Realm Raw) := do
  let m ← r.world.chars.lookup mob
  if m.controller.isSome then none
  else
    let exits := (r.rooms.exitsRaw m.roomId).filter fun e => r.rooms.hasRoom e.dest
    let ex ← exits[idx % exits.length]?
    some { r with world := r.world.relocate m.roomId ex.dest mob }

/-- `send_to_graveyard` -/
def sendToGraveyard (r : Realm Raw) (cid : CharacterId) : Realm Raw :=
  match r.world.chars.lookup cid with
  | none => r
  | some c =>
    let dest := if r.rooms.hasRoom graveyardRoomId then graveyardRoomId else r.rooms.startRoom
    let w := (r.world.removeOccupant c.roomId cid).addOccupant dest cid
    { r with world := { w with chars := w.chars.insert cid { c with
        roomId := dest
        hp := max c.maxHp 1
        combat := { c.combat with autoattack := false, target := none } } } }

/-- `apply_damage_to_player` -/
def applyDamageToPlayer (r : Realm Raw) (attacker target : CharacterId) (dmg : Int) :
    Option (Realm Raw) := do
  let att ← r.world.chars.lookup attacker
  let tgt ← r.world.chars.lookup target
  if tgt.controller.isNone ∨ att.roomId ≠ tgt.roomId then none
  else
    let r := { r with
      world := { r.world with chars := r.world.chars.insert target { tgt with hp := tgt.hp - dmg } } }
    some (if tgt.hp - dmg ≤ 0 then r.sendToGraveyard target else r)

/-! ## Runs -/

/-- What other commands and timers do leaves everybody where they are. -/
structure Effect where
  chars : CharacterId → Character → Character
  mobs : List (Text × Text)
  raftWatch : Finset CharacterId
  pendingConfirm : SessionId → Option PendingConfirm
  nowMs : Nat

def effect (r : Realm Raw) (e : Effect) : World Raw :=
  r.world.game {
    chars := fun cid c => { e.chars cid c with roomId := c.roomId }
    mobs := e.mobs
    rooms := r.rooms.view
    occupants := r.world.occupants
    raftWatch := e.raftWatch
    pendingConfirm := e.pendingConfirm
    nowMs := e.nowMs }

end Realm

/-- The moves of the shard that are about sessions and parties, and the deaths of mobs. -/
def ShardMove.isLocal {Auth : Type} : ShardMove Auth → Bool
  | .attach .. | .detach .. | .input .. | .drop .. | .killMob .. => true
  | .game .. | .relink .. => false

/-- The lines that move their own session's character, or make rooms. -/
inductive Going where
  /-- An exit, by its name or after `go`. -/
  | tryMove (token : Text)
  /-- `warp <room_id>`, and `proto exit`, for the town gate. -/
  | teleport (dest : Text)
  | proto (line : Text) (md : Option Text)
  | partyRun (line : Text) (md : Option Text)
deriving DecidableEq, Repr

/-- The moves of a run. A line that is refused is no move, and neither is what only writes. -/
inductive RealmMove (Auth : Type) where
  | shard (m : ShardMove Auth)
  | effect (e : Realm.Effect)
  | going (session : SessionId) (g : Going)
  | buildNext (pid : PartyId)
  | mobWander (mob : CharacterId) (idx : Nat)
  | damage (attacker target : CharacterId) (dmg : Int)
  /-- The broker link ends, and the next one starts with a new world and no adventures. -/
  | relink (clean saveOk readOk : Bool)

variable {Auth : Type} (J : Codec Raw (List PlayerSnapshot)) (A : Codec Auth AuthBlob)

namespace Realm

def new (readOk : Bool) (rooms : RoomMap) (file : Option Raw) : Realm Raw where
  world := .new J readOk rooms.builtIn.view file
  rooms := rooms.builtIn
  partyBuilds := ∅
  events := []

def go (r : Realm Raw) (session : SessionId) : Going → Option (Realm Raw)
  | .tryMove token => r.tryMove session token
  | .teleport dest => some (r.teleportTo session dest)
  | .proto line md => r.proto session line md
  | .partyRun line md => r.partyRun session line md

def step (r : Realm Raw) : RealmMove Auth → Option (Realm Raw)
  | .shard m =>
    if m.isLocal then
      (shardStep J A { r.world with rooms := r.rooms.view } m).map fun world => { r with world }
    else none
  | .effect e => some { r with world := r.effect e }
  | .going session g => if r.world.answering session then none else r.go session g
  | .buildNext pid => r.buildNext pid
  | .mobWander mob idx => r.mobWander mob idx
  | .damage attacker target dmg => r.applyDamageToPlayer attacker target dmg
  | .relink clean saveOk readOk =>
    let w := if clean then r.world.persistLivePlayers J saveOk else r.world
    some (.new J readOk r.rooms w.file)

end Realm

end Slopmud.Shard
