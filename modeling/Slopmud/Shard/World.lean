import Slopmud.Lib.Word
import Slopmud.Shard.Character

/-!
# The shard world

`World` of `shard_01`, as far as sessions, characters, parties and saved players
go. Snapshots are keyed by principal, characters by id; a session controls the
characters it attached. Every save rewrites the whole players file, and a save
that fails is only logged.
-/

namespace Slopmud.Shard

abbrev PartyId := Nat

structure Party where
  id : PartyId
  leader : CharacterId
  members : Finset CharacterId
deriving DecidableEq

structure PartyInvite where
  partyId : PartyId
  inviter : CharacterId
  /-- Soft expiry (best-effort). -/
  expiresMs : Nat
deriving DecidableEq, Repr

inductive PendingConfirm where
  | botOn (cid : CharacterId)
deriving DecidableEq, Repr

structure SessionState where
  controlled : List CharacterId
  active : CharacterId
  pendingConfirm : Option PendingConfirm
deriving DecidableEq, Repr

structure Rooms where
  ids : List Text
  startRoom : Text
deriving DecidableEq, Repr

def Rooms.hasRoom (r : Rooms) (id : Text) : Bool := id ∈ r.ids

/-- Iteration over a hash set starts anywhere, but inside the set. -/
structure SetOrder where
  first : Finset CharacterId → CharacterId
  first_mem : ∀ s : Finset CharacterId, s.Nonempty → first s ∈ s

structure World (Raw : Type) where
  rooms : Rooms
  sessions : Table SessionId SessionState
  chars : Table CharacterId Character
  occupants : Table Text (Finset CharacterId)
  parties : Table PartyId Party
  /-- Invitee to invite. -/
  partyInvites : Table CharacterId PartyInvite
  nextPartyId : PartyId
  /-- Member to party. -/
  partyOf : Table CharacterId PartyId
  nextCharId : CharacterId
  nowMs : Nat
  raftWatch : Finset CharacterId
  /-- Principal to snapshot. -/
  players : Table Text PlayerSnapshot
  /-- The content of the file at `players_path`; `none` when there is no such file. -/
  file : Option Raw

variable {Raw : Type} (J : Codec Raw (List PlayerSnapshot))

/-! ## Saved players -/

/-- The body of the loop of `load_player_snapshots`. -/
def loadPlayerSnapshot (out : Table Text PlayerSnapshot) (s : PlayerSnapshot) :
    Table Text PlayerSnapshot :=
  if (Text.trim s.principal).isEmpty then out else out.insert s.principal s

/-- `load_player_snapshots`. Whatever cannot be read or parsed counts as empty. -/
def loadPlayerSnapshots (readOk : Bool) (file : Option Raw) : Table Text PlayerSnapshot :=
  match (if readOk then file else none).bind J.parse with
  | none => ∅
  | some v => v.foldl loadPlayerSnapshot ∅

/-- `a.principal.cmp(&b.principal).then(a.name.cmp(&b.name))` -/
def PlayerSnapshot.le (a b : PlayerSnapshot) : Bool :=
  decide (a.principal < b.principal) || (a.principal == b.principal && decide (a.name ≤ b.name))

namespace World

def new (readOk : Bool) (rooms : Rooms) (file : Option Raw) : World Raw where
  rooms := rooms
  sessions := ∅
  chars := ∅
  occupants := ∅
  parties := ∅
  partyInvites := ∅
  nextPartyId := 1
  partyOf := ∅
  nextCharId := 1
  nowMs := 0
  raftWatch := ∅
  players := loadPlayerSnapshots J readOk file
  file := file

/-- `persist_player_snapshots`: write a temporary file and rename it over the old one. -/
def persistPlayerSnapshots (saveOk : Bool) (w : World Raw) : World Raw :=
  if saveOk then
    { w with file := some (J.print ((Table.values w.players).mergeSort PlayerSnapshot.le)) }
  else w

def rememberPlayer (saveOk : Bool) (w : World Raw) (c : Character) : World Raw :=
  match PlayerSnapshot.fromCharacter c with
  | none => w
  | some snapshot =>
    { w with players := w.players.insert snapshot.principal snapshot }.persistPlayerSnapshots J saveOk

def rememberPlayerById (saveOk : Bool) (w : World Raw) (cid : CharacterId) : World Raw :=
  match w.chars.lookup cid with
  | none => w
  | some c => w.rememberPlayer J saveOk c

def persistLivePlayers (saveOk : Bool) (w : World Raw) : World Raw :=
  let snapshots := (Table.values w.chars).filterMap PlayerSnapshot.fromCharacter
  let players := snapshots.foldl (fun m (s : PlayerSnapshot) => m.insert s.principal s) w.players
  { w with players }.persistPlayerSnapshots J saveOk

/-! ## Rooms and sessions -/

def addOccupant (w : World Raw) (roomId : Text) (cid : CharacterId) : World Raw :=
  { w with occupants := w.occupants.insert roomId (insert cid ((w.occupants.lookup roomId).getD ∅)) }

def removeOccupant (w : World Raw) (roomId : Text) (cid : CharacterId) : World Raw :=
  match w.occupants.lookup roomId with
  | none => w
  | some s =>
    let s := s.erase cid
    if s = ∅ then { w with occupants := w.occupants.erase roomId }
    else { w with occupants := w.occupants.insert roomId s }

/-- `self.sessions.entry(session).or_insert(..)`, then the new character becomes the active one. -/
def control (w : World Raw) (session : SessionId) (cid : CharacterId) : World Raw :=
  let ss := (w.sessions.lookup session).getD ⟨[], cid, none⟩
  let ss := { ss with controlled := ss.controlled ++ [cid], active := cid }
  { w with sessions := w.sessions.insert session ss }

/-! ## Parties -/

def partyCreate (w : World Raw) (leader : CharacterId) : PartyId × World Raw :=
  let pid := w.nextPartyId
  (pid, { w with
    nextPartyId := Word.satAdd64 w.nextPartyId 1
    parties := w.parties.insert pid { id := pid, leader, members := {leader} }
    partyOf := w.partyOf.insert leader pid })

def partyLeave (O : SetOrder) (w : World Raw) (cid : CharacterId) : World Raw :=
  match w.partyOf.lookup cid with
  | none => w
  | some pid =>
    let w := { w with partyOf := w.partyOf.erase cid }
    match w.parties.lookup pid with
    | none => w
    | some p =>
      let members := p.members.erase cid
      if members = ∅ then { w with parties := w.parties.erase pid }
      else
        -- if leader left, promote an arbitrary remaining member
        let leader := if p.leader = cid then O.first members else p.leader
        { w with parties := w.parties.insert pid { p with leader, members } }

def partyDisband (w : World Raw) (pid : PartyId) : World Raw :=
  match w.parties.lookup pid with
  | none => w
  | some p => { w with
      parties := w.parties.erase pid
      partyOf := w.partyOf.retain fun c _ => decide (c ∉ p.members)
      partyInvites := w.partyInvites.retain fun _ inv => inv.partyId != pid }

/-- The one element of a list: `None` when there is none, or more than one. -/
def uniqueOf : List CharacterId → Option CharacterId
  | [c] => some c
  | _ => none

theorem mem_of_uniqueOf {l : List CharacterId} {c : CharacterId} (h : uniqueOf l = some c) :
    c ∈ l := by
  unfold uniqueOf at h
  split at h
  · cases h; simp
  · cases h

/-- The ids of the players' characters whose lower-case name meets `p`. -/
def playersNamed (w : World Raw) (p : Text → Bool) : List CharacterId :=
  ((Table.values w.chars).filter fun c =>
    c.controller.isSome && p (Text.toAsciiLowercase c.name)).map Character.id

def findPlayerByPrefix (w : World Raw) (token : Text) : Option CharacterId :=
  let t := Text.toAsciiLowercase (Text.trim token)
  if t.isEmpty then none
  else
    -- prefer an exact match to avoid ambiguity when multiple names share a prefix
    match w.playersNamed (· == t) with
    | [] => uniqueOf (w.playersNamed t.isPrefixOf)
    | exact => uniqueOf exact

/-! ## Spawning, restoring and removing characters -/

def invAdd (inv : Table Text Nat) (item : Text) (n : Nat) : Table Text Nat :=
  inv.insert item (Word.satAdd32 ((inv.lookup item).getD 0) n)

/-- What the broker asks for when it attaches a session. -/
structure Build where
  name : Text
  isBot : Bool
  race : Race
  cls : Class
  sex : Sex
  pronouns : PronounKey
deriving DecidableEq, Repr

def newCharacter (w : World Raw) (controller : SessionId) (principal : Text)
    (authCaps : List Capability) (b : Build) : Character :=
  let stats := assignCoreStatsForClass b.cls
  let maxHp := max (computeMaxHp b.cls stats) 1
  let maxMana := max (computeMaxMana b.cls stats 1) 0
  let maxStamina := max (computeMaxStamina b.cls stats 1) 0
  { id := w.nextCharId
    controller := some controller
    createdBy := some controller
    name := b.name
    principal
    authCaps
    isBot := b.isBot
    botEver := b.isBot
    botEverSinceMs := if b.isBot then some w.nowMs else none
    botModeChangedMs := w.nowMs
    friends := ∅
    roomId := w.rooms.startRoom
    autoassist := true
    followLeader := false
    drinkLevel := 0
    gold := 0
    -- starter kit (size-based)
    inv := (starterKitForSize b.race.size).foldl (fun inv e => invAdd inv e.1 e.2) ∅
    quest := ∅
    cls := some b.cls
    level := 1
    xp := 0
    skillPoints := 0
    skills := ∅
    skillCdMs := ∅
    race := some b.race
    sex := b.sex
    pronouns := b.pronouns
    stats
    hp := maxHp
    maxHp
    mana := maxMana
    maxMana
    stamina := maxStamina
    maxStamina
    lastManaRegenMs := w.nowMs
    lastStaminaRegenMs := w.nowMs
    pvpEnabled := false
    stunnedUntilMs := 0
    combat := .new w.nowMs
    equip := ∅ }

def restoredCharacter (w : World Raw) (controller : SessionId) (s : PlayerSnapshot)
    (principal : Text) (authCaps : List Capability) : Character :=
  let sex := (Sex.parse s.sex).getD .none
  { id := w.nextCharId
    controller := some controller
    createdBy := some controller
    name := s.name
    principal
    authCaps
    isBot := s.isBot
    botEver := s.botEver
    botEverSinceMs := s.botEverSinceMs
    botModeChangedMs := s.botModeChangedMs
    friends := s.friends.toFinset
    roomId := if w.rooms.hasRoom s.roomId then s.roomId else w.rooms.startRoom
    autoassist := s.autoassist
    followLeader := s.followLeader
    drinkLevel := s.drinkLevel
    gold := s.gold
    inv := s.inv
    quest := s.quest
    cls := some ((Class.parse s.cls).getD .fighter)
    level := max s.level 1
    xp := s.xp
    skillPoints := s.skillPoints
    skills := s.skills
    skillCdMs := ∅
    race := some ((Race.parse s.race).getD .human)
    sex
    pronouns := (PronounKey.parse s.pronouns).getD (.defaultForSex sex)
    stats := s.stats
    hp := min (max s.hp 1) (max s.maxHp 1)
    maxHp := max s.maxHp 1
    mana := min (max s.mana 0) (max s.maxMana 0)
    maxMana := max s.maxMana 0
    stamina := min (max s.stamina 0) (max s.maxStamina 0)
    maxStamina := max s.maxStamina 0
    lastManaRegenMs := w.nowMs
    lastStaminaRegenMs := w.nowMs
    pvpEnabled := s.pvpEnabled
    stunnedUntilMs := 0
    combat := .new w.nowMs
    equip := loadEquip s.equip }

/-- Put a new character into the world, under the control of a session. -/
def enter (w : World Raw) (session : SessionId) (c : Character) : World Raw :=
  ({ w with
      nextCharId := Word.satAdd64 w.nextCharId 1
      chars := w.chars.insert c.id c }.addOccupant c.roomId c.id).control session c.id

def spawnCharacter (w : World Raw) (session : SessionId) (principal : Text)
    (authCaps : List Capability) (b : Build) : World Raw :=
  w.enter session (w.newCharacter session principal authCaps b)

def restoreCharacter (w : World Raw) (session : SessionId) (s : PlayerSnapshot) (principal : Text)
    (authCaps : List Capability) : World Raw :=
  w.enter session (w.restoredCharacter session s principal authCaps)

def spawnOrRestoreCharacter (w : World Raw) (session : SessionId) (principal : Text)
    (authCaps : List Capability) (b : Build) : CharacterId × World Raw :=
  match w.players.lookup principal with
  | some snapshot => (w.nextCharId, w.restoreCharacter session snapshot principal authCaps)
  | none => (w.nextCharId, w.spawnCharacter session principal authCaps b)

def newMob (w : World Raw) (roomId name : Text) : Character where
  id := w.nextCharId
  controller := none
  createdBy := none
  name := name
  principal := "mob:".toList
  authCaps := []
  isBot := false
  botEver := false
  botEverSinceMs := none
  botModeChangedMs := w.nowMs
  friends := ∅
  roomId := roomId
  autoassist := false
  followLeader := false
  drinkLevel := 0
  gold := 0
  inv := ∅
  quest := ∅
  cls := none
  level := 1
  xp := 0
  skillPoints := 0
  skills := ∅
  skillCdMs := ∅
  race := none
  sex := .none
  pronouns := .they
  stats := .baseline
  hp := 1
  maxHp := 1
  mana := 0
  maxMana := 0
  stamina := 0
  maxStamina := 0
  lastManaRegenMs := w.nowMs
  lastStaminaRegenMs := w.nowMs
  pvpEnabled := false
  stunnedUntilMs := 0
  combat := .new w.nowMs
  equip := ∅

def spawnMob (w : World Raw) (roomId name : Text) : World Raw :=
  let c := w.newMob roomId name
  { w with
    nextCharId := Word.satAdd64 w.nextCharId 1
    chars := w.chars.insert c.id c }.addOccupant roomId c.id

def removeChar (O : SetOrder) (w : World Raw) (cid : CharacterId) : World Raw :=
  let w := { w with partyInvites := w.partyInvites.erase cid }.partyLeave O cid
  match w.chars.lookup cid with
  | none => w
  | some c => { w with chars := w.chars.erase cid }.removeOccupant c.roomId cid

/-- The body of the loop of `detach_session`. -/
def detachOne (O : SetOrder) (saveOk : Bool) (w : World Raw) (cid : CharacterId) : World Raw :=
  let w := { w with
    raftWatch := w.raftWatch.erase cid
    partyInvites := w.partyInvites.erase cid }.partyLeave O cid
  match w.chars.lookup cid with
  | none => w
  | some c =>
    ({ w with chars := w.chars.erase cid }.rememberPlayer J saveOk c).removeOccupant c.roomId cid

def detachSession (O : SetOrder) (saveOk : Bool) (w : World Raw) (session : SessionId) :
    World Raw :=
  match w.sessions.lookup session with
  | none => w
  | some ss =>
    ss.controlled.foldl (detachOne J O saveOk) { w with sessions := w.sessions.erase session }

/-! ## What an operation leaves alone -/

theorem persistPlayerSnapshots_frame (saveOk : Bool) (w : World Raw) :
    ∃ file, w.persistPlayerSnapshots J saveOk = { w with file } := by
  unfold persistPlayerSnapshots
  split
  · exact ⟨_, rfl⟩
  · exact ⟨w.file, rfl⟩

theorem rememberPlayer_frame (saveOk : Bool) (w : World Raw) (c : Character) :
    ∃ players file, w.rememberPlayer J saveOk c = { w with players, file } := by
  unfold rememberPlayer
  cases PlayerSnapshot.fromCharacter c with
  | none => exact ⟨w.players, w.file, rfl⟩
  | some snapshot =>
    obtain ⟨file, h⟩ := persistPlayerSnapshots_frame J saveOk
      { w with players := w.players.insert snapshot.principal snapshot }
    exact ⟨_, file, h⟩

theorem rememberPlayerById_frame (saveOk : Bool) (w : World Raw) (cid : CharacterId) :
    ∃ players file, w.rememberPlayerById J saveOk cid = { w with players, file } := by
  unfold rememberPlayerById
  cases w.chars.lookup cid with
  | none => exact ⟨w.players, w.file, rfl⟩
  | some c => exact rememberPlayer_frame J saveOk w c

theorem removeOccupant_frame (w : World Raw) (roomId : Text) (cid : CharacterId) :
    ∃ occupants, w.removeOccupant roomId cid = { w with occupants } := by
  unfold removeOccupant
  cases w.occupants.lookup roomId with
  | none => exact ⟨w.occupants, rfl⟩
  | some s =>
    simp only
    split
    · exact ⟨_, rfl⟩
    · exact ⟨_, rfl⟩

theorem partyLeave_frame (O : SetOrder) (w : World Raw) (cid : CharacterId) :
    ∃ partyOf parties, w.partyLeave O cid = { w with partyOf, parties } := by
  unfold partyLeave
  cases w.partyOf.lookup cid with
  | none => exact ⟨w.partyOf, w.parties, rfl⟩
  | some pid =>
    simp only
    cases w.parties.lookup pid with
    | none => exact ⟨_, w.parties, rfl⟩
    | some p =>
      simp only
      split
      · exact ⟨_, _, rfl⟩
      · exact ⟨_, _, rfl⟩

end World

end Slopmud.Shard
