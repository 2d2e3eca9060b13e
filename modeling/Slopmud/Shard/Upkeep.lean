import Slopmud.Shard.Battle

/-!
# Upkeep

The scheduled work that is no fight: the bartender, who is looked for and who emotes, the worm of the
first fight, and the mobs of the class halls. Its events and those of fights are one queue in the
code, so that they share the clock and the counter, and the earliest of both is the next one.
-/

namespace Slopmud.Shard

/-! ## State -/

inductive UpkeepKind where
  | tick
  | ensureTavernMob
  | bartenderEmote
  | ensureFirstFightWorm
  | ensureClassHallMobs
deriving DecidableEq, Repr

structure UpkeepEvent where
  dueMs : Nat
  seq : Nat
  kind : UpkeepKind
deriving DecidableEq, Repr

/-- The earliest event, by `impl Ord for ScheduledEvent` -/
def UpkeepEvent.least : List UpkeepEvent → Option UpkeepEvent
  | [] => none
  | e :: es =>
    match least es with
    | none => some e
    | some f => some (if f.dueMs < e.dueMs ∨ f.dueMs = e.dueMs ∧ f.seq < e.seq then f else e)

structure Upkeep (Raw : Type) where
  /-- Its queue holds the events of fights, and its counter numbers all of them. -/
  battle : Battle Raw
  events : List UpkeepEvent
  bartenderId : Option CharacterId
  bartenderEmoteMs : Nat

def roomTavern : Text := "R_TOWN_TAVERN_01".toList

def roomSchoolFirstFight : Text := "R_NS_LABS_03".toList

/-- `CLASS_HALL_NPCS`, by the room that they are in -/
def classHallNpcs : List (Text × Text) :=
  [("barbarian", ["Krag Stonefury", "Warchief Una", "Rok Loud", "Mira Flint"]),
    ("bard", ["Caro Strings", "Maestra Jun", "Piper Vale", "Tess Chronicler"]),
    ("cleric", ["Sister Vell", "Canon Hara", "Brother Piers"]),
    ("druid", ["Iri Moss", "Grovecaller Olan", "Bracken", "Fern Watcher"]),
    ("fighter", ["Kera Forgefront", "Captain Rhune", "Sable Recruiter", "Holt Veteran"]),
    ("monk", ["Toma Quiethands", "Master Sen", "Ili Swift", "Pema Still"]),
    ("paladin", ["Rhea Sunsteel", "Justicar Hal", "Lumen Vowkeeper", "Alden Oathbound"]),
    ("ranger", ["Pine Flint", "Tracker Mae", "Jory Scout", "Kestrel Pathfinder"]),
    ("rogue", ["Lilt Fence", "Mistcut", "Nix", "Echo Glass"]),
    ("sorcerer", ["Nira Sparkglass", "Wildcaster Joss", "Fenn Unstable", "Risa Flux"]),
    ("warlock", ["Vesh Cinder", "Pactmaster Lira", "Hask Bound", "Nyla Whisper"]),
    ("wizard", ["Mira Quill", "Archmage Sel", "Sela Archivist", "Orin Scribe"])].flatMap fun hall =>
      hall.2.map fun name => (("class_halls." ++ hall.1).toList, name.toList)

variable {Raw Auth : Type}

namespace Battle

def isWorm (b : Battle Raw) (cid : CharacterId) : Bool :=
  (b.char cid).any fun c => c.controller.isNone && c.name == "stenchworm".toList

/-- A stenchworm was there, and is not any more. -/
def wormKilled (b b' : Battle Raw) : Bool :=
  b.world.chars.keys.any fun cid => b.isWorm cid && !b'.isWorm cid

def spawnStenchworm (b : Battle Raw) (roomId : Text) : Battle Raw :=
  (b.withWorld (b.world.spawnMob roomId "stenchworm".toList)).updateChar b.world.nextCharId fun c =>
    { c with hp := 9, maxHp := 9 }

end Battle

namespace Upkeep

def nowMs (u : Upkeep Raw) : Nat := u.battle.nowMs

def scheduleAtMs (u : Upkeep Raw) (dueMs : Nat) (kind : UpkeepKind) : Upkeep Raw :=
  { u with
    events := ⟨dueMs, u.battle.eventSeq, kind⟩ :: u.events
    battle := { u.battle with eventSeq := Word.satAdd64 u.battle.eventSeq 1 } }

def scheduleInMs (u : Upkeep Raw) (delayMs : Nat) (kind : UpkeepKind) : Upkeep Raw :=
  u.scheduleAtMs (Word.satAdd64 u.nowMs delayMs) kind

/-! ## Events -/

def tick (u : Upkeep Raw) : Upkeep Raw :=
  let u := if u.bartenderId.isNone then u.scheduleAtMs u.nowMs .ensureTavernMob else u
  u.scheduleAtMs u.nowMs .ensureFirstFightWorm

def ensureTavernMob (u : Upkeep Raw) : Upkeep Raw :=
  -- re-check periodically
  let u := u.scheduleInMs 60000 .ensureTavernMob
  let ok := (u.bartenderId.bind u.battle.char).any fun c => c.controller.isNone && c.roomId == roomTavern
  if ok then u
  else
    let mobId := u.battle.world.nextCharId
    let battle := u.battle.withWorld (u.battle.world.spawnMob roomTavern "bartender".toList)
    { u with battle, bartenderId := some mobId }.scheduleInMs u.bartenderEmoteMs .bartenderEmote

/-- The bartender is in the tavern, as `BartenderEmote` looks for it. -/
def bartenderThere (u : Upkeep Raw) : Bool :=
  (u.bartenderId.bind u.battle.char).any fun c => c.roomId == roomTavern

def bartenderEmote (u : Upkeep Raw) : Upkeep Raw :=
  if u.bartenderThere then u.scheduleInMs u.bartenderEmoteMs .bartenderEmote
  -- If the bartender vanished, re-ensure and stop.
  else { u with bartenderId := none }.scheduleAtMs u.nowMs .ensureTavernMob

def ensureFirstFightWorm (u : Upkeep Raw) : Upkeep Raw :=
  let u := u.scheduleInMs 5000 .ensureFirstFightWorm
  match u.battle.world.occupants.lookup roomSchoolFirstFight with
  | none => u
  | some occ =>
    if (∃ cid ∈ occ, u.battle.isPlayer cid = true) ∧ ¬ ∃ cid ∈ occ, u.battle.isWorm cid = true then
      { u with battle := u.battle.spawnStenchworm roomSchoolFirstFight }
    else u

/-- The body of the loop over `CLASS_HALL_NPCS` -/
def ensureClassHallMob (O : SetOrder) (b : Battle Raw) (npc : Text × Text) : Battle Raw :=
  if b.realm.rooms.hasRoom npc.1 = false then b
  else if (b.findMobInRoom O npc.1 npc.2).isSome then b
  else b.withWorld (b.world.spawnMob npc.1 npc.2)

def ensureClassHallMobs (O : SetOrder) (u : Upkeep Raw) : Upkeep Raw :=
  let u := u.scheduleInMs 60000 .ensureClassHallMobs
  { u with battle := classHallNpcs.foldl (ensureClassHallMob O) u.battle }

def handleEvent (O : SetOrder) (u : Upkeep Raw) : UpkeepKind → Upkeep Raw
  | .tick => u.tick
  | .ensureTavernMob => u.ensureTavernMob
  | .bartenderEmote => u.bartenderEmote
  | .ensureFirstFightWorm => u.ensureFirstFightWorm
  | .ensureClassHallMobs => u.ensureClassHallMobs O

/-- The next event of all, unless it is one of a fight. -/
def next (u : Upkeep Raw) : Option UpkeepEvent :=
  match UpkeepEvent.least u.events, ScheduledEvent.least u.battle.queue with
  | some e, some f =>
    if f.dueMs < e.dueMs ∨ f.dueMs = e.dueMs ∧ f.seq < e.seq then none else some e
  | e, _ => e

/-- What a step of a fight comes to: `apply_damage_to_mob` asks for a new worm when one is killed. -/
def fought (u : Upkeep Raw) (battle : Battle Raw) : Upkeep Raw :=
  let u' := { u with battle }
  if u.battle.wormKilled battle then u'.scheduleAtMs u'.nowMs .ensureFirstFightWorm else u'

/-- `process_due_events`, one event at a time -/
def event (O : SetOrder) (draw : Nat) (u : Upkeep Raw) : Option (Upkeep Raw) :=
  match u.next with
  | some e =>
    if u.nowMs < e.dueMs then none
    else some ({ u with events := u.events.erase e }.handleEvent O e.kind)
  | none => (u.battle.event O draw).map u.fought

/-- `process_due_events` has nothing left to do. -/
def isDrained (u : Upkeep Raw) : Bool :=
  u.events.all (fun e => decide (u.nowMs < e.dueMs))
    && u.battle.queue.all fun e => decide (u.nowMs < e.dueMs)

end Upkeep

/-! ## Lines of the tavern -/

/-- `str::parse::<u32>` -/
def parseU32 (t : Text) : Option Nat :=
  (Text.parseDigits ((Text.stripPrefix ['+'] t).getD t)).filter fun n => n ≤ Word.maxU32

def parseQtyAndItem (s : Text) : Option (Nat × Text) :=
  match Text.splitWhitespace s with
  | [] => none
  | [part] => some (1, part)
  | first :: rest =>
    let parts := first :: rest
    let last := parts.getLastD []
    match parseU32 first with
    -- leading qty
    | some q => some (max q 1, " ".toList.intercalate rest)
    | none =>
      -- trailing qty, and trailing xN
      match (parseU32 last) <|> ((Text.stripPrefix ['x'] last).bind parseU32) with
      | some q => some (max q 1, " ".toList.intercalate parts.dropLast)
      | none => some (1, " ".toList.intercalate parts)

/-- Whether a `sell` or an `order` gets as far as the bartender. -/
def asksBartender (p : Character) (lc : Text) : Bool :=
  p.roomId == roomTavern &&
    match Text.stripPrefix "sell ".toList lc, Text.stripPrefix "order ".toList lc with
    | some _, _ => true
    | none, some rest => (parseQtyAndItem (Text.trim rest)).any fun e => (findDrink e.2).isSome
    | none, none => false

namespace Upkeep

/-- `sell` and `order` while nobody tends the bar. The trade with the bartender is no upkeep. -/
def tavernLine (u : Upkeep Raw) (session : SessionId) (line : Text) : Option (Upkeep Raw) := do
  let (_, p) ← u.battle.world.activeChar session
  if u.battle.world.answering session then none
  else if asksBartender p (Text.toAsciiLowercase (Text.trim line)) ∧ u.bartenderId.isNone then
    some (u.scheduleAtMs u.nowMs .ensureTavernMob)
  else none

/-! ## Runs -/

/-- What is scheduled when the broker connects. -/
def start (battle : Battle Raw) (bartenderEmoteMs : Nat) : Upkeep Raw :=
  let u : Upkeep Raw :=
    { battle := { battle with eventSeq := 1 }, events := [], bartenderId := none, bartenderEmoteMs }
  ((u.scheduleAtMs 0 .ensureTavernMob).scheduleAtMs 0 .ensureFirstFightWorm).scheduleAtMs 0 .ensureClassHallMobs

variable (J : Codec Raw (List PlayerSnapshot)) (A : Codec Auth AuthBlob)

def new (readOk : Bool) (rooms : RoomMap) (file : Option Raw) (bartenderEmoteMs : Nat) : Upkeep Raw :=
  start (.new J readOk rooms file) bartenderEmoteMs

/-- The moves are those of fights. A mob appears when a character or an event asks for it, and a line
is read when nothing is due. -/
def step (u : Upkeep Raw) : BattleMove Auth → Option (Upkeep Raw)
  | .spawnMob .. => none
  | .event O draw => u.event O draw
  | .line O session line =>
    if u.isDrained then
      match u.battle.line O session line with
      | some battle => some (u.fought battle)
      | none => u.tavernLine session line
    else none
  | .relink clean saveOk readOk =>
    (u.battle.step J A (.relink clean saveOk readOk : BattleMove Auth)).map fun battle =>
      start battle u.bartenderEmoteMs
  | m => (u.battle.step J A m).map fun battle => { u with battle }

end Upkeep

end Slopmud.Shard
