import Slopmud.Shard.Combat

/-!
# Commands and runs of the fighting world

The input lines that start and stop fights, use skills and goods, choose a race or a class, train,
and set the flags; and the moves of a run: these lines, the events of the queue, the clock, and
everything else, which leaves fights alone.
-/

namespace Slopmud.Shard

/-! ## Lines -/

inductive Command where
  | killOff
  | kill (target : Text)
  /-- `use`, `cast` and `invoke` -/
  | use (token : Text)
  /-- `quaff` and `drink` -/
  | quaff (token : Text)
  | race (token : Text)
  | cls (token : Text)
  | train (token : Text)
  | assist (on : Bool)
  | follow (on : Bool)
  | pvp (on : Bool)
deriving DecidableEq, Repr

def onOff (v : Text) : Option Bool :=
  if v = "on".toList then some true
  else if v = "off".toList then some false
  else none

/-- The lines that are a word and an argument. -/
def Command.ofWord (rest : Text) : String → Option Command
  | "kill" => some (.kill rest)
  | "use" | "cast" | "invoke" => some (.use rest)
  | "quaff" | "drink" => some (.quaff rest)
  | "race" => some (.race rest)
  | "class" => some (.cls rest)
  | "train" => some (.train rest)
  | "assist" => (onOff rest).map .assist
  | "follow" => (onOff rest).map .follow
  | "pvp" => (onOff rest).map .pvp
  | _ => none

/-- The lower-cased input line as a command. No two of the words start alike. -/
def Command.parse (lc : Text) : Option Command :=
  if lc = "kill".toList then some .killOff
  else if lc ∈ ["race list".toList, "class list".toList, "train list".toList] then none
  else
    ["kill", "use", "cast", "invoke", "quaff", "drink", "race", "class", "train", "assist", "follow",
      "pvp"].findSome? fun word =>
        (Text.stripPrefix (word.toList ++ [' ']) lc).bind fun rest => Command.ofWord (Text.trim rest) word

def isTrainerRoom (roomId : Text) : Bool :=
  roomId == roomSchoolOrientation || "class_halls.".toList.isPrefixOf roomId

namespace Battle

variable {Raw : Type}

/-- `kill <target>` of the character `p`. The checks of the flags and the room before `can_pvp_ids`
are among its own, and only choose the message. -/
def doKill (O : SetOrder) (b : Battle Raw) (attackerId : CharacterId) (p : Character) (target : Text) :
    Option (Battle Raw) := do
  if b.nowMs < p.stunnedUntilMs then none
  else
    let targetId ← (b.findMobInRoom O p.roomId target) <|> (b.findPlayerInRoom O p.roomId target)
    if p.isBuilt = false then none
    else if b.isPlayer targetId = true ∧ b.canPvpIds attackerId targetId = false then none
    else if p.combat.autoattack = true ∧ p.combat.target = some targetId then
      some (b.updateChar attackerId standDown)
    else some (startCombat O b.startCombatFuel b attackerId targetId)

/-- What a use of a skill takes: the cooldown starts, and the costs are paid. -/
def payFor (def' : SkillDef) (nowMs : Nat) (c : Character) : Character :=
  { c with
    skillCdMs := c.skillCdMs.insert def'.id.toList (nowMs + def'.cooldownMs)
    mana := max (c.mana - def'.costMana) 0
    stamina := max (c.stamina - def'.costStamina) 0 }

/-- Give hit points back, up to the maximum. -/
def healBy (amount : Int) (c : Character) : Character := { c with hp := min (c.hp + amount) c.maxHp }

/-- The skill path of `use`, with a skill of the character `pc` -/
def useSkill (O : SetOrder) (b : Battle Raw) (attackerId : CharacterId) (pc : Character)
    (def' : SkillDef) : Option (Battle Raw) :=
  let rank := (pc.skills.lookup def'.id.toList).getD 0
  if rank = 0 ∨ b.nowMs < (pc.skillCdMs.lookup def'.id.toList).getD 0
      ∨ (0 < def'.costMana ∧ pc.mana < def'.costMana)
      ∨ (0 < def'.costStamina ∧ pc.stamina < def'.costStamina) then none
  else
    let b := b.updateChar attackerId (payFor def' b.nowMs)
    let amount := max (computeSkillAmount def' rank pc.stats) 0
    match def'.target with
    | .selfOnly => some (b.updateChar attackerId (healBy amount))
    | .combatTarget =>
      match pc.combat.target with
      -- the costs are not given back
      | none => some b
      | some targetId =>
        if b.isPlayer targetId = true ∧ b.canPvpIds attackerId targetId = false then some b
        else
          let (killed, b) :=
            if b.isPlayer targetId then b.applyDamageToPlayer attackerId targetId amount
            else b.applyDamageToMob O attackerId targetId amount
          some (if killed then b.updateChar attackerId standDown
            else b.applyStun attackerId targetId (skillStunMs def'))

/-- The drinks and the other consumables, which `use` and `quaff` share -/
def useItem (b : Battle Raw) (cid : CharacterId) (pc : Character) (token : Text) :
    Option (Battle Raw) := do
  match findDrink token with
  | some drink =>
    let (taken, inv) := invTakeOne pc.inv drink
    some (b.updateChar cid fun c =>
      { c with inv, drinkLevel := if taken then Word.satAdd32 c.drinkLevel 1 else c.drinkLevel })
  | none =>
    let key ← findItemKeyInInventory pc.inv token
    let item ← findItemDef key
    match item.kind with
    | .consumable heal =>
      if max heal 0 = 0 ∨ pc.maxHp ≤ pc.hp then none
      else
        let (taken, inv) := invTakeOne pc.inv key
        some (b.updateChar cid fun c =>
          if taken then healBy (max heal 0) { c with inv } else { c with inv })
    | _ => none

def doUse (O : SetOrder) (b : Battle Raw) (cid : CharacterId) (pc : Character) (skills : Bool)
    (token : Text) : Option (Battle Raw) :=
  if token.isEmpty ∨ b.nowMs < pc.stunnedUntilMs then none
  else
    match (if skills then pc.cls else none).bind fun cls => findSkillForClass cls token with
    | some def' => b.useSkill O cid pc def'
    | none => b.useItem cid pc token

def doRace (b : Battle Raw) (cid : CharacterId) (p : Character) (token : Text) :
    Option (Battle Raw) := do
  let race ← Race.parse token
  if p.roomId ≠ roomSchoolOrientation ∨ p.race.isSome then none
  else
    some (b.updateChar cid fun c => { c with
      race := some race
      inv := (starterKitForSize race.size).foldl (fun inv e => World.invAdd inv e.1 e.2) c.inv })

/-- What the choice of a class makes of a character. -/
def takeClass (cls : Class) (nowMs : Nat) (c : Character) : Character :=
  let stats := assignCoreStatsForClass cls
  let maxHp := max (computeMaxHp cls stats) 1
  let maxMana := max (computeMaxMana cls stats c.level) 0
  let maxStamina := max (computeMaxStamina cls stats c.level) 0
  { c with
    cls := some cls
    stats
    hp := maxHp
    maxHp
    mana := maxMana
    maxMana
    stamina := maxStamina
    maxStamina
    lastManaRegenMs := nowMs
    lastStaminaRegenMs := nowMs }

def doClass (b : Battle Raw) (cid : CharacterId) (p : Character) (token : Text) :
    Option (Battle Raw) := do
  let cls ← Class.parse token
  if isTrainerRoom p.roomId = false ∨ p.cls.isSome then none
  else some (b.updateChar cid (takeClass cls b.nowMs))

def maxRank : Nat := 5

def doTrain (b : Battle Raw) (cid : CharacterId) (p : Character) (token : Text) :
    Option (Battle Raw) := do
  if isTrainerRoom p.roomId = false then none
  else
    let cls ← p.cls
    let def' ← findSkillForClass cls token
    let rank := (p.skills.lookup def'.id.toList).getD 0
    if maxRank ≤ rank ∨ p.skillPoints = 0 then none
    else
      some (b.updateChar cid fun c => { c with
        skillPoints := c.skillPoints - 1
        skills := c.skills.insert def'.id.toList (rank + 1) })

/-- A command of the character that a session plays. One that is refused is none. -/
def run (O : SetOrder) (b : Battle Raw) (session : SessionId) (cmd : Command) : Option (Battle Raw) := do
  let (cid, p) ← b.world.activeChar session
  match cmd with
  | .killOff => if p.combat.autoattack then some (b.updateChar cid standDown) else none
  | .kill target => b.doKill O cid p target
  | .use token => b.doUse O cid p true token
  | .quaff token => b.doUse O cid p false token
  | .race token => b.doRace cid p token
  | .cls token => b.doClass cid p token
  | .train token => b.doTrain cid p token
  | .assist on => some (b.updateChar cid fun c => { c with autoassist := on })
  | .follow on =>
    if (b.world.partyOf.lookup cid).isNone then none
    else some (b.updateChar cid fun c => { c with followLeader := on })
  | .pvp on => some (b.updateChar cid fun c => { c with pvpEnabled := on })

end Battle

/-! ## The clock -/

/-- The body of the loop of `regen_resources`, for a player's character -/
def Character.regen (nowMs : Nat) (c : Character) : Character :=
  let c :=
    if 0 < c.maxMana ∧ c.mana < c.maxMana then
      let n := (nowMs - c.lastManaRegenMs) / 1500
      if 0 < n then
        { c with mana := min (c.mana + Word.toI32 n) c.maxMana, lastManaRegenMs := nowMs }
      else c
    else { c with lastManaRegenMs := nowMs }
  if 0 < c.maxStamina ∧ c.stamina < c.maxStamina then
    let n := (nowMs - c.lastStaminaRegenMs) / 1000
    if 0 < n then
      { c with stamina := min (c.stamina + Word.toI32 n) c.maxStamina, lastStaminaRegenMs := nowMs }
    else c
  else { c with lastStaminaRegenMs := nowMs }

/-- A mob as `spawn_named_mob` and `spawn_stenchworm` make it: its name and its hit points. -/
def namedMob (token : Text) : Text × Int :=
  let t := Text.toAsciiLowercase (Text.trim token)
  if t = "stenchworm".toList then (t, 9)
  else if t = "dummy".toList ∨ t = "training_dummy".toList then ("dummy".toList, 120)
  else if t = "rat".toList then (t, 5)
  else if t = "spitter".toList then (t, 7)
  else if t = "grease_king".toList then (t, 60)
  else (t, 10)

/-- Other commands and timers leave fights alone: what a character can do in one, its flags, and
what it has been taught. -/
def keepFighter (c c' : Character) : Character :=
  { c' with
    level := c.level
    xp := c.xp
    skillPoints := c.skillPoints
    skills := c.skills
    skillCdMs := c.skillCdMs
    stats := c.stats
    hp := c.hp
    maxHp := c.maxHp
    mana := c.mana
    maxMana := c.maxMana
    stamina := c.stamina
    maxStamina := c.maxStamina
    lastManaRegenMs := c.lastManaRegenMs
    lastStaminaRegenMs := c.lastStaminaRegenMs
    autoassist := c.autoassist
    followLeader := c.followLeader
    pvpEnabled := c.pvpEnabled
    stunnedUntilMs := c.stunnedUntilMs
    combat := c.combat }

/-- The moves of the realm that are no fights, and not the end of the link. -/
def RealmMove.isPeaceful {Auth : Type} : RealmMove Auth → Bool
  | .shard (.attach ..) | .shard (.detach ..) | .shard (.input ..) | .shard (.drop ..) => true
  | .going .. | .buildNext .. | .mobWander .. => true
  | _ => false

inductive BattleMove (Auth : Type) where
  | realm (m : RealmMove Auth)
  | other (e : Realm.Effect)
  /-- A mob without a fight of its own appears. -/
  | spawnMob (roomId name : Text)
  | spawnNamedMob (roomId token : Text)
  /-- `world.now_ms = start.elapsed().as_millis()` -/
  | clock (nowMs : Nat)
  | regen
  | line (O : SetOrder) (session : SessionId) (line : Text)
  /-- The next due event. -/
  | event (O : SetOrder) (draw : Nat)
  /-- The broker link ends, and the next one starts with a new world. -/
  | relink (clean saveOk readOk : Bool)

namespace Battle

variable {Raw Auth : Type} (J : Codec Raw (List PlayerSnapshot)) (A : Codec Auth AuthBlob)

def ofRealm (realm : Realm Raw) : Battle Raw where
  realm := realm
  queue := []
  eventSeq := 0
  bosses := ∅
  hits := []

def new (readOk : Bool) (rooms : RoomMap) (file : Option Raw) : Battle Raw :=
  ofRealm (.new J readOk rooms file)

def regenResources (b : Battle Raw) : Battle Raw :=
  b.withWorld { b.world with
    chars := b.world.chars.mapVals fun _ c => if c.controller.isSome then c.regen b.nowMs else c }

def spawnNamedMob (b : Battle Raw) (roomId token : Text) : Option (Battle Raw) :=
  if (Text.trim token).isEmpty then none
  else
    let (name, hp) := namedMob token
    let cid := b.world.nextCharId
    let b := (b.withWorld (b.world.spawnMob roomId name)).updateChar cid fun c => { c with hp, maxHp := hp }
    some (if name = "grease_king".toList then
      ({ b with bosses := b.bosses.insert cid ⟨0, 1⟩ }).scheduleInMs 800 (.bossTelegraph cid)
    else b)

def otherEffect (b : Battle Raw) (e : Realm.Effect) : Battle Raw :=
  b.withWorld (b.realm.effect { e with
    chars := fun cid c => keepFighter c (e.chars cid c)
    mobs := []
    nowMs := b.nowMs })

def line (O : SetOrder) (b : Battle Raw) (session : SessionId) (line : Text) : Option (Battle Raw) := do
  let cmd ← Command.parse (Text.toAsciiLowercase (Text.trim line))
  if b.world.answering session then none else b.run O session cmd

/-- `process_due_events`, one event at a time -/
def event (O : SetOrder) (draw : Nat) (b : Battle Raw) : Option (Battle Raw) :=
  b.popDueEvent.map fun e => e.2.handleEvent O draw e.1.kind

def step (b : Battle Raw) : BattleMove Auth → Option (Battle Raw)
  | .realm m =>
    if m.isPeaceful then (b.realm.step J A m).map fun realm => { b with realm } else none
  | .other e => some (b.otherEffect e)
  | .spawnMob roomId name => some (b.withWorld (b.world.spawnMob roomId name))
  | .spawnNamedMob roomId token => b.spawnNamedMob roomId token
  | .clock nowMs => if b.nowMs ≤ nowMs then some (b.withWorld { b.world with nowMs }) else none
  | .regen => some b.regenResources
  | .line O session line => b.line O session line
  | .event O draw => b.event O draw
  | .relink clean saveOk readOk =>
    (b.realm.step J A (.relink clean saveOk readOk : RealmMove Auth)).map ofRealm

end Battle

end Slopmud.Shard
