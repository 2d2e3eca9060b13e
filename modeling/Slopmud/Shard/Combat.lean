import Slopmud.Shard.Realm
import Slopmud.Shard.Skills

/-!
# Fights

The fights of `shard_01`: autoattacks, skills, stuns and bosses, with the queue of scheduled events
that drives them, and every command and timer that writes a character's hit points, resources,
combat state or flags. What other commands and timers do leaves all of these alone.
-/

namespace Slopmud.Shard

/-- The order in which a hash set is iterated: what comes first, then what comes first among the rest. -/
def SetOrder.list (O : SetOrder) (s : Finset CharacterId) : List CharacterId :=
  go s.card s
where
  go : Nat → Finset CharacterId → List CharacterId
    | 0, _ => []
    | n + 1, s => O.first s :: go n (s.erase (O.first s))

theorem SetOrder.mem_of_mem_list (O : SetOrder) {s : Finset CharacterId} {cid : CharacterId}
    (h : cid ∈ O.list s) : cid ∈ s := by
  suffices hgo : ∀ n (s : Finset CharacterId), n ≤ s.card → cid ∈ SetOrder.list.go O n s → cid ∈ s from
    hgo s.card s (Nat.le_refl _) h
  intro n
  induction n with
  | zero => exact fun s _ h => absurd h List.not_mem_nil
  | succ n ih =>
    intro s hn h
    have hfirst : O.first s ∈ s := O.first_mem s (Finset.card_pos.mp (Nat.lt_of_lt_of_le n.succ_pos hn))
    rcases List.mem_cons.mp h with rfl | hrest
    · exact hfirst
    · have hcard : n ≤ (s.erase (O.first s)).card := by rw [Finset.card_erase_of_mem hfirst]; omega
      exact Finset.mem_of_mem_erase (ih _ hcard hrest)

/-- `roll_range`, by what the generator gives -/
def rollRange (draw : Nat) (lo hi : Int) : Int := lo + draw % (hi - lo + 1)

/-! ## State -/

structure BossState where
  castingUntilMs : Nat
  seq : Nat
deriving DecidableEq, Repr

inductive EventKind where
  | combatAct (attackerId : CharacterId)
  | bossTelegraph (bossId : CharacterId)
  | bossResolve (bossId : CharacterId) (seq : Nat)
deriving DecidableEq, Repr

structure ScheduledEvent where
  dueMs : Nat
  seq : Nat
  kind : EventKind
deriving DecidableEq, Repr

/-- An autoattack that reaches the damage step. The code keeps no such record, and nothing reads it. -/
structure Hit where
  attacker : CharacterId
  byPlayer : Bool
  atMs : Nat
deriving DecidableEq, Repr

structure Battle (Raw : Type) where
  realm : Realm Raw
  /-- Of the scheduled events, those of fights. -/
  queue : List ScheduledEvent
  eventSeq : Nat
  bosses : Table CharacterId BossState
  /-- The latest hit first. -/
  hits : List Hit

variable {Raw : Type}

namespace ScheduledEvent

/-- `impl Ord for ScheduledEvent` -/
def before (e f : ScheduledEvent) : Bool :=
  decide (e.dueMs < f.dueMs) || (e.dueMs == f.dueMs && decide (e.seq < f.seq))

def least : List ScheduledEvent → Option ScheduledEvent
  | [] => none
  | e :: es =>
    match least es with
    | none => some e
    | some f => some (if f.before e then f else e)

end ScheduledEvent

namespace Battle

def world (b : Battle Raw) : World Raw := b.realm.world

def nowMs (b : Battle Raw) : Nat := b.world.nowMs

def char (b : Battle Raw) (cid : CharacterId) : Option Character := b.world.chars.lookup cid

def withWorld (b : Battle Raw) (world : World Raw) : Battle Raw :=
  { b with realm := { b.realm with world } }

/-- `if let Some(c) = world.chars.get_mut(&cid) { .. }` -/
def updateChar (b : Battle Raw) (cid : CharacterId) (f : Character → Character) : Battle Raw :=
  match b.char cid with
  | none => b
  | some c => b.withWorld { b.world with chars := b.world.chars.insert cid (f c) }

def note (b : Battle Raw) (hit : Hit) : Battle Raw := { b with hits := hit :: b.hits }

def scheduleAtMs (b : Battle Raw) (dueMs : Nat) (kind : EventKind) : Battle Raw :=
  { b with
    queue := ⟨dueMs, b.eventSeq, kind⟩ :: b.queue
    eventSeq := Word.satAdd64 b.eventSeq 1 }

def scheduleInMs (b : Battle Raw) (delayMs : Nat) (kind : EventKind) : Battle Raw :=
  b.scheduleAtMs (Word.satAdd64 b.nowMs delayMs) kind

def popDueEvent (b : Battle Raw) : Option (ScheduledEvent × Battle Raw) := do
  let ev ← ScheduledEvent.least b.queue
  if b.nowMs < ev.dueMs then none else some (ev, { b with queue := b.queue.erase ev })

/-! ## Targets -/

/-- What `find_mob_in_room` and `find_player_in_room` share. -/
def findInRoom (O : SetOrder) (b : Battle Raw) (player : Bool) (roomId token : Text) :
    Option CharacterId :=
  let t := Text.toAsciiLowercase (Text.trim token)
  let found := ((b.world.occupants.lookup roomId).getD ∅).filter fun cid =>
    (b.char cid).any fun c =>
      c.controller.isSome == player && t.isPrefixOf (Text.toAsciiLowercase c.name)
  if t.isEmpty ∨ found = ∅ then none else some (O.first found)

def findMobInRoom (O : SetOrder) (b : Battle Raw) : Text → Text → Option CharacterId :=
  b.findInRoom O false

def findPlayerInRoom (O : SetOrder) (b : Battle Raw) : Text → Text → Option CharacterId :=
  b.findInRoom O true

/-- Keep PvP constrained to explicit "arena" rooms for now. -/
def isPvpRoom (roomId : Text) : Bool := "arena.".toList.isPrefixOf roomId

def canPvpIds (b : Battle Raw) (attackerId targetId : CharacterId) : Bool :=
  match b.char attackerId, b.char targetId with
  | some att, some tgt =>
    attackerId != targetId
      && (att.controller.isSome && tgt.controller.isSome)
      && att.roomId == tgt.roomId
      && isPvpRoom att.roomId
      && (att.pvpEnabled && tgt.pvpEnabled)
      && (att.isBuilt && tgt.isBuilt && decide (0 < att.hp) && decide (0 < tgt.hp))
  | _, _ => false

def isPlayer (b : Battle Raw) (cid : CharacterId) : Bool :=
  (b.char cid).any fun c => c.controller.isSome

def isMob (b : Battle Raw) (cid : CharacterId) : Bool :=
  (b.char cid).any fun c => c.controller.isNone

/-! ## Starting combat -/

/-- The lines of `start_combat` that are there twice, for the attacker and for its target. -/
def engage (b : Battle Raw) (cid targetId : CharacterId) : Battle Raw :=
  (b.updateChar cid fun c =>
    { c with combat := { c.combat with autoattack := true, target := some targetId, nextReadyMs := b.nowMs } }).scheduleAtMs
      b.nowMs (.combatAct cid)

/-- A member of the attacker's party joins in: the body of the loop of `party_assist_attackers`. -/
def assists (b : Battle Raw) (roomId : Text) (attackerId mid : CharacterId) : Bool :=
  mid != attackerId && (b.char mid).any fun m =>
    m.controller.isSome && m.autoassist && m.roomId == roomId && !m.combat.autoattack

/-- `start_combat` and `party_assist_attackers`, which call each other. Every call but the first
is for a member that is not attacking yet. -/
def startCombat (O : SetOrder) : Nat → Battle Raw → CharacterId → CharacterId → Battle Raw
  | 0, b, _, _ => b
  | fuel + 1, b, attackerId, targetId =>
    match b.char attackerId with
    | none => b
    | some att =>
      let b := b.engage attackerId targetId
      -- a mob retaliates, and a player does where PvP is allowed
      let b :=
        if b.isMob targetId || (b.isPlayer targetId && b.canPvpIds attackerId targetId) then
          b.engage targetId attackerId
        else b
      match (b.world.partyOf.lookup attackerId).bind b.world.parties.lookup with
      | none => b
      | some p =>
        (O.list p.members).foldl (fun b mid =>
          if b.assists att.roomId attackerId mid then startCombat O fuel b mid targetId else b) b

/-- Each character is started at most once by assisting. -/
def startCombatFuel (b : Battle Raw) : Nat := b.world.chars.entries.length + 1

def standDown (c : Character) : Character :=
  { c with combat := { c.combat with autoattack := false, target := none } }

end Battle

/-! ## Experience -/

/-- One round of the loop of `award_xp_one` -/
def Character.levelUp (c : Character) : Character :=
  let level := Word.satAdd32 c.level 1
  let maxHp := max (c.maxHp + 2) 1
  let c := { c with
    xp := c.xp - xpNeededForNext c.level
    level
    skillPoints := Word.satAdd32 c.skillPoints 1
    maxHp
    hp := maxHp }
  match c.cls with
  | none => c
  | some cls =>
    let maxMana := max (computeMaxMana cls c.stats level) 0
    let maxStamina := max (computeMaxStamina cls c.stats level) 0
    { c with
      maxMana
      mana := max (min c.mana maxMana) 0
      maxStamina
      stamina := max (min c.stamina maxStamina) 0 }

/-- `while c.xp >= xp_needed_for_next(c.level)`: every round takes some of the experience. -/
def Character.levelUps : Nat → Character → Character
  | 0, c => c
  | fuel + 1, c => if c.xp < xpNeededForNext c.level then c else levelUps fuel c.levelUp

/-- What `award_xp_one` does to a character. -/
def Character.gainXp (xp : Nat) (c : Character) : Character :=
  let c := { c with xp := Word.satAdd32 c.xp xp }
  c.levelUps (c.xp + 1)

namespace Battle

/-- Those of a party who share in the experience of one of them. -/
def sharers (O : SetOrder) (b : Battle Raw) (p : Party) (roomId : Text) : List CharacterId :=
  (O.list p.members).filter fun mid =>
    (b.char mid).any fun m => m.controller.isSome && m.roomId == roomId && decide (0 < m.hp)

/-- Split XP across party members in the same room (total XP stays constant). -/
def awardXp (O : SetOrder) (b : Battle Raw) (cid : CharacterId) (xp : Nat) : Battle Raw :=
  match b.world.partyOf.lookup cid with
  | none => b.updateChar cid (Character.gainXp xp)
  | some pid =>
    match b.char cid with
    | none => b
    | some att =>
      let elig := ((b.world.parties.lookup pid).map fun p => b.sharers O p att.roomId).getD []
      if elig.length ≤ 1 then b.updateChar cid (Character.gainXp xp)
      else
        -- the remainder goes to the first
        elig.zipIdx.foldl (fun b e =>
          b.updateChar e.1 (Character.gainXp (xp / elig.length + if e.2 = 0 then xp % elig.length else 0))) b

/-! ## Damage -/

/-- Whether the target was killed, and what is left. -/
def applyDamageToMob (O : SetOrder) (b : Battle Raw) (attackerId targetId : CharacterId) (dmg : Int) :
    Bool × Battle Raw :=
  match b.char attackerId, b.char targetId with
  | some att, some tgt =>
    if tgt.controller.isSome ∨ att.roomId ≠ tgt.roomId then (false, b)
    else
      let b := b.updateChar targetId fun c => { c with hp := c.hp - dmg }
      if 0 < tgt.hp - dmg then (false, b)
      else
        let b := { b.withWorld (b.world.removeChar O targetId) with bosses := b.bosses.erase targetId }
        if tgt.name = "stenchworm".toList then
          (true, (b.updateChar attackerId fun c =>
            { c with inv := World.invAdd c.inv "stenchpouch".toList 1 }).awardXp O attackerId 10)
        else (true, b)
  | _, _ => (false, b)

def applyDamageToPlayer (b : Battle Raw) (attackerId targetId : CharacterId) (dmg : Int) :
    Bool × Battle Raw :=
  match b.realm.applyDamageToPlayer attackerId targetId dmg with
  | none => (false, b)
  | some realm => ((b.char targetId).any fun c => decide (c.hp - dmg ≤ 0), { b with realm })

def applyStun (b : Battle Raw) (attackerId targetId : CharacterId) (stunMs : Nat) : Battle Raw :=
  if stunMs = 0 then b
  else
    match b.char attackerId, b.char targetId with
    | some att, some tgt =>
      if att.roomId ≠ tgt.roomId then b
      else
        -- extend stun (do not shorten)
        let until' := Word.satAdd64 b.nowMs stunMs
        let b := b.updateChar targetId fun c => { c with stunnedUntilMs := max c.stunnedUntilMs until' }
        match b.bosses.lookup targetId with
        | none => b
        | some bs =>
          if b.nowMs < bs.castingUntilMs then
            { b with bosses := b.bosses.insert targetId ⟨0, Word.satAdd64 bs.seq 1⟩ }
          else b
    | _, _ => b

/-! ## Events -/

def computeAutoattackDamage (b : Battle Raw) (attackerId : CharacterId) (draw : Nat) : Int :=
  match b.char attackerId with
  | none => 2
  | some att =>
    let dmg :=
      match ((att.equip.lookup .wield).bind findItemDef).map ItemDef.kind with
      | some (.weapon lo hi) => rollRange draw lo hi
      | _ => 2
    let dmg :=
      match att.cls with
      | none => dmg
      | some cls => dmg + att.stats.modFor cls.attackAbility
    max dmg 1

def computeMobAutoattackDamage (att : Character) (draw : Nat) : Int :=
  if att.name = "dummy".toList then 0
  else if att.name = "spitter".toList then rollRange draw 4 6
  else if att.name = "grease_king".toList then rollRange draw 2 5
  else rollRange draw 1 3

/-- The damage step of `EventKind::CombatAct`, and what follows it. -/
def strike (O : SetOrder) (draw : Nat) (b : Battle Raw) (attackerId targetId : CharacterId)
    (att : Character) : Battle Raw :=
  let dmg :=
    if att.controller.isSome then b.computeAutoattackDamage attackerId draw
    else computeMobAutoattackDamage att draw
  let b := b.note ⟨attackerId, att.controller.isSome, b.nowMs⟩
  let (killed, b) :=
    if b.isPlayer targetId then b.applyDamageToPlayer attackerId targetId dmg
    else b.applyDamageToMob O attackerId targetId dmg
  if killed then b.updateChar attackerId standDown
  else
    let next := Word.satAdd64 b.nowMs 1000
    (b.updateChar attackerId fun c => { c with combat := { c.combat with nextReadyMs := next } }).scheduleAtMs
      next (.combatAct attackerId)

/-- `EventKind::CombatAct` -/
def combatAct (O : SetOrder) (draw : Nat) (b : Battle Raw) (attackerId : CharacterId) : Battle Raw :=
  match b.char attackerId with
  | none => b
  | some att =>
    match att.combat.target with
    | none => b
    | some targetId =>
      if att.combat.autoattack = false then b
      else if b.nowMs < att.stunnedUntilMs then
        b.scheduleAtMs att.stunnedUntilMs (.combatAct attackerId)
      else if b.nowMs < att.combat.nextReadyMs then
        b.scheduleAtMs att.combat.nextReadyMs (.combatAct attackerId)
      else
        match b.char targetId with
        | none => b.updateChar attackerId standDown
        | some tgt =>
          if tgt.roomId ≠ att.roomId
              -- no mob-vs-mob combat for now
              ∨ (att.controller.isNone ∧ tgt.controller.isNone)
              -- PvP is opt-in and only allowed in designated rooms
              ∨ (att.controller.isSome ∧ tgt.controller.isSome ∧ b.canPvpIds attackerId targetId = false)
          then b.updateChar attackerId standDown
          else b.strike O draw attackerId targetId att

/-- `EventKind::BossTelegraph` -/
def bossTelegraph (b : Battle Raw) (bossId : CharacterId) : Battle Raw :=
  match b.char bossId with
  | none => { b with bosses := b.bosses.erase bossId }
  | some c =>
    if c.controller.isSome ∨ c.hp ≤ 0 then { b with bosses := b.bosses.erase bossId }
    else
      match b.bosses.lookup bossId with
      | none => b
      | some bs =>
        -- still casting: try again when the cast ends
        if b.nowMs < bs.castingUntilMs then b.scheduleAtMs bs.castingUntilMs (.bossTelegraph bossId)
        else if c.name ≠ "grease_king".toList then b
        else
          let due := Word.satAdd64 b.nowMs 2500
          let seq := Word.satAdd64 bs.seq 1
          (({ b with bosses := b.bosses.insert bossId ⟨due, seq⟩ }).scheduleAtMs due
            (.bossResolve bossId seq)).scheduleInMs 6500 (.bossTelegraph bossId)

/-- `EventKind::BossResolve`: all players in the room are hit. -/
def bossResolve (b : Battle Raw) (bossId : CharacterId) (seq : Nat) : Battle Raw :=
  match b.char bossId with
  | none => { b with bosses := b.bosses.erase bossId }
  | some c =>
    if c.controller.isSome ∨ c.hp ≤ 0 then { b with bosses := b.bosses.erase bossId }
    else
      match b.bosses.lookup bossId with
      | none => b
      | some bs =>
        -- interrupted or superseded
        if bs.seq ≠ seq ∨ bs.castingUntilMs = 0 ∨ b.nowMs < bs.castingUntilMs then b
        else
          let b := { b with bosses := b.bosses.insert bossId { bs with castingUntilMs := 0 } }
          let victims := (b.world.present ((b.world.occupants.lookup c.roomId).getD ∅)).filterMap fun cid =>
            ((b.char cid).filter fun v => v.controller.isSome && decide (0 < v.hp)).map Character.id
          victims.foldl (fun b vid => (b.applyDamageToPlayer bossId vid 8).2) b

def handleEvent (O : SetOrder) (draw : Nat) (b : Battle Raw) : EventKind → Battle Raw
  | .combatAct attackerId => b.combatAct O draw attackerId
  | .bossTelegraph bossId => b.bossTelegraph bossId
  | .bossResolve bossId seq => b.bossResolve bossId seq

end Battle

end Slopmud.Shard
