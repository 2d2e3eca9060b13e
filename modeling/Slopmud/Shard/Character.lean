import Mathlib.Data.Finset.Sort
import Mathlib.Data.List.Lex
import Slopmud.Lib.Codec
import Slopmud.Lib.Table
import Slopmud.Lib.Text

/-!
# Characters and their snapshots

`shard_01`: the characters of the game world, and the form in which a player's
character is kept between sessions. Tokens (a race, a class, a slot) are parsed
from text with surrounding white space and ASCII case ignored; each type has a
table of its tokens.
-/

namespace Slopmud.Shard

abbrev SessionId := Nat
abbrev CharacterId := Nat

/-- `match s.trim().to_ascii_lowercase().as_str()` over a table of tokens. -/
def parseToken {α : Type} (table : List (String × α)) (s : Text) : Option α :=
  (table.find? fun e => decide (e.1.toList = Text.toAsciiLowercase (Text.trim s))).map Prod.snd

inductive Race where
  | dragonborn | dwarf | elf | gnome | goliath | halfling | human | orc | tiefling
deriving DecidableEq, Repr

namespace Race

def asStr : Race → Text
  | dragonborn => "dragonborn".toList
  | dwarf => "dwarf".toList
  | elf => "elf".toList
  | gnome => "gnome".toList
  | goliath => "goliath".toList
  | halfling => "halfling".toList
  | human => "human".toList
  | orc => "orc".toList
  | tiefling => "tiefling".toList

def parse : Text → Option Race := parseToken
  [("dragonborn", dragonborn), ("dwarf", dwarf), ("elf", elf), ("gnome", gnome),
    ("goliath", goliath), ("halfling", halfling), ("human", human), ("orc", orc),
    ("tiefling", tiefling)]

theorem parse_asStr (r : Race) : parse r.asStr = some r := by cases r <;> decide

end Race

/-- `items::Size`. -/
inductive Size where
  | small | medium | large
deriving DecidableEq, Repr

def Race.size : Race → Size
  | .gnome | .halfling => .small
  | _ => .medium

inductive Sex where
  | male | female | none | other
deriving DecidableEq, Repr

namespace Sex

def asStr : Sex → Text
  | male => "male".toList
  | female => "female".toList
  | none => "none".toList
  | other => "other".toList

def parse : Text → Option Sex := parseToken
  [("male", male), ("female", female), ("none", none), ("other", other)]

theorem parse_asStr (s : Sex) : parse s.asStr = some s := by cases s <;> decide

end Sex

inductive PronounKey where
  | he | she | they
deriving DecidableEq, Repr

namespace PronounKey

def asStr : PronounKey → Text
  | he => "he".toList
  | she => "she".toList
  | they => "they".toList

def parse : Text → Option PronounKey := parseToken
  [("he", he), ("him", he), ("she", she), ("her", she), ("they", they), ("them", they)]

def defaultForSex : Sex → PronounKey
  | .male => he
  | .female => she
  | .none | .other => they

theorem parse_asStr (p : PronounKey) : parse p.asStr = some p := by cases p <;> decide

end PronounKey

inductive Class where
  | barbarian | bard | cleric | druid | fighter | monk | paladin | ranger | rogue | sorcerer
  | warlock | wizard
deriving DecidableEq, Repr

namespace Class

def asStr : Class → Text
  | barbarian => "barbarian".toList
  | bard => "bard".toList
  | cleric => "cleric".toList
  | druid => "druid".toList
  | fighter => "fighter".toList
  | monk => "monk".toList
  | paladin => "paladin".toList
  | ranger => "ranger".toList
  | rogue => "rogue".toList
  | sorcerer => "sorcerer".toList
  | warlock => "warlock".toList
  | wizard => "wizard".toList

def parse : Text → Option Class := parseToken
  [("barbarian", barbarian), ("bard", bard), ("cleric", cleric), ("druid", druid),
    ("fighter", fighter), ("monk", monk), ("paladin", paladin), ("ranger", ranger),
    ("rogue", rogue), ("sorcerer", sorcerer), ("warlock", warlock), ("wizard", wizard)]

theorem parse_asStr (c : Class) : parse c.asStr = some c := by cases c <;> decide

def hitDie : Class → Int
  | barbarian => 12
  | fighter | paladin | ranger => 10
  | bard | cleric | druid | monk | rogue | warlock => 8
  | sorcerer | wizard => 6

end Class

/-! ## Ability scores -/

inductive Ability where
  | str | dex | con | int | wis | cha
deriving DecidableEq, Repr

structure AbilityScores where
  str : Int
  dex : Int
  con : Int
  int : Int
  wis : Int
  cha : Int
deriving DecidableEq, Repr

namespace AbilityScores

def baseline : AbilityScores := ⟨10, 10, 10, 10, 10, 10⟩

def get (s : AbilityScores) : Ability → Int
  | .str => s.str
  | .dex => s.dex
  | .con => s.con
  | .int => s.int
  | .wis => s.wis
  | .cha => s.cha

def set (s : AbilityScores) (v : Int) : Ability → AbilityScores
  | .str => { s with str := v }
  | .dex => { s with dex := v }
  | .con => { s with con := v }
  | .int => { s with int := v }
  | .wis => { s with wis := v }
  | .cha => { s with cha := v }

/-- 5e style modifier = floor((score - 10) / 2) -/
def modFor (s : AbilityScores) (a : Ability) : Int := (s.get a - 10) / 2

end AbilityScores

/-- The order in which a class takes the standard array. -/
def Class.priority : Class → List Ability
  | .barbarian => [.str, .con, .dex, .wis, .cha, .int]
  | .bard => [.cha, .dex, .con, .int, .wis, .str]
  | .cleric => [.wis, .con, .str, .cha, .dex, .int]
  | .druid => [.wis, .con, .dex, .int, .cha, .str]
  | .fighter => [.str, .con, .dex, .wis, .cha, .int]
  | .monk => [.dex, .wis, .con, .str, .int, .cha]
  | .paladin => [.str, .cha, .con, .wis, .dex, .int]
  | .ranger => [.dex, .wis, .con, .str, .int, .cha]
  | .rogue => [.dex, .int, .con, .wis, .cha, .str]
  | .sorcerer => [.cha, .con, .dex, .wis, .int, .str]
  | .warlock => [.cha, .con, .dex, .wis, .int, .str]
  | .wizard => [.int, .con, .dex, .wis, .cha, .str]

def assignCoreStatsForClass (cls : Class) : AbilityScores :=
  (cls.priority.zip [15, 14, 13, 12, 10, 8]).foldl (fun s p => s.set p.2 p.1) .baseline

def computeMaxHp (cls : Class) (s : AbilityScores) : Int := max (cls.hitDie + s.modFor .con) 1

def computeMaxMana (cls : Class) (s : AbilityScores) (level : Nat) : Int :=
  let lvl : Int := max level 1
  match cls with
  | .wizard => max (6 + 3 * lvl + 2 * s.modFor .int) 0
  | .sorcerer | .warlock | .bard => max (6 + 3 * lvl + 2 * s.modFor .cha) 0
  | .cleric | .druid => max (6 + 3 * lvl + 2 * s.modFor .wis) 0
  | .paladin | .ranger => max (2 + 2 * lvl + s.modFor .wis) 0
  | _ => 0

def computeMaxStamina (cls : Class) (s : AbilityScores) (level : Nat) : Int :=
  let lvl : Int := max level 1
  match cls with
  | .fighter | .barbarian | .monk | .rogue => max (8 + 2 * lvl + s.modFor .con) 0
  | .paladin | .ranger => max (6 + 2 * lvl + s.modFor .con) 0
  | _ => max (3 + lvl + s.modFor .con) 0

/-- Keep this tiny and deterministic. It's a tutorial kit, not "real" loot. -/
def starterKitForSize : Size → List (Text × Nat)
  | .small => [("practice sword (small)".toList, 1), ("wooden buckler (small)".toList, 1),
      ("training tunic (small)".toList, 1), ("training boots (small)".toList, 1),
      ("field bandage".toList, 3)]
  | .medium | .large => [("practice sword (medium)".toList, 1),
      ("wooden buckler (medium)".toList, 1), ("training tunic (medium)".toList, 1),
      ("training boots (medium)".toList, 1), ("field bandage".toList, 3)]

/-! ## Equipment -/

inductive EquipSlot where
  | wield | shield | head | body | legs | feet | hands | arms
deriving DecidableEq, Repr

namespace EquipSlot

def all : List EquipSlot := [wield, shield, head, body, arms, hands, legs, feet]

def asStr : EquipSlot → Text
  | wield => "wield".toList
  | shield => "shield".toList
  | head => "head".toList
  | body => "body".toList
  | legs => "legs".toList
  | feet => "feet".toList
  | hands => "hands".toList
  | arms => "arms".toList

def parse : Text → Option EquipSlot := parseToken
  [("wield", wield), ("weapon", wield), ("mainhand", wield), ("main-hand", wield),
    ("shield", shield), ("offhand", shield), ("off-hand", shield),
    ("head", head), ("helm", head), ("helmet", head),
    ("body", body), ("torso", body), ("chest", body), ("armor", body), ("armour", body),
    ("legs", legs), ("pants", legs), ("trousers", legs),
    ("feet", feet), ("boots", feet), ("shoes", feet),
    ("hands", hands), ("hand", hands), ("gloves", hands), ("gauntlets", hands),
    ("arms", arms), ("sleeves", arms)]

theorem mem_all (s : EquipSlot) : s ∈ all := by cases s <;> decide

theorem parse_asStr (s : EquipSlot) : parse s.asStr = some s := by cases s <;> decide

theorem asStr_injective {s t : EquipSlot} (h : s.asStr = t.asStr) : s = t := by
  have : parse s.asStr = parse t.asStr := by rw [h]
  rw [parse_asStr, parse_asStr] at this
  exact Option.some.inj this

end EquipSlot

/-- What a character wears and wields. -/
abbrev Equipment := Table EquipSlot Text

/-! ## Capabilities -/

/-- `groups::Capability`. -/
inductive Capability where
  | adminAll | raftTail | raftWatch | worldWarp | worldProtoLoad | groupCreate | groupMemberAdd
  | groupMemberRemove | groupRoleSet | groupPolicySet | groupRoleCapsSet
deriving DecidableEq, Repr

def Capability.parse : Text → Option Capability := parseToken
  [("admin", .adminAll), ("admin.all", .adminAll), ("raft.tail", .raftTail),
    ("raft.watch", .raftWatch), ("world.warp", .worldWarp),
    ("world.proto.load", .worldProtoLoad), ("world.proto", .worldProtoLoad),
    ("proto.load", .worldProtoLoad), ("group.create", .groupCreate),
    ("group.member.add", .groupMemberAdd), ("group.add", .groupMemberAdd),
    ("group.member.remove", .groupMemberRemove), ("group.remove", .groupMemberRemove),
    ("group.role.set", .groupRoleSet), ("group.role", .groupRoleSet),
    ("group.policy.set", .groupPolicySet), ("group.policy", .groupPolicySet),
    ("group.rolecaps.set", .groupRoleCapsSet), ("group.rolecaps", .groupRoleCapsSet)]

/-! ## Characters -/

structure CombatState where
  autoattack : Bool
  target : Option CharacterId
  nextReadyMs : Nat
  seq : Nat
deriving DecidableEq, Repr

def CombatState.new (nowMs : Nat) : CombatState := ⟨false, none, nowMs, 0⟩

structure Character where
  id : CharacterId
  controller : Option SessionId
  /-- The session that originally spawned this character. -/
  createdBy : Option SessionId
  name : Text
  /-- Stable principal asserted by the broker, such as `acct:alice` or `google_sub:..`. -/
  principal : Text
  authCaps : List Capability
  isBot : Bool
  botEver : Bool
  botEverSinceMs : Option Nat
  botModeChangedMs : Nat
  friends : Finset Text
  roomId : Text
  autoassist : Bool
  followLeader : Bool
  drinkLevel : Nat
  gold : Nat
  inv : Table Text Nat
  quest : Table Text Text
  cls : Option Class
  level : Nat
  xp : Nat
  skillPoints : Nat
  skills : Table Text Nat
  skillCdMs : Table Text Nat
  race : Option Race
  sex : Sex
  pronouns : PronounKey
  stats : AbilityScores
  hp : Int
  maxHp : Int
  mana : Int
  maxMana : Int
  stamina : Int
  maxStamina : Int
  lastManaRegenMs : Nat
  lastStaminaRegenMs : Nat
  pvpEnabled : Bool
  stunnedUntilMs : Nat
  combat : CombatState
  equip : Equipment

structure PlayerSnapshot where
  name : Text
  principal : Text
  isBot : Bool
  botEver : Bool
  botEverSinceMs : Option Nat
  botModeChangedMs : Nat
  friends : List Text
  roomId : Text
  autoassist : Bool
  followLeader : Bool
  drinkLevel : Nat
  gold : Nat
  inv : Table Text Nat
  quest : Table Text Text
  cls : Text
  level : Nat
  xp : Nat
  skillPoints : Nat
  skills : Table Text Nat
  race : Text
  sex : Text
  pronouns : Text
  stats : AbilityScores
  hp : Int
  maxHp : Int
  mana : Int
  maxMana : Int
  stamina : Int
  maxStamina : Int
  pvpEnabled : Bool
  /-- Slot token to item. -/
  equip : Table Text Text

/-- The equipment of a character under the tokens of its slots. -/
def saveEquip (e : Equipment) : Table Text Text :=
  EquipSlot.all.foldl (fun m slot =>
    match e.lookup slot with
    | some item => m.insert slot.asStr item
    | none => m) ∅

/-- Saved equipment under its slots; a token that names no slot is dropped. -/
def loadEquip (m : Table Text Text) : Equipment :=
  m.entries.foldl (fun e s =>
    match EquipSlot.parse s.1 with
    | some slot => e.insert slot s.2
    | none => e) ∅

namespace PlayerSnapshot

/-- `None` for a character that is not built: mobs have neither race nor class. -/
def fromCharacter (c : Character) : Option PlayerSnapshot := do
  let race ← c.race
  let cls ← c.cls
  some {
    name := c.name
    principal := c.principal
    isBot := c.isBot
    botEver := c.botEver
    botEverSinceMs := c.botEverSinceMs
    botModeChangedMs := c.botModeChangedMs
    friends := c.friends.sort
    roomId := c.roomId
    autoassist := c.autoassist
    followLeader := c.followLeader
    drinkLevel := c.drinkLevel
    gold := c.gold
    inv := c.inv
    quest := c.quest
    cls := cls.asStr
    level := c.level
    xp := c.xp
    skillPoints := c.skillPoints
    skills := c.skills
    race := race.asStr
    sex := c.sex.asStr
    pronouns := c.pronouns.asStr
    stats := c.stats
    hp := c.hp
    maxHp := c.maxHp
    mana := c.mana
    maxMana := c.maxMana
    stamina := c.stamina
    maxStamina := c.maxStamina
    pvpEnabled := c.pvpEnabled
    equip := saveEquip c.equip }

end PlayerSnapshot

end Slopmud.Shard
