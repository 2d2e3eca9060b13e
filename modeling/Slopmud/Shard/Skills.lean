import Slopmud.Lib.Word
import Slopmud.Shard.Character

/-!
# Skills and items

The tables that fighting reads: which skill a class has under which names, what it costs and what
it does; and of the items what a weapon rolls and what a consumable heals. Sums of `i32` are taken
in the integers here, and only the casts `as i32` wrap.
-/

namespace Slopmud.Shard

/-! ## Skills -/

inductive SkillTarget where
  | combatTarget
  | selfOnly
deriving DecidableEq, Repr

inductive SkillEffect where
  | damage (base perRank : Int) (ability : Ability)
  | heal (base perRank : Int) (ability : Ability)
deriving DecidableEq, Repr

structure SkillDef where
  id : String
  display : String
  aliases : List String
  classes : List Class
  cooldownMs : Nat
  costMana : Int
  costStamina : Int
  target : SkillTarget
  effect : SkillEffect
deriving DecidableEq, Repr

/-- `ALL_SKILLS` -/
def allSkills : List SkillDef := [
  ⟨"power_strike", "Power Strike", ["power", "strike", "powerstrike"], [.fighter], 3000, 0, 2, .combatTarget,
    .damage 5 1 .str⟩,
  ⟨"shield_bash", "Shield Bash", ["bash", "shield"], [.fighter], 4500, 0, 3, .combatTarget,
    .damage 4 1 .str⟩,
  ⟨"magic_missile", "Magic Missile", ["missile", "mm", "magic"], [.wizard], 2500, 3, 0, .combatTarget,
    .damage 4 1 .int⟩,
  ⟨"frost_bolt", "Frost Bolt", ["frost", "ice", "bolt"], [.wizard], 3200, 4, 0, .combatTarget,
    .damage 5 1 .int⟩,
  ⟨"backstab", "Backstab", ["stab", "back"], [.rogue], 4000, 0, 3, .combatTarget,
    .damage 6 1 .dex⟩,
  ⟨"dirty_trick", "Dirty Trick", ["dirt", "trick", "pocket"], [.rogue], 3500, 0, 2, .combatTarget,
    .damage 4 1 .dex⟩,
  ⟨"heal", "Heal", ["healing", "mend", "restore"], [.cleric, .druid, .paladin], 5000, 5, 0, .selfOnly,
    .heal 5 2 .wis⟩,
  ⟨"smite", "Smite", ["smite", "holy"], [.cleric], 3500, 3, 0, .combatTarget,
    .damage 5 1 .wis⟩,
  ⟨"holy_bolt", "Holy Bolt", ["bolt", "holybolt"], [.cleric], 2800, 2, 0, .combatTarget,
    .damage 4 1 .wis⟩,
  ⟨"aimed_shot", "Aimed Shot", ["aim", "shot"], [.ranger], 3200, 0, 2, .combatTarget,
    .damage 5 1 .dex⟩,
  ⟨"thorn_whip", "Thorn Whip", ["thorn", "whip"], [.ranger], 4200, 2, 0, .combatTarget,
    .damage 4 1 .wis⟩,
  ⟨"divine_smite", "Divine Smite", ["dsmite", "divine", "smite"], [.paladin], 4500, 2, 2, .combatTarget,
    .damage 6 1 .str⟩,
  ⟨"rage_strike", "Rage Strike", ["rage", "rstrike"], [.barbarian], 2800, 0, 3, .combatTarget,
    .damage 6 1 .str⟩,
  ⟨"cutting_words", "Cutting Words", ["cut", "words", "cw"], [.bard], 3000, 3, 0, .combatTarget,
    .damage 4 1 .cha⟩,
  ⟨"sun_spark", "Sun Spark", ["sun", "spark"], [.druid], 3000, 3, 0, .combatTarget,
    .damage 5 1 .wis⟩,
  ⟨"eldritch_blast", "Eldritch Blast", ["blast", "eb", "eldritch"], [.warlock], 2600, 3, 0, .combatTarget,
    .damage 5 1 .cha⟩,
  ⟨"fire_bolt", "Fire Bolt", ["fire", "bolt", "fb"], [.sorcerer], 2800, 3, 0, .combatTarget,
    .damage 5 1 .cha⟩,
  ⟨"flurry", "Flurry", ["flurry", "combo"], [.monk], 3200, 0, 3, .combatTarget,
    .damage 5 1 .dex⟩,
  ⟨"second_wind", "Second Wind", ["wind", "second"], [.fighter], 8000, 0, 0, .selfOnly,
    .heal 4 2 .con⟩,
  ⟨"shadow_step", "Shadow Step", ["shadow", "step"], [.rogue], 9000, 0, 2, .combatTarget,
    .damage 5 1 .dex⟩,
  ⟨"arcane_pulse", "Arcane Pulse", ["pulse", "ap"], [.wizard], 7000, 6, 0, .combatTarget,
    .damage 7 1 .int⟩,
  ⟨"prayer_of_steel", "Prayer of Steel", ["steel", "prayer"], [.paladin], 7000, 4, 0, .selfOnly,
    .heal 4 2 .wis⟩,
  ⟨"nature_touch", "Nature's Touch", ["touch", "nature"], [.druid], 6500, 5, 0, .selfOnly,
    .heal 5 2 .wis⟩,
  ⟨"hex", "Hex", ["hex", "curse"], [.warlock], 6000, 4, 0, .combatTarget,
    .damage 6 1 .cha⟩]

/-- A name, or one of several other names, without regard to ASCII case. -/
def namesToken (name : String) (aliases : List String) (token : Text) : Bool :=
  (name :: aliases).any fun a => Text.eqIgnoreAsciiCase a.toList token

def findSkillForClass (cls : Class) (token : Text) : Option SkillDef :=
  let t := Text.toAsciiLowercase (Text.trim token)
  if t.isEmpty then none
  else allSkills.find? fun s => s.classes.contains cls && namesToken s.id (s.display :: s.aliases) t

def skillStunMs (d : SkillDef) : Nat :=
  if d.id = "shield_bash" then 1500
  else if d.id = "dirty_trick" then 1200
  else 0

/-- `compute_skill_amount` -/
def computeSkillAmount (d : SkillDef) (rank : Nat) (stats : AbilityScores) : Int :=
  let r : Int := Word.toI32 (max rank 1 : Nat)
  match d.effect with
  | .damage base perRank ability | .heal base perRank ability =>
    base + perRank * (r - 1) + max (stats.modFor ability) 0

/-- `xp_needed_for_next` -/
def xpNeededForNext (level : Nat) : Nat := 10 * max level 1

def Class.attackAbility : Class → Ability
  | .monk | .rogue | .ranger => .dex
  | _ => .str

/-! ## Items -/

inductive ItemKind where
  | weapon (dmgMin dmgMax : Int)
  | armor
  | consumable (heal : Int)
  | misc
deriving DecidableEq, Repr

structure ItemDef where
  name : String
  aliases : List String
  kind : ItemKind
deriving DecidableEq, Repr

/-- `ITEMS` -/
def items : List ItemDef := [
  ⟨"stenchpouch", ["stench", "pouch", "stench pouch"], .misc⟩,
  ⟨"field bandage", ["bandage", "bandages", "field", "heal", "healing"], .consumable 6⟩,
  ⟨"practice sword (small)", ["sword", "practice sword", "blade"], .weapon 2 5⟩,
  ⟨"practice sword (medium)", ["sword", "practice sword", "blade"], .weapon 2 5⟩,
  ⟨"wooden buckler (small)", ["buckler", "shield"], .armor⟩,
  ⟨"wooden buckler (medium)", ["buckler", "shield"], .armor⟩,
  ⟨"training tunic (small)", ["tunic", "shirt", "armor", "armour", "training tunic"], .armor⟩,
  ⟨"training tunic (medium)", ["tunic", "shirt", "armor", "armour", "training tunic"], .armor⟩,
  ⟨"training boots (small)", ["boots", "shoes", "training boots"], .armor⟩,
  ⟨"training boots (medium)", ["boots", "shoes", "training boots"], .armor⟩,
  ⟨"training gloves", ["gloves", "gauntlets", "hands"], .armor⟩]

def findItemDef (name : Text) : Option ItemDef :=
  let t := Text.trim name
  if t.isEmpty then none else items.find? fun d => Text.eqIgnoreAsciiCase d.name.toList t

/-- `ItemDef::matches_token` -/
def ItemDef.matchesToken (d : ItemDef) (token : Text) : Bool :=
  let t := Text.toAsciiLowercase (Text.trim token)
  !t.isEmpty && (t.isPrefixOf (Text.toAsciiLowercase d.name.toList)
    || d.aliases.any fun a => Text.eqIgnoreAsciiCase a.toList t)

def itemNameMatchesToken (itemName token : Text) : Bool :=
  match findItemDef itemName with
  | some d => d.matchesToken token
  | none =>
    let t := Text.toAsciiLowercase (Text.trim token)
    !t.isEmpty && t.isPrefixOf (Text.toAsciiLowercase (Text.trim itemName))

/-- `find_item_key_in_inventory`. Neither no match nor several are of use. -/
def findItemKeyInInventory (inv : Table Text Nat) (token : Text) : Option Text :=
  let t := Text.trim token
  if t.isEmpty then none
  else
    let found := inv.keys.filter fun k => 0 < (inv.lookup k).getD 0 ∧ itemNameMatchesToken k t
    match found with
    | [k] => some k
    | _ =>
      -- an exact match is preferred
      match found.filter fun k => Text.eqIgnoreAsciiCase k t with
      | [k] => some k
      | _ => none

/-- `drink_menu`: the names and the aliases -/
def drinkMenu : List (String × List String) :=
  [("fruity drink", ["fruity", "fruit", "juice", "1"]),
    ("butter beer", ["butter", "beer", "butterbeer", "2"]),
    ("whiskey", ["whiskey", "whisky", "3"]),
    ("absinthe", ["absinthe", "4"]),
    ("dragonfire rum", ["dragonfire", "rum", "5"]),
    ("void martini", ["void", "martini", "6"]),
    ("reality tonic", ["reality", "tonic", "7"])]

def findDrink (token : Text) : Option Text :=
  let t := Text.toAsciiLowercase (Text.trim token)
  if t.isEmpty then none
  else (drinkMenu.find? fun d => namesToken d.1 d.2 t).map fun d => d.1.toList

/-- `inv_take_one`: whether there was one, and what is left -/
def invTakeOne (inv : Table Text Nat) (item : Text) : Bool × Table Text Nat :=
  match inv.lookup item with
  | none => (false, inv)
  | some 0 => (false, inv.erase item)
  | some (n + 1) => (true, if n = 0 then inv.erase item else inv.insert item n)

end Slopmud.Shard
