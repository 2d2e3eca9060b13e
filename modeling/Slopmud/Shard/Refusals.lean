import Slopmud.Shard.Battle

/-!
# What a refused use of a skill or an item is told

The answers of `use`, `cast`, `invoke`, `quaff` and `drink` that say no. `Battle.doUse` says what
becomes of the world.
-/

namespace Slopmud.Shard

inductive ItemKeyMatch where
  | none
  | one (key : Text)
  | ambiguous (keys : List Text)
deriving DecidableEq, Repr

/-- `find_item_key_in_inventory`, with all of its results -/
def matchItemKey (inv : Table Text Nat) (token : Text) : ItemKeyMatch :=
  let t := Text.trim token
  if t.isEmpty then .none
  else
    let found := inv.keys.filter fun k => 0 < (inv.lookup k).getD 0 ∧ itemNameMatchesToken k t
    match found with
    | [] => .none
    | [k] => .one k
    | _ =>
      match found.filter fun k => Text.eqIgnoreAsciiCase k t with
      | [k] => .one k
      | _ => .ambiguous (found.mergeSort fun x y => decide (x ≤ y)).dedup

inductive Refusal where
  | noToken
  | notAttached
  | stunned
  | untrained
  | onCooldown
  | notEnoughMana
  | notEnoughStamina
  | noTarget
  | pvpNotAllowed
  | dontHave
  | ambiguous (keys : List Text)
  | pickClass
  | unknown
  | cantUse
  | doesNothing
  | fullHp
  | tryEquip
deriving DecidableEq, Repr

def Refusal.text : Refusal → Text
  | .noToken => "huh? (try: use power_strike | use bandage | quaff fruity)\r\n".toList
  | .notAttached => "not attached\r\n".toList
  | .stunned => "huh? (you are stunned)\r\n".toList
  | .untrained => "huh? (you haven't trained that. try: train list)\r\n".toList
  | .onCooldown => "huh? (skill on cooldown)\r\n".toList
  | .notEnoughMana => "huh? (not enough mana)\r\n".toList
  | .notEnoughStamina => "huh? (not enough stamina)\r\n".toList
  | .noTarget => "huh? (no target; try: kill stenchworm)\r\n".toList
  | .pvpNotAllowed => "huh? (pvp not allowed)\r\n".toList
  | .dontHave => "huh? (you don't have that)\r\n".toList
  | .ambiguous keys =>
    "huh? (ambiguous; try one of: ".toList ++ ", ".toList.intercalate keys ++ ")\r\n".toList
  | .pickClass => "huh? (unknown; pick a class: class list)\r\n".toList
  | .unknown => "huh? (unknown skill/item)\r\n".toList
  | .cantUse => "huh? (you can't use that)\r\n".toList
  | .doesNothing => "huh? (that does nothing)\r\n".toList
  | .fullHp => "you're already at full hp.\r\n".toList
  | .tryEquip => "huh? (try: equip <item> | wear <item> | wield <item>)\r\n".toList

namespace Battle

variable {Raw : Type}

/-- The skill path: the target is looked at after the skill has been paid for. -/
def skillRefusal (b : Battle Raw) (attackerId : CharacterId) (pc : Character) (def' : SkillDef) :
    Option Refusal :=
  if (pc.skills.lookup def'.id.toList).getD 0 = 0 then some .untrained
  else if b.nowMs < (pc.skillCdMs.lookup def'.id.toList).getD 0 then some .onCooldown
  else if 0 < def'.costMana ∧ pc.mana < def'.costMana then some .notEnoughMana
  else if 0 < def'.costStamina ∧ pc.stamina < def'.costStamina then some .notEnoughStamina
  else
    let b := b.updateChar attackerId (payFor def' b.nowMs)
    match def'.target, pc.combat.target with
    | .selfOnly, _ => none
    | .combatTarget, none => some .noTarget
    | .combatTarget, some targetId =>
      if b.isPlayer targetId = true ∧ b.canPvpIds attackerId targetId = false then some .pvpNotAllowed
      else none

/-- The item path -/
def itemRefusal (pc : Character) (skills : Bool) (token : Text) : Option Refusal :=
  match findDrink token with
  | some drink => if (invTakeOne pc.inv drink).1 then none else some .dontHave
  | none =>
    match matchItemKey pc.inv token with
    | .ambiguous keys => some (.ambiguous keys)
    | .none => some (if skills ∧ pc.cls.isNone then .pickClass else .unknown)
    | .one key =>
      match (findItemDef key).map ItemDef.kind with
      | none => some .cantUse
      | some (.consumable heal) =>
        if max heal 0 = 0 then some .doesNothing
        else if pc.maxHp ≤ pc.hp then some .fullHp
        else if (invTakeOne pc.inv key).1 then none
        else some .dontHave
      | some (.weapon ..) | some .armor => some .tryEquip
      | some .misc => some .cantUse

def useRefusal (b : Battle Raw) (cid : CharacterId) (pc : Character) (skills : Bool) (token : Text) :
    Option Refusal :=
  if token.isEmpty then some .noToken
  else if b.nowMs < pc.stunnedUntilMs then some .stunned
  else
    match (if skills then pc.cls else none).bind fun cls => findSkillForClass cls token with
    | some def' => b.skillRefusal cid pc def'
    | none => itemRefusal pc skills token

/-- The answer to a line that is `use`, `cast` or `invoke`, if it is a refusal -/
def refusedUse (b : Battle Raw) (session : SessionId) (line : Text) : Option Text :=
  match Command.parse (Text.toAsciiLowercase (Text.trim line)) with
  | some (.use token) =>
    if b.world.answering session then none
    else
      match b.world.activeChar session with
      | none => some Refusal.notAttached.text
      | some (cid, pc) => (b.useRefusal cid pc true token).map Refusal.text
  | _ => none

end Battle

end Slopmud.Shard
