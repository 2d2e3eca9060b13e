import Slopmud.Shard.Refusals
import Slopmud.Shard.Upkeep

/-!
# Gear and trade

The lines that put gear on and take it off, those that trade with the bartender, and `quaff`. Every line
is answered. Some refusals come after something was looked for in the inventory, and strike off an entry
that counts zero.
-/

namespace Slopmud.Shard

/-! ## Tables -/

/-- `ITEMS`: the sizes -/
def ItemDef.size (d : ItemDef) : Option Size :=
  [("practice sword (small)", .small), ("practice sword (medium)", .medium),
    ("wooden buckler (small)", .small), ("wooden buckler (medium)", .medium),
    ("training tunic (small)", .small), ("training tunic (medium)", .medium),
    ("training boots (small)", .small), ("training boots (medium)", .medium)].lookup d.name

/-- `ITEMS`: the slots of the armor -/
def ItemDef.armorSlot (d : ItemDef) : Option EquipSlot :=
  [("wooden buckler (small)", .shield), ("wooden buckler (medium)", .shield),
    ("training tunic (small)", .body), ("training tunic (medium)", .body),
    ("training boots (small)", .feet), ("training boots (medium)", .feet),
    ("training gloves", EquipSlot.hands)].lookup d.name

def ItemDef.isWeapon (d : ItemDef) : Bool :=
  match d.kind with
  | .weapon .. => true
  | _ => false

def ItemDef.equipSlot (d : ItemDef) : Option EquipSlot :=
  match d.kind with
  | .weapon .. => some .wield
  | .armor => d.armorSlot
  | .consumable _ | .misc => none

theorem armorSlot_isSome : ∀ d ∈ items, d.armorSlot.isSome = true ↔ d.kind = .armor := by decide

structure DrinkItem where
  num : Nat
  name : String
  minLevel : Nat
  costGold : Nat
deriving DecidableEq, Repr

/-- `drink_menu`: the numbers, the levels and the prices -/
def drinkItems : List DrinkItem :=
  [⟨1, "fruity drink", 0, 1⟩, ⟨2, "butter beer", 1, 2⟩, ⟨3, "whiskey", 2, 3⟩, ⟨4, "absinthe", 3, 4⟩,
    ⟨5, "dragonfire rum", 4, 6⟩, ⟨6, "void martini", 5, 9⟩, ⟨7, "reality tonic", 6, 12⟩]

theorem drinkItems_name : drinkItems.map DrinkItem.name = drinkMenu.map Prod.fst := rfl

/-- `find_drink`, with what the menu says -/
def findDrinkItem (token : Text) : Option DrinkItem :=
  (findDrink token).bind fun name => drinkItems.find? fun d => decide (d.name.toList = name)

/-- `ITEM_STENCHPOUCH` -/
def itemStenchpouch : Text := "stenchpouch".toList

def isTavernSellable (token : Text) : Bool :=
  Text.toAsciiLowercase (Text.trim token) ∈ [itemStenchpouch, "stench pouch".toList, "pouch".toList]

/-! ## Lines -/

inductive EquipVerb where
  | equip | wear | wield
deriving DecidableEq, Repr

inductive GoodsCommand where
  /-- A word without its argument, by the hint that it gets -/
  | bare (hint : String)
  | equip (verb : EquipVerb) (token : Text)
  | remove (token : Text)
  | sell (rest : Text)
  | order (rest : Text)
  | quaff (token : Text)
deriving DecidableEq, Repr

def GoodsCommand.bareHints : List (String × String) :=
  [("quaff", "huh? (try: quaff fruity)\r\n"), ("drink", "huh? (try: quaff fruity)\r\n"),
    ("wear", "huh? (try: wear tunic)\r\n"), ("wield", "huh? (try: wield sword)\r\n"),
    ("remove", "huh? (try: remove body)\r\n"), ("unequip", "huh? (try: remove body)\r\n"),
    ("sell", "huh? (try: sell stenchpouch 2)\r\n"), ("order", "huh? (try: order 1)\r\n")]

def GoodsCommand.ofWord (rest : Text) : String → Option GoodsCommand
  | "quaff" | "drink" => some (.quaff rest)
  | "equip" => some (.equip .equip rest)
  | "wear" => some (.equip .wear rest)
  | "wield" => some (.equip .wield rest)
  | "remove" | "unequip" | "unwear" | "unwield" => some (.remove rest)
  | "sell" => some (.sell rest)
  | "order" => some (.order rest)
  | _ => none

/-- The lower-cased input line as a command. `equip` alone is a list of what is worn. -/
def GoodsCommand.parse (lc : Text) : Option GoodsCommand :=
  match bareHints.find? fun e => decide (lc = e.1.toList) with
  | some e => some (.bare e.2)
  | none =>
    ["quaff", "drink", "equip", "wear", "wield", "remove", "unequip", "unwear", "unwield", "sell",
      "order"].findSome? fun word =>
        (Text.stripPrefix (word.toList ++ [' ']) lc).bind fun rest => ofWord (Text.trim rest) word

/-- What a session is told, and the room when something was done -/
inductive GoodsReply where
  | refused (text : Text)
  | done (text roomMsg : Text)
deriving DecidableEq, Repr

namespace GoodsReply

def refuse (s : String) : GoodsReply := .refused s.toList

def isRefused : GoodsReply → Bool
  | .refused _ => true
  | .done .. => false

end GoodsReply

/-! ## Gear -/

namespace Character

/-- The item that `equip`, `wear` or `wield` is to put on and its slot, or why there are none. -/
def gearFor (c : Character) (verb : EquipVerb) (token : Text) : Except Text (Text × EquipSlot) :=
  if token.isEmpty then .error "huh? (try: equip sword)\r\n".toList
  else
    match matchItemKey c.inv token with
    | .ambiguous keys => .error (Refusal.ambiguous keys).text
    | .none => .error Refusal.dontHave.text
    | .one key =>
      match findItemDef key with
      | none => .error "huh? (you can't equip that)\r\n".toList
      | some d =>
        if verb = .wear ∧ d.kind ≠ .armor then .error "huh? (you can't wear that)\r\n".toList
        else if verb = .wield ∧ d.isWeapon = false then .error "huh? (you can't wield that)\r\n".toList
        else
          match d.equipSlot with
          | none => .error "huh? (you can't equip that)\r\n".toList
          | some slot =>
            -- a sized item fits one size
            if d.size.isSome ∧ c.race = none then .error "huh? (pick a race first: race list)\r\n".toList
            else if d.size.isSome ∧ d.size ≠ c.race.map Race.size then
              .error "huh? (that doesn't fit you)\r\n".toList
            else
              match c.equip.lookup slot with
              | some cur =>
                .error ("huh? (you're already wearing something there: ".toList ++ cur ++ ")\r\n".toList)
              | none => .ok (key, slot)

def doEquip (verb : EquipVerb) (token : Text) (c : Character) : GoodsReply × Character :=
  match c.gearFor verb token with
  | .error text => (.refused text, c)
  | .ok (key, slot) =>
    let (taken, inv) := invTakeOne c.inv key
    if taken = false then (.refused Refusal.dontHave.text, { c with inv })
    else
      (.done ("you equip ".toList ++ key ++ ".\r\n".toList)
        ("* ".toList ++ c.name ++ " equips ".toList ++ key ++ ".".toList),
        { c with inv, equip := c.equip.insert slot key })

/-- `Equipment::clear` for some slots: what was there, and what is left -/
def takeOff : List EquipSlot → Equipment → List Text × Equipment
  | [], e => ([], e)
  | slot :: slots, e =>
    match e.lookup slot with
    | none => takeOff slots e
    | some item => (item :: (takeOff slots (e.erase slot)).1, (takeOff slots (e.erase slot)).2)

/-- `find_equipped_slot_by_token`, by all the slots that match -/
def equippedSlotsByToken (equip : Equipment) (token : Text) : List EquipSlot :=
  let t := Text.trim token
  if t.isEmpty then []
  else EquipSlot.all.filter fun slot => (equip.lookup slot).any fun name => itemNameMatchesToken name t

/-- The slots that `remove` is to clear, or why there are none. -/
def slotsToClear (c : Character) (token : Text) : Except String (List EquipSlot) :=
  if token.isEmpty then .error "huh? (try: remove body)\r\n"
  else if Text.eqIgnoreAsciiCase token "all".toList then .ok EquipSlot.all
  else
    match EquipSlot.parse token with
    | some slot => .ok [slot]
    | none =>
      match equippedSlotsByToken c.equip token with
      | [] => .error "huh? (you're not wearing that)\r\n"
      | [slot] => .ok [slot]
      | _ => .error "huh? (ambiguous; try removing by slot: remove body)\r\n"

/-- `remove`, `unequip`, `unwear` and `unwield` -/
def doRemove (token : Text) (c : Character) : GoodsReply × Character :=
  match c.slotsToClear token with
  | .error text => (.refuse text, c)
  | .ok slots =>
    let (removed, equip) := takeOff slots c.equip
    let c' := { c with equip, inv := removed.foldl (fun inv item => World.invAdd inv item 1) c.inv }
    if Text.eqIgnoreAsciiCase token "all".toList then
      if removed.isEmpty then (.refuse "you aren't wearing anything.\r\n", c')
      else
        (.done "you remove everything.\r\n".toList
          ("* ".toList ++ c.name ++ " removes some gear.".toList), c')
    else
      match removed with
      | [] => (.refuse "huh? (nothing there)\r\n", c')
      | item :: _ =>
        (.done ("you remove ".toList ++ item ++ ".\r\n".toList)
          ("* ".toList ++ c.name ++ " removes ".toList ++ item ++ ".".toList), c')

end Character

/-! ## Trade -/

/-- `inv_take_n`: how many there were of those asked for, and what is left -/
def invTakeN (inv : Table Text Nat) (item : Text) (n : Nat) : Nat × Table Text Nat :=
  match inv.lookup item with
  | none => (0, inv)
  | some v =>
    let take := min v n
    (take, if v - take = 0 then inv.erase item else inv.insert item (v - take))

/-- How many to sell, and of what -/
def sellTrade (rest : Text) : Nat × Text :=
  if "all ".toList.isPrefixOf rest then (Word.maxU32, Text.trim (rest.drop 4))
  else (parseQtyAndItem rest).getD (1, rest)

/-- `DENY`, for a drinking level that is too low -/
def denyDrink (drinkLevel : Nat) (drink : DrinkItem) : Text :=
  let deny := ["that's a little stiff for you.", "woah. not yet. you'll fold like paper.",
    "nope. you want to *taste* your drink, right?", "you'll come back to that one. trust me.",
    "that one bites. pick something softer."]
  ("bartender: " ++ deny.getD ((drinkLevel + drink.num) % 5) "" ++ " try a fruity drink.\r\n").toList

/-- The loop of `order`: how many were served, what the bartender said, and what it makes of the
character. -/
def serve (drink : DrinkItem) : Nat → Character → Nat × Text × Character
  | 0, c => (0, [], c)
  | qty + 1, c =>
    if c.drinkLevel < drink.minLevel then (0, denyDrink c.drinkLevel drink, c)
    else if c.gold < drink.costGold then
      (0, "bartender: that'll be ".toList ++ Nat.toDigits 10 drink.costGold ++ "g.\r\n".toList, c)
    else
      let (served, said, c') := serve drink qty
        { c with gold := c.gold - drink.costGold, inv := World.invAdd c.inv drink.name.toList 1 }
      (served + 1, said, c')

namespace Upkeep

variable {Raw : Type}

/-- Put a character in the place of one. -/
def setChar (u : Upkeep Raw) (cid : CharacterId) (c : Character) : Upkeep Raw :=
  { u with battle := u.battle.updateChar cid fun _ => c }

def callBartender (u : Upkeep Raw) : GoodsReply × Upkeep Raw :=
  (.refuse "bartender isn't here (yet)\r\n", u.scheduleAtMs u.nowMs .ensureTavernMob)

def doSell (u : Upkeep Raw) (cid : CharacterId) (p : Character) (rest : Text) : GoodsReply × Upkeep Raw :=
  if p.roomId ≠ roomTavern then (.refuse "huh? (no buyer here)\r\n", u)
  else if u.bartenderId.isNone then u.callBartender
  else if rest.isEmpty then (.refuse "huh? (try: sell stenchpouch 2)\r\n", u)
  else
    let (qty, item) := sellTrade rest
    if isTavernSellable item = false then (.refuse "bartender: i don't want that.\r\n", u)
    else
      let (taken, inv) := invTakeN p.inv itemStenchpouch qty
      if taken = 0 then
        (.refuse "bartender: you don't have any stenchpouches.\r\n", u.setChar cid { p with inv })
      else
        -- 1g per stenchpouch
        (.done ("bartender: fine. ".toList ++ Nat.toDigits 10 taken ++ "g.\r\n".toList) [],
          u.setChar cid { p with inv, gold := Word.satAdd32 p.gold taken })

def doOrder (u : Upkeep Raw) (cid : CharacterId) (p : Character) (rest : Text) : GoodsReply × Upkeep Raw :=
  if p.roomId ≠ roomTavern then (.refuse "huh? (no bartender here)\r\n", u)
  else if rest.isEmpty then (.refuse "huh? (try: order 1)\r\n", u)
  else
    match parseQtyAndItem rest with
    | none => (.refuse "huh? (try: order 2 fruity)\r\n", u)
    | some (qty, item) =>
      match findDrinkItem item with
      | none => (.refuse "huh? (try: look sign)\r\n", u)
      | some drink =>
        if u.bartenderId.isNone then u.callBartender
        else
          let (served, said, c) := serve drink qty p
          if served = 0 then (.refused said, u.setChar cid c)
          else
            let many := if served = 1 then " a ".toList else [' '] ++ Nat.toDigits 10 served ++ [' ']
            (.done said ("* bartender slides ".toList ++ p.name ++ many ++ drink.name.toList ++ ".".toList),
              u.setChar cid c)

/-- What a character is told who has quaffed something, and what its room is -/
def quaffed (p : Character) (token : Text) : Text × Text :=
  match findDrink token, (findItemKeyInInventory p.inv token).bind findItemDef with
  | some drink, _ => ("you quaff a ".toList ++ drink ++ ".\r\n".toList,
      "* ".toList ++ p.name ++ " quaffs a ".toList ++ drink ++ ".".toList)
  | none, some ⟨name, _, .consumable heal⟩ =>
    let healed := min (p.hp + max heal 0) p.maxHp - p.hp
    ("you use ".toList ++ name.toList ++ ". (+".toList ++ Nat.toDigits 10 healed.toNat ++ " hp)\r\n".toList,
      "* ".toList ++ p.name ++ " uses ".toList ++ name.toList ++ ".".toList)
  | none, _ => ([], [])

/-- `quaff` and `drink`: `use` without the skills -/
def doQuaff (O : SetOrder) (u : Upkeep Raw) (cid : CharacterId) (p : Character) (token : Text) :
    GoodsReply × Upkeep Raw :=
  let u' := { u with battle := (u.battle.doUse O cid p false token).getD u.battle }
  match u.battle.useRefusal cid p false token with
  | some r => (.refused r.text, u')
  | none => (.done (quaffed p token).1 (quaffed p token).2, u')

def runGoods (O : SetOrder) (u : Upkeep Raw) (cid : CharacterId) (p : Character) :
    GoodsCommand → GoodsReply × Upkeep Raw
  | .bare hint => (.refuse hint, u)
  | .equip verb token => ((p.doEquip verb token).1, u.setChar cid (p.doEquip verb token).2)
  | .remove token => ((p.doRemove token).1, u.setChar cid (p.doRemove token).2)
  | .sell rest => u.doSell cid p rest
  | .order rest => u.doOrder cid p rest
  | .quaff token => u.doQuaff O cid p token

/-- A line that is about goods, unless it answers a question -/
def goodsLine (O : SetOrder) (u : Upkeep Raw) (session : SessionId) (line : Text) :
    Option (GoodsReply × Upkeep Raw) :=
  match GoodsCommand.parse (Text.toAsciiLowercase (Text.trim line)) with
  | none => none
  | some cmd =>
    if u.battle.world.answering session then none
    else
      match u.battle.world.activeChar session with
      | none => some (.refused Refusal.notAttached.text, u)
      | some (cid, p) => some (u.runGoods O cid p cmd)

end Upkeep

end Slopmud.Shard
