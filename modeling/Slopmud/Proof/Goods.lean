import Slopmud.Lib.TableSum
import Slopmud.Proof.Refusals
import Slopmud.Proof.Upkeep
import Slopmud.Shard.Goods

/-!
# Goods are kept

What a line about goods makes of gold, inventory and equipment: gear moves between the inventory and the
slots, goods and gold change hands at the price, and a line that is refused moves nothing.
-/

namespace Slopmud.Shard

open Machine Table

namespace Character

def held (c : Character) (item : Text) : Nat := countOf c.inv item

/-- In how many slots an item is -/
def slotsOf (e : Equipment) (item : Text) : Nat := totalOn (fun _ i => if i = item then 1 else 0) e

def worn (c : Character) (item : Text) : Nat := slotsOf c.equip item

/-- At most one item is counted differently. -/
def OnlyItem (c : Character) (item : Text) (c' : Character) : Prop := ∀ other, other ≠ item → c'.held other = c.held other

/-- Nothing is different but that an entry of zero may be gone. -/
def Unmoved (c c' : Character) : Prop := ∃ inv, Struck c.inv inv ∧ c' = { c with inv }

/-- What a line that is not refused makes of the goods of the one who gives it -/
def Accounts (c c' : Character) : GoodsCommand → Prop
  | .bare _ => False
  | .equip .. => c'.gold = c.gold ∧ (∃ item, c.OnlyItem item c')
      ∧ ∀ item, c'.held item + c'.worn item = c.held item + c.worn item
  | .remove _ => c'.gold = c.gold ∧ ∀ item, c'.held item + c'.worn item = c.held item + c.worn item
  | .sell rest => c'.equip = c.equip ∧ c.OnlyItem itemStenchpouch c' ∧ ∃ k ≤ (sellTrade rest).1,
      c'.held itemStenchpouch + k = c.held itemStenchpouch ∧ c'.gold = c.gold + k * 1
  | .order rest => c'.equip = c.equip ∧ ∃ qty name drink, parseQtyAndItem rest = some (qty, name)
      ∧ findDrinkItem name = some drink ∧ c.OnlyItem drink.name.toList c' ∧ ∃ k ≤ qty,
        c'.held drink.name.toList = c.held drink.name.toList + k ∧ c'.gold + k * drink.costGold = c.gold
  | .quaff _ => c'.gold = c.gold ∧ c'.equip = c.equip ∧ ∃ item, c.OnlyItem item c' ∧ ∃ k ≤ 1,
      c'.held item + k = c.held item

/-- The quantities that a command makes greater stay below `2 ^ 32`. -/
def Fits (c : Character) : GoodsCommand → Prop
  | .remove token => ∀ slots, c.slotsToClear token = .ok slots →
      ∀ item, c.held item + (takeOff slots c.equip).1.count item < 2 ^ 32
  | .sell rest => c.gold + min (sellTrade rest).1 (c.held itemStenchpouch) < 2 ^ 32
  | .order rest => ∀ qty name drink, parseQtyAndItem rest = some (qty, name) →
      findDrinkItem name = some drink → c.held drink.name.toList + min qty (c.gold / drink.costGold) < 2 ^ 32
  | .bare _ | .equip .. | .quaff _ => True

/-- What a command and its answer come to -/
structure Settles (c : Character) (cmd : GoodsCommand) (reply : GoodsReply) (c' : Character) : Prop where
  refused : reply.isRefused = true →
    c'.gold = c.gold ∧ c'.equip = c.equip ∧ ∀ item, c'.held item = c.held item
  /-- Not even an entry is different, unless one of them was zero. -/
  same : reply.isRefused = true → (∀ item, c.inv.lookup item ≠ some 0) → c' = c
  done : reply.isRefused = false → Accounts c c' cmd
  noZero : LeavesNoZero c.inv c'.inv

variable {c c' : Character} {cmd : GoodsCommand}

theorem Unmoved.refl (c : Character) : Unmoved c c := ⟨c.inv, Or.inl rfl, rfl⟩

theorem Settles.ofRefused (text : Text) (h : Unmoved c c') : Settles c cmd (.refused text) c' := by
  obtain ⟨inv, hstruck, rfl⟩ := h
  exact {
    refused := fun _ => ⟨rfl, rfl, fun item => hstruck.countOf item⟩
    same := fun _ hnone => by rw [hstruck.eq hnone]
    done := fun h => by cases h
    noZero := hstruck.leavesNoZero }

theorem Settles.ofDone {text roomMsg : Text} (h : Accounts c c' cmd) (hzero : LeavesNoZero c.inv c'.inv) :
    Settles c cmd (.done text roomMsg) c' where
  refused := fun h => by cases h
  same := fun h => by cases h
  done := fun _ => h
  noZero := hzero

end Character

/-! ## The inventory -/

theorem countOf_invAdd (inv : Table Text Nat) (item item' : Text) (n : Nat) :
    countOf (World.invAdd inv item n) item'
      = if item' = item then Word.satAdd32 (countOf inv item) n else countOf inv item' :=
  countOf_insert inv item item' _

theorem leavesNoZero_invAdd (inv : Table Text Nat) (item : Text) {n : Nat} (hn : n ≠ 0) :
    LeavesNoZero inv (World.invAdd inv item n) := by
  refine .insert inv item ?_
  unfold Word.satAdd32 Word.maxU32
  omega

theorem invTakeOne_true {inv : Table Text Nat} {item : Text} (h : (invTakeOne inv item).1 = true) :
    ∃ n, countOf inv item = n + 1 ∧ (invTakeOne inv item).2 = putCount inv item n := by
  unfold invTakeOne at h ⊢
  unfold countOf
  split at h
  · cases h
  · cases h
  · next n hn =>
    rw [hn]
    exact ⟨n, rfl, rfl⟩

theorem invTakeN_fst (inv : Table Text Nat) (item : Text) (n : Nat) :
    (invTakeN inv item n).1 = min (countOf inv item) n := by
  unfold invTakeN countOf
  cases inv.lookup item with
  | none => exact (Nat.zero_min n).symm
  | some v => rfl

theorem invTakeN_snd {inv : Table Text Nat} {item : Text} {n : Nat} (h : (invTakeN inv item n).1 ≠ 0) :
    (invTakeN inv item n).2 = putCount inv item (countOf inv item - min (countOf inv item) n) := by
  unfold invTakeN countOf at *
  cases hv : inv.lookup item with
  | none => simp [hv] at h
  | some v => rfl

theorem invTakeN_none {inv : Table Text Nat} {item : Text} {n : Nat} (hn : 0 < n)
    (h : (invTakeN inv item n).1 = 0) : Struck inv (invTakeN inv item n).2 := by
  unfold invTakeN at h ⊢
  cases hv : inv.lookup item with
  | none => exact Or.inl rfl
  | some v =>
    have hzero : v = 0 := by
      simp only [hv] at h
      omega
    subst hzero
    exact Or.inr ⟨item, hv, by simp⟩

/-! ## Gear -/

theorem slotsOf_insert {e : Equipment} {slot : EquipSlot} (h : e.lookup slot = none) (key item : Text) :
    Character.slotsOf (e.insert slot key) item = Character.slotsOf e item + if key = item then 1 else 0 :=
  totalOn_insert_new h key

theorem slotsOf_erase {e : Equipment} {slot : EquipSlot} {key : Text} (h : e.lookup slot = some key)
    (item : Text) :
    Character.slotsOf e item = (if key = item then 1 else 0) + Character.slotsOf (e.erase slot) item :=
  totalOn_erase h

namespace Character

theorem takeOff_count (slots : List EquipSlot) (e : Equipment) (item : Text) :
    (takeOff slots e).1.count item + slotsOf (takeOff slots e).2 item = slotsOf e item := by
  induction slots generalizing e with
  | nil => simp [takeOff]
  | cons slot slots ih =>
    unfold takeOff
    cases hslot : e.lookup slot with
    | none => exact ih e
    | some key =>
      have hrest := ih (e.erase slot)
      have hthis := slotsOf_erase hslot item
      simp only [List.count_cons, beq_iff_eq]
      omega

theorem takeOff_nothing {slots : List EquipSlot} {e : Equipment} (h : (takeOff slots e).1 = []) :
    (takeOff slots e).2 = e := by
  induction slots generalizing e with
  | nil => rfl
  | cons slot slots ih =>
    unfold takeOff at h ⊢
    cases hslot : e.lookup slot with
    | none =>
      simp only [hslot] at h ⊢
      exact ih h
    | some key => simp [hslot] at h

/-- Taking in some items, one by one -/
theorem countOf_takeIn (removed : List Text) (inv : Table Text Nat) (item : Text)
    (hfits : countOf inv item + removed.count item < 2 ^ 32) :
    countOf (removed.foldl (fun inv item => World.invAdd inv item 1) inv) item
      = countOf inv item + removed.count item := by
  induction removed generalizing inv with
  | nil => rfl
  | cons key removed ih =>
    have hadd := countOf_invAdd inv key item 1
    rw [List.count_cons] at hfits ⊢
    rw [List.foldl_cons]
    by_cases heq : item = key
    · subst heq
      rw [beq_self_eq_true, if_pos rfl] at hfits ⊢
      rw [if_pos rfl, Word.satAdd32_of_lt (by omega)] at hadd
      rw [ih _ (by omega), hadd]
      omega
    · rw [if_neg heq] at hadd
      have hne : ¬ (key == item) = true := by simpa using Ne.symm heq
      rw [if_neg hne] at hfits ⊢
      rw [ih _ (by omega), hadd]
      omega

theorem leavesNoZero_takeIn (removed : List Text) (inv : Table Text Nat) :
    LeavesNoZero inv (removed.foldl (fun inv item => World.invAdd inv item 1) inv) := by
  induction removed generalizing inv with
  | nil => exact .refl inv
  | cons key removed ih => exact (leavesNoZero_invAdd inv key (by decide)).trans (ih _)

variable {c c' : Character}

/-- Only a free slot is filled. -/
theorem gearFor_free {verb : EquipVerb} {token key : Text} {slot : EquipSlot}
    (h : c.gearFor verb token = .ok (key, slot)) : c.equip.lookup slot = none := by
  unfold gearFor at h
  repeat' split at h
  all_goals cases h
  assumption

/-- **Putting gear on** moves one item. -/
theorem doEquip_settles (verb : EquipVerb) (token : Text) (c : Character) :
    c.Settles (.equip verb token) (c.doEquip verb token).1 (c.doEquip verb token).2 := by
  unfold doEquip
  cases hgear : c.gearFor verb token with
  | error text => exact .ofRefused text (.refl c)
  | ok gear =>
    obtain ⟨key, slot⟩ := gear
    have hslot := gearFor_free hgear
    dsimp only
    split
    · next hnone => exact .ofRefused _ ⟨_, invTakeOne_false hnone, rfl⟩
    · next hsome =>
      obtain ⟨n, hn, hinv⟩ := invTakeOne_true (by simpa using hsome)
      have hheld : ∀ item, countOf (invTakeOne c.inv key).2 item
          = if item = key then n else countOf c.inv item := fun item => by rw [hinv, countOf_putCount]
      refine .ofDone ⟨rfl, ⟨key, fun other hne => (hheld other).trans (if_neg hne)⟩, fun item => ?_⟩ ?_
      · have hworn := slotsOf_insert hslot key item
        have hitem := hheld item
        unfold held worn
        dsimp only
        by_cases heq : item = key
        · subst heq
          rw [if_pos rfl] at hworn hitem
          omega
        · rw [if_neg (Ne.symm heq)] at hworn
          rw [if_neg heq] at hitem
          omega
      · rw [hinv]
        exact .putCount c.inv key n

/-- **Taking gear off** moves what was in the slots. -/
theorem doRemove_settles (token : Text) (c : Character) (hfits : c.Fits (.remove token)) :
    c.Settles (.remove token) (c.doRemove token).1 (c.doRemove token).2 := by
  unfold doRemove
  cases hslots : c.slotsToClear token with
  | error text => exact .ofRefused _ (.refl c)
  | ok slots =>
    have hfits := hfits slots hslots
    dsimp only
    have hsame : (takeOff slots c.equip).1 = [] → Unmoved c { c with
        equip := (takeOff slots c.equip).2
        inv := (takeOff slots c.equip).1.foldl (fun inv item => World.invAdd inv item 1) c.inv } := by
      intro hnil
      rw [hnil, takeOff_nothing hnil]
      exact .refl c
    have haccounts : Accounts c { c with
        equip := (takeOff slots c.equip).2
        inv := (takeOff slots c.equip).1.foldl (fun inv item => World.invAdd inv item 1) c.inv }
        (.remove token) := by
      refine ⟨rfl, fun item => ?_⟩
      have hin := countOf_takeIn (takeOff slots c.equip).1 c.inv item (hfits item)
      have hout := takeOff_count slots c.equip item
      unfold held worn
      dsimp only
      omega
    split
    · split
      · next hnil => exact .ofRefused _ (hsame (List.isEmpty_iff.mp hnil))
      · exact .ofDone haccounts (leavesNoZero_takeIn _ c.inv)
    · split
      · next hnil => exact .ofRefused _ (hsame hnil)
      · exact .ofDone haccounts (leavesNoZero_takeIn _ c.inv)

end Character

/-! ## Trade -/

/-- What `k` drinks cost, and bring -/
structure Served (drink : DrinkItem) (k : Nat) (c c' : Character) : Prop where
  gold : c'.gold + k * drink.costGold = c.gold
  equip : c'.equip = c.equip
  only : c.OnlyItem drink.name.toList c'
  count : c.held drink.name.toList + k < 2 ^ 32 →
    c'.held drink.name.toList = c.held drink.name.toList + k
  noZero : LeavesNoZero c.inv c'.inv
  none : k = 0 → c' = c

theorem Served.refl (drink : DrinkItem) (c : Character) : Served drink 0 c c where
  gold := by omega
  equip := rfl
  only := fun _ _ => rfl
  count := fun _ => rfl
  noZero := .refl c.inv
  none := fun _ => rfl

/-- One more, paid for before the others -/
theorem Served.pour {drink : DrinkItem} {k : Nat} {c c' : Character} (hgold : drink.costGold ≤ c.gold)
    (h : Served drink k { c with
      gold := c.gold - drink.costGold
      inv := World.invAdd c.inv drink.name.toList 1 } c') : Served drink (k + 1) c c' where
  gold := by
    have hrest := h.gold
    dsimp only at hrest
    rw [Nat.succ_mul]
    omega
  equip := h.equip
  only := fun other hne => (h.only other hne).trans ((countOf_invAdd ..).trans (if_neg hne))
  count := by
    intro hfits
    have hfits : countOf c.inv drink.name.toList + (k + 1) < 2 ^ 32 := hfits
    have hone := countOf_invAdd c.inv drink.name.toList drink.name.toList 1
    rw [if_pos rfl, Word.satAdd32_of_lt (by omega)] at hone
    have hrest : countOf (World.invAdd c.inv drink.name.toList 1) drink.name.toList + k < 2 ^ 32 →
        c'.held drink.name.toList = countOf (World.invAdd c.inv drink.name.toList 1) drink.name.toList + k :=
      h.count
    have hmany := hrest (by omega)
    unfold Character.held at hmany ⊢
    omega
  noZero := (leavesNoZero_invAdd c.inv drink.name.toList (by decide)).trans h.noZero
  none := fun h => by cases h

/-- **The loop of `order`** serves no more than was ordered, and takes the price of each. -/
theorem serve_served (drink : DrinkItem) (qty : Nat) (c : Character) :
    (serve drink qty c).1 ≤ qty ∧ Served drink (serve drink qty c).1 c (serve drink qty c).2.2 := by
  induction qty generalizing c with
  | zero => exact ⟨Nat.le_refl 0, .refl drink c⟩
  | succ qty ih =>
    unfold serve
    split
    · exact ⟨Nat.zero_le _, .refl drink c⟩
    split
    · exact ⟨Nat.zero_le _, .refl drink c⟩
    · next hgold =>
      have hrest := ih { c with
        gold := c.gold - drink.costGold
        inv := World.invAdd c.inv drink.name.toList 1 }
      exact ⟨Nat.succ_le_succ hrest.1, hrest.2.pour (Nat.le_of_not_lt hgold)⟩

theorem costGold_pos : ∀ d ∈ drinkItems, 0 < d.costGold := by decide

theorem parse_sell (rest : Text) : GoodsCommand.parse ("sell ".toList ++ rest) = some (.sell (Text.trim rest)) := by
  rfl

theorem parse_order (rest : Text) : GoodsCommand.parse ("order ".toList ++ rest) = some (.order (Text.trim rest)) := by
  rfl

/-- What is on the menu has a level and a price. -/
theorem drinks_listed : ∀ d ∈ drinkMenu, ∃ e ∈ drinkItems, e.name.toList = d.1.toList := by decide

theorem findDrinkItem_isSome {token : Text} (h : (findDrink token).isSome = true) :
    (findDrinkItem token).isSome = true := by
  obtain ⟨name, hname⟩ := Option.isSome_iff_exists.mp h
  unfold findDrink at hname
  dsimp only at hname
  split at hname
  · cases hname
  · next htoken =>
    obtain ⟨d, hd, rfl⟩ := Option.map_eq_some_iff.mp hname
    obtain ⟨e, he, heq⟩ := drinks_listed d (List.mem_of_find?_eq_some hd)
    unfold findDrinkItem
    have hname : findDrink token = some d.1.toList := by
      unfold findDrink
      simp only [htoken, hd]
      rfl
    rw [hname, Option.bind_some, List.find?_isSome]
    exact ⟨e, he, decide_eq_true heq⟩

theorem findDrinkItem_mem {token : Text} {drink : DrinkItem} (h : findDrinkItem token = some drink) :
    drink ∈ drinkItems := by
  obtain ⟨name, -, hfind⟩ := Option.bind_eq_some_iff.mp h
  exact List.mem_of_find?_eq_some hfind

/-- A quantity of none is one. -/
theorem parseQtyAndItem_pos {s name : Text} {qty : Nat} (h : parseQtyAndItem s = some (qty, name)) :
    0 < qty := by
  unfold parseQtyAndItem at h
  split at h
  · cases h
  · cases h
    exact Nat.one_pos
  · dsimp only at h
    split at h
    · cases h
      exact Nat.lt_of_lt_of_le Nat.one_pos (Nat.le_max_right _ 1)
    · split at h
      · cases h
        exact Nat.lt_of_lt_of_le Nat.one_pos (Nat.le_max_right _ 1)
      · cases h
        exact Nat.one_pos

theorem sellTrade_pos (rest : Text) : 0 < (sellTrade rest).1 := by
  unfold sellTrade
  split
  · show 0 < Word.maxU32
    decide
  · cases hparse : parseQtyAndItem rest with
    | none => exact Nat.one_pos
    | some e => exact @parseQtyAndItem_pos rest e.2 e.1 hparse

namespace Upkeep

variable {Raw : Type} {u : Upkeep Raw} {cid : CharacterId} {p : Character}

/-- One character is another one now, and all others are what they were. -/
def Becomes (u u' : Upkeep Raw) (cid : CharacterId) (c : Character) : Prop :=
  ∀ other, u'.battle.char other = if other = cid then some c else u.battle.char other

theorem becomes_updateChar (hp : u.battle.char cid = some p) (f : Character → Character) :
    u.Becomes { u with battle := u.battle.updateChar cid f } cid (f p) := by
  intro other
  dsimp only
  rw [Battle.char_updateChar, hp, Option.map_some]

theorem becomes_setChar (hp : u.battle.char cid = some p) (c : Character) :
    u.Becomes (u.setChar cid c) cid c := becomes_updateChar hp fun _ => c

theorem becomes_refl (hp : u.battle.char cid = some p) : u.Becomes u cid p := by
  intro other
  split
  · next heq => rw [heq, hp]
  · rfl

/-- A refusal that leaves everything as it is -/
theorem settles_refused (hp : u.battle.char cid = some p) (cmd : GoodsCommand) (text : Text) :
    ∃ p', u.Becomes u cid p' ∧ p.Settles cmd (.refused text) p' :=
  ⟨p, becomes_refl hp, .ofRefused text (.refl p)⟩

/-- **Selling** takes what there is of the quantity, for a gold piece each. -/
theorem doSell_settles {rest : Text} (hp : u.battle.char cid = some p) (hfits : p.Fits (.sell rest)) :
    ∃ p', u.Becomes (u.doSell cid p rest).2 cid p' ∧ p.Settles (.sell rest) (u.doSell cid p rest).1 p' := by
  have hrefused := fun text => settles_refused hp (.sell rest) text
  unfold doSell
  split
  · exact hrefused _
  split
  · exact hrefused _
  split
  · exact hrefused _
  dsimp only
  split
  · exact hrefused _
  split
  · next hnone =>
    exact ⟨_, becomes_setChar hp _, .ofRefused _ ⟨_, invTakeN_none (sellTrade_pos rest) hnone, rfl⟩⟩
  · next hsome =>
    have htaken := invTakeN_fst p.inv itemStenchpouch (sellTrade rest).1
    have hinv := invTakeN_snd hsome
    refine ⟨_, becomes_setChar hp _, .ofDone ⟨rfl, fun other hne => ?_, (invTakeN p.inv itemStenchpouch
      (sellTrade rest).1).1, ?_, ?_, ?_⟩ ?_⟩
    · show countOf (invTakeN p.inv itemStenchpouch (sellTrade rest).1).2 other = countOf p.inv other
      rw [hinv, countOf_putCount, if_neg hne]
    · omega
    · show countOf (invTakeN p.inv itemStenchpouch (sellTrade rest).1).2 itemStenchpouch
        + (invTakeN p.inv itemStenchpouch (sellTrade rest).1).1 = countOf p.inv itemStenchpouch
      rw [hinv, countOf_putCount, if_pos rfl]
      omega
    · have hfits : p.gold + min (sellTrade rest).1 (countOf p.inv itemStenchpouch) < 2 ^ 32 := hfits
      rw [Nat.mul_one]
      exact Word.satAdd32_of_lt (by omega)
    · rw [hinv]
      exact .putCount p.inv itemStenchpouch _

/-- **Ordering** buys what there is gold for. -/
theorem doOrder_settles {rest : Text} (hp : u.battle.char cid = some p) (hfits : p.Fits (.order rest)) :
    ∃ p', u.Becomes (u.doOrder cid p rest).2 cid p' ∧ p.Settles (.order rest) (u.doOrder cid p rest).1 p' := by
  have hrefused := fun text => settles_refused hp (.order rest) text
  unfold doOrder
  split
  · exact hrefused _
  split
  · exact hrefused _
  cases hparse : parseQtyAndItem rest with
  | none => exact hrefused _
  | some order =>
    obtain ⟨qty, name⟩ := order
    dsimp only
    cases hdrink : findDrinkItem name with
    | none => exact hrefused _
    | some drink =>
      dsimp only
      split
      · exact hrefused _
      obtain ⟨hle, hserved⟩ := serve_served drink qty p
      split
      · next hzero =>
        refine ⟨p, ?_, .ofRefused _ (.refl p)⟩
        rw [hserved.none hzero]
        exact becomes_setChar hp p
      · have hgold : (serve drink qty p).1 ≤ p.gold / drink.costGold := by
          have hpaid := hserved.gold
          rw [Nat.le_div_iff_mul_le (costGold_pos drink (findDrinkItem_mem hdrink))]
          omega
        have hcount := hserved.count (by
          have hroom := hfits qty name drink hparse hdrink
          omega)
        exact ⟨_, becomes_setChar hp _, .ofDone ⟨hserved.equip, qty, name, drink, hparse, hdrink, hserved.only,
          (serve drink qty p).1, hle, hcount, hserved.gold⟩ hserved.noZero⟩

end Upkeep

/-! ## Quaffing -/

/-- One item is gone, and of the goods nothing else. -/
def UsesOne (c c' : Character) : Prop :=
  c'.gold = c.gold ∧ c'.equip = c.equip
    ∧ ∃ item n, countOf c.inv item = n + 1 ∧ c'.inv = putCount c.inv item n

theorem UsesOne.accounts {c c' : Character} (h : UsesOne c c') (token : Text) :
    c.Accounts c' (.quaff token) := by
  obtain ⟨hgold, hequip, item, n, hn, hinv⟩ := h
  refine ⟨hgold, hequip, item, fun other hne => ?_, 1, Nat.le_refl 1, ?_⟩
  · show countOf c'.inv other = countOf c.inv other
    rw [hinv, countOf_putCount, if_neg hne]
  · show countOf c'.inv item + 1 = countOf c.inv item
    rw [hinv, countOf_putCount, if_pos rfl, hn]

theorem UsesOne.noZero {c c' : Character} (h : UsesOne c c') : LeavesNoZero c.inv c'.inv := by
  obtain ⟨-, -, item, n, -, hinv⟩ := h
  rw [hinv]
  exact .putCount c.inv item n

namespace Battle

variable {Raw : Type} {b : Battle Raw} {cid : CharacterId} {c : Character}

/-- An item that is not refused is used up. -/
theorem useItem_done {token : Text} (h : itemRefusal c false token = none) :
    ∃ f, b.useItem cid c token = some (b.updateChar cid f) ∧ UsesOne c (f c) := by
  unfold itemRefusal at h
  unfold useItem
  cases hdrink : findDrink token with
  | some drink =>
    simp only [hdrink, ite_eq_left_iff, reduceCtorEq, imp_false, Bool.not_eq_true, Bool.not_eq_false] at h
    exact ⟨_, rfl, rfl, rfl, drink, invTakeOne_true h⟩
  | none =>
    simp only [hdrink, findItemKeyInInventory_eq] at h ⊢
    cases hkey : matchItemKey c.inv token with
    | none => simp [hkey] at h
    | ambiguous keys => simp [hkey] at h
    | one key =>
      simp only [hkey] at h
      cases hitem : findItemDef key with
      | none => simp [hitem] at h
      | some item =>
        simp only [hitem, Option.map_some] at h
        cases hkind : item.kind with
        | weapon lo hi => simp [hkind] at h
        | armor => simp [hkind] at h
        | misc => simp [hkind] at h
        | consumable heal =>
          simp only [hkind] at h
          simp only [hitem, hkind, Option.bind_eq_bind, Option.bind_some]
          split at h
          · cases h
          split at h
          · cases h
          next hheal hhurt =>
          split at h
          · next htaken =>
            refine ⟨_, by rw [if_neg (not_or.mpr ⟨hheal, hhurt⟩)], ?_⟩
            simp only [htaken, if_true]
            exact ⟨rfl, rfl, key, invTakeOne_true htaken⟩
          · cases h

/-- `quaff` has no skills. -/
theorem useRefusal_quaff {token : Text} (hready : ¬ (token.isEmpty = true ∨ b.nowMs < c.stunnedUntilMs)) :
    b.useRefusal cid c false token = itemRefusal c false token := by
  obtain ⟨hempty, hstun⟩ := not_or.mp hready
  unfold useRefusal
  rw [if_neg hempty, if_neg hstun]
  rfl

theorem doUse_quaff {O : SetOrder} {token : Text}
    (hready : ¬ (token.isEmpty = true ∨ b.nowMs < c.stunnedUntilMs)) :
    b.doUse O cid c false token = b.useItem cid c token := by
  unfold doUse
  rw [if_neg hready]
  rfl

end Battle

namespace Upkeep

variable {Raw : Type} {u : Upkeep Raw} {cid : CharacterId} {p : Character}

/-- **Quaffing** uses up one item. -/
theorem doQuaff_settles {O : SetOrder} {token : Text} (hp : u.battle.char cid = some p) :
    ∃ p', u.Becomes (u.doQuaff O cid p token).2 cid p'
      ∧ p.Settles (.quaff token) (u.doQuaff O cid p token).1 p' := by
  unfold doQuaff
  by_cases hready : token.isEmpty = true ∨ u.battle.nowMs < p.stunnedUntilMs
  · have hnone : u.battle.doUse O cid p false token = none := by
      unfold Battle.doUse
      rw [if_pos hready]
    have hsome : ∃ r, u.battle.useRefusal cid p false token = some r := by
      unfold Battle.useRefusal
      by_cases hempty : token.isEmpty = true
      · exact ⟨.noToken, if_pos hempty⟩
      · exact ⟨.stunned, by rw [if_neg hempty, if_pos (hready.resolve_left hempty)]⟩
    obtain ⟨r, hr⟩ := hsome
    rw [hr, hnone]
    exact ⟨p, becomes_refl hp, .ofRefused r.text (.refl p)⟩
  · rw [Battle.useRefusal_quaff hready, Battle.doUse_quaff hready]
    cases hrefusal : Battle.itemRefusal p false token with
    | some r =>
      have hrefused : u.battle.useItem cid p token = none ∨ ∃ inv, Struck p.inv inv
          ∧ u.battle.useItem cid p token = some (u.battle.updateChar cid fun c => { c with inv }) :=
        Battle.useItem_refused hrefusal
      rcases hrefused with hnone | ⟨inv, hstruck, hsome⟩
      · rw [hnone]
        exact ⟨p, becomes_refl hp, .ofRefused r.text (.refl p)⟩
      · rw [hsome]
        exact ⟨_, becomes_updateChar hp _, .ofRefused r.text ⟨inv, hstruck, rfl⟩⟩
    | none =>
      obtain ⟨f, hsome, huses⟩ : ∃ f, u.battle.useItem cid p token = some (u.battle.updateChar cid f)
        ∧ UsesOne p (f p) := Battle.useItem_done hrefusal
      rw [hsome]
      exact ⟨_, becomes_updateChar hp f, .ofDone (huses.accounts token) huses.noZero⟩

/-- What a line about goods comes to: nothing without a character, and otherwise no other character is
different. -/
theorem runGoods_settles {O : SetOrder} {cmd : GoodsCommand} (hp : u.battle.char cid = some p)
    (hfits : p.Fits cmd) :
    ∃ p', u.Becomes (u.runGoods O cid p cmd).2 cid p' ∧ p.Settles cmd (u.runGoods O cid p cmd).1 p' := by
  cases cmd with
  | bare hint => exact settles_refused hp (.bare hint) hint.toList
  | equip verb token => exact ⟨_, becomes_setChar hp _, Character.doEquip_settles verb token p⟩
  | remove token => exact ⟨_, becomes_setChar hp _, Character.doRemove_settles token p hfits⟩
  | sell rest => exact doSell_settles hp hfits
  | order rest => exact doOrder_settles hp hfits
  | quaff token => exact doQuaff_settles hp

/-- What a sale or an order is for upkeep, it is here. -/
theorem goodsLine_of_tavernLine {O : SetOrder} {u u' : Upkeep Raw} {session : SessionId} {line : Text}
    (h : u.tavernLine session line = some u') :
    ∃ reply, u.goodsLine O session line = some (reply, u') ∧ reply.isRefused = true := by
  unfold tavernLine at h
  obtain ⟨⟨cid, p⟩, hactive, h⟩ := Option.bind_eq_some_iff.mp h
  simp only [Option.ite_none_left_eq_some, Option.ite_none_right_eq_some, Option.some.injEq] at h
  obtain ⟨hanswer, ⟨hasks, hbar⟩, rfl⟩ := h
  unfold asksBartender at hasks
  obtain ⟨hroom, hasks⟩ := (Bool.and_eq_true ..).mp hasks
  have hroom : p.roomId = roomTavern := by simpa using hroom
  have hcalled : ∀ cmd, GoodsCommand.parse (Text.toAsciiLowercase (Text.trim line)) = some cmd →
      u.runGoods O cid p cmd = u.callBartender → ∃ reply, u.goodsLine O session line
        = some (reply, u.scheduleAtMs u.nowMs .ensureTavernMob) ∧ reply.isRefused = true := by
    intro cmd hcmd hrun
    refine ⟨u.callBartender.1, ?_, rfl⟩
    simp only [goodsLine, hcmd, hactive, hrun, if_neg hanswer]
    rfl
  split at hasks
  · next rest hsell =>
    refine hcalled (.sell (Text.trim rest)) ?_ ?_
    · rw [Text.eq_append_of_stripPrefix hsell, parse_sell]
    · simp only [runGoods, doSell, hroom, hbar, ne_eq, not_true_eq_false, if_false, if_true]
  · next rest _ horder =>
    simp only [Option.any_eq_true] at hasks
    obtain ⟨⟨qty, name⟩, hparse, hdrink⟩ := hasks
    obtain ⟨drink, hdrink⟩ := Option.isSome_iff_exists.mp (findDrinkItem_isSome hdrink)
    have hnonempty : ¬ (Text.trim rest).isEmpty = true := by
      intro hempty
      rw [List.isEmpty_iff.mp hempty] at hparse
      cases hparse
    refine hcalled (.order (Text.trim rest)) ?_ ?_
    · rw [Text.eq_append_of_stripPrefix horder, parse_order]
    · simp only [runGoods, doOrder, hroom, hbar, hparse, hdrink, hnonempty, ne_eq, not_true_eq_false, if_false,
        if_true, Bool.false_eq_true]
  · cases hasks

/-- **Goods are kept.** A line that is refused moves nothing; gear that is put on or taken off is moved;
what is sold, bought or used up is as much as the line says at most, and is paid for; and no entry of
zero is left behind. -/
theorem goodsLine_settles (O : SetOrder) (u : Upkeep Raw) (session : SessionId) (line : Text)
    {cmd : GoodsCommand} {reply : GoodsReply} {u' : Upkeep Raw}
    (hcmd : GoodsCommand.parse (Text.toAsciiLowercase (Text.trim line)) = some cmd)
    (hfits : ∀ cid p, u.battle.world.activeChar session = some (cid, p) → p.Fits cmd)
    (h : u.goodsLine O session line = some (reply, u')) :
    (u.battle.world.activeChar session = none ∧ reply.isRefused = true ∧ u' = u)
      ∨ ∃ cid p p', u.battle.world.activeChar session = some (cid, p) ∧ u.Becomes u' cid p'
        ∧ p.Settles cmd reply p' := by
  unfold goodsLine at h
  simp only [hcmd] at h
  split at h
  · cases h
  cases hactive : u.battle.world.activeChar session with
  | none =>
    rw [hactive] at h
    cases h
    exact Or.inl ⟨rfl, rfl, rfl⟩
  | some e =>
    obtain ⟨cid, p⟩ := e
    rw [hactive] at h
    have hrun : u.runGoods O cid p cmd = (reply, u') := Option.some.inj h
    obtain ⟨p', hbecomes, hsettles⟩ :=
      runGoods_settles (O := O) (lookup_of_activeChar hactive) (hfits cid p hactive)
    rw [hrun] at hbecomes hsettles
    exact Or.inr ⟨cid, p, p', rfl, hbecomes, hsettles⟩

end Upkeep

/-! ## Alice sells a stenchpouch -/

namespace Tavern

/-- Alice after her hunt, when she has said that she sells none of her stenchpouches. -/
def saleOfNone : Option (Tavern × GoodsReply × Tavern) :=
  (exec step start wormHunt).bind fun u =>
    (u.goodsLine someOrder 1 "sell 0 stenchpouch".toList).map fun e => (u, e.1, e.2)

theorem saleOfNone_sold : ∃ u reply u' cid p p', exec step start wormHunt = some u
    ∧ u.goodsLine someOrder 1 "sell 0 stenchpouch".toList = some (reply, u')
    ∧ u.battle.world.activeChar 1 = some (cid, p) ∧ u'.battle.char cid = some p'
    ∧ p.gold = 0 ∧ p.held itemStenchpouch = 1 ∧ p'.held itemStenchpouch = 0 := by
  have hrun : saleOfNone.map (fun e => (e.1.battle.world.activeChar 1).map fun a =>
      (e.2.2.battle.char a.1).map fun p' => decide (a.2.gold = 0 ∧ a.2.held itemStenchpouch = 1
        ∧ p'.held itemStenchpouch = 0)) = some (some (some true)) := by decide +kernel
  obtain ⟨⟨u, reply, u'⟩, hsale, hactive⟩ := Option.map_eq_some_iff.mp hrun
  obtain ⟨⟨cid, p⟩, hactive, hchar⟩ := Option.map_eq_some_iff.mp hactive
  obtain ⟨p', hp', hgoods⟩ := Option.map_eq_some_iff.mp hchar
  obtain ⟨hgold, hheld, hsold⟩ := of_decide_eq_true hgoods
  obtain ⟨u₀, hexec, hsale⟩ := Option.bind_eq_some_iff.mp hsale
  obtain ⟨e, hline, heq⟩ := Option.map_eq_some_iff.mp hsale
  cases heq
  exact ⟨u, e.1, e.2, cid, p, p', hexec, hline, hactive, hp', hgold, hheld, hsold⟩

end Tavern

/-- The sale is paid for, and nobody else has a part in it. -/
theorem Upkeep.goodsLine_settles_sale : ∃ (u u' : Tavern) (reply : GoodsReply) (cid : CharacterId)
    (p p' : Character), u.goodsLine someOrder 1 "sell 0 stenchpouch".toList = some (reply, u')
      ∧ p.held itemStenchpouch = 1 ∧ u.Becomes u' cid p'
      ∧ p.Settles (.sell "0 stenchpouch".toList) reply p' := by
  obtain ⟨u, reply, u', cid, p, -, -, hline, hactive, -, hgold, hheld, -⟩ := Tavern.saleOfNone_sold
  have hfits : ∀ cid' p', u.battle.world.activeChar 1 = some (cid', p') →
      p'.Fits (.sell "0 stenchpouch".toList) := by
    intro cid' p' hactive'
    rw [hactive] at hactive'
    cases hactive'
    show p.gold + min _ (p.held itemStenchpouch) < 2 ^ 32
    omega
  have hcmd : GoodsCommand.parse (Text.toAsciiLowercase (Text.trim "sell 0 stenchpouch".toList))
      = some (.sell "0 stenchpouch".toList) := by decide +kernel
  rcases Upkeep.goodsLine_settles someOrder u 1 "sell 0 stenchpouch".toList hcmd hfits hline with
    ⟨hnone, -⟩ | ⟨cid', p₀, p', hactive', hbecomes, hsettles⟩
  · rw [hactive] at hnone
    cases hnone
  · rw [hactive] at hactive'
    cases hactive'
    exact ⟨u, u', reply, cid, p, p', hline, hheld, hbecomes, hsettles⟩

/-- **A sale of none sells one.** -/
theorem sells_more_than_asked : ∃ (u u' : Tavern) (reply : GoodsReply) (cid : CharacterId)
    (p p' : Character), exec Tavern.step Tavern.start Tavern.wormHunt = some u
      ∧ u.goodsLine someOrder 1 "sell 0 stenchpouch".toList = some (reply, u')
      ∧ u.battle.world.activeChar 1 = some (cid, p) ∧ u'.battle.char cid = some p'
      ∧ ¬ ∃ k ≤ 0, p'.held itemStenchpouch + k = p.held itemStenchpouch := by
  obtain ⟨u, reply, u', cid, p, p', hexec, hline, hactive, hp', -, hheld, hsold⟩ := Tavern.saleOfNone_sold
  refine ⟨u, u', reply, cid, p, p', hexec, hline, hactive, hp', ?_⟩
  rintro ⟨k, hk, heq⟩
  omega

end Slopmud.Shard
