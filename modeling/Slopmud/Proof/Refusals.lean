import Slopmud.Lib.Counts
import Slopmud.Proof.Vitals
import Slopmud.Shard.Refusals

/-!
# What a refused skill costs

Most refusals of `use` leave the world as it is. The two that look at the target come after the
skill has been paid for, and do not give the payment back.
-/

namespace Slopmud.Shard

open Machine Table

variable {Raw : Type}

/-- The character has what the skill takes: a rank, no cooldown, and the mana and the stamina. -/
structure Ready (nowMs : Nat) (d : SkillDef) (c : Character) : Prop where
  trained : (c.skills.lookup d.id.toList).getD 0 ≠ 0
  offCooldown : (c.skillCdMs.lookup d.id.toList).getD 0 ≤ nowMs
  mana : 0 < d.costMana → d.costMana ≤ c.mana
  stamina : 0 < d.costStamina → d.costStamina ≤ c.stamina

/-- Mana, stamina and cooldowns are the same. -/
def Unpaid (c c' : Character) : Prop :=
  c'.mana = c.mana ∧ c'.stamina = c.stamina ∧ c'.skillCdMs = c.skillCdMs

theorem cooldown_pos : ∀ d ∈ allSkills, 0 < d.cooldownMs := by decide

/-- Paying starts the cooldown anew, which is always seen. -/
theorem Ready.not_unpaid {nowMs : Nat} {d : SkillDef} {c : Character} (h : Ready nowMs d c)
    (hd : d ∈ allSkills) : ¬ Unpaid c (Battle.payFor d nowMs c) := by
  rintro ⟨-, -, hcds⟩
  have hready := h.offCooldown
  have hpos := cooldown_pos d hd
  have hnew : (c.skillCdMs.insert d.id.toList (nowMs + d.cooldownMs)).lookup d.id.toList =
      c.skillCdMs.lookup d.id.toList := by
    rw [show c.skillCdMs.insert d.id.toList (nowMs + d.cooldownMs) = c.skillCdMs from hcds]
  rw [AList.lookup_insert] at hnew
  rw [← hnew, Option.getD_some] at hready
  omega

theorem findItemKeyInInventory_eq (inv : Table Text Nat) (token : Text) :
    findItemKeyInInventory inv token =
      match matchItemKey inv token with
      | .one key => some key
      | _ => none := by
  unfold findItemKeyInInventory matchItemKey
  dsimp only
  split
  · rfl
  · cases inv.keys.filter fun k => 0 < (inv.lookup k).getD 0 ∧ itemNameMatchesToken k (Text.trim token) with
    | nil => rfl
    | cons k found =>
      cases found with
      | nil => rfl
      | cons k' found =>
        dsimp only
        cases (k :: k' :: found).filter fun k => Text.eqIgnoreAsciiCase k (Text.trim token) with
        | nil => rfl
        | cons e exact => cases exact <;> rfl

/-- There was none: at most an entry of zero is struck off. -/
theorem invTakeOne_false {inv : Table Text Nat} {item : Text} (h : (invTakeOne inv item).1 = false) :
    Struck inv (invTakeOne inv item).2 := by
  unfold invTakeOne at h ⊢
  split at h
  · exact Or.inl rfl
  · next hzero => exact Or.inr ⟨item, hzero, rfl⟩
  · cases h

namespace Battle

/-- There is no target, or it is a player whom the character may not attack. -/
def BadTarget (b : Battle Raw) (cid : CharacterId) (c : Character) : Prop :=
  match c.combat.target with
  | none => True
  | some t => b.isPlayer t = true ∧ b.canPvpIds cid t = false

/-- The line uses a combat skill for which the character is ready, and that has no target. -/
def PaysForNothing (b : Battle Raw) (session : SessionId) (line : Text) (cid : CharacterId)
    (c : Character) : Prop :=
  ∃ token cls d, Command.parse (Text.toAsciiLowercase (Text.trim line)) = some (.use token)
    ∧ b.world.answering session = false ∧ c.stunnedUntilMs ≤ b.nowMs
    ∧ c.cls = some cls ∧ findSkillForClass cls token = some d
    ∧ Ready b.nowMs d c ∧ d.target = .combatTarget ∧ b.BadTarget cid c

variable {b : Battle Raw} {cid : CharacterId} {c : Character} {O : SetOrder}

/-- **A refused skill** leaves the world as it is, or was paid for. -/
theorem useSkill_refused {d : SkillDef} {r : Refusal} (h : b.skillRefusal cid c d = some r) :
    (b.useSkill O cid c d = none ∧ ¬ Ready b.nowMs d c) ∨
      (b.useSkill O cid c d = some (b.updateChar cid (payFor d b.nowMs)) ∧ Ready b.nowMs d c
        ∧ d.target = .combatTarget ∧ b.BadTarget cid c) := by
  unfold skillRefusal at h
  unfold useSkill
  dsimp only at h ⊢
  by_cases hrank : (c.skills.lookup d.id.toList).getD 0 = 0
  · rw [if_pos (Or.inl hrank)]
    exact Or.inl ⟨rfl, fun hready => hready.trained hrank⟩
  rw [if_neg hrank] at h
  by_cases hcd : b.nowMs < (c.skillCdMs.lookup d.id.toList).getD 0
  · rw [if_pos (Or.inr (Or.inl hcd))]
    exact Or.inl ⟨rfl, fun hready => Nat.not_le_of_lt hcd hready.offCooldown⟩
  rw [if_neg hcd] at h
  by_cases hmana : 0 < d.costMana ∧ c.mana < d.costMana
  · rw [if_pos (Or.inr (Or.inr (Or.inl hmana)))]
    exact Or.inl ⟨rfl, fun hready => Int.not_le.mpr hmana.2 (hready.mana hmana.1)⟩
  rw [if_neg hmana] at h
  by_cases hstamina : 0 < d.costStamina ∧ c.stamina < d.costStamina
  · rw [if_pos (Or.inr (Or.inr (Or.inr hstamina)))]
    exact Or.inl ⟨rfl, fun hready => Int.not_le.mpr hstamina.2 (hready.stamina hstamina.1)⟩
  rw [if_neg hstamina] at h
  rw [if_neg (by tauto)]
  have hready : Ready b.nowMs d c := {
    trained := hrank
    offCooldown := Nat.le_of_not_lt hcd
    mana := fun hpos => Int.le_of_not_gt fun hlt => hmana ⟨hpos, hlt⟩
    stamina := fun hpos => Int.le_of_not_gt fun hlt => hstamina ⟨hpos, hlt⟩ }
  cases htarget : d.target with
  | selfOnly => simp [htarget] at h
  | combatTarget =>
    right
    cases hof : c.combat.target with
    | none => exact ⟨rfl, hready, rfl, by simp [BadTarget, hof]⟩
    | some t =>
      simp only [htarget, hof, Option.ite_none_right_eq_some] at h
      obtain ⟨hbad, -⟩ := h
      dsimp only
      rw [if_pos hbad]
      rw [isPlayer_payFor, canPvpIds_payFor] at hbad
      exact ⟨rfl, hready, rfl, by simpa [BadTarget, hof] using hbad⟩

/-- A refused item can be struck off the inventory. -/
theorem useItem_refused {skills : Bool} {token : Text} {r : Refusal}
    (h : itemRefusal c skills token = some r) :
    b.useItem cid c token = none ∨ ∃ inv, Struck c.inv inv
      ∧ b.useItem cid c token = some (b.updateChar cid fun c => { c with inv }) := by
  unfold itemRefusal at h
  unfold useItem
  cases hdrink : findDrink token with
  | some drink =>
    right
    simp only [hdrink, Option.ite_none_left_eq_some] at h
    have htaken : (invTakeOne c.inv drink).1 = false := by simpa using h.1
    exact ⟨(invTakeOne c.inv drink).2, invTakeOne_false htaken, by simp [htaken]⟩
  | none =>
    simp only [hdrink, findItemKeyInInventory_eq] at h ⊢
    cases hkey : matchItemKey c.inv token with
    | none => exact Or.inl rfl
    | ambiguous keys => exact Or.inl rfl
    | one key =>
      simp only [hkey] at h
      cases hitem : findItemDef key with
      | none => exact Or.inl (by simp [hitem])
      | some item =>
        simp only [hitem, Option.map_some] at h
        cases hkind : item.kind with
        | weapon lo hi => exact Or.inl (by simp [hitem, hkind])
        | armor => exact Or.inl (by simp [hitem, hkind])
        | misc => exact Or.inl (by simp [hitem, hkind])
        | consumable heal =>
          simp only [hkind] at h
          simp only [hitem, hkind, Option.bind_eq_bind, Option.bind_some]
          split at h
          · next hzero => exact Or.inl (by rw [if_pos (Or.inl hzero)])
          · split at h
            · next hfull => exact Or.inl (by rw [if_pos (Or.inr hfull)])
            · next hzero hfull =>
              right
              simp only [Option.ite_none_left_eq_some] at h
              have htaken : (invTakeOne c.inv key).1 = false := by simpa using h.1
              rw [if_neg (by tauto)]
              exact ⟨(invTakeOne c.inv key).2, invTakeOne_false htaken, by simp [htaken]⟩

theorem findSkillForClass_nil (cls : Class) : findSkillForClass cls [] = none := rfl

/-- What remains of the character when a use is refused -/
theorem doUse_refused {token : Text} {r : Refusal} (hc : b.char cid = some c)
    (h : b.useRefusal cid c true token = some r) :
    (∃ c', ((b.doUse O cid c true token).getD b).char cid = some c' ∧ Unpaid c c') ↔
      ¬ ∃ cls d, c.stunnedUntilMs ≤ b.nowMs ∧ c.cls = some cls ∧ findSkillForClass cls token = some d
        ∧ Ready b.nowMs d c ∧ d.target = .combatTarget ∧ b.BadTarget cid c := by
  have hsame : ∃ c', b.char cid = some c' ∧ Unpaid c c' := ⟨c, hc, rfl, rfl, rfl⟩
  unfold useRefusal at h
  unfold doUse
  by_cases hempty : token.isEmpty = true
  · rw [if_pos (Or.inl hempty)]
    refine iff_of_true hsame ?_
    rintro ⟨cls, d, -, -, hfind, -⟩
    rw [List.isEmpty_iff.mp hempty, findSkillForClass_nil] at hfind
    cases hfind
  rw [if_neg hempty] at h
  by_cases hstun : b.nowMs < c.stunnedUntilMs
  · rw [if_pos (Or.inr hstun)]
    refine iff_of_true hsame ?_
    rintro ⟨cls, d, hnot, -⟩
    omega
  rw [if_neg hstun] at h
  rw [if_neg (by tauto)]
  cases hskill : c.cls.bind fun cls => findSkillForClass cls token with
  | none =>
    simp only [if_true, hskill] at h ⊢
    refine iff_of_true ?_ ?_
    · have hrefused : b.useItem cid c token = none ∨ ∃ inv, Struck c.inv inv
          ∧ b.useItem cid c token = some (b.updateChar cid fun c => { c with inv }) := useItem_refused h
      rcases hrefused with hnone | ⟨inv, -, hsome⟩
      · rw [hnone]
        exact hsame
      · rw [hsome, Option.getD_some, char_updateChar, if_pos rfl, hc]
        exact ⟨_, rfl, rfl, rfl, rfl⟩
    · rintro ⟨cls, d, -, hcls, hfind, -⟩
      rw [hcls, Option.bind_some, hfind] at hskill
      cases hskill
  | some d =>
    simp only [if_true, hskill] at h ⊢
    obtain ⟨cls, hcls, hfind⟩ := Option.bind_eq_some_iff.mp hskill
    have honly : ∀ d', (∃ cls, c.cls = some cls ∧ findSkillForClass cls token = some d') → d' = d := by
      rintro d' ⟨cls', hcls', hfind'⟩
      rw [hcls', Option.bind_some, hfind'] at hskill
      exact Option.some.inj hskill
    rcases useSkill_refused (O := O) h with ⟨hnone, hnot⟩ | ⟨hsome, hready, htarget, hbad⟩
    · rw [hnone]
      refine iff_of_true hsame ?_
      rintro ⟨cls', d', -, hcls', hfind', hready, -⟩
      rw [honly d' ⟨cls', hcls', hfind'⟩] at hready
      exact hnot hready
    · rw [hsome, Option.getD_some, char_updateChar, if_pos rfl, hc]
      refine iff_of_false ?_ ?_
      · rintro ⟨c', hc', hunpaid⟩
        cases hc'
        exact hready.not_unpaid (mem_allSkills_of_find hfind) hunpaid
      · exact fun hnot => hnot ⟨cls, d, by omega, hcls, hfind, hready, htarget, hbad⟩

/-- **A refused skill costs nothing**, except where its target is refused: then the character was
ready for it, and has paid. -/
theorem refused_costs_nothing_iff (O : SetOrder) (b : Battle Raw) (session : SessionId) (line : Text)
    {text : Text} {cid : CharacterId} {c : Character}
    (hrefused : b.refusedUse session line = some text)
    (hactive : b.world.activeChar session = some (cid, c)) :
    (∃ c', ((b.line O session line).getD b).char cid = some c' ∧ Unpaid c c') ↔
      ¬ b.PaysForNothing session line cid c := by
  unfold refusedUse at hrefused
  split at hrefused
  · next token hparse =>
    split at hrefused
    · cases hrefused
    · next hanswer =>
      have hanswer : b.world.answering session = false := by simpa using hanswer
      rw [hactive] at hrefused
      obtain ⟨r, hr, -⟩ := Option.map_eq_some_iff.mp hrefused
      have hline : b.line O session line = b.doUse O cid c true token := by
        simp [Battle.line, hparse, hanswer, run, hactive]
      rw [hline, doUse_refused (lookup_of_activeChar hactive) hr]
      refine not_congr ⟨?_, ?_⟩
      · rintro ⟨cls, d, hrest⟩
        exact ⟨token, cls, d, hparse, hanswer, hrest⟩
      · rintro ⟨token', cls, d, hparse', -, hrest⟩
        rw [hparse] at hparse'
        cases hparse'
        exact ⟨cls, d, hrest⟩
  · cases hrefused

end Battle

/-! ## A strike at nobody -/

namespace Duel

/-- Alice as she was saved: a fighter who has trained one skill. -/
def veteran : PlayerSnapshot where
  name := "alice".toList
  principal := "acct:alice".toList
  isBot := false
  botEver := false
  botEverSinceMs := none
  botModeChangedMs := 0
  friends := []
  roomId := "arena.pit".toList
  autoassist := true
  followLeader := false
  drinkLevel := 0
  gold := 0
  inv := ∅
  quest := ∅
  cls := "fighter".toList
  level := 2
  xp := 0
  skillPoints := 0
  skills := (∅ : Table Text Nat).insert "power_strike".toList 1
  race := "human".toList
  sex := "none".toList
  pronouns := "they".toList
  stats := assignCoreStatsForClass .fighter
  hp := 12
  maxHp := 12
  mana := 0
  maxMana := 0
  stamina := 14
  maxStamina := 14
  pvpEnabled := false
  equip := ∅

/-- Alice is back. -/
def returned : Option Duel :=
  exec step (Battle.new (Codec.direct _) true arena (some [veteran])) [.realm (.shard (attachAs 1 "alice"))]

/-- She has struck once, and has stamina left. -/
def struck : Option Duel := returned.bind fun b => b.line someOrder 1 "use power_strike".toList

end Duel

/-- Without a target she is refused, and has paid two points of stamina. -/
theorem Battle.strike_at_nobody_is_paid :
    (Duel.returned.map fun b : Duel =>
      (b.refusedUse 1 "use power_strike".toList, (b.char 1).map Character.stamina,
        (b.line someOrder 1 "use power_strike".toList).map fun b' : Duel => (b'.char 1).map Character.stamina))
      = some (some Refusal.noTarget.text, some 14, some (some 12)) := by decide +kernel

/-- Her second strike comes too soon. It is refused, and she keeps what she has. -/
theorem Battle.refused_costs_nothing_iff_cooldown : ∃ (b : Duel) (c c' : Character),
    Duel.struck = some b ∧ b.char 1 = some c ∧ c.stamina = 12
      ∧ b.refusedUse 1 "use power_strike".toList = some Refusal.onCooldown.text
      ∧ ((b.line someOrder 1 "use power_strike".toList).getD b).char 1 = some c' ∧ Unpaid c c' := by
  have hrun : (Duel.struck.map fun b : Duel => decide (
      b.refusedUse 1 "use power_strike".toList = some Refusal.onCooldown.text
      ∧ (b.world.activeChar 1).map (fun e => (e.1, e.2.stamina, e.2.cls,
          decide (b.nowMs < (e.2.skillCdMs.lookup "power_strike".toList).getD 0)))
        = some (1, 12, some .fighter, true))) = some true := by
    decide +kernel
  obtain ⟨b, hb, hout⟩ := Option.map_eq_some_iff.mp hrun
  obtain ⟨hrefused, hactive⟩ := of_decide_eq_true hout
  obtain ⟨⟨cid, c⟩, hc, hstate⟩ := Option.map_eq_some_iff.mp hactive
  simp only [Prod.mk.injEq, decide_eq_true_eq] at hstate
  obtain ⟨rfl, hstamina, hfighter, hcooling⟩ := hstate
  -- the only skill of the line is the one that is on cooldown
  have hnot : ¬ b.PaysForNothing 1 "use power_strike".toList 1 c := by
    rintro ⟨token, cls, d, hparse, -, -, hcls, hfind, hready, -⟩
    have htoken : Command.parse (Text.toAsciiLowercase (Text.trim "use power_strike".toList))
        = some (.use "power_strike".toList) := by decide +kernel
    have hd : (findSkillForClass .fighter "power_strike".toList).map SkillDef.id
        = some "power_strike" := by decide +kernel
    cases htoken.symm.trans hparse
    cases hfighter.symm.trans hcls
    rw [hfind, Option.map_some, Option.some.injEq] at hd
    have hoff := hready.offCooldown
    rw [hd] at hoff
    exact absurd hcooling (Nat.not_lt.mpr hoff)
  obtain ⟨c', hc', hunpaid⟩ :=
    (Battle.refused_costs_nothing_iff someOrder b 1 _ hrefused hc).mpr hnot
  exact ⟨b, c, c', hb, lookup_of_activeChar hc, hstamina, hrefused, hc', hunpaid⟩

end Slopmud.Shard
