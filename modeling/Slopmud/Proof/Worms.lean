import Slopmud.Proof.Pending
import Slopmud.Shard.Upkeep

/-!
# Worms that are killed

A step of a fight takes a stenchworm out of the world when, and only when, it strikes a blow that is
worth the hit points which the worm has left. Which blow a step strikes, if any, can be read off
the state before it.
-/

namespace Slopmud.Shard

open Machine Table

variable {Raw Auth : Type}

/-! ## Blows -/

structure Blow where
  attacker : CharacterId
  target : CharacterId
  dmg : Int
deriving DecidableEq, Repr

namespace Battle

/-- A mob that is in the room of its attacker, and is hurt by its last hit points or more. -/
def fells (b : Battle Raw) (w : Blow) : Bool :=
  match b.char w.attacker, b.char w.target with
  | some att, some tgt =>
    tgt.controller.isNone && att.roomId == tgt.roomId && decide (tgt.hp - w.dmg ≤ 0)
  | _, _ => false

/-- Whether a blow, if there is one, takes `cid` out of the world. -/
def takes (b : Battle Raw) (blow : Option Blow) (cid : CharacterId) : Bool :=
  blow.any fun w => cid == w.target && b.fells w

def fellsWorm (b : Battle Raw) (blow : Option Blow) : Bool :=
  blow.any fun w => b.isWorm w.target && b.fells w

/-- The skill that a command uses against its target -/
def commandBlow (b : Battle Raw) (session : SessionId) : Option Command → Option Blow
  | some (.use token) => do
    let (a, p) ← b.world.activeChar session
    let d ← p.cls.bind fun cls => findSkillForClass cls token
    let t ← p.combat.target
    match d.target with
    | .selfOnly => none
    | .combatTarget =>
      some ⟨a, t, max (computeSkillAmount d ((p.skills.lookup d.id.toList).getD 0) p.stats) 0⟩
  | _ => none

/-- The autoattack of a player who is ready for it -/
def eventBlow (b : Battle Raw) (draw : Nat) : EventKind → Option Blow
  | .combatAct a => do
    let att ← b.char a
    let t ← att.combat.target
    if att.controller.isSome ∧ att.combat.autoattack = true ∧ att.stunnedUntilMs ≤ b.nowMs
        ∧ att.combat.nextReadyMs ≤ b.nowMs then
      some ⟨a, t, b.computeAutoattackDamage a draw⟩
    else none
  | _ => none

variable {b b' : Battle Raw} {a t cid : CharacterId}

theorem takes_none (b : Battle Raw) (cid : CharacterId) : b.takes none cid = false := rfl

theorem takes_iff {blow : Option Blow} :
    b.takes blow cid = true ↔ ∃ w, blow = some w ∧ cid = w.target ∧ b.fells w = true := by
  simp [takes, Option.any_eq_true]

theorem wormKilled_iff : b.wormKilled b' = true ↔ ∃ cid, b.isWorm cid = true ∧ b'.isWorm cid = false := by
  simp only [wormKilled, List.any_eq_true, Bool.and_eq_true, Bool.not_eq_true']
  constructor
  · rintro ⟨cid, -, hworm⟩
    exact ⟨cid, hworm⟩
  · rintro ⟨cid, hworm, hgone⟩
    obtain ⟨c, hc, -⟩ := (Option.any_eq_true _ _).mp hworm
    have hkey : cid ∈ b.world.chars.keys :=
      AList.mem_keys.mpr (AList.lookup_isSome.mp (Option.isSome_of_eq_some hc))
    exact ⟨cid, hkey, hworm, hgone⟩

theorem takes_of_not_fells {w : Blow} (p : Prop) [Decidable p] (h : b.fells w = false) (cid : CharacterId) :
    b.takes (if p then some w else none) cid = false := by
  split
  · simp [takes, h]
  · rfl

theorem takes_of_isPlayer {w : Blow} (h : b.isPlayer w.target = true) (cid : CharacterId) :
    b.takes (some w) cid = false := by
  obtain ⟨c, hc, hplayer⟩ := (Option.any_eq_true _ _).mp h
  have hnot : c.controller.isNone = false := by
    rw [Option.isNone_eq_false_iff]
    exact hplayer
  unfold takes fells
  rw [Option.any_some, hc]
  cases b.char w.attacker with
  | none => exact Bool.and_false _
  | some att =>
    dsimp only
    rw [hnot, Bool.false_and, Bool.false_and, Bool.and_false]

/-- The worms that are left tell whether one was killed. -/
theorem wormKilled_eq {blow : Option Blow}
    (h : ∀ cid, b'.isWorm cid = (b.isWorm cid && !b.takes blow cid)) :
    b.wormKilled b' = b.fellsWorm blow := by
  rw [Bool.eq_iff_iff, wormKilled_iff]
  unfold fellsWorm
  rw [Option.any_eq_true]
  constructor
  · rintro ⟨cid, hworm, hgone⟩
    rw [h, hworm, Bool.true_and, Bool.not_eq_false'] at hgone
    obtain ⟨w, hblow, rfl, hfells⟩ := takes_iff.mp hgone
    exact ⟨w, hblow, by rw [hworm, hfells]; rfl⟩
  · rintro ⟨w, hblow, hboth⟩
    obtain ⟨hworm, hfells⟩ := (Bool.and_eq_true _ _).mp hboth
    have htakes : b.takes blow w.target = true := takes_iff.mpr ⟨w, hblow, rfl, hfells⟩
    exact ⟨w.target, hworm, by rw [h, htakes, Bool.not_true, Bool.and_false]⟩

/-! ## Damage -/

theorem isWorm_updateChar {f : Character → Character} (hf : SameKind f) (b : Battle Raw)
    (cid cid' : CharacterId) : (b.updateChar cid f).isWorm cid' = b.isWorm cid' := by
  unfold isWorm
  rw [char_updateChar]
  split
  · next heq =>
    subst heq
    cases b.char cid' with
    | none => rfl
    | some c =>
      obtain ⟨hname, hcontroller⟩ := hf c
      simp only [Option.map_some, Option.any_some, hname, hcontroller]
  · rfl

theorem gainXp_sameKind (xp : Nat) : SameKind (Character.gainXp xp) := by
  intro c
  refine gainXp_induct (P := fun c' => c'.name = c.name ∧ c'.controller = c.controller)
    (fun _ _ h => h) (fun c' h => ?_) xp ⟨rfl, rfl⟩
  rw [← h.1, ← h.2]
  unfold Character.levelUp
  dsimp only
  split
  · exact ⟨rfl, rfl⟩
  · exact ⟨rfl, rfl⟩

theorem isWorm_awardXp (O : SetOrder) (b : Battle Raw) (a : CharacterId) (xp : Nat) (cid : CharacterId) :
    (b.awardXp O a xp).isWorm cid = b.isWorm cid := by
  rw [awardXp_eq]
  exact List.foldlRecOn (motive := fun b' : Battle Raw => b'.isWorm cid = b.isWorm cid) _ _ rfl
    fun b' hb' e _ => (isWorm_updateChar (gainXp_sameKind e.2) b' e.1 cid).trans hb'

theorem isWorm_removeChar (O : SetOrder) (b : Battle Raw) (t : CharacterId)
    (bosses : Table CharacterId BossState) (cid : CharacterId) :
    ({ b.withWorld (b.world.removeChar O t) with bosses } : Battle Raw).isWorm cid
      = (b.isWorm cid && cid != t) := by
  obtain ⟨partyOf, parties, chars, occupants, heq, hwho⟩ := World.removeChar_frame b.world O t
  have hchar : ({ b.withWorld (b.world.removeChar O t) with bosses } : Battle Raw).char cid
      = chars.lookup cid := by
    rw [heq]
    rfl
  unfold isWorm
  rw [hchar]
  rcases hwho with ⟨hnone, rfl, -⟩ | ⟨c, hc, rfl, -⟩
  · -- nobody was there to be removed
    by_cases hcid : cid = t
    · subst hcid
      rw [show b.char cid = none from hnone, hnone]
      rfl
    · rw [bne_iff_ne.mpr hcid, Bool.and_true]
      rfl
  · rw [Table.lookup_erase_eq]
    split
    · next hcid => simp [hcid]
    · next hcid =>
      rw [bne_iff_ne.mpr hcid, Bool.and_true]
      rfl

theorem isWorm_loot (O : SetOrder) (b : Battle Raw) (a cid : CharacterId) :
    ((b.updateChar a fun c => { c with inv := World.invAdd c.inv "stenchpouch".toList 1 }).awardXp O a 10).isWorm cid
      = b.isWorm cid := by
  rw [isWorm_awardXp]
  refine isWorm_updateChar ?_ b a cid
  exact fun _ => ⟨rfl, rfl⟩

/-- **A mob's hit points run out or not**: nothing else takes a worm out of the world. -/
theorem isWorm_applyDamageToMob (O : SetOrder) (b : Battle Raw) (a t : CharacterId) (dmg : Int)
    (cid : CharacterId) : (b.applyDamageToMob O a t dmg).2.isWorm cid
      = (b.isWorm cid && !b.takes (some ⟨a, t, dmg⟩) cid) := by
  have hwound : SameKind fun c => { c with hp := c.hp - dmg } := fun _ => ⟨rfl, rfl⟩
  -- a blow that fells nobody leaves every worm there
  have hstays : b.fells ⟨a, t, dmg⟩ = false →
      b.isWorm cid = (b.isWorm cid && !b.takes (some ⟨a, t, dmg⟩) cid) := by
    intro hnot
    simp [takes, hnot]
  unfold applyDamageToMob
  split
  · next att tgt hatt htgt =>
    split
    · next hapart =>
      refine hstays ?_
      simp only [fells, hatt, htgt]
      rcases hapart with hplayer | hroom
      · simp [Option.isNone_eq_false_iff.mpr hplayer]
      · simp [hroom]
    next hnear =>
    dsimp only
    split
    · next hleft =>
      have hnot : b.fells ⟨a, t, dmg⟩ = false := by
        simp only [fells, hatt, htgt]
        rw [decide_eq_false (by omega), Bool.and_false]
      exact (isWorm_updateChar hwound b t cid).trans (hstays hnot)
    · next hdead =>
      have hfells : b.fells ⟨a, t, dmg⟩ = true := by
        simp only [fells, hatt, htgt]
        rw [not_or, not_not] at hnear
        simp [hnear.2, Option.not_isSome_iff_eq_none.mp hnear.1]
        omega
      have hgone : (b.isWorm cid && cid != t) = (b.isWorm cid && !b.takes (some ⟨a, t, dmg⟩) cid) := by
        simp [takes, hfells, bne]
      have hdied : ({ (b.updateChar t fun c => { c with hp := c.hp - dmg }).withWorld
          ((b.updateChar t fun c => { c with hp := c.hp - dmg }).world.removeChar O t) with
          bosses := (b.updateChar t fun c => { c with hp := c.hp - dmg }).bosses.erase t }
            : Battle Raw).isWorm cid = (b.isWorm cid && !b.takes (some ⟨a, t, dmg⟩) cid) := by
        rw [isWorm_removeChar, isWorm_updateChar hwound, hgone]
      split
      · exact (isWorm_loot O _ a cid).trans hdied
      · exact hdied
  · next hnone =>
    refine hstays ?_
    unfold fells
    split
    · next att tgt hatt htgt => exact absurd htgt (hnone att tgt hatt)
    · rfl

/-- A player is hurt or sent to the graveyard, and stays a player. -/
theorem isWorm_applyDamageToPlayer (b : Battle Raw) (a t : CharacterId) (dmg : Int) (cid : CharacterId) :
    (b.applyDamageToPlayer a t dmg).2.isWorm cid = b.isWorm cid := by
  unfold applyDamageToPlayer
  split
  · rfl
  next realm hs =>
  simp only [Realm.applyDamageToPlayer, Option.bind_eq_bind, Option.bind_eq_some_iff,
    Option.ite_none_left_eq_some, Option.some.injEq] at hs
  obtain ⟨att, -, tgt, htgt, hplayer, rfl⟩ := hs
  have hsame : ∀ r : Realm Raw,
      (cid = t → ∃ c, r.world.chars.lookup cid = some c ∧ c.name = tgt.name ∧ c.controller = tgt.controller) →
      (cid ≠ t → r.world.chars.lookup cid = b.realm.world.chars.lookup cid) →
      ({ b with realm := r } : Battle Raw).isWorm cid = b.isWorm cid := by
    intro r hself hother
    unfold isWorm
    by_cases hcid : cid = t
    · obtain ⟨c, hc, hname, hcontroller⟩ := hself hcid
      rw [show ({ b with realm := r } : Battle Raw).char cid = some c from hc, hcid,
        show b.char t = some tgt from htgt]
      simp only [Option.any_some, hname, hcontroller]
    · rw [show ({ b with realm := r } : Battle Raw).char cid = b.char cid from hother hcid]
  dsimp only
  split
  · obtain ⟨occupants, hocc⟩ := World.removeOccupant_frame ({ b.realm.world with
      chars := b.realm.world.chars.insert t { tgt with hp := tgt.hp - dmg } } : World Raw) tgt.roomId t
    simp only [Realm.sendToGraveyard, AList.lookup_insert, hocc]
    refine hsame _ (fun hcid => ?_) fun hcid => ?_
    · subst hcid
      refine ⟨_, AList.lookup_insert _, ?_, ?_⟩
      · rfl
      · rfl
    · simp only [World.addOccupant, Table.lookup_insert_eq, if_neg hcid]
  · refine hsame _ (fun hcid => ?_) fun hcid => ?_
    · subst hcid
      refine ⟨_, AList.lookup_insert _, ?_, ?_⟩
      · rfl
      · rfl
    · simp only [Table.lookup_insert_eq, if_neg hcid]

theorem isWorm_applyStun (b : Battle Raw) (a t : CharacterId) (stunMs : Nat) (cid : CharacterId) :
    (b.applyStun a t stunMs).isWorm cid = b.isWorm cid := by
  have hstun : ∀ until', (b.updateChar t fun c =>
      { c with stunnedUntilMs := max c.stunnedUntilMs until' }).isWorm cid = b.isWorm cid := by
    intro until'
    refine isWorm_updateChar ?_ b t cid
    exact fun _ => ⟨rfl, rfl⟩
  unfold applyStun
  split
  · rfl
  split
  · split
    · rfl
    · dsimp only
      split
      · exact hstun _
      · split
        · exact hstun _
        · exact hstun _
  · rfl

/-! ## Events -/

/-- Mobs do not hurt mobs, so that only the blow of a player can fell one. -/
theorem isWorm_strike {att : Character} (hmob : att.controller = none → b.isPlayer t = true)
    (O : SetOrder) (draw : Nat) (cid : CharacterId) :
    (b.strike O draw a t att).isWorm cid = (b.isWorm cid && !b.takes
      (if att.controller.isSome then some ⟨a, t, b.computeAutoattackDamage a draw⟩ else none) cid) := by
  unfold strike
  dsimp only
  generalize hdmg : (if att.controller.isSome then b.computeAutoattackDamage a draw
    else computeMobAutoattackDamage att draw) = dmg
  generalize hb₁ : b.note ⟨a, att.controller.isSome, b.nowMs⟩ = b₁
  generalize hr : (if b₁.isPlayer t = true then b₁.applyDamageToPlayer a t dmg
    else b₁.applyDamageToMob O a t dmg) = r
  have hstruck : r.2.isWorm cid = (b.isWorm cid && !b.takes
      (if att.controller.isSome then some ⟨a, t, b.computeAutoattackDamage a draw⟩ else none) cid) := by
    have hnote : ∀ cid, b₁.isWorm cid = b.isWorm cid := hb₁ ▸ fun _ => rfl
    have htake : ∀ blow, b₁.takes blow cid = b.takes blow cid := hb₁ ▸ fun _ => rfl
    have hplayer : b₁.isPlayer t = b.isPlayer t := hb₁ ▸ rfl
    rw [← hr]
    split
    · next htgt =>
      -- a player is no worm that could be felled
      rw [hplayer] at htgt
      rw [isWorm_applyDamageToPlayer, hnote]
      split
      · rw [takes_of_isPlayer htgt, Bool.not_false, Bool.and_true]
      · rw [takes_none, Bool.not_false, Bool.and_true]
    · next htgt =>
      rw [isWorm_applyDamageToMob, hnote, htake, ← hdmg]
      rw [hplayer] at htgt
      cases hcontroller : att.controller with
      | none => exact absurd (hmob hcontroller) htgt
      | some session => rfl
  split
  · refine (isWorm_updateChar ?_ r.2 a cid).trans hstruck
    exact fun _ => ⟨rfl, rfl⟩
  · refine Eq.trans (isWorm_updateChar (f := fun c => { c with combat :=
      { c.combat with nextReadyMs := Word.satAdd64 r.2.nowMs 1000 } }) ?_ r.2 a cid) hstruck
    exact fun _ => ⟨rfl, rfl⟩

theorem isWorm_combatAct (O : SetOrder) (draw : Nat) (b : Battle Raw) (a cid : CharacterId) :
    (b.combatAct O draw a).isWorm cid = (b.isWorm cid && !b.takes (b.eventBlow draw (.combatAct a)) cid) := by
  have hkept : ∀ b' : Battle Raw, b'.isWorm cid = b.isWorm cid →
      b.takes (b.eventBlow draw (.combatAct a)) cid = false →
      b'.isWorm cid = (b.isWorm cid && !b.takes (b.eventBlow draw (.combatAct a)) cid) := by
    intro b' hsame hnot
    rw [hsame, hnot, Bool.not_false, Bool.and_true]
  have hstand : SameKind standDown := fun _ => ⟨rfl, rfl⟩
  have hstop : (b.updateChar a standDown).isWorm cid = b.isWorm cid := isWorm_updateChar hstand b a cid
  unfold combatAct
  split
  · next hatt => exact hkept b rfl (by simp [eventBlow, hatt, takes_none])
  next att hatt =>
  split
  · next htarget => exact hkept b rfl (by simp [eventBlow, hatt, htarget, takes_none])
  next t htarget =>
  split
  · next hoff => exact hkept b rfl (by simp [eventBlow, hatt, htarget, hoff, takes_none])
  next hon =>
  split
  · next hstun =>
    exact hkept _ rfl (by simp [eventBlow, hatt, htarget, Nat.not_le_of_lt hstun, takes_none])
  next hstun =>
  split
  · next hwait =>
    exact hkept _ rfl (by simp [eventBlow, hatt, htarget, Nat.not_le_of_lt hwait, takes_none])
  next hwait =>
  have hblow : b.eventBlow draw (.combatAct a) = if att.controller.isSome
      then some ⟨a, t, b.computeAutoattackDamage a draw⟩ else none := by
    simp [eventBlow, hatt, htarget, hon, Nat.le_of_not_lt hstun, Nat.le_of_not_lt hwait]
  rw [hblow] at hkept ⊢
  split
  · next htgt =>
    refine hkept _ hstop (takes_of_not_fells _ ?_ cid)
    simp [fells, htgt]
  next tgt htgt =>
  split
  · next hrefused =>
    refine hkept _ hstop ?_
    -- each reason to stop is one for which the blow would fell nobody
    by_cases hplayer : att.controller.isSome = true
    · refine takes_of_not_fells _ ?_ cid
      simp only [fells, hatt, htgt]
      rcases hrefused with hroom | ⟨hmob, -⟩ | ⟨-, htgt', -⟩
      · simp [Ne.symm hroom]
      · simp [Option.isNone_iff_eq_none.mp hmob] at hplayer
      · simp [Option.isNone_eq_false_iff.mpr htgt']
    · rw [if_neg hplayer, takes_none]
  · next hnot =>
    rw [not_or, not_or] at hnot
    refine isWorm_strike (fun hmob => ?_) O draw cid
    by_contra htgt'
    simp only [isPlayer, htgt, Option.any_some, Bool.not_eq_true, Option.isSome_eq_false_iff] at htgt'
    exact hnot.2.1 ⟨by rw [hmob]; rfl, htgt'⟩

/-- The events of bosses hurt players only. -/
theorem isWorm_handleEvent (O : SetOrder) (draw : Nat) (b : Battle Raw) (kind : EventKind)
    (cid : CharacterId) : (b.handleEvent O draw kind).isWorm cid
      = (b.isWorm cid && !b.takes (b.eventBlow draw kind) cid) := by
  cases kind with
  | combatAct a => exact isWorm_combatAct O draw b a cid
  | bossTelegraph bossId =>
    show (b.bossTelegraph bossId).isWorm cid = (b.isWorm cid && !b.takes none cid)
    rw [takes_none, Bool.not_false, Bool.and_true]
    unfold bossTelegraph
    repeat' split
    all_goals rfl
  | bossResolve bossId seq =>
    show (b.bossResolve bossId seq).isWorm cid = (b.isWorm cid && !b.takes none cid)
    rw [takes_none, Bool.not_false, Bool.and_true]
    unfold bossResolve
    split
    · rfl
    split
    · rfl
    split
    · rfl
    split
    · rfl
    · exact List.foldlRecOn (motive := fun b' : Battle Raw => b'.isWorm cid = b.isWorm cid) _ _ rfl
        fun b' hb' _ _ => (isWorm_applyDamageToPlayer b' _ _ _ cid).trans hb'

/-- **An event kills a worm when its blow fells it.** -/
theorem wormKilled_event {O : SetOrder} {draw : Nat} {e : ScheduledEvent} {b₁ : Battle Raw}
    (hpop : b.popDueEvent = some (e, b₁)) (hs : b.event O draw = some b') :
    b.wormKilled b' = b.fellsWorm (b.eventBlow draw e.kind) := by
  simp only [event, hpop, Option.map_some, Option.some.injEq] at hs
  obtain ⟨-, -, rfl⟩ := popDueEvent_spec hpop
  subst hs
  exact wormKilled_eq fun cid => isWorm_handleEvent O draw { b with queue := b.queue.erase e } e.kind cid

/-! ## Lines -/

variable {O : SetOrder} {session : SessionId}

/-- A skill that has been paid for fells what it would have felled before. -/
theorem takes_payFor (b : Battle Raw) (d : SkillDef) (nowMs : Nat) (blow : Option Blow)
    (cid : CharacterId) : (b.updateChar a (payFor d nowMs)).takes blow cid = b.takes blow cid := by
  have hfells : ∀ w, (b.updateChar a (payFor d nowMs)).fells w = b.fells w := by
    intro w
    unfold fells
    rw [char_updateChar_map, char_updateChar_map]
    cases b.char w.attacker with
    | none => rfl
    | some att =>
      cases b.char w.target with
      | none => rfl
      | some tgt =>
        dsimp only [Option.map_some]
        split
        · split
          · rfl
          · rfl
        · split
          · rfl
          · rfl
  unfold takes
  simp only [hfells]

theorem isWorm_useSkill {p : Character} (hactive : b.world.activeChar session = some (a, p)) {d : SkillDef}
    {token : Text} (hd : (p.cls.bind fun cls => findSkillForClass cls token) = some d)
    (hs : b.useSkill O a p d = some b') (cid : CharacterId) : b'.isWorm cid
      = (b.isWorm cid && !b.takes (b.commandBlow session (some (.use token))) cid) := by
  have hblowSelf : d.target = .selfOnly → b.commandBlow session (some (.use token)) = none := by
    intro hself
    simp only [commandBlow, hactive, hd, hself, Option.bind_eq_bind, Option.bind_some]
    cases p.combat.target with
    | none => rfl
    | some t => rfl
  have hblow : d.target = .combatTarget → b.commandBlow session (some (.use token))
      = p.combat.target.map fun t =>
        ⟨a, t, max (computeSkillAmount d ((p.skills.lookup d.id.toList).getD 0) p.stats) 0⟩ := by
    intro hcombat
    simp only [commandBlow, hactive, hd, hcombat, Option.bind_eq_bind, Option.bind_some]
    cases p.combat.target with
    | none => rfl
    | some t => rfl
  unfold useSkill at hs
  dsimp only at hs
  split at hs
  · cases hs
  have hpay : SameKind (payFor d b.nowMs) := fun _ => ⟨rfl, rfl⟩
  have hpaid : (b.updateChar a (payFor d b.nowMs)).isWorm cid = b.isWorm cid := isWorm_updateChar hpay b a cid
  have hplayer := fun t => isPlayer_payFor (a := a) b t d b.nowMs
  have htakes := fun blow => takes_payFor (a := a) b d b.nowMs blow cid
  generalize b.updateChar a (payFor d b.nowMs) = b₁ at hs hpaid hplayer htakes
  have hkept : ∀ {blow : Option Blow}, b.takes blow cid = false →
      b₁.isWorm cid = (b.isWorm cid && !b.takes blow cid) := by
    intro blow hnot
    rw [hnot, Bool.not_false, Bool.and_true, hpaid]
  split at hs
  · next hself =>
    cases hs
    have hheal : ∀ amount, SameKind (healBy amount) := fun _ _ => ⟨rfl, rfl⟩
    refine (isWorm_updateChar (hheal _) b₁ a cid).trans (hkept ?_)
    rw [hblowSelf hself]
    exact takes_none b cid
  next hcombat =>
  rw [hblow hcombat]
  split at hs
  · next htarget =>
    cases hs
    exact hkept (by rw [htarget]; rfl)
  next t htarget =>
  rw [htarget, Option.map_some]
  split at hs
  · next hpvp =>
    cases hs
    refine hkept ?_
    exact takes_of_isPlayer ((hplayer t).symm.trans hpvp.1) cid
  generalize max (computeSkillAmount d ((p.skills.lookup d.id.toList).getD 0) p.stats) 0 = dmg at hs ⊢
  generalize hr : (if b₁.isPlayer t = true then b₁.applyDamageToPlayer a t dmg
    else b₁.applyDamageToMob O a t dmg) = r at hs
  have hstruck : r.2.isWorm cid = (b.isWorm cid && !b.takes (some ⟨a, t, dmg⟩) cid) := by
    rw [← hr]
    split
    · next htgt =>
      rw [isWorm_applyDamageToPlayer]
      exact hkept (takes_of_isPlayer ((hplayer t).symm.trans htgt) cid)
    · rw [isWorm_applyDamageToMob, hpaid, htakes]
  cases hs
  split
  · have hstand : SameKind standDown := fun _ => ⟨rfl, rfl⟩
    exact (isWorm_updateChar hstand r.2 a cid).trans hstruck
  · exact (isWorm_applyStun r.2 a t _ cid).trans hstruck

theorem isWorm_useItem {pc : Character} {token : Text} (hs : b.useItem a pc token = some b')
    (cid : CharacterId) : b'.isWorm cid = b.isWorm cid := by
  unfold useItem at hs
  split at hs
  · cases hs
    refine isWorm_updateChar ?_ b a cid
    exact fun _ => ⟨rfl, rfl⟩
  · simp only [Option.bind_eq_bind, Option.bind_eq_some_iff] at hs
    obtain ⟨key, -, item, -, hs⟩ := hs
    split at hs
    · split at hs
      · cases hs
      · cases hs
        refine isWorm_updateChar (fun c => ?_) b a cid
        split
        · exact ⟨rfl, rfl⟩
        · exact ⟨rfl, rfl⟩
    · cases hs

/-- Whoever starts to attack is what it was. -/
theorem isWorm_startCombat (O : SetOrder) (fuel : Nat) (b : Battle Raw) (a t cid : CharacterId) :
    (startCombat O fuel b a t).isWorm cid = b.isWorm cid := by
  have hstart : Rallied b b ∧ b.isWorm cid = b.isWorm cid := ⟨.refl b, rfl⟩
  refine (startCombat_induct (I := fun b' => Rallied b b' ∧ b'.isWorm cid = b.isWorm cid)
    (fun _ h => h.1) ?_ O fuel b hstart .attacks).2
  rintro b' cid' t' - ⟨hrallied, hsame⟩
  refine ⟨hrallied.engage cid' t', Eq.trans ?_ hsame⟩
  refine isWorm_updateChar ?_ b' cid' cid
  exact fun _ => ⟨rfl, rfl⟩

theorem isWorm_doUse {p : Character} (hactive : b.world.activeChar session = some (a, p)) {token : Text}
    (hs : b.doUse O a p true token = some b') (cid : CharacterId) : b'.isWorm cid
      = (b.isWorm cid && !b.takes (b.commandBlow session (some (.use token))) cid) := by
  unfold doUse at hs
  split at hs
  · cases hs
  split at hs
  · next d hd => exact isWorm_useSkill hactive hd hs cid
  · next hnone =>
    have hblow : b.commandBlow session (some (.use token)) = none := by
      rw [if_pos rfl] at hnone
      simp only [commandBlow, hactive, hnone, Option.bind_eq_bind, Option.bind_some, Option.bind_none]
    rw [hblow, takes_none, Bool.not_false, Bool.and_true]
    exact isWorm_useItem hs cid

/-- **Only a skill used against its target can fell a worm.** -/
theorem isWorm_run {cmd : Command} (hs : b.run O session cmd = some b') (cid : CharacterId) :
    b'.isWorm cid = (b.isWorm cid && !b.takes (b.commandBlow session (some cmd)) cid) := by
  obtain ⟨⟨a, p⟩, hactive, -⟩ := Option.bind_eq_some_iff.mp hs
  by_cases huse : ∃ token, cmd = .use token
  · obtain ⟨token, rfl⟩ := huse
    simp only [run, hactive, Option.bind_eq_bind, Option.bind_some] at hs
    exact isWorm_doUse hactive hs cid
  have hnone : b.commandBlow session (some cmd) = none := by
    unfold commandBlow
    split
    · next heq => exact absurd ⟨_, Option.some.inj heq⟩ huse
    · rfl
  rw [hnone, takes_none, Bool.not_false, Bool.and_true]
  rcases run_cases hactive hs with ⟨target, rfl, hkill⟩ | ⟨token, heq, -⟩ | ⟨token, -, hquaff⟩ | ⟨f, hf, rfl⟩
  · have hstand : SameKind standDown := fun _ => ⟨rfl, rfl⟩
    rcases doKill_cases hactive hkill with rfl | ⟨t, -, rfl⟩
    · exact isWorm_updateChar hstand b a cid
    · exact isWorm_startCombat O _ b a t cid
  · exact absurd ⟨token, heq⟩ huse
  · unfold doUse at hquaff
    split at hquaff
    · cases hquaff
    · exact isWorm_useItem hquaff cid
  · exact isWorm_updateChar hf b a cid

theorem wormKilled_line {text : Text} (hs : b.line O session text = some b') :
    b.wormKilled b' = b.fellsWorm (b.commandBlow session (command text)) := by
  simp only [line, Option.bind_eq_bind, Option.bind_eq_some_iff, Option.ite_none_left_eq_some] at hs
  obtain ⟨cmd, hparse, -, hs⟩ := hs
  rw [command, hparse]
  exact wormKilled_eq (isWorm_run hs)

end Battle

end Slopmud.Shard
