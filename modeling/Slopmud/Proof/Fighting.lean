import Slopmud.Proof.Keeping

/-!
# What a step of a fight does to characters

A line or an event of a fight changes characters in a few ways. Each step has a scope: the character
for which it is taken, who joins the fight, who has to wait for the next blow, and whom it may hurt.
Whatever relation allows these changes, and can be composed, holds between the characters before
and after, so that an invariant of characters, or a bound on what a step does, is one instance.
-/

namespace Slopmud.Shard

open Machine Table

variable {Raw Auth : Type} {J : Codec Raw (List PlayerSnapshot)} {A : Codec Auth AuthBlob}
variable {R : CharacterId → Character → Character → Prop}

/-! ## Changes -/

/-- Whom a character may hurt: a player may not hurt another one who has not consented. -/
def Battle.MayHurt (b : Battle Raw) (a t : CharacterId) : Prop :=
  b.isPlayer a = true → b.isPlayer t = true → b.canPvpIds a t = true

/-- For which character a step is taken, and whom it may bring into a fight, let rest after a hit,
and hurt. -/
structure Scope where
  actor : CharacterId
  joins : CharacterId → Prop
  cools : CharacterId → Prop
  hurts : CharacterId → Prop

/-- Relations that allow whatever a step of a fight does. -/
structure Allows (nowMs : Nat) (s : Scope) (R : CharacterId → Character → Character → Prop) : Prop
    extends Composes R where
  engage : ∀ cid (c : Character) t, s.joins cid → R cid c { c with
    combat := { c.combat with autoattack := true, target := some t, nextReadyMs := nowMs } }
  standDown : ∀ cid c, R cid c (Battle.standDown c)
  cool : ∀ cid (c : Character), s.cools cid → R cid c { c with
    combat := { c.combat with nextReadyMs := Word.satAdd64 nowMs 1000 } }
  gain : ∀ cid c xp, R cid c (Character.gainXp xp c)
  goods : ∀ cid (c : Character) inv drinkLevel, R cid c { c with inv, drinkLevel }
  pay : ∀ c d, d ∈ allSkills → R s.actor c (Battle.payFor d nowMs c)
  heal : ∀ c amount, 0 ≤ amount → R s.actor c (Battle.healBy amount c)
  race : ∀ (c : Character) race inv, R s.actor c { c with race, inv }
  cls : ∀ c k, R s.actor c (Battle.takeClass k nowMs c)
  train : ∀ (c : Character) id rank, rank < Battle.maxRank → c.skillPoints ≠ 0 →
    (c.skills.lookup id).getD 0 = rank →
    R s.actor c { c with skillPoints := c.skillPoints - 1, skills := c.skills.insert id (rank + 1) }
  flags : ∀ (c : Character) autoassist followLeader pvpEnabled,
    R s.actor c { c with autoassist, followLeader, pvpEnabled }
  wound : ∀ t (c : Character) dmg, s.hurts t → 0 ≤ dmg → 0 < c.hp - dmg →
    R t c { c with hp := c.hp - dmg }
  die : ∀ t (c : Character) roomId, s.hurts t →
    R t c { Battle.standDown c with roomId, hp := max c.maxHp 1 }
  stun : ∀ t (c : Character) ms, s.hurts t → R t c { c with stunnedUntilMs := max c.stunnedUntilMs ms }

/-- The world, and the hits so far. -/
def Battle.scene (b : Battle Raw) : World Raw × List Hit := (b.world, b.hits)

/-- Characters change by `R`, some are gone, and no autoattack hits. -/
structure Fought (R : CharacterId → Character → Character → Prop) (s s' : World Raw × List Hit) : Prop
    extends Walked R s.1 s'.1 where
  hits : s'.2 = s.2

theorem Fought.refl (h : Composes R) (s : World Raw × List Hit) : Fought R s s := ⟨.refl h _, rfl⟩

theorem Fought.trans {s s' s'' : World Raw × List Hit} (h : Composes R) (h₁ : Fought R s s')
    (h₂ : Fought R s' s'') : Fought R s s'' :=
  ⟨h₁.toWalked.trans h h₂.toWalked, h₂.hits.trans h₁.hits⟩

namespace Battle

variable {b b' : Battle Raw}

theorem char_updateChar (b : Battle Raw) (cid cid' : CharacterId) (f : Character → Character) :
    (b.updateChar cid f).char cid' = if cid' = cid then (b.char cid).map f else b.char cid' := by
  unfold updateChar
  cases hc : b.char cid with
  | none =>
    dsimp only
    split
    · next heq => rw [heq, hc]; rfl
    · rfl
  | some c => exact Table.lookup_insert_eq _ _ _ _

theorem char_updateChar_map (b : Battle Raw) (cid cid' : CharacterId) (f : Character → Character) :
    (b.updateChar cid f).char cid' = (b.char cid').map fun c => if cid' = cid then f c else c := by
  rw [char_updateChar]
  split
  · next heq => rw [heq]
  · rw [Option.map_id']

theorem updateChar_fought (h : Composes R) (b : Battle Raw) {cid : CharacterId}
    {f : Character → Character} (hR : ∀ c, b.char cid = some c → R cid c (f c)) :
    Fought R b.scene (b.updateChar cid f).scene := by
  unfold updateChar
  cases hc : b.char cid with
  | none => exact .refl h _
  | some c => exact ⟨⟨.insert h hc (hR c hc), rfl, rfl, rfl⟩, rfl⟩

variable {nowMs : Nat} {s : Scope}

theorem engage_fought (h : Allows nowMs s R) (hnow : b.nowMs = nowMs) {cid : CharacterId}
    (hjoins : s.joins cid) (t : CharacterId) : Fought R b.scene (b.engage cid t).scene :=
  updateChar_fought h.toComposes b fun c _ => by rw [hnow]; exact h.engage cid c t hjoins

/-! ## Starting combat -/

/-- Who fights when `attackerId` starts combat with `targetId`. A mob that is attacked strikes back,
and so does a player where PvP is allowed; members of the party of whoever fights join in. -/
inductive Joins (b : Battle Raw) (attackerId targetId : CharacterId) : CharacterId → Prop
  | attacks : Joins b attackerId targetId attackerId
  | retaliates {cid : CharacterId} : Joins b attackerId targetId cid →
      (b.isMob targetId || (b.isPlayer targetId && b.canPvpIds cid targetId)) = true →
      Joins b attackerId targetId targetId
  | assists {cid mid : CharacterId} {c : Character} {p : Party} : Joins b attackerId targetId cid →
      b.char cid = some c → (b.world.partyOf.lookup cid).bind b.world.parties.lookup = some p →
      mid ∈ p.members → b.assists c.roomId cid mid = true → Joins b attackerId targetId mid

/-- A character may have been told to attack. -/
def Roused (_ : CharacterId) (c c' : Character) : Prop :=
  ∃ combat : CombatState, c' = { c with combat } ∧ (c.combat.autoattack = true → combat.autoattack = true)

theorem roused_composes : Composes Roused where
  refl _ c := ⟨c.combat, rfl, id⟩
  trans := by
    rintro _ c _ _ ⟨k, rfl, hk⟩ ⟨k', rfl, hk'⟩
    exact ⟨k', rfl, hk' ∘ hk⟩

/-- Some have been told to attack, and nothing else has changed that matters to who joins. -/
structure Rallied (b b' : Battle Raw) : Prop where
  chars : Evolves Roused b.world.chars b'.world.chars
  partyOf : b'.world.partyOf = b.world.partyOf
  parties : b'.world.parties = b.world.parties

theorem Rallied.refl (b : Battle Raw) : Rallied b b := ⟨.refl roused_composes _, rfl, rfl⟩

theorem Rallied.trans {b'' : Battle Raw} (h : Rallied b b') (h' : Rallied b' b'') : Rallied b b'' :=
  ⟨h.chars.trans roused_composes h'.chars, h'.partyOf.trans h.partyOf, h'.parties.trans h.parties⟩

theorem Rallied.engage (h : Rallied b b') (cid t : CharacterId) : Rallied b (b'.engage cid t) := by
  unfold Battle.engage updateChar
  cases hc : b'.char cid with
  | none => exact ⟨h.chars, h.partyOf, h.parties⟩
  | some c =>
    have hroused : Roused cid c { c with
        combat := { c.combat with autoattack := true, target := some t, nextReadyMs := b'.nowMs } } :=
      ⟨_, rfl, fun _ => rfl⟩
    exact ⟨h.chars.trans roused_composes (.insert roused_composes hc hroused), h.partyOf, h.parties⟩

/-- Whoever strikes back now would have done so at first. -/
theorem Rallied.strikesBack (h : Rallied b b') {cid t : CharacterId}
    (hs : (b'.isMob t || (b'.isPlayer t && b'.canPvpIds cid t)) = true) :
    (b.isMob t || (b.isPlayer t && b.canPvpIds cid t)) = true := by
  unfold isMob isPlayer canPvpIds at *
  cases htgt' : b'.char t with
  | none => simp [htgt'] at hs
  | some tgt' =>
    obtain ⟨tgt, htgt, k, rfl, -⟩ := h.chars t tgt' htgt'
    rw [show b.char t = some tgt from htgt]
    rw [htgt'] at hs
    cases hatt' : b'.char cid with
    | none =>
      have hmob : tgt.controller = none := by simpa [hatt'] using hs
      simp [hmob]
    | some att' =>
      obtain ⟨att, hatt, k, rfl, -⟩ := h.chars cid att' hatt'
      rw [show b.char cid = some att from hatt]
      rw [hatt'] at hs
      exact hs

theorem Rallied.assists (h : Rallied b b') {roomId : Text} {cid mid : CharacterId}
    (hs : b'.assists roomId cid mid = true) : b.assists roomId cid mid = true := by
  unfold Battle.assists at *
  cases hm' : b'.char mid with
  | none => simp [hm'] at hs
  | some m' =>
    obtain ⟨m, hm, k, rfl, hk⟩ := h.chars mid m' hm'
    rw [hm'] at hs
    rw [show b.char mid = some m from hm]
    simp only [Option.any_some, Bool.and_eq_true, Bool.not_eq_true'] at hs ⊢
    exact ⟨hs.1, hs.2.1, by simpa using mt hk (by simpa using hs.2.2)⟩

/-- **The rule for starting combat**: what holds when it starts, and stays when somebody is engaged
who joins. -/
theorem startCombat_induct {b₀ : Battle Raw} {a t : CharacterId} {I : Battle Raw → Prop}
    (hrallied : ∀ b, I b → Rallied b₀ b)
    (hengage : ∀ b cid t', b₀.Joins a t cid → I b → I (b.engage cid t'))
    (O : SetOrder) (fuel : Nat) (b : Battle Raw) (h : I b) {attackerId : CharacterId}
    (hin : b₀.Joins a t attackerId) : I (startCombat O fuel b attackerId t) := by
  induction fuel generalizing b attackerId with
  | zero => exact h
  | succ fuel ih =>
    unfold startCombat
    split
    · exact h
    next att hatt =>
    dsimp only
    obtain ⟨c, hc, k, rfl, -⟩ := (hrallied b h).chars attackerId att hatt
    have hattack : I (b.engage attackerId t) := hengage b attackerId t hin h
    generalize b.engage attackerId t = b₁ at hattack ⊢
    generalize hb₂ : (if b₁.isMob t || (b₁.isPlayer t && b₁.canPvpIds attackerId t)
      then b₁.engage t attackerId else b₁) = b₂
    have hback : I b₂ := by
      rw [← hb₂]
      split
      · next hstrikes =>
        have hin' : b₀.Joins a t t := .retaliates hin ((hrallied b₁ hattack).strikesBack hstrikes)
        exact hengage b₁ t attackerId hin' hattack
      · exact hattack
    split
    · exact hback
    next p hp =>
    rw [(hrallied b₂ hback).partyOf, (hrallied b₂ hback).parties] at hp
    refine List.foldlRecOn (motive := I) _ _ hback fun b' hb' mid hmid => ?_
    split
    · next hassists =>
      have hin' : b₀.Joins a t mid :=
        .assists hin hc hp (O.mem_of_mem_list hmid) ((hrallied b' hb').assists hassists)
      exact ih b' hb' hin'
    · exact hb'

/-- **Only those are engaged who join.** -/
theorem startCombat_fought (h : Allows b.nowMs s R) {a t : CharacterId}
    (hjoins : ∀ cid, b.Joins a t cid → s.joins cid) (O : SetOrder) (fuel : Nat) :
    Fought R b.scene (startCombat O fuel b a t).scene := by
  have hstart : Rallied b b ∧ Fought R b.scene b.scene := ⟨.refl b, .refl h.toComposes _⟩
  refine (startCombat_induct (I := fun b' => Rallied b b' ∧ Fought R b.scene b'.scene)
    (fun _ h => h.1) ?_ O fuel b hstart .attacks).2
  rintro b' cid t' hin ⟨hrallied, hf⟩
  exact ⟨hrallied.engage cid t', hf.trans h.toComposes (engage_fought h hf.nowMs (hjoins cid hin) t')⟩

/-! ### Joining a fight -/

/-- Those who do not attack. -/
def idle (b : Battle Raw) : Finset CharacterId :=
  b.world.chars.keys.toFinset.filter fun cid => (b.char cid).any fun c => !c.combat.autoattack

theorem mem_idle {cid : CharacterId} :
    cid ∈ b.idle ↔ ∃ c, b.char cid = some c ∧ c.combat.autoattack = false := by
  simp only [idle, Finset.mem_filter, List.mem_toFinset, Option.any_eq_true, Bool.not_eq_true']
  constructor
  · exact fun h => h.2
  · rintro ⟨c, hc, hoff⟩
    have hsome : (b.world.chars.lookup cid).isSome := Option.isSome_of_eq_some hc
    exact ⟨AList.mem_keys.mpr (AList.lookup_isSome.mp hsome), c, hc, hoff⟩

theorem mem_idle_of_assists {roomId : Text} {cid mid : CharacterId}
    (h : b.assists roomId cid mid = true) : mid ∈ b.idle := by
  simp only [Battle.assists, Bool.and_eq_true, Option.any_eq_true, Bool.not_eq_true'] at h
  obtain ⟨-, m, hm, -, hoff⟩ := h
  exact mem_idle.mpr ⟨m, hm, hoff⟩

theorem Rallied.idle_subset (h : Rallied b b') : b'.idle ⊆ b.idle := by
  intro cid hidle
  obtain ⟨c', hc', hoff⟩ := mem_idle.mp hidle
  obtain ⟨c, hc, k, rfl, hk⟩ := h.chars cid c' hc'
  exact mem_idle.mpr ⟨c, hc, by simpa using mt hk (by simpa using hoff)⟩

/-- Whoever is engaged attacks. -/
theorem not_mem_idle_engage (b : Battle Raw) (cid t : CharacterId) : cid ∉ (b.engage cid t).idle := by
  intro hidle
  obtain ⟨c', hc', hoff⟩ := mem_idle.mp hidle
  have hchar := (char_updateChar b cid cid _).symm.trans hc'
  rw [if_pos rfl] at hchar
  obtain ⟨c, -, rfl⟩ := Option.map_eq_some_iff.mp hchar
  cases hoff

theorem idle_engage_lt {cid : CharacterId} (h : cid ∈ b.idle) (t : CharacterId) :
    (b.engage cid t).idle.card < b.idle.card :=
  Finset.card_lt_card ⟨((Rallied.refl b).engage cid t).idle_subset,
    fun hsub => not_mem_idle_engage b cid t (hsub h)⟩

theorem startCombat_rallied (O : SetOrder) (fuel : Nat) (b : Battle Raw) (a t : CharacterId) :
    Rallied b (startCombat O fuel b a t) :=
  startCombat_induct (fun _ h => h) (fun _ cid t' _ h => h.engage cid t') O fuel b (.refl b) .attacks

theorem idle_engage_lt_fuel (b : Battle Raw) (a t : CharacterId) :
    (b.engage a t).idle.card < b.startCombatFuel := by
  have hengaged := Finset.card_le_card ((Rallied.refl b).engage a t).idle_subset
  have hkeys : b.idle.card ≤ b.world.chars.entries.length := by
    refine Nat.le_trans (Finset.card_filter_le _ _) (Nat.le_trans (List.toFinset_card_le _) ?_)
    exact Nat.le_of_eq (List.length_map _)
  exact Nat.lt_succ_of_le (Nat.le_trans hengaged hkeys)

theorem awardXp_fought (h : Allows nowMs s R) (O : SetOrder) (b : Battle Raw) (cid : CharacterId)
    (xp : Nat) : Fought R b.scene (b.awardXp O cid xp).scene := by
  have hone : ∀ (b : Battle Raw) cid xp,
      Fought R b.scene (b.updateChar cid (Character.gainXp xp)).scene :=
    fun b cid xp => updateChar_fought h.toComposes b fun c _ => h.gain cid c xp
  unfold awardXp
  split
  · exact hone b cid xp
  · split
    · exact .refl h.toComposes _
    · dsimp only
      split
      · exact hone b cid xp
      · exact List.foldlRecOn (motive := fun b' : Battle Raw => Fought R b.scene b'.scene) _ _
          (.refl h.toComposes _) fun b' hb' e _ => hb'.trans h.toComposes (hone b' _ _)

/-- A mob is hurt, or dies and is gone. -/
theorem applyDamageToMob_fought (h : Allows nowMs s R) (O : SetOrder) (b : Battle Raw)
    (attackerId : CharacterId) {targetId : CharacterId} {dmg : Int} (hmay : s.hurts targetId)
    (hdmg : 0 ≤ dmg) : Fought R b.scene (b.applyDamageToMob O attackerId targetId dmg).2.scene := by
  unfold applyDamageToMob
  split
  · next att tgt _ htgt =>
    split
    · exact .refl h.toComposes _
    · dsimp only
      split
      · next hleft =>
        refine updateChar_fought h.toComposes b fun c hc => h.wound targetId c dmg hmay hdmg ?_
        rw [htgt] at hc
        cases hc
        exact hleft
      · have hgone : Walked R b.world
            ((b.updateChar targetId fun c => { c with hp := c.hp - dmg }).world.removeChar O targetId) := by
          -- whatever became of the target, it is removed
          unfold updateChar
          rw [htgt]
          obtain ⟨partyOf, parties, chars, occupants, heq, hwho⟩ := World.removeChar_frame
            ({ b.world with chars := b.world.chars.insert targetId { tgt with hp := tgt.hp - dmg } }
              : World Raw) O targetId
          rcases hwho with ⟨hnone, -⟩ | ⟨c, -, rfl, -⟩
          · simp at hnone
          · exact heq ▸ ⟨.insert_erase h.toComposes _ _ _, rfl, rfl, rfl⟩
        have hloot : ∀ b' : Battle Raw, Fought R b.scene b'.scene → Fought R b.scene
            ((b'.updateChar attackerId fun c =>
              { c with inv := World.invAdd c.inv "stenchpouch".toList 1 }).awardXp O attackerId 10).scene := by
          intro b' hb'
          refine Fought.trans h.toComposes (hb'.trans h.toComposes ?_) (awardXp_fought h O _ attackerId 10)
          exact updateChar_fought h.toComposes b' fun c _ => h.goods attackerId c _ c.drinkLevel
        have hhits : (b.updateChar targetId fun c => { c with hp := c.hp - dmg }).hits = b.hits := by
          unfold updateChar
          rw [htgt]
          rfl
        split
        · exact hloot _ ⟨hgone, hhits⟩
        · exact ⟨hgone, hhits⟩
  · exact .refl h.toComposes _

/-- A player is hurt, or dies and wakes up in the graveyard. -/
theorem applyDamageToPlayer_fought (h : Allows nowMs s R) (b : Battle Raw)
    (attackerId : CharacterId) {targetId : CharacterId} {dmg : Int} (hmay : s.hurts targetId)
    (hdmg : 0 ≤ dmg) : Fought R b.scene (b.applyDamageToPlayer attackerId targetId dmg).2.scene := by
  unfold applyDamageToPlayer
  split
  · exact .refl h.toComposes _
  · next realm hs =>
    simp only [Realm.applyDamageToPlayer, Option.bind_eq_bind, Option.bind_eq_some_iff,
      Option.ite_none_left_eq_some, Option.some.injEq] at hs
    obtain ⟨att, -, tgt, htgt, -, rfl⟩ := hs
    dsimp only
    split
    · -- the lower hit points do not outlive the death
      obtain ⟨occupants, hocc⟩ := World.removeOccupant_frame ({ b.realm.world with
        chars := b.realm.world.chars.insert targetId { tgt with hp := tgt.hp - dmg } } : World Raw)
        tgt.roomId targetId
      simp only [Realm.sendToGraveyard, AList.lookup_insert, hocc]
      refine ⟨⟨fun cid c' hc' => ?_, rfl, rfl, rfl⟩, rfl⟩
      simp only [scene, world, World.addOccupant, Table.lookup_insert_eq] at hc'
      split at hc'
      · next heq =>
        cases hc'
        exact ⟨tgt, heq ▸ htgt, heq ▸ h.die targetId tgt _ hmay⟩
      · exact ⟨c', hc', h.refl cid c'⟩
    · next hleft =>
      exact ⟨⟨.insert h.toComposes htgt (h.wound targetId tgt dmg hmay hdmg (by omega)), rfl, rfl, rfl⟩,
        rfl⟩

theorem applyStun_fought (h : Allows nowMs s R) (b : Battle Raw) (attackerId : CharacterId)
    {targetId : CharacterId} (hmay : s.hurts targetId) (stunMs : Nat) :
    Fought R b.scene (b.applyStun attackerId targetId stunMs).scene := by
  unfold applyStun
  split
  · exact .refl h.toComposes _
  · split
    · split
      · exact .refl h.toComposes _
      · dsimp only
        have hstun : ∀ until', Fought R b.scene (b.updateChar targetId fun c =>
            { c with stunnedUntilMs := max c.stunnedUntilMs until' }).scene :=
          fun until' => updateChar_fought h.toComposes b fun c _ => h.stun targetId c until' hmay
        split
        · exact hstun _
        · split
          · exact hstun _
          · exact hstun _
    · exact .refl h.toComposes _

/-! ## Events -/

theorem rollRange_nonneg (draw : Nat) {lo hi : Int} (hlo : 0 ≤ lo) (hhi : lo ≤ hi) :
    0 ≤ rollRange draw lo hi := by
  have := Int.emod_nonneg draw (show hi - lo + 1 ≠ 0 by omega)
  unfold rollRange
  omega

theorem computeAutoattackDamage_nonneg (b : Battle Raw) (cid : CharacterId) (draw : Nat) :
    0 ≤ b.computeAutoattackDamage cid draw := by
  unfold computeAutoattackDamage
  split
  · decide
  · exact Int.le_trans (by decide) (Int.le_max_right _ 1)

theorem computeMobAutoattackDamage_nonneg (att : Character) (draw : Nat) :
    0 ≤ computeMobAutoattackDamage att draw := by
  unfold computeMobAutoattackDamage
  repeat' split
  all_goals first
    | exact Int.le_refl 0
    | exact rollRange_nonneg draw (by decide) (by decide)

/-- The attack of a character goes through to the damage step. -/
structure Strikes (b : Battle Raw) (a t : CharacterId) (att : Character) : Prop where
  char : b.char a = some att
  autoattack : att.combat.autoattack = true
  ready : att.combat.nextReadyMs ≤ b.nowMs
  mayHurt : b.MayHurt a t

variable {a t : CharacterId}

/-- What a blow does to its target, and then to its attacker. -/
theorem strike_cases (h : Allows b.nowMs s R) (O : SetOrder) (draw : Nat) (att : Character)
    (hmay : s.hurts t) : ∃ r : Bool × Battle Raw,
      Fought R (b.note ⟨a, att.controller.isSome, b.nowMs⟩).scene r.2.scene
      ∧ (b.strike O draw a t att).scene = if r.1 then (r.2.updateChar a Battle.standDown).scene
        else (r.2.updateChar a fun c => { c with
          combat := { c.combat with nextReadyMs := Word.satAdd64 b.nowMs 1000 } }).scene := by
  unfold strike
  dsimp only
  generalize hdmg : (if att.controller.isSome then b.computeAutoattackDamage a draw
    else computeMobAutoattackDamage att draw) = dmg
  have hnonneg : 0 ≤ dmg := by
    rw [← hdmg]
    split
    · exact b.computeAutoattackDamage_nonneg a draw
    · exact computeMobAutoattackDamage_nonneg att draw
  generalize hb₁ : b.note ⟨a, att.controller.isSome, b.nowMs⟩ = b₁
  have hnow : b₁.nowMs = b.nowMs := hb₁ ▸ rfl
  have h₁ : Allows b₁.nowMs s R := hnow ▸ h
  generalize hr : (if b₁.isPlayer t = true then b₁.applyDamageToPlayer a t dmg
    else b₁.applyDamageToMob O a t dmg) = r
  have hhurt : Fought R b₁.scene r.2.scene := by
    rw [← hr]
    split
    · exact applyDamageToPlayer_fought h₁ b₁ a hmay hnonneg
    · exact applyDamageToMob_fought h₁ O b₁ a hmay hnonneg
  refine ⟨r, hhurt, ?_⟩
  rw [show r.2.nowMs = b.nowMs from hhurt.nowMs.trans hnow]
  split
  · rfl
  · rfl

/-- **A blow is a hit, hurts its target, and makes its attacker wait.** -/
theorem strike_fought (h : Allows b.nowMs s R) (O : SetOrder) (draw : Nat) (att : Character)
    (hmay : s.hurts t) (hcools : s.cools a) :
    Fought R (b.note ⟨a, att.controller.isSome, b.nowMs⟩).scene (b.strike O draw a t att).scene := by
  obtain ⟨r, hhurt, heq⟩ := strike_cases h O draw att hmay
  rw [heq]
  split
  · exact hhurt.trans h.toComposes (updateChar_fought h.toComposes r.2 fun c _ => h.standDown a c)
  · exact hhurt.trans h.toComposes (updateChar_fought h.toComposes r.2 fun c _ => h.cool a c hcools)

/-- What an event of an attacker comes to: nothing, the end of its attack, or a blow. -/
theorem combatAct_cases (O : SetOrder) (draw : Nat) (b : Battle Raw) (a : CharacterId) :
    (b.combatAct O draw a).scene = b.scene
      ∨ (b.combatAct O draw a).scene = (b.updateChar a Battle.standDown).scene
      ∨ ∃ t att, b.Strikes a t att ∧ b.combatAct O draw a = b.strike O draw a t att := by
  unfold combatAct
  split
  · exact .inl rfl
  next att hatt =>
  split
  · exact .inl rfl
  next t _ =>
  split
  · exact .inl rfl
  next hon =>
  split
  · exact .inl rfl
  split
  · exact .inl rfl
  next hready =>
  split
  · exact .inr (.inl rfl)
  next tgt htgt =>
  split
  · exact .inr (.inl rfl)
  next hnot =>
  have hmay : b.MayHurt a t := by
    intro hplayer hplayer'
    simp only [isPlayer, hatt, htgt, Option.any_some] at hplayer hplayer'
    by_contra hcan
    exact hnot (.inr (.inr ⟨hplayer, hplayer', by simpa using hcan⟩))
  exact .inr (.inr ⟨t, att, ⟨hatt, by simpa using hon, Nat.le_of_not_lt hready, hmay⟩, rfl⟩)

theorem bossTelegraph_fought (h : Composes R) (b : Battle Raw) (bossId : CharacterId) :
    Fought R b.scene (b.bossTelegraph bossId).scene := by
  unfold bossTelegraph
  repeat' split
  all_goals exact .refl h _

/-- A boss is a mob, and hurts whoever is there. -/
theorem bossResolve_fought (h : Allows b.nowMs s R) (hmay : ∀ t, b.MayHurt a t → s.hurts t) (seq : Nat) :
    Fought R b.scene (b.bossResolve a seq).scene := by
  unfold bossResolve
  split
  · exact .refl h.toComposes _
  next c hc =>
  split
  · exact .refl h.toComposes _
  next hmob =>
  split
  · exact .refl h.toComposes _
  split
  · exact .refl h.toComposes _
  · have hany : ∀ t, s.hurts t := by
      refine fun t => hmay t fun hplayer => ?_
      simp only [isPlayer, hc, Option.any_some] at hplayer
      exact absurd (.inl hplayer) hmob
    exact List.foldlRecOn (motive := fun b' : Battle Raw => Fought R b.scene b'.scene) _ _
      (.refl h.toComposes _) fun b' hb' vid _ =>
        hb'.trans h.toComposes (applyDamageToPlayer_fought h b' a (hany vid) (by decide))

end Battle

theorem ScheduledEvent.least_mem {queue : List ScheduledEvent} {e : ScheduledEvent}
    (h : least queue = some e) : e ∈ queue := by
  induction queue generalizing e with
  | nil => cases h
  | cons f queue ih =>
    unfold least at h
    split at h
    · cases h
      exact List.mem_cons_self
    · next g hg =>
      have hrest : g ∈ queue := ih hg
      cases h
      split
      · exact List.mem_cons_of_mem _ hrest
      · exact List.mem_cons_self

/-- The character for which an event is processed. -/
def EventKind.actor : EventKind → CharacterId
  | .combatAct attackerId => attackerId
  | .bossTelegraph bossId => bossId
  | .bossResolve bossId _ => bossId

namespace Battle

variable {b b' : Battle Raw} {a : CharacterId}

def eventScope (b : Battle Raw) (kind : EventKind) : Scope where
  actor := kind.actor
  joins _ := False
  cools cid := kind = .combatAct cid
  hurts := b.MayHurt kind.actor

/-- **An autoattack hurts only whom its attacker may hurt.** -/
theorem combatAct_walked (h : Allows b.nowMs (b.eventScope (.combatAct a)) R) (O : SetOrder) (draw : Nat) :
    Walked R b.world (b.combatAct O draw a).world := by
  rcases combatAct_cases O draw b a with heq | heq | ⟨t, att, hstrikes, heq⟩
  · rw [show (b.combatAct O draw a).world = b.world from congrArg Prod.fst heq]
    exact .refl h.toComposes _
  · rw [show (b.combatAct O draw a).world = (b.updateChar a standDown).world from congrArg Prod.fst heq]
    exact (updateChar_fought h.toComposes b fun c _ => h.standDown a c).toWalked
  · rw [heq]
    exact (strike_fought h O draw att hstrikes.mayHurt rfl).toWalked

theorem handleEvent_walked {kind : EventKind} (h : Allows b.nowMs (b.eventScope kind) R) (O : SetOrder)
    (draw : Nat) : Walked R b.world (b.handleEvent O draw kind).world := by
  cases kind with
  | combatAct attackerId => exact combatAct_walked h O draw
  | bossTelegraph bossId => exact (bossTelegraph_fought h.toComposes b bossId).toWalked
  | bossResolve bossId seq => exact (bossResolve_fought h (fun _ => id) seq).toWalked

/-! ## Lines -/

/-- Who starts combat with whom by a command: a `kill` that does not end the same fight. -/
def starts (O : SetOrder) (b : Battle Raw) (session : SessionId) :
    Option Command → Option (CharacterId × CharacterId)
  | some (.kill target) => do
    let (a, p) ← b.world.activeChar session
    let t ← (b.findMobInRoom O p.roomId target) <|> (b.findPlayerInRoom O p.roomId target)
    if p.combat.autoattack = true ∧ p.combat.target = some t then none else some (a, t)
  | _ => none

def lineScope (O : SetOrder) (b : Battle Raw) (session : SessionId) (cmd : Option Command)
    (a : CharacterId) : Scope where
  actor := a
  joins cid := ∃ t, b.starts O session cmd = some (a, t) ∧ b.Joins a t cid
  cools _ := False
  hurts := b.MayHurt a

variable {O : SetOrder} {session : SessionId} {cmd : Option Command}

/-- Neither what is paid nor what is spared matters for PvP. -/
theorem canPvpIds_payFor (b : Battle Raw) (cid t : CharacterId) (d : SkillDef) (nowMs : Nat) :
    (b.updateChar a (payFor d nowMs)).canPvpIds cid t = b.canPvpIds cid t := by
  unfold canPvpIds
  rw [char_updateChar_map, char_updateChar_map]
  cases b.char cid with
  | none => rfl
  | some att =>
    cases b.char t with
    | none => rfl
    | some tgt =>
      dsimp only [Option.map_some]
      split
      · split
        · rfl
        · rfl
      · split
        · rfl
        · rfl

theorem isPlayer_payFor (b : Battle Raw) (cid : CharacterId) (d : SkillDef) (nowMs : Nat) :
    (b.updateChar a (payFor d nowMs)).isPlayer cid = b.isPlayer cid := by
  unfold isPlayer
  rw [char_updateChar]
  split
  · next heq =>
    rw [heq]
    cases b.char a with
    | none => rfl
    | some c => rfl
  · rfl

theorem useSkill_fought (h : Allows b.nowMs (b.lineScope O session cmd a) R) {pc : Character}
    {d : SkillDef} (hd : d ∈ allSkills) (hs : b.useSkill O a pc d = some b') :
    Fought R b.scene b'.scene := by
  unfold useSkill at hs
  dsimp only at hs
  split at hs
  · cases hs
  have hpay : Fought R b.scene (b.updateChar a (payFor d b.nowMs)).scene :=
    updateChar_fought h.toComposes b fun c _ => h.pay c d hd
  have hplayer := fun t => isPlayer_payFor (a := a) b t d b.nowMs
  have hcan := fun t => canPvpIds_payFor (a := a) b a t d b.nowMs
  generalize b.updateChar a (payFor d b.nowMs) = b₁ at hs hpay hplayer hcan
  have hnonneg : ∀ amount : Int, 0 ≤ max amount 0 := fun amount => Int.le_max_right _ _
  split at hs
  · cases hs
    exact hpay.trans h.toComposes
      (updateChar_fought h.toComposes b₁ fun c _ => h.heal c _ (hnonneg _))
  split at hs
  · cases hs; exact hpay
  next targetId _ =>
  split at hs
  · cases hs; exact hpay
  next hnot =>
  -- the code checks what `MayHurt` asks for
  have hmay : b.MayHurt a targetId := by
    intro _ htgt
    by_contra hoff
    exact hnot ⟨(hplayer targetId).trans htgt, by rw [hcan]; simpa using hoff⟩
  generalize hr : (if b₁.isPlayer targetId = true then
      b₁.applyDamageToPlayer a targetId (max (computeSkillAmount d _ pc.stats) 0)
    else b₁.applyDamageToMob O a targetId (max (computeSkillAmount d _ pc.stats) 0)) = r at hs
  have hhurt : Fought R b.scene r.2.scene := by
    rw [← hr]
    split
    · exact hpay.trans h.toComposes (applyDamageToPlayer_fought h b₁ a hmay (hnonneg _))
    · exact hpay.trans h.toComposes (applyDamageToMob_fought h O b₁ a hmay (hnonneg _))
  cases hs
  split
  · exact hhurt.trans h.toComposes (updateChar_fought h.toComposes r.2 fun c _ => h.standDown a c)
  · exact hhurt.trans h.toComposes (applyStun_fought h r.2 a hmay _)

theorem useItem_fought (h : Allows b.nowMs (b.lineScope O session cmd a) R) {pc : Character}
    {token : Text} (hs : b.useItem a pc token = some b') : Fought R b.scene b'.scene := by
  unfold useItem at hs
  split at hs
  · cases hs
    exact updateChar_fought h.toComposes b fun c _ => h.goods a c _ _
  · simp only [Option.bind_eq_bind, Option.bind_eq_some_iff] at hs
    obtain ⟨key, -, item, -, hs⟩ := hs
    split at hs
    · split at hs
      · cases hs
      · cases hs
        refine updateChar_fought h.toComposes b fun c _ => ?_
        split
        · exact h.trans (h.goods a c _ c.drinkLevel) (h.heal _ _ (Int.le_max_right _ _))
        · exact h.goods a c _ c.drinkLevel
    · cases hs

theorem mem_allSkills_of_find {cls : Class} {token : Text} {d : SkillDef}
    (h : findSkillForClass cls token = some d) : d ∈ allSkills := by
  unfold findSkillForClass at h
  dsimp only at h
  split at h
  · cases h
  · exact List.mem_of_find?_eq_some h

theorem doUse_fought (h : Allows b.nowMs (b.lineScope O session cmd a) R) {pc : Character}
    {skills : Bool} {token : Text} (hs : b.doUse O a pc skills token = some b') :
    Fought R b.scene b'.scene := by
  unfold doUse at hs
  split at hs
  · cases hs
  · split at hs
    · next d hd =>
      obtain ⟨cls, -, hfind⟩ := Option.bind_eq_some_iff.mp hd
      exact useSkill_fought h (mem_allSkills_of_find hfind) hs
    · exact useItem_fought h hs

/-- A `kill` ends a fight, or starts one. -/
theorem doKill_cases {p : Character} {target : Text} (hactive : b.world.activeChar session = some (a, p))
    (hs : b.doKill O a p target = some b') : b' = b.updateChar a standDown
      ∨ ∃ t, b.starts O session (some (.kill target)) = some (a, t)
        ∧ b' = startCombat O b.startCombatFuel b a t := by
  simp only [doKill, Option.bind_eq_bind, Option.ite_none_left_eq_some, Option.bind_eq_some_iff] at hs
  obtain ⟨-, targetId, hfound, -, -, hs⟩ := hs
  split at hs
  · cases hs
    exact .inl rfl
  · next hoff =>
    cases hs
    refine .inr ⟨targetId, ?_, rfl⟩
    simp only [starts, hactive, hfound, Option.bind_eq_bind, Option.bind_some, if_neg hoff]

theorem doKill_fought {p : Character} {target : Text} (hactive : b.world.activeChar session = some (a, p))
    (h : Allows b.nowMs (b.lineScope O session (some (.kill target)) a) R)
    (hs : b.doKill O a p target = some b') : Fought R b.scene b'.scene := by
  rcases doKill_cases hactive hs with rfl | ⟨t, hstarts, rfl⟩
  · exact updateChar_fought h.toComposes b fun c _ => h.standDown a c
  · exact startCombat_fought h (fun cid hin => ⟨t, hstarts, hin⟩) O _

/-- The rest of the lines change the one who gives them. -/
theorem run_fought {cmd : Command} {p : Character} (hactive : b.world.activeChar session = some (a, p))
    (h : Allows b.nowMs (b.lineScope O session (some cmd) a) R)
    (hs : b.run O session cmd = some b') : Fought R b.scene b'.scene := by
  simp only [run, hactive, Option.bind_eq_bind, Option.bind_some] at hs
  have hself : ∀ f : Character → Character, (∀ c, R a c (f c)) →
      Fought R b.scene (b.updateChar a f).scene :=
    fun f hf => updateChar_fought h.toComposes b fun c _ => hf c
  cases cmd with
  | killOff =>
    simp only [Option.ite_none_right_eq_some] at hs
    obtain ⟨-, hs⟩ := hs
    cases hs
    exact hself _ (h.standDown a)
  | kill target => exact doKill_fought hactive h hs
  | use token => exact doUse_fought h hs
  | quaff token => exact doUse_fought h hs
  | race token =>
    simp only [doRace, Option.bind_eq_bind, Option.bind_eq_some_iff, Option.ite_none_left_eq_some] at hs
    obtain ⟨race, -, -, hs⟩ := hs
    cases hs
    exact hself _ fun c => h.race c _ _
  | cls token =>
    simp only [doClass, Option.bind_eq_bind, Option.bind_eq_some_iff, Option.ite_none_left_eq_some] at hs
    obtain ⟨cls, -, -, hs⟩ := hs
    cases hs
    exact hself _ fun c => h.cls c cls
  | train token =>
    simp only [doTrain, Option.bind_eq_bind, Option.bind_eq_some_iff, Option.ite_none_left_eq_some] at hs
    obtain ⟨-, cls, -, d, -, hrank, hs⟩ := hs
    cases hs
    refine updateChar_fought h.toComposes b fun c hc => ?_
    cases (lookup_of_activeChar hactive).symm.trans hc
    exact h.train p _ _ (Nat.lt_of_not_le fun hle => hrank (.inl hle)) (fun hnone => hrank (.inr hnone)) rfl
  | assist on => cases hs; exact hself _ fun c => h.flags c on c.followLeader c.pvpEnabled
  | follow on =>
    simp only [Option.ite_none_left_eq_some] at hs
    obtain ⟨-, hs⟩ := hs
    cases hs
    exact hself _ fun c => h.flags c c.autoassist on c.pvpEnabled
  | pvp on => cases hs; exact hself _ fun c => h.flags c c.autoassist c.followLeader on

/-! ## Steps -/

theorem popDueEvent_spec {e : ScheduledEvent} {b₁ : Battle Raw} (h : b.popDueEvent = some (e, b₁)) :
    e ∈ b.queue ∧ e.dueMs ≤ b.nowMs ∧ b₁ = { b with queue := b.queue.erase e } := by
  simp only [popDueEvent, Option.bind_eq_bind, Option.bind_eq_some_iff, Option.ite_none_left_eq_some,
    Option.some.injEq, Prod.mk.injEq] at h
  obtain ⟨e, hleast, hdue, rfl, rfl⟩ := h
  exact ⟨ScheduledEvent.least_mem hleast, Nat.le_of_not_lt hdue, rfl⟩

theorem event_walked {O : SetOrder} {draw : Nat} {e : ScheduledEvent} {b₁ : Battle Raw}
    (hpop : b.popDueEvent = some (e, b₁)) (h : Allows b.nowMs (b.eventScope e.kind) R)
    (hs : b.event O draw = some b') : Walked R b.world b'.world := by
  simp only [event, hpop, Option.map_some, Option.some.injEq] at hs
  obtain ⟨-, -, rfl⟩ := popDueEvent_spec hpop
  subst hs
  exact handleEvent_walked (b := { b with queue := b.queue.erase e }) h O draw

/-- The command of an input line, if it has one. -/
def command (text : Text) : Option Command := Command.parse (Text.toAsciiLowercase (Text.trim text))

theorem line_fought {text : Text} {p : Character} (hactive : b.world.activeChar session = some (a, p))
    (h : Allows b.nowMs (b.lineScope O session (command text) a) R)
    (hs : b.line O session text = some b') : Fought R b.scene b'.scene := by
  simp only [line, Option.bind_eq_bind, Option.bind_eq_some_iff, Option.ite_none_left_eq_some] at hs
  obtain ⟨cmd, hparse, -, hs⟩ := hs
  rw [command, hparse] at h
  exact run_fought hactive h hs

/-- A line is a command of a character. -/
theorem activeChar_of_line {text : Text} (hs : b.line O session text = some b') :
    ∃ a p, b.world.activeChar session = some (a, p) := by
  simp only [line, run, Option.bind_eq_bind, Option.bind_eq_some_iff, Option.ite_none_left_eq_some] at hs
  obtain ⟨cmd, -, -, ⟨a, p⟩, hactive, -⟩ := hs
  exact ⟨a, p, hactive⟩

/-- Properties that a new character has, and that stay while nobody fights. The clock may have to be
in bounds. -/
structure Rests (Raw : Type) (clockOk : Nat → Prop) (P : CharacterId → Character → Prop)
    (Q : PlayerSnapshot → Prop) : Prop extends Carries Raw P Q where
  other : ∀ cid (c c' : Character), P cid c →
    P cid (World.keepIdentity c { keepFighter c c' with roomId := c.roomId })
  regen : ∀ nowMs cid c, clockOk nowMs → P cid c → P cid (Character.regen nowMs c)
  named : ∀ (w : World Raw) cid roomId token,
    P cid { w.newMob roomId (namedMob token).1 with hp := (namedMob token).2, maxHp := (namedMob token).2 }

/-- Properties that a character has in every state. -/
structure Endures (Raw : Type) (clockOk : Nat → Prop) (P : CharacterId → Character → Prop)
    (Q : PlayerSnapshot → Prop) : Prop extends Rests Raw clockOk P Q where
  fights : ∀ nowMs s, Allows nowMs s fun cid c c' => P cid c → P cid c'

end Battle

/-- The lines and the events of fights. -/
def BattleMove.isFight : BattleMove Auth → Bool
  | .line .. | .event .. => true
  | _ => false

namespace Battle

variable {b b' : Battle Raw}
variable {clockOk : Nat → Prop} {P : CharacterId → Character → Prop} {Q : PlayerSnapshot → Prop}

theorem kept_otherEffect (hk : Kept J P Q b.world) (he : Rests Raw clockOk P Q) (e : Realm.Effect) :
    Kept J P Q (b.otherEffect e).world := by
  refine ⟨?_, hk.players, hk.file⟩
  refine hk.chars.evolve (R := fun cid c c' => P cid c → P cid c') ?_ fun _ _ _ hR => hR
  exact .mapVals _ (fun cid c => he.other cid c _) _

theorem kept_spawnNamedMob (hk : Kept J P Q b.world) (he : Rests Raw clockOk P Q)
    {roomId token : Text} (hs : b.spawnNamedMob roomId token = some b') : Kept J P Q b'.world := by
  simp only [spawnNamedMob, Option.ite_none_left_eq_some, Option.some.injEq] at hs
  obtain ⟨-, hs⟩ := hs
  have hmob : Kept J P Q ((b.withWorld (b.world.spawnMob roomId (namedMob token).1)).updateChar
      b.world.nextCharId fun c =>
        { c with hp := (namedMob token).2, maxHp := (namedMob token).2 }).world := by
    unfold updateChar
    have hnew : (b.withWorld (b.world.spawnMob roomId (namedMob token).1)).char b.world.nextCharId
        = some (b.world.newMob roomId (namedMob token).1) := AList.lookup_insert _
    rw [hnew]
    have hspawn := hk.spawnMob he.toCarries roomId (namedMob token).1
    exact ⟨hspawn.chars.insert (he.named b.world _ roomId token), hspawn.players, hspawn.file⟩
  subst hs
  split
  · exact hmob
  · exact hmob

/-- **Every step without a fight keeps what rests.** -/
theorem kept_peaceful {m : BattleMove Auth} (hk : Kept J P Q b.world) (he : Rests Raw clockOk P Q)
    (hclock : clockOk b.nowMs) (hpeace : m.isFight = false) (hs : b.step J A m = some b') :
    Kept J P Q b'.world := by
  cases m with
  | realm m =>
    simp only [step, Option.ite_none_right_eq_some, Option.map_eq_some_iff] at hs
    obtain ⟨hpeace, realm, hs, rfl⟩ := hs
    exact hk.realm he.toCarries hpeace hs
  | other e => cases hs; exact kept_otherEffect hk he e
  | spawnMob roomId name => cases hs; exact hk.spawnMob he.toCarries roomId name
  | spawnNamedMob roomId token => exact kept_spawnNamedMob hk he hs
  | clock nowMs =>
    simp only [step, Option.ite_none_right_eq_some, Option.some.injEq] at hs
    obtain ⟨-, rfl⟩ := hs
    exact ⟨hk.chars, hk.players, hk.file⟩
  | regen =>
    cases hs
    refine ⟨?_, hk.players, hk.file⟩
    refine hk.chars.evolve (R := fun cid c c' => P cid c → P cid c') ?_ fun _ _ _ hR => hR
    refine .mapVals _ (fun cid c hP => ?_) _
    split
    · exact he.regen _ cid c hclock hP
    · exact hP
  | line O session text => cases hpeace
  | event O draw => cases hpeace
  | relink clean saveOk readOk =>
    simp only [step, Realm.step, Option.map_some, Option.some.injEq] at hs
    subst hs
    refine Kept.new readOk _ ?_
    cases clean with
    | true => exact (hk.persistLivePlayers he.toCarries saveOk).file
    | false => exact hk.file

/-- **Every step keeps what endures.** -/
theorem kept_step {m : BattleMove Auth} (hk : Kept J P Q b.world) (he : Endures Raw clockOk P Q)
    (hclock : clockOk b.nowMs) (hs : b.step J A m = some b') : Kept J P Q b'.world := by
  cases hfight : m.isFight with
  | false => exact kept_peaceful hk he.toRests hclock hfight hs
  | true =>
    cases m with
    | line O session text =>
      obtain ⟨a, p, hactive⟩ := activeChar_of_line hs
      exact hk.evolve (line_fought hactive (he.fights b.nowMs _) hs).toWalked
    | event O draw =>
      obtain ⟨⟨e, b₁⟩, hpop, -⟩ := Option.map_eq_some_iff.mp hs
      exact hk.evolve (event_walked hpop (he.fights b.nowMs _) hs)
    | _ => cases hfight

end Battle

end Slopmud.Shard
