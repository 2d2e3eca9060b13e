import Slopmud.Proof.Fighting

/-!
# Vital stats stay in range

Hit points are between one and their maximum after every step, because whoever would have none left
is removed or sent to the graveyard in the same step. Mana and stamina are clamped wherever they are
written; only regeneration adds a number that a cast could make negative, when the clock runs too
far. The maxima grow with the level, so below a level no sum of the source overflows.
-/

namespace Slopmud.Shard

open Machine Table

variable {Raw Auth : Type} {J : Codec Raw (List PlayerSnapshot)} {A : Codec Auth AuthBlob}

/-! ## Hit points -/

/-- At least one hit point, and at most the maximum. -/
def Alive (c : Character) : Prop := 1 ≤ c.hp ∧ c.hp ≤ c.maxHp

/-- Levels are gained one by one, while there is enough experience. -/
theorem levelUps_induct {P : Character → Prop}
    (hup : ∀ c : Character, xpNeededForNext c.level ≤ c.xp → P c → P c.levelUp) (fuel : Nat)
    {c : Character} (h : P c) : P (c.levelUps fuel) := by
  induction fuel generalizing c with
  | zero => exact h
  | succ fuel ih =>
    unfold Character.levelUps
    split
    · exact h
    · next hmore => exact ih (hup c (Nat.le_of_not_lt hmore) h)

/-- Experience adds up, and levels are gained. -/
theorem gainXp_induct {P : Character → Prop} (hxp : ∀ c xp, P c → P { c with xp })
    (hup : ∀ c, P c → P c.levelUp) (xp : Nat) {c : Character} (h : P c) : P (c.gainXp xp) :=
  levelUps_induct (fun c _ => hup c) _ (hxp c _ h)

/-- The fuel of the loop is enough: it ends because there is not enough experience left. -/
theorem gainXp_done (xp : Nat) (c : Character) : (c.gainXp xp).xp < xpNeededForNext (c.gainXp xp).level := by
  have hup : ∀ c : Character, c.levelUp.xp = c.xp - xpNeededForNext c.level := by
    intro c
    unfold Character.levelUp
    dsimp only
    split
    · rfl
    · rfl
  suffices hloop : ∀ fuel (c : Character), c.xp < fuel →
      (c.levelUps fuel).xp < xpNeededForNext (c.levelUps fuel).level from hloop _ _ (Nat.lt_succ_self _)
  intro fuel
  induction fuel with
  | zero => exact fun c h => absurd h (Nat.not_lt_zero _)
  | succ fuel ih =>
    intro c h
    unfold Character.levelUps
    split
    · assumption
    · next hmore =>
      refine ih _ ?_
      rw [hup]
      -- a level costs something
      have hcost : 0 < xpNeededForNext c.level := by unfold xpNeededForNext; omega
      omega

theorem levelUp_hp (c : Character) : c.levelUp.hp = max (c.maxHp + 2) 1 ∧ c.levelUp.maxHp = c.levelUp.hp
    ∧ c.levelUp.stunnedUntilMs = c.stunnedUntilMs := by
  unfold Character.levelUp
  dsimp only
  split
  · exact ⟨rfl, rfl, rfl⟩
  · exact ⟨rfl, rfl, rfl⟩

theorem Alive.levelUp {c : Character} (h : Alive c) : Alive c.levelUp ∧ c.hp ≤ c.levelUp.hp := by
  obtain ⟨hhp, hmax, -⟩ := levelUp_hp c
  unfold Alive at h ⊢
  omega

theorem Alive.gainXp {c : Character} (h : Alive c) (xp : Nat) : Alive (c.gainXp xp) :=
  gainXp_induct (P := Alive) (fun _ _ h => h) (fun _ h => h.levelUp.1) xp h

theorem Alive.healBy {c : Character} (h : Alive c) {amount : Int} (hamount : 0 ≤ amount) :
    Alive (Battle.healBy amount c) := by
  unfold Alive Battle.healBy at *
  dsimp only
  omega

theorem namedMob_hp (token : Text) : 1 ≤ (namedMob token).2 ∧ (namedMob token).2 ≤ 120 := by
  unfold namedMob
  dsimp only
  repeat' split
  all_goals exact ⟨by omega, by omega⟩

theorem regen_hp (nowMs : Nat) (c : Character) :
    (c.regen nowMs).hp = c.hp ∧ (c.regen nowMs).maxHp = c.maxHp := by
  unfold Character.regen
  dsimp only
  repeat' split
  all_goals exact ⟨rfl, rfl⟩

theorem newCharacter_hp (w : World Raw) (session : SessionId) (principal : Text)
    (authCaps : List Capability) (b : World.Build) : Alive (w.newCharacter session principal authCaps b) :=
  ⟨Int.le_max_right _ _, Int.le_refl _⟩

theorem restoredCharacter_hp (w : World Raw) (session : SessionId) (s : PlayerSnapshot)
    (principal : Text) (authCaps : List Capability) :
    Alive (w.restoredCharacter session s principal authCaps) := by
  have hhp : (w.restoredCharacter session s principal authCaps).hp = min (max s.hp 1) (max s.maxHp 1) := rfl
  have hmax : (w.restoredCharacter session s principal authCaps).maxHp = max s.maxHp 1 := rfl
  unfold Alive
  rw [hhp, hmax]
  omega

theorem newMob_hp (w : World Raw) (roomId name : Text) : Alive (w.newMob roomId name) :=
  ⟨Int.le_refl 1, Int.le_refl 1⟩

theorem alive_allows (nowMs : Nat) (s : Scope) : Allows nowMs s fun _ c c' => Alive c → Alive c' where
  toComposes := composes_carry fun _ c => Alive c
  engage _ _ _ _ h := h
  standDown _ _ h := h
  cool _ c _ h := show 1 ≤ c.hp ∧ c.hp ≤ c.maxHp from h
  gain _ _ xp h := h.gainXp xp
  goods _ _ _ _ h := h
  pay _ _ _ h := h
  heal _ _ hamount h := h.healBy hamount
  race _ _ _ h := h
  cls c k _ := by
    unfold Alive Battle.takeClass
    dsimp only
    omega
  train _ _ _ _ _ _ h := h
  flags _ _ _ _ h := h
  wound _ c dmg _ hdmg hleft h := ⟨hleft, Int.le_trans (Int.sub_le_self _ hdmg) h.2⟩
  die _ c _ _ h := by
    unfold Alive Battle.standDown at *
    dsimp only
    omega
  stun _ _ _ _ h := h

/-- **Everybody is alive, whatever happens.** -/
theorem alive_endures (Raw : Type) :
    Battle.Endures Raw (fun _ => True) (fun _ c => Alive c) (fun _ => True) where
  room _ _ _ h := h
  saved _ _ := trivial
  spawned w session principal authCaps b _ := newCharacter_hp w session principal authCaps b
  restored w session s principal authCaps _ _ := restoredCharacter_hp w session s principal authCaps
  mob w roomId name _ := newMob_hp w roomId name
  fights := alive_allows
  other _ _ _ h := h
  regen nowMs _ c _ h := by
    obtain ⟨hhp, hmax⟩ := regen_hp nowMs c
    unfold Alive
    rw [hhp, hmax]
    exact h
  named _ _ _ token := ⟨(namedMob_hp token).1, Int.le_refl _⟩

/-! ## Resources -/

/-- How large a character of a level can be. -/
structure Sized (level : Nat) (maxHp maxMana maxStamina : Int) (stats : AbilityScores)
    (skills : Table Text Nat) : Prop where
  maxHp : maxHp ≤ 120 + 2 * level
  maxMana : maxMana ≤ 20 + 3 * level
  maxStamina : maxStamina ≤ 20 + 3 * level
  stats : ∀ a, stats.get a ≤ 15
  ranks : ∀ id rank, skills.lookup id = some rank → rank ≤ Battle.maxRank

/-- The levels that are looked at. -/
def levelLimit : Nat := 2 ^ 28

/-- Mana and stamina in range, and the maxima as large as the level allows. -/
structure Fit (c : Character) : Prop where
  mana : 0 ≤ c.mana ∧ c.mana ≤ c.maxMana
  stamina : 0 ≤ c.stamina ∧ c.stamina ≤ c.maxStamina
  sized : c.level < levelLimit → Sized c.level c.maxHp c.maxMana c.maxStamina c.stats c.skills

def SnapshotFit (s : PlayerSnapshot) : Prop :=
  s.level < levelLimit → Sized s.level s.maxHp s.maxMana s.maxStamina s.stats s.skills

theorem modFor_le {s : AbilityScores} (h : ∀ a, s.get a ≤ 15) (a : Ability) : s.modFor a ≤ 2 := by
  have := h a
  unfold AbilityScores.modFor
  omega

theorem computeMaxMana_le {s : AbilityScores} (h : ∀ a, s.get a ≤ 15) (cls : Class) (level : Nat) :
    computeMaxMana cls s level ≤ 20 + 3 * level := by
  have hint := modFor_le h .int
  have hcha := modFor_le h .cha
  have hwis := modFor_le h .wis
  cases cls <;> simp only [computeMaxMana] <;> omega

theorem computeMaxStamina_le {s : AbilityScores} (h : ∀ a, s.get a ≤ 15) (cls : Class) (level : Nat) :
    computeMaxStamina cls s level ≤ 20 + 3 * level := by
  have hcon := modFor_le h .con
  cases cls <;> simp only [computeMaxStamina] <;> omega

theorem computeMaxHp_le {s : AbilityScores} (h : ∀ a, s.get a ≤ 15) (cls : Class) :
    computeMaxHp cls s ≤ 14 := by
  have hcon := modFor_le h .con
  cases cls <;> simp only [computeMaxHp, Class.hitDie] <;> omega

/-- The standard array. -/
theorem assignCoreStats_le (cls : Class) (a : Ability) : (assignCoreStatsForClass cls).get a ≤ 15 := by
  cases cls <;> cases a <;> decide

theorem baseline_le (a : Ability) : AbilityScores.baseline.get a ≤ 15 := by cases a <;> decide

theorem Sized.mono {level level' : Nat} (hle : level ≤ level') {maxHp maxMana maxStamina : Int}
    {stats : AbilityScores} {skills : Table Text Nat}
    (h : Sized level maxHp maxMana maxStamina stats skills) :
    Sized level' maxHp maxMana maxStamina stats skills where
  maxHp := by have := h.maxHp; omega
  maxMana := by have := h.maxMana; omega
  maxStamina := by have := h.maxStamina; omega
  stats := h.stats
  ranks := h.ranks

/-- Whatever has no skills yet has the stats of a class or of a mob. -/
theorem ranks_empty (id : Text) (rank : Nat) (h : (∅ : Table Text Nat).lookup id = some rank) :
    rank ≤ Battle.maxRank := by
  simp at h

theorem newCharacter_fit (w : World Raw) (session : SessionId) (principal : Text)
    (authCaps : List Capability) (b : World.Build) : Fit (w.newCharacter session principal authCaps b) where
  mana := ⟨Int.le_max_right _ _, Int.le_refl _⟩
  stamina := ⟨Int.le_max_right _ _, Int.le_refl _⟩
  sized _ :=
    have hstats := assignCoreStats_le b.cls
    show Sized 1 _ _ _ (assignCoreStatsForClass b.cls) ∅ from
    { maxHp := Int.max_le.mpr ⟨Int.le_trans (computeMaxHp_le hstats b.cls) (by decide), by decide⟩
      maxMana := Int.max_le.mpr ⟨computeMaxMana_le hstats b.cls 1, by decide⟩
      maxStamina := Int.max_le.mpr ⟨computeMaxStamina_le hstats b.cls 1, by decide⟩
      stats := hstats
      ranks := ranks_empty }

theorem newMob_fit (w : World Raw) (roomId name : Text) {hp : Int} (hhp : hp ≤ 120) :
    Fit { w.newMob roomId name with hp, maxHp := hp } where
  mana := ⟨Int.le_refl 0, Int.le_refl 0⟩
  stamina := ⟨Int.le_refl 0, Int.le_refl 0⟩
  sized _ := show Sized 1 hp 0 0 .baseline ∅ from
    { maxHp := Int.le_trans hhp (by decide)
      maxMana := by decide
      maxStamina := by decide
      stats := baseline_le
      ranks := ranks_empty }

/-- A snapshot is put within its own maxima. -/
theorem restoredCharacter_fit (w : World Raw) (session : SessionId) {s : PlayerSnapshot}
    (principal : Text) (authCaps : List Capability) (h : SnapshotFit s) :
    Fit (w.restoredCharacter session s principal authCaps) where
  mana := ⟨le_min (Int.le_max_right _ _) (Int.le_max_right _ _), min_le_right _ _⟩
  stamina := ⟨le_min (Int.le_max_right _ _) (Int.le_max_right _ _), min_le_right _ _⟩
  sized hlevel := by
    have hlow : max s.level 1 < levelLimit := hlevel
    have hsized := (h (Nat.lt_of_le_of_lt (Nat.le_max_left _ 1) hlow)).mono (Nat.le_max_left s.level 1)
    exact
      { maxHp := Int.max_le.mpr ⟨hsized.maxHp, by omega⟩
        maxMana := Int.max_le.mpr ⟨hsized.maxMana, by omega⟩
        maxStamina := Int.max_le.mpr ⟨hsized.maxStamina, by omega⟩
        stats := hsized.stats
        ranks := hsized.ranks }

theorem Fit.saved {c : Character} (h : Fit c) {s : PlayerSnapshot}
    (hs : PlayerSnapshot.fromCharacter c = some s) : SnapshotFit s := by
  simp only [PlayerSnapshot.fromCharacter, Option.bind_eq_bind, Option.bind_eq_some_iff] at hs
  obtain ⟨race, -, cls, -, hs⟩ := hs
  cases hs
  exact h.sized

theorem Fit.levelUp {c : Character} (h : Fit c) : Fit c.levelUp := by
  have hlow : Word.satAdd32 c.level 1 < levelLimit →
      c.level < levelLimit ∧ Word.satAdd32 c.level 1 = c.level + 1 := by
    unfold Word.satAdd32 Word.maxU32 levelLimit
    omega
  unfold Character.levelUp
  dsimp only
  split
  · refine ⟨h.mana, h.stamina, fun hlevel => ?_⟩
    obtain ⟨hlevel', heq⟩ := hlow hlevel
    have hsized := h.sized hlevel'
    have hmax := hsized.maxHp
    dsimp only
    rw [heq]
    exact { hsized.mono (Nat.le_succ c.level) with maxHp := by omega }
  · next cls _ =>
    refine ⟨⟨Int.le_max_right _ _, ?_⟩, ⟨Int.le_max_right _ _, ?_⟩, fun hlevel => ?_⟩
    · dsimp only; omega
    · dsimp only; omega
    obtain ⟨hlevel', heq⟩ := hlow hlevel
    have hsized := h.sized hlevel'
    have hmax := hsized.maxHp
    have hmana := computeMaxMana_le hsized.stats cls (c.level + 1)
    have hstamina := computeMaxStamina_le hsized.stats cls (c.level + 1)
    dsimp only
    rw [heq]
    exact
      { maxHp := by omega
        maxMana := by omega
        maxStamina := by omega
        stats := hsized.stats
        ranks := hsized.ranks }

theorem Fit.gainXp {c : Character} (h : Fit c) (xp : Nat) : Fit (c.gainXp xp) :=
  gainXp_induct (P := Fit) (fun _ _ h => ⟨h.mana, h.stamina, h.sized⟩) (fun _ h => h.levelUp) xp h

/-- No skill gives mana or stamina. -/
theorem cost_nonneg {d : SkillDef} (hd : d ∈ allSkills) : 0 ≤ d.costMana ∧ 0 ≤ d.costStamina := by
  have hall : ∀ d ∈ allSkills, 0 ≤ d.costMana ∧ 0 ≤ d.costStamina := by decide
  exact hall d hd

theorem Fit.payFor {c : Character} (h : Fit c) {d : SkillDef} (hd : d ∈ allSkills) (nowMs : Nat) :
    Fit (Battle.payFor d nowMs c) := by
  obtain ⟨hmana, hstamina⟩ := cost_nonneg hd
  have := h.mana
  have := h.stamina
  refine ⟨⟨Int.le_max_right _ _, ?_⟩, ⟨Int.le_max_right _ _, ?_⟩, h.sized⟩
  · unfold Battle.payFor; dsimp only; omega
  · unfold Battle.payFor; dsimp only; omega

theorem Fit.takeClass {c : Character} (h : Fit c) (cls : Class) (nowMs : Nat) :
    Fit (Battle.takeClass cls nowMs c) where
  mana := ⟨Int.le_max_right _ _, Int.le_refl _⟩
  stamina := ⟨Int.le_max_right _ _, Int.le_refl _⟩
  sized hlevel :=
    have hstats := assignCoreStats_le cls
    { maxHp := Int.max_le.mpr ⟨Int.le_trans (computeMaxHp_le hstats cls) (by omega), by omega⟩
      maxMana := Int.max_le.mpr ⟨computeMaxMana_le hstats cls c.level, by omega⟩
      maxStamina := Int.max_le.mpr ⟨computeMaxStamina_le hstats cls c.level, by omega⟩
      stats := hstats
      ranks := (h.sized hlevel).ranks }

theorem Fit.train {c : Character} (h : Fit c) (id : Text) {rank : Nat} (hrank : rank < Battle.maxRank)
    (skillPoints : Nat) : Fit { c with skillPoints, skills := c.skills.insert id (rank + 1) } where
  mana := h.mana
  stamina := h.stamina
  sized hlevel := { h.sized hlevel with
    ranks := by
      intro id' rank' hlook
      rw [Table.lookup_insert_eq] at hlook
      split at hlook
      · cases hlook; exact hrank
      · exact (h.sized hlevel).ranks id' rank' hlook }

/-- The clock below which what has been regenerated is not negative. -/
def clockLimit : Nat := 2 ^ 40

theorem Fit.regen {c : Character} (h : Fit c) {nowMs : Nat} (hclock : nowMs < clockLimit) :
    Fit (c.regen nowMs) := by
  -- the cast keeps the number of intervals
  have hcast : ∀ last every, 1000 ≤ every → 0 ≤ Word.toI32 (((nowMs - last) / every : Nat) : Int) := by
    intro last every hevery
    have hn : (nowMs - last) / every < 2 ^ 31 := by
      refine Nat.lt_of_le_of_lt (Nat.div_le_div_left hevery (by decide)) ?_
      unfold clockLimit at hclock
      omega
    generalize (nowMs - last) / every = n at hn ⊢
    rw [Word.toI32_of_range (by omega) (by omega)]
    exact Int.natCast_nonneg n
  have hmana := hcast c.lastManaRegenMs 1500 (by decide)
  have hstamina := hcast c.lastStaminaRegenMs 1000 (by decide)
  have hmana' := h.mana
  have hstamina' := h.stamina
  unfold Character.regen
  dsimp only
  repeat' split
  all_goals
    refine ⟨?_, ?_, h.sized⟩
    · first
      | exact hmana'
      | dsimp only at *; omega
    · first
      | exact hstamina'
      | dsimp only at *; omega

theorem fit_allows (nowMs : Nat) (s : Scope) : Allows nowMs s fun _ c c' => Fit c → Fit c' where
  toComposes := composes_carry fun _ c => Fit c
  engage _ _ _ _ h := ⟨h.mana, h.stamina, h.sized⟩
  standDown _ _ h := ⟨h.mana, h.stamina, h.sized⟩
  cool _ _ _ h := ⟨h.mana, h.stamina, h.sized⟩
  gain _ _ xp h := h.gainXp xp
  goods _ _ _ _ h := ⟨h.mana, h.stamina, h.sized⟩
  pay _ _ hd h := h.payFor hd nowMs
  heal _ _ _ h := ⟨h.mana, h.stamina, h.sized⟩
  race _ _ _ h := ⟨h.mana, h.stamina, h.sized⟩
  cls _ k h := h.takeClass k nowMs
  train _ id _ hrank _ _ h := h.train id hrank _
  flags _ _ _ _ h := ⟨h.mana, h.stamina, h.sized⟩
  wound _ _ _ _ _ _ h := ⟨h.mana, h.stamina, h.sized⟩
  die _ _ _ _ h := ⟨h.mana, h.stamina, h.sized⟩
  stun _ _ _ _ h := ⟨h.mana, h.stamina, h.sized⟩

/-- **Resources stay in range while the clock does.** -/
theorem fit_endures (Raw : Type) :
    Battle.Endures Raw (· < clockLimit) (fun _ c => Fit c) SnapshotFit where
  room _ _ _ h := ⟨h.mana, h.stamina, h.sized⟩
  saved h hs := h.saved hs
  spawned w session principal authCaps b _ := newCharacter_fit w session principal authCaps b
  restored w session s principal authCaps _ h := restoredCharacter_fit w session principal authCaps h
  mob w roomId name _ := newMob_fit w roomId name (by decide)
  fights := fit_allows
  other _ _ _ h := ⟨h.mana, h.stamina, h.sized⟩
  regen _ _ _ hclock h := h.regen hclock
  named w _ roomId token := newMob_fit w roomId _ (namedMob_hp token).2

/-! ## Runs -/

/-- Every resource of a character within its bounds. -/
structure InRange (c : Character) : Prop where
  hp : 1 ≤ c.hp ∧ c.hp ≤ c.maxHp
  mana : 0 ≤ c.mana ∧ c.mana ≤ c.maxMana
  stamina : 0 ≤ c.stamina ∧ c.stamina ≤ c.maxStamina

/-- The sums of the source that are taken in the integers here are within `i32`: regeneration up to
now, healing with any skill at any rank, and the next level. -/
structure SumsFit (nowMs : Nat) (c : Character) : Prop where
  mana : c.mana + (nowMs / 1500 : Nat) < 2 ^ 31
  stamina : c.stamina + (nowMs / 1000 : Nat) < 2 ^ 31
  hp : ∀ d ∈ allSkills, c.hp + max (computeSkillAmount d ((c.skills.lookup d.id.toList).getD 0) c.stats) 0
    < 2 ^ 31
  maxHp : c.maxHp + 2 < 2 ^ 31
  level : 20 + 3 * ((c.level : Int) + 1) < 2 ^ 31

/-- As strong as a skill gets. -/
def SkillEffect.Mild : SkillEffect → Prop
  | .damage base perRank _ | .heal base perRank _ => base ≤ 7 ∧ 0 ≤ perRank ∧ perRank ≤ 2

instance : DecidablePred SkillEffect.Mild
  | .damage .. => inferInstanceAs (Decidable (_ ∧ _ ∧ _))
  | .heal .. => inferInstanceAs (Decidable (_ ∧ _ ∧ _))

theorem mild_of_mem {d : SkillDef} (hd : d ∈ allSkills) : d.effect.Mild := by
  have hall : ∀ d ∈ allSkills, d.effect.Mild := by decide
  exact hall d hd

theorem computeSkillAmount_le {d : SkillDef} (hd : d ∈ allSkills) {rank : Nat} (hrank : rank ≤ Battle.maxRank)
    {stats : AbilityScores} (hstats : ∀ a, stats.get a ≤ 15) : computeSkillAmount d rank stats ≤ 100 := by
  have hmod := modFor_le hstats
  have hranks : 1 ≤ Word.toI32 ((max rank 1 : Nat) : Int) ∧ Word.toI32 ((max rank 1 : Nat) : Int) ≤ 5 := by
    unfold Battle.maxRank at hrank
    rw [Word.toI32_of_range (by omega) (by omega)]
    omega
  have hmild := mild_of_mem hd
  unfold computeSkillAmount
  dsimp only
  generalize Word.toI32 ((max rank 1 : Nat) : Int) = r at hranks ⊢
  -- what a rank adds, for damage and for healing
  have hgrow : ∀ base perRank : Int, ∀ ability, base ≤ 7 ∧ 0 ≤ perRank ∧ perRank ≤ 2 →
      base + perRank * (r - 1) + max (stats.modFor ability) 0 ≤ 100 := by
    intro base perRank ability hbase
    have := hmod ability
    have : perRank * (r - 1) ≤ 2 * 4 := Int.mul_le_mul (by omega) (by omega) (by omega) (by omega)
    omega
  split
  · next heq => rw [heq] at hmild; exact hgrow _ _ _ hmild
  · next heq => rw [heq] at hmild; exact hgrow _ _ _ hmild

theorem Fit.sumsFit {c : Character} (h : Fit c) (halive : Alive c) (hlevel : c.level < levelLimit)
    {nowMs : Nat} (hclock : nowMs < clockLimit) : SumsFit nowMs c := by
  have hsized := h.sized hlevel
  have hmaxHp := hsized.maxHp
  have hmaxMana := hsized.maxMana
  have hmaxStamina := hsized.maxStamina
  have hmana := h.mana
  have hstamina := h.stamina
  unfold Alive at halive
  unfold levelLimit at hlevel
  unfold clockLimit at hclock
  refine ⟨by omega, by omega, fun d hd => ?_, by omega, by omega⟩
  have hrank : (c.skills.lookup d.id.toList).getD 0 ≤ Battle.maxRank := by
    cases hlook : c.skills.lookup d.id.toList with
    | none => exact Nat.zero_le _
    | some rank => exact hsized.ranks _ rank hlook
  have := computeSkillAmount_le hd hrank hsized.stats
  omega

namespace Battle

/-- The clock and all levels within their limits. -/
def InBounds (b : Battle Raw) : Prop :=
  b.nowMs < clockLimit ∧ ∀ c ∈ values b.world.chars, c.level < levelLimit

instance (b : Battle Raw) : Decidable b.InBounds :=
  inferInstanceAs (Decidable (b.nowMs < clockLimit ∧ ∀ c ∈ values b.world.chars, c.level < levelLimit))

/-- The snapshot files that runs of the shard write when they start with none or with such a file. -/
inductive Written (J : Codec Raw (List PlayerSnapshot)) (A : Codec Auth AuthBlob) : Option Raw → Prop
  | none : Written J A none
  | run {file : Option Raw} (readOk : Bool) (rooms : RoomMap) (ms : List (BattleMove Auth))
      {b : Battle Raw} : Written J A file → exec (step J A) (.new J readOk rooms file) ms = some b →
      Throughout (step J A) InBounds (.new J readOk rooms file) ms → Written J A b.world.file

/-- The run rule for what endures. -/
theorem kept_run {clockOk : Nat → Prop} {P : CharacterId → Character → Prop} {Q : PlayerSnapshot → Prop}
    (he : Endures Raw clockOk P Q) {b b' : Battle Raw} {ms : List (BattleMove Auth)}
    (hk : Kept J P Q b.world) (hclock : Along (step J A) (fun b _ => clockOk b.nowMs) b ms)
    (hex : exec (step J A) b ms = some b') : Kept J P Q b'.world :=
  exec_invariant (I := fun b : Battle Raw => Kept J P Q b.world)
    (fun hk hclock hs => kept_step hk he hclock hs) hk hclock hex

theorem kept_new {P : CharacterId → Character → Prop} {Q : PlayerSnapshot → Prop} (readOk : Bool)
    (rooms : RoomMap) {file : Option Raw} (hfile : ∀ s, InFile J file s → Q s) :
    Kept J P Q (Battle.new J readOk rooms file).world :=
  Kept.new readOk _ hfile

/-- Everybody is alive in every reachable state, whatever the file has. -/
theorem alive_run {readOk : Bool} {rooms : RoomMap} {file : Option Raw} {ms : List (BattleMove Auth)}
    {b : Battle Raw} (hex : exec (step J A) (.new J readOk rooms file) ms = some b) :
    All (fun _ c => Alive c) b.world.chars :=
  (kept_run (alive_endures Raw) (kept_new readOk rooms fun _ _ => trivial)
    (along_of_forall (fun _ _ => trivial) _ _) hex).chars

theorem fit_run {readOk : Bool} {rooms : RoomMap} {file : Option Raw} {ms : List (BattleMove Auth)}
    {b : Battle Raw} (hfile : ∀ s, InFile J file s → SnapshotFit s)
    (hex : exec (step J A) (.new J readOk rooms file) ms = some b)
    (hbounds : Throughout (step J A) InBounds (.new J readOk rooms file) ms) :
    Kept J (fun _ c => Fit c) SnapshotFit b.world :=
  kept_run (fit_endures Raw) (kept_new readOk rooms hfile) (hbounds.along And.left) hex

/-- A file that was written has nothing out of range in it. -/
theorem Written.fit {file : Option Raw} (h : Written J A file) : ∀ s, InFile J file s → SnapshotFit s := by
  induction h with
  | none => rintro s ⟨v, hv, -⟩; cases hv
  | run readOk rooms ms _ hex hbounds ih => exact (fit_run ih hex hbounds).file

/-- In such runs the hit points and the other resources of the model are those of the source. -/
theorem sumsFit_run {file : Option Raw} (hfile : Written J A file) {readOk : Bool} {rooms : RoomMap}
    {ms : List (BattleMove Auth)} {b : Battle Raw}
    (hex : exec (step J A) (.new J readOk rooms file) ms = some b)
    (hbounds : Throughout (step J A) InBounds (.new J readOk rooms file) ms) :
    All (fun _ c => SumsFit b.nowMs c) b.world.chars := by
  intro cid c hc
  have hfit : Fit c := (fit_run hfile.fit hex hbounds).chars cid c hc
  obtain ⟨hclock, hlevels⟩ := hbounds.last hex
  exact hfit.sumsFit (alive_run hex cid c hc) (hlevels c (mem_values.mpr ⟨cid, hc⟩)) hclock

/-- **Vital stats stay in range.** After every run that starts with no snapshots or with those that
earlier runs have written, while the clock and the levels are within their limits. -/
theorem vitals_in_range {file : Option Raw} (hfile : Written J A file) (readOk : Bool) (rooms : RoomMap)
    {ms : List (BattleMove Auth)} {b : Battle Raw}
    (hex : exec (step J A) (.new J readOk rooms file) ms = some b)
    (hbounds : Throughout (step J A) InBounds (.new J readOk rooms file) ms) :
    All (fun _ c => InRange c ∧ SumsFit b.nowMs c) b.world.chars := by
  intro cid c hc
  have halive : Alive c := alive_run hex cid c hc
  have hfit : Fit c := (fit_run hfile.fit hex hbounds).chars cid c hc
  exact ⟨⟨halive, hfit.mana, hfit.stamina⟩, sumsFit_run hfile hex hbounds cid c hc⟩

end Battle

/-! ## A duel -/

/-- A shard with one room, in which PvP is allowed. -/
def arena : RoomMap where
  rooms := (∅ : Table Text RoomDef).insert "arena.pit".toList ⟨"pit".toList, [], [], []⟩
  dynRooms := ∅
  startRoom := "arena.pit".toList
  hasStart := by decide

abbrev Duel : Type := Battle (Option (List PlayerSnapshot))

abbrev DuelMove : Type := BattleMove (Option AuthBlob)

namespace Duel

def start : Duel := Battle.new (Codec.direct _) true arena none

def step : Duel → DuelMove → Option Duel := Battle.step (Codec.direct _) (Codec.direct _)

def input (session : SessionId) (line : String) : DuelMove := .line someOrder session line.toList

/-- Alice and Bob are there, and both want to fight. -/
def opening : List DuelMove :=
  [.realm (.shard (attachAs 1 "alice")), .realm (.shard (attachAs 2 "bob")), input 1 "pvp on",
    input 2 "pvp on"]

/-- They fight one round and rest, and Alice leaves and comes back. -/
def oneRound : List DuelMove :=
  opening ++ [input 1 "kill bob", .event someOrder 0, .event someOrder 0, .clock 3000, .regen,
    .realm (.shard (.detach true someOrder 1)), .realm (.shard (attachAs 1 "alice"))]

end Duel

theorem Battle.vitals_in_range_duel : ∃ b, exec Duel.step Duel.start Duel.oneRound = some b
    ∧ (b.world.chars.lookup 3).map Character.hp = some 8
    ∧ All (fun _ c => InRange c ∧ SumsFit b.nowMs c) b.world.chars := by
  have hrun : ((exec Duel.step Duel.start Duel.oneRound).map fun b : Duel =>
      (decide b.InBounds, (b.world.chars.lookup 3).map Character.hp)) = some (true, some 8) := by
    decide +kernel
  have halong : Along Duel.step (fun b _ => Battle.InBounds b) Duel.start Duel.oneRound := by decide +kernel
  obtain ⟨b, hex, hend⟩ := Option.map_eq_some_iff.mp hrun
  obtain ⟨hlast, hthere⟩ := Prod.mk.inj hend
  refine ⟨b, hex, hthere, ?_⟩
  refine Battle.vitals_in_range .none true arena hex (.of_along halong fun t ht => ?_)
  cases hex.symm.trans ht
  exact of_decide_eq_true hlast

end Slopmud.Shard
