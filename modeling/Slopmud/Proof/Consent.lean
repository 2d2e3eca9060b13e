import Slopmud.Proof.Vitals

/-!
# No player is hurt without consent

Targets are chosen freely: whoever is attacked strikes back, and members of a party join in without
being asked. What is checked is each blow. A step that is taken for a character can only hurt those
whom the character may hurt when the step begins, whatever happens within the step, and one player
may hurt another only where both have agreed to fight.

Hit points are integers here and `i32` in the source. No bound on them is asked for, as blows only
subtract from at least one hit point what is not negative, or put back all of them, and neither can
wrap around. The one sum that a player brings upon another is the next level when a party shares its
experience: it only adds where it fits, as it does in all runs within the limits (`Battle.sumsFit_run`).
-/

namespace Slopmud.Shard

open Machine Table

variable {Raw Auth : Type} {J : Codec Raw (List PlayerSnapshot)} {A : Codec Auth AuthBlob}

/-! ## Hurting -/

/-- No hit points are lost, no stun is made longer, and the character stays where it is. -/
structure Spared (c c' : Character) : Prop where
  hp : c.hp ≤ c'.hp
  stunnedUntilMs : c'.stunnedUntilMs ≤ c.stunnedUntilMs
  roomId : c'.roomId = c.roomId

theorem Spared.refl (c : Character) : Spared c c := ⟨Int.le_refl _, Nat.le_refl _, rfl⟩

theorem Spared.trans {c c' c'' : Character} (h : Spared c c') (h' : Spared c' c'') : Spared c c'' :=
  ⟨Int.le_trans h.hp h'.hp, Nat.le_trans h'.stunnedUntilMs h.stunnedUntilMs, h'.roomId.trans h.roomId⟩

/-- Everybody stays alive, and whoever is not in `mine` is spared. -/
structure HurtsOnly (mine : CharacterId → Prop) (cid : CharacterId) (c c' : Character) : Prop where
  alive : Alive c → Alive c'
  spared : ¬ mine cid → Alive c → Spared c c'

theorem hurtsOnly_composes (mine : CharacterId → Prop) : Composes (HurtsOnly mine) where
  refl _ c := ⟨id, fun _ _ => .refl c⟩
  trans h h' := ⟨h'.alive ∘ h.alive, fun hnot halive =>
    (h.spared hnot halive).trans (h'.spared hnot (h.alive halive))⟩

theorem levelUp_roomId (c : Character) : c.levelUp.roomId = c.roomId := by
  unfold Character.levelUp
  dsimp only
  split
  · rfl
  · rfl

/-- Who learns from a fight is better off. -/
theorem Alive.gainXp_spared {c : Character} (h : Alive c) (xp : Nat) : Spared c (c.gainXp xp) := by
  refine (gainXp_induct (P := fun c' => Alive c' ∧ Spared c c') ?_ ?_ xp ⟨h, .refl c⟩).2
  · exact fun c' _ hc' => ⟨hc'.1, hc'.2.hp, hc'.2.stunnedUntilMs, hc'.2.roomId⟩
  · rintro c' ⟨halive, hspared⟩
    obtain ⟨halive', hhp⟩ := halive.levelUp
    obtain ⟨-, -, hstun⟩ := levelUp_hp c'
    exact ⟨halive', hspared.trans ⟨hhp, Nat.le_of_eq hstun, levelUp_roomId c'⟩⟩

/-- **A step hurts its own character and those whom it may hurt.** -/
theorem hurtsOnly_allows (nowMs : Nat) (s : Scope) :
    Allows nowMs s (HurtsOnly fun cid => cid = s.actor ∨ s.hurts cid) :=
  have alive := alive_allows nowMs s
  have self {c c' : Character} (h : Alive c → Alive c') :
      HurtsOnly (fun cid => cid = s.actor ∨ s.hurts cid) s.actor c c' :=
    ⟨h, fun hnot => absurd (.inl rfl) hnot⟩
  have whom {t : CharacterId} {c c' : Character} (hmay : s.hurts t) (h : Alive c → Alive c') :
      HurtsOnly (fun cid => cid = s.actor ∨ s.hurts cid) t c c' :=
    ⟨h, fun hnot => absurd (.inr hmay) hnot⟩
  { toComposes := hurtsOnly_composes _
    engage := fun cid c t hjoins =>
      ⟨alive.engage cid c t hjoins, fun _ _ => ⟨Int.le_refl _, Nat.le_refl _, rfl⟩⟩
    standDown := fun cid c => ⟨alive.standDown cid c, fun _ _ => ⟨Int.le_refl _, Nat.le_refl _, rfl⟩⟩
    cool := fun cid c hcools =>
      ⟨alive.cool cid c hcools, fun _ _ => ⟨Int.le_refl c.hp, Nat.le_refl c.stunnedUntilMs, rfl⟩⟩
    gain := fun cid c xp => ⟨alive.gain cid c xp, fun _ h => h.gainXp_spared xp⟩
    goods := fun cid c inv drinkLevel =>
      ⟨alive.goods cid c inv drinkLevel, fun _ _ => ⟨Int.le_refl _, Nat.le_refl _, rfl⟩⟩
    pay := fun c d hd => self (alive.pay c d hd)
    heal := fun c amount hamount => self (alive.heal c amount hamount)
    race := fun c race inv => self (alive.race c race inv)
    cls := fun c k => self (alive.cls c k)
    train := fun c id rank hrank hpoints hlook => self (alive.train c id rank hrank hpoints hlook)
    flags := fun c autoassist followLeader pvpEnabled =>
      self (alive.flags c autoassist followLeader pvpEnabled)
    wound := fun t c dmg hmay hdmg hleft => whom hmay (alive.wound t c dmg hmay hdmg hleft)
    die := fun t c roomId hmay => whom hmay (alive.die t c roomId hmay)
    stun := fun t c ms hmay => whom hmay (alive.stun t c ms hmay) }

/-- Walking hurts nobody. -/
theorem unhurt_roams : Roams fun _ (c c' : Character) =>
    c'.hp = c.hp ∧ c'.stunnedUntilMs = c.stunnedUntilMs where
  refl _ _ := ⟨rfl, rfl⟩
  trans h h' := ⟨h'.1.trans h.1, h'.2.trans h.2⟩
  room _ _ _ := ⟨rfl, rfl⟩

namespace Battle

/-! ## Consent -/

/-- Both have agreed to fight, in the same arena room, and both are built and alive. -/
def Consent (b : Battle Raw) (a t : CharacterId) : Prop :=
  ∃ att tgt, b.char a = some att ∧ b.char t = some tgt
    ∧ att.pvpEnabled = true ∧ tgt.pvpEnabled = true
    ∧ att.roomId = tgt.roomId ∧ "arena.".toList <+: att.roomId
    ∧ att.isBuilt = true ∧ tgt.isBuilt = true ∧ 0 < att.hp ∧ 0 < tgt.hp

theorem consent_of_canPvpIds {b : Battle Raw} {a t : CharacterId} (h : b.canPvpIds a t = true) :
    b.Consent a t := by
  unfold canPvpIds at h
  split at h
  · next att tgt hatt htgt =>
    simp only [Bool.and_eq_true, decide_eq_true_eq, beq_iff_eq, isPvpRoom, List.isPrefixOf_iff_prefix] at h
    obtain ⟨⟨⟨⟨⟨-, -⟩, hroom⟩, harena⟩, hatton, htgton⟩, ⟨⟨hattbuilt, htgtbuilt⟩, hatthp⟩, htgthp⟩ := h
    exact ⟨att, tgt, hatt, htgt, hatton, htgton, hroom, harena, hattbuilt, htgtbuilt, hatthp, htgthp⟩
  · cases h

/-- The character for which a step is taken, if there is one: who gives the line, or whose event
it is. -/
def actor (b : Battle Raw) : BattleMove Auth → Option CharacterId
  | .line _ session _ | .realm (.going session _) | .realm (.shard (.input _ session _)) =>
    (b.world.activeChar session).map Prod.fst
  | .event _ _ => b.popDueEvent.map fun e => e.1.kind.actor
  | _ => none

/-- A player's character has lost hit points or is stunned for longer; or it was killed, and woke
up elsewhere with all of its hit points: nobody walks in a fight. -/
def Hurts (b : Battle Raw) (m : BattleMove Auth) (b' : Battle Raw) (t : CharacterId) : Prop :=
  ∃ c c', b.char t = some c ∧ b'.char t = some c' ∧ c.controller.isSome = true
    ∧ (c'.hp < c.hp ∨ c.stunnedUntilMs < c'.stunnedUntilMs ∨ (m.isFight = true ∧ c'.roomId ≠ c.roomId))

variable {b b' : Battle Raw} {a t : CharacterId}

theorem not_hurts_of_walked {m : BattleMove Auth} (hpeace : m.isFight = false)
    (hw : Walked (fun _ c c' => c'.hp = c.hp ∧ c'.stunnedUntilMs = c.stunnedUntilMs) b.world b'.world) :
    ¬ b.Hurts m b' t := by
  rintro ⟨c, c', hc, hc', -, hhurt⟩
  obtain ⟨c₀, hc₀, hhp, hstun⟩ := hw.chars t c' hc'
  cases hc.symm.trans hc₀
  rw [hpeace] at hhurt
  rcases hhurt with hlost | hlonger | ⟨hfight, -⟩
  · exact Int.ne_of_lt hlost hhp
  · exact Nat.ne_of_lt hlonger hstun.symm
  · cases hfight

/-- Whoever was hurt is one of those who may be. -/
theorem mayHurt_of_hurts {m : BattleMove Auth} (halive : All (fun _ c => Alive c) b.world.chars)
    (hw : Walked (HurtsOnly fun cid => cid = a ∨ b.MayHurt a cid) b.world b'.world) (hne : t ≠ a)
    (hhurt : b.Hurts m b' t) : b.MayHurt a t := by
  obtain ⟨c, c', hc, hc', -, hhurt⟩ := hhurt
  obtain ⟨c₀, hc₀, honly⟩ := hw.chars t c' hc'
  cases hc.symm.trans hc₀
  by_contra hnot
  have hspared := honly.spared (not_or.mpr ⟨hne, hnot⟩) (halive t c hc)
  rcases hhurt with hlost | hlonger | ⟨-, hmoved⟩
  · exact Int.not_lt.mpr hspared.hp hlost
  · exact Nat.not_lt.mpr hspared.stunnedUntilMs hlonger
  · exact hmoved hspared.roomId

/-- **One step.** It hurts another player only as its character may. -/
theorem mayHurt_of_step {m : BattleMove Auth} (halive : All (fun _ c => Alive c) b.world.chars)
    (hs : b.step J A m = some b') (hactor : b.actor m = some a) (hne : t ≠ a) (hhurt : b.Hurts m b' t) :
    b.MayHurt a t := by
  cases m with
  | line O session text =>
    obtain ⟨⟨_, p⟩, hactive, rfl⟩ := Option.map_eq_some_iff.mp hactor
    exact mayHurt_of_hurts halive (line_fought hactive (hurtsOnly_allows _ _) hs).toWalked hne hhurt
  | event O draw =>
    obtain ⟨⟨e, b₁⟩, hpop, rfl⟩ := Option.map_eq_some_iff.mp hactor
    exact mayHurt_of_hurts halive (event_walked hpop (hurtsOnly_allows _ _) hs) hne hhurt
  | realm m =>
    simp only [step, Option.ite_none_right_eq_some, Option.map_eq_some_iff] at hs
    obtain ⟨-, realm, hs, rfl⟩ := hs
    cases m with
    | going session g =>
      simp only [Realm.step, Option.ite_none_left_eq_some] at hs
      exact absurd hhurt (not_hurts_of_walked rfl (go_walked unhurt_roams hs.2))
    | shard m =>
      cases m with
      | input O session line =>
        simp only [Realm.step, shardStep, Option.ite_none_right_eq_some, Option.map_eq_some_iff] at hs
        obtain ⟨-, _, ⟨⟨p, cmd⟩, -, rfl⟩, rfl⟩ := hs
        have hparty := runParty_walked unhurt_roams.toComposes O
          { b.world with rooms := b.realm.rooms.view } session p cmd
        exact absurd hhurt (not_hurts_of_walked rfl ⟨hparty.chars, hparty.players, hparty.file, hparty.nowMs⟩)
      | _ => cases hactor
    | _ => cases hactor
  | _ => cases hactor

/-- **No player is hurt by another player without consent**, in any reachable state: not by lines,
not by autoattacks however they were started, and not by skills. -/
theorem no_hurt_without_consent {readOk : Bool} {rooms : RoomMap} {file : Option Raw}
    {ms : List (BattleMove Auth)} (hrun : exec (step J A) (.new J readOk rooms file) ms = some b)
    {m : BattleMove Auth} (hs : b.step J A m = some b') (hactor : b.actor m = some a)
    (hplayer : b.isPlayer a = true) (hne : t ≠ a) (hhurt : b.Hurts m b' t) : b.Consent a t := by
  have hmay := mayHurt_of_step (alive_run hrun) hs hactor hne hhurt
  obtain ⟨c, -, hc, -, hcontrolled, -⟩ := hhurt
  exact consent_of_canPvpIds (hmay hplayer (by rw [isPlayer, hc]; exact hcontrolled))

end Battle

/-- Alice's first blow. -/
theorem Battle.no_hurt_without_consent_duel : ∃ b b' : Duel,
    exec Duel.step Duel.start (Duel.opening ++ [Duel.input 1 "kill bob"]) = some b
      ∧ b.Hurts (.event someOrder 0 : DuelMove) b' 2 ∧ b.Consent 1 2 := by
  have hrun : ((exec Duel.step Duel.start (Duel.opening ++ [Duel.input 1 "kill bob"])).bind fun b : Duel =>
      (Duel.step b (.event someOrder 0)).map fun b' : Duel =>
        (b.actor (.event someOrder 0 : DuelMove), b.isPlayer 1,
          (b.char 2).map fun c => (c.hp, c.controller.isSome), (b'.char 2).map Character.hp))
      = some (some 1, true, some (12, true), some 8) := by decide +kernel
  obtain ⟨b, hex, hstep⟩ := Option.bind_eq_some_iff.mp hrun
  obtain ⟨b', hs, heq⟩ := Option.map_eq_some_iff.mp hstep
  simp only [Prod.mk.injEq, Option.map_eq_some_iff] at heq
  obtain ⟨hactor, hplayer, ⟨c, hc, hhp, hcontrolled⟩, c', hc', hhp'⟩ := heq
  have hhurt : b.Hurts (.event someOrder 0 : DuelMove) b' 2 :=
    ⟨c, c', hc, hc', hcontrolled, .inl (by rw [hhp, hhp']; decide)⟩
  exact ⟨b, b', hex, hhurt, Battle.no_hurt_without_consent hex hs hactor hplayer (by decide) hhurt⟩

end Slopmud.Shard
