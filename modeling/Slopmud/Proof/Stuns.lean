import Slopmud.Proof.Cadence
import Slopmud.Proof.Refusals

/-!
# What a stun stops

Attacks and skills look whether their character is stunned, and a stun takes the cast away from a boss
that is casting. Nothing looks at the stun when a boss begins to cast. So a run in which no boss begins
a cast while it is stunned has nobody do anything while stunned, and each cast that is resolved has been
begun, without a stun or another resolution since.
-/

namespace Slopmud.Shard

open Machine Table

variable {Raw Auth : Type} {J : Codec Raw (List PlayerSnapshot)} {A : Codec Auth AuthBlob}

/-! ## Deeds -/

inductive DeedKind where
  | hit
  | skill
  /-- A boss begins to cast. -/
  | begun
  | resolved
  /-- This was done to the character. -/
  | stunned
deriving DecidableEq, Repr

/-- Something that a character did, with the time and until when it was stunned then. -/
structure Deed where
  kind : DeedKind
  actor : CharacterId
  atMs : Nat
  stunnedUntilMs : Nat
deriving DecidableEq, Repr

def BattleMove.isLine : BattleMove Auth → Bool
  | .line .. => true
  | _ => false

def BattleMove.isRelink : BattleMove Auth → Bool
  | .relink .. => true
  | _ => false

namespace Battle

/-- Until when a character is stunned. -/
def stunOf (b : Battle Raw) (cid : CharacterId) : Nat := ((b.char cid).map Character.stunnedUntilMs).getD 0

def deed (b : Battle Raw) (kind : DeedKind) (cid : CharacterId) : Deed := ⟨kind, cid, b.nowMs, b.stunOf cid⟩

/-- A mob that is alive. -/
def livingMob (b : Battle Raw) (bossId : CharacterId) : Bool :=
  (b.char bossId).any fun c => c.controller.isNone && decide (0 < c.hp)

/-- The telegraph of a boss begins a cast. -/
def begins (b : Battle Raw) (bossId : CharacterId) : Bool :=
  b.livingMob bossId && (b.char bossId).any (fun c => c.name == "grease_king".toList)
    && (b.bosses.lookup bossId).any fun bs => decide (bs.castingUntilMs ≤ b.nowMs)

/-- The event for the end of a cast resolves it. -/
def resolves (b : Battle Raw) (bossId : CharacterId) (seq : Nat) : Bool :=
  b.livingMob bossId && (b.bosses.lookup bossId).any fun bs =>
    bs.seq == seq && bs.castingUntilMs != 0 && decide (bs.castingUntilMs ≤ b.nowMs)

/-- The skill that a line uses, if it is not refused, and whose it is. -/
def skillUse (b : Battle Raw) (session : SessionId) (text : Text) :
    Option (CharacterId × Character × SkillDef) := do
  match ← command text with
  | .use token =>
    let (cid, p) ← b.world.activeChar session
    let d ← p.cls.bind fun cls => findSkillForClass cls token
    some (cid, p, d)
  | _ => none

/-- Whom the line stuns: a skill that stuns is used against it, and it is stunned after the step. -/
def stuns (b b' : Battle Raw) (session : SessionId) (text : Text) : Option CharacterId := do
  let (_, p, d) ← b.skillUse session text
  let t ← p.combat.target
  if skillStunMs d ≠ 0 ∧ b.nowMs < b'.stunOf t then some t else none

/-- What is done by handling an event. -/
def deedsOf (b : Battle Raw) (kind : EventKind) (b' : Battle Raw) : List Deed :=
  match kind with
  | .combatAct a => if b.hits.length < b'.hits.length then [b.deed .hit a] else []
  | .bossTelegraph bossId => if b.begins bossId then [b.deed .begun bossId] else []
  | .bossResolve bossId seq => if b.resolves bossId seq then [b.deed .resolved bossId] else []

/-- What is done by the step to `b'`, the latest first. -/
def deeds (b : Battle Raw) (m : BattleMove Auth) (b' : Battle Raw) : List Deed :=
  match m with
  | .line _ session text =>
    (b.stuns b' session text).toList.map (b'.deed .stunned)
      ++ (b.skillUse session text).toList.map fun use => b.deed .skill use.1
  | .event _ _ => (b.popDueEvent.map fun e => b.deedsOf e.1.kind b').getD []
  | _ => []

/-- The shard with a log of all deeds, the latest first. A new world starts a new log. The loop of the shard
reads a line when `process_due_events` has left no event that is due. -/
def logged (J : Codec Raw (List PlayerSnapshot)) (A : Codec Auth AuthBlob) (s : Battle Raw × List Deed)
    (m : BattleMove Auth) : Option (Battle Raw × List Deed) :=
  if m.isLine = true ∧ s.1.popDueEvent.isSome then none
  else (s.1.step J A m).map fun b' => (b', if m.isRelink then [] else s.1.deeds m b' ++ s.2)

end Battle

/-- The kinds that tell how it stands with a cast. -/
def DeedKind.ofCast : DeedKind → Bool
  | .begun | .resolved | .stunned => true
  | _ => false

/-- The latest that happened to the casts of a boss. -/
def lastCast (bossId : CharacterId) (log : List Deed) : Option DeedKind :=
  (log.find? fun d => d.actor == bossId && d.kind.ofCast).map Deed.kind

/-- Every cast that was resolved was begun, and neither a stun nor a resolution came in between. -/
def InOrder (log : List Deed) : Prop :=
  ∀ d earlier, (d :: earlier) <:+ log → d.kind = .resolved → lastCast d.actor earlier = some .begun

/-- Whoever did something was not stunned. -/
def Free (log : List Deed) : Prop := ∀ d ∈ log, d.kind ≠ .stunned → d.stunnedUntilMs ≤ d.atMs

theorem ScheduledEvent.least_le {queue : List ScheduledEvent} {e : ScheduledEvent} (he : e ∈ queue) :
    ∃ f, least queue = some f ∧ f.dueMs ≤ e.dueMs := by
  induction queue with
  | nil => cases he
  | cons g queue ih =>
    unfold least
    cases hrest : least queue with
    | none =>
      rcases List.mem_cons.mp he with rfl | he
      · exact ⟨e, rfl, Nat.le_refl _⟩
      · obtain ⟨f, hf, -⟩ := ih he
        cases hrest.symm.trans hf
    | some f =>
      refine ⟨_, rfl, ?_⟩
      have hboth : (if f.before g then f else g).dueMs ≤ g.dueMs
          ∧ (if f.before g then f else g).dueMs ≤ f.dueMs := by
        unfold before
        split
        · next hbefore =>
          simp only [Bool.or_eq_true, Bool.and_eq_true, decide_eq_true_eq, beq_iff_eq] at hbefore
          omega
        · next hnot =>
          simp only [Bool.or_eq_true, Bool.and_eq_true, decide_eq_true_eq, beq_iff_eq, not_or] at hnot
          omega
      rcases List.mem_cons.mp he with rfl | he
      · exact hboth.1
      · obtain ⟨f', hf', hle⟩ := ih he
        cases hrest.symm.trans hf'
        exact Nat.le_trans hboth.2 hle

theorem InOrder.cons {d : Deed} {log : List Deed} (h : InOrder log)
    (hd : d.kind = .resolved → lastCast d.actor log = some .begun) : InOrder (d :: log) := by
  intro d' earlier hsuffix hkind
  rcases List.suffix_cons_iff.mp hsuffix with heq | hsuffix
  · cases heq
    exact hd hkind
  · exact h d' earlier hsuffix hkind

theorem InOrder.append {ds log : List Deed} (h : InOrder log) (hds : ∀ d ∈ ds, d.kind ≠ .resolved) :
    InOrder (ds ++ log) := by
  induction ds with
  | nil => exact h
  | cons d ds ih =>
    have hrest := ih fun d' hd' => hds d' (List.mem_cons_of_mem _ hd')
    exact hrest.cons fun hkind => absurd hkind (hds d List.mem_cons_self)

/-- Deeds of others, or of another kind. -/
theorem lastCast_append {bossId : CharacterId} {ds log : List Deed}
    (h : ∀ d ∈ ds, d.actor = bossId → d.kind.ofCast = false) :
    lastCast bossId (ds ++ log) = lastCast bossId log := by
  have hnone : ds.find? (fun d => d.actor == bossId && d.kind.ofCast) = none := by
    rw [List.find?_eq_none]
    intro d hd
    by_cases hactor : d.actor = bossId
    · simp [h d hd hactor]
    · simp [hactor]
  rw [lastCast, List.find?_append, hnone, Option.none_or]
  rfl

namespace Battle

variable {b b' b'' : Battle Raw}

/-! ## Steps that leave casts alone -/

theorem stunOf_eq {cid : CharacterId} {c : Character} (hc : b.char cid = some c) :
    b.stunOf cid = c.stunnedUntilMs := by
  rw [stunOf, hc]
  rfl

theorem stunOf_le {cid : CharacterId} {n : Nat} (h : ∀ c, b.char cid = some c → c.stunnedUntilMs ≤ n) :
    b.stunOf cid ≤ n := by
  unfold stunOf
  cases hc : b.char cid with
  | none => exact Nat.zero_le n
  | some c => exact h c hc

/-- At most `t` is stunned, and its cast is over then. No cast begins or changes otherwise, and no event
is lost. -/
structure Steady (t : Option CharacterId) (b b' : Battle Raw) : Prop where
  stuns : ∀ cid c', b'.char cid = some c' → some cid ≠ t → c'.stunnedUntilMs ≤ b.stunOf cid
  bosses : ∀ cid bs, b'.bosses.lookup cid = some bs → bs.castingUntilMs ≠ 0 →
    b.bosses.lookup cid = some bs ∧ (some cid = t → bs.castingUntilMs ≤ b'.nowMs)
  queue : ∀ e ∈ b.queue, e ∈ b'.queue
  nowMs : b.nowMs ≤ b'.nowMs

theorem Steady.trans {t : Option CharacterId} (h : Steady none b b') (h' : Steady t b' b'') : Steady t b b'' where
  stuns cid c'' hc'' hcid := by
    have hlater : c''.stunnedUntilMs ≤ b'.stunOf cid := h'.stuns cid c'' hc'' hcid
    exact Nat.le_trans hlater (stunOf_le fun c' hc' => h.stuns cid c' hc' (by simp))
  bosses cid bs hbs hcast := by
    obtain ⟨hbs', hdue⟩ := h'.bosses cid bs hbs hcast
    exact ⟨(h.bosses cid bs hbs' hcast).1, hdue⟩
  queue e he := h'.queue e (h.queue e he)
  nowMs := Nat.le_trans h.nowMs h'.nowMs

/-- The same world, the same bosses, and no fewer events. -/
theorem Steady.of_eq (hworld : b'.world = b.world) (hbosses : b'.bosses = b.bosses)
    (hqueue : ∀ e ∈ b.queue, e ∈ b'.queue) : Steady none b b' := by
  have hnow : b.nowMs = b'.nowMs := congrArg World.nowMs hworld.symm
  refine ⟨fun cid c hc _ => ?_, fun cid bs hbs _ => ?_, hqueue, Nat.le_of_eq hnow⟩
  · rw [char, hworld] at hc
    exact Nat.le_of_eq (stunOf_eq hc).symm
  · rw [hbosses] at hbs
    exact ⟨hbs, fun h => nomatch h⟩

theorem Steady.refl (b : Battle Raw) : Steady none b b := .of_eq rfl rfl fun _ he => he

theorem updateChar_frame (b : Battle Raw) (cid : CharacterId) (f : Character → Character) :
    (b.updateChar cid f).bosses = b.bosses ∧ (b.updateChar cid f).queue = b.queue
      ∧ (b.updateChar cid f).nowMs = b.nowMs := by
  unfold updateChar
  split
  · exact ⟨rfl, rfl, rfl⟩
  · exact ⟨rfl, rfl, rfl⟩

theorem updateChar_steady (b : Battle Raw) (cid : CharacterId) {f : Character → Character}
    (hf : ∀ c, (f c).stunnedUntilMs = c.stunnedUntilMs) : Steady none b (b.updateChar cid f) := by
  obtain ⟨hbosses, hqueue, hnow⟩ := updateChar_frame b cid f
  refine ⟨fun cid' c' hc' _ => ?_, fun cid' bs hbs _ => ?_, fun e he => hqueue ▸ he, Nat.le_of_eq hnow.symm⟩
  · rw [char_updateChar_map] at hc'
    obtain ⟨c, hc, rfl⟩ := Option.map_eq_some_iff.mp hc'
    rw [stunOf_eq hc]
    split
    · exact Nat.le_of_eq (hf c)
    · exact Nat.le_refl _
  · rw [hbosses] at hbs
    exact ⟨hbs, fun h => nomatch h⟩

theorem Steady.updateChar (h : Steady none b b') (cid : CharacterId) {f : Character → Character}
    (hf : ∀ c, (f c).stunnedUntilMs = c.stunnedUntilMs) : Steady none b (b'.updateChar cid f) :=
  h.trans (updateChar_steady b' cid hf)

theorem Steady.schedule (h : Steady none b b') (dueMs : Nat) (kind : EventKind) :
    Steady none b (b'.scheduleAtMs dueMs kind) :=
  h.trans (.of_eq rfl rfl fun _ he => List.mem_cons_of_mem _ he)

theorem standDown_steady (b : Battle Raw) (cid : CharacterId) : Steady none b (b.updateChar cid standDown) :=
  updateChar_steady b cid fun _ => rfl

theorem engage_steady (b : Battle Raw) (cid t : CharacterId) : Steady none b (b.engage cid t) := by
  refine Steady.schedule ?_ b.nowMs (.combatAct cid)
  exact updateChar_steady b cid fun _ => rfl

theorem startCombat_steady (O : SetOrder) (fuel : Nat) (b : Battle Raw) (a t : CharacterId) :
    Steady none b (startCombat O fuel b a t) := by
  have hstart : Rallied b b ∧ Steady none b b := ⟨.refl b, .refl b⟩
  refine (startCombat_induct (I := fun b' => Rallied b b' ∧ Steady none b b') (fun _ h => h.1) ?_ O fuel b
    hstart .attacks).2
  rintro b' cid t' - ⟨hrallied, hsteady⟩
  exact ⟨hrallied.engage cid t', hsteady.trans (engage_steady b' cid t')⟩

theorem gainXp_stunned (xp : Nat) (c : Character) : (c.gainXp xp).stunnedUntilMs = c.stunnedUntilMs := by
  refine gainXp_induct (P := fun c' => c'.stunnedUntilMs = c.stunnedUntilMs) (fun _ _ h => h) ?_ xp rfl
  exact fun c' h => (levelUp_hp c').2.2.trans h

theorem awardXp_steady (O : SetOrder) (b : Battle Raw) (cid : CharacterId) (xp : Nat) :
    Steady none b (b.awardXp O cid xp) := by
  have hone : ∀ (b : Battle Raw) cid xp, Steady none b (b.updateChar cid (Character.gainXp xp)) :=
    fun b cid xp => updateChar_steady b cid fun c => gainXp_stunned xp c
  unfold awardXp
  split
  · exact hone b cid xp
  · split
    · exact .refl b
    · dsimp only
      split
      · exact hone b cid xp
      · exact List.foldlRecOn (motive := fun b' : Battle Raw => Steady none b b') _ _
          (.refl b) fun b' hb' e _ => hb'.trans (hone b' _ _)

theorem lookup_of_erase {K V : Type} [DecidableEq K] {m : Table K V} {k k' : K} {v : V}
    (h : (m.erase k).lookup k' = some v) : m.lookup k' = some v := by
  rw [lookup_erase_eq] at h
  split at h
  · cases h
  · exact h

/-- A character, and what it was as a boss, are gone. -/
theorem removeChar_steady (O : SetOrder) (b : Battle Raw) (cid : CharacterId) :
    Steady none b { b.withWorld (b.world.removeChar O cid) with bosses := b.bosses.erase cid } := by
  obtain ⟨partyOf, parties, chars, occupants, heq, hwho⟩ := World.removeChar_frame b.world O cid
  have hnow : (b.world.removeChar O cid).nowMs = b.nowMs := by
    rw [heq]
    rfl
  refine ⟨fun cid' c' hc' _ => Nat.le_of_eq (stunOf_eq ?_).symm,
    fun cid' bs hbs _ => ⟨?_, fun h => nomatch h⟩, fun _ he => he, Nat.le_of_eq hnow.symm⟩
  · rw [char, world, withWorld] at hc'
    dsimp only at hc'
    rw [heq] at hc'
    rcases hwho with ⟨-, rfl, -⟩ | ⟨c, -, rfl, -⟩
    · exact hc'
    · exact lookup_of_erase hc'
  · exact lookup_of_erase hbs

theorem applyDamageToMob_steady (O : SetOrder) (b : Battle Raw) (a t : CharacterId) (dmg : Int) :
    Steady none b (b.applyDamageToMob O a t dmg).2 := by
  unfold applyDamageToMob
  split
  · split
    · exact .refl b
    · have hhurt : Steady none b (b.updateChar t fun c => { c with hp := c.hp - dmg }) :=
        updateChar_steady b t fun _ => rfl
      dsimp only
      split
      · exact hhurt
      · have hgone := hhurt.trans (removeChar_steady O _ t)
        split
        · refine Steady.trans ?_ (awardXp_steady O _ a 10)
          exact hgone.updateChar a fun _ => rfl
        · exact hgone
  · exact .refl b

theorem applyDamageToPlayer_steady (b : Battle Raw) (a t : CharacterId) (dmg : Int) :
    Steady none b (b.applyDamageToPlayer a t dmg).2 := by
  unfold applyDamageToPlayer
  split
  · exact .refl b
  · next realm hs =>
    simp only [Realm.applyDamageToPlayer, Option.bind_eq_bind, Option.bind_eq_some_iff,
      Option.ite_none_left_eq_some, Option.some.injEq] at hs
    obtain ⟨att, -, tgt, htgt, -, rfl⟩ := hs
    obtain ⟨occupants, hocc⟩ := World.removeOccupant_frame ({ b.realm.world with
      chars := b.realm.world.chars.insert t { tgt with hp := tgt.hp - dmg } } : World Raw) tgt.roomId t
    have hsame : tgt.stunnedUntilMs = b.stunOf t := (stunOf_eq htgt).symm
    refine ⟨fun cid c' hc' _ => ?_, fun _ _ hbs _ => ⟨hbs, by simp⟩, fun _ he => he, Nat.le_of_eq ?_⟩
    · simp only [char, world] at hc'
      -- the one who dies is as stunned as before
      split at hc'
      · simp only [Realm.sendToGraveyard, AList.lookup_insert, hocc, World.addOccupant, lookup_insert_eq] at hc'
        split at hc'
        · next heq =>
          cases hc'
          exact heq ▸ Nat.le_of_eq hsame
        · exact Nat.le_of_eq (stunOf_eq hc').symm
      · simp only [lookup_insert_eq] at hc'
        split at hc'
        · next heq =>
          cases hc'
          exact heq ▸ Nat.le_of_eq hsame
        · exact Nat.le_of_eq (stunOf_eq hc').symm
    · simp only [nowMs, world]
      split
      · simp only [Realm.sendToGraveyard, AList.lookup_insert, hocc, World.addOccupant]
      · rfl

/-- **A stun takes the cast of its target away**, if that has not ended yet. -/
theorem applyStun_steady (b : Battle Raw) (a t : CharacterId) (stunMs : Nat) :
    ∃ t', Steady t' b (b.applyStun a t stunMs) := by
  unfold applyStun
  split
  · exact ⟨none, .refl b⟩
  split
  · split
    · exact ⟨none, .refl b⟩
    · refine ⟨some t, ?_⟩
      dsimp only
      generalize Word.satAdd64 b.nowMs stunMs = until'
      generalize hf : (fun c : Character => { c with stunnedUntilMs := max c.stunnedUntilMs until' }) = f
      have hsame := updateChar_frame b t f
      have hchars := fun cid => char_updateChar_map b t cid f
      generalize b.updateChar t f = b₁ at hsame hchars ⊢
      obtain ⟨hbosses, hqueue, hnow⟩ := hsame
      have hle : b.nowMs ≤ b₁.nowMs := Nat.le_of_eq hnow.symm
      have hstuns : ∀ cid c', b₁.char cid = some c' → some cid ≠ some t →
          c'.stunnedUntilMs ≤ b.stunOf cid := by
        intro cid c' hc' hcid
        rw [hchars] at hc'
        obtain ⟨c, hc, rfl⟩ := Option.map_eq_some_iff.mp hc'
        rw [if_neg fun heq => hcid (congrArg some heq), stunOf_eq hc]
      split
      · next hnone =>
        refine ⟨hstuns, fun cid bs hbs _ => ⟨hbosses ▸ hbs, fun hcid => ?_⟩, fun e he => hqueue ▸ he, hle⟩
        cases hcid
        rw [hnone] at hbs
        cases hbs
      · next bs hbs =>
        split
        · refine ⟨hstuns, fun cid bs' hbs' hcast => ?_, fun e he => hqueue ▸ he, hle⟩
          rw [lookup_insert_eq] at hbs'
          split at hbs'
          · cases hbs'
            exact absurd rfl hcast
          · next hne => exact ⟨hbosses ▸ hbs', fun hcid => absurd (Option.some.inj hcid) hne⟩
        · next hended =>
          refine ⟨hstuns, fun cid bs' hbs' _ => ⟨hbosses ▸ hbs', fun hcid => ?_⟩, fun e he => hqueue ▸ he, hle⟩
          cases hcid
          cases hbs.symm.trans hbs'
          exact Nat.le_of_not_lt hended
  · exact ⟨none, .refl b⟩

/-! ## Lines -/

theorem useSkill_steady {O : SetOrder} {a : CharacterId} {pc : Character} {d : SkillDef}
    (hs : b.useSkill O a pc d = some b') : ∃ t, Steady t b b' := by
  unfold useSkill at hs
  dsimp only at hs
  split at hs
  · cases hs
  have hpay : Steady none b (b.updateChar a (payFor d b.nowMs)) := updateChar_steady b a fun _ => rfl
  generalize b.updateChar a (payFor d b.nowMs) = b₁ at hs hpay
  split at hs
  · cases hs
    exact ⟨none, hpay.updateChar a fun _ => rfl⟩
  split at hs
  · cases hs
    exact ⟨none, hpay⟩
  next targetId _ =>
  split at hs
  · cases hs
    exact ⟨none, hpay⟩
  generalize hr : (if b₁.isPlayer targetId = true then
      b₁.applyDamageToPlayer a targetId (max (computeSkillAmount d _ pc.stats) 0)
    else b₁.applyDamageToMob O a targetId (max (computeSkillAmount d _ pc.stats) 0)) = r at hs
  have hhurt : Steady none b r.2 := by
    rw [← hr]
    split
    · exact hpay.trans (applyDamageToPlayer_steady b₁ a targetId _)
    · exact hpay.trans (applyDamageToMob_steady O b₁ a targetId _)
  cases hs
  split
  · exact ⟨none, hhurt.trans (standDown_steady r.2 a)⟩
  · obtain ⟨t, hstun⟩ := applyStun_steady r.2 a targetId (skillStunMs d)
    exact ⟨t, hhurt.trans hstun⟩

theorem useItem_steady {a : CharacterId} {pc : Character} {token : Text} (hs : b.useItem a pc token = some b') :
    Steady none b b' := by
  unfold useItem at hs
  split at hs
  · cases hs
    exact updateChar_steady b a fun _ => rfl
  · simp only [Option.bind_eq_bind, Option.bind_eq_some_iff] at hs
    obtain ⟨key, -, item, -, hs⟩ := hs
    split at hs
    · split at hs
      · cases hs
      · cases hs
        refine updateChar_steady b a fun c => ?_
        split
        · rfl
        · rfl
    · cases hs

/-- A line stuns at most one. -/
theorem run_steady {O : SetOrder} {session : SessionId} {cmd : Command} (hs : b.run O session cmd = some b') :
    ∃ t, Steady t b b' := by
  simp only [run, Option.bind_eq_bind, Option.bind_eq_some_iff] at hs
  obtain ⟨⟨a, p⟩, hactive, hs⟩ := hs
  have hself : ∀ f : Character → Character, (∀ c, (f c).stunnedUntilMs = c.stunnedUntilMs) →
      ∃ t, Steady t b (b.updateChar a f) := fun f hf => ⟨none, updateChar_steady b a hf⟩
  have huse : ∀ skills token, b.doUse O a p skills token = some b' → ∃ t, Steady t b b' := by
    intro skills token hs
    unfold doUse at hs
    split at hs
    · cases hs
    · split at hs
      · exact useSkill_steady hs
      · exact ⟨none, useItem_steady hs⟩
  cases cmd with
  | killOff =>
    simp only [Option.ite_none_right_eq_some] at hs
    obtain ⟨-, hs⟩ := hs
    cases hs
    exact hself _ fun _ => rfl
  | kill target =>
    rcases doKill_cases hactive hs with rfl | ⟨t, -, rfl⟩
    · exact hself _ fun _ => rfl
    · exact ⟨none, startCombat_steady O _ b a t⟩
  | use token => exact huse true token hs
  | quaff token => exact huse false token hs
  | race token =>
    simp only [doRace, Option.bind_eq_bind, Option.bind_eq_some_iff, Option.ite_none_left_eq_some] at hs
    obtain ⟨race, -, -, hs⟩ := hs
    cases hs
    exact hself _ fun _ => rfl
  | cls token =>
    simp only [doClass, Option.bind_eq_bind, Option.bind_eq_some_iff, Option.ite_none_left_eq_some] at hs
    obtain ⟨cls, -, -, hs⟩ := hs
    cases hs
    exact hself _ fun _ => rfl
  | train token =>
    simp only [doTrain, Option.bind_eq_bind, Option.bind_eq_some_iff, Option.ite_none_left_eq_some] at hs
    obtain ⟨-, cls, -, d, -, -, hs⟩ := hs
    cases hs
    exact hself _ fun _ => rfl
  | assist on => cases hs; exact hself _ fun _ => rfl
  | follow on =>
    simp only [Option.ite_none_left_eq_some] at hs
    obtain ⟨-, hs⟩ := hs
    cases hs
    exact hself _ fun _ => rfl
  | pvp on => cases hs; exact hself _ fun _ => rfl

/-! ## Events -/

theorem strike_steady (O : SetOrder) (draw : Nat) (b : Battle Raw) (a t : CharacterId) (att : Character) :
    Steady none b (b.strike O draw a t att) := by
  unfold strike
  dsimp only
  generalize (if att.controller.isSome then b.computeAutoattackDamage a draw
    else computeMobAutoattackDamage att draw) = dmg
  generalize hb₁ : b.note ⟨a, att.controller.isSome, b.nowMs⟩ = b₁
  have hnote : Steady none b b₁ := hb₁ ▸ .of_eq rfl rfl fun _ he => he
  generalize hr : (if b₁.isPlayer t = true then b₁.applyDamageToPlayer a t dmg
    else b₁.applyDamageToMob O a t dmg) = r
  have hhurt : Steady none b r.2 := by
    rw [← hr]
    split
    · exact hnote.trans (applyDamageToPlayer_steady b₁ a t _)
    · exact hnote.trans (applyDamageToMob_steady O b₁ a t _)
  split
  · exact hhurt.trans (standDown_steady r.2 a)
  · refine Steady.schedule ?_ _ _
    exact hhurt.updateChar a fun _ => rfl

/-- **Only an attacker who is not stunned lands a hit.** -/
theorem combatAct_steady (O : SetOrder) (draw : Nat) (b : Battle Raw) (a : CharacterId) :
    Steady none b (b.combatAct O draw a)
      ∧ ((b.combatAct O draw a).hits = b.hits ∨ b.stunOf a ≤ b.nowMs) := by
  unfold combatAct
  split
  · exact ⟨.refl b, .inl rfl⟩
  next att hatt =>
  split
  · exact ⟨.refl b, .inl rfl⟩
  next t _ =>
  split
  · exact ⟨.refl b, .inl rfl⟩
  split
  · exact ⟨(Steady.refl b).schedule _ _, .inl rfl⟩
  next hstun =>
  have hfree : b.stunOf a ≤ b.nowMs := by
    rw [stunOf_eq hatt]
    exact Nat.le_of_not_lt hstun
  refine ⟨?_, .inr hfree⟩
  split
  · exact (Steady.refl b).schedule _ _
  split
  · exact standDown_steady b a
  split
  · exact standDown_steady b a
  · exact strike_steady O draw b a t att

/-- Bosses may be forgotten. -/
theorem eraseBoss_steady (b : Battle Raw) (bossId : CharacterId) :
    Steady none b { b with bosses := b.bosses.erase bossId } where
  stuns _ _ hc _ := Nat.le_of_eq (stunOf_eq hc).symm
  bosses _ _ hbs _ := ⟨lookup_of_erase hbs, fun h => nomatch h⟩
  queue _ he := he
  nowMs := Nat.le_refl _

theorem livingMob_iff {bossId : CharacterId} {c : Character} (hc : b.char bossId = some c) :
    b.livingMob bossId = true ↔ ¬ (c.controller.isSome = true ∨ c.hp ≤ 0) := by
  simp [livingMob, hc]

theorem begins_iff {bossId : CharacterId} {c : Character} (hc : b.char bossId = some c) :
    b.begins bossId = true ↔ ¬ (c.controller.isSome = true ∨ c.hp ≤ 0) ∧ c.name = "grease_king".toList
      ∧ ∃ bs, b.bosses.lookup bossId = some bs ∧ bs.castingUntilMs ≤ b.nowMs := by
  rw [begins, Bool.and_eq_true, Bool.and_eq_true, livingMob_iff hc, hc, Option.any_some, beq_iff_eq, Option.any_eq_true]
  simp only [decide_eq_true_eq, and_assoc]

theorem resolves_iff {bossId : CharacterId} {c : Character} (hc : b.char bossId = some c) {s : Nat} :
    b.resolves bossId s = true ↔ ¬ (c.controller.isSome = true ∨ c.hp ≤ 0)
      ∧ ∃ bs, b.bosses.lookup bossId = some bs
        ∧ ¬ (bs.seq ≠ s ∨ bs.castingUntilMs = 0 ∨ b.nowMs < bs.castingUntilMs) := by
  rw [resolves, Bool.and_eq_true, livingMob_iff hc, Option.any_eq_true]
  simp only [Bool.and_eq_true, beq_iff_eq, bne_iff_ne, decide_eq_true_eq, ne_eq, not_or, not_not, Nat.not_lt,
    and_assoc]

/-- What a telegraph comes to: nothing new, or a cast with an event for its end. -/
theorem bossTelegraph_cases (b : Battle Raw) (bossId : CharacterId) :
    (b.begins bossId = false ∧ Steady none b (b.bossTelegraph bossId))
      ∨ (b.begins bossId = true ∧ ∃ due seq, b.bossTelegraph bossId
          = (({ b with bosses := b.bosses.insert bossId ⟨due, seq⟩ }).scheduleAtMs due
            (.bossResolve bossId seq)).scheduleInMs 6500 (.bossTelegraph bossId)) := by
  unfold bossTelegraph
  split
  · next hnone =>
    refine .inl ⟨?_, eraseBoss_steady b bossId⟩
    simp [begins, livingMob, hnone]
  next c hc =>
  have hbegins := begins_iff hc
  split
  · next hnot => exact .inl ⟨Bool.eq_false_iff.mpr fun h => (hbegins.mp h).1 hnot, eraseBoss_steady b bossId⟩
  next hacts =>
  split
  · next hnone =>
    refine .inl ⟨Bool.eq_false_iff.mpr fun h => ?_, .refl b⟩
    obtain ⟨-, -, bs, hbs, -⟩ := hbegins.mp h
    cases hnone.symm.trans hbs
  next bs hbs =>
  split
  · next hcasting =>
    refine .inl ⟨Bool.eq_false_iff.mpr fun h => ?_, (Steady.refl b).schedule _ _⟩
    obtain ⟨-, -, bs', hbs', hended⟩ := hbegins.mp h
    cases hbs.symm.trans hbs'
    exact Nat.not_lt.mpr hended hcasting
  next hended =>
  split
  · next hname => exact .inl ⟨Bool.eq_false_iff.mpr fun h => hname (hbegins.mp h).2.1, .refl b⟩
  · next hname =>
    have hnow : bs.castingUntilMs ≤ b.nowMs := Nat.le_of_not_lt hended
    exact .inr ⟨hbegins.mpr ⟨hacts, not_not.mp hname, bs, hbs, hnow⟩, _, _, rfl⟩

/-- What the event for the end of a cast comes to: no cast is resolved and this one does not end, or it is
resolved and is over. -/
theorem bossResolve_cases (b : Battle Raw) (bossId : CharacterId) (seq : Nat) :
    (b.resolves bossId seq = false ∧ ∃ bosses, b.bossResolve bossId seq = { b with bosses }
        ∧ ∀ cid bs, bosses.lookup cid = some bs → bs.castingUntilMs ≠ 0 → b.bosses.lookup cid = some bs
          ∧ (cid = bossId → bs.seq = seq → b.nowMs < bs.castingUntilMs))
      ∨ (b.resolves bossId seq = true ∧ ∃ bs, b.bosses.lookup bossId = some bs ∧ bs.castingUntilMs ≠ 0
          ∧ Steady none { b with bosses := b.bosses.insert bossId { bs with castingUntilMs := 0 } }
              (b.bossResolve bossId seq)) := by
  have herase : ∀ cid bs, (b.bosses.erase bossId).lookup cid = some bs → bs.castingUntilMs ≠ 0 →
      b.bosses.lookup cid = some bs ∧ (cid = bossId → bs.seq = seq → b.nowMs < bs.castingUntilMs) := by
    intro cid bs hbs _
    refine ⟨lookup_of_erase hbs, fun hcid => ?_⟩
    rw [hcid, AList.lookup_erase] at hbs
    cases hbs
  unfold bossResolve
  split
  · next hnone =>
    refine .inl ⟨?_, _, rfl, herase⟩
    simp [resolves, livingMob, hnone]
  next c hc =>
  have hresolves := resolves_iff (s := seq) hc
  split
  · next hnot => exact .inl ⟨Bool.eq_false_iff.mpr fun h => (hresolves.mp h).1 hnot, _, rfl, herase⟩
  next hacts =>
  split
  · next hnone =>
    refine .inl ⟨Bool.eq_false_iff.mpr fun h => ?_, b.bosses, rfl,
      fun cid bs hbs _ => ⟨hbs, fun hcid => ?_⟩⟩
    · obtain ⟨-, bs, hbs, -⟩ := hresolves.mp h
      cases hnone.symm.trans hbs
    · rw [hcid, hnone] at hbs
      cases hbs
  next bs hbs =>
  split
  · next hnot =>
    refine .inl ⟨Bool.eq_false_iff.mpr fun h => ?_, b.bosses, rfl,
      fun cid bs' hbs' hcast => ⟨hbs', ?_⟩⟩
    · obtain ⟨-, bs', hbs', hends⟩ := hresolves.mp h
      cases hbs.symm.trans hbs'
      exact hends hnot
    · intro hcid hseq
      rw [hcid, hbs] at hbs'
      cases hbs'
      rcases hnot with hother | hzero | hlater
      · exact absurd hseq hother
      · exact absurd hzero hcast
      · exact hlater
  · next hends =>
    have hcast : bs.castingUntilMs ≠ 0 := fun hzero => hends (.inr (.inl hzero))
    refine .inr ⟨hresolves.mpr ⟨hacts, bs, hbs, hends⟩, bs, hbs, hcast, ?_⟩
    exact List.foldlRecOn (motive := fun b' : Battle Raw => Steady none _ b') _ _ (.refl _)
      fun b' hb' vid _ => hb'.trans (applyDamageToPlayer_steady b' bossId vid 8)

/-! ## Steps without a fight -/

theorem regen_stunned (nowMs : Nat) (c : Character) : (c.regen nowMs).stunnedUntilMs = c.stunnedUntilMs := by
  unfold Character.regen
  dsimp only
  repeat' split
  all_goals rfl

/-- Whoever is new is not stunned, and nothing but a fight stuns. -/
theorem stunned_rests (Raw : Type) (until' : CharacterId → Nat) :
    Rests Raw (fun _ => True) (fun cid c => c.stunnedUntilMs ≤ until' cid) (fun _ => True) where
  room _ _ _ h := h
  saved _ _ := trivial
  spawned _ _ _ _ _ _ := Nat.zero_le _
  restored _ _ _ _ _ _ _ := Nat.zero_le _
  mob _ _ _ _ := Nat.zero_le _
  other _ _ _ h := h
  regen nowMs _ c _ h := by
    rw [regen_stunned]
    exact h
  named _ _ _ _ := Nat.zero_le _

theorem detachSession_nowMs (O : SetOrder) (saveOk : Bool) (w : World Raw) (session : SessionId) :
    (w.detachSession J O saveOk session).nowMs = w.nowMs := by
  unfold World.detachSession
  split
  · rfl
  · next ss _ =>
    refine List.foldlRecOn (motive := fun w' : World Raw => w'.nowMs = w.nowMs) _ _ rfl fun w' hw' cid _ => ?_
    obtain ⟨partyOf, parties, chars, occupants, players, file, heq, -⟩ :=
      World.detachOne_frame (J := J) w' O saveOk cid
    rw [heq]
    exact hw'

theorem attach_nowMs (O : SetOrder) (saveOk : Bool) (w : World Raw) (r : AttachReq Auth) :
    (w.attach A J O saveOk r).nowMs = w.nowMs := by
  have hjoin : (w.join J A O saveOk r).nowMs = w.nowMs := by
    have hdetach := detachSession_nowMs (J := J) O saveOk w r.session
    unfold World.join
    dsimp only
    split
    · rfl
    · generalize w.detachSession J O saveOk r.session = w₁ at hdetach ⊢
      unfold World.spawnOrRestoreCharacter
      split
      · exact hdetach
      · exact hdetach
  rcases attach_eq_join (J := J) (A := A) O saveOk w r with heq | ⟨cid, heq⟩
  · rw [heq, hjoin]
  · obtain ⟨players, file, hsaved⟩ := World.rememberPlayerById_frame J saveOk (w.join J A O saveOk r) cid
    rw [heq, hsaved]
    exact hjoin

/-- The moves of the realm that are no fights take no time. -/
theorem realm_nowMs {r r' : Realm Raw} {m : RealmMove Auth} (hpeace : m.isPeaceful = true)
    (hs : r.step J A m = some r') : r'.world.nowMs = r.world.nowMs := by
  have hany : Roams fun (_ : CharacterId) (_ _ : Character) => True :=
    ⟨⟨fun _ _ => trivial, fun _ _ => trivial⟩, fun _ _ _ => trivial⟩
  cases m with
  | shard m =>
    simp only [Realm.step, Option.ite_none_right_eq_some, Option.map_eq_some_iff] at hs
    obtain ⟨-, w, hw, rfl⟩ := hs
    cases m with
    | attach saveOk O req => cases hw; exact attach_nowMs O saveOk _ req
    | detach saveOk O session => cases hw; exact detachSession_nowMs O saveOk _ session
    | input O session line =>
      obtain ⟨⟨p, cmd⟩, -, rfl⟩ := Option.map_eq_some_iff.mp hw
      exact (runParty_walked hany.toComposes O _ session p cmd).nowMs
    | drop O session cid => exact (sessionsDrop_walked hany.toComposes hw).nowMs
    | killMob O cid => cases hpeace
    | game g => cases hpeace
    | relink clean saveOk readOk rooms => cases hpeace
  | going session g =>
    simp only [Realm.step, Option.ite_none_left_eq_some] at hs
    exact (go_walked hany hs.2).nowMs
  | buildNext pid => exact (buildNext_walked hany hs).nowMs
  | mobWander mob idx => exact (mobWander_walked hany hs).nowMs
  | effect e => cases hpeace
  | damage attacker target dmg => cases hpeace
  | relink clean saveOk readOk => cases hpeace

/-- A boss that is new is not casting. -/
theorem spawnNamedMob_frame {roomId token : Text} (hs : b.spawnNamedMob roomId token = some b') :
    (∀ cid bs, b'.bosses.lookup cid = some bs → bs.castingUntilMs ≠ 0 → b.bosses.lookup cid = some bs)
      ∧ (∀ e ∈ b.queue, e ∈ b'.queue) ∧ b.nowMs ≤ b'.nowMs := by
  simp only [spawnNamedMob, Option.ite_none_left_eq_some, Option.some.injEq] at hs
  obtain ⟨-, hs⟩ := hs
  obtain ⟨hbosses, hqueue, hnow⟩ := updateChar_frame (b.withWorld (b.world.spawnMob roomId (namedMob token).1))
    b.world.nextCharId fun c => { c with hp := (namedMob token).2, maxHp := (namedMob token).2 }
  generalize (b.withWorld (b.world.spawnMob roomId (namedMob token).1)).updateChar _ _ = b₁
    at hbosses hqueue hnow hs
  split at hs
  · cases hs
    refine ⟨fun cid bs hbs hcast => ?_, fun e he => List.mem_cons_of_mem _ (hqueue ▸ he),
      Nat.le_of_eq hnow.symm⟩
    have hnew : (b₁.bosses.insert b.world.nextCharId ⟨0, 1⟩).lookup cid = some bs := hbs
    rw [lookup_insert_eq] at hnew
    split at hnew
    · cases hnew
      exact absurd rfl hcast
    · rw [hbosses] at hnew
      exact hnew
  · cases hs
    exact ⟨fun cid bs hbs _ => hbosses ▸ hbs, fun e he => hqueue ▸ he, Nat.le_of_eq hnow.symm⟩

theorem peaceful_steady {m : BattleMove Auth} (hs : b.step J A m = some b') (hpeace : m.isFight = false)
    (hrelink : m.isRelink = false) : Steady none b b' := by
  have hkept : Kept J (fun cid c => c.stunnedUntilMs ≤ b.stunOf cid) (fun _ => True) b.world :=
    ⟨fun cid c hc => Nat.le_of_eq (stunOf_eq hc).symm, fun _ _ _ => trivial, fun _ _ => trivial⟩
  have hstuns := (kept_peaceful hkept (stunned_rests Raw b.stunOf) trivial hpeace hs).chars
  have hframe : (∀ cid bs, b'.bosses.lookup cid = some bs → bs.castingUntilMs ≠ 0 →
      b.bosses.lookup cid = some bs) ∧ (∀ e ∈ b.queue, e ∈ b'.queue) ∧ b.nowMs ≤ b'.nowMs := by
    cases m with
    | realm m =>
      simp only [step, Option.ite_none_right_eq_some, Option.map_eq_some_iff] at hs
      obtain ⟨hpeace, realm, hs, rfl⟩ := hs
      exact ⟨fun _ _ hbs _ => hbs, fun _ he => he, Nat.le_of_eq (realm_nowMs hpeace hs).symm⟩
    | other e => cases hs; exact ⟨fun _ _ hbs _ => hbs, fun _ he => he, Nat.le_refl _⟩
    | spawnMob roomId name => cases hs; exact ⟨fun _ _ hbs _ => hbs, fun _ he => he, Nat.le_refl _⟩
    | spawnNamedMob roomId token => exact spawnNamedMob_frame hs
    | clock nowMs =>
      simp only [step, Option.ite_none_right_eq_some, Option.some.injEq] at hs
      obtain ⟨hle, rfl⟩ := hs
      exact ⟨fun _ _ hbs _ => hbs, fun _ he => he, hle⟩
    | regen => cases hs; exact ⟨fun _ _ hbs _ => hbs, fun _ he => he, Nat.le_refl _⟩
    | line O session text => cases hpeace
    | event O draw => cases hpeace
    | relink clean saveOk readOk => cases hrelink
  obtain ⟨hbosses, hqueue, hnow⟩ := hframe
  exact ⟨fun cid c hc _ => hstuns cid c hc,
    fun cid bs hbs hcast => ⟨hbosses cid bs hbs hcast, by simp⟩, hqueue, hnow⟩

/-! ## Runs -/

/-- A cast that has not been resolved: the boss has not been stunned since it began, and there is an event
for its end. -/
structure Casts (b : Battle Raw) (log : List Deed) (bossId : CharacterId) (bs : BossState) : Prop where
  free : b.stunOf bossId ≤ b.nowMs
  begun : lastCast bossId log = some .begun
  queued : ∃ e ∈ b.queue, e.dueMs = bs.castingUntilMs ∧ e.kind = .bossResolve bossId bs.seq

structure Orderly (s : Battle Raw × List Deed) : Prop where
  free : Free s.2
  inOrder : InOrder s.2
  casts : ∀ bossId bs, s.1.bosses.lookup bossId = some bs → bs.castingUntilMs ≠ 0 → Casts s.1 s.2 bossId bs

/-- A new world. -/
theorem Orderly.ofRealm (realm : Realm Raw) : Orderly (Battle.ofRealm realm, []) where
  free := nofun
  inOrder d earlier hd := by simp at hd
  casts bossId bs hbs := by cases hbs

/-- The boss whose telegraph the next due event is. -/
def telegraphs (b : Battle Raw) : Option CharacterId :=
  b.popDueEvent.bind fun e =>
    match e.1.kind with
    | .bossTelegraph bossId => some bossId
    | _ => none

/-- No boss begins to cast while it is stunned. -/
def Minds (s : Battle Raw × List Deed) : BattleMove Auth → Prop
  | .event .. => ∀ bossId ∈ s.1.telegraphs, s.1.begins bossId = true → s.1.stunOf bossId ≤ s.1.nowMs
  | _ => True

instance (s : Battle Raw × List Deed) : DecidablePred (Minds s : BattleMove Auth → Prop)
  | .event .. => inferInstanceAs (Decidable
      (∀ bossId ∈ s.1.telegraphs, s.1.begins bossId = true → s.1.stunOf bossId ≤ s.1.nowMs))
  | .realm _ | .other _ | .spawnMob .. | .spawnNamedMob .. | .clock _ | .regen | .line .. | .relink .. =>
    .isTrue trivial

variable {log : List Deed}

/-- A cast goes on while its boss is not stunned. -/
theorem Casts.steady {t : Option CharacterId} {bossId : CharacterId} {bs : BossState} {log' : List Deed}
    (h : Casts b log bossId bs) (hs : Steady t b b') (ht : some bossId ≠ t)
    (hlog : lastCast bossId log' = lastCast bossId log) : Casts b' log' bossId bs where
  free := Nat.le_trans (stunOf_le fun c hc => hs.stuns bossId c hc ht) (Nat.le_trans h.free hs.nowMs)
  begun := hlog.trans h.begun
  queued := by
    obtain ⟨e, he, hend⟩ := h.queued
    exact ⟨e, hs.queue e he, hend⟩

/-- Nobody who is stunned or whose cast is over casts after the step. -/
theorem Orderly.steady {t : Option CharacterId} (h : Orderly (b, log)) (hs : Steady t b b') {ds : List Deed}
    (hfree : ∀ d ∈ ds, d.kind ≠ .stunned → d.stunnedUntilMs ≤ d.atMs) (horder : InOrder (ds ++ log))
    (hcasts : ∀ bossId bs, b'.bosses.lookup bossId = some bs → bs.castingUntilMs ≠ 0 →
      some bossId ≠ t ∧ ∀ d ∈ ds, d.actor = bossId → d.kind.ofCast = false) : Orderly (b', ds ++ log) where
  free d hd hkind := by
    rcases List.mem_append.mp hd with hd | hd
    · exact hfree d hd hkind
    · exact h.free d hd hkind
  inOrder := horder
  casts bossId bs hbs hcast := by
    obtain ⟨ht, hothers⟩ := hcasts bossId bs hbs hcast
    exact (h.casts bossId bs (hs.bosses bossId bs hbs hcast).1 hcast).steady hs ht (lastCast_append hothers)

theorem Orderly.rests (h : Orderly (b, log)) (hs : Steady none b b') : Orderly (b', log) :=
  h.steady (t := none) hs (nofun : ∀ d ∈ ([] : List Deed), _) h.inOrder fun _ _ _ _ => ⟨by simp, nofun⟩

/-- An event is taken from the queue that does not end a cast of the bosses that are left. -/
theorem Orderly.pop (h : Orderly (b, log)) {e : ScheduledEvent} {bosses : Table CharacterId BossState}
    (hleft : ∀ bossId bs, bosses.lookup bossId = some bs → bs.castingUntilMs ≠ 0 →
      b.bosses.lookup bossId = some bs
        ∧ (e.kind = .bossResolve bossId bs.seq → e.dueMs ≠ bs.castingUntilMs)) :
    Orderly ({ b with queue := b.queue.erase e, bosses }, log) where
  free := h.free
  inOrder := h.inOrder
  casts bossId bs hbs hcast := by
    obtain ⟨hbefore, hother⟩ := hleft bossId bs hbs hcast
    obtain ⟨hfree, hbegun, e', he', hdue, hkind⟩ := h.casts bossId bs hbefore hcast
    refine ⟨hfree, hbegun, e', ?_, hdue, hkind⟩
    refine (List.mem_erase_of_ne fun heq => ?_).mpr he'
    exact hother (heq ▸ hkind) (heq ▸ hdue)

theorem Orderly.combatAct (h : Orderly (b, log)) (O : SetOrder) (draw : Nat) (a : CharacterId) :
    Orderly (b.combatAct O draw a,
      (if b.hits.length < (b.combatAct O draw a).hits.length then [b.deed .hit a] else []) ++ log) := by
  obtain ⟨hsteady, hhits⟩ := combatAct_steady O draw b a
  rcases hhits with heq | hfree
  · rw [heq, if_neg (Nat.lt_irrefl _)]
    exact h.rests hsteady
  · split
    · refine h.steady hsteady ?_ (h.inOrder.cons nofun) fun _ _ _ _ => ⟨by simp, ?_⟩
      · rintro d hd -
        cases List.mem_singleton.mp hd
        exact hfree
      · intro d hd _
        cases List.mem_singleton.mp hd
        rfl
    · exact h.rests hsteady

/-- **A cast begins.** -/
theorem Orderly.begin (h : Orderly (b, log)) {bossId : CharacterId} {bs : BossState}
    (hfree : b.stunOf bossId ≤ b.nowMs) (hend : ∃ e ∈ b'.queue, e.dueMs = bs.castingUntilMs
      ∧ e.kind = .bossResolve bossId bs.seq)
    (hs : Steady none b { b' with bosses := b.bosses }) (hbosses : b'.bosses = b.bosses.insert bossId bs) :
    Orderly (b', b.deed .begun bossId :: log) where
  free d hd hkind := by
    rcases List.mem_cons.mp hd with rfl | hd
    · exact hfree
    · exact h.free d hd hkind
  inOrder := h.inOrder.cons nofun
  casts bossId' bs' hbs' hcast := by
    have hlook : (b.bosses.insert bossId bs).lookup bossId' = some bs' := hbosses ▸ hbs'
    rw [lookup_insert_eq] at hlook
    split at hlook
    · next heq =>
      cases hlook
      subst heq
      refine ⟨Nat.le_trans (stunOf_le fun c hc => hs.stuns bossId' c hc (by simp)) ?_, ?_, hend⟩
      · exact Nat.le_trans hfree hs.nowMs
      · simp [lastCast, deed, DeedKind.ofCast]
    · next hne =>
      have hother : lastCast bossId' ([b.deed .begun bossId] ++ log) = lastCast bossId' log := by
        refine lastCast_append fun d hd hactor => ?_
        cases List.mem_singleton.mp hd
        exact absurd hactor.symm hne
      obtain ⟨hfree', hbegun, hqueued⟩ := (h.casts bossId' bs' hlook hcast).steady hs (by simp) hother
      exact ⟨hfree', hbegun, hqueued⟩

/-- **An event.** A boss that is not stunned may begin to cast, and a cast may end. -/
theorem Orderly.handleEvent (h : Orderly (b, log)) {e : ScheduledEvent} {O : SetOrder} {draw : Nat}
    (hdue : e.dueMs ≤ b.nowMs) (hminds : ∀ bossId, e.kind = .bossTelegraph bossId →
      b.begins bossId = true → b.stunOf bossId ≤ b.nowMs) {b₁ : Battle Raw}
    (hb₁ : b₁ = { b with queue := b.queue.erase e }) :
    Orderly (b₁.handleEvent O draw e.kind, b.deedsOf e.kind (b₁.handleEvent O draw e.kind) ++ log) := by
  subst hb₁
  have hpop : (∀ bossId seq, e.kind ≠ .bossResolve bossId seq) →
      Orderly ({ b with queue := b.queue.erase e }, log) :=
    fun hkind => h.pop fun bossId bs hbs _ => ⟨hbs, fun heq => absurd heq (hkind bossId bs.seq)⟩
  generalize hkind : e.kind = kind
  cases kind with
  | combatAct a => exact (hpop fun _ _ heq => nomatch hkind.symm.trans heq).combatAct O draw a
  | bossTelegraph bossId =>
    have h₁ := hpop fun _ _ heq => nomatch hkind.symm.trans heq
    rcases bossTelegraph_cases { b with queue := b.queue.erase e } bossId with
      ⟨hnot, hsteady⟩ | ⟨hbegins, due, seq, heq⟩
    · rw [deedsOf, if_neg (by rw [show b.begins bossId = false from hnot]; decide)]
      exact h₁.rests hsteady
    · rw [deedsOf, if_pos (show b.begins bossId = true from hbegins), Battle.handleEvent, heq]
      refine h₁.begin (hminds bossId hkind hbegins) ?_ ?_ rfl
      · exact ⟨_, List.mem_cons_of_mem _ List.mem_cons_self, rfl, rfl⟩
      · exact .of_eq rfl rfl fun _ he => List.mem_cons_of_mem _ (List.mem_cons_of_mem _ he)
  | bossResolve bossId seq =>
    rcases bossResolve_cases { b with queue := b.queue.erase e } bossId seq with
      ⟨hnot, bosses, heq, hleft⟩ | ⟨hresolves, bs, hbs, hcast, hsteady⟩
    · rw [deedsOf, if_neg (by rw [show b.resolves bossId seq = false from hnot]; decide)]
      rw [Battle.handleEvent, heq]
      refine h.pop fun bossId' bs hbs hcast => ⟨(hleft bossId' bs hbs hcast).1, fun heq' hend => ?_⟩
      -- an event for the end of a cast that goes on would be too early
      obtain ⟨hboss, hseq⟩ := EventKind.bossResolve.inj (hkind.symm.trans heq')
      have hlater : b.nowMs < bs.castingUntilMs := (hleft bossId' bs hbs hcast).2 hboss.symm hseq.symm
      omega
    · rw [deedsOf, if_pos (show b.resolves bossId seq = true from hresolves)]
      obtain ⟨hfree, hbegun, -⟩ := h.casts bossId bs hbs hcast
      -- the others that cast are as before
      have hother : ∀ bossId' bs', (b.bosses.insert bossId { bs with castingUntilMs := 0 }).lookup bossId'
          = some bs' → bs'.castingUntilMs ≠ 0 → bossId' ≠ bossId ∧ b.bosses.lookup bossId' = some bs' := by
        intro bossId' bs' hbs' hcast'
        rw [lookup_insert_eq] at hbs'
        split at hbs'
        · cases hbs'
          exact absurd rfl hcast'
        · next hne => exact ⟨hne, hbs'⟩
      have h₁ := h.pop (e := e) fun bossId' bs' hbs' hcast' =>
        ⟨(hother bossId' bs' hbs' hcast').2, fun heq' =>
          absurd (EventKind.bossResolve.inj (hkind.symm.trans heq')).1.symm (hother bossId' bs' hbs' hcast').1⟩
      refine h₁.steady hsteady ?_ (h.inOrder.cons fun _ => hbegun) fun bossId' bs' hbs' hcast' => ?_
      · rintro d hd -
        cases List.mem_singleton.mp hd
        exact hfree
      · have hne := (hother bossId' bs' (hsteady.bosses bossId' bs' hbs' hcast').1 hcast').1
        refine ⟨by simp, fun d hd hactor => ?_⟩
        cases List.mem_singleton.mp hd
        exact absurd hactor.symm hne

/-- No event is due, so every cast is still going on. -/
theorem later_of_popDueEvent (h : b.popDueEvent = none) {e : ScheduledEvent} (he : e ∈ b.queue) :
    b.nowMs < e.dueMs := by
  simp only [popDueEvent, Option.bind_eq_bind, Option.bind_eq_none_iff, ite_eq_left_iff, reduceCtorEq, imp_false,
    not_not] at h
  obtain ⟨f, hf, hle⟩ := ScheduledEvent.least_le he
  exact Nat.lt_of_lt_of_le (h f hf) hle

/-- Whoever uses a skill is not stunned. -/
theorem skillUse_free {O : SetOrder} {session : SessionId} {text : Text}
    {use : CharacterId × Character × SkillDef} (hs : b.line O session text = some b')
    (huse : b.skillUse session text = some use) : b.stunOf use.1 ≤ b.nowMs := by
  simp only [skillUse, Option.bind_eq_bind, Option.bind_eq_some_iff] at huse
  obtain ⟨cmd, hcmd, huse⟩ := huse
  cases cmd with
  | use token =>
    simp only [Option.bind_eq_some_iff, Option.some.injEq] at huse
    obtain ⟨⟨cid, p⟩, hactive, d, hd, rfl⟩ := huse
    simp only [Battle.line, Option.bind_eq_bind, Option.bind_eq_some_iff, Option.ite_none_left_eq_some] at hs
    obtain ⟨cmd, hcmd', -, hs⟩ := hs
    cases hcmd.symm.trans hcmd'
    simp only [run, hactive, Option.bind_eq_bind, Option.bind_some, doUse, Option.ite_none_left_eq_some] at hs
    rw [stunOf_eq (lookup_of_activeChar hactive)]
    exact Nat.le_of_not_lt fun hstunned => hs.1 (.inr hstunned)
  | _ => cases huse

/-- **A line stuns no boss that casts afterwards.** -/
theorem Orderly.line (h : Orderly (b, log)) (hnone : b.popDueEvent = none) {O : SetOrder} {session : SessionId}
    {text : Text} (hs : b.line O session text = some b') :
    Orderly (b', b.deeds (.line O session text : BattleMove Auth) b' ++ log) := by
  obtain ⟨t, hsteady⟩ : ∃ t, Steady t b b' := by
    simp only [Battle.line, Option.bind_eq_bind, Option.bind_eq_some_iff, Option.ite_none_left_eq_some] at hs
    obtain ⟨cmd, -, -, hs⟩ := hs
    exact run_steady hs
  have hnow : b'.nowMs = b.nowMs := by
    obtain ⟨a, p, hactive⟩ := activeChar_of_line hs
    exact (line_fought hactive (joined_allows b.nowMs _) hs).nowMs
  have hdeeds : ∀ d ∈ b.deeds (.line O session text : BattleMove Auth) b',
      (∃ cid, d = b'.deed .stunned cid ∧ b.nowMs < b'.stunOf cid)
        ∨ ∃ use, b.skillUse session text = some use ∧ d = b.deed .skill use.1 := by
    intro d hd
    rcases List.mem_append.mp hd with hd | hd
    · obtain ⟨cid, hcid, rfl⟩ := List.mem_map.mp hd
      simp only [Option.mem_toList, stuns, Option.bind_eq_bind, Option.bind_eq_some_iff,
        Option.ite_none_right_eq_some, Option.some.injEq] at hcid
      obtain ⟨use, -, target, -, ⟨-, hstunned⟩, rfl⟩ := hcid
      exact .inl ⟨target, rfl, hstunned⟩
    · obtain ⟨use, huse, rfl⟩ := List.mem_map.mp hd
      exact .inr ⟨use, Option.mem_toList.mp huse, rfl⟩
  refine h.steady hsteady ?_ (h.inOrder.append fun d hd => ?_) fun bossId bs hbs hcast => ?_
  · intro d hd hkind
    rcases hdeeds d hd with ⟨cid, rfl, -⟩ | ⟨use, huse, rfl⟩
    · exact absurd rfl hkind
    · exact skillUse_free hs huse
  · rcases hdeeds d hd with ⟨cid, rfl, -⟩ | ⟨use, -, rfl⟩
    · simp [deed]
    · simp [deed]
  · -- the cast is going on, and its boss was not stunned before
    obtain ⟨hbefore, hover⟩ := hsteady.bosses bossId bs hbs hcast
    obtain ⟨hfree, -, e, he, hdue, -⟩ := h.casts bossId bs hbefore hcast
    have hlater : b.nowMs < e.dueMs := later_of_popDueEvent hnone he
    have hne : some bossId ≠ t := fun ht => by
      have hended := hover ht
      omega
    have hstill : b'.stunOf bossId ≤ b.nowMs :=
      Nat.le_trans (stunOf_le fun c hc => hsteady.stuns bossId c hc hne) hfree
    refine ⟨hne, fun d hd hactor => ?_⟩
    rcases hdeeds d hd with ⟨cid, rfl, hstunned⟩ | ⟨use, -, rfl⟩
    · cases hactor
      exact absurd hstunned (Nat.not_lt.mpr hstill)
    · rfl

theorem Orderly.step {s s' : Battle Raw × List Deed} {m : BattleMove Auth} (h : Orderly s) (hminds : Minds s m)
    (hs : logged J A s m = some s') : Orderly s' := by
  obtain ⟨b, log⟩ := s
  simp only [logged, Option.ite_none_left_eq_some, Option.map_eq_some_iff] at hs
  obtain ⟨hdone, b', hstep, rfl⟩ := hs
  cases m with
  | line O session text =>
    have hnone : b.popDueEvent = none := by simpa [BattleMove.isLine] using hdone
    exact h.line hnone hstep
  | event O draw =>
    obtain ⟨⟨e, b₁⟩, hpop, rfl⟩ := Option.map_eq_some_iff.mp hstep
    have hdeeds : ∀ b', b.deeds (.event O draw : BattleMove Auth) b' = b.deedsOf e.kind b' := by
      intro b'
      simp only [deeds, hpop, Option.map_some, Option.getD_some]
    show Orderly (_, b.deeds (.event O draw : BattleMove Auth) _ ++ log)
    rw [hdeeds]
    have htelegraphs : ∀ bossId, e.kind = .bossTelegraph bossId → b.telegraphs = some bossId := by
      intro bossId hkind
      simp only [telegraphs, hpop, Option.bind_some, hkind]
    obtain ⟨-, hdue, hb₁⟩ := popDueEvent_spec hpop
    exact h.handleEvent hdue (fun bossId hkind => hminds bossId (htelegraphs bossId hkind)) hb₁
  | relink clean saveOk readOk =>
    simp only [Battle.step, Option.map_eq_some_iff] at hstep
    obtain ⟨realm, -, rfl⟩ := hstep
    exact .ofRealm realm
  | realm m => exact h.rests (peaceful_steady hstep rfl rfl)
  | other e => exact h.rests (peaceful_steady hstep rfl rfl)
  | spawnMob roomId name => exact h.rests (peaceful_steady hstep rfl rfl)
  | spawnNamedMob roomId token => exact h.rests (peaceful_steady hstep rfl rfl)
  | clock nowMs => exact h.rests (peaceful_steady hstep rfl rfl)
  | regen => exact h.rests (peaceful_steady hstep rfl rfl)

/-- **A stun stops its victim**, in every run in which no boss begins to cast while it is stunned: nobody does
anything while stunned, and every cast that is resolved has been begun, without a stun or another resolution
since. -/
theorem stuns_stop {readOk : Bool} {rooms : RoomMap} {file : Option Raw} {ms : List (BattleMove Auth)}
    (hminds : Along (logged J A) Minds (.new J readOk rooms file, []) ms)
    (hex : exec (logged J A) (.new J readOk rooms file, []) ms = some (b, log)) : Free log ∧ InOrder log := by
  have h0 : Orderly (Battle.new J readOk rooms file, []) := .ofRealm _
  have h := exec_invariant (fun h hminds hs => Orderly.step h hminds hs) h0 hminds hex
  exact ⟨h.free, h.inOrder⟩

end Battle

/-! ## Alice and the king -/

namespace Bash

/-- Alice has trained to bash with her shield. -/
def basher : PlayerSnapshot :=
  { Duel.veteran with skills := (∅ : Table Text Nat).insert "shield_bash".toList 1 }

def start : Duel × List Deed := (Battle.new (Codec.direct _) true arena (some [basher]), [])

def step : Duel × List Deed → DuelMove → Option (Duel × List Deed) :=
  Battle.logged (Codec.direct _) (Codec.direct _)

def due : DuelMove := .event someOrder 0

/-- Alice is back, and the king appears. -/
def opening : List DuelMove :=
  [.realm (.shard (attachAs 1 "alice")), .spawnNamedMob "arena.pit".toList "grease_king".toList]

/-- She bashes the king while it casts, and leaves. Its next cast is resolved. -/
def interrupting : List DuelMove :=
  opening ++ [.clock 800, due, Duel.input 1 "kill grease_king", due, due, Duel.input 1 "use bash",
    .realm (.shard (.detach true someOrder 1)), .clock 3300, due, due, due, .clock 7300, due, .clock 9800, due]

/-- She bashes the king before it casts for the first time. -/
def early : List DuelMove :=
  opening ++ [Duel.input 1 "kill grease_king", due, due, .clock 500, Duel.input 1 "use bash", .clock 800, due]

end Bash

theorem Battle.stuns_stop_interrupting : ∃ b log, exec Bash.step Bash.start Bash.interrupting = some (b, log)
    ∧ (log.filter fun d => d.actor == 2 && d.kind.ofCast).map Deed.kind = [.resolved, .begun, .stunned, .begun]
    ∧ Free log ∧ InOrder log := by
  have hrun : (exec Bash.step Bash.start Bash.interrupting).map (fun s : Duel × List Deed =>
      (s.2.filter fun d => d.actor == 2 && d.kind.ofCast).map Deed.kind)
      = some [.resolved, .begun, .stunned, .begun] := by decide +kernel
  have hminds : Along Bash.step Battle.Minds Bash.start Bash.interrupting := by decide +kernel
  obtain ⟨⟨b, log⟩, hex, hcasts⟩ := Option.map_eq_some_iff.mp hrun
  exact ⟨b, log, hex, hcasts, Battle.stuns_stop hminds hex⟩

/-- **The king begins to cast while it is stunned.** -/
theorem stunned_king_casts : ∃ b log, exec Bash.step Bash.start Bash.early = some (b, log) ∧ ¬ Free log := by
  have hrun : (exec Bash.step Bash.start Bash.early).map (fun s : Duel × List Deed => s.2.head?)
      = some (some ⟨.begun, 2, 800, 2000⟩) := by decide +kernel
  obtain ⟨⟨b, log⟩, hex, hhead⟩ := Option.map_eq_some_iff.mp hrun
  refine ⟨b, log, hex, fun hfree => ?_⟩
  have hstunned := hfree _ (List.mem_of_head? hhead) nofun
  exact absurd hstunned (by decide)

end Slopmud.Shard
