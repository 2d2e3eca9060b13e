import Slopmud.Proof.Experience

/-!
# Pending autoattacks

What a step of a fight does to the queue. An event of an attacker schedules at most one more for the
same attacker, so that a chain of them stays a chain; only the start of combat begins a new one, for
the attacker, for whoever strikes back, and for those who assist.
-/

namespace Slopmud.Shard

open Machine Table

variable {Raw Auth : Type} {J : Codec Raw (List PlayerSnapshot)} {A : Codec Auth AuthBlob}

/-- What is taken off a list counts one less of its kind. -/
theorem countP_erase_add {α κ : Type} [DecidableEq α] [DecidableEq κ] (kind : α → κ) {l : List α} {e : α}
    (h : e ∈ l) (k : κ) : (l.erase e).countP (fun e => kind e == k) + (if kind e = k then 1 else 0)
      = l.countP fun e => kind e == k := by
  rw [(List.perm_cons_erase h).countP_eq fun e => kind e == k, List.countP_cons]
  simp only [beq_iff_eq]

namespace Battle

/-- How many autoattacks of a character are pending. -/
def acts (b : Battle Raw) (cid : CharacterId) : Nat :=
  b.queue.countP fun e => e.kind == .combatAct cid

variable {b b' : Battle Raw} {a t cid : CharacterId}

theorem acts_congr (h : b'.queue = b.queue) (cid : CharacterId) : b'.acts cid = b.acts cid := by
  unfold acts
  rw [h]

/-! ## What leaves the queue alone -/

@[simp] theorem queue_updateChar (b : Battle Raw) (cid : CharacterId) (f : Character → Character) :
    (b.updateChar cid f).queue = b.queue := by
  unfold updateChar
  split
  · rfl
  · rfl

theorem queue_giveShares (b : Battle Raw) (l : List (CharacterId × Nat)) :
    (b.giveShares l).queue = b.queue :=
  List.foldlRecOn (motive := fun b' : Battle Raw => b'.queue = b.queue) _ _ rfl
    fun b' hb' _ _ => (queue_updateChar b' _ _).trans hb'

@[simp] theorem queue_awardXp (O : SetOrder) (b : Battle Raw) (cid : CharacterId) (xp : Nat) :
    (b.awardXp O cid xp).queue = b.queue := by
  rw [awardXp_eq]
  exact b.queue_giveShares _

theorem queue_applyDamageToMob (O : SetOrder) (b : Battle Raw) (a t : CharacterId) (dmg : Int) :
    (b.applyDamageToMob O a t dmg).2.queue = b.queue := by
  have hgone : ∀ w bosses, ({ (b.updateChar t fun c => { c with hp := c.hp - dmg }).withWorld w with
      bosses } : Battle Raw).queue = b.queue := fun _ _ => queue_updateChar b t _
  unfold applyDamageToMob
  split
  · split
    · rfl
    · dsimp only
      split
      · exact queue_updateChar b t _
      · split
        · exact (queue_awardXp O _ a 10).trans ((queue_updateChar _ a _).trans (hgone _ _))
        · exact hgone _ _
  · rfl

theorem queue_applyDamageToPlayer (b : Battle Raw) (a t : CharacterId) (dmg : Int) :
    (b.applyDamageToPlayer a t dmg).2.queue = b.queue := by
  unfold applyDamageToPlayer
  split
  · rfl
  · rfl

theorem queue_applyStun (b : Battle Raw) (a t : CharacterId) (stunMs : Nat) :
    (b.applyStun a t stunMs).queue = b.queue := by
  unfold applyStun
  split
  · rfl
  split
  · split
    · rfl
    · dsimp only
      split
      · exact queue_updateChar b t _
      · split
        · exact queue_updateChar b t _
        · exact queue_updateChar b t _
  · rfl

theorem queue_bossResolve (b : Battle Raw) (bossId : CharacterId) (seq : Nat) :
    (b.bossResolve bossId seq).queue = b.queue := by
  unfold bossResolve
  split
  · rfl
  split
  · rfl
  split
  · rfl
  split
  · rfl
  · exact List.foldlRecOn (motive := fun b' : Battle Raw => b'.queue = b.queue) _ _ rfl
      fun b' hb' _ _ => (queue_applyDamageToPlayer b' _ _ _).trans hb'

/-! ## Events -/

theorem acts_scheduleAtMs (b : Battle Raw) (dueMs : Nat) (kind : EventKind) (cid : CharacterId) :
    (b.scheduleAtMs dueMs kind).acts cid = b.acts cid + if kind = .combatAct cid then 1 else 0 := by
  simp [acts, scheduleAtMs, List.countP_cons]

/-- After its blow, an attacker has at most one event more. -/
theorem acts_strike_le (O : SetOrder) (draw : Nat) (b : Battle Raw) (a t : CharacterId) (att : Character)
    (cid : CharacterId) : (b.strike O draw a t att).acts cid
      ≤ b.acts cid + if EventKind.combatAct a = .combatAct cid then 1 else 0 := by
  unfold strike
  dsimp only
  generalize (if att.controller.isSome then b.computeAutoattackDamage a draw
    else computeMobAutoattackDamage att draw) = dmg
  generalize hb₁ : b.note ⟨a, att.controller.isSome, b.nowMs⟩ = b₁
  generalize hr : (if b₁.isPlayer t = true then b₁.applyDamageToPlayer a t dmg
    else b₁.applyDamageToMob O a t dmg) = r
  have hqueue : r.2.queue = b.queue := by
    have hnote : b₁.queue = b.queue := hb₁ ▸ rfl
    rw [← hr, ← hnote]
    split
    · exact queue_applyDamageToPlayer b₁ a t dmg
    · exact queue_applyDamageToMob O b₁ a t dmg
  split
  · rw [acts_congr ((queue_updateChar r.2 a _).trans hqueue)]
    exact Nat.le_add_right _ _
  · rw [acts_scheduleAtMs, acts_congr ((queue_updateChar r.2 a _).trans hqueue)]

theorem acts_combatAct_le (O : SetOrder) (draw : Nat) (b : Battle Raw) (a cid : CharacterId) :
    (b.combatAct O draw a).acts cid
      ≤ b.acts cid + if EventKind.combatAct a = .combatAct cid then 1 else 0 := by
  have hstop : (b.updateChar a standDown).acts cid
      ≤ b.acts cid + if EventKind.combatAct a = .combatAct cid then 1 else 0 := by
    rw [acts_congr (queue_updateChar b a _)]
    exact Nat.le_add_right _ _
  have hagain : ∀ dueMs, (b.scheduleAtMs dueMs (.combatAct a)).acts cid
      ≤ b.acts cid + if EventKind.combatAct a = .combatAct cid then 1 else 0 :=
    fun dueMs => Nat.le_of_eq (acts_scheduleAtMs b dueMs _ cid)
  unfold combatAct
  split
  · exact Nat.le_add_right _ _
  split
  · exact Nat.le_add_right _ _
  split
  · exact Nat.le_add_right _ _
  split
  · exact hagain _
  split
  · exact hagain _
  split
  · exact hstop
  split
  · exact hstop
  · exact acts_strike_le O draw b a _ _ cid

/-- The events of bosses are their own. -/
theorem acts_bossTelegraph (b : Battle Raw) (bossId cid : CharacterId) :
    (b.bossTelegraph bossId).acts cid = b.acts cid := by
  unfold bossTelegraph
  split
  · rfl
  split
  · rfl
  split
  · rfl
  split
  · exact acts_scheduleAtMs b _ _ cid
  split
  · rfl
  · dsimp only [scheduleInMs]
    rw [acts_scheduleAtMs, acts_scheduleAtMs]
    rfl

theorem acts_handleEvent_le (O : SetOrder) (draw : Nat) (b : Battle Raw) (kind : EventKind)
    (cid : CharacterId) : (b.handleEvent O draw kind).acts cid
      ≤ b.acts cid + if kind = .combatAct cid then 1 else 0 := by
  cases kind with
  | combatAct a => exact acts_combatAct_le O draw b a cid
  | bossTelegraph bossId => exact Nat.le_of_eq (acts_bossTelegraph b bossId cid)
  | bossResolve bossId seq => exact Nat.le_of_eq (acts_congr (queue_bossResolve b bossId seq) cid)

/-- **An event leaves a character no more pending autoattacks than before.** -/
theorem acts_event_le {O : SetOrder} {draw : Nat} (hs : b.event O draw = some b') (cid : CharacterId) :
    b'.acts cid ≤ b.acts cid := by
  obtain ⟨⟨e, b₁⟩, hpop, rfl⟩ := Option.map_eq_some_iff.mp hs
  obtain ⟨hmem, -, rfl⟩ := popDueEvent_spec hpop
  have hhandled := acts_handleEvent_le O draw { b with queue := b.queue.erase e } e.kind cid
  -- one event less of its attacker, and at most one more
  have herased : ({ b with queue := b.queue.erase e } : Battle Raw).acts cid
      + (if e.kind = .combatAct cid then 1 else 0) = b.acts cid :=
    countP_erase_add ScheduledEvent.kind hmem (.combatAct cid)
  exact Nat.le_trans hhandled (Nat.le_of_eq herased)

/-! ## Starting combat -/

/-- Whom the target of an attack strikes back at. -/
def strikesBack (b : Battle Raw) (cid t : CharacterId) : Bool :=
  b.isMob t || (b.isPlayer t && b.canPvpIds cid t)

/-- Who attacks when `a` does: it, and those of its party who assist, and so on. -/
inductive Enlists (b : Battle Raw) (a : CharacterId) : CharacterId → Prop
  | attacks : Enlists b a a
  | assists {cid mid : CharacterId} {c : Character} {p : Party} : Enlists b a cid →
      b.char cid = some c → (b.world.partyOf.lookup cid).bind b.world.parties.lookup = some p →
      mid ∈ p.members → b.assists c.roomId cid mid = true → Enlists b a mid

/-- Combat can start without a second chain of events for anybody: nobody who fights has an event
pending, and the target strikes back once. -/
structure Fresh (b : Battle Raw) (a t : CharacterId) : Prop where
  enlisted : ∀ cid, b.Enlists a cid → b.acts cid = 0
  target : a ≠ t ∧ b.acts t = 0
  once : ∀ cid, b.Enlists a cid → cid ≠ a → b.strikesBack cid t = false

/-- On the way, with `b₀` the state in which combat started: the attacker attacks already, and those
who may still join in have no event pending. -/
structure Singly (b₀ : Battle Raw) (a : CharacterId) (b : Battle Raw) : Prop where
  rallied : Rallied b₀ b
  acts : ∀ cid, b.acts cid ≤ 1
  waiting : ∀ cid, b₀.Enlists a cid → cid ∈ b.idle → b.acts cid = 0
  attacks : a ∉ b.idle

theorem acts_engage (b : Battle Raw) (cid t cid' : CharacterId) :
    (b.engage cid t).acts cid' = b.acts cid' + if cid = cid' then 1 else 0 := by
  unfold engage
  rw [acts_scheduleAtMs, acts_congr (queue_updateChar b cid _)]
  simp only [EventKind.combatAct.injEq]

/-- Engaging somebody leaves nobody else idle than before, and not it. -/
theorem mem_idle_engage {cid' : CharacterId} (h : cid ∈ (b.engage cid' t).idle) :
    cid ∈ b.idle ∧ cid ≠ cid' := by
  refine ⟨((Rallied.refl b).engage cid' t).idle_subset h, fun heq => ?_⟩
  subst heq
  exact not_mem_idle_engage b cid t h

/-- Whoever has no event pending can be engaged. -/
theorem Singly.engage {b₀ : Battle Raw} (h : Singly b₀ a b) (hnone : b.acts cid = 0) (t : CharacterId) :
    Singly b₀ a (b.engage cid t) := by
  refine ⟨h.rallied.engage cid t, fun cid' => ?_, fun cid' hin hidle => ?_, fun hidle => ?_⟩
  · rw [acts_engage]
    split
    · next heq =>
      subst heq
      omega
    · exact h.acts cid'
  · obtain ⟨hidle', hne⟩ := mem_idle_engage hidle
    rw [acts_engage, if_neg (Ne.symm hne)]
    exact h.waiting cid' hin hidle'
  · exact h.attacks (mem_idle_engage hidle).1

/-- The loop over the party, once each member can be started -/
theorem Singly.assisted {b₀ : Battle Raw} {O : SetOrder} {fuel : Nat}
    (hstart : ∀ b mid, Singly b₀ a b → b₀.Enlists a mid → mid ∈ b.idle →
      Singly b₀ a (startCombat O fuel b mid t))
    (h : Singly b₀ a b) (hin : b₀.Enlists a cid) {roomId : Text}
    (hroom : ∃ c, b₀.char cid = some c ∧ c.roomId = roomId) :
    Singly b₀ a (match (b.world.partyOf.lookup cid).bind b.world.parties.lookup with
      | none => b
      | some p =>
        (O.list p.members).foldl (fun b mid =>
          if b.assists roomId cid mid then startCombat O fuel b mid t else b) b) := by
  obtain ⟨c, hc, rfl⟩ := hroom
  split
  · exact h
  next p hp =>
  rw [h.rallied.partyOf, h.rallied.parties] at hp
  -- who assists is asked of the state so far, and is a smaller question than of `b₀`
  refine List.foldlRecOn (motive := Singly b₀ a) _ _ h fun b' hb' mid hmid => ?_
  split
  · next hassists =>
    have hmem : mid ∈ p.members := O.mem_of_mem_list hmid
    have hassists₀ : b₀.assists c.roomId cid mid = true := hb'.rallied.assists hassists
    exact hstart b' mid hb' (.assists hin hc hp hmem hassists₀) (mem_idle_of_assists hassists)
  · exact hb'

/-- Each of those who assist attacks for the first time, and is not struck back at. -/
theorem Singly.startCombat {b₀ : Battle Raw} (hfresh : b₀.Fresh a t) (O : SetOrder) (fuel : Nat)
    (h : Singly b₀ a b) (hin : b₀.Enlists a cid) (hidle : cid ∈ b.idle) :
    Singly b₀ a (startCombat O fuel b cid t) := by
  induction fuel generalizing b cid with
  | zero => exact h
  | succ fuel ih =>
    unfold Battle.startCombat
    split
    · exact h
    next att hatt =>
    dsimp only
    obtain ⟨c, hc, k, rfl, -⟩ := h.rallied.chars cid att hatt
    -- whoever assists was idle, so that it is not the first attacker
    have hengaged : Singly b₀ a (b.engage cid t) := h.engage (h.waiting cid hin hidle) t
    have hother : cid ≠ a := fun heq => h.attacks (heq ▸ hidle)
    have hquiet : ((b.engage cid t).isMob t || ((b.engage cid t).isPlayer t
        && (b.engage cid t).canPvpIds cid t)) = false := by
      by_contra hback
      have hback₀ : b₀.strikesBack cid t = true :=
        hengaged.rallied.strikesBack (eq_true_of_ne_false hback)
      rw [hfresh.once cid hin hother] at hback₀
      cases hback₀
    rw [hquiet]
    exact hengaged.assisted (fun b mid hb hmid hmidle => ih hb hmid hmidle) hin ⟨c, hc, rfl⟩

/-- **Combat that starts afresh leaves everybody at most one pending autoattack.** -/
theorem acts_startCombat_le {O : SetOrder} (hfresh : b.Fresh a t) (hacts : ∀ cid, b.acts cid ≤ 1)
    (fuel : Nat) (cid : CharacterId) : (Battle.startCombat O fuel b a t).acts cid ≤ 1 := by
  cases fuel with
  | zero => exact hacts cid
  | succ fuel =>
    unfold Battle.startCombat
    split
    · exact hacts cid
    next att hatt =>
    dsimp only
    obtain ⟨hne, hnone⟩ := hfresh.target
    have hengaged : Singly b a (b.engage a t) := by
      refine ⟨(Rallied.refl b).engage a t, fun cid' => ?_, fun cid' hin hidle => ?_,
        not_mem_idle_engage b a t⟩
      · rw [acts_engage]
        split
        · next heq =>
          rw [← heq, hfresh.enlisted a .attacks]
        · exact hacts cid'
      · rw [acts_engage, if_neg (mem_idle_engage hidle).2.symm]
        exact hfresh.enlisted cid' hin
    -- the target has nothing pending yet, because it is not the attacker
    have hback : Singly b a (if (b.engage a t).isMob t || ((b.engage a t).isPlayer t
        && (b.engage a t).canPvpIds a t) then (b.engage a t).engage t a else b.engage a t) := by
      split
      · refine hengaged.engage ?_ a
        rw [acts_engage, if_neg hne, hnone]
      · exact hengaged
    have hassisted := hback.assisted
      (fun b' mid hb' hmid hidle => hb'.startCombat hfresh O fuel hmid hidle) .attacks ⟨att, hatt, rfl⟩
    exact hassisted.acts cid

/-! ## Lines and steps -/

variable {O : SetOrder} {session : SessionId}

theorem queue_useSkill {pc : Character} {d : SkillDef} (hs : b.useSkill O a pc d = some b') :
    b'.queue = b.queue := by
  unfold useSkill at hs
  dsimp only at hs
  split at hs
  · cases hs
  have hpaid : (b.updateChar a (payFor d b.nowMs)).queue = b.queue := queue_updateChar b a _
  generalize b.updateChar a (payFor d b.nowMs) = b₁ at hs hpaid
  split at hs
  · cases hs
    exact (queue_updateChar b₁ a _).trans hpaid
  split at hs
  · cases hs; exact hpaid
  next targetId _ =>
  split at hs
  · cases hs; exact hpaid
  generalize hr : (if b₁.isPlayer targetId = true then
      b₁.applyDamageToPlayer a targetId (max (computeSkillAmount d _ pc.stats) 0)
    else b₁.applyDamageToMob O a targetId (max (computeSkillAmount d _ pc.stats) 0)) = r at hs
  have hhurt : r.2.queue = b.queue := by
    rw [← hr, ← hpaid]
    split
    · exact queue_applyDamageToPlayer b₁ a targetId _
    · exact queue_applyDamageToMob O b₁ a targetId _
  cases hs
  split
  · exact (queue_updateChar r.2 a _).trans hhurt
  · exact (queue_applyStun r.2 a targetId _).trans hhurt

theorem queue_doUse {pc : Character} {skills : Bool} {token : Text}
    (hs : b.doUse O a pc skills token = some b') : b'.queue = b.queue := by
  unfold doUse at hs
  split at hs
  · cases hs
  split at hs
  · exact queue_useSkill hs
  · unfold useItem at hs
    split at hs
    · cases hs
      exact queue_updateChar b a _
    · simp only [Option.bind_eq_bind, Option.bind_eq_some_iff] at hs
      obtain ⟨key, -, item, -, hs⟩ := hs
      split at hs
      · split at hs
        · cases hs
        · cases hs
          exact queue_updateChar b a _
      · cases hs

/-- Changes that leave a mob of a name a mob of that name. -/
def SameKind (f : Character → Character) : Prop :=
  ∀ c, (f c).name = c.name ∧ (f c).controller = c.controller

/-- What a command comes to: a `kill`, a use of something, or a change of the one who gives it. -/
theorem run_cases {cmd : Command} {p : Character} (hactive : b.world.activeChar session = some (a, p))
    (hs : b.run O session cmd = some b') : (∃ target, cmd = .kill target ∧ b.doKill O a p target = some b')
      ∨ (∃ token, cmd = .use token ∧ b.doUse O a p true token = some b')
      ∨ (∃ token, cmd = .quaff token ∧ b.doUse O a p false token = some b')
      ∨ ∃ f, SameKind f ∧ b' = b.updateChar a f := by
  simp only [run, hactive, Option.bind_eq_bind, Option.bind_some] at hs
  have hself : ∀ f, SameKind f → b' = b.updateChar a f →
      (∃ target, cmd = .kill target ∧ b.doKill O a p target = some b')
      ∨ (∃ token, cmd = .use token ∧ b.doUse O a p true token = some b')
      ∨ (∃ token, cmd = .quaff token ∧ b.doUse O a p false token = some b')
      ∨ ∃ f, SameKind f ∧ b' = b.updateChar a f :=
    fun f hf heq => .inr (.inr (.inr ⟨f, hf, heq⟩))
  cases cmd with
  | kill target => exact .inl ⟨target, rfl, hs⟩
  | use token => exact .inr (.inl ⟨token, rfl, hs⟩)
  | quaff token => exact .inr (.inr (.inl ⟨token, rfl, hs⟩))
  | killOff =>
    simp only [Option.ite_none_right_eq_some, Option.some.injEq] at hs
    exact hself standDown (fun _ => ⟨rfl, rfl⟩) hs.2.symm
  | race token =>
    simp only [doRace, Option.bind_eq_bind, Option.bind_eq_some_iff, Option.ite_none_left_eq_some,
      Option.some.injEq] at hs
    obtain ⟨race, -, -, heq⟩ := hs
    refine hself _ ?_ heq.symm
    exact fun _ => ⟨rfl, rfl⟩
  | cls token =>
    simp only [doClass, Option.bind_eq_bind, Option.bind_eq_some_iff, Option.ite_none_left_eq_some,
      Option.some.injEq] at hs
    obtain ⟨cls, -, -, heq⟩ := hs
    refine hself _ ?_ heq.symm
    exact fun _ => ⟨rfl, rfl⟩
  | train token =>
    simp only [doTrain, Option.bind_eq_bind, Option.bind_eq_some_iff, Option.ite_none_left_eq_some,
      Option.some.injEq] at hs
    obtain ⟨-, cls, -, d, -, -, heq⟩ := hs
    refine hself _ ?_ heq.symm
    exact fun _ => ⟨rfl, rfl⟩
  | assist on =>
    refine hself _ ?_ (Option.some.inj hs).symm
    exact fun _ => ⟨rfl, rfl⟩
  | follow on =>
    simp only [Option.ite_none_left_eq_some, Option.some.injEq] at hs
    refine hself _ ?_ hs.2.symm
    exact fun _ => ⟨rfl, rfl⟩
  | pvp on =>
    refine hself _ ?_ (Option.some.inj hs).symm
    exact fun _ => ⟨rfl, rfl⟩

/-- **A command starts combat or leaves the queue alone.** -/
theorem run_queue {cmd : Command} (hs : b.run O session cmd = some b') : b'.queue = b.queue
    ∨ ∃ a t, b.starts O session (some cmd) = some (a, t)
      ∧ b' = Battle.startCombat O b.startCombatFuel b a t := by
  obtain ⟨⟨a, p⟩, hactive, -⟩ := Option.bind_eq_some_iff.mp hs
  rcases run_cases hactive hs with ⟨target, rfl, hkill⟩ | ⟨token, -, huse⟩ | ⟨token, -, huse⟩ | ⟨f, -, rfl⟩
  · rcases doKill_cases hactive hkill with rfl | ⟨t, hstarts, heq⟩
    · exact .inl (queue_updateChar b a _)
    · exact .inr ⟨a, t, hstarts, heq⟩
  · exact .inl (queue_doUse huse)
  · exact .inl (queue_doUse huse)
  · exact .inl (queue_updateChar b a f)

theorem acts_line_le {text : Text}
    (hfresh : ∀ a t, b.starts O session (command text) = some (a, t) → b.Fresh a t)
    (hacts : ∀ cid, b.acts cid ≤ 1) (hs : b.line O session text = some b') (cid : CharacterId) :
    b'.acts cid ≤ 1 := by
  simp only [line, Option.bind_eq_bind, Option.bind_eq_some_iff, Option.ite_none_left_eq_some] at hs
  obtain ⟨cmd, hparse, -, hs⟩ := hs
  rw [command, hparse] at hfresh
  rcases run_queue hs with hqueue | ⟨a, t, hstarts, rfl⟩
  · exact (acts_congr hqueue cid).trans_le (hacts cid)
  · exact acts_startCombat_le (hfresh a t hstarts) hacts _ cid

/-- What begins no fight has nothing to do with autoattacks. A new world has an empty queue. -/
theorem acts_peaceful_le {m : BattleMove Auth} (hpeace : m.isFight = false) (hs : b.step J A m = some b')
    (cid : CharacterId) : b'.acts cid ≤ b.acts cid := by
  cases m with
  | realm m =>
    simp only [step, Option.ite_none_right_eq_some, Option.map_eq_some_iff] at hs
    obtain ⟨-, realm, -, rfl⟩ := hs
    exact Nat.le_refl _
  | other e => cases hs; exact Nat.le_refl _
  | spawnMob roomId name => cases hs; exact Nat.le_refl _
  | spawnNamedMob roomId token =>
    simp only [step, spawnNamedMob, Option.ite_none_left_eq_some, Option.some.injEq] at hs
    obtain ⟨-, rfl⟩ := hs
    split
    · dsimp only [scheduleInMs]
      rw [acts_scheduleAtMs, if_neg (by simp)]
      exact Nat.le_of_eq (acts_congr (queue_updateChar _ _ _) cid)
    · exact Nat.le_of_eq (acts_congr (queue_updateChar _ _ _) cid)
  | clock nowMs =>
    simp only [step, Option.ite_none_right_eq_some, Option.some.injEq] at hs
    obtain ⟨-, rfl⟩ := hs
    exact Nat.le_refl _
  | regen => cases hs; exact Nat.le_refl _
  | line O session text => cases hpeace
  | event O draw => cases hpeace
  | relink clean saveOk readOk =>
    simp only [step, Option.map_eq_some_iff] at hs
    obtain ⟨realm, -, rfl⟩ := hs
    exact Nat.zero_le _

end Battle

end Slopmud.Shard
