import Slopmud.Proof.Vitals

/-!
# How often an autoattack hits

An attacker waits because its combat state says when it is ready again, and that is all the code
keeps: starting combat makes whoever joins ready at once, and a blow that kills leaves the time as it
was. So a second lies between any two hits of a player's character as long as nobody joins a fight
within a second of its last hit, whatever stale events are still in the queue.
-/

namespace Slopmud.Shard

open Machine Table

variable {Raw Auth : Type} {J : Codec Raw (List PlayerSnapshot)} {A : Codec Auth AuthBlob}

/-! ## Hits -/

/-- When a player's character has hit, the latest first. -/
def hitTimes (hits : List Hit) (cid : CharacterId) : List Nat :=
  (hits.filter fun hit => hit.byPlayer && hit.attacker == cid).map Hit.atMs

theorem hitTimes_cons (hit : Hit) (hits : List Hit) (cid : CharacterId) :
    hitTimes (hit :: hits) cid = if hit.byPlayer = true ∧ hit.attacker = cid
      then hit.atMs :: hitTimes hits cid else hitTimes hits cid := by
  unfold hitTimes
  rw [List.filter_cons]
  simp only [Bool.and_eq_true, beq_iff_eq]
  split
  · rfl
  · rfl

/-- Any two hits of a character are at least a second apart. -/
def Spaced (hits : List Hit) : Prop :=
  ∀ cid, (hitTimes hits cid).Pairwise fun later earlier => earlier + 1000 ≤ later

/-- While a character attacks, it is not ready within a second of any of its hits. -/
def Waits (hits : List Hit) (cid : CharacterId) (c : Character) : Prop :=
  c.combat.autoattack = true → ∀ h ∈ hitTimes hits cid, h + 1000 ≤ c.combat.nextReadyMs

theorem regen_combat (nowMs : Nat) (c : Character) : (c.regen nowMs).combat = c.combat := by
  unfold Character.regen
  dsimp only
  repeat' split
  all_goals rfl

/-- Whoever is new does not attack, and nothing but a fight changes whether and when one attacks. -/
theorem waits_rests (Raw : Type) (hits : List Hit) :
    Battle.Rests Raw (fun _ => True) (Waits hits) (fun _ => True) where
  room _ _ _ h := h
  saved _ _ := trivial
  spawned _ _ _ _ _ _ := fun hon => nomatch (show false = true from hon)
  restored _ _ _ _ _ _ _ := fun hon => nomatch (show false = true from hon)
  mob _ _ _ _ := fun hon => nomatch (show false = true from hon)
  other _ _ _ h := h
  regen nowMs _ c _ h := by
    unfold Waits
    rw [regen_combat]
    exact h
  named _ _ _ _ := fun hon => nomatch (show false = true from hon)

/-- Whoever attacks did so before, or joins now, or has just hit. -/
def Joined (nowMs : Nat) (s : Scope) (cid : CharacterId) (c c' : Character) : Prop :=
  c'.combat.autoattack = true →
    (c.combat.autoattack = true ∧ c'.combat.nextReadyMs = c.combat.nextReadyMs)
      ∨ (s.joins cid ∧ c'.combat.nextReadyMs = nowMs) ∨ s.cools cid

theorem Joined.of_combat {nowMs : Nat} {s : Scope} {cid : CharacterId} {c c' : Character}
    (h : c'.combat = c.combat) : Joined nowMs s cid c c' := by
  intro hon
  rw [h] at hon ⊢
  exact .inl ⟨hon, rfl⟩

theorem joined_composes (nowMs : Nat) (s : Scope) : Composes (Joined nowMs s) where
  refl _ _ := .of_combat rfl
  trans h h' hon := by
    rcases h' hon with ⟨hon', heq⟩ | hjoined | hcools
    · rw [heq]
      exact h hon'
    · exact .inr (.inl hjoined)
    · exact .inr (.inr hcools)

theorem gainXp_combat (xp : Nat) (c : Character) : (c.gainXp xp).combat = c.combat := by
  refine gainXp_induct (P := fun c' => c'.combat = c.combat) (fun _ _ h => h) (fun c' h => ?_) xp rfl
  rw [← h]
  unfold Character.levelUp
  dsimp only
  split
  · rfl
  · rfl

theorem joined_allows (nowMs : Nat) (s : Scope) : Allows nowMs s (Joined nowMs s) where
  toComposes := joined_composes nowMs s
  engage _ _ _ hjoins := fun _ => .inr (.inl ⟨hjoins, rfl⟩)
  standDown _ _ := fun hon => nomatch (show false = true from hon)
  cool _ _ hcools := fun _ => .inr (.inr hcools)
  gain _ c xp := .of_combat (gainXp_combat xp c)
  goods _ _ _ _ := .of_combat rfl
  pay _ _ _ := .of_combat rfl
  heal _ _ _ := .of_combat rfl
  race _ _ _ := .of_combat rfl
  cls _ _ := .of_combat rfl
  train _ _ _ _ _ _ := .of_combat rfl
  flags _ _ _ _ := .of_combat rfl
  wound _ _ _ _ _ _ := .of_combat rfl
  die _ _ _ _ := fun hon => nomatch (show false = true from hon)
  stun _ _ _ _ := .of_combat rfl

namespace Battle

variable {b b' : Battle Raw}

/-! ## Steps -/

/-- The hits are a second apart, and whoever attacks waits for the next one. -/
structure Paced (b : Battle Raw) : Prop where
  spaced : Spaced b.hits
  waits : All (Waits b.hits) b.world.chars

/-- Nobody joins a fight within a second of its last hit. The clock does not run out. -/
def Rested (b : Battle Raw) : BattleMove Auth → Prop
  | .line O session text => ∀ a t, b.starts O session (command text) = some (a, t) →
      ∀ cid, b.Joins a t cid → ∀ h ∈ hitTimes b.hits cid, h + 1000 ≤ b.nowMs
  | .event _ _ => b.nowMs + 1000 ≤ Word.maxU64
  | _ => True

/-- Steps in which nobody hits, and whoever joins has waited. -/
theorem Paced.fought {s : Scope} (h : Paced b) (hf : Fought (Joined b.nowMs s) b.scene b'.scene)
    (hjoins : ∀ cid, s.joins cid → ∀ h ∈ hitTimes b.hits cid, h + 1000 ≤ b.nowMs)
    (hcools : ∀ cid, ¬ s.cools cid) : Paced b' := by
  have hhits : b'.hits = b.hits := hf.hits
  refine ⟨hhits ▸ h.spaced, fun cid c' hc' hon => ?_⟩
  obtain ⟨c, hc, hjoined⟩ := hf.chars cid c' hc'
  rw [hhits]
  rcases hjoined hon with ⟨hon', heq⟩ | ⟨hin, heq⟩ | hcool
  · rw [heq]
    exact h.waits cid c hc hon'
  · rw [heq]
    exact hjoins cid hin
  · exact absurd hcool (hcools cid)

/-- After its blow, an attacker waits a second or has stopped. -/
theorem strike_cools {O : SetOrder} {draw : Nat} {a t : CharacterId} {att c : Character}
    (hc : (b.strike O draw a t att).char a = some c) : c.combat.autoattack = false
      ∨ c.combat.nextReadyMs = Word.satAdd64 b.nowMs 1000 := by
  have hany := joined_allows b.nowMs ⟨a, fun _ => True, fun _ => True, fun _ => True⟩
  obtain ⟨r, -, heq⟩ := strike_cases (a := a) (t := t) hany O draw att trivial
  have hlook : (b.strike O draw a t att).scene.1.chars.lookup a = some c := hc
  have hself : ∀ f, (r.2.updateChar a f).scene.1.chars.lookup a = some c → ∃ c₀, f c₀ = c := by
    intro f hf
    have hmap := (char_updateChar r.2 a a f).symm.trans hf
    rw [if_pos rfl] at hmap
    obtain ⟨c₀, -, hc₀⟩ := Option.map_eq_some_iff.mp hmap
    exact ⟨c₀, hc₀⟩
  rw [heq] at hlook
  split at hlook
  · obtain ⟨c₀, rfl⟩ := hself _ hlook
    exact .inl rfl
  · obtain ⟨c₀, rfl⟩ := hself _ hlook
    exact .inr rfl

theorem Paced.strike {O : SetOrder} {draw : Nat} {a t : CharacterId} {att : Character} (h : Paced b)
    (hs : b.Strikes a t att) (hclock : b.nowMs + 1000 ≤ Word.maxU64) : Paced (b.strike O draw a t att) := by
  have hf := strike_fought (joined_allows b.nowMs (b.eventScope (.combatAct a))) O draw att hs.mayHurt rfl
  have hcools : ∀ c, (b.strike O draw a t att).char a = some c →
      c.combat.autoattack = false ∨ c.combat.nextReadyMs = Word.satAdd64 b.nowMs 1000 :=
    fun c => strike_cools
  generalize b.strike O draw a t att = b' at hf hcools
  have hhits : b'.hits = ⟨a, att.controller.isSome, b.nowMs⟩ :: b.hits := hf.hits
  -- the attacker was ready, so its last hit is a second ago
  have hlast : ∀ h ∈ hitTimes b.hits a, h + 1000 ≤ b.nowMs :=
    fun h₀ hmem => Nat.le_trans (h.waits a att hs.char hs.autoattack h₀ hmem) hs.ready
  constructor
  · intro cid
    rw [hhits, hitTimes_cons]
    split
    · next hcid =>
      refine List.pairwise_cons.mpr ⟨?_, h.spaced cid⟩
      rw [← hcid.2]
      exact hlast
    · exact h.spaced cid
  · intro cid c' hc' hon
    rw [hhits, hitTimes_cons]
    by_cases hcid : cid = a
    · subst hcid
      rcases hcools c' hc' with hoff | hnext
      · rw [hoff] at hon
        cases hon
      · rw [hnext, Word.satAdd64_of_lt hclock]
        intro h₀ hmem
        split at hmem
        · rcases List.mem_cons.mp hmem with rfl | hmem
          · exact Nat.le_refl _
          · have := hlast h₀ hmem
            omega
        · have := hlast h₀ hmem
          omega
    · obtain ⟨c, hc, hjoined⟩ := hf.chars cid c' hc'
      rw [if_neg fun heq => hcid heq.2.symm]
      rcases hjoined hon with ⟨hon', heq⟩ | ⟨hin, -⟩ | hcool
      · rw [heq]
        exact h.waits cid c hc hon'
      · exact hin.elim
      · exact absurd (EventKind.combatAct.inj hcool).symm hcid

/-- In an event without a blow nobody joins and nobody hits. -/
def quietScope (b : Battle Raw) (kind : EventKind) : Scope :=
  { b.eventScope kind with cools := fun _ => False }

theorem Paced.handleEvent {O : SetOrder} {draw : Nat} {kind : EventKind} (h : Paced b)
    (hclock : b.nowMs + 1000 ≤ Word.maxU64) : Paced (b.handleEvent O draw kind) := by
  have hallow := joined_allows b.nowMs (b.quietScope kind)
  have hquiet : ∀ {b' : Battle Raw}, Fought (Joined b.nowMs (b.quietScope kind)) b.scene b'.scene →
      Paced b' :=
    fun hf => h.fought hf (fun _ => False.elim) (fun _ => id)
  cases kind with
  | combatAct a =>
    rcases combatAct_cases O draw b a with heq | heq | ⟨t, att, hs, heq⟩
    · have hf : Fought (Joined b.nowMs (b.quietScope (.combatAct a))) b.scene
          (b.combatAct O draw a).scene := by
        rw [heq]
        exact .refl hallow.toComposes _
      exact hquiet hf
    · have hf : Fought (Joined b.nowMs (b.quietScope (.combatAct a))) b.scene
          (b.combatAct O draw a).scene := by
        rw [heq]
        exact updateChar_fought hallow.toComposes b fun c _ => hallow.standDown a c
      exact hquiet hf
    · rw [show b.handleEvent O draw (.combatAct a) = b.strike O draw a t att from heq]
      exact h.strike hs hclock
  | bossTelegraph bossId => exact hquiet (bossTelegraph_fought hallow.toComposes b bossId)
  | bossResolve bossId seq => exact hquiet (bossResolve_fought hallow (fun _ => id) seq)

theorem waits_nil (cid : CharacterId) (c : Character) : Waits [] cid c := fun _ _ h => nomatch h

/-- Without a fight nobody hits, and only a new world forgets the hits of the old one. -/
theorem hits_of_peaceful {m : BattleMove Auth} (hpeace : m.isFight = false)
    (hs : b.step J A m = some b') : b'.hits = b.hits ∨ b'.hits = [] := by
  cases m with
  | realm m =>
    simp only [step, Option.ite_none_right_eq_some, Option.map_eq_some_iff] at hs
    obtain ⟨-, realm, -, rfl⟩ := hs
    exact .inl rfl
  | other e => cases hs; exact .inl rfl
  | spawnMob roomId name => cases hs; exact .inl rfl
  | spawnNamedMob roomId token =>
    simp only [step, spawnNamedMob, Option.ite_none_left_eq_some, Option.some.injEq] at hs
    obtain ⟨-, rfl⟩ := hs
    have hmob : ∀ (b : Battle Raw) cid f, (b.updateChar cid f).hits = b.hits := by
      intro b cid f
      unfold updateChar
      split
      · rfl
      · rfl
    left
    split
    · exact hmob _ _ _
    · exact hmob _ _ _
  | clock nowMs =>
    simp only [step, Option.ite_none_right_eq_some, Option.some.injEq] at hs
    obtain ⟨-, rfl⟩ := hs
    exact .inl rfl
  | regen => cases hs; exact .inl rfl
  | line O session text => cases hpeace
  | event O draw => cases hpeace
  | relink clean saveOk readOk =>
    simp only [step, Realm.step, Option.map_some, Option.some.injEq] at hs
    subst hs
    exact .inr rfl

/-- **One step.** -/
theorem Paced.step {m : BattleMove Auth} (h : Paced b) (hrested : b.Rested m)
    (hs : b.step J A m = some b') : Paced b' := by
  cases hfight : m.isFight with
  | false =>
    have hkept : Kept J (Waits b.hits) (fun _ => True) b.world :=
      ⟨h.waits, fun _ _ _ => trivial, fun _ _ => trivial⟩
    rcases hits_of_peaceful hfight hs with heq | hnil
    · exact ⟨heq ▸ h.spaced, heq ▸ (kept_peaceful hkept (waits_rests Raw b.hits) trivial hfight hs).chars⟩
    · exact ⟨hnil ▸ fun _ => .nil, hnil ▸ fun cid c _ => waits_nil cid c⟩
  | true =>
    cases m with
    | line O session text =>
      obtain ⟨a, p, hactive⟩ := activeChar_of_line hs
      refine h.fought (line_fought hactive (joined_allows b.nowMs _) hs) ?_ (fun _ => id)
      rintro cid ⟨t, hstarts, hin⟩
      exact hrested a t hstarts cid hin
    | event O draw =>
      obtain ⟨⟨e, b₁⟩, hpop, rfl⟩ := Option.map_eq_some_iff.mp hs
      obtain ⟨-, -, rfl⟩ := popDueEvent_spec hpop
      have h₁ : Paced { b with queue := b.queue.erase e } := ⟨h.spaced, h.waits⟩
      exact h₁.handleEvent hrested
    | _ => cases hfight

/-- **In every run in which nobody joins a fight within a second of its last hit, a second lies between
any two hits of a player's character.** -/
theorem hits_spaced {readOk : Bool} {rooms : RoomMap} {file : Option Raw} {ms : List (BattleMove Auth)}
    (hrested : Along (step J A) Rested (.new J readOk rooms file) ms)
    (hex : exec (step J A) (.new J readOk rooms file) ms = some b) : Spaced b.hits := by
  have h0 : Paced (.new J readOk rooms file) := ⟨fun _ => .nil, .empty⟩
  exact (exec_invariant (fun h hrested hs => h.step hrested hs) h0 hrested hex).spaced

end Battle

/-! ## Alice and the dummy -/

namespace Duel

/-- Alice hits the dummy, which hits back. -/
def firstBlow : List DuelMove :=
  [.realm (.shard (attachAs 1 "alice")), .spawnNamedMob "arena.pit".toList "dummy".toList,
    input 1 "kill dummy", .event someOrder 0, .event someOrder 0]

/-- A second later she hits again. -/
def secondBlow : List DuelMove := firstBlow ++ [.clock 1000, .event someOrder 0]

/-- She stops her attack and starts it again. -/
def toggled : List DuelMove :=
  firstBlow ++ [input 1 "kill", .clock 10, input 1 "kill dummy", .event someOrder 0]

/-- Nobody at all has hit within a second of a line. -/
def Calm (b : Duel) : DuelMove → Prop
  | .line .. => ∀ hit ∈ b.hits, hit.atMs + 1000 ≤ b.nowMs
  | .event .. => b.nowMs + 1000 ≤ Word.maxU64
  | _ => True

instance (b : Duel) : DecidablePred (Calm b)
  | .line .. => inferInstanceAs (Decidable (∀ hit ∈ b.hits, hit.atMs + 1000 ≤ b.nowMs))
  | .event .. => inferInstanceAs (Decidable (b.nowMs + 1000 ≤ Word.maxU64))
  | .realm _ | .other _ | .spawnMob .. | .spawnNamedMob .. | .clock _ | .regen | .relink .. => .isTrue trivial

theorem Calm.rested {b : Duel} {m : DuelMove} (h : Calm b m) : b.Rested m := by
  cases m with
  | line O session text =>
    intro a t _ cid _ h₀ hmem
    obtain ⟨hit, hhit, rfl⟩ := List.mem_map.mp hmem
    exact h hit (List.mem_filter.mp hhit).1
  | event O draw => exact h
  | _ => trivial

end Duel

theorem Battle.hits_spaced_second_blow : ∃ b, exec Duel.step Duel.start Duel.secondBlow = some b
    ∧ hitTimes b.hits 1 = [1000, 0] ∧ Spaced b.hits := by
  have hrun : (exec Duel.step Duel.start Duel.secondBlow).map (fun b : Duel => hitTimes b.hits 1)
      = some [1000, 0] := by decide +kernel
  have hcalm : Along Duel.step Duel.Calm Duel.start Duel.secondBlow := by decide +kernel
  obtain ⟨b, hex, hhits⟩ := Option.map_eq_some_iff.mp hrun
  exact ⟨b, hex, hhits, Battle.hits_spaced (hcalm.mono fun _ _ => Duel.Calm.rested) hex⟩

/-- **Alice hits twice within ten milliseconds**, because her attack was turned off and on again. -/
theorem toggling_hits_at_once :
    ∃ b, exec Duel.step Duel.start Duel.toggled = some b ∧ ¬ Spaced b.hits := by
  have hrun : (exec Duel.step Duel.start Duel.toggled).map (fun b : Duel => hitTimes b.hits 1)
      = some [10, 0] := by decide +kernel
  obtain ⟨b, hex, hhits⟩ := Option.map_eq_some_iff.mp hrun
  refine ⟨b, hex, fun hspaced => ?_⟩
  have htwo := hspaced 1
  rw [hhits] at htwo
  exact absurd htwo (by decide)

end Slopmud.Shard
