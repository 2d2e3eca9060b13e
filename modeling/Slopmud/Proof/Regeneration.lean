import Slopmud.Lib.Refill
import Slopmud.Proof.Restoring

/-!
# Regeneration

Mana and stamina are meters with a point for each whole interval. A poll that gives points moves the
stamp to its own time, so that the rest of the interval is lost, while a poll that gives none leaves
it: who polls at the wrong times gets less than who waits.
-/

namespace Slopmud.Shard

open Machine Refill

variable {Raw : Type}

def Character.manaMeter (c : Character) : Meter := ⟨c.mana, c.lastManaRegenMs⟩

def Character.staminaMeter (c : Character) : Meter := ⟨c.stamina, c.lastStaminaRegenMs⟩

/-- The number of intervals is within `i32`. -/
theorem toI32_intervals {nowMs last every : Nat} (hclock : nowMs < clockLimit) (hevery : 1000 ≤ every) :
    Word.toI32 (((nowMs - last) / every : Nat) : Int) = ((nowMs - last) / every : Nat) := by
  have hn : (nowMs - last) / every < 2 ^ 31 := by
    refine Nat.lt_of_le_of_lt (Nat.div_le_div_left hevery (by decide)) ?_
    unfold clockLimit at hclock
    omega
  generalize (nowMs - last) / every = n at hn ⊢
  exact Word.toI32_of_range (by omega) (by omega)

/-- The two meters have been polled. -/
structure Polled (nowMs : Nat) (c c' : Character) : Prop where
  mana : c'.manaMeter = poll 1500 c.maxMana c.manaMeter nowMs
  stamina : c'.staminaMeter = poll 1000 c.maxStamina c.staminaMeter nowMs
  maxMana : c'.maxMana = c.maxMana
  maxStamina : c'.maxStamina = c.maxStamina
  controller : c'.controller = c.controller

/-- **A call of `regen_resources`** -/
theorem regen_polled (c : Character) {nowMs : Nat} (hclock : nowMs < clockLimit) :
    Polled nowMs c (c.regen nowMs) := by
  obtain ⟨c₁, hc₁, hregen⟩ : ∃ c₁ : Character, c₁ = (if 0 < c.maxMana ∧ c.mana < c.maxMana then
      if 0 < (nowMs - c.lastManaRegenMs) / 1500 then
        { c with
          mana := min (c.mana + Word.toI32 ((nowMs - c.lastManaRegenMs) / 1500 : Nat)) c.maxMana
          lastManaRegenMs := nowMs }
      else c
    else { c with lastManaRegenMs := nowMs })
      ∧ c.regen nowMs = (if 0 < c₁.maxStamina ∧ c₁.stamina < c₁.maxStamina then
          if 0 < (nowMs - c₁.lastStaminaRegenMs) / 1000 then
            { c₁ with
              stamina := min (c₁.stamina + Word.toI32 ((nowMs - c₁.lastStaminaRegenMs) / 1000 : Nat))
                c₁.maxStamina
              lastStaminaRegenMs := nowMs }
          else c₁
        else { c₁ with lastStaminaRegenMs := nowMs }) := ⟨_, rfl, rfl⟩
  -- mana first, which leaves stamina alone
  have hmana : c₁.manaMeter = poll 1500 c.maxMana c.manaMeter nowMs ∧ c₁.staminaMeter = c.staminaMeter
      ∧ c₁.maxMana = c.maxMana ∧ c₁.maxStamina = c.maxStamina ∧ c₁.controller = c.controller := by
    rw [toI32_intervals hclock (by decide)] at hc₁
    rw [hc₁]
    unfold Character.manaMeter poll
    dsimp only
    split
    · split
      · exact ⟨rfl, rfl, rfl, rfl, rfl⟩
      · exact ⟨rfl, rfl, rfl, rfl, rfl⟩
    · exact ⟨rfl, rfl, rfl, rfl, rfl⟩
  obtain ⟨hmeter, hother, hmaxMana, hmaxStamina, hcontroller⟩ := hmana
  rw [toI32_intervals hclock (by decide)] at hregen
  have hstamina : (c.regen nowMs).manaMeter = c₁.manaMeter
      ∧ (c.regen nowMs).staminaMeter = poll 1000 c₁.maxStamina c₁.staminaMeter nowMs
      ∧ (c.regen nowMs).maxMana = c₁.maxMana ∧ (c.regen nowMs).maxStamina = c₁.maxStamina
      ∧ (c.regen nowMs).controller = c₁.controller := by
    rw [hregen]
    unfold Character.staminaMeter poll
    dsimp only
    split
    · split
      · exact ⟨rfl, rfl, rfl, rfl, rfl⟩
      · exact ⟨rfl, rfl, rfl, rfl, rfl⟩
    · exact ⟨rfl, rfl, rfl, rfl, rfl⟩
  obtain ⟨h₁, h₂, h₃, h₄, h₅⟩ := hstamina
  exact ⟨h₁.trans hmeter, by rw [h₂, hother, hmaxStamina], h₃.trans hmaxMana, h₄.trans hmaxStamina,
    h₅.trans hcontroller⟩

theorem Polled.many {ts : List Nat} (hclock : ∀ now ∈ ts, now < clockLimit) (c : Character) :
    (ts.foldl (fun c now => c.regen now) c).manaMeter = ts.foldl (poll 1500 c.maxMana) c.manaMeter
      ∧ (ts.foldl (fun c now => c.regen now) c).staminaMeter
        = ts.foldl (poll 1000 c.maxStamina) c.staminaMeter
      ∧ (ts.foldl (fun c now => c.regen now) c).maxMana = c.maxMana
      ∧ (ts.foldl (fun c now => c.regen now) c).maxStamina = c.maxStamina := by
  induction ts generalizing c with
  | nil => exact ⟨rfl, rfl, rfl, rfl⟩
  | cons now ts ih =>
    have h := regen_polled c (hclock now List.mem_cons_self)
    obtain ⟨hmana, hstamina, hmaxMana, hmaxStamina⟩ :=
      ih (fun n hn => hclock n (List.mem_cons_of_mem _ hn)) (c.regen now)
    rw [h.maxMana, h.mana] at hmana
    rw [h.maxStamina, h.stamina] at hstamina
    exact ⟨hmana, hstamina, hmaxMana.trans h.maxMana, hmaxStamina.trans h.maxStamina⟩

/-- Polled at some times and then at `t`, or at `t` alone, a character has the same. -/
theorem Character.regens_same_iff (c : Character) {ts : List Nat} {t : Nat} (ht : t < clockLimit)
    (hts : ∀ now ∈ ts, now ≤ t) :
    (((ts.foldl (fun c now => c.regen now) c).regen t).mana = (c.regen t).mana
        ∧ ((ts.foldl (fun c now => c.regen now) c).regen t).stamina = (c.regen t).stamina)
      ↔ Uncut 1500 c.maxMana c.manaMeter ts t ∧ Uncut 1000 c.maxStamina c.staminaMeter ts t := by
  have hclock : ∀ now ∈ ts, now < clockLimit := fun now hn => Nat.lt_of_le_of_lt (hts now hn) ht
  obtain ⟨hmana, hstamina, hmaxMana, hmaxStamina⟩ := Polled.many hclock c
  have honce := regen_polled c ht
  have hlast := regen_polled (ts.foldl (fun c now => c.regen now) c) ht
  have hm := hlast.mana
  have hs := hlast.stamina
  rw [hmaxMana, hmana] at hm
  rw [hmaxStamina, hstamina] at hs
  rw [← polls_eq_once_iff (by decide) hts, ← polls_eq_once_iff (by decide) hts, ← hm, ← hs, ← honce.mana,
    ← honce.stamina]
  exact Iff.rfl

/-! ## The world -/

namespace Battle

/-- `world.now_ms = ..; world.regen_resources();` -/
def regenAt (b : Battle Raw) (nowMs : Nat) : Battle Raw :=
  (b.withWorld { b.world with nowMs }).regenResources

theorem char_regenAt (b : Battle Raw) (nowMs : Nat) (cid : CharacterId) : (b.regenAt nowMs).char cid
    = (b.char cid).map fun c => if c.controller.isSome then c.regen nowMs else c :=
  Table.lookup_mapVals _ _ _

theorem regen_controller (c : Character) (nowMs : Nat) : (c.regen nowMs).controller = c.controller := by
  unfold Character.regen
  dsimp only
  repeat' split
  all_goals rfl

theorem char_regensAt (b : Battle Raw) (ts : List Nat) (cid : CharacterId) : (ts.foldl regenAt b).char cid
    = (b.char cid).map fun c =>
        if c.controller.isSome then ts.foldl (fun c now => c.regen now) c else c := by
  induction ts generalizing b with
  | nil => simp
  | cons now ts ih =>
    rw [List.foldl_cons, ih, char_regenAt, Option.map_map]
    congr 1
    funext c
    by_cases hc : c.controller.isSome = true
    · simp [hc, regen_controller]
    · simp [hc]

/-- Mana and stamina of everybody -/
def resources (b : Battle Raw) (cid : CharacterId) : Option (Int × Int) :=
  (b.char cid).map fun c => (c.mana, c.stamina)

/-- **When it does not matter how often the world is polled**: no player loses an interval that it
could have used. -/
theorem polling_same_iff (b : Battle Raw) {ts : List Nat} {t : Nat} (ht : t < clockLimit)
    (hts : ∀ now ∈ ts, now ≤ t) :
    (∀ cid, ((ts.foldl regenAt b).regenAt t).resources cid = (b.regenAt t).resources cid)
      ↔ ∀ cid c, b.char cid = some c → c.controller.isSome = true →
        Uncut 1500 c.maxMana c.manaMeter ts t ∧ Uncut 1000 c.maxStamina c.staminaMeter ts t := by
  have hone : ∀ cid c, b.char cid = some c →
      (((ts.foldl regenAt b).regenAt t).resources cid = (b.regenAt t).resources cid
        ↔ (c.controller.isSome = true →
          Uncut 1500 c.maxMana c.manaMeter ts t ∧ Uncut 1000 c.maxStamina c.staminaMeter ts t)) := by
    intro cid c hc
    rw [resources, resources, char_regenAt, char_regensAt, char_regenAt, hc]
    by_cases hplayer : c.controller.isSome = true
    · have hstill : (ts.foldl (fun c now => c.regen now) c).controller.isSome = true := by
        rw [show (ts.foldl (fun c now => c.regen now) c).controller = c.controller from
          List.foldlRecOn (motive := fun c' => c'.controller = c.controller) _ _ rfl
            fun c' hc' now _ => (regen_controller c' now).trans hc']
        exact hplayer
      simp only [Option.map_some, hplayer, hstill, if_true, Option.some.injEq, Prod.mk.injEq,
        forall_const]
      exact c.regens_same_iff ht hts
    · simp [hplayer]
  constructor
  · intro h cid c hc
    exact (hone cid c hc).mp (h cid)
  · intro h cid
    cases hc : b.char cid with
    | none => rw [resources, resources, char_regenAt, char_regensAt, char_regenAt, hc]; rfl
    | some c => exact (hone cid c hc).mpr (h cid c hc)

end Battle

namespace Duel

/-- Alice kills a stenchworm, with the world polled on the way: two points of her stamina are missing. -/
def polledHunt : List DuelMove :=
  [.realm (.shard (attachAs 1 "alice")), .spawnNamedMob "arena.pit".toList "stenchworm".toList,
    input 1 "kill stench", .event someOrder 0, .event someOrder 0, .clock 1000, .regen, .event someOrder 0,
    .event someOrder 0, .clock 2000, .regen, .event someOrder 0]

end Duel

/-- In two seconds she gets both back, or one if the world is polled after one and a half. -/
theorem polling_costs_a_point : ∃ b, exec Duel.step Duel.start Duel.polledHunt = some b ∧ b.nowMs = 2000
    ∧ (b.regenAt 4000).resources 1 = some (0, 14)
    ∧ (([3500].foldl Battle.regenAt b).regenAt 4000).resources 1 = some (0, 13) := by
  have hrun : (exec Duel.step Duel.start Duel.polledHunt).map (fun b : Duel => (b.nowMs,
      (b.regenAt 4000).resources 1, (([3500].foldl Battle.regenAt b).regenAt 4000).resources 1))
      = some (2000, some (0, 14), some (0, 13)) := by
    decide +kernel
  obtain ⟨b, hex, hend⟩ := Option.map_eq_some_iff.mp hrun
  obtain ⟨hnow, hrest⟩ := Prod.mk.inj hend
  obtain ⟨honce, htwice⟩ := Prod.mk.inj hrest
  exact ⟨b, hex, hnow, honce, htwice⟩

/-- Polled after one second, she gets both. -/
theorem polling_costs_nothing : ∃ b, exec Duel.step Duel.start Duel.polledHunt = some b
    ∧ ∀ cid, (([3000].foldl Battle.regenAt b).regenAt 4000).resources cid = (b.regenAt 4000).resources cid := by
  have hrun : (exec Duel.step Duel.start Duel.polledHunt).map (fun b : Duel =>
      decide (∀ c ∈ Table.values b.world.chars, Uncut 1500 c.maxMana c.manaMeter [3000] 4000
        ∧ Uncut 1000 c.maxStamina c.staminaMeter [3000] 4000)) = some true := by
    decide +kernel
  obtain ⟨b, hex, hall⟩ := Option.map_eq_some_iff.mp hrun
  have huncut := of_decide_eq_true hall
  refine ⟨b, hex, (b.polling_same_iff (by decide) (by decide)).mpr fun cid c hc _ => ?_⟩
  exact huncut c (Table.mem_values.mpr ⟨cid, hc⟩)

end Slopmud.Shard
