import Mathlib.Data.Fintype.Card
import Slopmud.Proof.Keeping
import Slopmud.Shard.Quests

/-!
# Quest progress counts deeds

What a character has done is a set of contracts, of valves and of pylons, the levers that it has thrown
and the faction that it has chosen. A quest table that nobody has edited is a record of such deeds: its
flags, its counters and its gates are all read off them, by whichever of the notions of a true flag.
-/

namespace Slopmud.Shard

open Machine Table

/-! ## Deeds -/

structure Deeds where
  contracts : Finset Contract
  valves : Finset (Fin 3)
  pylons : Finset (Fin 3)
  bypass : Bool
  levers : Finset (Fin 2)
  faction : Option Faction
  /-- The bypass takes all the valves. -/
  bypass_valves : bypass = true → valves = Finset.univ
  /-- A faction takes all the contracts. -/
  faction_contracts : faction.isSome = true → contracts = Finset.univ

namespace Deeds

def none : Deeds where
  contracts := ∅
  valves := ∅
  pylons := ∅
  bypass := false
  levers := ∅
  faction := Option.none
  bypass_valves h := by cases h
  faction_contracts h := by cases h

def complete (d : Deeds) (i : Contract) : Deeds where
  __ := d
  contracts := insert i d.contracts
  faction_contracts h := by rw [d.faction_contracts h]; exact Finset.insert_eq_of_mem (Finset.mem_univ i)

def openValve (d : Deeds) (i : Fin 3) : Deeds where
  __ := d
  valves := insert i d.valves
  bypass_valves h := by rw [d.bypass_valves h]; exact Finset.insert_eq_of_mem (Finset.mem_univ i)

def lightPylon (d : Deeds) (i : Fin 3) : Deeds := { d with pylons := insert i d.pylons }

def throwLever (d : Deeds) (i : Fin 2) : Deeds := { d with levers := insert i d.levers }

def openBypass (d : Deeds) (h : d.valves = Finset.univ) : Deeds :=
  { d with bypass := true, bypass_valves := fun _ => h }

def choose (d : Deeds) (h : d.contracts = Finset.univ) (f : Faction) : Deeds :=
  { d with faction := some f, faction_contracts := fun _ => h }

end Deeds

/-! ## The record -/

def flag (p : Prop) [Decidable p] : Option Text := if p then some ['1'] else none

/-- A counter is absent until something is counted. -/
def tally (n : Nat) : Option Text := if n = 0 then none else some (Nat.toDigits 10 n)

/-- The keys that say what was done -/
def QuestKey.isDeed : QuestKey → Bool
  | .contractCClinic | .state | .lastLever => false
  | _ => true

def Deeds.value (d : Deeds) : QuestKey → Option Text
  | .contract i => flag (i ∈ d.contracts)
  | .contractsDone => tally d.contracts.card
  | .repeatablesUnlocked | .repeatables => flag (d.faction.isSome = true)
  | .faction => d.faction.map Faction.text
  | .sewersEntry => flag (d.faction = some .civic ∨ d.faction = some .industrial)
  | .quarryEntry => flag (d.faction = some .industrial ∨ d.faction = some .green)
  | .valve i => flag (i ∈ d.valves)
  | .valvesOpened => tally d.valves.card
  | .pylon i => flag (i ∈ d.pylons)
  | .pylonsLit => tally d.pylons.card
  | .shortcut => flag (d.bypass = true)
  | .lever i => flag (i ∈ d.levers)
  | .railPass => flag (d.levers = Finset.univ)
  | .contractCClinic | .state | .lastLever => Option.none

def Records (quest : QuestLog) (d : Deeds) : Prop :=
  ∀ k : QuestKey, k.isDeed = true → quest.lookup k.text = d.value k

namespace QuestLog

variable {quest : QuestLog} {d : Deeds}

theorem lookup_put (quest : QuestLog) (k k' : QuestKey) (v : Text) :
    (quest.put k v).lookup k'.text = if k' = k then some v else quest.lookup k'.text := by
  unfold put
  rw [lookup_insert_eq]
  by_cases h : k' = k
  · rw [if_pos h, if_pos (by rw [h])]
  · rw [if_neg h, if_neg fun heq => h (QuestKey.text_injective heq)]

/-- A key is no expression with an operator. -/
theorem isOn_eq (quest : QuestLog) (k : QuestKey) : quest.isOn k = truthy (quest.lookup k.text) := by
  have hall : ∀ k ∈ QuestKey.all, (Text.trim k.text).isEmpty = false ∧ Text.trim k.text = k.text
      ∧ (gateOps.findSome? fun e => (Text.splitOnce e.1.toList k.text).map fun p => (e.2, p)) = none := by
    decide +kernel
  obtain ⟨hempty, htrim, hops⟩ := hall k k.mem_all
  unfold isOn evalGateExpr
  rw [htrim] at hempty ⊢
  simp only [hempty, Bool.false_eq_true, if_false, hops]

theorem isOn_flag {k : QuestKey} {p : Prop} [Decidable p] (h : quest.lookup k.text = flag p) :
    quest.isOn k = decide p := by
  rw [isOn_eq, h]
  unfold flag
  by_cases hp : p
  · rw [if_pos hp, decide_eq_true hp]
    decide
  · rw [if_neg hp, decide_eq_false hp]
    rfl

theorem isThrown_flag {k : QuestKey} {p : Prop} [Decidable p] (h : quest.lookup k.text = flag p) :
    quest.isThrown k = decide p := by
  unfold isThrown flag at *
  rw [h]
  by_cases hp : p
  · rw [if_pos hp, decide_eq_true hp]
    decide
  · rw [if_neg hp, decide_eq_false hp]
    rfl

theorem number_tally {k : QuestKey} {n : Nat} (hn : n ≤ 3) (h : quest.lookup k.text = tally n) :
    quest.number k = n := by
  have hall : ∀ n ≤ 3, ((tally n).bind fun v => Text.parseI64 (Text.trim v)).getD 0 = (n : Int) := by
    decide
  unfold number
  rw [h, hall n hn]

theorem counter_tally {k : QuestKey} {n : Nat} (hn : n ≤ 3) (h : quest.lookup k.text = tally n) :
    quest.counter k = n := by
  unfold counter
  rw [number_tally hn h]
  omega

theorem chosen_map {f : Option Faction} (h : quest.lookup QuestKey.faction.text = f.map Faction.text) :
    quest.chosen = f.map Faction.text := by
  unfold chosen
  rw [h]
  cases f with
  | none => rfl
  | some f => cases f <;> decide

end QuestLog

namespace Records

open QuestLog

variable {quest : QuestLog} {d : Deeds}

theorem empty : Records ∅ Deeds.none := by
  intro k hk
  cases k with
  | _ => rfl

theorem card_contracts (d : Deeds) : d.contracts.card ≤ 3 := Finset.card_le_univ d.contracts

theorem card_valves (d : Deeds) : d.valves.card ≤ 3 := Finset.card_le_univ d.valves

theorem card_pylons (d : Deeds) : d.pylons.card ≤ 3 := Finset.card_le_univ d.pylons

/-- Only the deeds count. -/
theorem put_other (h : Records quest d) {k : QuestKey} (hk : k.isDeed = false) (v : Text) :
    Records (quest.put k v) d := by
  intro k' hk'
  rw [lookup_put, if_neg, h k' hk']
  rintro rfl
  rw [hk] at hk'
  cases hk'

/-- A flag, and the counter of its kind -/
theorem mark (h : Records quest d) {d' : Deeds} {site count : QuestKey} {n : Nat}
    (hsite : d'.value site = some ['1']) (hcount : d'.value count = some (Nat.toDigits 10 n))
    (hrest : ∀ k, k ≠ site → k ≠ count → d'.value k = d.value k) :
    Records ((quest.put site ['1']).put count (Nat.toDigits 10 n)) d' := by
  intro k hk
  rw [lookup_put, lookup_put, h k hk]
  by_cases hc : k = count
  · rw [if_pos hc, hc, hcount]
  · rw [if_neg hc]
    by_cases hs : k = site
    · rw [if_pos hs, hs, hsite]
    · rw [if_neg hs, hrest k hs hc]

theorem flag_insert {α : Type} [DecidableEq α] {i j : α} (s : Finset α) (h : j ≠ i) :
    flag (j ∈ insert i s) = flag (j ∈ s) := by
  unfold flag
  simp [h]

theorem flag_insert_self {α : Type} [DecidableEq α] (i : α) (s : Finset α) :
    flag (i ∈ insert i s) = some ['1'] := if_pos (Finset.mem_insert_self i s)

theorem tally_insert {α : Type} [DecidableEq α] {i : α} {s : Finset α} (h : i ∉ s) :
    tally (insert i s).card = some (Nat.toDigits 10 (s.card + 1)) := by
  rw [Finset.card_insert_of_notMem h]
  exact if_neg (Nat.succ_ne_zero _)

theorem complete (h : Records quest d) {i : Contract} (hi : i ∉ d.contracts) :
    Records ((quest.put (.contract i) ['1']).put .contractsDone (Nat.toDigits 10 (d.contracts.card + 1)))
      (d.complete i) := by
  refine h.mark (flag_insert_self i _) (tally_insert hi) fun k hsite hcount => ?_
  cases k with
  | contract j => exact flag_insert _ fun heq => hsite (by rw [heq])
  | contractsDone => exact absurd rfl hcount
  | _ => rfl

theorem openValve (h : Records quest d) {i : Fin 3} (hi : i ∉ d.valves) :
    Records ((quest.put (.valve i) ['1']).put .valvesOpened (Nat.toDigits 10 (d.valves.card + 1)))
      (d.openValve i) := by
  refine h.mark (flag_insert_self i _) (tally_insert hi) fun k hsite hcount => ?_
  cases k with
  | valve j => exact flag_insert _ fun heq => hsite (by rw [heq])
  | valvesOpened => exact absurd rfl hcount
  | _ => rfl

theorem lightPylon (h : Records quest d) {i : Fin 3} (hi : i ∉ d.pylons) :
    Records ((quest.put (.pylon i) ['1']).put .pylonsLit (Nat.toDigits 10 (d.pylons.card + 1)))
      (d.lightPylon i) := by
  refine h.mark (flag_insert_self i _) (tally_insert hi) fun k hsite hcount => ?_
  cases k with
  | pylon j => exact flag_insert _ fun heq => hsite (by rw [heq])
  | pylonsLit => exact absurd rfl hcount
  | _ => rfl

theorem openBypass (h : Records quest d) (hall : d.valves = Finset.univ) :
    Records (quest.put .shortcut ['1']) (d.openBypass hall) := by
  intro k hk
  rw [lookup_put, h k hk]
  cases k with
  | _ => rfl

theorem choose (h : Records quest d) (hall : d.contracts = Finset.univ) (hnone : d.faction = none)
    (f : Faction) : Records (quest.sign f) (d.choose hall f) := by
  intro k hk
  have hsewers : quest.lookup QuestKey.sewersEntry.text = none := by
    rw [h .sewersEntry rfl]
    simp [Deeds.value, flag, hnone]
  have hquarry : quest.lookup QuestKey.quarryEntry.text = none := by
    rw [h .quarryEntry rfl]
    simp [Deeds.value, flag, hnone]
  unfold sign
  cases f with
  | _ =>
    simp only [reduceCtorEq, or_false, or_true, if_true, if_false, lookup_put]
    cases k with
    | state => cases hk
    | sewersEntry => first | rfl | exact hsewers
    | quarryEntry => first | rfl | exact hquarry
    | faction | repeatablesUnlocked | repeatables => rfl
    | _ => exact h _ hk

/-- The switches that are thrown, when a lever has been: the pass is what it was. -/
theorem lookup_thrown (h : Records quest d) (i : Fin 2) {k : QuestKey} (hk : k.isDeed = true)
    (hpass : k ≠ .railPass) :
    (if quest.isOn (.lever i) then quest else quest.put (.lever i) ['1']).lookup k.text
      = (d.throwLever i).value k := by
  have hold : quest.isOn (.lever i) = decide (i ∈ d.levers) := isOn_flag (h (.lever i) rfl)
  rw [hold]
  by_cases hi : i ∈ d.levers
  · rw [if_pos (decide_eq_true hi), h k hk]
    have hsame : d.throwLever i = d := by
      unfold Deeds.throwLever
      rw [Finset.insert_eq_of_mem hi]
    rw [hsame]
  · rw [if_neg (by simpa using hi), lookup_put, h k hk]
    cases k with
    | lever j =>
      by_cases hj : j = i
      · rw [hj, if_pos rfl]
        exact (flag_insert_self i _).symm
      · rw [if_neg fun heq => hj (QuestKey.lever.inj heq)]
        exact (flag_insert _ hj).symm
    | railPass => exact absurd rfl hpass
    | _ => rfl

theorem levers_univ (s : Finset (Fin 2)) :
    2 ≤ min ((decide (0 ∈ s)).toNat + (decide (1 ∈ s)).toNat) 2 ↔ s = Finset.univ := by
  rw [Finset.eq_univ_iff_forall, Fin.forall_fin_two]
  by_cases h₀ : 0 ∈ s
  · by_cases h₁ : 1 ∈ s
    · simp [h₀, h₁]
    · simp [h₀, h₁]
  · by_cases h₁ : 1 ∈ s
    · simp [h₀, h₁]
    · simp [h₀, h₁]

/-- **Throwing a switch** is a deed, and with the last of them the pass is there. -/
theorem pullSwitch {p : Character} (h : Records p.quest d) (i : Fin 2) :
    Records (p.pullSwitch i).2 (d.throwLever i) := by
  generalize hquest : (if QuestLog.isOn p.quest (.lever i) then p.quest
    else QuestLog.put p.quest (.lever i) ['1']) = quest₁
  have hthrown : ∀ k : QuestKey, k.isDeed = true → k ≠ .railPass →
      quest₁.lookup k.text = (d.throwLever i).value k := by
    intro k hk hpass
    rw [← hquest]
    exact h.lookup_thrown i hk hpass
  have hlever : ∀ j, QuestLog.isOn quest₁ (.lever j) = decide (j ∈ (d.throwLever i).levers) :=
    fun j => isOn_flag (hthrown (.lever j) rfl (by simp))
  have hold : quest₁.lookup QuestKey.railPass.text = flag (d.levers = Finset.univ) := by
    rw [← hquest]
    split
    · exact h .railPass rfl
    · rw [lookup_put, if_neg (by simp)]
      exact h .railPass rfl
  have hpass : QuestLog.isOn quest₁ .railPass = decide (d.levers = Finset.univ) := isOn_flag hold
  unfold Character.pullSwitch
  simp only [hquest, apply_ite Prod.snd, ite_self]
  refine put_other ?_ rfl _
  simp only [hlever, hpass, levers_univ, decide_eq_false_iff_not]
  intro k hk
  by_cases hkey : k = .railPass
  · subst hkey
    have hgrows : d.levers = Finset.univ → (d.throwLever i).levers = Finset.univ := by
      intro huniv
      show insert i d.levers = Finset.univ
      rw [huniv]
      exact Finset.insert_eq_of_mem (Finset.mem_univ i)
    have hvalue : (d.throwLever i).value .railPass = flag ((d.throwLever i).levers = Finset.univ) := rfl
    rw [hvalue]
    split
    · next hnow =>
      rw [lookup_put, if_pos rfl]
      exact (if_pos hnow.2).symm
    · next hnot =>
      have hiff : d.levers = Finset.univ ↔ (d.throwLever i).levers = Finset.univ :=
        ⟨hgrows, fun hnew => by_contra fun hopen => hnot ⟨hopen, hnew⟩⟩
      rw [hold]
      exact if_congr hiff rfl rfl
  · split
    · rw [lookup_put, if_neg hkey]
      exact hthrown k hk hkey
    · exact hthrown k hk hkey

/-- The commands of `turn` and `light` share this, by the deeds of their kind. -/
theorem doWork {p : Character} (h : Records p.quest d) (W : Works) (s : Finset (Fin 3)) (op : Fin 3 → Deeds)
    (hsite : ∀ i, d.value (W.site i) = flag (i ∈ s)) (hcount : d.value W.count = tally s.card)
    (hdeed : ∀ i, (W.site i).isDeed = true) (hdeed' : W.count.isDeed = true) (hne : ∀ i, W.count ≠ W.site i)
    (hop : ∀ i, i ∉ s → Records ((QuestLog.put p.quest (W.site i) ['1']).put W.count
      (Nat.toDigits 10 (s.card + 1))) (op i)) (target : Text) :
    Records (p.doWork W target).2 d ∨ ∃ i, Records (p.doWork W target).2 (op i) := by
  unfold Character.doWork
  split
  · exact Or.inl h
  cases W.siteOf p.roomId with
  | none => exact Or.inl h
  | some i =>
    dsimp only
    split
    · exact Or.inl h
    have hthrown : QuestLog.isThrown p.quest (W.site i) = decide (i ∈ s) :=
      isThrown_flag ((h _ (hdeed i)).trans (hsite i))
    rw [hthrown]
    by_cases hi : i ∈ s
    · rw [if_pos (decide_eq_true hi)]
      exact Or.inl h
    · rw [if_neg (by simpa using hi)]
      refine Or.inr ⟨i, ?_⟩
      have hlt : s.card < 3 := by
        have hcard : (insert i s).card ≤ 3 := Finset.card_le_univ _
        rw [Finset.card_insert_of_notMem hi] at hcard
        omega
      have hread : (QuestLog.put p.quest (W.site i) ['1']).lookup W.count.text = tally s.card := by
        rw [lookup_put, if_neg (hne i), h _ hdeed', hcount]
      have hn : min (QuestLog.counter (QuestLog.put p.quest (W.site i) ['1']) W.count + 1) 3 = s.card + 1 := by
        rw [counter_tally (by omega) hread]
        omega
      unfold putCounter
      rw [hn, Nat.min_eq_left hlt]
      exact hop i hi

theorem doTurn {p : Character} (h : Records p.quest d) (target : Text) :
    Records (p.doTurn target).2 d ∨ ∃ i, Records (p.doTurn target).2 (d.openValve i) := by
  refine h.doWork Character.valves d.valves d.openValve (fun _ => rfl) rfl (fun _ => rfl) rfl (fun i heq => ?_)
    (fun _ hi => h.openValve hi) target
  cases heq

theorem doLight {p : Character} (h : Records p.quest d) (target : Text) :
    Records (p.doLight target).2 d ∨ ∃ i, Records (p.doLight target).2 (d.lightPylon i) := by
  refine h.doWork Character.pylons d.pylons d.lightPylon (fun _ => rfl) rfl (fun _ => rfl) rfl (fun i heq => ?_)
    (fun _ hi => h.lightPylon hi) target
  cases heq

/-- **A contract that is completed** is one deed more. -/
theorem completeContract (h : Records quest d) {i : Contract} {e : Nat × QuestLog}
    (hs : quest.completeContract i = some e) : Records e.2 (d.complete i) := by
  unfold QuestLog.completeContract at hs
  have hon : quest.isOn (.contract i) = decide (i ∈ d.contracts) := isOn_flag (h (.contract i) rfl)
  rw [hon] at hs
  simp only [decide_eq_true_eq, Option.ite_none_left_eq_some, Option.some.injEq] at hs
  obtain ⟨hi, rfl⟩ := hs
  have hlt : d.contracts.card < 3 := by
    have hcard : (insert i d.contracts).card ≤ 3 := Finset.card_le_univ _
    rw [Finset.card_insert_of_notMem hi] at hcard
    omega
  have hread : (quest.put (.contract i) ['1']).lookup QuestKey.contractsDone.text = tally d.contracts.card := by
    rw [lookup_put, if_neg (by simp)]
    exact h .contractsDone rfl
  have hdone : min ((quest.put (.contract i) ['1']).counter .contractsDone + 1) 3 = d.contracts.card + 1 := by
    rw [counter_tally (by omega) hread]
    omega
  have hmarked := h.complete hi
  dsimp only
  unfold putCounter setStateForDone
  rw [hdone, Nat.min_eq_left hlt]
  dsimp only
  split
  · exact hmarked
  · exact hmarked.put_other rfl _

/-- **Entering a room** may be a deed. -/
theorem q2RoomEnter (h : Records quest d) {roomId : Text} {e : Text × QuestLog}
    (hs : quest.q2RoomEnter roomId = some e) : Records e.2 d ∨ ∃ i, Records e.2 (d.complete i) := by
  have hcontract : ∀ i name, (quest.completeContract i).map (contractMsg name) = some e →
      ∃ i, Records e.2 (d.complete i) := by
    intro i name hmap
    obtain ⟨e', he', rfl⟩ := Option.map_eq_some_iff.mp hmap
    exact ⟨i, h.completeContract he'⟩
  unfold QuestLog.q2RoomEnter at hs
  split at hs
  · exact Or.inr (hcontract .a "A" hs)
  split at hs
  · exact Or.inr (hcontract .b "B" hs)
  split at hs
  · split at hs
    · cases hs
    · cases hs
      exact Or.inl (h.put_other rfl _)
  split at hs
  · split at hs
    · exact Or.inr (hcontract .c "C" hs)
    · cases hs
  · cases hs

/-- **A line that edits nothing** adds to the deeds, if it changes them. The faction stays. -/
theorem runQuest {p : Character} (h : Records p.quest d) {cmd : QuestCommand} (hedit : cmd.isEdit = false) :
    ∃ d', Records (p.runQuest cmd).2 d' ∧ ∀ f, d.faction = some f → d'.faction = some f := by
  have hsame : ∃ d', Records p.quest d' ∧ ∀ f, d.faction = some f → d'.faction = some f :=
    ⟨d, h, fun _ hf => hf⟩
  cases cmd with
  | bare hint => exact hsame
  | showFaction => exact hsame
  | set rest => cases hedit
  | del key => cases hedit
  | faction token =>
    show ∃ d', Records (p.doFaction token).2 d' ∧ _
    unfold Character.doFaction
    dsimp only
    split
    · exact hsame
    split
    · exact hsame
    split
    · exact hsame
    next hcount =>
    split
    · exact hsame
    next hchosen =>
    cases Faction.parse token with
    | none => exact hsame
    | some f =>
      have hthree : d.contracts.card = 3 := by
        rw [counter_tally (card_contracts d) (h .contractsDone rfl)] at hcount
        have hle := card_contracts d
        omega
      have hall : d.contracts = Finset.univ := (Finset.card_eq_iff_eq_univ _).mp hthree
      have hnone : d.faction = none := by
        rw [chosen_map (h .faction rfl), Option.isSome_map] at hchosen
        simpa using hchosen
      exact ⟨d.choose hall f, h.choose hall hnone f, fun f' hf => by rw [hnone] at hf; cases hf⟩
  | turn target =>
    rcases h.doTurn target with hd | ⟨i, hd⟩
    · exact ⟨d, hd, fun _ hf => hf⟩
    · exact ⟨_, hd, fun _ hf => hf⟩
  | light target =>
    rcases h.doLight target with hd | ⟨i, hd⟩
    · exact ⟨d, hd, fun _ hf => hf⟩
    · exact ⟨_, hd, fun _ hf => hf⟩
  | pull target =>
    show ∃ d', Records (p.doPull target).2 d' ∧ _
    unfold Character.doPull
    split
    · exact hsame
    split
    · unfold Character.pullBypass
      simp only [apply_ite Prod.snd, ite_self]
      split
      · next hopen =>
        have hthree : d.valves.card = 3 := by
          have hfull := of_decide_eq_true hopen.2
          rw [counter_tally (card_valves d) (h .valvesOpened rfl)] at hfull
          have hle := card_valves d
          omega
        have hall : d.valves = Finset.univ := (Finset.card_eq_iff_eq_univ _).mp hthree
        exact ⟨d.openBypass hall, h.openBypass hall, fun _ hf => hf⟩
      · exact hsame
    split
    · exact ⟨_, h.pullSwitch 0, fun _ hf => hf⟩
    split
    · exact ⟨_, h.pullSwitch 1, fun _ hf => hf⟩
    · exact hsame

end Records

/-! ## Progress -/

/-- What the quest table of a character says agrees. -/
structure Progress (quest : QuestLog) : Prop where
  contracts : quest.number .contractsDone
    = (Finset.univ.filter fun i : Contract => quest.isOn (.contract i) = true).card
  valves : quest.number .valvesOpened
    = (Finset.univ.filter fun i : Fin 3 => quest.isOn (.valve i) = true).card
  pylons : quest.number .pylonsLit
    = (Finset.univ.filter fun i : Fin 3 => quest.isOn (.pylon i) = true).card
  /-- Both notions of a flag are one. -/
  notions : ∀ k : QuestKey, (∃ i, k = .contract i) ∨ (∃ i, k = .valve i) ∨ (∃ i, k = .pylon i)
    ∨ (∃ i, k = .lever i) → quest.isThrown k = quest.isOn k
  shortcut : quest.isOn .shortcut = true → ∀ i, quest.isOn (.valve i) = true
  pass : quest.isOn .railPass = true ↔ ∀ i, quest.isOn (.lever i) = true
  chosen : quest.chosen.isSome = true ∨ quest.isOn .repeatablesUnlocked = true ∨ quest.isOn .repeatables = true
    ∨ quest.isOn .sewersEntry = true ∨ quest.isOn .quarryEntry = true → ∀ i, quest.isOn (.contract i) = true

/-- **A record of deeds agrees with itself.** -/
theorem Records.progress {quest : QuestLog} {d : Deeds} (h : Records quest d) : Progress quest := by
  have hcontract : ∀ i, quest.isOn (.contract i) = decide (i ∈ d.contracts) :=
    fun i => QuestLog.isOn_flag (h (.contract i) rfl)
  have hvalve : ∀ i, quest.isOn (.valve i) = decide (i ∈ d.valves) :=
    fun i => QuestLog.isOn_flag (h (.valve i) rfl)
  have hpylon : ∀ i, quest.isOn (.pylon i) = decide (i ∈ d.pylons) :=
    fun i => QuestLog.isOn_flag (h (.pylon i) rfl)
  have hlever : ∀ i, quest.isOn (.lever i) = decide (i ∈ d.levers) :=
    fun i => QuestLog.isOn_flag (h (.lever i) rfl)
  have hchosen : ∀ k, d.value k = flag (d.faction.isSome = true) → k.isDeed = true →
      quest.isOn k = true → d.faction.isSome = true := fun k hk hdeed hon => by
    rw [QuestLog.isOn_flag ((h k hdeed).trans hk)] at hon
    exact of_decide_eq_true hon
  refine ⟨?_, ?_, ?_, ?_, ?_, ?_, ?_⟩
  · rw [QuestLog.number_tally (card_contracts d) (h .contractsDone rfl)]
    simp [hcontract]
  · rw [QuestLog.number_tally (card_valves d) (h .valvesOpened rfl)]
    simp [hvalve]
  · rw [QuestLog.number_tally (card_pylons d) (h .pylonsLit rfl)]
    simp [hpylon]
  · rintro k (⟨i, rfl⟩ | ⟨i, rfl⟩ | ⟨i, rfl⟩ | ⟨i, rfl⟩)
    · rw [hcontract, QuestLog.isThrown_flag (h (.contract i) rfl)]
    · rw [hvalve, QuestLog.isThrown_flag (h (.valve i) rfl)]
    · rw [hpylon, QuestLog.isThrown_flag (h (.pylon i) rfl)]
    · rw [hlever, QuestLog.isThrown_flag (h (.lever i) rfl)]
  · intro hon i
    rw [QuestLog.isOn_flag (h .shortcut rfl)] at hon
    rw [hvalve, d.bypass_valves (of_decide_eq_true hon)]
    exact decide_eq_true (Finset.mem_univ i)
  · rw [QuestLog.isOn_flag (h .railPass rfl), decide_eq_true_eq, Finset.eq_univ_iff_forall]
    simp [hlever]
  · intro hany i
    have hsome : d.faction.isSome = true := by
      rcases hany with hon | hon | hon | hon | hon
      · rwa [QuestLog.chosen_map (h .faction rfl), Option.isSome_map] at hon
      · exact hchosen .repeatablesUnlocked rfl rfl hon
      · exact hchosen .repeatables rfl rfl hon
      · rw [QuestLog.isOn_flag (h .sewersEntry rfl), decide_eq_true_eq] at hon
        rcases hon with hf | hf
        · rw [hf, Option.isSome_some]
        · rw [hf, Option.isSome_some]
      · rw [QuestLog.isOn_flag (h .quarryEntry rfl), decide_eq_true_eq] at hon
        rcases hon with hf | hf
        · rw [hf, Option.isSome_some]
        · rw [hf, Option.isSome_some]
    rw [hcontract, d.faction_contracts hsome]
    exact decide_eq_true (Finset.mem_univ i)

end Slopmud.Shard
