import Slopmud.Proof.Worms

/-!
# Scheduled work does not multiply

Each event that keeps the world in order schedules itself once more, and so does each autoattack:
a chain of events stays a chain. A second chain begins where the code schedules one more without
looking at what is pending: when a stenchworm is killed, when the bartender is found to be gone, and
when combat starts for somebody whose last autoattack is still pending. In every run without these
steps there is at most one event of each.
-/

namespace Slopmud.Shard

open Machine Table

variable {Raw Auth : Type} {J : Codec Raw (List PlayerSnapshot)} {A : Codec Auth AuthBlob}

namespace Upkeep

def pending (u : Upkeep Raw) (kind : UpkeepKind) : Nat := u.events.countP fun e => e.kind == kind

/-- Of the worm's and the tavern's events and of the autoattacks of a character, one is pending at
most. -/
structure Single (u : Upkeep Raw) : Prop where
  worm : u.pending .ensureFirstFightWorm ≤ 1
  tavern : u.pending .ensureTavernMob ≤ 1
  acts : ∀ cid, u.battle.acts cid ≤ 1

/-- A step that begins no second chain: no stenchworm is killed, a bartender who is to emote is there,
and nobody who joins a fight has an autoattack pending. -/
def Modest (u : Upkeep Raw) : BattleMove Auth → Prop
  | .line O session text =>
    u.battle.fellsWorm (u.battle.commandBlow session (Battle.command text)) = false
      ∧ ∀ a t, u.battle.starts O session (Battle.command text) = some (a, t) → u.battle.Fresh a t
  | .event _ draw =>
    match u.next with
    | some e => e.kind = .bartenderEmote → u.bartenderThere = true
    | none => ∀ e b, u.battle.popDueEvent = some (e, b) →
        u.battle.fellsWorm (u.battle.eventBlow draw e.kind) = false
  | _ => True

/-- Besides, nobody ticks, and while there has been no bartender yet the first look for one is still to
come. -/
structure Orderly (u : Upkeep Raw) : Prop extends Single u where
  ticks : u.pending .tick = 0
  staffed : u.bartenderId = none → ∃ e ∈ u.events, e.kind = .ensureTavernMob ∧ e.dueMs = 0

variable {u u' : Upkeep Raw}

/-! ## Events that are pending -/

theorem least_mem {events : List UpkeepEvent} {e : UpkeepEvent} (h : UpkeepEvent.least events = some e) :
    e ∈ events := by
  induction events generalizing e with
  | nil => cases h
  | cons f events ih =>
    unfold UpkeepEvent.least at h
    split at h
    · cases h
      exact List.mem_cons_self
    · next g hg =>
      have hrest : g ∈ events := ih hg
      cases h
      split
      · exact List.mem_cons_of_mem _ hrest
      · exact List.mem_cons_self

theorem next_mem {e : UpkeepEvent} (h : u.next = some e) : e ∈ u.events := by
  unfold next at h
  split at h
  · next g f hleast _ =>
    split at h
    · cases h
    · cases h
      exact least_mem hleast
  · next hleast _ => exact least_mem h

theorem pending_scheduleAtMs (u : Upkeep Raw) (dueMs : Nat) (kind kind' : UpkeepKind) :
    (u.scheduleAtMs dueMs kind).pending kind' = u.pending kind' + if kind = kind' then 1 else 0 := by
  simp [pending, scheduleAtMs, List.countP_cons]

/-- What is taken off the queue is pending no more. -/
theorem pending_erase {e : UpkeepEvent} (h : e ∈ u.events) (kind : UpkeepKind) :
    ({ u with events := u.events.erase e } : Upkeep Raw).pending kind + (if e.kind = kind then 1 else 0)
      = u.pending kind :=
  countP_erase_add UpkeepEvent.kind h kind

/-! ## What keeps order -/

/-- No more of anything that is counted, and an empty bar is still to be filled. -/
theorem Orderly.mono (h : Orderly u)
    (hpending : ∀ kind, kind ≠ .bartenderEmote → u'.pending kind ≤ u.pending kind)
    (hacts : ∀ cid, u'.battle.acts cid ≤ 1)
    (hstaffed : u'.bartenderId = none → ∃ e ∈ u'.events, e.kind = .ensureTavernMob ∧ e.dueMs = 0) :
    Orderly u' where
  worm := (hpending .ensureFirstFightWorm (by decide)).trans h.worm
  tavern := (hpending .ensureTavernMob (by decide)).trans h.tavern
  acts := hacts
  ticks := Nat.le_zero.mp (h.ticks ▸ hpending .tick (by decide))
  staffed := hstaffed

theorem Orderly.withBattle (h : Orderly u) {b : Battle Raw} (hacts : ∀ cid, b.acts cid ≤ 1) :
    Orderly { u with battle := b } :=
  h.mono (fun _ _ => Nat.le_refl _) hacts h.staffed

theorem start_orderly {b : Battle Raw} (hempty : b.queue = []) (bartenderEmoteMs : Nat) :
    Orderly (start b bartenderEmoteMs) where
  worm := Nat.le_refl 1
  tavern := Nat.le_refl 1
  acts cid := by
    show b.queue.countP _ ≤ 1
    rw [hempty]
    exact Nat.zero_le 1
  ticks := rfl
  staffed _ := ⟨_, List.mem_cons_of_mem _ (List.mem_cons_of_mem _ List.mem_cons_self), rfl, rfl⟩

/-- A step of a fight that kills no worm schedules nothing else. -/
theorem Orderly.fought (h : Orderly u) {b : Battle Raw} (hworm : u.battle.wormKilled b = false)
    (hacts : ∀ cid, b.acts cid ≤ 1) : Orderly (u.fought b) := by
  unfold Upkeep.fought
  rw [hworm]
  exact h.withBattle hacts

/-! ## Events -/

variable {e : UpkeepEvent}

/-- An event that schedules itself once more leaves as many of its kind. -/
theorem pending_reschedule (h : e ∈ u.events) (dueMs : Nat) (kind : UpkeepKind) :
    ({ u with events := u.events.erase e }.scheduleAtMs dueMs e.kind).pending kind = u.pending kind := by
  rw [pending_scheduleAtMs]
  exact pending_erase h kind

/-- What is not yet due or of another kind is still to come. -/
theorem staffed_reschedule (h : Orderly u) (hkind : e.kind ≠ .ensureTavernMob) (dueMs : Nat)
    (kind : UpkeepKind) (hnone : u.bartenderId = none) :
    ∃ e' ∈ ({ u with events := u.events.erase e }.scheduleAtMs dueMs kind).events,
      e'.kind = .ensureTavernMob ∧ e'.dueMs = 0 := by
  obtain ⟨e', hmem, htavern, hdue⟩ := h.staffed hnone
  have hne : e' ≠ e := fun heq => hkind (heq ▸ htavern)
  exact ⟨e', List.mem_cons_of_mem _ ((List.mem_erase_of_ne hne).mpr hmem), htavern, hdue⟩

theorem Orderly.reschedule (h : Orderly u) (hmem : e ∈ u.events) (hkind : e.kind ≠ .ensureTavernMob)
    (dueMs : Nat) : Orderly ({ u with events := u.events.erase e }.scheduleAtMs dueMs e.kind) :=
  h.mono (fun kind _ => Nat.le_of_eq (pending_reschedule hmem dueMs kind)) h.acts
    (staffed_reschedule h hkind dueMs e.kind)

theorem Orderly.ensureTavernMob (h : Orderly u) (hmem : e ∈ u.events) (hkind : e.kind = .ensureTavernMob) :
    Orderly ({ u with events := u.events.erase e } : Upkeep Raw).ensureTavernMob := by
  unfold Upkeep.ensureTavernMob
  have hpending : ∀ dueMs kind,
      ({ u with events := u.events.erase e }.scheduleAtMs dueMs .ensureTavernMob).pending kind = u.pending kind :=
    fun dueMs kind => hkind ▸ pending_reschedule hmem dueMs kind
  dsimp only
  split
  · next hok =>
    refine h.mono (fun kind _ => Nat.le_of_eq (hpending _ kind)) h.acts fun hnone => ?_
    obtain ⟨c, hc, -⟩ := (Option.any_eq_true _ _).mp hok
    obtain ⟨id, hid, -⟩ := Option.bind_eq_some_iff.mp hc
    exact nomatch (show some id = none from hid.symm.trans hnone)
  · refine h.mono (fun kind hemote => ?_) h.acts (fun hnone => nomatch hnone)
    unfold Upkeep.scheduleInMs
    rw [pending_scheduleAtMs, if_neg hemote.symm]
    exact Nat.le_of_eq (hpending _ kind)

/-- Mobs that appear fight nobody. -/
theorem acts_spawnStenchworm (b : Battle Raw) (roomId : Text) (cid : CharacterId) :
    (b.spawnStenchworm roomId).acts cid = b.acts cid :=
  Battle.acts_congr (Battle.queue_updateChar _ _ _) cid

theorem acts_ensureClassHallMobs (O : SetOrder) (npcs : List (Text × Text)) (b : Battle Raw)
    (cid : CharacterId) : (npcs.foldl (ensureClassHallMob O) b).acts cid = b.acts cid := by
  refine List.foldlRecOn (motive := fun b' : Battle Raw => b'.acts cid = b.acts cid) _ _ rfl
    fun b' hb' npc _ => Eq.trans ?_ hb'
  unfold ensureClassHallMob
  split
  · rfl
  split
  · rfl
  · rfl

/-- **An event that finds what it looks for keeps order.** -/
theorem Orderly.handleEvent (h : Orderly u) (hmem : e ∈ u.events)
    (hthere : e.kind = .bartenderEmote → u.bartenderThere = true) (O : SetOrder) :
    Orderly ({ u with events := u.events.erase e }.handleEvent O e.kind) := by
  cases hkind : e.kind with
  | tick =>
    -- the code never schedules one
    have hsome := pending_erase hmem .tick
    rw [if_pos hkind, h.ticks] at hsome
    exact absurd hsome (Nat.succ_ne_zero _)
  | ensureTavernMob => exact h.ensureTavernMob hmem hkind
  | bartenderEmote =>
    show Orderly (Upkeep.bartenderEmote _)
    unfold Upkeep.bartenderEmote
    rw [if_pos (show bartenderThere { u with events := u.events.erase e } = true from hthere hkind)]
    have hnext := h.reschedule hmem (by rw [hkind]; decide) (Word.satAdd64 u.nowMs u.bartenderEmoteMs)
    rw [hkind] at hnext
    exact hnext
  | ensureFirstFightWorm =>
    have hnext := h.reschedule hmem (by rw [hkind]; decide) (Word.satAdd64 u.nowMs 5000)
    rw [hkind] at hnext
    show Orderly (Upkeep.ensureFirstFightWorm _)
    unfold Upkeep.ensureFirstFightWorm
    dsimp only
    split
    · exact hnext
    split
    · exact hnext.withBattle fun cid => (acts_spawnStenchworm _ _ cid).trans_le (h.acts cid)
    · exact hnext
  | ensureClassHallMobs =>
    have hnext := h.reschedule hmem (by rw [hkind]; decide) (Word.satAdd64 u.nowMs 60000)
    rw [hkind] at hnext
    exact hnext.withBattle fun cid => (acts_ensureClassHallMobs O _ _ cid).trans_le (h.acts cid)

theorem Orderly.event (h : Orderly u) {O : SetOrder} {draw : Nat}
    (hm : u.Modest (.event O draw : BattleMove Auth)) (hs : u.event O draw = some u') : Orderly u' := by
  unfold Upkeep.event at hs
  unfold Modest at hm
  split at hs
  · next e hnext =>
    rw [hnext] at hm
    simp only [Option.ite_none_left_eq_some, Option.some.injEq] at hs
    obtain ⟨-, rfl⟩ := hs
    exact h.handleEvent (next_mem hnext) hm O
  · next hnext =>
    rw [hnext] at hm
    obtain ⟨b, hb, rfl⟩ := Option.map_eq_some_iff.mp hs
    obtain ⟨⟨e, b₁⟩, hpop, -⟩ := Option.map_eq_some_iff.mp hb
    refine h.fought ?_ fun cid => (Battle.acts_event_le hb cid).trans (h.acts cid)
    exact (Battle.wormKilled_event hpop hb).trans (hm e b₁ hpop)

/-! ## Runs -/

/-- A line is read when nothing is due, so that the bar is staffed by then. -/
theorem Orderly.line (h : Orderly u) {O : SetOrder} {session : SessionId} {text : Text}
    (hm : u.Modest (.line O session text : BattleMove Auth))
    (hs : u.step J A (.line O session text) = some u') : Orderly u' := by
  simp only [Upkeep.step, Option.ite_none_right_eq_some] at hs
  obtain ⟨hdrained, hs⟩ := hs
  obtain ⟨hworm, hfresh⟩ := hm
  split at hs
  · next b hb =>
    cases hs
    exact h.fought ((Battle.wormKilled_line hb).trans hworm) (Battle.acts_line_le hfresh h.acts hb)
  · simp only [tavernLine, Option.bind_eq_bind, Option.bind_eq_some_iff, Option.ite_none_left_eq_some,
      Option.ite_none_right_eq_some] at hs
    -- nobody tends the bar, so that the first look for the bartender is due, and no line is read
    obtain ⟨-, -, -, ⟨-, hnone⟩, -⟩ := hs
    obtain ⟨e, hmem, -, hdue⟩ := h.staffed (Option.isNone_iff_eq_none.mp hnone)
    rw [isDrained, Bool.and_eq_true, List.all_eq_true] at hdrained
    have hlate := of_decide_eq_true (hdrained.1 e hmem)
    omega

/-- **One step.** -/
theorem Orderly.step {m : BattleMove Auth} (h : Orderly u) (hm : u.Modest m)
    (hs : u.step J A m = some u') : Orderly u' := by
  have hpeaceful : m.isFight = false →
      ((u.battle.step J A m).map fun battle => { u with battle }) = some u' → Orderly u' := by
    intro hpeace hs
    obtain ⟨b, hb, rfl⟩ := Option.map_eq_some_iff.mp hs
    exact h.withBattle fun cid => (Battle.acts_peaceful_le hpeace hb cid).trans (h.acts cid)
  cases m with
  | line O session text => exact h.line hm hs
  | event O draw => exact h.event hm hs
  | spawnMob roomId name => cases hs
  | relink clean saveOk readOk =>
    simp only [Upkeep.step, Battle.step, Option.map_eq_some_iff] at hs
    obtain ⟨b, ⟨realm, -, rfl⟩, rfl⟩ := hs
    exact start_orderly rfl _
  | realm m => exact hpeaceful rfl hs
  | other e => exact hpeaceful rfl hs
  | spawnNamedMob roomId token => exact hpeaceful rfl hs
  | clock nowMs => exact hpeaceful rfl hs
  | regen => exact hpeaceful rfl hs

/-- **In every run in which no step begins a second chain of events, of each kind of scheduled work at
most one event is pending.** -/
theorem scheduled_once {readOk : Bool} {rooms : RoomMap} {file : Option Raw} {bartenderEmoteMs : Nat}
    {ms : List (BattleMove Auth)}
    (hmodest : Along (step J A) Modest (.new J readOk rooms file bartenderEmoteMs) ms)
    (hex : exec (step J A) (.new J readOk rooms file bartenderEmoteMs) ms = some u) : Single u := by
  have h0 : Orderly (.new J readOk rooms file bartenderEmoteMs) := start_orderly rfl _
  exact (exec_invariant (fun h hm hs => h.step hm hs) h0 hmodest hex).toSingle

end Upkeep

/-! ## Alice in the tavern -/

/-- A shard with the tavern only -/
def tavernOnly : RoomMap where
  rooms := (∅ : Table Text RoomDef).insert roomTavern ⟨"tavern".toList, [], [], []⟩
  dynRooms := ∅
  startRoom := roomTavern
  hasStart := by decide

abbrev Tavern : Type := Upkeep (Option (List PlayerSnapshot))

namespace Tavern

def start : Tavern := Upkeep.new (Codec.direct _) true tavernOnly none 30000

def step : Tavern → DuelMove → Option Tavern := Upkeep.step (Codec.direct _) (Codec.direct _)

/-- The broker connects, and Alice comes in, where somebody has let out a mob. -/
def opening (mob : String) : List DuelMove :=
  List.replicate 3 (.event someOrder 0)
    ++ [.realm (.shard (attachAs 1 "alice")), .spawnNamedMob roomTavern mob.toList]

/-- One round of a fight with it -/
def round (mob : String) : List DuelMove :=
  opening mob ++ [Duel.input 1 ("kill " ++ mob), .event someOrder 0, .event someOrder 0]

/-- She fights a dummy until the bartender has emoted. -/
def evening : List DuelMove :=
  round "dummy" ++ [.clock 1000, .event someOrder 0, .event someOrder 0, Duel.input 1 "kill",
    .clock 30000] ++ List.replicate 4 (.event someOrder 0)

/-- She kills a stenchworm. -/
def wormHunt : List DuelMove :=
  round "stenchworm" ++ [.clock 1000, .event someOrder 0, .event someOrder 0, .clock 2000, .event someOrder 0]

/-- She kills the bartender. -/
def murder : List DuelMove :=
  opening "dummy" ++ [Duel.input 1 "kill bartender", .event someOrder 0, .event someOrder 0, .clock 30000,
    .event someOrder 0, .event someOrder 0]

/-- She stops her attack and starts it again. -/
def toggled : List DuelMove :=
  round "dummy" ++ [Duel.input 1 "kill", .clock 10, Duel.input 1 "kill dummy"]

/-- A fight starts when there is none, and nobody is in a party. -/
def Calm (u : Tavern) : DuelMove → Prop
  | .line O session text =>
    u.battle.fellsWorm (u.battle.commandBlow session (Battle.command text)) = false
      ∧ ∀ w ∈ u.battle.starts O session (Battle.command text),
        w.1 ≠ w.2 ∧ u.battle.queue = [] ∧ u.battle.world.partyOf.keys = []
  | .event _ draw =>
    (∀ e ∈ u.next, e.kind = .bartenderEmote → u.bartenderThere = true)
      ∧ ∀ w ∈ u.battle.popDueEvent, u.battle.fellsWorm (u.battle.eventBlow draw w.1.kind) = false
  | _ => True

instance (u : Tavern) : DecidablePred (Calm u)
  | .line O session text => inferInstanceAs (Decidable
      (u.battle.fellsWorm (u.battle.commandBlow session (Battle.command text)) = false
        ∧ ∀ w ∈ u.battle.starts O session (Battle.command text),
          w.1 ≠ w.2 ∧ u.battle.queue = [] ∧ u.battle.world.partyOf.keys = []))
  | .event _ draw => inferInstanceAs (Decidable
      ((∀ e ∈ u.next, e.kind = .bartenderEmote → u.bartenderThere = true)
        ∧ ∀ w ∈ u.battle.popDueEvent, u.battle.fellsWorm (u.battle.eventBlow draw w.1.kind) = false))
  | .realm _ | .other _ | .spawnMob .. | .spawnNamedMob .. | .clock _ | .regen | .relink .. => .isTrue trivial

/-- Without parties nobody else joins in. -/
theorem enlists_alone {b : Duel} (hparties : b.world.partyOf.keys = []) {a cid : CharacterId}
    (h : b.Enlists a cid) : cid = a := by
  cases h with
  | attacks => rfl
  | @assists cid' mid c p _ _ hp _ _ =>
    obtain ⟨pid, hpid, -⟩ := Option.bind_eq_some_iff.mp hp
    have hkey : cid' ∈ b.world.partyOf.keys :=
      AList.mem_keys.mpr (AList.lookup_isSome.mp (Option.isSome_of_eq_some hpid))
    rw [hparties] at hkey
    cases hkey

theorem Calm.modest {u : Tavern} {m : DuelMove} (h : Calm u m) : u.Modest m := by
  cases m with
  | line O session text =>
    refine ⟨h.1, fun a t hstarts => ?_⟩
    obtain ⟨hne, hqueue, hparties⟩ := h.2 (a, t) hstarts
    have hnone : ∀ cid, u.battle.acts cid = 0 := fun cid => by rw [Battle.acts, hqueue]; rfl
    exact ⟨fun cid _ => hnone cid, ⟨hne, hnone t⟩,
      fun cid hin hother => absurd (enlists_alone hparties hin) hother⟩
  | event O draw =>
    obtain ⟨hthere, hworm⟩ := h
    unfold Upkeep.Modest
    cases hnext : u.next with
    | none => exact fun e b hpop => hworm (e, b) hpop
    | some e => exact hthere e hnext
  | _ => trivial

end Tavern

theorem Upkeep.scheduled_once_evening : ∃ u, exec Tavern.step Tavern.start Tavern.evening = some u
    ∧ u.battle.acts 3 = 1 ∧ Upkeep.Single u := by
  have hrun : (exec Tavern.step Tavern.start Tavern.evening).map (fun u : Tavern => u.battle.acts 3)
      = some 1 := by decide +kernel
  have hcalm : Along Tavern.step Tavern.Calm Tavern.start Tavern.evening := by decide +kernel
  obtain ⟨u, hex, hacts⟩ := Option.map_eq_some_iff.mp hrun
  exact ⟨u, hex, hacts, Upkeep.scheduled_once (hcalm.mono fun _ _ => Tavern.Calm.modest) hex⟩

/-- **A worm that is killed, a bartender that is killed and an attack that is turned off and on again
each leave two events of a kind**, and with them two chains. -/
theorem scheduled_work_multiplies :
    (∃ u, exec Tavern.step Tavern.start Tavern.wormHunt = some u
      ∧ u.pending .ensureFirstFightWorm = 2 ∧ ¬ Upkeep.Single u)
    ∧ (∃ u, exec Tavern.step Tavern.start Tavern.murder = some u
      ∧ u.pending .ensureTavernMob = 2 ∧ ¬ Upkeep.Single u)
    ∧ ∃ u, exec Tavern.step Tavern.start Tavern.toggled = some u
      ∧ u.battle.acts 2 = 2 ∧ ¬ Upkeep.Single u := by
  have hworm : (exec Tavern.step Tavern.start Tavern.wormHunt).map
      (fun u : Tavern => u.pending .ensureFirstFightWorm) = some 2 := by decide +kernel
  have htavern : (exec Tavern.step Tavern.start Tavern.murder).map
      (fun u : Tavern => u.pending .ensureTavernMob) = some 2 := by decide +kernel
  have hact : (exec Tavern.step Tavern.start Tavern.toggled).map (fun u : Tavern => u.battle.acts 2)
      = some 2 := by decide +kernel
  refine ⟨?_, ?_, ?_⟩
  · obtain ⟨u, hex, htwo⟩ := Option.map_eq_some_iff.mp hworm
    refine ⟨u, hex, htwo, fun hsingle => ?_⟩
    have hone := hsingle.worm
    omega
  · obtain ⟨u, hex, htwo⟩ := Option.map_eq_some_iff.mp htavern
    refine ⟨u, hex, htwo, fun hsingle => ?_⟩
    have hone := hsingle.tavern
    omega
  · obtain ⟨u, hex, htwo⟩ := Option.map_eq_some_iff.mp hact
    refine ⟨u, hex, htwo, fun hsingle => ?_⟩
    have hone := hsingle.acts 2
    omega

end Slopmud.Shard
