import Mathlib.Data.Fintype.Defs
import Slopmud.Shard.Realm

/-!
# Quests

What a character has done is kept in its quest table: as flags, as counters beside them, and as gates
that stay open. Rooms that are entered, and the lines `faction`, `turn`, `light` and `pull`, write there;
`quest set` and `quest del` write whatever they are told. Looking at the table is left out.
-/

namespace Slopmud.Shard

/-! ## Keys -/

inductive Contract where
  | a | b | c
deriving DecidableEq, Repr

instance : Fintype Contract where
  elems := {.a, .b, .c}
  complete i := by cases i <;> decide

inductive QuestKey where
  | contract (i : Contract)
  | contractCClinic
  | contractsDone
  | state
  | repeatablesUnlocked
  | faction
  | repeatables
  | sewersEntry
  | quarryEntry
  | valve (i : Fin 3)
  | valvesOpened
  | pylon (i : Fin 3)
  | pylonsLit
  | shortcut
  | lever (i : Fin 2)
  | railPass
  | lastLever
deriving DecidableEq, Repr

def QuestKey.text : QuestKey → Text
  | .contract .a => "q.q2_job_board.contract_a".toList
  | .contract .b => "q.q2_job_board.contract_b".toList
  | .contract .c => "q.q2_job_board.contract_c".toList
  | .contractCClinic => "q.q2_job_board.contract_c_clinic".toList
  | .contractsDone => "q.q2_job_board.contracts_done".toList
  | .state => "q.q2_job_board.state".toList
  | .repeatablesUnlocked => "q.q2_job_board.repeatables_unlocked".toList
  | .faction => "q.q2_job_board.faction".toList
  | .repeatables => "gate.job_board.repeatables".toList
  | .sewersEntry => "gate.sewers.entry".toList
  | .quarryEntry => "gate.quarry.entry".toList
  | .valve i => "q.q3_sewer_valves.valve_".toList ++ Nat.toDigits 10 (i + 1)
  | .valvesOpened => "q.q3_sewer_valves.valves_opened".toList
  | .pylon i => "q.q6_hillfort_signal.pylon_".toList ++ Nat.toDigits 10 (i + 1)
  | .pylonsLit => "q.q6_hillfort_signal.pylons_lit".toList
  | .shortcut => "gate.sewers.shortcut_to_quarry".toList
  | .lever i => "e.e17.lever_".toList ++ Nat.toDigits 10 (i + 1)
  | .railPass => "gate.rail_spur.pass".toList
  | .lastLever => "e.e17.last_lever".toList

namespace QuestKey

def all : List QuestKey :=
  [.contract .a, .contract .b, .contract .c, .contractCClinic, .contractsDone, .state, .repeatablesUnlocked,
    .faction, .repeatables, .sewersEntry, .quarryEntry, .valve 0, .valve 1, .valve 2, .valvesOpened, .pylon 0,
    .pylon 1, .pylon 2, .pylonsLit, .shortcut, .lever 0, .lever 1, .railPass, .lastLever]

theorem mem_all (k : QuestKey) : k ∈ all := by
  cases k with
  | contract i => cases i <;> decide
  | valve i | pylon i | lever i => revert i; decide
  | _ => decide

/-- No two keys are the same text. -/
theorem text_injective {k k' : QuestKey} (h : k.text = k'.text) : k = k' := by
  have hall : ∀ k ∈ all, ∀ k' ∈ all, k.text = k'.text → k = k' := by decide +kernel
  exact hall k k.mem_all k' k'.mem_all h

end QuestKey

inductive Faction where
  | civic | industrial | green
deriving DecidableEq, Repr

def Faction.text : Faction → Text
  | .civic => "civic".toList
  | .industrial => "industrial".toList
  | .green => "green".toList

def Faction.parse (token : Text) : Option Faction :=
  [Faction.civic, .industrial, .green].find? fun f => decide (token = f.text)

/-- What a character has done, by key -/
abbrev QuestLog := Table Text Text

/-- What a session is told, and what the room is -/
abbrev Told := Text × Text

def told (s : String) : Told := (s.toList, [])

namespace QuestLog

/-! ## Reading and writing -/

def put (quest : QuestLog) (k : QuestKey) (v : Text) : QuestLog := quest.insert k.text v

/-- The notion of the gates -/
def isOn (quest : QuestLog) (k : QuestKey) : Bool := evalGateExpr quest k.text

/-- The notion of the valves and the pylons -/
def isThrown (quest : QuestLog) (k : QuestKey) : Bool :=
  (quest.lookup k.text).any fun v =>
    let v := Text.trim v
    !v.isEmpty && v != "0".toList && v != "false".toList

def number (quest : QuestLog) (k : QuestKey) : Int :=
  ((quest.lookup k.text).bind fun v => Text.parseI64 (Text.trim v)).getD 0

/-- `unwrap_or(0).clamp(0, 3)` -/
def counter (quest : QuestLog) (k : QuestKey) : Nat := (max 0 (min (quest.number k) 3)).toNat

def putCounter (quest : QuestLog) (k : QuestKey) (n : Nat) : QuestLog := quest.put k (Nat.toDigits 10 (min n 3))

/-- The faction, when one is chosen -/
def chosen (quest : QuestLog) : Option Text :=
  ((quest.lookup QuestKey.faction.text).map Text.trim).filter fun v => !v.isEmpty && v != "unset".toList

/-! ## Contracts -/

def setStateForDone (quest : QuestLog) (done : Nat) : QuestLog :=
  let cur := ((quest.lookup QuestKey.state.text).map Text.trim).getD []
  -- later states stay
  if cur ≠ [] ∧ "contract".toList.isPrefixOf cur = false ∧ cur ≠ "unstarted".toList then quest
  else
    quest.put .state (["unstarted", "contract_1", "contract_2"].getD done "contract_3").toList

def completeContract (quest : QuestLog) (i : Contract) : Option (Nat × QuestLog) :=
  if quest.isOn (.contract i) then none
  else
    let quest := quest.put (.contract i) ['1']
    let done := min (quest.counter .contractsDone + 1) 3
    some (done, (quest.putCounter .contractsDone done).setStateForDone done)

def contractMsg (name : String) (e : Nat × QuestLog) : Text × QuestLog :=
  ("contract ".toList ++ name.toList ++ " complete. (contracts done: ".toList ++ Nat.toDigits 10 e.1
    ++ "/3)\r\n".toList
    ++ (if 3 ≤ e.1 ∧ e.2.isOn .repeatablesUnlocked = false then
      "return to the job board. (try: look board)\r\n".toList else []), e.2)

/-- `q2_room_enter`: what is said, and the table. Without a word nothing is written. -/
def q2RoomEnter (quest : QuestLog) (roomId : Text) : Option (Text × QuestLog) :=
  if roomId = "R_MEADOW_PEST_02".toList then (quest.completeContract .a).map (contractMsg "A")
  else if roomId = "R_ORCHARD_NEST_01".toList then (quest.completeContract .b).map (contractMsg "B")
  else if roomId = "R_TOWN_CLINIC_01".toList then
    if quest.isOn .contractCClinic then none
    else some ("clinic: a medic stamps a slip with brisk disinterest.\r\n".toList, quest.put .contractCClinic ['1'])
  else if roomId = "R_TOWN_EDGE_01".toList then
    if quest.isOn .contractCClinic then (quest.completeContract .c).map (contractMsg "C") else none
  else none

/-- What the choice of a faction writes -/
def sign (quest : QuestLog) (f : Faction) : QuestLog :=
  let quest := quest.put .faction f.text
  let quest := quest.put .repeatablesUnlocked ['1']
  let quest := quest.put .repeatables ['1']
  let quest := if f = .civic ∨ f = .industrial then quest.put .sewersEntry ['1'] else quest
  let quest := if f = .industrial ∨ f = .green then quest.put .quarryEntry ['1'] else quest
  quest.put .state "repeatables".toList

end QuestLog

/-! ## Lines -/

inductive QuestCommand where
  /-- A word without its argument, by the hint that it gets -/
  | bare (hint : String)
  | showFaction
  | faction (token : Text)
  | turn (target : Text)
  | light (target : Text)
  | pull (target : Text)
  | set (rest : Text)
  | del (key : Text)
deriving DecidableEq, Repr

/-- The input line as a command. Only `quest` looks at it before it is lower-cased. -/
def QuestCommand.parse (line : Text) : Option QuestCommand :=
  let lc := Text.toAsciiLowercase line
  if lc = "faction".toList then some .showFaction
  else if let some rest := Text.stripPrefix "faction ".toList lc then some (.faction (Text.trim rest))
  else if let some rest := Text.stripPrefix "quest set ".toList line then some (.set (Text.trim rest))
  else if let some rest := Text.stripPrefix "quest del ".toList line then some (.del (Text.trim rest))
  else if lc = "turn".toList then some (.bare "huh? (try: turn valve)\r\n")
  else if let some rest := Text.stripPrefix "turn ".toList lc then some (.turn (Text.trim rest))
  else if lc = "light".toList then some (.bare "huh? (try: light pylon)\r\n")
  else if let some rest := Text.stripPrefix "light ".toList lc then some (.light (Text.trim rest))
  else if lc = "pull".toList then some (.bare "huh? (try: pull lever)\r\n")
  else if let some rest := Text.stripPrefix "pull ".toList lc then some (.pull (Text.trim rest))
  else none

/-- `quest set` and `quest del` -/
def QuestCommand.isEdit : QuestCommand → Bool
  | .set _ | .del _ => true
  | _ => false

/-- `ROOM_TOWN_JOB_BOARD` -/
def roomTownJobBoard : Text := "R_TOWN_JOB_01".toList

/-- What `turn valve` and `light pylon` differ in -/
structure Works where
  hint : String
  nothing : String
  sites : List String
  targets : List String
  site : Fin 3 → QuestKey
  count : QuestKey
  already : Nat → Text
  fresh : Nat → Text
  roomMsg : Text → Text

/-- The sites by their number, from the room -/
def Works.siteOf (W : Works) (roomId : Text) : Option (Fin 3) :=
  [(0 : Fin 3), 1, 2].find? fun i => decide (roomId = (W.sites.getD i "").toList)

namespace Character

variable (p : Character)

def doFaction (token : Text) : Told × QuestLog :=
  let quest := p.quest
  if p.roomId ≠ roomTownJobBoard then
    (told "huh? (try this at the job board; go to the square and: look board)\r\n", quest)
  else if token.isEmpty then (told "huh? (try: faction civic|industrial|green)\r\n", quest)
  else if QuestLog.counter quest .contractsDone < 3 then
    (told "board clerk: finish the 3 starter contracts first.\r\n(try: look board)\r\n", quest)
  else if (QuestLog.chosen quest).isSome then (told "board clerk: contact already chosen.\r\n", quest)
  else
    match Faction.parse token with
    | none => (told "huh? (try: faction civic|industrial|green)\r\n", quest)
    | some f =>
      (("board clerk: stamped. contact set to ".toList ++ f.text
          ++ ".\r\n(sewers access may now be unsealed.)\r\n".toList,
        "* ".toList ++ p.name ++ " signs the job board ledger.".toList), QuestLog.sign quest f)

/-- What `turn` and `light` do -/
def doWork (W : Works) (target : Text) : Told × QuestLog :=
  let quest := p.quest
  if target.isEmpty then (told W.hint, quest)
  else
    match W.siteOf p.roomId with
    | none => (told W.nothing, quest)
    | some i =>
      if target ∉ W.targets.map String.toList then (told W.hint, quest)
      else if QuestLog.isThrown quest (W.site i) then ((W.already (QuestLog.counter quest W.count), []), quest)
      else
        let quest := QuestLog.put quest (W.site i) ['1']
        let n := min (QuestLog.counter quest W.count + 1) 3
        ((W.fresh n, W.roomMsg p.name), QuestLog.putCounter quest W.count n)

def valves : Works where
  hint := "huh? (try: turn valve)\r\n"
  nothing := "huh? (nothing to turn here)\r\n"
  sites := ["R_SEW_VALVE1_02", "R_SEW_VALVE2_02", "R_SEW_VALVE3_02"]
  targets := ["valve", "wheel", "valve wheel"]
  site := .valve
  count := .valvesOpened
  already n := "the valve is already open. (valves opened: ".toList ++ Nat.toDigits 10 n ++ "/3)\r\n".toList
  fresh n := "you turn the valve wheel. (valves opened: ".toList ++ Nat.toDigits 10 n ++ "/3)\r\n".toList
  roomMsg name := "* ".toList ++ name ++ " turns the valve wheel.".toList

def pylons : Works where
  hint := "huh? (try: light pylon)\r\n"
  nothing := "huh? (nothing to light here)\r\n"
  sites := ["R_HILL_PYLON_01", "R_HILL_PYLON_02", "R_HILL_PYLON_03"]
  targets := ["pylon", "ward", "tower", "beacon"]
  site := .pylon
  count := .pylonsLit
  already n := "the pylon is already lit. (pylons lit: ".toList ++ Nat.toDigits 10 n ++ "/3)\r\n".toList
  fresh n := "you relight the ward pylon. (pylons lit: ".toList ++ Nat.toDigits 10 n ++ "/3)\r\n".toList
    ++ if 3 ≤ n then "somewhere deeper in the fort, a gate finally agrees.\r\n".toList else []
  roomMsg name := "* ".toList ++ name ++ " relights the ward pylon.".toList

def doTurn (target : Text) : Told × QuestLog := p.doWork valves target

def doLight (target : Text) : Told × QuestLog := p.doWork pylons target

def pullBypass : Told × QuestLog :=
  let quest := p.quest
  let already := QuestLog.isOn quest .shortcut
  let full := decide (3 ≤ QuestLog.counter quest .valvesOpened)
  let quest := if already = false ∧ full = true then QuestLog.put quest .shortcut ['1'] else quest
  if full = false then
    (told "the lever doesn't budge. something upstream still has pressure.\r\n", quest)
  else if already then (told "the lever is already down. the quarry bypass is unsealed.\r\n", quest)
  else
    (("you pull the bypass lever. somewhere deep in the tunnels, metal shifts.\r\n".toList,
      "* ".toList ++ p.name ++ " pulls the bypass lever. something heavy shifts.".toList), quest)

def pullSwitch (i : Fin 2) : Told × QuestLog :=
  let quest := p.quest
  let already := QuestLog.isOn quest (.lever i)
  let quest := if already then quest else QuestLog.put quest (.lever i) ['1']
  let pulled := min ((QuestLog.isOn quest (.lever 0)).toNat + (QuestLog.isOn quest (.lever 1)).toNat) 2
  let unlockedNow := QuestLog.isOn quest .railPass = false ∧ 2 ≤ pulled
  let quest := if unlockedNow then QuestLog.put quest .railPass ['1'] else quest
  let quest := QuestLog.put quest .lastLever (Nat.toDigits 10 (i + 1))
  let shown := Nat.toDigits 10 pulled ++ "/2)\r\n".toList
  if already then (("the switch is already thrown. (rail levers: ".toList ++ shown, []), quest)
  else
    (("you throw the switch lever. (rail levers: ".toList ++ shown
        ++ if unlockedNow then "somewhere in the terminal, a lock tag snaps loose.\r\n".toList else [],
      "* ".toList ++ p.name ++ " throws the switch lever.".toList), quest)

def doPull (target : Text) : Told × QuestLog :=
  if target ∉ ["lever", "bypass", "switch", "quarry"].map String.toList then
    (told "huh? (try: pull lever)\r\n", p.quest)
  else if p.roomId = "R_SEW_REWARD_01".toList then p.pullBypass
  else if p.roomId = "R_RAIL_YARD_04".toList then p.pullSwitch 0
  else if p.roomId = "R_RAIL_YARD_08".toList then p.pullSwitch 1
  else (told "huh? (nothing to pull here)\r\n", p.quest)

def doQuestSet (rest : Text) : Told × QuestLog :=
  match Text.splitWhitespace rest with
  | key :: value :: _ =>
    (("quest: set ".toList ++ key ++ ['='] ++ value ++ "\r\n".toList, []), p.quest.insert key value)
  | _ => (told "huh? (try: quest set <key> <value>)\r\n", p.quest)

def doQuestDel (key : Text) : Told × QuestLog :=
  if key.isEmpty then (told "huh? (try: quest del <key>)\r\n", p.quest)
  else
    let missing := if (p.quest.lookup key).isSome then [] else " (missing)".toList
    (("quest: del ".toList ++ key ++ missing ++ "\r\n".toList, []), p.quest.erase key)

def runQuest : QuestCommand → Told × QuestLog
  | .bare hint => (told hint, p.quest)
  | .showFaction =>
    let cur := (((p.quest.lookup QuestKey.faction.text).map Text.trim).filter (!·.isEmpty)).getD "unset".toList
    (("faction: ".toList ++ cur
      ++ "\r\ntry: faction civic|industrial|green (at the job board)\r\n".toList, []), p.quest)
  | .faction token => p.doFaction token
  | .turn target => p.doTurn target
  | .light target => p.doLight target
  | .pull target => p.doPull target
  | .set rest => p.doQuestSet rest
  | .del key => p.doQuestDel key

end Character

/-! ## Runs -/

variable {Raw Auth : Type}

namespace Realm

def setQuest (r : Realm Raw) (cid : CharacterId) (quest : QuestLog) : Realm Raw :=
  match r.world.chars.lookup cid with
  | none => r
  | some c => { r with world := { r.world with chars := r.world.chars.insert cid { c with quest } } }

/-- The end of `try_move`: the one who gave the line is in its new room. Whoever followed enters
without a word. -/
def arrive (r : Realm Raw) (session : SessionId) : Realm Raw :=
  match r.world.activeChar session with
  | none => r
  | some (cid, p) =>
    match QuestLog.q2RoomEnter p.quest p.roomId with
    | none => r
    | some (_, quest) => r.setQuest cid quest

/-- A line that is about quests, unless it answers a question -/
def questLine (r : Realm Raw) (session : SessionId) (line : Text) : Option (Told × Realm Raw) := do
  let cmd ← QuestCommand.parse (Text.trim line)
  if r.world.answering session then none
  else
    match r.world.activeChar session with
    | none => some (told "not attached\r\n", r)
    | some (cid, p) => some ((p.runQuest cmd).1, r.setQuest cid (p.runQuest cmd).2)

end Realm

inductive QuestMove (Auth : Type) where
  | realm (m : RealmMove Auth)
  | line (session : SessionId) (line : Text)

/-- Other commands and timers leave quests alone. -/
def RealmMove.keepQuests : RealmMove Auth → RealmMove Auth
  | .effect e => .effect { e with chars := fun cid c => { e.chars cid c with quest := c.quest } }
  | m => m

def Realm.questStep (J : Codec Raw (List PlayerSnapshot)) (A : Codec Auth AuthBlob) (r : Realm Raw) :
    QuestMove Auth → Option (Realm Raw)
  | .realm (.going session (.tryMove token)) =>
    (r.step J A (.going session (.tryMove token))).map fun r => r.arrive session
  | .realm m => r.step J A m.keepQuests
  | .line session line => (r.questLine session line).map Prod.snd

end Slopmud.Shard
