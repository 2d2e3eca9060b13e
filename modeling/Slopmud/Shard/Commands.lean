import Mathlib.Data.Finset.Max
import Slopmud.Lib.Machine
import Slopmud.Shard.Attach

/-!
# Requests and runs of the shard

`handle_broker`: the requests of the broker, the party commands among the input
lines, and the moves of a run. Every other command, timer or fight is one move,
`game`, that may change whatever the source lets it change: a character's goods
and condition, mobs, rooms. It never touches a party, a saved player, or a
player character's identity.
-/

namespace Slopmud.Shard

/-! ## Party commands -/

inductive PartyCommand where
  | create
  | disband
  | kick (target : Text)
  | lead (target : Text)
  | invite (target : Text)
  | accept
  | leave
deriving DecidableEq, Repr

/-- The lower-cased input line as a party command, in the order in which the lines are tested. -/
def PartyCommand.parse (lc : Text) : Option PartyCommand :=
  if lc = "party create".toList ∨ lc = "party new".toList then some .create
  else if lc = "party disband".toList then some .disband
  else if let some rest := Text.stripPrefix "party kick ".toList lc then some (.kick (Text.trim rest))
  else if let some rest := Text.stripPrefix "party lead ".toList lc then some (.lead (Text.trim rest))
  else if let some rest := Text.stripPrefix "party invite ".toList lc then
    some (.invite (Text.trim rest))
  else if lc = "party accept".toList then some .accept
  else if lc = "party leave".toList then some .leave
  else none

/-- Output lines, and the sessions they go to. -/
abbrev Output := List (SessionId × Text)

def crlf : Text := ['\r', '\n']

/-- A fixed reply to one session. -/
def reply (session : SessionId) (s : String) : Output := [(session, s.toList ++ crlf)]

variable {Raw : Type}

namespace World

/-- The sessions that control the members of a party. -/
def memberSessions (w : World Raw) (p : Party) : List SessionId :=
  w.chars.entries.filterMap fun e => if e.1 ∈ p.members then e.2.controller else none

def nameOf (w : World Raw) (cid : CharacterId) (dflt : String) : Text :=
  ((w.chars.lookup cid).map Character.name).getD dflt.toList

/-- What `disband`, `kick` and `lead` share: the party of a character who leads it. -/
def ledParty (w : World Raw) (cid : CharacterId) (what : String) :
    Except String (PartyId × Party) :=
  match w.partyOf.lookup cid with
  | none => .error "party: you are not in a party"
  | some pid =>
    match w.parties.lookup pid with
    | none => .error "party: internal error"
    | some party =>
      if party.leader = cid then .ok (pid, party)
      else .error ("party: only the leader can " ++ what)

def doCreate (w : World Raw) (session : SessionId) (p : Character) : Output × World Raw :=
  if (w.partyOf.lookup p.id).isSome then (reply session "party: you are already in a party", w)
  else
    let (pid, w) := w.partyCreate p.id
    ([(session, "party: created (id=".toList ++ Nat.toDigits 10 pid ++ ")".toList ++ crlf)], w)

def doDisband (w : World Raw) (session : SessionId) (p : Character) : Output × World Raw :=
  match w.ledParty p.id "disband" with
  | .error e => (reply session e, w)
  | .ok (pid, party) =>
    let leaderName := ((w.chars.lookup p.id).map Character.name).getD p.name
    let sids := w.memberSessions party
    (sids.map fun sid =>
      (sid, if sid = session then "party: disbanded".toList ++ crlf
        else "party: disbanded by ".toList ++ leaderName ++ crlf), w.partyDisband pid)

def doKick (O : SetOrder) (w : World Raw) (session : SessionId) (p : Character) (target : Text) :
    Output × World Raw :=
  if target.isEmpty then (reply session "huh? (try: party kick <player>)", w)
  else
    match w.ledParty p.id "kick" with
    | .error e => (reply session e, w)
    | .ok (pid, _) =>
      match w.findPlayerByPrefix target with
      | none => (reply session "party: player not found (or ambiguous)", w)
      | some targetId =>
        if targetId = p.id then (reply session "party: ok", w)
        else if w.partyOf.lookup targetId ≠ some pid then
          (reply session "party: that player is not in your party", w)
        else
          let targetSid := (w.chars.lookup targetId).bind Character.controller
          let told := targetSid.toList.map fun ts =>
            (ts, "party: you were kicked by ".toList ++ p.name ++ crlf)
          (reply session "party: kicked" ++ told, w.partyLeave O targetId)

/-- The members controlled by a session whose lower-case name is `t` or starts with it. -/
def membersNamed (w : World Raw) (party : Party) (t : Text) : List CharacterId :=
  w.chars.entries.filterMap fun e =>
    let n := Text.toAsciiLowercase e.2.name
    if e.1 ∈ party.members ∧ e.2.controller.isSome ∧ (n = t ∨ t.isPrefixOf n) then some e.1 else none

theorem mem_membersNamed {w : World Raw} {party : Party} {t : Text} {c : CharacterId}
    (h : c ∈ w.membersNamed party t) : c ∈ party.members := by
  obtain ⟨e, -, he⟩ := List.mem_filterMap.mp h
  simp only [Option.ite_none_right_eq_some, Option.some.injEq] at he
  exact he.2 ▸ he.1.1

def doLead (w : World Raw) (session : SessionId) (p : Character) (target : Text) :
    Output × World Raw :=
  if target.isEmpty then (reply session "huh? (try: party lead <player>)", w)
  else
    match w.ledParty p.id "transfer lead" with
    | .error e => (reply session e, w)
    | .ok (pid, party) =>
      match uniqueOf (w.membersNamed party (Text.toAsciiLowercase target)) with
      | none => (reply session "party: player not found (or ambiguous)", w)
      | some newLeader =>
        if newLeader = p.id then (reply session "party: ok", w)
        else
          let msg := "party: leader is now ".toList ++ w.nameOf newLeader "someone" ++ crlf
          ((w.memberSessions party).map fun sid => (sid, msg),
            { w with parties := w.parties.insert pid { party with leader := newLeader } })

/-- The party of the inviter: somebody without one makes one by inviting, even when the
invitation then fails. -/
def ownParty (w : World Raw) (cid : CharacterId) : PartyId × World Raw :=
  match w.partyOf.lookup cid with
  | some pid => (pid, w)
  | none => w.partyCreate cid

/-- `party invite`, once the inviter has a party. -/
def inviteTo (w : World Raw) (session : SessionId) (p : Character) (target : Text) (pid : PartyId) :
    Output × World Raw :=
  match w.parties.lookup pid with
  | none => (reply session "party: internal error", w)
  | some party =>
    if party.leader ≠ p.id then (reply session "party: only the leader can invite", w)
    else
      match w.findPlayerByPrefix target with
      | none => (reply session "party: player not found (or ambiguous)", w)
      | some inviteeId =>
        if inviteeId = p.id then (reply session "party: ok", w)
        else if (w.partyOf.lookup inviteeId).isSome then
          (reply session "party: that player is already in a party", w)
        else
          let inv : PartyInvite := ⟨pid, p.id, Word.satAdd64 w.nowMs 60000⟩
          let told := ((w.chars.lookup inviteeId).bind Character.controller).toList.map fun sid =>
            (sid, "party invite from ".toList ++ w.nameOf p.id "someone"
              ++ ". type: party accept".toList ++ crlf)
          ((session, "party: invited ".toList ++ w.nameOf inviteeId "?" ++ crlf) :: told,
            { w with partyInvites := w.partyInvites.insert inviteeId inv })

def doInvite (w : World Raw) (session : SessionId) (p : Character) (target : Text) :
    Output × World Raw :=
  if target.isEmpty then (reply session "huh? (try: party invite <player>)", w)
  else (w.ownParty p.id).2.inviteTo session p target (w.ownParty p.id).1

def doAccept (w : World Raw) (session : SessionId) (p : Character) : Output × World Raw :=
  match w.partyInvites.lookup p.id with
  | none => (reply session "party: no pending invites", w)
  | some inv =>
    let w := { w with partyInvites := w.partyInvites.erase p.id }
    if inv.expiresMs < w.nowMs then (reply session "party: invite expired", w)
    else
      match w.parties.lookup inv.partyId with
      | none => (reply session "party: invite stale", w)
      | some party =>
        let party := { party with members := insert p.id party.members }
        let w := { w with
          parties := w.parties.insert inv.partyId party
          partyOf := w.partyOf.insert p.id inv.partyId }
        let msg := "party: ".toList ++ w.nameOf p.id "someone" ++ " joined".toList ++ crlf
        ((session, "party: joined (id=".toList ++ Nat.toDigits 10 inv.partyId ++ ")".toList ++ crlf)
          :: (w.memberSessions party).map (fun sid => (sid, msg)), w)

def doLeave (O : SetOrder) (w : World Raw) (session : SessionId) (p : Character) :
    Output × World Raw :=
  if (w.partyOf.lookup p.id).isNone then (reply session "party: you are not in a party", w)
  else (reply session "party: left", w.partyLeave O p.id)

/-- One party command of the character `p` that `session` plays. -/
def runParty (O : SetOrder) (w : World Raw) (session : SessionId) (p : Character) :
    PartyCommand → Output × World Raw
  | .create => w.doCreate session p
  | .disband => w.doDisband session p
  | .kick target => w.doKick O session p target
  | .lead target => w.doLead session p target
  | .invite target => w.doInvite session p target
  | .accept => w.doAccept session p
  | .leave => w.doLeave O session p

theorem ownParty_frame (w : World Raw) (cid : CharacterId) :
    ∃ nextPartyId parties partyOf, (w.ownParty cid).2 = { w with nextPartyId, parties, partyOf } := by
  unfold ownParty
  cases w.partyOf.lookup cid with
  | none => exact ⟨_, _, _, rfl⟩
  | some pid => exact ⟨w.nextPartyId, w.parties, w.partyOf, rfl⟩

theorem inviteTo_frame (w : World Raw) (session : SessionId) (p : Character) (target : Text)
    (pid : PartyId) :
    ∃ partyInvites, (w.inviteTo session p target pid).2 = { w with partyInvites } := by
  unfold inviteTo
  repeat' split
  all_goals first
    | exact ⟨w.partyInvites, rfl⟩
    | exact ⟨_, rfl⟩

/-- Party commands are about parties. -/
theorem runParty_frame (O : SetOrder) (w : World Raw) (session : SessionId) (p : Character)
    (cmd : PartyCommand) : ∃ nextPartyId parties partyOf partyInvites,
      (w.runParty O session p cmd).2 = { w with nextPartyId, parties, partyOf, partyInvites } := by
  have hsame : ∃ nextPartyId parties partyOf partyInvites,
      w = { w with nextPartyId, parties, partyOf, partyInvites } := ⟨_, _, _, _, rfl⟩
  have hleave : ∀ cid, ∃ nextPartyId parties partyOf partyInvites,
      w.partyLeave O cid = { w with nextPartyId, parties, partyOf, partyInvites } := by
    intro cid
    obtain ⟨partyOf, parties, h⟩ := partyLeave_frame O w cid
    exact ⟨w.nextPartyId, parties, partyOf, w.partyInvites, h⟩
  cases cmd with
  | create =>
    simp only [runParty, doCreate]
    split
    · exact hsame
    · exact ⟨_, _, _, _, rfl⟩
  | disband =>
    simp only [runParty, doDisband]
    split
    · exact hsame
    · unfold partyDisband
      split
      · exact hsame
      · exact ⟨_, _, _, _, rfl⟩
  | kick target =>
    simp only [runParty, doKick]
    repeat' split
    all_goals first
      | exact hsame
      | exact hleave _
  | lead target =>
    simp only [runParty, doLead]
    repeat' split
    all_goals first
      | exact hsame
      | exact ⟨_, _, _, _, rfl⟩
  | invite target =>
    simp only [runParty, doInvite]
    split
    · exact hsame
    · obtain ⟨nextPartyId, parties, partyOf, hown⟩ := ownParty_frame w p.id
      obtain ⟨partyInvites, hinvite⟩ :=
        inviteTo_frame (w.ownParty p.id).2 session p target (w.ownParty p.id).1
      rw [hinvite, hown]
      exact ⟨_, _, _, _, rfl⟩
  | accept =>
    simp only [runParty, doAccept]
    repeat' split
    all_goals first
      | exact hsame
      | exact ⟨_, _, _, _, rfl⟩
  | leave =>
    simp only [runParty, doLeave]
    split
    · exact hsame
    · exact hleave _

/-! ## Everything else that happens in the game -/

/-- What other commands and timers may do: anything to the condition and goods of characters, to
rooms and the clock, and new mobs. -/
structure GameEffect where
  chars : CharacterId → Character → Character
  mobs : List (Text × Text)
  rooms : Rooms
  occupants : Table Text (Finset CharacterId)
  raftWatch : Finset CharacterId
  pendingConfirm : SessionId → Option PendingConfirm
  nowMs : Nat

/-- No command changes who a character is, nor its race and class once they are chosen. -/
def keepIdentity (c c' : Character) : Character :=
  { c' with
    id := c.id
    controller := c.controller
    createdBy := c.createdBy
    name := c.name
    principal := c.principal
    race := c.race
    cls := c.cls }

def game (w : World Raw) (g : GameEffect) : World Raw :=
  let w := { w with
    chars := w.chars.mapVals fun cid c => keepIdentity c (g.chars cid c)
    sessions := w.sessions.mapVals fun sid ss => { ss with pendingConfirm := g.pendingConfirm sid }
    rooms := g.rooms
    occupants := g.occupants
    raftWatch := g.raftWatch
    nowMs := g.nowMs }
  g.mobs.foldl (fun w m => w.spawnMob m.1 m.2) w

/-- `sessions drop`: only a character that the session spawned, and never its last one. -/
def sessionsDrop (O : SetOrder) (w : World Raw) (session : SessionId) (cid : CharacterId) :
    Option (World Raw) :=
  match w.sessions.lookup session, w.chars.lookup cid with
  | some ss, some c =>
    if cid ∈ ss.controlled ∧ ss.controlled.length ≠ 1 ∧ c.createdBy = some session then
      let w := w.removeChar O cid
      match w.sessions.lookup session with
      | none => some w
      | some ss =>
        let controlled := ss.controlled.filter (· ≠ cid)
        let active := if ss.active = cid then controlled.head?.getD ss.active else ss.active
        some { w with sessions := w.sessions.insert session { ss with controlled, active } }
    else none
  | _, _ => none

/-- A mob dies: players' characters are never removed by damage. -/
def killMob (O : SetOrder) (w : World Raw) (cid : CharacterId) : Option (World Raw) :=
  match w.chars.lookup cid with
  | none => none
  | some c => if c.controller.isSome then none else some (w.removeChar O cid)

end World

/-! ## Runs -/

/-- The moves of a run, with what the environment decides in each. -/
inductive ShardMove (Auth : Type) where
  | attach (saveOk : Bool) (O : SetOrder) (r : AttachReq Auth)
  | detach (saveOk : Bool) (O : SetOrder) (session : SessionId)
  /-- An input line of a session that is a party command. -/
  | input (O : SetOrder) (session : SessionId) (line : Text)
  | drop (O : SetOrder) (session : SessionId) (cid : CharacterId)
  | killMob (O : SetOrder) (cid : CharacterId)
  | game (g : World.GameEffect)
  /-- The broker link ends, and the next one starts with a new world. A link that ends with an
  error does not save the live players. -/
  | relink (clean saveOk readOk : Bool) (rooms : Rooms)

variable {Auth : Type} (J : Codec Raw (List PlayerSnapshot)) (A : Codec Auth AuthBlob)

/-- The party command on an input line, and who gives it. A line that answers a pending question
is none, and neither is a line of a session that is not attached. -/
def World.partyCommand? (w : World Raw) (session : SessionId) (line : Text) :
    Option (Character × PartyCommand) := do
  let ss ← w.sessions.lookup session
  let p ← w.chars.lookup ss.active
  let cmd ← PartyCommand.parse (Text.toAsciiLowercase (Text.trim line))
  if ss.pendingConfirm.isSome then none else some (p, cmd)

def shardStep (w : World Raw) : ShardMove Auth → Option (World Raw)
  | .attach saveOk O r => some (w.attach A J O saveOk r)
  | .detach saveOk O session => some (w.detachSession J O saveOk session)
  | .input O session line =>
    (w.partyCommand? session line).map fun (p, cmd) => (w.runParty O session p cmd).2
  | .drop O session cid => w.sessionsDrop O session cid
  | .killMob O cid => w.killMob O cid
  | .game g => some (w.game g)
  | .relink clean saveOk readOk rooms =>
    let w := if clean then w.persistLivePlayers J saveOk else w
    some (.new J readOk rooms w.file)

/-! ## Running the model -/

/-- Sets iterated in increasing order. -/
def someOrder : SetOrder where
  first s := if h : s.Nonempty then s.min' h else 0
  first_mem s h := by rw [dif_pos h]; exact s.min'_mem h

/-- A session attaches under a name, without an auth blob. -/
def attachAs (session : SessionId) (name : String) : ShardMove (Option AuthBlob) :=
  .attach true someOrder ⟨session, false, none, none, none, none, none, name.toList⟩

def say (session : SessionId) (line : String) : ShardMove (Option AuthBlob) :=
  .input someOrder session line.toList

/-- A run of a shard that has no players file yet. -/
def freshRun (ms : List (ShardMove (Option AuthBlob))) :
    Option (World (Option (List PlayerSnapshot))) :=
  Machine.exec (shardStep (Codec.direct _) (Codec.direct _))
    (World.new (Codec.direct _) true ⟨["gate".toList], "gate".toList⟩ none) ms

end Slopmud.Shard
