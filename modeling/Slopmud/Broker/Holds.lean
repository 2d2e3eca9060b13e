import Slopmud.Broker.Login
import Slopmud.Sbc.Subscribe

/-!
# Legal holds in the broker

The broker keeps raftd's holds in a `HoldCache`, and in each session a flag that
says whether its name is held. Three kinds of task write them, each in lock
sections of its own: the events task, which follows raftd's stream, the
`accounthold` command, which applies raftd's reply by itself, and a login, which
reads the cache and then inserts the session.
-/

namespace Slopmud.Broker

open Slopmud.Sbc

/-- `trim().to_ascii_lowercase()`, the key of a hold. -/
def holdKey (name : Text) : Text := Text.toAsciiLowercase (Text.trim name)

/-! ## hold.rs -/

structure HoldCache where
  /-- Lower-case name to entry. -/
  holds : Table Text LegalHoldEntry
  lastIndex : Nat

namespace HoldCache

def new : HoldCache := ⟨∅, 0⟩

def isHeld (c : HoldCache) (name : Text) : Option LegalHoldEntry :=
  let k := holdKey name
  if k.isEmpty then none else c.holds.lookup k

def fileHold (m : Table Text LegalHoldEntry) (h : LegalHoldEntry) : Table Text LegalHoldEntry :=
  let k := holdKey h.nameLc
  if k.isEmpty then m else m.insert k h

def applySnapshot (c : HoldCache) (index : Nat) (holds : List LegalHoldEntry) : HoldCache :=
  ⟨holds.foldl fileHold ∅, max c.lastIndex index⟩

def applyUpsert (c : HoldCache) (index : Nat) (entry : LegalHoldEntry) : HoldCache :=
  let k := holdKey entry.nameLc
  if k.isEmpty then c else ⟨c.holds.insert k entry, max c.lastIndex index⟩

def applyDelete (c : HoldCache) (index : Nat) (nameLc : Text) : HoldCache :=
  let k := holdKey nameLc
  if k.isEmpty then c else ⟨c.holds.erase k, max c.lastIndex index⟩

end HoldCache

/-! ## The flags of the sessions -/

variable {Auth : Type}

/-- What is to be done to the flags, after the cache. -/
inductive Flags where
  | all (heldNames : List Text)
  | one (nameLc : Text) (held : Bool)
deriving DecidableEq, Repr

def Flags.onSession (f : Flags) (si : SessionInfo Auth) : SessionInfo Auth :=
  match f with
  | .all heldNames => { si with held := heldNames.contains (holdKey si.name) }
  | .one nameLc held => if holdKey si.name = nameLc then { si with held } else si

/-- `for si in m.values_mut() { .. }` -/
def Flags.apply (f : Flags) (m : Table ConnId (SessionInfo Auth)) : Table ConnId (SessionInfo Auth) :=
  m.mapVals fun _ => f.onSession

/-! ## sbc_holds_events_task -/

/-- One line of the stream: the lock section on the cache, and the flags to set after it. -/
def HoldCache.onEvent (c : HoldCache) (env : EventEnvelope) : HoldCache × Option Flags :=
  match env.event with
  | .snapshot _ holds =>
    let heldNames := (holds.map fun h => holdKey h.nameLc).filter fun k => !k.isEmpty
    (c.applySnapshot env.index holds, some (.all heldNames))
  | .legalHoldUpserted entry =>
    let nameLc := holdKey entry.nameLc
    (c.applyUpsert env.index entry, if nameLc.isEmpty then none else some (.one nameLc true))
  | .legalHoldDeleted nameLc =>
    let nameLc := holdKey nameLc
    (c.applyDelete env.index nameLc, if nameLc.isEmpty then none else some (.one nameLc false))
  | _ => (c, none)

inductive EventsTask where
  | connecting
  /-- The snapshot is on its way; it has the first `upTo` changes. -/
  | subscribed (snap : EventEnvelope) (upTo : Nat)
  | reading
  /-- The cache is changed, the flags come next. -/
  | flagging (f : Flags)
deriving DecidableEq, Repr

/-! ## handle_accounthold_command -/

inductive HoldOp where
  | add (reason : Text)
  | del
deriving DecidableEq, Repr

def HoldOp.isAdd : HoldOp → Bool
  | .add _ => true
  | .del => false

structure HoldCmd where
  op : HoldOp
  nameLc : Text
  actor : Text
  nowUnix : Nat
deriving DecidableEq, Repr

/-- `clamp_chars` -/
def clampChars (s : Text) (max : Nat) : Text :=
  let s := Text.trim s
  if max = 0 ∨ s.isEmpty then []
  else if s.length ≤ max then s
  else s.take max ++ " [truncated]".toList

namespace HoldCmd

def prompt : Text := "\r\n\r\n> ".toList

/-- `accounthold add` or `accounthold del`, as its answers begin. -/
def title : HoldOp → Text
  | .add _ => "accounthold add: ".toList
  | .del => "accounthold del: ".toList

/-- The command with its arguments, or an answer at once. -/
def parse (op : HoldOp) (raw actor : Text) (nowUnix : Nat) : Text ⊕ HoldCmd :=
  let nm := sanitizeName raw
  if nm.isEmpty then .inl (title op ++ "missing/bad name".toList ++ prompt)
  else
    let op := match op with
      | .add reason => .add (clampChars reason 200)
      | .del => .del
    .inr ⟨op, Text.toAsciiLowercase nm, actor, nowUnix⟩

def request (c : HoldCmd) : AdminReq :=
  match c.op with
  | .add reason => .upsertLegalHold c.nameLc c.actor reason
  | .del => .deleteLegalHold c.nameLc

def unavailable (c : HoldCmd) : Text := title c.op ++ "raft unavailable".toList ++ prompt

/-- What raftd's reply is made of: an answer at once, or the index, and the entry of an add. -/
def onReply (c : HoldCmd) (resp : AdminResp) : Text ⊕ (Nat × Option LegalHoldEntry) :=
  match c.op, resp with
  | .add _, .okLegalHold index entry => .inr (index, some entry)
  | .add reason, .ok index => .inr (index, some ⟨c.nameLc, c.nowUnix, c.actor, reason⟩)
  | .del, .ok index => .inr (index, none)
  | _, .err message => .inl (title c.op ++ "rejected (".toList ++ message ++ ")".toList ++ prompt)
  | _, _ => .inl (title c.op ++ "failed".toList ++ prompt)

/-- The lock section on the cache; the flag says whether the name was held before. -/
def applyTo (c : HoldCmd) (index : Nat) (entry : Option LegalHoldEntry) (cache : HoldCache) :
    Bool × HoldCache :=
  let existed := (cache.isHeld c.nameLc).isSome
  match entry with
  | some e => (existed, cache.applyUpsert index e)
  | none => (existed, cache.applyDelete index c.nameLc)

def flags (c : HoldCmd) : Flags := .one c.nameLc c.op.isAdd

def answer (c : HoldCmd) (existed : Bool) : Text :=
  let what := match c.op, existed with
    | .add _, false => "ok: account hold added for ".toList
    | .add _, true => "ok: account hold already present for ".toList
    | .del, true => "ok: account hold removed for ".toList
    | .del, false => "ok: account hold not present for ".toList
  what ++ c.nameLc ++ prompt

end HoldCmd

inductive HoldCmdPhase where
  /-- No command runs; the answer of the last one. -/
  | idle (answer : Option Text)
  | asked (c : HoldCmd)
  /-- raftd has committed the change, as number `seq` of all, and answered. -/
  | answered (c : HoldCmd) (resp : AdminResp) (seq : Nat)
  | applied (c : HoldCmd) (existed : Bool) (seq : Nat)
deriving DecidableEq, Repr

/-! ## The tasks together -/

/-- raftd, and the tasks of the broker that deal with holds. -/
structure HoldWorld (Auth : Type) where
  raftd : PersistedState
  /-- The events of all changes so far, in the order of their indices. -/
  log : List EventEnvelope
  cache : HoldCache
  sessions : Table ConnId (SessionInfo Auth)
  task : EventsTask
  /-- How many of the changes the events task has taken. -/
  pos : Nat
  cmd : Nat → HoldCmdPhase
  /-- A login between its two sections, with how many changes had been taken when it read. -/
  login : ConnId → Option (SessionInfo Auth × Nat)

inductive HoldMove (Auth : Type) where
  /-- A request to raftd that does not come from here. -/
  | commit (env : RaftdEnv) (req : AdminReq)
  | reap (ids : List Text)
  /-- The events task subscribes; raftd takes the snapshot. -/
  | subscribe
  | takeSnapshot
  | takeEvent
  | flag
  | ask (k : Nat) (op : HoldOp) (raw actor : Text) (nowUnix : Nat)
  | answer (k : Nat) (env : RaftdEnv)
  /-- The request, or the reply to it, is lost. -/
  | fail (k : Nat)
  | apply (k : Nat)
  | flagCmd (k : Nat)
  /-- `let held = { holds.lock().await.is_held(name).is_some() };` -/
  | read (j : ConnId) (si : SessionInfo Auth)
  | insert (j : ConnId)
  /-- The session ends. -/
  | leave (j : ConnId)

namespace HoldWorld

def start : HoldWorld Auth :=
  ⟨.empty, [], .new, ∅, .connecting, 0, fun _ => .idle none, fun _ => none⟩

/-- The events of an answer. -/
def eventsOf (r : Option (AdminResp × Option EventEnvelope)) : List EventEnvelope :=
  (r.bind Prod.snd).toList

/-- How many changes the events task has brought to the flags. -/
def flagged (s : HoldWorld Auth) : Nat :=
  match s.task with
  | .reading => s.pos
  | .flagging (.one _ _) => s.pos - 1
  | _ => 0

/-- The events task, with the flags to set if there are any. -/
def taken (s : HoldWorld Auth) (x : HoldCache × Option Flags) (pos : Nat) : HoldWorld Auth :=
  { s with
    cache := x.1
    pos
    task := match x.2 with
      | some f => .flagging f
      | none => .reading }

def step (T : IpText) (s : HoldWorld Auth) : HoldMove Auth → Option (HoldWorld Auth)
  | .commit env req =>
    let (r, raftd) := adminSection T env s.raftd req
    some { s with raftd, log := s.log ++ eventsOf r }
  | .reap ids =>
    let (evs, raftd) := reapSection T s.raftd ids
    some { s with raftd, log := s.log ++ evs }
  | .subscribe =>
    match s.task with
    | .connecting => some { s with task := .subscribed (snapshotOf s.raftd) s.log.length }
    | _ => none
  | .takeSnapshot =>
    match s.task with
    | .subscribed snap upTo => some (s.taken (s.cache.onEvent snap) upTo)
    | _ => none
  | .takeEvent =>
    match s.task, s.log[s.pos]? with
    | .reading, some ev => some (s.taken (s.cache.onEvent ev) (s.pos + 1))
    | _, _ => none
  | .flag =>
    match s.task with
    | .flagging f => some { s with sessions := f.apply s.sessions, task := .reading }
    | _ => none
  | .ask k op raw actor nowUnix =>
    match s.cmd k with
    | .idle _ =>
      match HoldCmd.parse op raw actor nowUnix with
      | .inl answer => some { s with cmd := Function.update s.cmd k (.idle (some answer)) }
      | .inr c => some { s with cmd := Function.update s.cmd k (.asked c) }
    | _ => none
  | .answer k env =>
    match s.cmd k with
    | .asked c =>
      let (r, raftd) := adminSection T env s.raftd c.request
      let phase := match r with
        | some (resp, _) => .answered c resp s.log.length
        | none => .idle (some c.unavailable)
      some { s with
        raftd
        log := s.log ++ eventsOf r
        cmd := Function.update s.cmd k phase }
    | _ => none
  | .fail k =>
    match s.cmd k with
    | .asked c => some { s with cmd := Function.update s.cmd k (.idle (some c.unavailable)) }
    | .answered c _ _ => some { s with cmd := Function.update s.cmd k (.idle (some c.unavailable)) }
    | _ => none
  | .apply k =>
    match s.cmd k with
    | .answered c resp seq =>
      match c.onReply resp with
      | .inl answer => some { s with cmd := Function.update s.cmd k (.idle (some answer)) }
      | .inr (index, entry) =>
        let (existed, cache) := c.applyTo index entry s.cache
        some { s with cache, cmd := Function.update s.cmd k (.applied c existed seq) }
    | _ => none
  | .flagCmd k =>
    match s.cmd k with
    | .applied c existed _ =>
      some { s with
        sessions := c.flags.apply s.sessions
        cmd := Function.update s.cmd k (.idle (some (c.answer existed))) }
    | _ => none
  | .read j si =>
    let held := (s.cache.isHeld si.name).isSome
    some { s with login := Function.update s.login j (some ({ si with held }, s.pos)) }
  | .insert j =>
    match s.login j with
    | some (si, _) =>
      some { s with
        sessions := s.sessions.insert j si
        login := Function.update s.login j none }
    | none => none
  | .leave j => some { s with sessions := s.sessions.erase j }

end HoldWorld

end Slopmud.Broker
