import Slopmud.Lib.Program
import Slopmud.Lib.Table
import Slopmud.Sbc.Core

/-!
# sbc_raftd

The server that owns the ban and hold tables. An admin connection mutates the
state under the lock and takes an event index there; the event itself is sent on
the broadcast channel later, after the lock has been released. The reaper deletes
expired bans in the same two phases. Both are programs of atomic sections:
`mutate` and `reap` are the lock sections, `send` is one `tx.send`.
-/

namespace Slopmud.Sbc

structure PersistedState where
  nextIndex : Nat
  /-- Ban id to entry. -/
  bans : Table Text BanEntry
  /-- CIDR to ban id. -/
  banByKey : Table Text Text
  /-- Lower-case name to entry. -/
  holds : Table Text LegalHoldEntry
  lastStatusByNode : Table Text EnforcementStatus
  lastApplyByNodeBan : Table Text BanApplyResult

namespace PersistedState

def empty : PersistedState where
  nextIndex := 1
  bans := ∅
  banByKey := ∅
  holds := ∅
  lastStatusByNode := ∅
  lastApplyByNodeBan := ∅

/-- `let idx = s.next_index; s.next_index = s.next_index.saturating_add(1);` -/
def bump (s : PersistedState) : PersistedState :=
  { s with nextIndex := Word.satAdd64 s.nextIndex 1 }

@[simp] theorem bump_bans (s : PersistedState) : s.bump.bans = s.bans := rfl

@[simp] theorem bump_holds (s : PersistedState) : s.bump.holds = s.holds := rfl

/-- `if let Some(entry) = s.bans.remove(&ban_id) { s.ban_by_key.remove(..) }` -/
def removeBan (T : IpText) (s : PersistedState) (banId : Text) : PersistedState :=
  match s.bans.lookup banId with
  | none => s
  | some entry => { s with
      bans := s.bans.erase banId
      banByKey := s.banByKey.erase (entry.key.toCidrString T) }

@[simp] theorem removeBan_nextIndex (T : IpText) (s : PersistedState) (banId : Text) :
    (s.removeBan T banId).nextIndex = s.nextIndex := by
  unfold removeBan; split <;> rfl

@[simp] theorem removeBan_holds (T : IpText) (s : PersistedState) (banId : Text) :
    (s.removeBan T banId).holds = s.holds := by
  unfold removeBan; split <;> rfl

/-- The id of the ban on this key: the existing one, else the random `id`, which is recorded. -/
def takeBanId (s : PersistedState) (keyCidr id : Text) : Text × PersistedState :=
  match s.banByKey.lookup keyCidr with
  | some existing => (existing, s)
  | none => (id, { s with banByKey := s.banByKey.insert keyCidr id })

@[simp] theorem takeBanId_bans (s : PersistedState) (keyCidr id : Text) :
    (s.takeBanId keyCidr id).2.bans = s.bans := by
  unfold takeBanId; split <;> rfl

@[simp] theorem takeBanId_nextIndex (s : PersistedState) (keyCidr id : Text) :
    (s.takeBanId keyCidr id).2.nextIndex = s.nextIndex := by
  unfold takeBanId; split <;> rfl

@[simp] theorem takeBanId_holds (s : PersistedState) (keyCidr id : Text) :
    (s.takeBanId keyCidr id).2.holds = s.holds := by
  unfold takeBanId; split <;> rfl

/-- The ids `sbc_raftd` considers expired at `now`. -/
def expiredIds (s : PersistedState) (now : Nat) : List Text :=
  (s.bans.entries.filter fun b => b.2.expiresAtUnix != 0 && decide (b.2.expiresAtUnix ≤ now)).map
    Sigma.fst

end PersistedState

/-- What the environment decides in one section: the clock, a fresh random id, and the order in
which the map of bans is iterated. -/
structure RaftdEnv where
  now : Nat := 0
  randHex16 : Text := []
  order : List Text := []
deriving DecidableEq, Repr

/-- `handle_admin_conn`, the lock section. `none` is a request that fails to parse inside it
(`?`): the connection ends without an answer. -/
def adminSection (T : IpText) (env : RaftdEnv) (s : PersistedState) :
    AdminReq → Option (AdminResp × Option EventEnvelope) × PersistedState
  | .upsertBan key ttlS createdBy reason =>
    match IpPrefix.parseCidr T key with
    | none => (none, s)
    | some keyPfx =>
      let keyCidr := keyPfx.toCidrString T
      -- ttl_s=0 means "never expires" (until explicitly deleted)
      let expiresAtUnix := if ttlS = 0 then 0 else Word.satAdd64 env.now ttlS
      let (banId, s) := s.takeBanId keyCidr env.randHex16
      let entry : BanEntry :=
        { banId, key := keyPfx, createdAtUnix := env.now, createdBy, reason, expiresAtUnix }
      let s := { s with bans := s.bans.insert banId entry }
      let idx := s.nextIndex
      (some (.okBan idx entry, some ⟨idx, .banUpserted entry⟩), s.bump)
  | .deleteBan banId =>
    let s := s.removeBan T banId
    let idx := s.nextIndex
    (some (.ok idx, some ⟨idx, .banDeleted banId⟩), s.bump)
  | .upsertLegalHold name createdBy reason =>
    let nameLc := Text.toAsciiLowercase (Text.trim name)
    if nameLc.isEmpty then (some (.err "missing name".toList, none), s)
    else
      let entry : LegalHoldEntry := { nameLc, createdAtUnix := env.now, createdBy, reason }
      let s := { s with holds := s.holds.insert nameLc entry }
      let idx := s.nextIndex
      (some (.okLegalHold idx entry, some ⟨idx, .legalHoldUpserted entry⟩), s.bump)
  | .deleteLegalHold name =>
    let nameLc := Text.toAsciiLowercase (Text.trim name)
    if nameLc.isEmpty then (some (.err "missing name".toList, none), s)
    else
      let s := { s with holds := s.holds.erase nameLc }
      let idx := s.nextIndex
      (some (.ok idx, some ⟨idx, .legalHoldDeleted nameLc⟩), s.bump)
  | .reportEnforcementStatus status =>
    let s := { s with lastStatusByNode := s.lastStatusByNode.insert status.nodeId status }
    let idx := s.nextIndex
    (some (.ok idx, some ⟨idx, .enforcementStatus status⟩), s.bump)
  | .reportBanApplyResult report =>
    let k := report.nodeId ++ ':' :: report.banId ++ ':' :: report.op
    let s := { s with lastApplyByNodeBan := s.lastApplyByNodeBan.insert k report }
    let idx := s.nextIndex
    (some (.ok idx, some ⟨idx, .banApplyResult report⟩), s.bump)
  | .getState =>
    (some (.okState (s.nextIndex - 1) (Table.values s.bans) (Table.values s.holds), none), s)

/-- The body of the reaper's loop over the expired ids. -/
def reapOne (T : IpText) (acc : List EventEnvelope × PersistedState) (banId : Text) :
    List EventEnvelope × PersistedState :=
  let s := acc.2.removeBan T banId
  (acc.1 ++ [⟨s.nextIndex, .banDeleted banId⟩], s.bump)

/-- The reaper's lock section, over the expired ids in iteration order. -/
def reapSection (T : IpText) (s : PersistedState) (ids : List Text) :
    List EventEnvelope × PersistedState :=
  ids.foldl (reapOne T) ([], s)

/-- The shared state of the server: the tables, and the events sent on the broadcast channel so
far. A subscriber that never lags receives what is sent after it subscribes, in this order. -/
structure Raftd where
  st : PersistedState
  sent : List EventEnvelope

inductive RaftdOp where
  /-- The lock section of `handle_admin_conn`. -/
  | mutate (req : AdminReq)
  /-- The lock section of the reaper. -/
  | reap
  /-- `tx.send(ev)`. -/
  | send (ev : EventEnvelope)
deriving DecidableEq, Repr

abbrev RaftdOp.Res : RaftdOp → Type
  | .mutate _ => Option (AdminResp × Option EventEnvelope)
  | .reap => List EventEnvelope
  | .send _ => Unit

abbrev RaftdProg := Program RaftdOp RaftdOp.Res (Option AdminResp)

/-- `handle_admin_conn` on a line that parsed: mutate under the lock, broadcast outside it, answer.
The second lock section of the source (`drop(s)` at once) reads and writes nothing. -/
def handleAdminConn (req : AdminReq) : RaftdProg :=
  .act (.mutate req) fun
    | none => .ret none
    | some (resp, none) => .ret (some resp)
    | some (resp, some ev) => .act (.send ev) fun _ => .ret (some resp)

/-- `for ev in expired_events { let _ = tx.send(ev); }` -/
def sendAll : List EventEnvelope → RaftdProg
  | [] => .ret none
  | ev :: evs => .act (.send ev) fun _ => sendAll evs

/-- One round of the TTL reaper. -/
def reaperTick : RaftdProg := .act .reap sendAll

inductive RaftdTask where
  | conn (n : Nat)
  | reaper
deriving DecidableEq, Repr

inductive RaftdCall where
  /-- A new admin connection sends this request. -/
  | admin (req : AdminReq)
  /-- The reaper wakes up. -/
  | tick
deriving DecidableEq, Repr

def raftdEffect (T : IpText) : (o : RaftdOp) → RaftdEnv → Raftd → Option (o.Res × Raftd)
  | .mutate req, env, w =>
    let (r, st) := adminSection T env w.st req
    some (r, { w with st })
  | .reap, env, w =>
    if env.order.isPerm (w.st.expiredIds env.now) then
      let (evs, st) := reapSection T w.st env.order
      some (evs, { w with st })
    else none
  | .send ev, _, w => some ((), { w with sent := w.sent ++ [ev] })

def raftdStart : RaftdTask → RaftdCall → Option RaftdProg → Option RaftdProg
  | .conn _, .admin req, none => some (handleAdminConn req)
  | .reaper, .tick, none => some reaperTick
  | .reaper, .tick, some (.ret _) => some reaperTick
  | _, _, _ => none

/-- `sbc_raftd`: any number of admin connections, and the reaper. -/
def raftd (T : IpText) : Tasks Raftd RaftdTask RaftdEnv RaftdCall RaftdOp RaftdOp.Res
    (Option AdminResp) where
  effect := raftdEffect T
  start := raftdStart

abbrev RaftdPool := Pool Raftd RaftdTask RaftdOp RaftdOp.Res (Option AdminResp)

/-- The server as it starts, with the state it loaded. -/
def RaftdPool.init (st : PersistedState) : RaftdPool where
  shared := { st, sent := [] }
  task := fun _ => none

end Slopmud.Sbc
