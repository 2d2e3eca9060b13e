import Slopmud.Sbc.Raftd

/-!
# sbc_raftd and its state file

A background task copies the state under the lock and writes the copy to a file afterwards. A
process that starts loads what the file holds, and starts empty when there is no file.
-/

namespace Slopmud.Sbc

structure RaftdHost where
  pool : RaftdPool
  /-- What the persister has copied and not written yet. -/
  snapshot : Option PersistedState
  /-- The content of the file at `state_path`. -/
  file : Option PersistedState

inductive HostMove where
  /-- An admin connection or the reaper takes its turn. -/
  | task (m : Move RaftdTask RaftdEnv RaftdCall)
  /-- `let snapshot = { st.lock().await.clone() };` -/
  | copy
  /-- `atomic_write_json` -/
  | persist (saveOk : Bool)
  /-- The process ends, and another one starts. -/
  | restart

namespace RaftdHost

def init : RaftdHost := ⟨.init .empty, none, none⟩

def st (w : RaftdHost) : PersistedState := w.pool.shared.st

def step (T : IpText) (w : RaftdHost) : HostMove → Option RaftdHost
  | .task m => (Pool.step (raftd T) w.pool m).map fun pool => { w with pool }
  | .copy => some { w with snapshot := some w.st }
  | .persist saveOk =>
    match w.snapshot with
    | none => none
    | some s => some { w with snapshot := none, file := if saveOk then some s else w.file }
  | .restart => some { w with pool := .init (w.file.getD .empty), snapshot := none }

end RaftdHost

/-- The id that a request takes from the random numbers: a ban on a prefix that has none yet. -/
def drawnId (T : IpText) (s : PersistedState) (env : RaftdEnv) : AdminReq → Option Text
  | .upsertBan key _ _ _ => (IpPrefix.parseCidr T key).bind fun p =>
    if (s.banByKey.lookup (p.toCidrString T)).isSome then none else some env.randHex16
  | _ => none

/-- A freshly drawn id is not in use. -/
def DrawsFresh (T : IpText) (w : RaftdHost) : HostMove → Prop
  | .task (.run t env) => ∀ req, w.pool.section? (.run t env : Move RaftdTask RaftdEnv RaftdCall)
      = some (.mutate req) → ∀ id ∈ drawnId T w.st env req, w.st.bans.lookup id = none
  | _ => True

end Slopmud.Sbc
