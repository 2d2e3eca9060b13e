import Slopmud.Broker.Handler

/-!
# The tasks of the broker

One task for every connection, which runs `handle_conn`, and any number of others:
the manager of the shard link, the admin handler, the web servers, the shard. What
those do with the shared state is a list of sections that a connection never
names; here they may come in any order, from anybody.
-/

namespace Slopmud.Broker

open Slopmud.Sbc Slopmud.Shard

inductive TaskId where
  | conn (k : ConnId)
  | other (i : Nat)
deriving DecidableEq, Repr

/-- What makes a task go on. -/
inductive Call (Auth : Type) where
  /-- The next round of a connection. -/
  | go
  /-- The next section of another task. -/
  | once (o : Section Auth)

/-- The sections that are not those of `handle_conn`. -/
def Section.ofOthers {Auth : Type} : Section Auth → Bool
  | .acct (.createIfAbsent _) => true
  | .acct (.setPassword _ _) => true
  | .acct (.grantCaps _ _) => true
  | .acct .names => true
  | .ban (.upsertChar _ _ _) => true
  | .ban (.upsertIp _ _ _) => true
  | .ban .snapshotFile => true
  | .sess (.named _) => true
  | .sess (.within _) => true
  | .sess (.tell _ _) => true
  | .sess .roster => true
  | .shard .relink => true
  | .shard .forward => true
  | .shard .offline => true
  | .shard .linkLost => true
  | .shard .managerPanics => true
  | .shard .serve => true
  | .shard (.play _) => true
  | .io (.accept _) => false
  | .io (.say _ _) => false
  | .io (.act _ _) => false
  | .io (.startOauth _) => false
  | .io (.readOauth _) => false
  | .io (.removeOauth _) => false
  | .io _ => true
  | .ask _ => true
  | .reattach => true
  | _ => false

/-- What a task returns. Only a connection that is not at its end has anything to return. -/
abbrev TaskResult (Auth : Type) := Option (Conn Auth)

variable {Raw Auth : Type} (cfg : BrokerConfig Raw Auth)

def startTask : TaskId → Call Auth → Option (Task Auth (TaskResult Auth)) →
    Option (Task Auth (TaskResult Auth))
  | .conn k, .go, none => some (Handler.greet k)
  | .conn k, .go, some (.ret (some c)) => some (Handler.round cfg k c)
  | .other _, .once o, none => if o.ofOthers then some (.act o fun _ => .ret none) else none
  | .other _, .once o, some (.ret _) => if o.ofOthers then some (.act o fun _ => .ret none) else none
  | _, _, _ => none

/-- **The broker**: what its sections do, and what its tasks are. -/
def tasks : Tasks (Shared cfg.ip Raw Auth) TaskId Env (Call Auth) (Section Auth) Section.R
    (TaskResult Auth) where
  effect o e s := s.effect cfg o e
  start := startTask cfg

/-- A state of the broker, with the sections that were run up to it. -/
abbrev BrokerPool := Pool (Traced (Shared cfg.ip Raw Auth) (Section Auth)) TaskId (Section Auth) Section.R
  (TaskResult Auth)

abbrev BrokerMove (Auth : Type) := Move TaskId Env (Call Auth)

/-- A move of the broker. -/
def brokerStep : BrokerPool cfg → BrokerMove Auth → Option (BrokerPool cfg) := Pool.step (tasks cfg).traced

/-- The broker as it starts, before the first connection. -/
def BrokerPool.init (s : Shared cfg.ip Raw Auth) : BrokerPool cfg := ⟨⟨s, []⟩, fun _ => none⟩

end Slopmud.Broker
