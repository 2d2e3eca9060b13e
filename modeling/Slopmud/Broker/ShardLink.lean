import Mathlib.Logic.Function.Basic
import Slopmud.Broker.Sections

/-!
# The link to the shard

`shard_manager_task` keeps a connection to the shard and feeds it from the
channel that all handlers write to. When the connection breaks nobody is told:
writes go nowhere until the manager reads the end of the stream, and while the
shard cannot be reached what is in the channel is thrown away. Every connection
starts with an attach of all sessions that are listed at that moment. A handler
changes the list first and writes to the channel later.
-/

namespace Slopmud.Broker

open Slopmud.Shard

/-- A session as it is listed: under a name that `sanitize_name` has made. The handlers list no
others (`listed_named`). -/
structure ListedSession (Auth : Type) where
  info : SessionInfo Auth
  named : IsName info.name

/-- Where the handler of a connection is. -/
inductive Phase (Auth : Type) where
  | login
  /-- The session is listed, the `Attach` not sent yet. -/
  | attaching (r : AttachReq Auth)
  | inWorld
  /-- The session is no longer listed, the `Detach` not sent yet. -/
  | detaching
  | ended
deriving DecidableEq, Repr

/-- What a handler is about to send. -/
def Phase.owed {Auth : Type} (k : SessionId) : Phase Auth → List (ShardMsg Auth)
  | .attaching r => [.attach r]
  | .detaching => [.detach k]
  | _ => []

/-- Where `shard_manager_task` is. -/
inductive ManagerPhase (Auth : Type) where
  /-- It has no connection. -/
  | offline
  /-- It has a connection, and has not read the sessions yet. -/
  | connected
  /-- It writes the attaches of the snapshot. -/
  | reattaching (left : List (ShardMsg Auth))
  /-- The connection loop. -/
  | serving
deriving DecidableEq, Repr

/-- What the manager is about to write. -/
def ManagerPhase.owed {Auth : Type} : ManagerPhase Auth → List (ShardMsg Auth)
  | .reattaching left => left
  | _ => []

structure ShardLink (Raw Auth : Type) where
  handler : SessionId → Phase Auth
  sessions : Table SessionId (ListedSession Auth)
  /-- The channel to the manager. -/
  queue : List (ShardMsg Auth)
  manager : ManagerPhase Auth
  /-- The manager's connection still carries what is written to it. -/
  alive : Bool
  /-- The shard has accepted the manager's connection. -/
  accepted : Bool
  /-- What was written to the connection and the shard has not read. -/
  socket : List (ShardMsg Auth)
  world : World Raw

inductive LinkMove (Raw Auth : Type) where
  /-- A handler lists its session. -/
  | login (k : SessionId) (s : ListedSession Auth)
  /-- A handler takes its session off the list. -/
  | logout (k : SessionId)
  /-- A handler sends what it owes to the manager. -/
  | send (k : SessionId)
  | input (k : SessionId) (line : Text)
  /-- `TcpStream::connect` succeeds. -/
  | connect
  /-- The shard turns to the new connection, whatever the ones before have left in the players
  file. -/
  | accept (readOk : Bool) (rooms : Rooms) (file : Option Raw)
  /-- The manager reads the sessions. -/
  | snapshot
  /-- The manager writes an attach of the snapshot, or is done with them. -/
  | reattach
  /-- The manager takes a message from the channel and writes it. -/
  | forward
  /-- While offline, the manager takes a message from the channel and drops it. -/
  | drain
  /-- The connection breaks, or the shard gives it up. -/
  | lose
  /-- The manager reads the end of the stream, or an error. -/
  | notice
  /-- The shard reads a request and handles it. -/
  | serve (saveOk : Bool) (O : SetOrder)
  /-- Anything else that happens in the shard. -/
  | play (m : ShardMove Auth)

namespace ShardLink

variable {Raw Auth : Type} (cfg : BrokerConfig Raw Auth)

/-- Nothing is connected and nobody is there. -/
def start (world : World Raw) : ShardLink Raw Auth where
  handler := fun _ => .login
  sessions := ∅
  queue := []
  manager := .offline
  alive := false
  accepted := false
  socket := []
  world := world

/-- `shard_tx.send(msg).await` waits while the channel is full. -/
def enqueue (s : ShardLink Raw Auth) (msg : ShardMsg Auth) : Option (ShardLink Raw Auth) :=
  if s.queue.length < ShardSide.channelSize then some { s with queue := s.queue ++ [msg] } else none

/-- `let _ = write_req(..).await`: a write to a broken connection is lost, and nobody notices. -/
def write (s : ShardLink Raw Auth) (msg : ShardMsg Auth) : ShardLink Raw Auth :=
  if s.alive then { s with socket := s.socket ++ [msg] } else s

/-- The attaches of all listed sessions. -/
def attaches (s : ShardLink Raw Auth) : List (ShardMsg Auth) :=
  s.sessions.entries.map fun e => .attach (attachBody cfg.authLen e.1 e.2.info)

/-- `handle_broker` handles one request. A line that is no party command does what it does in
moves of its own. -/
def handle (saveOk : Bool) (O : SetOrder) (w : World Raw) : ShardMsg Auth → World Raw
  | .attach r => w.attach cfg.auth cfg.players O saveOk r
  | .detach session => w.detachSession cfg.players O saveOk session
  | .input session line => (shardStep cfg.players cfg.auth w (.input O session line)).getD w

def step (s : ShardLink Raw Auth) : LinkMove Raw Auth → Option (ShardLink Raw Auth)
  | .login k l =>
    match s.handler k with
    | .login => some { s with
        sessions := s.sessions.insert k l
        handler := Function.update s.handler k (.attaching (attachBody cfg.authLen k l.info)) }
    | _ => none
  | .logout k =>
    match s.handler k with
    | .inWorld => some { s with
        sessions := s.sessions.erase k
        handler := Function.update s.handler k .detaching }
    | _ => none
  | .send k =>
    match s.handler k with
    | .attaching r =>
      { s with handler := Function.update s.handler k .inWorld }.enqueue (.attach r)
    | .detaching =>
      { s with handler := Function.update s.handler k .ended }.enqueue (.detach k)
    | _ => none
  | .input k line =>
    match s.handler k with
    | .inWorld => s.enqueue (.input k line)
    | _ => none
  | .connect =>
    match s.manager with
    | .offline =>
      some { s with manager := .connected, alive := true, accepted := false, socket := [] }
    | _ => none
  | .accept readOk rooms file =>
    if s.accepted then none
    else some { s with accepted := true, world := World.new cfg.players readOk rooms file }
  | .snapshot =>
    match s.manager with
    | .connected => some { s with manager := .reattaching (s.attaches cfg) }
    | _ => none
  | .reattach =>
    match s.manager with
    | .reattaching [] => some { s with manager := .serving }
    | .reattaching (msg :: left) => some ({ s with manager := .reattaching left }.write msg)
    | _ => none
  | .forward =>
    match s.manager, s.queue with
    | .serving, msg :: queue => some ({ s with queue }.write msg)
    | _, _ => none
  | .drain =>
    match s.manager, s.queue with
    | .offline, _ :: queue => some { s with queue }
    | _, _ => none
  | .lose => some { s with alive := false }
  | .notice =>
    match s.manager with
    | .serving => if s.alive then none else some { s with manager := .offline }
    | _ => none
  | .serve saveOk O =>
    if s.accepted then
      match s.socket with
      | [] => none
      | msg :: socket => some { s with socket, world := handle cfg saveOk O s.world msg }
    else none
  | .play m =>
    if ShardSide.isPlay m then
      (shardStep cfg.players cfg.auth s.world m).map fun world => { s with world }
    else none

/-- The connection is up on both ends and the re-attach is over, no handler is between its two
steps, and nothing is on its way. -/
structure Settled (s : ShardLink Raw Auth) : Prop where
  up : s.manager = .serving ∧ s.alive = true ∧ s.accepted = true
  handlers : ∀ k, (s.handler k).owed k = []
  queue : s.queue = []
  socket : s.socket = []

end ShardLink

end Slopmud.Broker
