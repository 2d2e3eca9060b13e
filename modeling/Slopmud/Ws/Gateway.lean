import Mathlib.Logic.Function.Basic
import Slopmud.Lib.Table
import Slopmud.Proto.Shard

/-!
# The websocket gateway

`handle_ws_conn` runs once for each client, and shares with the shard manager the
map `clients` and the channel of requests. A handler does its work section by
section, each a lock section or a send, and waits for the next message when they
are done; any other handler and the manager may run in between. What the gateway
does that a client or the shard can see is recorded in `trace`.
-/

namespace Slopmud.Ws

open Slopmud.Proto

inductive Mode where
  | json
  | fbs
deriving DecidableEq, Repr

inductive JsonIn where
  | attach (name : Text) (isBot : Bool) (race cls sex pronouns : Option Text)
  | input (line : Text)
  | detach
  | ping
deriving DecidableEq, Repr

inductive JsonOut where
  | hello (mode : Text)
  | attached (session : Text)
  | output (text : Text)
  | err (text : Text)
  | pong
deriving DecidableEq, Repr

inductive Outbound where
  | jsonText (m : JsonOut)
  | fbsBin (t : UInt8) (session : SessionId) (body : Bytes)
deriving DecidableEq, Repr

structure ShardMsg where
  t : UInt8
  session : SessionId
  body : Bytes
deriving DecidableEq, Repr

/-- `tx` is the connection whose writer task gets what is sent. -/
structure ClientInfo where
  mode : Mode
  tx : Nat
  attachBody : Bytes
deriving DecidableEq, Repr

/-- `{:02x}` of a byte -/
def hexByte (b : UInt8) : Text := [Nat.digitChar (b.toNat / 16), Nat.digitChar (b.toNat % 16)]

def sidHex (s : SessionId) : Text := s.toBeBytes.flatMap hexByte

/-- What a client sends. A text is what `serde_json` makes of it, a binary message the fields of its
frame. -/
inductive Message where
  | text (j : Option JsonIn)
  | binary (t : UInt8) (session body : Option Bytes)
  /-- Pings, pongs and raw frames. -/
  | other
  /-- A close message, an error of the stream, or its end. -/
  | close
deriving DecidableEq, Repr

/-- A section of a handler that others can see. -/
inductive Section where
  | insert (sid : SessionId) (ci : ClientInfo)
  | remove (sid : SessionId)
  | send (msg : ShardMsg)
  | reply (out : Outbound)
deriving DecidableEq, Repr

/-! ## One connection -/

/-- The variables of `handle_ws_conn`, and the sections it still has to go through before it reads
the next message. -/
structure WsConn where
  mode : Mode
  session : Option SessionId
  todo : List Section
  /-- It still reads messages. -/
  reading : Bool
deriving DecidableEq, Repr

namespace WsConn

def new : WsConn := ⟨.json, none, [.reply (.jsonText (.hello "json".toList))], true⟩

/-- The sections of an attach. -/
def attachSections (k : Nat) (mode : Mode) (sid : SessionId) (body : Bytes) : List Section :=
  [.insert sid ⟨mode, k, body⟩, .send ⟨reqAttach, sid, body⟩]

/-- The sections that let go of a session. -/
def detachSections (sid : SessionId) : List Section := [.remove sid, .send ⟨reqDetach, sid, []⟩]

/-- A JSON message; `drawn` is what `new_session_id` returns. -/
def receiveJson (k : Nat) (drawn : SessionId) (c : WsConn) : JsonIn → WsConn
  | .attach name isBot race cls sex pronouns =>
    if c.session.isSome then c
    else
      match shardAttachBodyWithBuild isBot (Text.trim name) race cls sex pronouns with
      -- the task panics, before it has told anybody about the session
      | none => { c with reading := false }
      | some body =>
        { c with
          session := some drawn
          todo := attachSections k .json drawn body
            ++ [Section.reply (.jsonText (.attached (sidHex drawn)))] }
  | .input line =>
    match c.session with
    | none => c
    | some sid => { c with todo := [.send ⟨reqInput, sid, Utf8.encode line⟩] }
  | .detach =>
    match c.session with
    | none => c
    | some sid => { c with session := none, todo := detachSections sid }
  | .ping => { c with todo := [.reply (.jsonText .pong)] }

/-- A frame; the session id is the one in the frame. -/
def receiveFrame (k : Nat) (t : UInt8) (session body : Option Bytes) (c : WsConn) : WsConn :=
  -- the first binary message flips the connection to fbs mode
  let c := { c with mode := Mode.fbs }
  match session with
  | none => c
  | some v =>
    if v.length ≠ 16 then c
    else
      let sid := SessionId.fromBeBytes v
      let body := body.getD []
      if c.session.isNone then
        -- the first message must be attach
        if t ≠ reqAttach then c
        else { c with session := some sid, todo := attachSections k .fbs sid body }
      else { c with todo := [.send ⟨t, sid, body⟩] }

/-- One turn of the loop, up to the sections it leads to. -/
def receive (k : Nat) (drawn : SessionId) (c : WsConn) : Message → WsConn
  | .text j =>
    if c.mode ≠ .json then c
    else
      match j with
      | none => { c with todo := [.reply (.jsonText (.err "bad json".toList))] }
      | some j => receiveJson k drawn c j
  | .binary t session body => receiveFrame k t session body c
  | .other => c
  | .close =>
    match c.session with
    | none => { c with reading := false }
    | some sid => { c with session := none, todo := detachSections sid, reading := false }

end WsConn

/-! ## The gateway -/

/-- Where `shard_manager_task` is. -/
inductive Manager where
  | down
  /-- It writes the attaches of the snapshot. -/
  | reattaching (left : List (SessionId × ClientInfo))
  | up
  /-- `route_resp` has looked the client up, and sends. -/
  | delivering (tx : Nat) (session : SessionId) (out : Outbound)
deriving DecidableEq, Repr

/-- What is seen of the gateway. -/
inductive Event where
  /-- Connection `k` puts its entry into `clients`, in the place of one of `replaced`. -/
  | insert (k : Nat) (sid : SessionId) (replaced : Option Nat)
  /-- A request is written to the shard, on behalf of connection `k`. -/
  | write (k : Nat) (t : UInt8) (sid : SessionId)
  /-- Connection `k` is sent output of a session. -/
  | deliver (k : Nat) (sid : SessionId)
deriving DecidableEq, Repr

structure Gateway where
  conns : Nat → WsConn
  clients : Table SessionId ClientInfo
  /-- All requests the handlers have sent to the manager, with the sender's connection. -/
  sent : List (Nat × ShardMsg)
  /-- How many of them the manager has received. -/
  taken : Nat
  manager : Manager
  outbox : Nat → List Outbound
  trace : List Event
  /-- The session ids that connections have taken for theirs. -/
  claimed : List (Nat × SessionId)

inductive GatewayMove where
  | receive (k : Nat) (drawn : SessionId) (m : Message)
  /-- The next section of a handler. -/
  | advance (k : Nat)
  | connect
  | reattach
  /-- The manager takes a request from the channel and writes it. -/
  | take
  | resp (r : ShardResp)
  | deliver
  | lost
deriving DecidableEq, Repr

namespace Gateway

def start : Gateway := ⟨fun _ => .new, ∅, [], 0, .down, fun _ => [], [], []⟩

/-- The requests on their way to the manager. -/
def queue (s : Gateway) : List (Nat × ShardMsg) := s.sent.drop s.taken

/-- What a turn of the loop claims. -/
def newClaim (k : Nat) (c c' : WsConn) : List (Nat × SessionId) :=
  if c.session.isNone then (c'.session.map fun sid => (k, sid)).toList else []

def perform (s : Gateway) (k : Nat) : Section → Gateway
  | .insert sid ci =>
    { s with
      clients := s.clients.insert sid ci
      trace := s.trace ++ [Event.insert k sid ((s.clients.lookup sid).map ClientInfo.tx)] }
  | .remove sid => { s with clients := s.clients.erase sid }
  | .send msg => { s with sent := s.sent ++ [(k, msg)] }
  | .reply out => { s with outbox := Function.update s.outbox k (s.outbox k ++ [out]) }

/-- The answer to a client, in its mode. -/
def render (session : SessionId) (mode : Mode) : ShardResp → Outbound
  | .output _ line =>
    match mode with
    | .json => .jsonText (.output (Utf8.decodeLossy line))
    | .fbs => .fbsBin respOutput session line
  | .err _ msg =>
    match mode with
    | .json => .jsonText (.err (Utf8.decodeLossy msg))
    | .fbs => .fbsBin respErr session msg

/-- The session a response is for. -/
def respSession : ShardResp → SessionId
  | .output session _ => session
  | .err session _ => session

/-- The lookup of `route_resp`. -/
def routeResp (s : Gateway) (resp : ShardResp) : Gateway :=
  match s.clients.lookup (respSession resp) with
  | none => s
  | some ci =>
    { s with manager := .delivering ci.tx (respSession resp) (render (respSession resp) ci.mode resp) }

def step (s : Gateway) : GatewayMove → Option Gateway
  | .receive k drawn m =>
    let c := s.conns k
    if c.reading ∧ c.todo = [] then
      let c' := c.receive k drawn m
      some { s with
        conns := Function.update s.conns k c'
        claimed := s.claimed ++ newClaim k c c' }
    else none
  | .advance k =>
    match (s.conns k).todo with
    | [] => none
    | sec :: rest =>
      some { s.perform k sec with conns := Function.update s.conns k { s.conns k with todo := rest } }
  | .connect =>
    match s.manager with
    | .down =>
      -- re-attach all live clients
      some { s with manager := .reattaching (s.clients.entries.map fun e => (e.1, e.2)) }
    | _ => none
  | .reattach =>
    match s.manager with
    | .reattaching [] => some { s with manager := .up }
    | .reattaching ((sid, ci) :: left) =>
      some { s with
        manager := .reattaching left
        trace := s.trace ++ [Event.write ci.tx reqAttach sid] }
    | _ => none
  | .take =>
    match s.manager, s.queue with
    | .up, (k, msg) :: _ =>
      some { s with taken := s.taken + 1, trace := s.trace ++ [Event.write k msg.t msg.session] }
    | _, _ => none
  | .resp r =>
    match s.manager with
    | .up => some (s.routeResp r)
    | _ => none
  | .deliver =>
    match s.manager with
    | .delivering tx session out =>
      some { s with
        manager := .up
        outbox := Function.update s.outbox tx (s.outbox tx ++ [out])
        trace := s.trace ++ [Event.deliver tx session] }
    | _ => none
  | .lost =>
    match s.manager with
    | .up => some { s with manager := .down }
    | _ => none

end Gateway

end Slopmud.Ws
