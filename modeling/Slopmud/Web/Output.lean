import Slopmud.Web.Session

/-!
# What a websocket is sent

A websocket has a channel of messages, which its writer task empties into the socket. Three
tasks put messages in: the TCP reader (`deliver_output`), `attach`, which flushes what was
buffered when it installed the websocket, and the websocket's own reader, with its pongs. The
first two learn what to send in a lock section of the session and send it after that section.
-/

namespace Slopmud.Web

inductive WsMessage where
  | text (s : Bytes)
  | binary (b : Bytes)
  | pong (v : Bytes)
deriving DecidableEq, Repr

/-- The channel of one websocket. -/
structure Channel where
  /-- All messages that were put in. -/
  queue : List WsMessage
  /-- The writer task still takes them out. -/
  isOpen : Bool
  /-- The chunks that `attach` has still to flush. -/
  backlog : List Bytes
  /-- The output that was buffered when the websocket was installed. -/
  buffered : Bytes
  /-- The output received since then while it was attached. -/
  live : Bytes
deriving DecidableEq, Repr

namespace Channel

/-- The channel of a websocket that has not been installed. -/
def none : Channel := ⟨[], false, [], [], []⟩

/-- `tokio::sync::mpsc::channel` in `attach`, with the snapshot to flush. -/
def install (buffered : List Bytes) : Channel := ⟨[], true, buffered, buffered.flatten, []⟩

/-- A send fails when the receiver is gone. -/
def send (c : Channel) (m : WsMessage) : Channel :=
  if c.isOpen then { c with queue := c.queue ++ [m] } else c

/-- The loop of `attach` sends its next chunk, or ends because it cannot. -/
def flush (c : Channel) : Option Channel :=
  match c.backlog with
  | [] => .none
  | b :: rest =>
    if c.isOpen then some { c with queue := c.queue ++ [WsMessage.binary b], backlog := rest }
    else some { c with backlog := [] }

def messageOutput : WsMessage → Bytes
  | .binary b => b
  | .text _ | .pong _ => []

/-- The output among the messages. -/
def output (c : Channel) : Bytes := c.queue.flatMap messageOutput

end Channel

/-- A session with the channels of its websockets. -/
structure WebStream where
  session : WebSession
  channels : Nat → Channel
  /-- The TCP reader is about to send this. -/
  sending : Option (Nat × Bytes)
  /-- `mark_tcp_dead` is about to tell this websocket. -/
  telling : Option Nat

inductive StreamMove where
  /-- A lock section of the session. -/
  | lock (m : WebMove)
  /-- The send of `deliver_output`. -/
  | sendLive
  /-- The next send of the loop in `attach`. -/
  | flush (k : Nat)
  /-- The send of `mark_tcp_dead`. -/
  | tellDead
  /-- The websocket's reader answers a ping. -/
  | pong (k : Nat) (v : Bytes)
  /-- The websocket's writer task ends. -/
  | hangUp (k : Nat)
deriving DecidableEq, Repr

namespace WebStream

def connect (now : Nat) : WebStream := ⟨.connect now, fun _ => .none, none, none⟩

def setChannel (w : WebStream) (k : Nat) (c : Channel) : WebStream :=
  { w with channels := Function.update w.channels k c }

/-- `ERROR: session closed\r\n` -/
def sessionClosed : Bytes := Utf8.encode "ERROR: session closed\r\n".toList

/-- What a task takes from its lock section. -/
def afterLock (w : WebStream) (session : WebSession) : WebMove → Option WebStream
  | .install k =>
    some { w.setChannel k (.install w.session.st.bufferSnapshot) with session }
  | .deliver data =>
    -- one task reads the TCP stream, and sends before it reads on
    if w.sending.isSome then none
    else
      match (w.session.st.deliverOutput data).1 with
      | none => some { w with session }
      | some att =>
        let c := w.channels att.ws
        some { w.setChannel att.ws { c with live := c.live ++ data } with
          session
          sending := some (att.ws, data) }
  | .markTcpDead now =>
    match (w.session.st.markTcpDead now).1 with
    | none => some { w with session }
    | some att => some { w with session, telling := some att.ws }
  | _ => some { w with session }

def step (w : WebStream) : StreamMove → Option WebStream
  | .lock m => (w.session.step m).bind fun session => w.afterLock session m
  | .sendLive =>
    match w.sending with
    | none => none
    | some (k, data) => some { w.setChannel k ((w.channels k).send (.binary data)) with sending := none }
  | .flush k => (w.channels k).flush.map (w.setChannel k)
  | .tellDead =>
    match w.telling with
    | none => none
    | some k => some { w.setChannel k ((w.channels k).send (.text sessionClosed)) with telling := none }
  | .pong k v => some (w.setChannel k ((w.channels k).send (.pong v)))
  | .hangUp k => some (w.setChannel k { w.channels k with isOpen := false })

end WebStream

end Slopmud.Web
