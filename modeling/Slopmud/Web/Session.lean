import Slopmud.Lib.Machine
import Slopmud.Lib.Utf8
import Slopmud.Lib.Word

/-!
# Web sessions

A web session of `slopmud_web` is a TCP connection to the broker that outlives
the websockets attached to it. Its state lies behind a lock; every function here
on `WebSessionState` is one lock section. `WebSession` puts one session together
with the tasks that take the lock: any number of `attach` calls, the TCP reader
and writer, and the sweeper of the manager.
-/

namespace Slopmud.Web

/-- `WEB_SESSION_BUFFER_MAX_BYTES` -/
def bufferMaxBytes : Nat := 64 * 1024

/-- The attached websocket. `ws` says which one: it stands for its sender and its cancel token. -/
structure AttachedWs where
  id : Nat
  ws : Nat
deriving DecidableEq, Repr

structure WebSessionState where
  attached : Option AttachedWs
  attachSeq : Nat
  lastDetached : Nat
  buffer : List Bytes
  bufferBytes : Nat
  tcpAlive : Bool
deriving DecidableEq, Repr

namespace WebSessionState

def new (now : Nat) : WebSessionState := ⟨none, 0, now, [], 0, true⟩

/-- The loop that drops chunks from the front while there are too many bytes. -/
def popFronts : List Bytes → Nat → List Bytes × Nat
  | [], n => if n > bufferMaxBytes then ([], 0) else ([], n)
  | front :: rest, n =>
    if n > bufferMaxBytes then popFronts rest (n - front.length) else (front :: rest, n)

def bufferPush (st : WebSessionState) (b : Bytes) : WebSessionState :=
  if b.isEmpty then st
  else
    -- clamp oversized chunks
    let b := if b.length > bufferMaxBytes then b.drop (b.length - bufferMaxBytes) else b
    let (buffer, bufferBytes) :=
      popFronts (st.buffer ++ [b]) (Word.satAdd64 st.bufferBytes b.length)
    { st with buffer, bufferBytes }

def bufferSnapshot (st : WebSessionState) : List Bytes := st.buffer

def isAlive (st : WebSessionState) : Bool := st.tcpAlive

/-- `shutdown`, where the lock could be taken at once: kick the attached websocket. -/
def shutdown (st : WebSessionState) : Option AttachedWs × WebSessionState :=
  (st.attached, { st with attached := none })

/-- `mark_tcp_dead`: the websocket to tell and to cancel. -/
def markTcpDead (st : WebSessionState) (now : Nat) : Option AttachedWs × WebSessionState :=
  if !st.tcpAlive then (none, st)
  else (st.attached, { st with tcpAlive := false, attached := none, lastDetached := now })

/-- `deliver_output`: the websocket to send the data to. -/
def deliverOutput (st : WebSessionState) (data : Bytes) : Option AttachedWs × WebSessionState :=
  let st := st.bufferPush data
  (st.attached, st)

def detachWs (st : WebSessionState) (attachId now : Nat) : WebSessionState :=
  if st.attached.any (·.id == attachId) then { st with attached := none, lastDetached := now } else st

/-- `attach`, the section that installs the websocket: its id, the websocket it replaces, and what
to flush to it. -/
def install (st : WebSessionState) (ws : Nat) :
    (Nat × Option AttachedWs × List Bytes) × WebSessionState :=
  let attachId := Word.satAdd64 st.attachSeq 1
  ((attachId, st.attached, st.bufferSnapshot),
    { st with attachSeq := attachId, attached := some ⟨attachId, ws⟩ })

/-- `sweep_once`: whether the session is to be removed. -/
def sweepable (st : WebSessionState) (idleTtl now : Nat) : Bool :=
  let idle := st.attached.isNone && decide (now - st.lastDetached ≥ idleTtl)
  let dead := !st.tcpAlive && st.attached.isNone
  idle || dead

end WebSessionState

/-- Where an `attach` call stands. -/
inductive AttachPhase where
  | idle
  /-- `is_alive` said yes. -/
  | passed
  | refused
  /-- Attached under this id; the websocket's tasks run. -/
  | installed (attachId : Nat)
  | done
deriving DecidableEq, Repr

/-- One session, the `attach` calls on it, and the manager's entry for it. -/
structure WebSession where
  st : WebSessionState
  phase : Nat → AttachPhase
  /-- The manager still has it. -/
  listed : Bool
  /-- The sweeper has put it on its list. -/
  sweeping : Bool
  /-- All output received so far. -/
  received : Bytes
  /-- The attach ids given out, in order. -/
  ids : List Nat
  /-- Which `attach` call removed which one's websocket through `detach_ws`. -/
  removals : List (Nat × Nat)

def WebSession.connect (now : Nat) : WebSession where
  st := .new now
  phase := fun _ => .idle
  listed := true
  sweeping := false
  received := []
  ids := []
  removals := []

inductive WebMove where
  /-- `attach` of websocket `k`: `is_alive`. -/
  | check (k : Nat)
  /-- `attach` of websocket `k`: the second lock section. -/
  | install (k : Nat)
  /-- The tasks of websocket `k` have ended: `detach_ws`. -/
  | detach (k now : Nat)
  | deliver (data : Bytes)
  | markTcpDead (now : Nat)
  /-- `shutdown` by whoever drops the session; `locked` says whether `try_lock` succeeds. -/
  | shutdown (locked : Bool)
  | sweep (idleTtl now : Nat)
  /-- The sweeper removes what it has put on its list, and shuts it down. -/
  | sweepRemove (locked : Bool)
deriving DecidableEq, Repr

namespace WebSession

/-- Whose websocket `detach_ws(attach_id)` removes. -/
def removes (st : WebSessionState) (attachId : Nat) : List Nat :=
  (st.attached.filter (·.id == attachId)).toList.map AttachedWs.ws

def shutdownIf (w : WebSession) (locked : Bool) : WebSession :=
  if locked then { w with st := w.st.shutdown.2 } else w

def step (w : WebSession) : WebMove → Option WebSession
  | .check k =>
    match w.phase k with
    | .idle => some { w with
        phase := Function.update w.phase k (if w.st.isAlive then .passed else .refused) }
    | _ => none
  | .install k =>
    match w.phase k with
    | .passed =>
      let (r, st) := w.st.install k
      some { w with
        st
        phase := Function.update w.phase k (.installed r.1)
        ids := w.ids ++ [r.1] }
    | _ => none
  | .detach k now =>
    match w.phase k with
    | .installed attachId => some { w with
        st := w.st.detachWs attachId now
        phase := Function.update w.phase k .done
        removals := w.removals ++ (removes w.st attachId).map fun k' => (k, k') }
    | _ => none
  | .deliver data => some { w with st := (w.st.deliverOutput data).2, received := w.received ++ data }
  | .markTcpDead now => some { w with st := (w.st.markTcpDead now).2 }
  | .shutdown locked => some (w.shutdownIf locked)
  | .sweep idleTtl now => some { w with sweeping := w.st.sweepable idleTtl now }
  | .sweepRemove locked =>
    if w.sweeping then
      let w := { w with sweeping := false }
      some (if w.listed then { w with listed := false }.shutdownIf locked else w)
    else none

end WebSession

end Slopmud.Web
