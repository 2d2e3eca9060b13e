import Mathlib.Logic.Function.Basic
import Slopmud.Lib.Machine
import Slopmud.Lib.Utf8

/-!
# The manager of the web sessions

`WebSessionManager` keeps the sessions and the lines that wait for a session in two tables
behind two locks, both by resume token. This is what it does for one valid token: its entries in
the two tables, any number of `get_or_create`, `send_or_defer` and `logout` calls, each of
their lock sections and sends a step of its own, the sweeper, and the ends of the sessions' TCP
connections. Other tokens have entries of their own.
-/

namespace Slopmud.Web

/-- A line given to `send_or_defer`, with the call it came by and the number of lock sections of
`logout` before that call. -/
structure InputLine where
  call : Nat
  epoch : Nat
  bytes : Bytes
deriving DecidableEq, Repr

/-- Where a `get_or_create` call stands. -/
inductive GetPhase where
  | idle
  /-- The table has this session; is it alive? -/
  | found (k : Nat)
  /-- It is not. -/
  | dead (k : Nat)
  | connecting
  | connected (k : Nat)
  /-- The session is in the table. -/
  | inserted (k : Nat)
  /-- The lines that waited have been taken. -/
  | flushing (k : Nat)
  | done
deriving DecidableEq, Repr

/-- Where a `send_or_defer` call stands. -/
inductive SendPhase where
  | idle
  | found (k : Nat) (line : InputLine)
  | absent (line : InputLine)
  | returned
deriving DecidableEq, Repr

/-- The sweeper. -/
inductive SweepPhase where
  | idle
  | looked (k : Nat)
  | doomed (k : Nat)
deriving DecidableEq, Repr

structure Manager where
  /-- The entry in `sessions`. -/
  listed : Option Nat
  /-- The entry in `pending_tcp_inputs`. -/
  pending : List InputLine
  nextSession : Nat
  /-- `tcp_alive` -/
  alive : Nat → Bool
  /-- The TCP writer still has the receiver of `tcp_tx`. -/
  isOpen : Nat → Bool
  /-- What was put into `tcp_tx`. -/
  queues : Nat → List Bytes
  gets : Nat → GetPhase
  sends : Nat → SendPhase
  sweep : SweepPhase
  /-- The `logout` calls between their two lock sections. -/
  leaving : Nat
  /-- How many lock sections of `logout` there have been. -/
  logouts : Nat
  /-- The lines that `get_or_create` calls have taken and not sent, with the call, in the order in
  which they were taken. -/
  taken : List (Nat × InputLine)
  /-- The lines for which `send_or_defer` has returned true. -/
  accepted : List InputLine
  /-- The lines that were queued to the live session. -/
  served : List InputLine

namespace Manager

def init : Manager where
  listed := none
  pending := []
  nextSession := 0
  alive := fun _ => false
  isOpen := fun _ => false
  queues := fun _ => []
  gets := fun _ => .idle
  sends := fun _ => .idle
  sweep := .idle
  leaving := 0
  logouts := 0
  taken := []
  accepted := []
  served := []

/-- The live session of the token. -/
def Live (w : Manager) (k : Nat) : Prop := w.listed = some k ∧ w.alive k = true

instance (w : Manager) (k : Nat) : Decidable (w.Live k) := inferInstanceAs (Decidable (_ ∧ _))

/-- `tcp_tx.send`, whose error is not looked at. -/
def queueLine (w : Manager) (k : Nat) (l : InputLine) : Manager :=
  { w with
    queues := if w.isOpen k then Function.update w.queues k (w.queues k ++ [l.bytes]) else w.queues
    served := if w.Live k then w.served ++ [l] else w.served }

/-- Remove the session from the table, if it is the one there. -/
def unlist (w : Manager) (k : Nat) : Manager :=
  if w.listed = some k then { w with listed := none } else w

def setGet (w : Manager) (g : Nat) (p : GetPhase) : Manager :=
  { w with gets := Function.update w.gets g p }

def setSend (w : Manager) (d : Nat) (p : SendPhase) : Manager :=
  { w with sends := Function.update w.sends d p }

/-- A new session. -/
def newSession (w : Manager) : Manager :=
  let k := w.nextSession
  { w with
    nextSession := k + 1
    alive := Function.update w.alive k true
    isOpen := Function.update w.isOpen k true }

end Manager

/-- The next step of a `get_or_create` call; `ok` says whether a connection can be made. -/
def Manager.getStep (w : Manager) (g : Nat) (ok : Bool) : Option Manager :=
  match w.gets g with
  | .idle =>
    match w.listed with
    | some k => some (w.setGet g (.found k))
    | none => some (w.setGet g .connecting)
  | .found k => some (w.setGet g (if w.alive k then .done else .dead k))
  | .dead k => some ((w.unlist k).setGet g .connecting)
  | .connecting => if ok then some (w.newSession.setGet g (.connected w.nextSession)) else some (w.setGet g .done)
  | .connected k =>
    match w.listed with
    -- someone raced us
    | some _ => some (w.setGet g .done)
    | none => some ({ w with listed := some k }.setGet g (.inserted k))
  | .inserted k =>
    some ({ w with pending := [], taken := w.taken ++ w.pending.map (g, ·) }.setGet g (.flushing k))
  | .flushing k =>
    match w.taken.find? fun p => p.1 = g with
    | none => some (w.setGet g .done)
    | some (_, l) => some ({ w with taken := w.taken.eraseP fun p => p.1 = g }.queueLine k l)
  | .done => none

inductive ManagerMove where
  | get (g : Nat) (ok : Bool)
  /-- `send_or_defer`: look for the session. -/
  | lookFor (d : Nat) (bytes : Bytes)
  /-- `send_or_defer`: send, or wait. -/
  | sendOrDefer (d : Nat)
  /-- `mark_tcp_dead` -/
  | tcpDead (k : Nat)
  /-- The TCP writer of a dead session ends. -/
  | writerEnds (k : Nat)
  | sweepLook
  /-- The session is idle or dead, or it is not. -/
  | sweepDecide (remove : Bool)
  | sweepRemove
  /-- `logout`, its lock section on the lines. -/
  | logoutPending
  /-- `logout`, its lock section on the sessions. -/
  | logoutSession
deriving DecidableEq, Repr

namespace Manager

def step (w : Manager) : ManagerMove → Option Manager
  | .get g ok => w.getStep g ok
  | .lookFor d bytes =>
    match w.sends d with
    | .idle =>
      -- nothing to send
      if bytes.isEmpty then some (w.setSend d .returned)
      else
        let line : InputLine := ⟨d, w.logouts, bytes⟩
        match w.listed with
        | some k => some (w.setSend d (.found k line))
        | none => some (w.setSend d (.absent line))
    | _ => none
  | .sendOrDefer d =>
    match w.sends d with
    | .found k l =>
      let w := w.queueLine k l
      some ({ w with accepted := w.accepted ++ [l] }.setSend d .returned)
    | .absent l =>
      some ({ w with pending := w.pending ++ [l], accepted := w.accepted ++ [l] }.setSend d .returned)
    | _ => none
  | .tcpDead k => some { w with alive := Function.update w.alive k false }
  | .writerEnds k =>
    if w.alive k then none else some { w with isOpen := Function.update w.isOpen k false }
  | .sweepLook =>
    match w.sweep, w.listed with
    | .idle, some k => some { w with sweep := .looked k }
    | _, _ => none
  | .sweepDecide remove =>
    match w.sweep with
    | .looked k => some { w with sweep := if remove then .doomed k else .idle }
    | _ => none
  | .sweepRemove =>
    match w.sweep with
    | .doomed k => some { w.unlist k with sweep := .idle }
    | _ => none
  | .logoutPending => some { w with pending := [], logouts := w.logouts + 1, leaving := w.leaving + 1 }
  | .logoutSession =>
    if w.leaving = 0 then none
    else some { w with listed := none, logouts := w.logouts + 1, leaving := w.leaving - 1 }

end Manager

end Slopmud.Web
