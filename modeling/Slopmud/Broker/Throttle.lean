import Mathlib.Logic.Function.Basic
import Slopmud.Lib.Machine
import Slopmud.Lib.Table
import Slopmud.Lib.Word
import Slopmud.Sbc.Core

/-!
# The login throttle

After a failure an address and a name have to wait, longer each time. An attempt at the
password prompt reads the clock and asks the throttle in one lock section, verifies the
password, and notes the outcome in another lock section, with the clock as it was read
before. A login through `WEB_AUTH` verifies the password and does neither. Times are in
nanoseconds.
-/

namespace Slopmud.Broker

open Slopmud.Sbc (IpAddr)

namespace Throttle

/-- `LOGIN_BACKOFF_BASE` -/
def backoffBase : Nat := 1000000000

/-- `LOGIN_BACKOFF_MAX` -/
def backoffMax : Nat := 30 * 1000000000

/-- `LOGIN_BACKOFF_RESET_AFTER` -/
def resetAfter : Nat := 600 * 1000000000

/-- `LOGIN_THROTTLE_MAX_IPS` -/
def maxIps : Nat := 2048

/-- `LOGIN_THROTTLE_MAX_NAMES` -/
def maxNames : Nat := 2048

/-- `backoff_delay` -/
def backoffDelay (failures : Nat) : Nat :=
  -- 1s, 2s, 4s, ... capped
  let pow := min (failures - 1) 16
  min (backoffBase * 2 ^ pow) backoffMax

structure ThrottleEntry where
  failures : Nat
  lastFailure : Nat
  nextAllowed : Nat
deriving DecidableEq, Repr

structure LoginThrottle where
  byIp : Table IpAddr ThrottleEntry
  byName : Table Text ThrottleEntry

/-- An entry that is new enough. -/
def fresh (now : Nat) (e : ThrottleEntry) : Bool := decide (now - e.lastFailure ≤ resetAfter)

/-- An entry after one more failure. -/
def ThrottleEntry.fail (e : Option ThrottleEntry) (now : Nat) : ThrottleEntry :=
  let failures := Word.satAdd32 ((e.map ThrottleEntry.failures).getD 0) 1
  ⟨failures, now, now + backoffDelay failures⟩

/-- How long an entry says to wait. -/
def waitFor (now : Nat) : Option ThrottleEntry → Nat
  | none => 0
  | some e => if now < e.nextAllowed then e.nextAllowed - now else 0

namespace LoginThrottle

def empty : LoginThrottle := ⟨∅, ∅⟩

/-- The entries that are not too old. -/
def retainFresh (t : LoginThrottle) (now : Nat) : LoginThrottle :=
  ⟨t.byIp.retain fun _ e => fresh now e, t.byName.retain fun _ e => fresh now e⟩

/-- The safety caps: is a table to be cleared? -/
def tooManyNames (t : LoginThrottle) : Bool := decide (maxNames < t.byName.entries.length)

def tooManyIps (t : LoginThrottle) : Bool := decide (maxIps < t.byIp.entries.length)

def prune (t : LoginThrottle) (now : Nat) : LoginThrottle :=
  let t := t.retainFresh now
  let t := if t.tooManyNames then { t with byName := ∅ } else t
  if t.tooManyIps then { t with byIp := ∅ } else t

/-- `wait`, after the prune. -/
def waitTime (t : LoginThrottle) (ip : IpAddr) (name : Text) (now : Nat) : Nat :=
  let wait := waitFor now (t.byIp.lookup ip)
  if name.isEmpty then wait else max wait (waitFor now (t.byName.lookup name))

def wait (t : LoginThrottle) (ip : IpAddr) (name : Text) (now : Nat) : Nat × LoginThrottle :=
  let t := t.prune now
  (t.waitTime ip name now, t)

def noteFailure (t : LoginThrottle) (ip : IpAddr) (name : Text) (now : Nat) : Nat × LoginThrottle :=
  let t := t.prune now
  let byIp := ThrottleEntry.fail (t.byIp.lookup ip) now
  let t := { t with byIp := t.byIp.insert ip byIp }
  let ipDelay := backoffDelay byIp.failures
  if name.isEmpty then (ipDelay, t)
  else
    let byName := ThrottleEntry.fail (t.byName.lookup name) now
    (max ipDelay (backoffDelay byName.failures), { t with byName := t.byName.insert name byName })

def noteSuccess (t : LoginThrottle) (ip : IpAddr) (name : Text) : LoginThrottle :=
  let t := { t with byIp := t.byIp.erase ip }
  if name.isEmpty then t else { t with byName := t.byName.erase name }

end LoginThrottle

/-! ## Attempts -/

/-- Where a password comes from. -/
inductive Door where
  /-- `NeedPasswordLogin` -/
  | login
  /-- `NeedPasswordCreate` -/
  | create
  /-- `WEB_AUTH` with method `password` and action `login` -/
  | webAuth
deriving DecidableEq, Repr

/-- Where an attempt stands: one password that was entered. -/
inductive Phase where
  | idle
  /-- The clock has been read. -/
  | asking (now : Nat)
  /-- The throttle lets it pass; that many events were on record then. -/
  | passed (now seen : Nat)
  /-- The password is being verified. -/
  | verifying (now : Nat)
  | done
deriving DecidableEq, Repr

structure Attempt where
  door : Door
  ip : IpAddr
  name : Text
  phase : Phase
deriving DecidableEq, Repr

/-- What the throttle has been told, or has done to itself. -/
inductive Event where
  /-- `note_failure` with the time `now`, when the clock says `time`. -/
  | failure (ip : IpAddr) (name : Text) (now time : Nat)
  /-- `note_success` of a login. -/
  | login (ip : IpAddr) (name : Text)
  /-- `note_success` of an account that was created. -/
  | created (ip : IpAddr) (name : Text)
  | clearedNames
  | clearedIps
deriving DecidableEq, Repr

/-- A password verification. -/
structure Start where
  door : Door
  ip : IpAddr
  name : Text
  time : Nat
  /-- The number of events on record at its throttle check; at its start, if there was none. -/
  seen : Nat
  /-- The number of events on record when it started. -/
  known : Nat
deriving DecidableEq, Repr

structure World where
  clock : Nat
  throttle : LoginThrottle
  attempts : Nat → Attempt
  /-- The events so far. -/
  events : List Event
  /-- The verifications so far. -/
  starts : List Start

inductive Move where
  | tick (d : Nat)
  /-- Attempt `c` begins; at the prompts the clock is read. -/
  | begin_ (c : Nat) (door : Door) (ip : IpAddr) (name : Text)
  /-- `wait` -/
  | check (c : Nat)
  /-- The verification starts. -/
  | verify (c : Nat)
  /-- It ends, and the outcome is noted. -/
  | verdict (c : Nat) (ok : Bool)
  /-- A new password is long enough, or it is not; the outcome is noted. -/
  | newPassword (c : Nat) (ok : Bool)
deriving DecidableEq, Repr

namespace World

def init : World where
  clock := 0
  throttle := .empty
  attempts := fun _ => ⟨.login, .v4 0, [], .idle⟩
  events := []
  starts := []

def setPhase (w : World) (c : Nat) (p : Phase) : World :=
  { w with attempts := Function.update w.attempts c { w.attempts c with phase := p } }

/-- What the safety caps do in a prune. -/
def clearings (t : LoginThrottle) (now : Nat) : List Event :=
  let t := t.retainFresh now
  (if t.tooManyNames then [Event.clearedNames] else [])
    ++ if t.tooManyIps then [Event.clearedIps] else []

/-- A failure is noted. -/
def fail (w : World) (ip : IpAddr) (name : Text) (now : Nat) : World :=
  { w with
    throttle := (w.throttle.noteFailure ip name now).2
    events := w.events ++ clearings w.throttle now ++ [Event.failure ip name now w.clock] }

/-- A success is noted. -/
def succeed (w : World) (ip : IpAddr) (name : Text) (e : Event) : World :=
  { w with throttle := w.throttle.noteSuccess ip name, events := w.events ++ [e] }

def step (w : World) : Move → Option World
  | .tick d => some { w with clock := w.clock + d }
  | .begin_ c door ip name =>
    match (w.attempts c).phase with
    | .idle => some { w with attempts := Function.update w.attempts c ⟨door, ip, name, .asking w.clock⟩ }
    | _ => none
  | .check c =>
    let a := w.attempts c
    match a.phase, a.door with
    | .asking now, .login | .asking now, .create =>
      let (wait, throttle) := w.throttle.wait a.ip a.name now
      let w := { w with throttle, events := w.events ++ clearings w.throttle now }
      some (w.setPhase c (if wait = 0 then .passed now w.events.length else .done))
    | _, _ => none
  | .verify c =>
    let a := w.attempts c
    match a.phase, a.door with
    | .passed now seen, .login =>
      let start : Start := ⟨.login, a.ip, a.name, w.clock, seen, w.events.length⟩
      some ({ w with starts := w.starts ++ [start] }.setPhase c (.verifying now))
    | .asking now, .webAuth =>
      let start : Start := ⟨.webAuth, a.ip, a.name, w.clock, w.events.length, w.events.length⟩
      some ({ w with starts := w.starts ++ [start] }.setPhase c (.verifying now))
    | _, _ => none
  | .verdict c ok =>
    let a := w.attempts c
    match a.phase, a.door with
    | .verifying now, .login =>
      some ((if ok then w.succeed a.ip a.name (.login a.ip a.name) else w.fail a.ip a.name now).setPhase c .done)
    | .verifying _, .webAuth => some (w.setPhase c .done)
    | _, _ => none
  | .newPassword c ok =>
    let a := w.attempts c
    match a.phase, a.door with
    | .passed now _, .create =>
      some ((if ok then w.succeed a.ip a.name (.created a.ip a.name)
        else w.fail a.ip a.name now).setPhase c .done)
    | _, _ => none

end World

end Throttle

end Slopmud.Broker
