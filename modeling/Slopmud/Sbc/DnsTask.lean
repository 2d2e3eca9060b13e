import Slopmud.Sbc.Enforcerd

/-!
# When sbc_enforcerd enforces

A DNS name is looked up from time to time, and what it resolves to turns enforcement on or off.
The check and the events of raftd are two tasks on one state under a lock. Turning on applies what
is desired at that moment, turning off drops everything that is applied.
-/

namespace Slopmud.Sbc

inductive EnforcementReason where
  | startup
  | dnsEnabled
  | dnsError
  | dnsDisabled
deriving DecidableEq, Repr

structure EnforcerConfig where
  nodeId : Text
  enableDnsName : Text
  enableDnsIp : Option IpAddr
  exempt : ExemptPrefixes

/-- The `SharedState` of both tasks. -/
structure Enforcer where
  bans : EnforcerState
  dnsEnabled : Bool
  dnsLastCheckedUnix : Nat
  dnsLastError : Option Text
  dnsLastIps : List IpAddr
  enforcementReason : EnforcementReason
  backendAttached : Bool

/-- `dns_check_value`, given how the name resolves. -/
def dnsCheckValue (name : Text) (expect : Option IpAddr) (resolved : Except Text (List IpAddr)) :
    Bool × Option Text × List IpAddr :=
  if (Text.trim name).isEmpty then (false, some "SBC_ENABLE_DNS_NAME not set".toList, [])
  else
    match resolved with
    | .error e => (false, some e, [])
    | .ok ips =>
      if ips.isEmpty then (false, some "dns resolved to empty result".toList, ips)
      else
        match expect with
        -- a record that is not the expected one disables, without an error
        | some ip => (decide (ip ∈ ips), none, ips)
        | none => (true, none, ips)

namespace Enforcer

def init (cfg : EnforcerConfig) : Enforcer where
  bans := ⟨cfg.nodeId, .failOpen, 0, ∅, ∅, cfg.exempt⟩
  dnsEnabled := false
  dnsLastCheckedUnix := 0
  dnsLastError := none
  dnsLastIps := []
  enforcementReason := .startup
  backendAttached := false

/-- The body of the loop that attaches: expired bans are passed over, exempt ones reported. -/
def attachOne (s : EnforcerState) (now : Nat) (acc : Table Text BanEntry × List BanApplyResult)
    (b : BanEntry) : Table Text BanEntry × List BanApplyResult :=
  if EnforcerState.expired now b then acc
  else if s.exempt.containsPrefix b.key then
    (acc.1, acc.2 ++ [s.report now b.banId "sync".toList (some "exempt_prefix".toList)])
  else (acc.1.insert b.banId b, acc.2 ++ [s.report now b.banId "sync".toList none])

/-- What the backend applies when it is attached at `now`, with the reports. -/
def attach (s : EnforcerState) (now : Nat) : Table Text BanEntry × List BanApplyResult :=
  (Table.values s.desiredBans).foldl (attachOne s now) (∅, [])

/-- The mode that a check calls for. -/
def wantMode (enabled : Bool) : EnforcementMode := if enabled then .enforcing else .failOpen

def wantReason (enabled : Bool) (err : Option Text) : EnforcementReason :=
  if enabled then .dnsEnabled else if err.isSome then .dnsError else .dnsDisabled

/-- The backend is attached exactly when the mode is enforcing; a change of that is an attach or a
detach. -/
def setAttached (now : Nat) (e : Enforcer) : Enforcer × List BanApplyResult :=
  let want := e.bans.enforcementMode == .enforcing
  if e.backendAttached = want then (e, [])
  else if want then
    let (applied, reports) := attach e.bans now
    ({ e with backendAttached := true, bans := { e.bans with appliedBans := applied } }, reports)
  else ({ e with backendAttached := false, bans := { e.bans with appliedBans := ∅ } }, [])

/-- `dns_task`, the lock section, with the outcome of the check. -/
def dnsSection (now : Nat) (enabled : Bool) (err : Option Text) (ips : List IpAddr) (e : Enforcer) :
    Enforcer × List BanApplyResult :=
  setAttached now { e with
    dnsLastCheckedUnix := now
    dnsEnabled := enabled
    dnsLastError := err
    dnsLastIps := ips
    enforcementReason := wantReason enabled err
    bans := { e.bans with enforcementMode := wantMode enabled } }

end Enforcer

/-- The two tasks take their turns in any order. -/
inductive EnforcerMove where
  | dns (now : Nat) (resolved : Except Text (List IpAddr))
  | event (now : Nat) (env : EventEnvelope)

namespace Enforcer

def check (cfg : EnforcerConfig) (resolved : Except Text (List IpAddr)) :
    Bool × Option Text × List IpAddr :=
  dnsCheckValue cfg.enableDnsName cfg.enableDnsIp resolved

def next (cfg : EnforcerConfig) (e : Enforcer) : EnforcerMove → Enforcer
  | .dns now resolved =>
    (e.dnsSection now (check cfg resolved).1 (check cfg resolved).2.1 (check cfg resolved).2.2).1
  | .event now env => { e with bans := (e.bans.foldEvent now env).1 }

def step (cfg : EnforcerConfig) (e : Enforcer) (m : EnforcerMove) : Option Enforcer :=
  some (e.next cfg m)

end Enforcer

/-! ## What the modes are measured by -/

/-- The enforcer, and when each desired ban was last attached or received. -/
structure Watched where
  enf : Enforcer
  seen : Text → Nat

namespace Watched

def init (cfg : EnforcerConfig) : Watched := ⟨.init cfg, fun _ => 0⟩

/-- The new times: an attach and a snapshot are about all bans, an upsert about one. -/
def seenAfter (cfg : EnforcerConfig) (w : Watched) : EnforcerMove → Text → Nat
  | .dns now resolved =>
    if !w.enf.backendAttached && (Enforcer.check cfg resolved).1 then fun _ => now else w.seen
  | .event now ⟨_, .snapshot _ _⟩ => fun _ => now
  | .event now ⟨_, .banUpserted entry⟩ => Function.update w.seen entry.banId now
  | .event _ _ => w.seen

def step (cfg : EnforcerConfig) (w : Watched) (m : EnforcerMove) : Option Watched :=
  some ⟨w.enf.next cfg m, w.seenAfter cfg m⟩

end Watched

end Slopmud.Sbc
