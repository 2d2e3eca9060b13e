import Slopmud.Lib.Table
import Slopmud.Sbc.Core

/-!
# sbc_enforcerd

The enforcer folds raftd's events into two maps: what should be banned
(`desiredBans`) and what the backend applies (`appliedBans`), which follows the
first only while it is enforcing and never holds an exempt prefix.
-/

namespace Slopmud.Sbc

inductive EnforcementMode where
  | enforcing
  | failOpen
deriving DecidableEq, Repr

structure EnforcerState where
  nodeId : Text
  enforcementMode : EnforcementMode
  eventsLastIndex : Nat
  desiredBans : Table Text BanEntry
  appliedBans : Table Text BanEntry
  exempt : ExemptPrefixes

namespace EnforcerState

/-- The report on one applied event, as far as the mode and the exempt prefixes decide it. -/
def report (s : EnforcerState) (now : Nat) (banId op : Text) (skipped : Option Text) :
    BanApplyResult where
  nodeId := s.nodeId
  banId := banId
  op := op
  result := if skipped.isSome then "skipped".toList else "ok".toList
  error := skipped
  reportedAtUnix := now

/-- `b.expires_at_unix != 0 && b.expires_at_unix <= now` -/
def expired (now : Nat) (b : BanEntry) : Bool :=
  b.expiresAtUnix != 0 && decide (b.expiresAtUnix ≤ now)

/-- Insert each entry under its own id. -/
def insertAll (m : Table Text BanEntry) (bs : List BanEntry) : Table Text BanEntry :=
  bs.foldl (fun m b => m.insert b.banId b) m

/-- `events_task`, the lock section that folds one event. -/
def foldEvent (now : Nat) (s : EnforcerState) (env : EventEnvelope) :
    EnforcerState × Option BanApplyResult :=
  let s := { s with eventsLastIndex := max s.eventsLastIndex env.index }
  let enforcing := s.enforcementMode == .enforcing
  match env.event with
  | .snapshot bans _ =>
    let desired := insertAll ∅ (bans.filter fun b => !expired now b)
    let s := { s with desiredBans := desired }
    if enforcing then
      let applied := insertAll ∅ ((Table.values desired).filter fun b => !s.exempt.containsPrefix b.key)
      ({ s with appliedBans := applied }, none)
    else (s, none)
  | .banUpserted entry =>
    let op := "upsert".toList
    let s := { s with desiredBans := s.desiredBans.insert entry.banId entry }
    if enforcing then
      if s.exempt.containsPrefix entry.key then
        (s, some (s.report now entry.banId op (some "exempt_prefix".toList)))
      else
        let s := { s with appliedBans := s.appliedBans.insert entry.banId entry }
        (s, some (s.report now entry.banId op none))
    else (s, some (s.report now entry.banId op (some "enforcement_disabled".toList)))
  | .banDeleted banId =>
    let op := "delete".toList
    let s := { s with desiredBans := s.desiredBans.erase banId }
    if enforcing then
      let s := { s with appliedBans := s.appliedBans.erase banId }
      (s, some (s.report now banId op none))
    else (s, some (s.report now banId op (some "enforcement_disabled".toList)))
  | .legalHoldUpserted _ => (s, none)
  | .legalHoldDeleted _ => (s, none)
  | .enforcementStatus _ => (s, none)
  | .banApplyResult _ => (s, none)

/-- Fold a list of events, whatever the clock shows at each of them. -/
def foldEvents (clock : EventEnvelope → Nat) (s : EnforcerState) (evs : List EventEnvelope) :
    EnforcerState :=
  evs.foldl (fun s ev => (s.foldEvent (clock ev) ev).1) s

end EnforcerState

/-! ## What an event does to a table of bans -/

/-- The one effect an event other than a snapshot has on a table of bans. -/
def Event.onBans (m : Table Text BanEntry) : Event → Table Text BanEntry
  | .banUpserted entry => m.insert entry.banId entry
  | .banDeleted banId => m.erase banId
  | _ => m

/-- Snapshots are made for one subscriber; they are never broadcast. -/
def Event.IsSnapshot : Event → Prop
  | .snapshot _ _ => True
  | _ => False

theorem foldEvent_desired {now : Nat} {s : EnforcerState} {ev : EventEnvelope}
    (h : ¬ ev.event.IsSnapshot) :
    (s.foldEvent now ev).1.desiredBans = ev.event.onBans s.desiredBans := by
  obtain ⟨idx, e⟩ := ev
  cases e with
  | snapshot bans holds => exact absurd trivial h
  | banUpserted entry => simp only [EnforcerState.foldEvent]; split <;> (try split) <;> rfl
  | banDeleted banId => simp only [EnforcerState.foldEvent]; split <;> rfl
  | legalHoldUpserted _ => rfl
  | legalHoldDeleted _ => rfl
  | enforcementStatus _ => rfl
  | banApplyResult _ => rfl

theorem foldEvents_desired {clock : EventEnvelope → Nat} {s : EnforcerState}
    {evs : List EventEnvelope} (h : ∀ ev ∈ evs, ¬ ev.event.IsSnapshot) :
    (s.foldEvents clock evs).desiredBans
      = evs.foldl (fun m ev => ev.event.onBans m) s.desiredBans := by
  induction evs generalizing s with
  | nil => rfl
  | cons ev evs ih =>
    simp only [EnforcerState.foldEvents, List.foldl_cons] at ih ⊢
    rw [ih (fun e he => h e (List.mem_cons_of_mem _ he)), foldEvent_desired (h ev (by simp))]

end Slopmud.Sbc
