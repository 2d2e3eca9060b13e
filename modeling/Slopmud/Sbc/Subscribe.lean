import Slopmud.Lib.Replay
import Slopmud.Sbc.Enforcerd
import Slopmud.Sbc.Raftd

/-!
# Subscribers of sbc_raftd

`handle_events_conn` takes a snapshot under the lock, writes it to the socket,
and after that subscribes to the broadcast channel. A `Watch` is the server
together with one such connection; the two take turns in any order. What a
subscriber makes of the lines it gets is `Tables.fold`.
-/

namespace Slopmud.Sbc

/-! ## What one event writes -/

/-- The one binding of the table of bans an event changes. -/
def Event.banWrite : Event → Option (Text × Option BanEntry)
  | .banUpserted entry => some (entry.banId, some entry)
  | .banDeleted banId => some (banId, none)
  | _ => none

/-- The one binding of the table of holds an event changes. -/
def Event.holdWrite : Event → Option (Text × Option LegalHoldEntry)
  | .legalHoldUpserted entry => some (entry.nameLc, some entry)
  | .legalHoldDeleted nameLc => some (nameLc, none)
  | _ => none

inductive Target where
  | ban (banId : Text)
  | hold (nameLc : Text)
deriving DecidableEq, Repr

/-- The ban or the hold an event is about. -/
def Event.target : Event → Option Target
  | .banUpserted entry => some (.ban entry.banId)
  | .banDeleted banId => some (.ban banId)
  | .legalHoldUpserted entry => some (.hold entry.nameLc)
  | .legalHoldDeleted nameLc => some (.hold nameLc)
  | _ => none

def EventEnvelope.banWrite (ev : EventEnvelope) : Option (Text × Option BanEntry) := ev.event.banWrite

def EventEnvelope.holdWrite (ev : EventEnvelope) : Option (Text × Option LegalHoldEntry) :=
  ev.event.holdWrite

theorem banWrite_target {e : Event} {banId : Text} :
    e.banWrite.map Prod.fst = some banId ↔ e.target = some (.ban banId) := by
  cases e <;> simp [Event.banWrite, Event.target]

theorem holdWrite_target {e : Event} {nameLc : Text} :
    e.holdWrite.map Prod.fst = some nameLc ↔ e.target = some (.hold nameLc) := by
  cases e <;> simp [Event.holdWrite, Event.target]

theorem banWrite_own (ev : EventEnvelope) (banId : Text) (entry : BanEntry)
    (h : ev.banWrite = some (banId, some entry)) : entry.banId = banId := by
  obtain ⟨idx, e⟩ := ev
  cases e <;> simp [EventEnvelope.banWrite, Event.banWrite] at h
  obtain ⟨rfl, rfl⟩ := h
  rfl

theorem holdWrite_own (ev : EventEnvelope) (nameLc : Text) (entry : LegalHoldEntry)
    (h : ev.holdWrite = some (nameLc, some entry)) : entry.nameLc = nameLc := by
  obtain ⟨idx, e⟩ := ev
  cases e <;> simp [EventEnvelope.holdWrite, Event.holdWrite] at h
  obtain ⟨rfl, rfl⟩ := h
  rfl

theorem onBans_eq (m : Table Text BanEntry) (e : Event) : e.onBans m = Replay.put m e.banWrite := by
  cases e <;> rfl

theorem foldl_onBans_eq (m : Table Text BanEntry) (evs : List EventEnvelope) :
    evs.foldl (fun m ev => ev.event.onBans m) m = Replay.replay EventEnvelope.banWrite m evs := by
  simp only [onBans_eq]
  rfl

/-! ## The subscriber's tables -/

/-- What a subscriber that follows every kind of event knows. -/
structure Tables where
  bans : Table Text BanEntry
  holds : Table Text LegalHoldEntry

namespace Tables

def empty : Tables := ⟨∅, ∅⟩

/-- A snapshot replaces both tables; every other event writes one binding. -/
def apply (t : Tables) (ev : EventEnvelope) : Tables :=
  match ev.event with
  | .snapshot bans holds => ⟨EnforcerState.insertAll ∅ bans, Table.fileAll LegalHoldEntry.nameLc ∅ holds⟩
  | e => ⟨Replay.put t.bans e.banWrite, Replay.put t.holds e.holdWrite⟩

def fold (evs : List EventEnvelope) : Tables := evs.foldl apply empty

theorem apply_event {t : Tables} {ev : EventEnvelope} (h : ¬ ev.event.IsSnapshot) :
    t.apply ev = ⟨Replay.put t.bans ev.banWrite, Replay.put t.holds ev.holdWrite⟩ := by
  obtain ⟨idx, e⟩ := ev
  cases e with
  | snapshot bans holds => exact absurd trivial h
  | _ => rfl

theorem foldl_apply {t : Tables} {evs : List EventEnvelope}
    (h : ∀ ev ∈ evs, ¬ ev.event.IsSnapshot) :
    evs.foldl apply t = ⟨Replay.replay EventEnvelope.banWrite t.bans evs,
      Replay.replay EventEnvelope.holdWrite t.holds evs⟩ := by
  induction evs generalizing t with
  | nil => rfl
  | cons ev evs ih =>
      rw [List.foldl_cons, ih (fun e he => h e (List.mem_cons_of_mem _ he)),
        apply_event (h ev List.mem_cons_self)]
      rfl

end Tables

/-! ## handle_events_conn -/

/-- `broadcast::channel::<EventEnvelope>(1024)` -/
def channelCapacity : Nat := 1024

inductive SubscribeMode where
  | tail
  | snapshot
deriving DecidableEq, Repr

inductive EventsPhase where
  /-- The request has been read. -/
  | asked
  /-- The snapshot has been taken and written; `tx.subscribe()` comes next. -/
  | snapped
  /-- Subscribed; the next event to receive is number `pos` of those ever sent. -/
  | receiving (pos : Nat)
  /-- A write has failed, and the connection is gone. -/
  | closed
deriving DecidableEq, Repr

structure EventsConn where
  mode : SubscribeMode
  phase : EventsPhase
  /-- The lines written to the socket so far. -/
  out : List EventEnvelope
  /-- How many events the channel reported as `Lagged`. -/
  dropped : Nat
deriving DecidableEq, Repr

def EventsConn.new (mode : SubscribeMode) : EventsConn := ⟨mode, .asked, [], 0⟩

inductive EventsMove where
  /-- The lock section that copies the tables, and the write of the copy. -/
  | snapshot (written : Bool)
  /-- `let mut rx = tx.subscribe();` -/
  | subscribe
  /-- `rx.recv().await`, and the write of what it returned. -/
  | recv (written : Bool)
deriving DecidableEq, Repr

/-- The line of a snapshot taken now. -/
def snapshotOf (s : PersistedState) : EventEnvelope :=
  ⟨s.nextIndex - 1, .snapshot (Table.values s.bans) (Table.values s.holds)⟩

/-- One step of `handle_events_conn` after the request line has been parsed. -/
def EventsConn.step (w : Raftd) (c : EventsConn) : EventsMove → Option EventsConn
  | .snapshot written =>
    match c.mode, c.phase with
    | .snapshot, .asked =>
      if written then some { c with phase := .snapped, out := c.out ++ [snapshotOf w.st] }
      else some { c with phase := .closed }
    | _, _ => none
  | .subscribe =>
    match c.mode, c.phase with
    | .snapshot, .snapped => some { c with phase := .receiving w.sent.length }
    | .tail, .asked => some { c with phase := .receiving w.sent.length }
    | _, _ => none
  | .recv written =>
    match c.phase with
    | .receiving pos =>
      -- the channel keeps only the last events; `Lagged` says how many are gone
      if pos + channelCapacity < w.sent.length then
        some { c with
          phase := .receiving (w.sent.length - channelCapacity)
          dropped := c.dropped + (w.sent.length - channelCapacity - pos) }
      else
        (w.sent[pos]?).map fun ev =>
          if written then { c with phase := .receiving (pos + 1), out := c.out ++ [ev] }
          else { c with phase := .closed }
    | _ => none

/-- The server, and one connection to its events socket. -/
structure Watch where
  server : RaftdPool
  conn : EventsConn

inductive WatchMove where
  | raftd (m : Move RaftdTask RaftdEnv RaftdCall)
  | events (e : EventsMove)
deriving DecidableEq, Repr

def Watch.step (T : IpText) (s : Watch) : WatchMove → Option Watch
  | .raftd m => (Pool.step (raftd T) s.server m).map fun server => { s with server }
  | .events e => (s.conn.step s.server.shared e).map fun conn => { s with conn }

/-- The server as it starts, and a connection that will ask for a snapshot at some time. -/
def Watch.init (st : PersistedState) : Watch := ⟨RaftdPool.init st, EventsConn.new .snapshot⟩

end Slopmud.Sbc
