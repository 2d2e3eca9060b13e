import Slopmud.Lib.LineCodec
import Slopmud.Lib.Word
import Slopmud.Shard.Groups

/-!
# The shard log

`raftlog.rs`: one envelope on a line, appended with two writes and a flush, each of which
may fail and may have left something in the file. At a start the file is read line by line,
and anything that does not parse stops the start. The store of the groups follows the log:
an entry is applied when its append has succeeded.
-/

namespace Slopmud.Shard

structure RaftEnvelope (E : Type) where
  index : Nat
  ms : Nat
  entry : E
deriving DecidableEq, Repr

structure RaftLog where
  nextIndex : Nat
  /-- A small tail for `raft tail`. -/
  recent : List Text
deriving DecidableEq, Repr

/-- How an append ends. -/
inductive AppendOutcome where
  | ok
  /-- The directory or the file could not be had. -/
  | noFile
  /-- The first write failed after this many bytes of the line. -/
  | line (n : Nat)
  /-- The line was written, the line feed was not. -/
  | newline
  /-- Both were written, the flush failed. -/
  | flush
deriving DecidableEq, Repr

/-- What an append leaves behind in the file; `none` when the file was not opened. -/
def AppendOutcome.written (line : Bytes) : AppendOutcome → Option Bytes
  | .noFile => none
  | .line n => some (line.take n)
  | .newline => some line
  | .flush | .ok => some (line ++ [10])

namespace RaftLog

def recentCap : Nat := 200

def pushRecent (log : RaftLog) (line : Text) : RaftLog :=
  { log with recent := log.recent.drop (log.recent.length + 1 - recentCap) ++ [line] }

variable {E : Type} (J : LineCodec (RaftEnvelope E))

/-- The envelope of the next append. -/
def envelope (log : RaftLog) (ms : Nat) (entry : E) : RaftEnvelope E := ⟨log.nextIndex, ms, entry⟩

/-- The index is used up whether or not the append succeeds. -/
def append (log : RaftLog) (file : Option Bytes) (ms : Nat) (entry : E) (o : AppendOutcome) :
    Option (RaftEnvelope E) × RaftLog × Option Bytes :=
  let env := log.envelope ms entry
  let log := { log with nextIndex := Word.satAdd64 log.nextIndex 1 }
  let file := match o.written (J.bytes env) with
    | none => file
    | some bs => some (file.getD [] ++ bs)
  if o = .ok then (some env, log.pushRecent (J.print env), file) else (none, log, file)

/-- The lines of the file, trimmed, with their envelopes; blank lines are passed over. -/
def replayLines : List Bytes → Option (List (Text × RaftEnvelope E))
  | [] => some []
  | l :: ls => do
    let raw := Text.trim (← Utf8.fromUtf8 l)
    if raw.isEmpty then replayLines ls
    else
      let env ← J.parse raw
      return (raw, env) :: (← replayLines ls)

/-- `open`: the log and its replay, `none` when the file cannot be read as one. -/
def load (file : Option Bytes) : Option (RaftLog × List (RaftEnvelope E)) :=
  (replayLines J (Lines.lines 10 13 (file.getD []))).map fun rows =>
    let maxIndex := rows.foldl (fun m row => max m row.2.index) 0
    let log : RaftLog := rows.foldl (fun log row => log.pushRecent row.1) ⟨1, []⟩
    ({ log with nextIndex := max (Word.satAdd64 maxIndex 1) 1 }, rows.map Prod.snd)

end RaftLog

/-! ## The store behind the log -/

/-- The groups of a replay. -/
def GroupStore.replay (envs : List (RaftEnvelope GroupLogEntry)) : GroupStore :=
  envs.foldl (fun s env => s.apply env.entry) .empty

structure GroupLog where
  raft : RaftLog
  file : Option Bytes
  groups : GroupStore
  /-- The envelopes whose append returned `Ok`. -/
  appended : List (RaftEnvelope GroupLogEntry)

namespace GroupLog

variable (J : LineCodec (RaftEnvelope GroupLogEntry))

/-- The world before its first entry. -/
def init : GroupLog := ⟨⟨1, []⟩, none, .empty, []⟩

/-- `raft_append_group`, and whether it succeeded. -/
def raftAppendGroup (w : GroupLog) (ms : Nat) (entry : GroupLogEntry) (o : AppendOutcome) :
    Bool × GroupLog :=
  match w.raft.append J w.file ms entry o with
  | (none, raft, file) => (false, { w with raft, file })
  | (some env, raft, file) =>
    (true, { raft, file, groups := w.groups.apply entry, appended := w.appended ++ [env] })

/-- A new start on the same file, as far as the log goes (`World::new`). -/
def reopen (w : GroupLog) : Option GroupLog :=
  (RaftLog.load J w.file).map fun (raft, replay) =>
    { w with raft, groups := .replay replay }

inductive Move where
  | append (ms : Nat) (entry : GroupLogEntry) (o : AppendOutcome)
  /-- The process stops, and another one opens the log. -/
  | reopen
deriving DecidableEq, Repr

/-- A start that fails is the end. -/
def step (w : GroupLog) : Move → Option GroupLog
  | .append ms entry o => some (w.raftAppendGroup J ms entry o).2
  | .reopen => w.reopen J

/-! ## Commands and genesis entries on the log -/

/-- The entries of one handler, until an append fails. -/
def appendAll (ms : Nat) : GroupLog → List GroupLogEntry → List AppendOutcome → GroupLog
  | w, [], _ => w
  | w, e :: es, os =>
    match w.raftAppendGroup J ms e (os.headD .ok) with
    | (false, w) => w
    | (true, w) => appendAll ms w es os.tail

end GroupLog

/-- The log with the commands that were given to it. -/
structure GroupWorld where
  log : GroupLog
  /-- The groups with the names of the characters that created them and were made owners. -/
  creators : List (Nat × Text)
  /-- The roles given and taken otherwise: the group, the token, the role. -/
  granted : List (Nat × Text × Option GroupRole)
  /-- The groups that are of no class, with the principals of those whose `group create` made them. -/
  founded : List (Nat × Text)

inductive GroupMove where
  /-- `ensure_genesis_groups` at a start. -/
  | genesis (ms : Nat) (bootstrapAdmins bootstrapSso : List Text) (os : List AppendOutcome)
  /-- A line typed by a character. -/
  | command (ms : Nat) (p : Character) (line : Text) (os : List AppendOutcome)

namespace GroupWorld

def init : GroupWorld := ⟨.init, [], [], []⟩

/-- The member entries of a list. -/
def memberEntries (es : List GroupLogEntry) : List (Nat × Text × Option GroupRole) :=
  es.filterMap fun
    | .groupMemberSet id member role => some (id, member, role)
    | _ => none

/-- The groups of a list that are of no class. -/
def foundedGroups (es : List GroupLogEntry) : List Nat :=
  es.filterMap fun
    | .groupCreate _ (.cls _) _ => none
    | .groupCreate id _ _ => some id
    | _ => none

variable (J : LineCodec (RaftEnvelope GroupLogEntry))

def isCreate (line : Text) : Bool := (Text.stripPrefix "group create ".toList line).isSome

def step (w : GroupWorld) : GroupMove → Option GroupWorld
  | .genesis ms admins sso os =>
    let log := w.log.appendAll J ms (w.log.groups.ensureGenesisGroups admins sso) os
    let new := memberEntries ((log.appended.drop w.log.appended.length).map RaftEnvelope.entry)
    some { w with log, granted := w.granted ++ new }
  | .command ms p line os =>
    let log := w.log.appendAll J ms (w.log.groups.command p line).entries os
    let done := (log.appended.drop w.log.appended.length).map RaftEnvelope.entry
    let new := memberEntries done
    if isCreate line then
      some { w with
        log
        creators := w.creators ++ new.map fun e => (e.1, e.2.1)
        founded := w.founded ++ (foundedGroups done).map fun id => (id, p.principal) }
    else some { w with log, granted := w.granted ++ new }

end GroupWorld

/-! ## The shard and its starts -/

/-- The shard over its restarts. -/
structure GroupShard where
  log : GroupLog
  /-- The start has succeeded, and lines are read. -/
  serving : Bool

inductive GroupShardMove where
  /-- The process, if there is one, stops, and another one starts. -/
  | start (ms : Nat) (os : List AppendOutcome)
  /-- A line typed by a character. -/
  | command (ms : Nat) (p : Character) (line : Text) (os : List AppendOutcome)

namespace GroupShard

/-- Before the first start there is no log. -/
def init : GroupShard := ⟨.init, false⟩

variable (J : LineCodec (RaftEnvelope GroupLogEntry)) (bootstrapAdmins bootstrapSso : List Text)

/-- `World::new`: the log is replayed, and the genesis entries are appended. The start fails at the
first of them that is not. -/
def start (w : GroupShard) (ms : Nat) (os : List AppendOutcome) : Option GroupShard :=
  (w.log.reopen J).map fun log =>
    let genesis := log.groups.ensureGenesisGroups bootstrapAdmins bootstrapSso
    let started := log.appendAll J ms genesis os
    { log := started, serving := started.appended.length = log.appended.length + genesis.length }

/-- A log that cannot be read is the end. -/
def step (w : GroupShard) : GroupShardMove → Option GroupShard
  | .start ms os => w.start J bootstrapAdmins bootstrapSso ms os
  | .command ms p line os =>
    if w.serving then
      some { w with log := w.log.appendAll J ms (w.log.groups.command p line).entries os }
    else none

end GroupShard

end Slopmud.Shard
