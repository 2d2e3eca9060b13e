import Slopmud.Lib.Files
import Slopmud.Lib.Program
import Slopmud.Lib.Word

/-!
# The event log

`eventlog.rs` and the paths of the `compliance` crate: lines are appended to one
spool file for each stream and day, through buffered writers that stay open until
the day changes; finished files are uploaded and removed. The writer is behind a
lock. The clock is read before it is taken, and uploads never take it.
-/

namespace Slopmud.Broker

/-- `NaiveDate`, of the years after 0. -/
structure Date where
  year : Nat
  month : Nat
  day : Nat
deriving DecidableEq, Repr, Inhabited

inductive LogStream where
  /-- Human-readable logfmt of all session events. -/
  | all
  /-- IP-based login/logout audit log. -/
  | login
  /-- Per-character view of the all-events log. -/
  | character (name : Text)
  /-- User-submitted abuse reports (logfmt). -/
  | reports
deriving DecidableEq, Repr

/-! ## Paths -/

/-- `trim_start_matches('/')` -/
def trimStartSlashes (s : Text) : Text := s.dropWhile (· == '/')

/-- `trim_matches('/')` -/
def trimSlashes (s : Text) : Text := ((trimStartSlashes s).reverse.dropWhile (· == '/')).reverse

/-- `{:0w}` -/
def padded (w n : Nat) : Text :=
  let ds := Nat.toDigits 10 n
  List.replicate (w - ds.length) '0' ++ ds

/-- The directory of a stream. -/
def LogStream.dir : LogStream → Text
  | .all => "v1/all".toList
  | .login => "v1/login".toList
  | .character name => "v1/char/".toList ++ trimSlashes name
  | .reports => "v1/reports".toList

def objectRelpath (stream : LogStream) (ts : Date) : Text :=
  stream.dir ++ '/' :: padded 4 ts.year ++ '/' :: padded 2 ts.month ++ '/' :: padded 2 ts.day
    ++ ".log".toList

def joinPrefix (pre rel : Text) : Text :=
  let pre := trimSlashes pre
  if pre.isEmpty then trimStartSlashes rel else pre ++ '/' :: trimStartSlashes rel

def stripSuffix (suf s : Text) : Option Text := (Text.stripPrefix suf.reverse s.reverse).map List.reverse

/-- Decimal digits, at most `max`. -/
def parseDigits (max : Nat) (ds : Text) : Option Nat :=
  if ds.isEmpty || !ds.all Text.isAsciiDigit then none
  else
    let n := Nat.ofDigitChars 10 ds 0
    if n ≤ max then some n else none

/-- `u32::from_str` -/
def parseU32 (s : Text) : Option Nat :=
  parseDigits Word.maxU32 ((Text.stripPrefix ['+'] s).getD s)

/-- `i32::from_str` -/
def parseI32 (s : Text) : Option Int :=
  match Text.stripPrefix ['-'] s with
  | some ds => (parseDigits (2 ^ 31) ds).map fun n => -(n : Int)
  | none => (parseDigits (2 ^ 31 - 1) ((Text.stripPrefix ['+'] s).getD s)).map Int.ofNat

def relpathIsToday (rel : Text) (today : Date) : Bool :=
  -- Layout: v1/<stream>/YYYY/MM/DD.log or v1/char/<name>/YYYY/MM/DD.log
  let parts := rel.splitOn '/'
  if parts.length < 5 then false
  else
    match parts.reverse with
    | dFile :: mS :: yS :: _ =>
      match stripSuffix ".log".toList dFile with
      | none => false
      | some dStem =>
        match parseI32 yS, parseU32 mS, parseU32 dStem with
        | some y, some m, some d =>
          y == Int.ofNat today.year && m == today.month && d == today.day
        | _, _, _ => false
    | _ => false

/-- `path.extension() == Some("log")` -/
def isLogFile (rel : Text) : Bool :=
  match stripSuffix ".log".toList ((rel.splitOn '/').getLastD []) with
  | none => false
  | some stem => !stem.isEmpty

/-! ## The writer -/

structure EventLogConfig where
  enabled : Bool
  s3Prefix : Text
  /-- Uploads are enabled and there is a bucket. -/
  uploadEnabled : Bool
  uploadDeleteLocal : Bool
deriving DecidableEq, Repr

structure LocalWriter where
  date : Date
  openFiles : Table Text BufWriter
  touched : List Text

namespace LocalWriter

def new (date : Date) : LocalWriter := ⟨date, ∅, []⟩

/-- Flush one open file. -/
def flushOne (f : Files) (e : Sigma fun _ : Text => BufWriter) : Files := (e.2.flush f).2

def flushAll (w : LocalWriter) (f : Files) : LocalWriter × Files :=
  ({ w with openFiles := w.openFiles.mapVals fun _ b => { b with buf := [] } },
    w.openFiles.entries.foldl flushOne f)

/-- `rotate_if_needed`; the order in which `touched` is drained is the environment's. -/
def rotateIfNeeded (w : LocalWriter) (f : Files) (date : Date) (order : List Text) :
    Option (List Text) × LocalWriter × Files :=
  if date = w.date then (none, w, f)
  else
    -- Flush and close all file handles before rotating.
    let (_, f) := w.flushAll f
    (some order, { date, openFiles := ∅, touched := [] }, f)

/-- `self.open.entry(rel).or_insert_with(..)` -/
def openFile (w : LocalWriter) (f : Files) (rel : Text) : BufWriter × Files :=
  match w.openFiles.lookup rel with
  | some b => (b, f)
  | none =>
    let (ino, f) := f.openAppend rel
    (⟨ino, []⟩, f)

/-- The bytes of a line in the file: it ends with a newline, once. -/
def lineText (line : Text) : Text := if line.getLast? = some '\n' then line else line ++ ['\n']

/-- The writes of a line: the newline is a write of its own. -/
def writeText (b : BufWriter) (f : Files) (line : Text) : BufWriter × Files :=
  if line.getLast? = some '\n' then b.writeAll f line
  else
    let (b, f) := b.writeAll f line
    b.writeAll f ['\n']

/-- `write_line`, from the flush to the end. -/
def append (w : LocalWriter) (f : Files) (flushDue : Bool) (rel line : Text) : LocalWriter × Files :=
  let (w, f) := if flushDue then w.flushAll f else (w, f)
  let (b, f) := w.openFile f rel
  let (b, f) := writeText b f line
  ({ w with
    openFiles := w.openFiles.insert rel b
    touched := if rel ∈ w.touched then w.touched else w.touched ++ [rel] }, f)

def writeLine (w : LocalWriter) (f : Files) (flushDue : Bool) (order : List Text) (date : Date)
    (rel line : Text) : Option (List Text) × LocalWriter × Files :=
  let (rotated, w, f) := w.rotateIfNeeded f date order
  (rotated, w.append f flushDue rel line)

end LocalWriter

/-! ## The tasks -/

/-- One call of `log_line`: its caller, what it was given, and the time it read. -/
structure LogEntry where
  call : Nat
  stream : LogStream
  date : Date
  line : Text
deriving DecidableEq, Repr

def LogEntry.rel (e : LogEntry) : Text := objectRelpath e.stream e.date

structure EventLog where
  files : Files
  writer : LocalWriter
  /-- The upload channel. -/
  queue : List (List Text)
  /-- What has been uploaded, by key. -/
  objects : Table Text Text
  /-- The lines passed to `log_line`, in the order in which the calls read the clock. -/
  passed : List LogEntry
  /-- The lines written, in the order in which the calls had the lock. -/
  written : List LogEntry

inductive LogOp where
  /-- `Utc::now()` in `log_line`. -/
  | now (call : Nat) (stream : LogStream) (line : Text)
  /-- The lock section of `log_line`. -/
  | writeLine (e : LogEntry)
  /-- The lock section of the background flush. -/
  | flush
  /-- `tx.send(rels).await` -/
  | send (rels : List Text)
  /-- `Utc::now()` in the scan. -/
  | today
  /-- The directory walk of the scan. -/
  | readDir
  /-- `rx.recv()` -/
  | recv
  | isFile (rel : Text)
  /-- `ByteStream::from_path` -/
  | fromPath (rel : Text)
  | putObject (rel body : Text)
  | removeFile (rel : Text)
deriving DecidableEq, Repr

abbrev LogOp.Res : LogOp → Type
  | .now .. => Date
  | .writeLine _ => Option (List Text)
  | .flush => Unit
  | .send _ => Unit
  | .today => Date
  | .readDir => List Text
  | .recv => List Text
  | .isFile _ => Bool
  | .fromPath _ => Option Text
  | .putObject .. => Unit
  | .removeFile _ => Unit

abbrev LogProg := Program LogOp LogOp.Res Unit

def logLine (cfg : EventLogConfig) (call : Nat) (stream : LogStream) (line : Text) : LogProg :=
  if !cfg.enabled then .ret ()
  else .act (.now call stream line) fun date =>
    .act (.writeLine ⟨call, stream, date, line⟩) fun
      | some rotated => if cfg.uploadEnabled then .act (.send rotated) .ret else .ret ()
      | none => .ret ()

def scanAndEnqueueBacklog : LogProg :=
  .act .today fun today => .act .readDir fun seen =>
    let rels := seen.filter fun rel => isLogFile rel && !relpathIsToday rel today
    if rels.isEmpty then .ret () else .act (.send rels) .ret

def uploadOne (cfg : EventLogConfig) (rel : Text) : LogProg :=
  .act (.isFile rel) fun isFile =>
    if !isFile then .ret ()
    else .act (.fromPath rel) fun
      | none => .ret ()
      | some body => .act (.putObject rel body) fun _ =>
        if cfg.uploadDeleteLocal then .act (.removeFile rel) .ret else .ret ()

def uploadBatch (cfg : EventLogConfig) : List Text → LogProg
  | [] => .ret ()
  | rel :: batch => uploadOne cfg rel >>= fun _ => uploadBatch cfg batch

/-- One round of `upload_worker_task`. -/
def uploadWorker (cfg : EventLogConfig) : LogProg := .act .recv (uploadBatch cfg)

/-- What the environment decides in one section: the clock, whether the flush interval is over, the
order of a hash set, and what a directory walk comes across. -/
structure LogEnv where
  now : Date := default
  flushDue : Bool := false
  order : List Text := []
  seen : List Text := []
deriving DecidableEq, Repr

/-- `mpsc::channel(64)` -/
def uploadChannelSize : Nat := 64

/-- A path relative to the directory that is walked. -/
def IsRelative (rel : Text) : Prop := rel.head? ≠ some '/'

instance (rel : Text) : Decidable (IsRelative rel) := inferInstanceAs (Decidable (_ ≠ _))

def logEffect (cfg : EventLogConfig) : (o : LogOp) → LogEnv → EventLog → Option (o.Res × EventLog)
  | .now call stream line, env, s =>
    some (env.now, { s with passed := s.passed ++ [⟨call, stream, env.now, line⟩] })
  | .writeLine e, env, s =>
    if env.order.isPerm s.writer.touched then
      let (rotated, writer, files) :=
        s.writer.writeLine s.files env.flushDue env.order e.date e.rel e.line
      some (rotated, { s with writer, files, written := s.written ++ [e] })
    else none
  | .flush, _, s =>
    let (writer, files) := s.writer.flushAll s.files
    some ((), { s with writer, files })
  | .send rels, _, s =>
    if s.queue.length < uploadChannelSize then some ((), { s with queue := s.queue ++ [rels] })
    else none
  | .today, env, s => some (env.now, s)
  -- files come and go during the walk, so it may miss some and report others that are gone
  | .readDir, env, s => if ∀ rel ∈ env.seen, IsRelative rel then some (env.seen, s) else none
  | .recv, _, s =>
    match s.queue with
    | [] => none
    | batch :: queue => some (batch, { s with queue })
  | .isFile rel, _, s => some (s.files.exists? rel, s)
  | .fromPath rel, _, s => some (s.files.read rel, s)
  | .putObject rel body, _, s =>
    some ((), { s with objects := s.objects.insert (joinPrefix cfg.s3Prefix rel) body })
  | .removeFile rel, _, s => some ((), { s with files := s.files.remove rel })

inductive LogTask where
  | logger (call : Nat)
  | flusher
  | scanner
  | worker
deriving DecidableEq, Repr

inductive LogCall where
  | logLine (stream : LogStream) (line : Text)
  /-- A background task goes on. -/
  | tick
deriving DecidableEq, Repr

def logStart (cfg : EventLogConfig) : LogTask → LogCall → Option LogProg → Option LogProg
  | .logger call, .logLine stream line, none => some (logLine cfg call stream line)
  | _, _, some (.act ..) => none
  | .flusher, .tick, _ => if cfg.enabled then some (.act .flush .ret) else none
  | .scanner, .tick, _ => if cfg.uploadEnabled then some scanAndEnqueueBacklog else none
  | .worker, .tick, _ => if cfg.uploadEnabled then some (uploadWorker cfg) else none
  | _, _, _ => none

def eventLog (cfg : EventLogConfig) :
    Tasks EventLog LogTask LogEnv LogCall LogOp LogOp.Res Unit where
  effect := logEffect cfg
  start := logStart cfg

abbrev LogPool := Pool EventLog LogTask LogOp LogOp.Res Unit

/-- `EventLog::new`, with whatever is left in the spool directory. -/
def EventLog.new (files : Files) (today : Date) : EventLog where
  files
  writer := .new today
  queue := []
  objects := ∅
  passed := []
  written := []

def LogPool.init (files : Files) (today : Date) : LogPool where
  shared := .new files today
  task := fun _ => none

/-- A final flush, and an upload of every file that is there. -/
def EventLog.settled (cfg : EventLogConfig) (s : EventLog) : Table Text Text :=
  let (_, files) := s.writer.flushAll s.files
  files.names.entries.foldl
    (fun objects e => objects.insert (joinPrefix cfg.s3Prefix e.1) (files.data e.2)) s.objects

end Slopmud.Broker
