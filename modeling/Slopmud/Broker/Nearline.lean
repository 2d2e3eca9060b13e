import Slopmud.Lib.LineCodec
import Slopmud.Lib.Table
import Slopmud.Lib.Word

/-!
# The nearline ring

`nearline.rs`: lines of output and errors, kept for reports in a ring of segment files. One
task writes them, and each file operation is a step of its own, so that the process can stop
between any two of them. The position in the ring is in a file of its own, which is written
after the next segment has been emptied.
-/

namespace Slopmud.Broker.Nearline

structure NearlineConfig where
  maxSegments : Nat
  segmentMaxBytes : Nat
deriving DecidableEq, Repr

structure NearlineRecord where
  v : Nat
  id : Text
  tsUnixMs : Nat
  /-- `output` or `err` -/
  kind : Text
  session : Text
  name : Text
  ip : Text
  text : Text
deriving DecidableEq, Repr

structure MetaFile where
  v : Nat
  curSeg : Nat
deriving DecidableEq, Repr

def MetaFile.default : MetaFile := ⟨1, 0⟩

/-- `max_segments.max(1)` -/
def NearlineConfig.segments (cfg : NearlineConfig) : Nat := max cfg.maxSegments 1

/-- `seg_max` -/
def NearlineConfig.segMax (cfg : NearlineConfig) : Nat := max cfg.segmentMaxBytes 256

/-- The directory of the ring. -/
structure Dir (Raw : Type) where
  /-- `meta.json` -/
  metaFile : Option Raw
  /-- `meta.json.tmp` -/
  tmpFile : Option Raw
  segs : Table Nat Bytes

variable {Raw : Type} (M : Codec Raw MetaFile) (J : LineCodec NearlineRecord) (cfg : NearlineConfig)

namespace Dir

def empty : Dir Raw := ⟨none, none, ∅⟩

/-- `read_meta_file(dir).unwrap_or_default()` -/
def readMeta (dir : Dir Raw) : MetaFile := (dir.metaFile.bind M.parse).getD .default

/-- The bytes of a segment, none when there is no file. -/
def segment (dir : Dir Raw) (seg : Nat) : Bytes := (dir.segs.lookup seg).getD []

def setSegment (dir : Dir Raw) (seg : Nat) (bytes : Bytes) : Dir Raw :=
  { dir with segs := dir.segs.insert seg bytes }

/-- `tokio::fs::rename(&tmp, &p)` -/
def renameTmp (dir : Dir Raw) : Dir Raw :=
  match dir.tmpFile with
  | some raw => { dir with metaFile := some raw, tmpFile := none }
  | none => dir

end Dir

/-! ## Reading -/

/-- `newest_to_oldest` -/
def newestToOldest (cur max : Nat) : List Nat := (List.range max).map fun i => (cur + max - i % max) % max

/-- `oldest_to_newest` -/
def oldestToNewest (cur max : Nat) : List Nat := (List.range max).map fun i => (cur + 1 + i) % max

/-- `String::from_utf8_lossy(&bytes).lines()` -/
def segmentLines (bytes : Bytes) : List Text := Lines.lines '\n' '\r' (Utf8.decodeLossy bytes)

/-- The records of a segment; a line that does not parse is passed over. -/
def recordsOf (bytes : Bytes) : List NearlineRecord := (segmentLines bytes).filterMap J.parse

/-- The records of all segments, oldest to newest. -/
def readAll (dir : Dir Raw) : List NearlineRecord :=
  (oldestToNewest (dir.readMeta M).curSeg cfg.segments).flatMap fun seg => recordsOf J (dir.segment seg)

/-- The lines of one segment, last one first: what has been found, and whether that is enough. -/
def lastLines (name : Text) (n : Nat) : List Text → List NearlineRecord → List NearlineRecord × Bool
  | [], out => (out, false)
  | line :: ls, out =>
    match J.parse line with
    | none => lastLines name n ls out
    | some r =>
      if r.name ≠ name then lastLines name n ls out
      else
        let out := out ++ [r]
        if n ≤ out.length then (out, true) else lastLines name n ls out

/-- The segments in the order given. -/
def lastSegs (dir : Dir Raw) (name : Text) (n : Nat) : List Nat → List NearlineRecord → List NearlineRecord
  | [], out => out.reverse
  | seg :: segs, out =>
    match dir.segs.lookup seg with
    | none => lastSegs dir name n segs out
    | some bytes =>
      match lastLines J name n (segmentLines bytes).reverse out with
      | (out, true) => out.reverse
      | (out, false) => lastSegs dir name n segs out

/-- `NearlineRing::last_n` -/
def lastN (dir : Dir Raw) (name : Text) (n : Nat) : List NearlineRecord :=
  if n = 0 then []
  else
    let name := Text.trim name
    if name.isEmpty then []
    else lastSegs J dir name n (newestToOldest (dir.readMeta M).curSeg cfg.segments) []

/-- The variables of `find_with_context`. -/
structure Finder where
  prev : List NearlineRecord
  found : Option NearlineRecord
  context : List NearlineRecord
  afterNeeded : Nat
deriving DecidableEq, Repr

def Finder.init : Finder := ⟨[], none, [], 0⟩

/-- The next record of the name: what is returned, or the variables after it. -/
def findRecord (id : Text) (ctx : Nat) (s : Finder) (r : NearlineRecord) :
    (NearlineRecord × List NearlineRecord) ⊕ Finder :=
  match s.found with
  | some target =>
    if 0 < s.afterNeeded then
      let context := s.context ++ [r]
      let afterNeeded := s.afterNeeded - 1
      if afterNeeded = 0 then .inl (target, context) else .inr { s with context, afterNeeded }
    else .inr s
  | none =>
    if r.id = id then
      let context := s.context ++ s.prev ++ [r]
      if ctx = 0 then .inl (r, context) else .inr ⟨[], some r, context, ctx⟩
    else if 0 < ctx then
      let prev := s.prev ++ [r]
      .inr { s with prev := prev.drop (prev.length - ctx) }
    else .inr s

/-- The lines of one segment. -/
def findLines (name id : Text) (ctx : Nat) :
    List Text → Finder → (NearlineRecord × List NearlineRecord) ⊕ Finder
  | [], s => .inr s
  | line :: ls, s =>
    match J.parse line with
    | none => findLines name id ctx ls s
    | some r =>
      if r.name ≠ name then findLines name id ctx ls s
      else
        match findRecord id ctx s r with
        | .inl out => .inl out
        | .inr s => findLines name id ctx ls s

/-- The segments in the order given. At the end of the last nothing is returned. -/
def findSegs (dir : Dir Raw) (name id : Text) (ctx : Nat) :
    List Nat → Finder → Option (NearlineRecord × List NearlineRecord)
  | [], _ => none
  | seg :: segs, s =>
    match dir.segs.lookup seg with
    | none => findSegs dir name id ctx segs s
    | some bytes =>
      match findLines J name id ctx (segmentLines bytes) s with
      | .inl out => some out
      | .inr s => findSegs dir name id ctx segs s

/-- `NearlineRing::find_with_context` -/
def findWithContext (dir : Dir Raw) (name id : Text) (ctx : Nat) :
    Option (NearlineRecord × List NearlineRecord) :=
  let id := Text.trim id
  if id.isEmpty then none
  else
    let name := Text.trim name
    if name.isEmpty then none
    else findSegs J dir name id ctx (oldestToNewest (dir.readMeta M).curSeg cfg.segments) .init

/-! ## Writing -/

/-- The variables of `writer_task`. -/
structure Writer where
  metaFile : MetaFile
  curSeg : Nat
  curBytes : Nat
deriving DecidableEq, Repr

/-- What the writer does next. -/
inductive Phase where
  | down
  /-- `write_meta_file` at the start, its two file operations -/
  | startTmp (m : MetaFile)
  | startRename (m : MetaFile)
  /-- `open_segment_append` -/
  | startOpen (m : MetaFile)
  /-- `segment_len` -/
  | startLen (m : MetaFile)
  /-- Wait for a record. -/
  | ready (w : Writer)
  /-- `open_segment_truncate` -/
  | truncate (w : Writer) (rec : NearlineRecord)
  /-- `write_meta_file` after it -/
  | rotateTmp (w : Writer) (rec : NearlineRecord)
  | rotateRename (w : Writer) (rec : NearlineRecord)
  /-- `write_all` -/
  | write (w : Writer) (rec : NearlineRecord)
deriving DecidableEq, Repr

structure NearlineRing (Raw : Type) where
  dir : Dir Raw
  phase : Phase
  /-- The records written so far. -/
  written : List NearlineRecord
  /-- The segments that were emptied, with what was in them. -/
  lost : List Bytes

inductive Move where
  /-- The process starts and reads the position. -/
  | start
  /-- The next file operation. -/
  | file
  | recv (rec : NearlineRecord)
  /-- The process stops. -/
  | stop
deriving DecidableEq, Repr

/-- The line of a record. -/
def line (rec : NearlineRecord) : Bytes := J.bytes rec ++ [10]

namespace NearlineRing

def init : NearlineRing Raw := ⟨.empty, .down, [], []⟩

/-- A record has come: does it go into the next segment? -/
def recv (w : Writer) (rec : NearlineRecord) : Phase :=
  if cfg.segMax < Word.satAdd64 w.curBytes (line J rec).length ∧ 0 < w.curBytes then
    .truncate { w with curSeg := (w.curSeg + 1) % cfg.segments } rec
  else .write w rec

/-- One file operation; a file cannot grow beyond `u64::MAX` bytes. -/
def fileStep (s : NearlineRing Raw) : Option (NearlineRing Raw) :=
  let dir := s.dir
  match s.phase with
  | .startTmp m => some { s with dir := { dir with tmpFile := some (M.print m) }, phase := .startRename m }
  | .startRename m =>
    some { s with dir := dir.renameTmp, phase := .startOpen m }
  | .startOpen m =>
    some { s with dir := dir.setSegment m.curSeg (dir.segment m.curSeg), phase := .startLen m }
  | .startLen m => some { s with phase := .ready ⟨m, m.curSeg, (dir.segment m.curSeg).length⟩ }
  | .truncate w rec =>
    let lost := s.lost ++ [dir.segment w.curSeg]
    let w := { w with curBytes := 0, metaFile := { w.metaFile with curSeg := w.curSeg } }
    some { s with dir := dir.setSegment w.curSeg [], phase := .rotateTmp w rec, lost }
  | .rotateTmp w rec =>
    some { s with dir := { dir with tmpFile := some (M.print w.metaFile) }, phase := .rotateRename w rec }
  | .rotateRename w rec =>
    some { s with dir := dir.renameTmp, phase := .write w rec }
  | .write w rec =>
    let bytes := line J rec
    let grown := dir.segment w.curSeg ++ bytes
    if grown.length ≤ Word.maxU64 then
      let dir := dir.setSegment w.curSeg grown
      let w := { w with curBytes := Word.satAdd64 w.curBytes bytes.length }
      some { s with dir, phase := .ready w, written := s.written ++ [rec] }
    else none
  | .down | .ready _ => none

/-- The position that a start goes on from. -/
def startMeta (dir : Dir Raw) : MetaFile :=
  let m := dir.readMeta M
  if cfg.segments ≤ m.curSeg then { m with curSeg := 0 } else m

def step (s : NearlineRing Raw) : Move → Option (NearlineRing Raw)
  | .start =>
    match s.phase with
    | .down => some { s with phase := .startTmp (startMeta M cfg s.dir) }
    | _ => none
  | .file => s.fileStep M J
  | .recv rec =>
    match s.phase with
    | .ready w => some { s with phase := recv J cfg w rec }
    | _ => none
  | .stop => some { s with phase := .down }

end NearlineRing

end Slopmud.Broker.Nearline
