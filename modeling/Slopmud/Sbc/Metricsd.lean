import Slopmud.Lib.Lines
import Slopmud.Lib.Table
import Slopmud.Lib.TextFind
import Slopmud.Lib.Utf8
import Slopmud.Sbc.Core

/-!
# sbc_metricsd

The server that adds up what the enforcers report for each source address. A statsd datagram is a
list of lines, and a line counts for its source and, when that is an address, for the `/18` or `/48`
block that the address is in.
-/

namespace Slopmud.Sbc

inductive Metric where
  | bytesIn
  | bytesOut
  | conns
deriving DecidableEq, Repr

/-- `match name.as_str()` -/
def Metric.ofName (name : Text) : Option Metric :=
  if name = "sbc.bytes_in".toList then some .bytesIn
  else if name = "sbc.bytes_out".toList then some .bytesOut
  else if name = "sbc.conns".toList then some .conns
  else none

structure Counters where
  bytesIn : Nat := 0
  bytesOut : Nat := 0
  conns : Nat := 0
deriving DecidableEq, Repr

namespace Counters

def get (c : Counters) : Metric → Nat
  | .bytesIn => c.bytesIn
  | .bytesOut => c.bytesOut
  | .conns => c.conns

/-- `x.saturating_add(val.max(0) as u64)` -/
def add (c : Counters) (f : Metric) (val : Int) : Counters :=
  match f with
  | .bytesIn => { c with bytesIn := Word.satAdd64 c.bytesIn val.toNat }
  | .bytesOut => { c with bytesOut := Word.satAdd64 c.bytesOut val.toNat }
  | .conns => { c with conns := Word.satAdd64 c.conns val.toNat }

end Counters

structure StatsdLine where
  name : Text
  val : Int
  typ : Text
  tags : Table Text Text

/-- `for kv in rest.split(',')` -/
def insertTag (tags : Table Text Text) (kv : Text) : Table Text Text :=
  match splitOnce '=' (Text.trim kv) with
  | none => tags
  | some (k, v) => tags.insert k v

def parseTags (tagsPart : Option Text) : Table Text Text :=
  match tagsPart.bind fun t => Text.stripPrefix ['#'] (Text.trim t) with
  | none => ∅
  | some rest => (rest.splitOn ',').foldl insertTag ∅

/-- `name:value|type|#tag=value,tag2=value` -/
def parseStatsdLine (line : Text) : Option StatsdLine :=
  let line := Text.trim line
  if line.isEmpty then none
  else
    match line.splitOn '|' with
    | nameAndVal :: typ :: rest => do
      let (name, valS) ← splitOnce ':' nameAndVal
      let val ← Text.parseI64 valS
      some { name, val, typ, tags := parseTags rest.head? }
    | _ => none

/-- The `/18` of an address. The length is valid. -/
def v4_18Prefix (ip : BitVec 32) : IpPrefix := (IpPrefix.new (.v4 ip) 18).get rfl

def v4_18Key (T : IpText) (ip : BitVec 32) : Text := (v4_18Prefix ip).toCidrString T

def v6_48Prefix (ip : BitVec 128) : IpPrefix := (IpPrefix.new (.v6 ip) 48).get rfl

def v6_48Key (T : IpText) (ip : BitVec 128) : Text := (v6_48Prefix ip).toCidrString T

/-- `entry(k).or_default()`, and the addition to it -/
def addTo (m : Table Text Counters) (k : Text) (f : Metric) (val : Int) : Table Text Counters :=
  m.insert k (((m.lookup k).getD {}).add f val)

structure Agg where
  bySrc : Table Text Counters
  byV4_18 : Table Text Counters
  byV6_48 : Table Text Counters

namespace Agg

def empty : Agg := ⟨∅, ∅, ∅⟩

/-- "Also aggregate into v4/v6 blocks." -/
def addBlock (T : IpText) (a : Agg) (src : Text) (f : Metric) (val : Int) : Agg :=
  match T.parse src with
  | none => a
  | some (.v4 v4) => { a with byV4_18 := addTo a.byV4_18 (v4_18Key T v4) f val }
  | some (.v6 v6) => { a with byV6_48 := addTo a.byV6_48 (v6_48Key T v6) f val }

/-- The body of the loop over the lines of a datagram. The entry of the source is there even when
the name is of no metric. -/
def readLine (T : IpText) (a : Agg) (rawLine : Text) : Agg :=
  match parseStatsdLine rawLine with
  | none => a
  | some l =>
    if l.typ ≠ ['c'] then a
    else
      match l.tags.lookup "src".toList with
      | none => a
      | some src =>
        match Metric.ofName l.name with
        | none => { a with bySrc := a.bySrc.insert src ((a.bySrc.lookup src).getD {}) }
        | some f => { a with bySrc := addTo a.bySrc src f l.val }.addBlock T src f l.val

end Agg

/-- `statsd_task`, with the lines of the datagram that are left. The lock is free between two lines. -/
structure Statsd where
  agg : Agg
  lines : List Text

inductive StatsdMove where
  /-- A datagram comes in, cut to the size of the buffer. -/
  | recv (datagram : Bytes)
  /-- The next line is read. -/
  | line
deriving DecidableEq, Repr

namespace Statsd

def init : Statsd := ⟨.empty, []⟩

def step (T : IpText) (w : Statsd) : StatsdMove → Option Statsd
  | .recv datagram =>
    if w.lines = [] then
      some { w with lines := Lines.lines '\n' '\r' (Utf8.decodeLossy (datagram.take (64 * 1024))) }
    else none
  | .line =>
    match w.lines with
    | [] => none
    | rawLine :: rest => some { agg := w.agg.readLine T rawLine, lines := rest }

end Statsd

end Slopmud.Sbc
