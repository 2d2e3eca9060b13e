import Slopmud.Broker.Login
import Slopmud.Lib.Radix

/-!
# Line ids

Snowflake-style ids for the lines of a scrollback: 42 bits of milliseconds, 10 bits of the node,
12 bits of a sequence number. They are printed as 13 characters of base 32, and read back from
what a player types.
-/

namespace Slopmud.Broker

def LINEID_EPOCH_UNIX_MS : Nat := 1704067200000

structure LineId where
  val : UInt64
deriving DecidableEq, Repr

namespace LineId

/-- `0-9 a-z` without `i`, `l`, `o`, `u` -/
def ALPH : Text := "0123456789abcdefghjkmnpqrstvwxyz".toList

/-- The loop of `encode`, from the last character to the first. -/
def encodeLoop : Nat → UInt64 → Text → Text
  | 0, _, out => out
  | n + 1, v, out => encodeLoop n (v >>> 5) (ALPH.getD (v &&& 31).toNat '0' :: out)

def encode (id : LineId) : Text := encodeLoop 13 id.val []

/-- `val`, of a lower-case letter or a digit -/
def digitVal : Char → Option Nat
  | '0' => some 0
  | '1' => some 1
  | '2' => some 2
  | '3' => some 3
  | '4' => some 4
  | '5' => some 5
  | '6' => some 6
  | '7' => some 7
  | '8' => some 8
  | '9' => some 9
  | 'a' => some 10
  | 'b' => some 11
  | 'c' => some 12
  | 'd' => some 13
  | 'e' => some 14
  | 'f' => some 15
  | 'g' => some 16
  | 'h' => some 17
  | 'j' => some 18
  | 'k' => some 19
  | 'm' => some 20
  | 'n' => some 21
  | 'p' => some 22
  | 'q' => some 23
  | 'r' => some 24
  | 's' => some 25
  | 't' => some 26
  | 'v' => some 27
  | 'w' => some 28
  | 'x' => some 29
  | 'y' => some 30
  | 'z' => some 31
  -- common confusions
  | 'o' => some 0
  | 'i' | 'l' => some 1
  | _ => none

/-- The digits of a number, unless that is no `u64`. -/
def ofDigits (b : Nat) (ds : List Nat) : Option LineId :=
  (Radix.checked Word.maxU64 b ds).map fun v => ⟨.ofNat v⟩

def decode (s : Text) : Option LineId :=
  let s := (Text.trim s).dropWhile (· == '@')
  if s.isEmpty then none
  -- decimal (legacy/testing)
  else if s.all Text.isAsciiDigit then ofDigits 10 (s.map fun c => c.toNat - '0'.toNat)
  else (s.mapM fun c => digitVal (Text.lowerChar c)).bind (ofDigits 32)

def timestampUnixMs (id : LineId) : Option Nat :=
  some (Word.satAdd64 LINEID_EPOCH_UNIX_MS (id.val >>> 22).toNat)

end LineId

/-! ## Making ids -/

structure LineIdGen where
  nodeBits : Nat
  lastTsMs : Nat
  seq : Nat
deriving DecidableEq, Repr

/-- `node_id_bits`: the number that a node id is, or else ten bits of its hash; without a node id,
ten bits at random. -/
def nodeIdBits (hash : Text → Nat) (random : Nat) (nodeId : Option Text) : Nat :=
  match (nodeId.map Text.trim).filter fun s => !s.isEmpty with
  | none => random &&& 0x03ff
  | some s => ((parseU16 s).getD (hash s)) &&& 0x03ff

namespace LineIdGen

def new (hash : Text → Nat) (random : Nat) (nodeId : Option Text) : LineIdGen :=
  ⟨nodeIdBits hash random nodeId, 0, 0⟩

/-- The time and the sequence number of the next id. -/
def advance (g : LineIdGen) (nowUnixMs : Nat) : LineIdGen :=
  let tsMs := max nowUnixMs g.lastTsMs
  if tsMs = g.lastTsMs then
    let seq := (g.seq + 1) &&& 0x0fff
    -- sequence wrapped within the same millisecond; bump time forward
    { g with lastTsMs := if seq = 0 then Word.satAdd64 tsMs 1 else tsMs, seq }
  else { g with lastTsMs := tsMs, seq := 0 }

/-- The id of the time and the sequence number that a generator has come to -/
def idAt (g : LineIdGen) : LineId :=
  let deltaMs := g.lastTsMs - LINEID_EPOCH_UNIX_MS
  ⟨.ofNat ((deltaMs <<< 22) ||| ((g.nodeBits &&& 0x03ff) <<< 12) ||| (g.seq &&& 0x0fff))⟩

def nextId (g : LineIdGen) (nowUnixMs : Nat) : LineId × LineIdGen :=
  let g := g.advance nowUnixMs
  (g.idAt, g)

/-- The ids of successive calls. -/
def ids (g : LineIdGen) : List Nat → List LineId
  | [] => []
  | now :: clock => (g.nextId now).1 :: (g.nextId now).2.ids clock

/-- The times that successive calls generate. -/
def timestamps (g : LineIdGen) : List Nat → List Nat
  | [] => []
  | now :: clock => (g.nextId now).2.lastTsMs :: (g.nextId now).2.timestamps clock

end LineIdGen

end Slopmud.Broker
