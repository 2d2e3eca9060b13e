import Slopmud.Lib.Utf8

/-!
# Telnet commands

`slopio/src/telnet.rs`: the parser that takes telnet commands out of a byte stream and answers
negotiations. A chunk may end in any of its states.
-/

namespace Slopmud.Slopio

namespace Telnet

def IAC : UInt8 := 255
def DONT : UInt8 := 254
def DO : UInt8 := 253
def WONT : UInt8 := 252
def WILL : UInt8 := 251
def SB : UInt8 := 250
def SE : UInt8 := 240

end Telnet

open Telnet

inductive IacState where
  | data
  | iac
  | negotiate (cmd : UInt8)
  /-- The payload is kept, and not used. -/
  | subneg (opt : Option UInt8) (iacSeen : Bool) (buf : Bytes)
deriving DecidableEq, Repr

structure IacParser where
  state : IacState
  refuseNegotiation : Bool
deriving DecidableEq, Repr

namespace IacParser

def new : IacParser := ⟨.data, true⟩

/-- The builder of the same name -/
def refuse (p : IacParser) (on : Bool) : IacParser := { p with refuseNegotiation := on }

/-- "Please do X" is answered "no thanks", "I will do X" is answered "please don't". -/
def reply (cmd opt : UInt8) : Bytes :=
  if cmd = DO then [IAC, WONT, opt]
  else if cmd = WILL then [IAC, DONT, opt]
  else []

/-- The body of the loop of `parse`: the next state, what goes to the data, and to the replies. -/
def byte (p : IacParser) (b : UInt8) : IacState × Bytes × Bytes :=
  match p.state with
  | .data => if b = IAC then (.iac, [], []) else (.data, [b], [])
  | .iac =>
    -- an escaped 0xff is a literal one
    if b = IAC then (.data, [IAC], [])
    else if b = DO ∨ b = DONT ∨ b = WILL ∨ b = WONT then (.negotiate b, [], [])
    else if b = SB then (.subneg none false [], [], [])
    else (.data, [], [])
  | .negotiate cmd => (.data, [], if p.refuseNegotiation then reply cmd b else [])
  | .subneg none seen buf => (.subneg (some b) seen buf, [], [])
  | .subneg (some opt) true buf =>
    if b = SE then (.data, [], [])
    else if b = IAC then (.subneg (some opt) false (buf ++ [IAC]), [], [])
    else (.subneg (some opt) false buf, [], [])
  | .subneg (some opt) false buf =>
    if b = IAC then (.subneg (some opt) true buf, [], [])
    else (.subneg (some opt) false (buf ++ [b]), [], [])

/-- `parse`: the data and the replies of a chunk. -/
def parse (p : IacParser) : Bytes → IacParser × Bytes × Bytes
  | [] => (p, [], [])
  | b :: bs =>
    let (state, out, replies) := p.byte b
    let (p', out', replies') := parse { p with state } bs
    (p', out ++ out', replies ++ replies')

/-- Chunk after chunk, all that was returned. -/
def parseAll (p : IacParser) : List Bytes → IacParser × Bytes × Bytes
  | [] => (p, [], [])
  | chunk :: chunks =>
    let (p', out, replies) := p.parse chunk
    let (p'', out', replies') := parseAll p' chunks
    (p'', out ++ out', replies ++ replies')

theorem parse_append (p : IacParser) (as bs : Bytes) : p.parse (as ++ bs) =
    ((p.parse as).1.parse bs |>.1, (p.parse as).2.1 ++ ((p.parse as).1.parse bs).2.1,
      (p.parse as).2.2 ++ ((p.parse as).1.parse bs).2.2) := by
  induction as generalizing p with
  | nil => rfl
  | cons a as ih => simp only [List.cons_append, parse, ih, List.append_assoc]

/-- Chunks are their concatenation. -/
theorem parseAll_eq (p : IacParser) (chunks : List Bytes) : p.parseAll chunks = p.parse chunks.flatten := by
  induction chunks generalizing p with
  | nil => rfl
  | cons chunk chunks ih => simp only [parseAll, ih, List.flatten_cons, parse_append]

end IacParser

end Slopmud.Slopio
