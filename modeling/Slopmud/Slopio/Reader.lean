import Slopmud.Lib.Incremental
import Slopmud.Lib.Wire

/-!
# Frames and lines

`slopio/src/frame.rs` and `slopio/src/line.rs`. Both readers keep a buffer and go round the same
loop: take an item from the front of the buffer, or read more. They differ in what an item is, and
in when they give up on a long one.
-/

namespace Slopmud.Slopio

open Incremental

/-- `std::io::ErrorKind` -/
inductive ErrorKind where
  | invalidData | unexpectedEof
deriving DecidableEq, Repr

structure IoError where
  kind : ErrorKind
  msg : String
deriving DecidableEq, Repr

/-! ## Frames -/

def frameTooLarge : IoError := ⟨.invalidData, "frame too large"⟩

/-- One round of the loop of `read_frame`, before it reads. -/
def takeFrame (maxFrameLen : Nat) (buf : Bytes) : Decoded UInt8 Bytes IoError :=
  if 4 ≤ buf.length then
    let len := Wire.ofBe (buf.take 4)
    if maxFrameLen < len then .error frameTooLarge
    else if 4 + len ≤ buf.length then .item ((buf.drop 4).take len) (buf.drop (4 + len))
    else .more
  else .more

theorem takeFrame_item {maxFrameLen : Nat} {buf payload rest : Bytes}
    (h : takeFrame maxFrameLen buf = .item payload rest) :
    4 ≤ buf.length ∧ Wire.ofBe (buf.take 4) ≤ maxFrameLen ∧ 4 + Wire.ofBe (buf.take 4) ≤ buf.length
      ∧ payload = (buf.drop 4).take (Wire.ofBe (buf.take 4))
      ∧ rest = buf.drop (4 + Wire.ofBe (buf.take 4)) := by
  unfold takeFrame at h
  split at h
  · next hhead =>
    dsimp only at h
    split at h
    · cases h
    · next hmax =>
      split at h
      · next hlen =>
        cases h
        exact ⟨hhead, Nat.not_lt.mp hmax, hlen, rfl, rfl⟩
      · cases h
  · cases h

/-- `FrameReader::read_frame` -/
def frameReader (maxFrameLen : Nat) : Decoder UInt8 Bytes IoError where
  decode := takeFrame maxFrameLen
  cut := ⟨.unexpectedEof, "eof while reading frame"⟩
  shrinks h := by
    obtain ⟨hhead, -, -, -, rfl⟩ := takeFrame_item h
    rw [List.length_drop]
    omega

/-- `FrameWriter::write_frame_parts`: what is written, in one `write_all` after the other, if the
length fits. -/
def writeFrameParts (parts : List Bytes) : Except IoError (List Bytes) :=
  let len := (parts.map List.length).sum
  if len < 2 ^ 32 then .ok (Wire.toBe 4 len :: parts.filter fun p => !p.isEmpty)
  else .error ⟨.invalidData, "frame too big"⟩

/-! ## Lines -/

def LF : UInt8 := 10
def CR : UInt8 := 13

/-- `trim_crlf` -/
def trimCrlf (b : Bytes) : Bytes :=
  let b := if b.getLast? = some LF then b.dropLast else b
  if b.getLast? = some CR then b.dropLast else b

/-- One round of the loop of `read_line`, before it reads. The length only counts while there is
no end of line in the buffer. -/
def takeLine (maxLineLen : Nat) (buf : Bytes) : Decoded UInt8 Bytes IoError :=
  match buf.idxOf? LF with
  | some i => .item (trimCrlf (buf.take (i + 1))) (buf.drop (i + 1))
  | none =>
    if maxLineLen < buf.length then .error ⟨.invalidData, "line too long"⟩
    else .more

/-- `LineReader::read_line` -/
def lineReader (maxLineLen : Nat) : Decoder UInt8 Bytes IoError where
  decode := takeLine maxLineLen
  cut := ⟨.unexpectedEof, "eof while reading line"⟩
  shrinks h := by
    unfold takeLine at h
    split at h
    · next i hi =>
      cases h
      obtain ⟨hlt, -, -⟩ := List.idxOf?_eq_some_iff.mp hi
      rw [List.length_drop]
      omega
    · split at h <;> cases h

end Slopmud.Slopio
