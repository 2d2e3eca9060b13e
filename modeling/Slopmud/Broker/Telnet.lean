import Mathlib.Data.List.TakeWhile
import Slopmud.Lib.Utf8

/-!
# The byte stream of a connection

`slopio/src/telnet.rs` and the line splitting of `handle_conn`: telnet commands
are taken out of the stream, what is left is cut at the ends of lines. A byte
carries where it came from besides its value. No program looks at that; the
values decide everything.
-/

namespace Slopmud.Broker

/-- Who wrote a byte to the broker's end of a connection. -/
inductive Source where
  /-- A peer that connected to the broker by itself. -/
  | client
  /-- A browser, through the websocket of one of the web servers. -/
  | browser
  /-- A web server of its own accord: `PROXY` lines and telnet refusals. -/
  | proxy
  /-- `api_webauth_set`: which of its calls, and the position in the line it wrote. -/
  | webauth (call pos : Nat)
deriving DecidableEq, Repr

structure Byte where
  val : UInt8
  src : Source
deriving DecidableEq, Repr

/-- The values of tagged bytes. -/
def values (bs : List Byte) : Bytes := bs.map Byte.val

def tagged (src : Source) (bs : Bytes) : List Byte := bs.map fun b => ⟨b, src⟩

/-! ## Telnet commands -/

namespace Telnet

def IAC : UInt8 := 255
def DONT : UInt8 := 254
def DO : UInt8 := 253
def WONT : UInt8 := 252
def WILL : UInt8 := 251
def SB : UInt8 := 250
def SE : UInt8 := 240

def OPT_ECHO : UInt8 := 1

end Telnet

open Telnet

def telnetWill (opt : UInt8) : Bytes := [IAC, WILL, opt]

def telnetWont (opt : UInt8) : Bytes := [IAC, WONT, opt]

/-- `IacParser`. Negotiation is always refused, and the payload of a subnegotiation is dropped. -/
inductive IacParser where
  | data
  | iac
  | negotiate (cmd : UInt8)
  | subneg (opt : Option UInt8) (iacSeen : Bool)
deriving DecidableEq, Repr

/-- "Please do X" is answered "no thanks", "I will do X" is answered "please don't". -/
def refusal (cmd opt : UInt8) : Bytes :=
  if cmd = DO then [IAC, WONT, opt]
  else if cmd = WILL then [IAC, DONT, opt]
  else []

namespace IacParser

/-- The state after a byte. -/
def next : IacParser → UInt8 → IacParser
  | data, b => if b = IAC then iac else data
  | iac, b =>
    if b = IAC then data
    else if b = DO ∨ b = DONT ∨ b = WILL ∨ b = WONT then negotiate b
    else if b = SB then subneg none false
    else data
  | negotiate _, _ => data
  | subneg none seen, b => subneg (some b) seen
  | subneg (some opt) true, b => if b = SE then data else subneg (some opt) false
  | subneg (some opt) false, b => subneg (some opt) (b = IAC)

/-- Whether a byte is data. -/
def keeps : IacParser → UInt8 → Bool
  | data, b => b ≠ IAC
  -- an escaped 0xff is a literal one
  | iac, b => b = IAC
  | _, _ => false

def replies : IacParser → UInt8 → Bytes
  | negotiate cmd, opt => refusal cmd opt
  | _, _ => []

/-- `parse`: the state after a chunk. -/
def run : IacParser → List Byte → IacParser
  | p, [] => p
  | p, b :: bs => (p.next b.val).run bs

/-- `parse`: the stream with the telnet commands taken out. -/
def dataOf : IacParser → List Byte → List Byte
  | _, [] => []
  | p, b :: bs => (if p.keeps b.val then [b] else []) ++ (p.next b.val).dataOf bs

/-- `parse`: what to write back. -/
def repliesTo : IacParser → List Byte → Bytes
  | _, [] => []
  | p, b :: bs => p.replies b.val ++ (p.next b.val).repliesTo bs

theorem run_append (p : IacParser) (as bs : List Byte) : p.run (as ++ bs) = (p.run as).run bs := by
  induction as generalizing p with
  | nil => rfl
  | cons a as ih => exact ih (p.next a.val)

theorem dataOf_append (p : IacParser) (as bs : List Byte) :
    p.dataOf (as ++ bs) = p.dataOf as ++ (p.run as).dataOf bs := by
  induction as generalizing p with
  | nil => rfl
  | cons a as ih =>
    simp only [List.cons_append, dataOf, run, ih (p.next a.val), List.append_assoc]

end IacParser

/-! ## Lines -/

def NL : UInt8 := 10
def CR : UInt8 := 13

def isEol (b : Byte) : Bool := b.val = NL ∨ b.val = CR

/-- What an end of line takes with it: the byte itself, and a `\n` or a null after `\r`. -/
def dropEol (e : Byte) (rest : List Byte) : List Byte :=
  match rest with
  | [] => []
  | b :: bs => if e.val = CR ∧ (b.val = NL ∨ b.val = 0) then bs else b :: bs

/-- Trim any stray trailing `\r`. -/
def trimCr (line : List Byte) : List Byte :=
  (line.reverse.dropWhile fun b => b.val = CR).reverse

/-- `try_pop_line` -/
def tryPopLine (buf : List Byte) : Option (List Byte × List Byte) :=
  match buf.dropWhile (fun b => !isEol b) with
  | [] => none
  | e :: rest => some (trimCr (buf.takeWhile fun b => !isEol b), dropEol e rest)

theorem dropEol_suffix (e : Byte) (rest : List Byte) : dropEol e rest <:+ rest := by
  unfold dropEol
  split
  · exact List.suffix_refl _
  · split
    · exact List.suffix_cons _ _
    · exact List.suffix_refl _

/-- A line that is cut at its first end has no `\r` to trim. -/
theorem trimCr_takeWhile (buf : List Byte) :
    trimCr (buf.takeWhile fun b => !isEol b) = buf.takeWhile fun b => !isEol b := by
  have hno : ∀ b ∈ (buf.takeWhile fun b => !isEol b).reverse, decide (b.val = CR) = false := by
    intro b hb
    have hb' := List.mem_takeWhile_imp (List.mem_reverse.mp hb)
    simp only [isEol, Bool.not_eq_true', decide_eq_false_iff_not, not_or] at hb'
    exact decide_eq_false hb'.2
  have hdrop : ∀ l : List Byte, (∀ b ∈ l, decide (b.val = CR) = false) →
      l.dropWhile (fun b => b.val = CR) = l := by
    intro l hl
    cases l with
    | nil => rfl
    | cons b l => simp [hl b List.mem_cons_self]
  rw [trimCr, hdrop _ hno, List.reverse_reverse]

/-- **What `try_pop_line` takes from the buffer.** -/
theorem tryPopLine_spec {buf line rest : List Byte} (h : tryPopLine buf = some (line, rest)) :
    ∃ e tail, buf = line ++ e :: tail ∧ isEol e = true ∧ (∀ b ∈ line, isEol b = false)
      ∧ rest <:+ tail := by
  unfold tryPopLine at h
  split at h
  · cases h
  · next e tail hdrop =>
    cases h
    rw [trimCr_takeWhile]
    refine ⟨e, tail, ?_, ?_, ?_, dropEol_suffix e tail⟩
    · rw [← hdrop, List.takeWhile_append_dropWhile]
    · have hne : buf.dropWhile (fun b => !isEol b) ≠ [] := by
        rw [hdrop]
        exact List.cons_ne_nil _ _
      have hhead := List.head_dropWhile_not (fun b => !isEol b) hne
      simpa [hdrop] using hhead
    · intro b hb
      simpa using List.mem_takeWhile_imp hb

theorem tryPopLine_length {buf line rest : List Byte} (h : tryPopLine buf = some (line, rest)) :
    rest.length < buf.length := by
  obtain ⟨e, tail, hbuf, -, -, hsuf⟩ := tryPopLine_spec h
  have hlen := hsuf.length_le
  rw [hbuf, List.length_append, List.length_cons]
  omega

/-- All complete lines, and what is left in the buffer. Each takes at least one byte. -/
def popLinesAux : Nat → List Byte → List (List Byte) × List Byte
  | 0, buf => ([], buf)
  | fuel + 1, buf =>
    match tryPopLine buf with
    | none => ([], buf)
    | some (line, rest) =>
      let (lines, left) := popLinesAux fuel rest
      (line :: lines, left)

def popLines (buf : List Byte) : List (List Byte) × List Byte := popLinesAux buf.length buf

theorem popLinesAux_fuel {fuel fuel' : Nat} {buf : List Byte} (h : buf.length ≤ fuel)
    (h' : buf.length ≤ fuel') : popLinesAux fuel buf = popLinesAux fuel' buf := by
  induction fuel generalizing fuel' buf with
  | zero =>
    have hnil : buf = [] := List.length_eq_zero_iff.mp (by omega)
    subst hnil
    cases fuel' <;> rfl
  | succ fuel ih =>
    cases fuel' with
    | zero =>
      have hnil : buf = [] := List.length_eq_zero_iff.mp (by omega)
      subst hnil
      rfl
    | succ fuel' =>
      simp only [popLinesAux]
      cases hpop : tryPopLine buf with
      | none => rfl
      | some p =>
        obtain ⟨line, rest⟩ := p
        have hlen := tryPopLine_length hpop
        simp only
        rw [@ih fuel' rest (by omega) (by omega)]

/-- **The loop**: `while let Some(line) = try_pop_line(&mut linebuf)`. -/
theorem popLines_eq (buf : List Byte) : popLines buf =
    match tryPopLine buf with
    | none => ([], buf)
    | some (line, rest) => (line :: (popLines rest).1, (popLines rest).2) := by
  unfold popLines
  cases buf with
  | nil => rfl
  | cons b buf =>
    rw [List.length_cons, popLinesAux]
    cases hpop : tryPopLine (b :: buf) with
    | none => rfl
    | some p =>
      obtain ⟨line, rest⟩ := p
      have hlen := tryPopLine_length hpop
      simp only [List.length_cons] at hlen
      simp only
      rw [popLinesAux_fuel (Nat.le_of_lt_succ hlen) (Nat.le_refl _)]

def isAsciiWhitespace (b : UInt8) : Bool := b = 32 ∨ b = 9 ∨ b = 10 ∨ b = 12 ∨ b = 13

/-- `trim_ascii_ws` -/
def trimAsciiWs (s : Bytes) : Bytes :=
  (((s.dropWhile isAsciiWhitespace).reverse).dropWhile isAsciiWhitespace).reverse

example : popLines (tagged .client [97, 13, 10, 10, 98, 13, 0, 99])
    = ([tagged .client [97], [], tagged .client [98]], tagged .client [99]) := by decide

end Slopmud.Broker
