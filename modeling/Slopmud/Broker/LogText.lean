import Slopmud.Lib.Logfmt
import Slopmud.Sbc.IpText
import Slopmud.Web.Portal

/-!
# The texts of log entries

An entry of the event log is a line of fields `key=value`; what comes from outside is
written by `logfmt_str`. The broker and the compliance portal each have a copy of it. The
entry modelled in full is the one written for every line that a player types in the world.
-/

namespace Slopmud.Broker

open Slopmud.Web (isControl hex4)
open Slopmud.Sbc.IpText (hexValue)

def logfmtChar : Char → Text
  | '\\' => ['\\', '\\']
  | '"' => ['\\', '"']
  | '\n' => ['\\', 'n']
  | '\r' => ['\\', 'r']
  | '\t' => ['\\', 't']
  | c => if isControl c then '\\' :: 'u' :: hex4 c.toNat else [c]

/-- `logfmt_str` -/
def logfmtStr (s : Text) : Text := '"' :: s.flatMap logfmtChar ++ ['"']

/-- `redact_input_for_logs` -/
def redactInputForLogs (line : Text) : Text :=
  match Text.splitWhitespace line with
  | cmd :: sub :: action :: _ =>
    if !Text.eqIgnoreAsciiCase cmd "account".toList then line
    else if !Text.eqIgnoreAsciiCase sub "email".toList then line
    else if Text.eqIgnoreAsciiCase action "set".toList then "account email set <redacted>".toList
    else line
  | _ => line

/-- The entry for a line typed in the world. -/
def inputEntry (ts sid ip nm line : Text) : Text :=
  "ts=".toList ++ logfmtStr ts ++ " kind=input session=".toList ++ logfmtStr sid
    ++ " ip=".toList ++ logfmtStr ip ++ " name=".toList ++ logfmtStr nm
    ++ " text=".toList ++ logfmtStr (redactInputForLogs line)

/-! ## Entries in general -/

/-- A key of lower-case letters and underscores. -/
structure LogKey where
  text : Text
  ok : ∀ c ∈ text, Text.isAsciiLowercase c = true ∨ c = '_'

structure LogField where
  key : LogKey
  value : Text

def LogField.pair (f : LogField) : Text × Text := (f.key.text, f.value)

/-- `key=logfmt_str(value)` for each field, with single blanks between them. -/
def logEntry (logfmtStr : Text → Text) (fields : List LogField) : Text :=
  [' '].intercalate (fields.map fun f => f.key.text ++ '=' :: logfmtStr f.value)

/-- A log: each entry on a line. -/
def logFile (logfmtStr : Text → Text) (log : List (List LogField)) : Text :=
  Lines.unlines '\n' (log.map (logEntry logfmtStr))

/-! ## A reader -/

/-- The character that four hexadecimal digits stand for. -/
def unhex (a b c d : Char) : Option Char := do
  let n := ((← hexValue a) * 16 + (← hexValue b)) * 16 + (← hexValue c)
  return Char.ofNat (n * 16 + (← hexValue d))

/-- The character that an escape stands for, after the backslash. -/
def unescape : Text → Option (Char × Text)
  | '\\' :: rest => some ('\\', rest)
  | '"' :: rest => some ('"', rest)
  | 'n' :: rest => some ('\n', rest)
  | 'r' :: rest => some ('\r', rest)
  | 't' :: rest => some ('\t', rest)
  | 'u' :: a :: b :: c :: d :: rest => (unhex a b c d).map (·, rest)
  | _ => none

/-- The character at the beginning of a quoted text. -/
def unquoteChar : Text → Option (Char × Text)
  | [] => none
  | c :: rest =>
    if c = '"' then none else if c = '\\' then unescape rest else some (c, rest)

/-- Control characters are written with four digits that stand for them. -/
theorem unhex_hex4 : ∀ n < 160, isControl (Char.ofNat n) = true →
    ∃ a b c d, hex4 n = [a, b, c, d] ∧ unhex a b c d = some (Char.ofNat n) := by
  let digit := fun n i => (hex4 n).getD i '0'
  have hall : ∀ n < 160, isControl (Char.ofNat n) = true →
      hex4 n = [digit n 0, digit n 1, digit n 2, digit n 3]
        ∧ unhex (digit n 0) (digit n 1) (digit n 2) (digit n 3) = some (Char.ofNat n) := by decide +kernel
  intro n hn hc
  exact ⟨_, _, _, _, hall n hn hc⟩

theorem unquoteChar_logfmtChar (c : Char) (rest : Text) :
    unquoteChar (logfmtChar c ++ rest) = some (c, rest) := by
  unfold logfmtChar
  split
  · rfl
  · rfl
  · rfl
  · rfl
  · rfl
  · next hbackslash hquote _ _ _ =>
    split
    · next hc =>
      have hlt : c.toNat < 160 := by
        simp only [isControl, Bool.or_eq_true, Bool.and_eq_true, decide_eq_true_eq] at hc
        omega
      have hof : Char.ofNat c.toNat = c := Char.ofNat_toNat c
      obtain ⟨x, y, z, w, hhex, hun⟩ := unhex_hex4 c.toNat hlt (by rw [hof]; exact hc)
      rw [hhex]
      simp [unquoteChar, unescape, hun, hof]
    · have hb : c ≠ '\\' := fun h => hbackslash h
      have hq : c ≠ '"' := fun h => hquote h
      simp [unquoteChar, hq, hb]

/-- The quoting of both copies of `logfmt_str`. -/
def logfmtQuoting : Quoting where
  quote := '"'
  put := logfmtChar
  get := unquoteChar
  get_put := unquoteChar_logfmtChar
  get_quote _ := rfl

/-- The entries of a log, each with its keys and values. -/
def readLog (file : Text) : Option (List (List (Text × Text))) :=
  (Lines.lines '\n' '\r' file).mapM (Logfmt.readEntry logfmtQuoting)

end Slopmud.Broker
