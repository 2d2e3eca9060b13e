import Slopmud.Broker.Holds
import Slopmud.Lib.TextFind
import Slopmud.Proto.Shard

/-!
# Redaction

`redact_pii` of the broker: what looks like an email address or a phone number is taken out of the
text that is stored about a session on legal hold. The loops go over the bytes and cut the string
at byte offsets. A cut that the language refuses is a panic, `none` here.
-/

namespace Slopmud.Broker

/-- `&s[i..j]`, which panics if the offsets are the wrong way round or inside a character. -/
def strSlice (s : Text) (i j : Nat) : Option Text :=
  if i ≤ j then do
    let upTo ← Proto.strTo s j
    let before ← Proto.strTo s i
    some (upTo.drop before.length)
  else none

def isAsciiDigitByte (b : UInt8) : Bool := 48 ≤ b && b ≤ 57

def isAsciiAlphanumericByte (b : UInt8) : Bool :=
  isAsciiDigitByte b || (65 ≤ b && b ≤ 90) || (97 ≤ b && b ≤ 122)

/-! ## Email addresses -/

def AT : UInt8 := 64

/-- `is_user`: letters, digits, and `._%+-` -/
def isUser (b : UInt8) : Bool := isAsciiAlphanumericByte b || [46, 95, 37, 43, 45].contains b

/-- `is_domain`: letters, digits, and `.-` -/
def isDomain (b : UInt8) : Bool := isAsciiAlphanumericByte b || [46, 45].contains b

/-- `while l > 0 && is_user(b[l - 1])`, from `i` down -/
def userStart (b : Bytes) (i : Nat) : Nat := i - ((b.take i).reverse.takeWhile isUser).length

/-- `while r < b.len() && is_domain(b[r])`, from `r` up -/
def domainEnd (b : Bytes) (r : Nat) : Nat := r + ((b.drop r).takeWhile isDomain).length

/-- "Basic validation to reduce false positives" -/
def validUser (user : Text) : Bool :=
  !(user.head? == some '.' || user.getLast? == some '.' || Text.contains "..".toList user)

def validDomain (domain : Text) : Bool :=
  !(!List.elem '.' domain || domain.head? == some '.' || domain.getLast? == some '.')
    && !Text.contains "..".toList domain
    && (domain.splitOn '.').all (fun label =>
      !(label.isEmpty || label.head? == some '-' || label.getLast? == some '-'))
    && !decide (Text.byteLen ((domain.splitOn '.').getLast?.getD []) < 2)

/-- The body of the loop at an `@`: where the address starts and ends, if it is one. -/
def emailAt (s : Text) (b : Bytes) (i : Nat) : Option (Option (Nat × Nat)) :=
  let l := userStart b i
  let r := domainEnd b (i + 1)
  if i - l = 0 ∨ r - (i + 1) = 0 then some none
  else do
    let user ← strSlice s l i
    let domain ← strSlice s (i + 1) r
    some (if validUser user && validDomain domain then some (l, r) else none)

/-- After the loops: what is left of the string. -/
def finish (s : Text) (b : Bytes) (last : Nat) (out : Text) : Option Text :=
  if last = 0 then some s else (strSlice s last b.length).map (out ++ ·)

/-- The loop of `redact_emails`, with enough fuel for one round a byte -/
def redactEmailsLoop (s : Text) (b : Bytes) : Nat → Nat → Nat → Text → Option Text
  | 0, _, _, _ => none
  | fuel + 1, i, last, out =>
    match b[i]? with
    | none => finish s b last out
    | some c =>
      if c ≠ AT then redactEmailsLoop s b fuel (i + 1) last out
      else do
        match ← emailAt s b i with
        | none => redactEmailsLoop s b fuel (i + 1) last out
        | some (l, r) =>
          let before ← strSlice s last l
          redactEmailsLoop s b fuel r r (out ++ before ++ "[email]".toList)

def redactEmails (s : Text) : Option Text :=
  let b := Utf8.encode s
  redactEmailsLoop s b (b.length + 1) 0 0 []

/-! ## Phone numbers -/

/-- What may stand between the digits: ` -.()` -/
def isPhonePunct (b : UInt8) : Bool := [32, 45, 46, 40, 41].contains b

def PLUS : UInt8 := 43

/-- The inner loop, over the bytes from `j` on: where it stops, how many digits there were, and the
end of the last. -/
def phoneScan (start : Nat) : Bytes → Nat → Nat → Nat → Nat × Nat × Nat
  | [], j, digits, lastDigitEnd => (j, digits, lastDigitEnd)
  | c :: cs, j, digits, lastDigitEnd =>
    if isAsciiDigitByte c then phoneScan start cs (j + 1) (digits + 1) (j + 1)
    else if isPhonePunct c then phoneScan start cs (j + 1) digits lastDigitEnd
    else if c = PLUS ∧ j = start then phoneScan start cs (j + 1) digits lastDigitEnd
    else (j, digits, lastDigitEnd)

/-- The loop of `redact_phones` -/
def redactPhonesLoop (s : Text) (b : Bytes) : Nat → Nat → Nat → Text → Option Text
  | 0, _, _, _ => none
  | fuel + 1, i, last, out =>
    match b[i]? with
    | none => finish s b last out
    | some c =>
      if !isAsciiDigitByte c && c != PLUS then redactPhonesLoop s b fuel (i + 1) last out
      else
        let (j, digits, lastDigitEnd) := phoneScan i (b.drop i) i 0 i
        if 10 ≤ digits then do
          let before ← strSlice s last i
          redactPhonesLoop s b fuel lastDigitEnd lastDigitEnd (out ++ before ++ "[phone]".toList)
        else redactPhonesLoop s b fuel (max j (i + 1)) last out

def redactPhones (s : Text) : Option Text :=
  let b := Utf8.encode s
  redactPhonesLoop s b (b.length + 1) 0 0 []

def redactPii (s : Text) : Option Text := do
  let s ← redactEmails s
  redactPhones s

/-! ## The output of a session -/

/-- `escape_log_text` -/
def escapeLogText (b : Bytes) : Text := ((Utf8.decodeLossy b).reverse.dropWhile (· == '\x00')).reverse

def extractOutputLines (b : Bytes) : List Text :=
  ((escapeLogText b).splitOn '\n').filterMap fun raw =>
    let line := Text.trim (raw.reverse.dropWhile (· == '\r')).reverse
    if line.isEmpty || line == ['>'] then none else some line

def SCROLLBACK_MAX_LINE_CHARS : Nat := 512

/-- The two texts of a line that `route_resp` stores, for the disk ring and for the log. -/
def storedTexts (held : Bool) (text : Text) : Option (Text × Text) := do
  let sbText := clampChars text SCROLLBACK_MAX_LINE_CHARS
  let diskText ← if held then redactPii sbText else some sbText
  let logText ← if held then redactPii text else some text
  some (diskText, logText)

/-- `route_resp`, of an output or an error: what it stores of the lines. -/
def routeRespTexts (held : Bool) (line : Bytes) : Option (List (Text × Text)) :=
  (extractOutputLines line).mapM (storedTexts held)

end Slopmud.Broker
