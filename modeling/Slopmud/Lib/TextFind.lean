import Slopmud.Lib.Text

/-!
# Finding text in text

The methods of `str` that look for a piece of text, and the numbers that text stands for.
-/

namespace Text

/-- `split_once`: what is before and after the first occurrence of `tok`. -/
def splitOnce (tok : Text) : Text → Option (Text × Text)
  | [] => if tok.isEmpty then some ([], []) else none
  | c :: s =>
    match stripPrefix tok (c :: s) with
    | some rest => some ([], rest)
    | none => (splitOnce tok s).map fun p => (c :: p.1, p.2)

/-- `contains` -/
def contains (tok s : Text) : Bool := (splitOnce tok s).isSome

/-- `strip_suffix` -/
def stripSuffix (suf s : Text) : Option Text := (stripPrefix suf.reverse s.reverse).map List.reverse

/-- A number in decimal digits. -/
def parseDigits (ds : Text) : Option Nat :=
  if ds.isEmpty || !ds.all isAsciiDigit then none
  else some (ds.foldl (fun n c => n * 10 + (c.toNat - '0'.toNat)) 0)

/-- `str::parse::<i64>` -/
def parseI64 : Text → Option Int
  | '-' :: ds => (parseDigits ds).bind fun n => if n ≤ 2 ^ 63 then some (-(n : Int)) else none
  | '+' :: ds => (parseDigits ds).bind fun n => if n < 2 ^ 63 then some (n : Int) else none
  | ds => (parseDigits ds).bind fun n => if n < 2 ^ 63 then some (n : Int) else none

end Text
