import Mathlib.Data.List.Basic
import Slopmud.Sbc.Core

/-!
# A concrete textual form of addresses

The model takes the printing and reading of addresses as a parameter. This is one
such form, to run the model with: dotted quads for IPv4, as the standard library
prints them, and eight full groups of hexadecimal digits for IPv6, which the
standard library reads but abbreviates when printing.
-/

namespace Slopmud.Sbc.IpText

/-! ## Groups of digits -/

/-- Read groups as the digits of a number in base `b`. -/
def ofGroups (b : Nat) (l : List Nat) : Nat := l.foldl (fun n g => n * b + g) 0

def printGroups (enc : Nat → Text) (sep : Char) (l : List Nat) : Text :=
  [sep].intercalate (l.map enc)

def parseGroups (dec : Text → Option Nat) (sep : Char) (s : Text) : Option (List Nat) :=
  (s.splitOn sep).mapM dec

theorem mapM_map_some {enc : Nat → Text} {dec : Text → Option Nat} {l : List Nat}
    (h : ∀ n ∈ l, dec (enc n) = some n) : (l.map enc).mapM dec = some l := by
  induction l with
  | nil => rfl
  | cons n l ih =>
    have h1 : dec (enc n) = some n := h n (by simp)
    have h2 := ih (fun m hm => h m (List.mem_cons_of_mem _ hm))
    simp [h1, h2]

theorem parse_printGroups {enc : Nat → Text} {dec : Text → Option Nat} {sep : Char} {l : List Nat}
    (hdec : ∀ n ∈ l, dec (enc n) = some n) (hsep : ∀ n ∈ l, sep ∉ enc n) (hl : l ≠ []) :
    parseGroups dec sep (printGroups enc sep l) = some l := by
  unfold parseGroups printGroups
  rw [List.splitOn_intercalate, mapM_map_some hdec]
  · simpa using hsep
  · simpa using hl

theorem mem_intercalate {sep c : Char} {ls : List Text} (h : c ∈ [sep].intercalate ls) :
    c = sep ∨ ∃ t ∈ ls, c ∈ t := by
  induction ls with
  | nil => simp [List.intercalate] at h
  | cons t ls ih =>
    cases ls with
    | nil => right; exact ⟨t, by simp, by simpa [List.intercalate] using h⟩
    | cons u ls =>
      have hc : [sep].intercalate (t :: u :: ls) = t ++ sep :: [sep].intercalate (u :: ls) := by
        simp [List.intercalate]
      rw [hc, List.mem_append, List.mem_cons] at h
      rcases h with h | h | h
      · exact Or.inr ⟨t, by simp, h⟩
      · exact Or.inl h
      · rcases ih h with h | ⟨v, hv, hcv⟩
        · exact Or.inl h
        · exact Or.inr ⟨v, List.mem_cons_of_mem _ hv, hcv⟩

theorem mem_printGroups {enc : Nat → Text} {sep c : Char} {l : List Nat}
    (h : c ∈ printGroups enc sep l) : c = sep ∨ ∃ n ∈ l, c ∈ enc n := by
  rcases mem_intercalate h with h | ⟨t, ht, hc⟩
  · exact Or.inl h
  · obtain ⟨n, hn, rfl⟩ := List.mem_map.mp ht
    exact Or.inr ⟨n, hn, hc⟩

/-! ## IPv4 -/

def octets (a : BitVec 32) : List Nat :=
  [a.toNat / 2 ^ 24, a.toNat / 2 ^ 16 % 256, a.toNat / 2 ^ 8 % 256, a.toNat % 256]

theorem octets_lt (a : BitVec 32) : ∀ n ∈ octets a, n < 256 := by
  have := a.isLt
  simp only [octets, List.forall_mem_cons, List.not_mem_nil, false_imp_iff, implies_true, and_true]
  omega

theorem ofGroups_octets (a : BitVec 32) : BitVec.ofNat 32 (ofGroups 256 (octets a)) = a := by
  have := a.isLt
  apply BitVec.eq_of_toNat_eq
  simp only [BitVec.toNat_ofNat, ofGroups, octets, List.foldl_cons, List.foldl_nil]
  omega

/-- A decimal octet: no leading zero, at most 255. -/
def parseOctet (s : Text) : Option Nat :=
  if s.isEmpty || !s.all Text.isAsciiDigit || (s.length != 1 && s.head? == some '0') then none
  else
    let n := Nat.ofDigitChars 10 s 0
    if n ≤ 255 then some n else none

def printOctet (n : Nat) : Text := Nat.toDigits 10 n

theorem printOctet_spec : ∀ n < 256, parseOctet (printOctet n) = some n
    ∧ (printOctet n).all Text.isAsciiDigit = true := by decide +kernel

/-! ## IPv6 -/

def hextets (a : BitVec 128) : List Nat :=
  [a.toNat / 2 ^ 112, a.toNat / 2 ^ 96 % 65536, a.toNat / 2 ^ 80 % 65536, a.toNat / 2 ^ 64 % 65536,
    a.toNat / 2 ^ 48 % 65536, a.toNat / 2 ^ 32 % 65536, a.toNat / 2 ^ 16 % 65536, a.toNat % 65536]

theorem hextets_lt (a : BitVec 128) : ∀ n ∈ hextets a, n < 65536 := by
  have := a.isLt
  simp only [hextets, List.forall_mem_cons, List.not_mem_nil, false_imp_iff, implies_true, and_true]
  omega

theorem ofGroups_hextets (a : BitVec 128) : BitVec.ofNat 128 (ofGroups 65536 (hextets a)) = a := by
  have := a.isLt
  apply BitVec.eq_of_toNat_eq
  simp only [BitVec.toNat_ofNat, ofGroups, hextets, List.foldl_cons, List.foldl_nil]
  omega

def hexDigit (n : Nat) : Char := if n < 10 then Char.ofNat (48 + n) else Char.ofNat (87 + n)

def hexValue (c : Char) : Option Nat :=
  if Text.isAsciiDigit c then some (c.toNat - 48)
  else if 'a' ≤ c ∧ c ≤ 'f' then some (c.toNat - 87)
  else if 'A' ≤ c ∧ c ≤ 'F' then some (c.toNat - 55)
  else none

theorem hexDigit_spec : ∀ n < 16, hexValue (hexDigit n) = some n ∧ hexDigit n ≠ ':'
    ∧ hexDigit n ≠ '.' ∧ hexDigit n ≠ '/' ∧ Text.isWhitespace (hexDigit n) = false := by decide

/-- Four hexadecimal digits. -/
def printHextet (n : Nat) : Text :=
  [hexDigit (n / 4096 % 16), hexDigit (n / 256 % 16), hexDigit (n / 16 % 16), hexDigit (n % 16)]

/-- One to four hexadecimal digits. -/
def parseHextet (s : Text) : Option Nat :=
  if s.isEmpty || decide (4 < s.length) then none else (s.mapM hexValue).map (ofGroups 16)

theorem parse_printHextet {n : Nat} (h : n < 65536) : parseHextet (printHextet n) = some n := by
  have h1 := (hexDigit_spec (n / 4096 % 16) (by omega)).1
  have h2 := (hexDigit_spec (n / 256 % 16) (by omega)).1
  have h3 := (hexDigit_spec (n / 16 % 16) (by omega)).1
  have h4 := (hexDigit_spec (n % 16) (by omega)).1
  have hv : ofGroups 16 [n / 4096 % 16, n / 256 % 16, n / 16 % 16, n % 16] = n := by
    simp only [ofGroups, List.foldl_cons, List.foldl_nil]; omega
  simp [parseHextet, printHextet, h1, h2, h3, h4, hv]

theorem printHextet_chars {n : Nat} {c : Char} (h : c ∈ printHextet n) :
    c ≠ ':' ∧ c ≠ '.' ∧ c ≠ '/' ∧ Text.isWhitespace c = false := by
  simp only [printHextet, List.mem_cons, List.not_mem_nil, or_false] at h
  rcases h with rfl | rfl | rfl | rfl <;> exact (hexDigit_spec _ (by omega)).2

/-! ## The form -/

def plainPrint : IpAddr → Text
  | .v4 a => printGroups printOctet '.' (octets a)
  | .v6 a => printGroups printHextet ':' (hextets a)

def plainParse (s : Text) : Option IpAddr :=
  match parseGroups parseOctet '.' s with
  | some l => if l.length = 4 then some (.v4 (BitVec.ofNat 32 (ofGroups 256 l))) else none
  | none =>
    match parseGroups parseHextet ':' s with
    | some l => if l.length = 8 then some (.v6 (BitVec.ofNat 128 (ofGroups 65536 l))) else none
    | none => none

theorem not_mem_of_all_digits {s : Text} {c : Char} (hs : s.all Text.isAsciiDigit = true)
    (hc : Text.isAsciiDigit c = false) : c ∉ s := by
  intro h
  have := List.all_eq_true.mp hs c h
  simp [hc] at this

theorem plain_parse_print (a : IpAddr) : plainParse (plainPrint a) = some a := by
  cases a with
  | v4 a =>
    have hp : parseGroups parseOctet '.' (printGroups printOctet '.' (octets a)) = some (octets a) :=
      parse_printGroups (fun n hn => (printOctet_spec n (octets_lt a n hn)).1)
        (fun n hn => not_mem_of_all_digits (printOctet_spec n (octets_lt a n hn)).2 (by decide))
        (by simp [octets])
    simp only [plainParse, plainPrint, hp, ofGroups_octets]
    rfl
  | v6 a =>
    have hp : parseGroups parseHextet ':' (printGroups printHextet ':' (hextets a))
        = some (hextets a) :=
      parse_printGroups (fun n hn => parse_printHextet (hextets_lt a n hn))
        (fun n _ h => (printHextet_chars h).1 rfl) (by simp [hextets])
    -- without a dot the text is one group, and a colon is no digit
    have h4 : parseGroups parseOctet '.' (printGroups printHextet ':' (hextets a)) = none := by
      have hdot : ∀ x ∈ printGroups printHextet ':' (hextets a), (x == '.') = false := by
        intro x hx
        rcases mem_printGroups hx with rfl | ⟨n, _, hn⟩
        · decide
        · simpa using (printHextet_chars hn).2.1
      have hcolon : ':' ∈ printGroups printHextet ':' (hextets a) := by
        simp [printGroups, hextets, List.intercalate, printHextet]
      have hnone : parseOctet (printGroups printHextet ':' (hextets a)) = none := by
        unfold parseOctet
        rw [if_pos]
        have : (printGroups printHextet ':' (hextets a)).all Text.isAsciiDigit = false := by
          rw [List.all_eq_false]
          exact ⟨':', hcolon, by decide⟩
        simp [this]
      simp [parseGroups, List.splitOn, List.splitOnP_eq_singleton hdot, hnone]
    simp only [plainParse, plainPrint, h4, hp, ofGroups_hextets]
    rfl

theorem plain_print_chars (a : IpAddr) :
    ∀ c ∈ plainPrint a, c ≠ '/' ∧ Text.isWhitespace c = false := by
  intro c hc
  cases a with
  | v4 a =>
    rcases mem_printGroups hc with rfl | ⟨n, hn, hcn⟩
    · decide
    · have hd := List.all_eq_true.mp (printOctet_spec n (octets_lt a n hn)).2 c hcn
      refine ⟨fun h => ?_, ?_⟩
      · subst h; exact absurd hd (by decide)
      · simp only [Text.isAsciiDigit, Bool.and_eq_true, decide_eq_true_eq, Char.le_def,
          UInt32.le_iff_toNat_le] at hd
        have h0 : '0'.val.toNat = 48 := rfl
        have h9 : '9'.val.toNat = 57 := rfl
        have hn : c.toNat = c.val.toNat := rfl
        simp only [Text.isWhitespace, Bool.or_eq_false_iff, Bool.and_eq_false_iff,
          decide_eq_false_iff_not, beq_eq_false_iff_ne, ne_eq]
        omega
  | v6 a =>
    rcases mem_printGroups hc with rfl | ⟨n, _, hcn⟩
    · decide
    · exact (printHextet_chars hcn).2.2

/-- Dotted quads and full IPv6 groups. -/
def plain : IpText where
  print := plainPrint
  parse := plainParse
  parse_print := plain_parse_print
  print_chars := plain_print_chars

example : plain.parse "203.0.113.5".toList = some (.v4 0xCB007105#32) := by decide

end Slopmud.Sbc.IpText
