import Slopmud.Lib.Text
import Slopmud.Lib.Word

/-!
# The shared types of the ban control plane

`sbc_core`: address prefixes, ban and hold entries, and the messages that
`sbc_raftd`, `sbc_enforcerd` and the broker exchange. How the standard library
prints and reads an address is a parameter (`IpText`); everything else is as the
crate computes it.
-/

namespace Slopmud.Sbc

inductive IpAddr where
  | v4 (a : BitVec 32)
  | v6 (a : BitVec 128)
deriving DecidableEq, Repr

def IpAddr.isV4 : IpAddr → Bool
  | .v4 _ => true
  | .v6 _ => false

/-- `127.0.0.0/8` and `::1`. -/
def IpAddr.isLoopback : IpAddr → Bool
  | .v4 a => a.extractLsb' 24 8 == 127
  | .v6 a => a == 1

/-- The textual form of addresses: `Display` and `FromStr` of the standard library. -/
structure IpText where
  print : IpAddr → Text
  parse : Text → Option IpAddr
  /-- What is printed reads back as the same address. -/
  parse_print : ∀ a, parse (print a) = some a
  /-- Addresses print as neither white space nor slashes. -/
  print_chars : ∀ a, ∀ c ∈ print a, c ≠ '/' ∧ Text.isWhitespace c = false

/-- `u8::from_str`: an optional plus sign, then decimal digits, at most 255. -/
def parseU8 (s : Text) : Option Nat :=
  let ds := (Text.stripPrefix ['+'] s).getD s
  if ds.isEmpty || !ds.all Text.isAsciiDigit then none
  else
    let n := Nat.ofDigitChars 10 ds 0
    if n ≤ 255 then some n else none

/-- `str::split_once`. -/
def splitOnce (d : Char) : Text → Option (Text × Text)
  | [] => none
  | c :: cs => if c = d then some ([], cs) else (splitOnce d cs).map fun p => (c :: p.1, p.2)

structure IpPrefix where
  addr : IpAddr
  prefixLen : Nat
deriving DecidableEq, Repr

def v4Mask (prefixLen : Nat) : BitVec 32 :=
  if prefixLen = 0 then 0 else BitVec.allOnes 32 <<< (32 - prefixLen)

def v6Mask (prefixLen : Nat) : BitVec 128 :=
  if prefixLen = 0 then 0 else BitVec.allOnes 128 <<< (128 - prefixLen)

namespace IpPrefix

/-- `IpPrefix::new`: refuses a prefix longer than the address, and masks the host bits. -/
def new : IpAddr → Nat → Option IpPrefix
  | .v4 a, n => if n > 32 then none else some ⟨.v4 (a &&& v4Mask n), n⟩
  | .v6 a, n => if n > 128 then none else some ⟨.v6 (a &&& v6Mask n), n⟩

def parseCidr (T : IpText) (s : Text) : Option IpPrefix := do
  let (ipS, plenS) ← splitOnce '/' (Text.trim s)
  let addr ← T.parse (Text.trim ipS)
  let prefixLen ← parseU8 (Text.trim plenS)
  new addr prefixLen

def toCidrString (T : IpText) (p : IpPrefix) : Text :=
  T.print p.addr ++ '/' :: Nat.toDigits 10 p.prefixLen

def containsIp (p : IpPrefix) (ip : IpAddr) : Bool :=
  match p.addr, ip with
  | .v4 a, .v4 b => (a &&& v4Mask p.prefixLen) == (b &&& v4Mask p.prefixLen)
  | .v6 a, .v6 b => (a &&& v6Mask p.prefixLen) == (b &&& v6Mask p.prefixLen)
  | _, _ => false

def containsPrefix (p other : IpPrefix) : Bool :=
  if p.addr.isV4 != other.addr.isV4 then false
  else if p.prefixLen > other.prefixLen then false
  else p.containsIp other.addr

end IpPrefix

structure BanEntry where
  banId : Text
  key : IpPrefix
  createdAtUnix : Nat
  createdBy : Text
  reason : Text
  expiresAtUnix : Nat
deriving DecidableEq, Repr

structure LegalHoldEntry where
  nameLc : Text
  createdAtUnix : Nat
  createdBy : Text
  reason : Text
deriving DecidableEq, Repr

structure EnforcementStatus where
  nodeId : Text
  dnsName : Text
  dnsEnabled : Bool
  dnsLastError : Option Text
  backend : Text
  backendAttached : Bool
  /-- `enforcing` or `fail_open`. -/
  enforcementMode : Text
  reportedAtUnix : Nat
deriving DecidableEq, Repr

structure BanApplyResult where
  nodeId : Text
  banId : Text
  /-- `upsert`, `delete` or `sync`. -/
  op : Text
  /-- `ok`, `err` or `skipped`. -/
  result : Text
  error : Option Text
  reportedAtUnix : Nat
deriving DecidableEq, Repr

inductive AdminReq where
  | upsertBan (key : Text) (ttlS : Nat) (createdBy reason : Text)
  | deleteBan (banId : Text)
  | upsertLegalHold (name createdBy reason : Text)
  | deleteLegalHold (name : Text)
  | reportEnforcementStatus (status : EnforcementStatus)
  | reportBanApplyResult (report : BanApplyResult)
  | getState
deriving DecidableEq, Repr

inductive AdminResp where
  | ok (index : Nat)
  | okBan (index : Nat) (entry : BanEntry)
  | okLegalHold (index : Nat) (entry : LegalHoldEntry)
  | okState (index : Nat) (bans : List BanEntry) (holds : List LegalHoldEntry)
  | err (message : Text)
deriving DecidableEq, Repr

inductive Event where
  | snapshot (bans : List BanEntry) (holds : List LegalHoldEntry)
  | banUpserted (entry : BanEntry)
  | banDeleted (banId : Text)
  | legalHoldUpserted (entry : LegalHoldEntry)
  | legalHoldDeleted (nameLc : Text)
  | enforcementStatus (status : EnforcementStatus)
  | banApplyResult (report : BanApplyResult)
deriving DecidableEq, Repr

structure EventEnvelope where
  index : Nat
  event : Event
deriving DecidableEq, Repr

structure ExemptPrefixes where
  prefixes : List IpPrefix
deriving DecidableEq, Repr

namespace ExemptPrefixes

def containsIp (x : ExemptPrefixes) (ip : IpAddr) : Bool := x.prefixes.any (·.containsIp ip)

def containsPrefix (x : ExemptPrefixes) (pfx : IpPrefix) : Bool :=
  x.prefixes.any (·.containsPrefix pfx)

end ExemptPrefixes

end Slopmud.Sbc
