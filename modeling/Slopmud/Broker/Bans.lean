import Slopmud.Lib.Codec
import Slopmud.Lib.Table
import Slopmud.Sbc.Core

/-!
# The broker's ban list

`ban.rs`: characters by lower-case name, address prefixes in the order they were
banned. The list is read from a JSON file at start, and every change rewrites the
file. A ban keeps the text of its prefix as it was read; the prefix itself is
parsed once, and the list carries the proof that the two agree.
-/

namespace Slopmud.Broker

open Slopmud.Sbc

structure CharacterBan where
  nameLc : Text
  createdUnix : Nat
  createdBy : Text
  reason : Text
deriving DecidableEq, Repr

structure IpBan where
  cidr : Text
  createdUnix : Nat
  createdBy : Text
  reason : Text
deriving DecidableEq, Repr

structure BanListFile where
  version : Nat
  updatedUnix : Nat
  characterBans : List CharacterBan
  ipBans : List IpBan
deriving DecidableEq, Repr

/-- `parse_ip_prefix`: a plain address is a prefix of full length. -/
def parseIpPrefix (T : IpText) (s : Text) : Option IpPrefix :=
  if '/' ∈ s then IpPrefix.parseCidr T s
  else (T.parse s).bind fun ip => IpPrefix.new ip (if ip.isV4 then 32 else 128)

/-- The prefix that a `cidr` text stands for. -/
def readCidr (T : IpText) (s : Text) : Option IpPrefix :=
  let cidr := Text.trim s
  if cidr.isEmpty then none else parseIpPrefix T cidr

structure BanState (T : IpText) where
  chars : Table Text CharacterBan
  ips : List (IpPrefix × IpBan)
  updatedUnix : Nat
  named : ∀ n b, chars.lookup n = some b → b.nameLc = n
  parsed : ∀ e ∈ ips, readCidr T e.2.cidr = some e.1

/-! ## Prefixes read back -/

theorem and_v4Mask_idem (a : BitVec 32) (n : Nat) : a &&& v4Mask n &&& v4Mask n = a &&& v4Mask n := by
  rw [BitVec.and_assoc, BitVec.and_self]

theorem and_v6Mask_idem (a : BitVec 128) (n : Nat) :
    a &&& v6Mask n &&& v6Mask n = a &&& v6Mask n := by
  rw [BitVec.and_assoc, BitVec.and_self]

/-- A prefix has no host bits left to mask. -/
theorem new_of_new {ip : IpAddr} {n : Nat} {p : IpPrefix} (h : IpPrefix.new ip n = some p) :
    p.prefixLen ≤ 128 ∧ IpPrefix.new p.addr p.prefixLen = some p := by
  cases ip with
  | v4 a =>
    simp only [IpPrefix.new] at h
    split at h
    · cases h
    · next hn =>
      cases h
      exact ⟨by simp only; omega, by simp only [IpPrefix.new, if_neg hn, and_v4Mask_idem]⟩
  | v6 a =>
    simp only [IpPrefix.new] at h
    split at h
    · cases h
    · next hn =>
      cases h
      exact ⟨by simp only; omega, by simp only [IpPrefix.new, if_neg hn, and_v6Mask_idem]⟩

theorem splitOnce_append {d : Char} {s t : Text} (h : d ∉ s) :
    splitOnce d (s ++ d :: t) = some (s, t) := by
  induction s with
  | nil => simp [splitOnce]
  | cons c s ih =>
    obtain ⟨hc, hs⟩ : d ≠ c ∧ d ∉ s := by simpa using h
    simp [splitOnce, Ne.symm hc, ih hs]

theorem isAsciiDigit_toDigits {n : Nat} {c : Char} (h : c ∈ Nat.toDigits 10 n) :
    Text.isAsciiDigit c = true := by
  have hd : c.isDigit = true := Nat.isDigit_of_mem_toDigits (by omega) (by omega) h
  simpa [Text.isAsciiDigit, Char.isDigit, Char.le_def] using hd

theorem noWhitespace_of_isAsciiDigit {c : Char} (h : Text.isAsciiDigit c = true) :
    Text.isWhitespace c = false := by
  have hc : 48 ≤ c.toNat ∧ c.toNat ≤ 57 := by
    simpa [Text.isAsciiDigit, Char.le_def, UInt32.le_iff_toNat_le] using h
  have hne : ∀ n, n < 48 ∨ 57 < n → (c.toNat == n) = false := by
    intro n hn
    rw [beq_eq_false_iff_ne]
    omega
  have hle : ∀ n, n < 48 → decide (c.toNat ≤ n) = false := by
    intro n hn
    rw [decide_eq_false_iff_not]
    omega
  have hge : decide (0x2000 ≤ c.toNat) = false := by
    rw [decide_eq_false_iff_not]
    omega
  simp [Text.isWhitespace, hne, hle, hge]

/-- A number of at most eight bits reads back from its digits. -/
theorem parseU8_toDigits {n : Nat} (h : n ≤ 255) : parseU8 (Nat.toDigits 10 n) = some n := by
  have hdigits : (Nat.toDigits 10 n).all Text.isAsciiDigit = true :=
    List.all_eq_true.mpr fun _ hc => isAsciiDigit_toDigits hc
  have hne : (Nat.toDigits 10 n).isEmpty = false := by simp [Nat.toDigits_ne_nil]
  -- no digit is a plus sign
  have hplus : Text.stripPrefix ['+'] (Nat.toDigits 10 n) = none := by
    cases hd : Nat.toDigits 10 n with
    | nil => exact absurd hd Nat.toDigits_ne_nil
    | cons c cs =>
      have hc : Text.isAsciiDigit c = true := isAsciiDigit_toDigits (hd ▸ List.mem_cons_self)
      have hcplus : '+' ≠ c := by
        rintro rfl
        cases hc
      simp [Text.stripPrefix, hcplus]
  simp only [parseU8, hplus, Option.getD_none, hne, hdigits, Nat.ofDigitChars_ten_toDigits]
  simp [h]

theorem noWhitespace_toDigits (n : Nat) : Text.NoWhitespace (Nat.toDigits 10 n) :=
  fun _ hc => noWhitespace_of_isAsciiDigit (isAsciiDigit_toDigits hc)

theorem noWhitespace_print (T : IpText) (a : IpAddr) : Text.NoWhitespace (T.print a) :=
  fun c hc => (T.print_chars a c hc).2

theorem noWhitespace_toCidrString (T : IpText) (p : IpPrefix) : Text.NoWhitespace (p.toCidrString T) := by
  intro c hc
  rw [IpPrefix.toCidrString, List.mem_append, List.mem_cons] at hc
  rcases hc with hc | rfl | hc
  · exact noWhitespace_print T _ c hc
  · decide
  · exact noWhitespace_toDigits _ c hc

/-- Only one prefix prints as this. -/
theorem toCidrString_inj {T : IpText} {p q : IpPrefix} (h : p.toCidrString T = q.toCidrString T) : p = q := by
  have hslash : ∀ a : IpAddr, '/' ∉ T.print a := fun a hc => (T.print_chars a '/' hc).1 rfl
  obtain ⟨haddr, hlen⟩ := Text.first_inj (hslash p.addr) (hslash q.addr) h
  have hparse : T.parse (T.print p.addr) = T.parse (T.print q.addr) := by rw [haddr]
  rw [T.parse_print, T.parse_print] at hparse
  have hdigits : Nat.ofDigitChars 10 (Nat.toDigits 10 p.prefixLen) 0
      = Nat.ofDigitChars 10 (Nat.toDigits 10 q.prefixLen) 0 := by rw [hlen]
  rw [Nat.ofDigitChars_toDigits (by decide) (by decide),
    Nat.ofDigitChars_toDigits (by decide) (by decide)] at hdigits
  cases p
  cases q
  simp_all

/-- **A normalised prefix reads back as itself.** -/
theorem parseCidr_toCidrString (T : IpText) {ip : IpAddr} {n : Nat} {p : IpPrefix}
    (h : IpPrefix.new ip n = some p) : IpPrefix.parseCidr T (p.toCidrString T) = some p := by
  obtain ⟨hlen, hnew⟩ := new_of_new h
  have hslash : '/' ∉ T.print p.addr := fun hc => (T.print_chars p.addr _ hc).1 rfl
  have hdigits : Text.trim (Nat.toDigits 10 p.prefixLen) = Nat.toDigits 10 p.prefixLen :=
    Text.trim_of_noWhitespace (noWhitespace_toDigits _)
  rw [IpPrefix.parseCidr, Text.trim_of_noWhitespace (noWhitespace_toCidrString T p), IpPrefix.toCidrString,
    splitOnce_append hslash]
  simp [Text.trim_of_noWhitespace (noWhitespace_print T _), hdigits, T.parse_print,
    parseU8_toDigits (by omega : p.prefixLen ≤ 255), hnew]

theorem readCidr_toCidrString (T : IpText) {ip : IpAddr} {n : Nat} {p : IpPrefix}
    (h : IpPrefix.new ip n = some p) : readCidr T (p.toCidrString T) = some p := by
  have hne : (p.toCidrString T).isEmpty = false := by
    rw [IpPrefix.toCidrString]
    simp
  have hmem : '/' ∈ p.toCidrString T := by simp [IpPrefix.toCidrString]
  simp only [readCidr, Text.trim_of_noWhitespace (noWhitespace_toCidrString T p), hne, Bool.false_eq_true,
    if_false, parseIpPrefix, if_pos hmem, parseCidr_toCidrString T h]

/-- Every prefix that `parse_ip_prefix` returns comes from `IpPrefix::new`. -/
theorem new_of_parseIpPrefix {T : IpText} {s : Text} {p : IpPrefix} (h : parseIpPrefix T s = some p) :
    ∃ ip n, IpPrefix.new ip n = some p := by
  unfold parseIpPrefix at h
  split at h
  · simp only [IpPrefix.parseCidr, Option.bind_eq_bind, Option.bind_eq_some_iff] at h
    obtain ⟨_, -, ip, -, n, -, h⟩ := h
    exact ⟨ip, n, h⟩
  · obtain ⟨ip, -, h⟩ := Option.bind_eq_some_iff.mp h
    exact ⟨ip, _, h⟩

theorem readCidr_eq_some {T : IpText} {s : Text} {p : IpPrefix} (h : readCidr T s = some p) :
    parseIpPrefix T (Text.trim s) = some p := by
  simp only [readCidr] at h
  split at h
  · cases h
  · exact h

namespace BanState

variable {T : IpText}

def empty : BanState T where
  chars := ∅
  ips := []
  updatedUnix := 0
  named := by simp
  parsed := by simp

/-! ## Loading -/

/-- The body of the loop over the character bans of the file. -/
def loadChar (chars : Table Text CharacterBan) (b : CharacterBan) : Table Text CharacterBan :=
  if (Text.trim b.nameLc).isEmpty then chars else chars.insert b.nameLc b

theorem loadChar_named {chars : Table Text CharacterBan}
    (h : ∀ n b, chars.lookup n = some b → b.nameLc = n) (b : CharacterBan) :
    ∀ n b', (loadChar chars b).lookup n = some b' → b'.nameLc = n := by
  intro n b' hb
  unfold loadChar at hb
  split at hb
  · exact h n b' hb
  · rw [Table.lookup_insert_eq] at hb
    split at hb
    · next hn => cases hb; exact hn.symm
    · exact h n b' hb

theorem foldl_loadChar_named {v : List CharacterBan} {chars : Table Text CharacterBan}
    (h : ∀ n b, chars.lookup n = some b → b.nameLc = n) :
    ∀ n b, (v.foldl loadChar chars).lookup n = some b → b.nameLc = n := by
  induction v generalizing chars with
  | nil => exact h
  | cons b v ih => exact ih (loadChar_named h b)

/-- The bans of addresses that can be read. -/
def loadIps (T : IpText) (v : List IpBan) : List (IpPrefix × IpBan) :=
  v.filterMap fun b => (readCidr T b.cidr).map fun pfx => (pfx, b)

theorem mem_loadIps {v : List IpBan} {e : IpPrefix × IpBan} :
    e ∈ loadIps T v ↔ e.2 ∈ v ∧ readCidr T e.2.cidr = some e.1 := by
  simp only [loadIps, List.mem_filterMap, Option.map_eq_some_iff]
  constructor
  · rintro ⟨b, hb, pfx, hp, rfl⟩
    exact ⟨hb, hp⟩
  · rintro ⟨hb, hp⟩
    exact ⟨e.2, hb, e.1, hp, rfl⟩

/-- The state that `reload` builds from a parsed file. -/
def ofFile (T : IpText) (f : BanListFile) : BanState T where
  chars := f.characterBans.foldl loadChar ∅
  ips := loadIps T f.ipBans
  updatedUnix := f.updatedUnix
  named := foldl_loadChar_named (by simp)
  parsed := fun _ he => (mem_loadIps.mp he).2

variable {Raw : Type} (J : Codec Raw BanListFile)

/-- `BanState::reload`. A file that is not there is an empty list; one that cannot be read or
parsed is an error. -/
def reload (readOk : Bool) (file : Option Raw) : Option (BanState T) :=
  match file with
  | none => some empty
  | some raw =>
    if !readOk then none else (J.parse raw).map (ofFile T)

/-- `BanState::load` drops the error. -/
def load (readOk : Bool) (file : Option Raw) : BanState T := (reload J readOk file).getD empty

/-! ## Lookup -/

def isCharBanned (st : BanState T) (name : Text) : Option CharacterBan :=
  let k := Text.toAsciiLowercase (Text.trim name)
  if k.isEmpty then none else st.chars.lookup k

def isIpBanned (st : BanState T) (ip : IpAddr) : Option IpBan :=
  (st.ips.find? fun e => e.1.containsIp ip).map Prod.snd

/-! ## Changes -/

/-- `upsert_char_ban`, up to the save. -/
def upsertCharBan (st : BanState T) (name : Text) (createdUnix : Nat) (createdBy reason : Text) :
    Option (BanState T) :=
  let nameLc := Text.toAsciiLowercase (Text.trim name)
  if nameLc.isEmpty then none
  else some { st with
    chars := st.chars.insert nameLc ⟨nameLc, createdUnix, createdBy, reason⟩
    updatedUnix := max createdUnix st.updatedUnix
    named := by
      intro n b hb
      rw [Table.lookup_insert_eq] at hb
      split at hb
      · next hn => cases hb; exact hn.symm
      · exact st.named n b hb }

/-- `upsert_ip_ban`, up to the save. -/
def upsertIpBan (st : BanState T) (cidr : Text) (createdUnix : Nat) (createdBy reason : Text) :
    Option (BanState T) :=
  match h : readCidr T cidr with
  | none => none
  | some pfx => some { st with
    ips := st.ips.filter (fun e => e.1 ≠ pfx) ++
      [(pfx, ⟨pfx.toCidrString T, createdUnix, createdBy, reason⟩)]
    updatedUnix := max createdUnix st.updatedUnix
    parsed := by
      intro e he
      rcases List.mem_append.mp he with he | he
      · exact st.parsed e (List.mem_filter.mp he).1
      · obtain ⟨ip, n, hnew⟩ := new_of_parseIpPrefix (readCidr_eq_some h)
        rw [List.mem_singleton.mp he]
        exact readCidr_toCidrString T hnew }

theorem upsertCharBan_some {st st' : BanState T} {name : Text} {t : Nat} {who why : Text}
    (h : st.upsertCharBan name t who why = some st') :
    st'.chars = st.chars.insert (Text.toAsciiLowercase (Text.trim name))
        ⟨Text.toAsciiLowercase (Text.trim name), t, who, why⟩ ∧ st'.ips = st.ips
      ∧ st'.updatedUnix = max t st.updatedUnix := by
  simp only [upsertCharBan] at h
  split at h
  · cases h
  · cases h; exact ⟨rfl, rfl, rfl⟩

theorem upsertIpBan_some {st st' : BanState T} {cidr : Text} {t : Nat} {who why : Text}
    (h : st.upsertIpBan cidr t who why = some st') :
    ∃ pfx, readCidr T cidr = some pfx ∧ st'.chars = st.chars ∧
      st'.ips = st.ips.filter (fun e => e.1 ≠ pfx) ++ [(pfx, ⟨pfx.toCidrString T, t, who, why⟩)]
      ∧ st'.updatedUnix = max t st.updatedUnix := by
  unfold upsertIpBan at h
  split at h
  · cases h
  · next pfx hp => cases h; exact ⟨pfx, hp, rfl, rfl, rfl⟩

theorem exists_upsertIpBan (st : BanState T) {cidr : Text} {pfx : IpPrefix}
    (h : readCidr T cidr = some pfx) (t : Nat) (who why : Text) :
    ∃ st', st.upsertIpBan cidr t who why = some st' := by
  unfold upsertIpBan
  split
  · next hn => rw [h] at hn; cases hn
  · exact ⟨_, rfl⟩

/-! ## Saving -/

def snapshotFile (st : BanState T) : BanListFile where
  version := 1
  updatedUnix := st.updatedUnix
  characterBans := (Table.values st.chars).mergeSort fun a b => decide (a.nameLc ≤ b.nameLc)
  ipBans := (st.ips.map Prod.snd).mergeSort fun a b => decide (a.cidr ≤ b.cidr)

/-- `BanState::save`, when it succeeds. -/
def print (st : BanState T) : Raw := J.print st.snapshotFile

end BanState

end Slopmud.Broker
