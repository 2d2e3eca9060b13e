import Slopmud.Broker.Accounts
import Slopmud.Broker.Telnet
import Slopmud.Sbc.Core
import Slopmud.Shard.Attach

/-!
# What a login is made of

The pure parts of the broker's `main.rs` that `handle_conn` and the admin handler
share: names, auth requests and auth blobs, the saved players that let a login
skip character creation, and the state of one connection.
-/

namespace Slopmud.Broker

open Slopmud.Sbc Slopmud.Shard

/-- A connection of the broker; it stands for its session id as well, a random number of 128 bits
that no two connections share. -/
abbrev ConnId := SessionId

/-! ## Names -/

/-- The characters of an account name. -/
def isNameChar (c : Char) : Bool := Text.isAsciiAlphanumeric c || c == '_' || c == '-'

/-- `sanitize_name` -/
def sanitizeName (s : Text) : Text := ((Text.trim s).filter isNameChar).take 20

/-- What `sanitize_name` makes of anything that it does not empty. -/
structure IsName (n : Text) : Prop where
  nonempty : n ≠ []
  chars : ∀ c ∈ n, isNameChar c = true
  short : n.length ≤ 20

/-! ## Identity providers -/

/-- The two providers whose `sub` an account can be linked to. `handle_conn` treats them alike. -/
inductive Provider where
  | google
  | oidc
deriving DecidableEq, Repr

def Provider.method : Provider → Text
  | .google => "google".toList
  | .oidc => "oidc".toList

def Provider.ofMethod? (method : Text) : Option Provider :=
  if method = "google".toList then some .google
  else if method = "oidc".toList then some .oidc
  else none

structure WebAuthReq where
  /-- login | create | auto -/
  action : Text
  /-- password | google | oidc -/
  method : Text
  name : Text
  password : Option Text
  googleSub : Option Text
  googleEmail : Option Text
  oidcSub : Option Text
  oidcEmail : Option Text
  caps : Option (List Text)
deriving DecidableEq, Repr

def WebAuthReq.sub (r : WebAuthReq) : Provider → Option Text
  | .google => r.googleSub
  | .oidc => r.oidcSub

def WebAuthReq.providerEmail (r : WebAuthReq) : Provider → Option Text
  | .google => r.googleEmail
  | .oidc => r.oidcEmail

namespace AccountRec

def sub (r : AccountRec) : Provider → Option Text
  | .google => r.googleSub
  | .oidc => r.oidcSub

def providerEmail (r : AccountRec) : Provider → Option Text
  | .google => r.googleEmail
  | .oidc => r.oidcEmail

/-- The record of an account created with a password. -/
def withPassword (name hash : Text) (caps : Option (List Text)) (nowUnix : Nat) : AccountRec where
  name := name
  pwHash := some hash
  googleSub := none
  googleEmail := none
  oidcSub := none
  oidcEmail := none
  caps := caps
  email := none
  createdUnix := nowUnix

/-- The record of an account created by a login with a provider. -/
def linked (p : Provider) (name sub : Text) (email : Option Text) (nowUnix : Nat) : AccountRec where
  name := name
  pwHash := none
  googleSub := if p = .google then some sub else none
  googleEmail := if p = .google then email else none
  oidcSub := if p = .oidc then some sub else none
  oidcEmail := if p = .oidc then email else none
  caps := none
  email := none
  createdUnix := nowUnix

end AccountRec

/-- `PendingAutoWebAuth`: an identity without an account, which waits for a name. -/
structure PendingAutoWebAuth where
  provider : Provider
  sub : Text
  email : Option Text
  caps : Option (List Text)
deriving DecidableEq, Repr

/-- The file through which the web servers report a Google login to the broker. -/
structure GoogleOAuthPending where
  code : Text
  /-- pending | ok | err -/
  status : Text
  createdUnix : Nat
  googleSub : Option Text
  googleEmail : Option Text
  error : Option Text
deriving DecidableEq, Repr

/-! ## Auth blobs -/

/-- A trimmed field, absent when that leaves nothing. -/
def blobField (v : Option Text) : Option Text := (v.map Text.trim).filter fun s => !s.isEmpty

def blobCap (s : Text) : Text := Text.toAsciiLowercase (Text.trim s)

def blobCaps (caps : Option (List Text)) : Option (List Text) :=
  (caps.map fun v =>
    ((v.map blobCap).filter fun s => !s.isEmpty && decide (Text.byteLen s ≤ 64)).take 32).filter
      fun v => !v.isEmpty

/-- `make_shard_auth_blob`, as the shard reads it. -/
def makeShardAuthBlob (acct method : Text) (googleSub googleEmail oidcSub oidcEmail : Option Text)
    (caps : Option (List Text)) : AuthBlob where
  acct := some (Text.trim acct)
  method := some (Text.toAsciiLowercase (Text.trim method))
  googleSub := blobField googleSub
  googleEmail := blobField googleEmail
  oidcSub := blobField oidcSub
  oidcEmail := blobField oidcEmail
  caps := blobCaps caps

/-- The blob of a password login. -/
def passwordBlob (acct : Text) (caps : Option (List Text)) : AuthBlob :=
  makeShardAuthBlob acct "password".toList none none none none caps

/-- The blob of a login with a provider. -/
def providerBlob (p : Provider) (acct sub : Text) (email : Option Text) (caps : Option (List Text)) :
    AuthBlob :=
  match p with
  | .google => makeShardAuthBlob acct p.method (some sub) email none none caps
  | .oidc => makeShardAuthBlob acct p.method none none (some sub) email caps

/-! ## Saved players -/

structure SavedPlayerSnapshot where
  name : Text
  isBot : Bool
  race : Text
  cls : Text
  sex : Text
  pronouns : Text
deriving DecidableEq, Repr

/-- What the broker reads of a snapshot that the shard wrote. -/
def SavedPlayerSnapshot.ofSnapshot (s : PlayerSnapshot) : SavedPlayerSnapshot where
  name := s.name
  isBot := s.isBot
  race := s.race
  cls := s.cls
  sex := s.sex
  pronouns := s.pronouns

/-- `load_saved_player`, of a file that `read` parses. -/
def loadSavedPlayer {Raw : Type} (read : Raw → Option (List SavedPlayerSnapshot))
    (file : Option Raw) (name : Text) : Option SavedPlayerSnapshot :=
  let target := sanitizeName name
  if target.isEmpty then none
  else (file.bind read).bind fun snapshots =>
    snapshots.find? fun p => Text.eqIgnoreAsciiCase (sanitizeName p.name) target

/-! ## Sessions -/

structure SessionInfo (Auth : Type) where
  name : Text
  held : Bool
  isBot : Bool
  auth : Option Auth
  race : Text
  cls : Text
  sex : Text
  pronouns : Text
  peerIp : IpAddr
deriving DecidableEq, Repr

/-- At most 255 bytes of a token travel. -/
def clipToken (t : Text) : Text := Utf8.decodeLossy ((Utf8.encode t).take 255)

/-- `attach_body`, as the shard reads it. `authLen` is the length of a blob in bytes. -/
def attachBody {Auth : Type} (authLen : Auth → Nat) (k : ConnId) (info : SessionInfo Auth) :
    AttachReq Auth where
  session := k
  isBot := info.isBot
  -- too long to encode: drop auth rather than truncating
  auth := info.auth.filter fun a => decide (authLen a ≤ 65535)
  race := some (clipToken info.race)
  cls := some (clipToken info.cls)
  sex := some (clipToken info.sex)
  pronouns := some (clipToken info.pronouns)
  name := info.name

inductive ShardMsg (Auth : Type) where
  | attach (r : AttachReq Auth)
  | input (session : SessionId) (line : Text)
  | detach (session : SessionId)
deriving DecidableEq, Repr

/-! ## Connections -/

inductive ConnState where
  | needName
  | needAuthMethod
  | needPasswordCreate
  | needPasswordLogin
  | needGoogleWait
  | needBotDisclosure
  | needPublicAck
  | needCocAck
  | needRace
  | needClass
  | needSex
  | needPronouns
  | inWorld
deriving DecidableEq, Repr

/-- The local variables of `handle_conn`. -/
structure Conn (Auth : Type) where
  peerIp : IpAddr
  peerPort : Nat
  trustedProxyPeer : Bool
  iac : IacParser
  linebuf : List Byte
  name : Option Text
  isBot : Option Bool
  authMethod : Option Text
  authBlob : Option Auth
  googleSub : Option Text
  googleEmail : Option Text
  oidcSub : Option Text
  oidcEmail : Option Text
  pendingAutoWebauth : Option PendingAutoWebAuth
  googleOauthCode : Option Text
  race : Option Text
  cls : Option Text
  sex : Option Text
  pronouns : Option Text
  passwordEchoDisabled : Bool
  state : ConnState
  proxyChecked : Bool
deriving DecidableEq, Repr

namespace Conn

variable {Auth : Type}

/-- The peer of a connection that comes from this host is trusted to speak for others. -/
def new (peerIp : IpAddr) (peerPort : Nat) : Conn Auth where
  peerIp := peerIp
  peerPort := peerPort
  trustedProxyPeer := peerIp.isLoopback
  iac := .data
  linebuf := []
  name := none
  isBot := none
  authMethod := none
  authBlob := none
  googleSub := none
  googleEmail := none
  oidcSub := none
  oidcEmail := none
  pendingAutoWebauth := none
  googleOauthCode := none
  race := none
  cls := none
  sex := none
  pronouns := none
  passwordEchoDisabled := false
  state := .needName
  proxyChecked := false

def setIdentity (c : Conn Auth) (p : Provider) (sub : Text) (email : Option Text) : Conn Auth :=
  match p with
  | .google => { c with googleSub := some sub, googleEmail := email }
  | .oidc => { c with oidcSub := some sub, oidcEmail := email }

/-- The connection has proved who it is, by a password or by a provider. -/
def authenticated (c : Conn Auth) (name method : Text) (blob : Auth) : Conn Auth :=
  { c with authMethod := some method, authBlob := some blob, name := some name }

end Conn

/-- `u16::from_str`. -/
def parseU16 (s : Text) : Option Nat :=
  let ds := (Text.stripPrefix ['+'] s).getD s
  if ds.isEmpty || !ds.all Text.isAsciiDigit then none
  else
    let n := Nat.ofDigitChars 10 ds 0
    if n ≤ 65535 then some n else none

/-- `parse_proxy_line_v1`: the address and port that the proxy speaks for. -/
def parseProxyLineV1 (T : IpText) (line : Text) : Option (IpAddr × Nat) :=
  match Text.splitWhitespace line with
  | proxy :: proto :: src :: _ :: sport :: _ :: _ =>
    if proxy ≠ "PROXY".toList then none
    else if proto ≠ "TCP4".toList ∧ proto ≠ "TCP6".toList then none
    else (T.parse src).bind fun srcIp =>
      if proto = "TCP4".toList ∧ srcIp.isV4 = false then none
      else if proto = "TCP6".toList ∧ srcIp.isV4 = true then none
      else (parseU16 sport).map fun srcPort => (srcIp, srcPort)
  | _ => none

/-! ## Character creation -/

def raceTokens : List Text :=
  ["dragonborn", "dwarf", "elf", "gnome", "goliath", "halfling", "human", "orc", "tiefling"].map
    String.toList

def classTokens : List Text :=
  ["barbarian", "bard", "cleric", "druid", "fighter", "monk", "paladin", "ranger", "rogue",
    "sorcerer", "warlock", "wizard"].map String.toList

/-- `normalize_pronouns`. Every locale has the same keys. -/
def normalizePronouns (s : Text) : Option Text :=
  let lc := Text.toAsciiLowercase (Text.trim s)
  if lc = "he".toList ∨ lc = "him".toList then some "he".toList
  else if lc = "she".toList ∨ lc = "her".toList then some "she".toList
  else if lc = "they".toList ∨ lc = "them".toList then some "they".toList
  else none

/-! ## E-mail addresses -/

def isAsciiText (s : Text) : Bool := s.all fun c => c.toNat < 128

def startsOrEndsWith (c : Char) (s : Text) : Bool := s.head? == some c || s.getLast? == some c

def hasDoubleDot : Text → Bool
  | '.' :: '.' :: _ => true
  | _ :: s => hasDoubleDot s
  | [] => false

def isLocalChar (c : Char) : Bool :=
  Text.isAsciiAlphanumeric c || decide (c ∈ ".!#$%&'*+/=?^_`\x7b|\x7d~-".toList)

def isDomainLabel (label : Text) : Bool :=
  !label.isEmpty && decide (label.length ≤ 63) && !startsOrEndsWith '-' label
    && label.all fun c => Text.isAsciiAlphanumeric c || c == '-'

/-- `normalize_email` -/
def normalizeEmail (s : Text) : Option Text :=
  let s := Text.trim s
  if s.isEmpty || decide (Text.byteLen s > 254) || !isAsciiText s
      || s.any (fun c => c.toNat < 32 || c.toNat == 127 || c == ' ') then none
  else
    match s.splitOn '@' with
    | [loc, domain] =>
      if loc.isEmpty || domain.isEmpty || decide (loc.length > 64) || startsOrEndsWith '.' loc
          || hasDoubleDot loc || !loc.all isLocalChar then none
      else if decide (domain.length > 253) || !decide ('.' ∈ domain) || startsOrEndsWith '.' domain
          || hasDoubleDot domain || !(domain.splitOn '.').all isDomainLabel then none
      else some (Text.toAsciiLowercase (loc ++ '@' :: domain))
    | _ => none

/-! ## Capabilities -/

def isCapChar (c : Char) : Bool :=
  Text.isAsciiLowercase c || Text.isAsciiDigit c || c == '.' || c == '_' || c == '-'

/-- The body of the loop of `normalize_caps_list`. -/
def normalizeCap (out : List Text) (raw : Text) : List Text :=
  let t := Text.toAsciiLowercase (Text.trim raw)
  if out.length ≥ 32 ∨ t.isEmpty ∨ Text.byteLen t > 64 ∨ !t.all isCapChar ∨ t ∈ out then out
  else out ++ [t]

/-- `normalize_caps_list` -/
def normalizeCapsList (caps : List Text) : List Text :=
  (caps.foldl normalizeCap []).mergeSort fun a b => decide (a ≤ b)

/-! ## Names, again -/

theorem isName_sanitizeName {s : Text} (h : (sanitizeName s).isEmpty = false) :
    IsName (sanitizeName s) where
  nonempty := by
    intro hnil
    rw [hnil] at h
    cases h
  chars := by
    intro c hc
    exact (List.mem_filter.mp (List.mem_of_mem_take hc)).2
  short := List.length_take_le _ _

theorem noWhitespace_of_isNameChar {c : Char} (h : isNameChar c = true) :
    Text.isWhitespace c = false := by
  have hval : c.toNat = 45 ∨ c.toNat = 95 ∨ (48 ≤ c.toNat ∧ c.toNat ≤ 57)
      ∨ (65 ≤ c.toNat ∧ c.toNat ≤ 90) ∨ (97 ≤ c.toNat ∧ c.toNat ≤ 122) := by
    simp only [isNameChar, Text.isAsciiAlphanumeric, Text.isAsciiDigit, Text.isAsciiLowercase,
      Text.isAsciiUppercase, Bool.or_eq_true, Bool.and_eq_true, decide_eq_true_eq, Char.le_def,
      UInt32.le_iff_toNat_le, beq_iff_eq] at h
    rcases h with (((hd | hl) | hu) | rfl) | rfl
    · exact Or.inr (Or.inr (Or.inl hd))
    · exact Or.inr (Or.inr (Or.inr (Or.inr hl)))
    · exact Or.inr (Or.inr (Or.inr (Or.inl hu)))
    · exact Or.inr (Or.inl rfl)
    · exact Or.inl rfl
  simp only [Text.isWhitespace, Bool.or_eq_false_iff, Bool.and_eq_false_iff, decide_eq_false_iff_not,
    beq_eq_false_iff_ne, ne_eq]
  omega

namespace IsName

variable {n : Text} (h : IsName n)

include h

theorem noWhitespace : Text.NoWhitespace n := fun c hc => noWhitespace_of_isNameChar (h.chars c hc)

theorem trim_eq : Text.trim n = n := Text.trim_of_noWhitespace h.noWhitespace

end IsName

end Slopmud.Broker
