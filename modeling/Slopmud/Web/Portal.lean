import Slopmud.Lib.Table
import Slopmud.Lib.Utf8
import Slopmud.Sbc.Core
import Slopmud.Web.AccessKeys

/-!
# The compliance portal

The handlers of the portal on its state: the key file, the open sessions, the
actions that wait for a confirmation, and the two log files. `compliance_action_confirm`
carries the actions out. What the world decides (clock, random texts, which write
to a log fails, what S3 and the broker answer) is in `PortalEnv`.
-/

namespace Slopmud.Web

open Slopmud.Sbc (IpAddr)

/-! ## Texts -/

/-- `char::is_control` -/
def isControl (c : Char) : Bool := c.toNat < 0x20 || (0x7F ≤ c.toNat && c.toNat ≤ 0x9F)

/-- `{:04x}` -/
def hex4 (n : Nat) : Text :=
  let ds := Nat.toDigits 16 n
  List.replicate (4 - ds.length) '0' ++ ds

def logfmtChar (c : Char) : Text :=
  if c = '\\' then "\\\\".toList
  else if c = '"' then "\\\"".toList
  else if c = '\n' then "\\n".toList
  else if c = '\r' then "\\r".toList
  else if c = '\t' then "\\t".toList
  else if isControl c then "\\u".toList ++ hex4 c.toNat
  else [c]

/-- `logfmt_str` -/
def logfmtStr (s : Text) : Text := '"' :: s.flatMap logfmtChar ++ ['"']

/-- The part before the first of these characters, and the part after it. -/
def splitAtChar (d : Char) (s : Text) : Option (Text × Text) := Slopmud.Sbc.splitOnce d s

/-- `redact_email` -/
def redactEmail (email : Text) : Text :=
  match splitAtChar '@' (Text.trim email) with
  | none => "(redacted)".toList
  | some (loc, dom) => (loc.take 1) ++ "***@".toList ++ dom

def trimDots (s : Text) : Text := (s.reverse.dropWhile (· == '.')).reverse

/-- `normalize_suffix` -/
def normalizeSuffix (s : Text) : Text :=
  Text.toAsciiLowercase (trimDots ((Text.trim s).dropWhile (· == '.')))

/-- `email_allowed_by_rules`, over the suffixes of the rules. -/
def emailAllowedByRules (email : Text) (suffixes : List Text) : Bool :=
  -- `rsplit_once('@')`
  match splitAtChar '@' (Text.trim email).reverse with
  | none => false
  | some (dom, _) =>
    let domain := Text.toAsciiLowercase (trimDots (Text.trim dom.reverse))
    if domain.isEmpty then false
    else suffixes.any fun suffix =>
      let suf := normalizeSuffix suffix
      !suf.isEmpty && (domain == suf || (('.' :: suf).isSuffixOf domain))

/-! ## State -/

inductive ActionKind where
  | login
  | viewCharacters
  | downloadAll
  | downloadLogin
  | downloadCharacter (name : Text)
  | banCharacter (name : Text)
  | banIpPrefix (cidr : Text)
deriving DecidableEq, Repr

inductive ReasonCode where
  | bullying
  | threatsViolence
  | fraudImpersonation
  | lawEnforcement
  | otherwiseRequiredByLaw
deriving DecidableEq, Repr

namespace ReasonCode

def all : List ReasonCode :=
  [.bullying, .threatsViolence, .fraudImpersonation, .lawEnforcement, .otherwiseRequiredByLaw]

def asKey : ReasonCode → Text
  | .bullying => "bullying".toList
  | .threatsViolence => "threats_violence".toList
  | .fraudImpersonation => "fraud_impersonation".toList
  | .lawEnforcement => "law_enforcement".toList
  | .otherwiseRequiredByLaw => "otherwise_required_by_law".toList

def parse (s : Text) : Option ReasonCode := all.find? fun r => r.asKey == Text.trim s

end ReasonCode

structure ComplianceSession where
  email : Text
  createdUnix : Nat
  expiresUnix : Nat
deriving DecidableEq, Repr

structure PendingAction where
  id : Text
  email : Text
  requesterIp : IpAddr
  createdUnix : Nat
  kind : ActionKind
  reason : Option ReasonCode
  keyHashHex : Option Text
deriving DecidableEq, Repr

structure ComplianceConfig where
  enabled : Bool
  emailSuffixes : List Text
  sessionTtlS : Nat
  publicLogEnabled : Bool
  publicLogRedactEmail : Bool
deriving DecidableEq, Repr

/-- What the portal uses of other libraries: the hash of a text, and how a time and an address are
printed. A time that is no date prints as the current one. -/
structure PortalLib where
  sha256Hex : Text → Text
  rfc3339 : (unix now : Nat) → Text
  printIp : IpAddr → Text

/-- An action that was carried out, with the lines that are to be in the logs, and how long the
logs were before its request. -/
structure Carried where
  action : PendingAction
  auditLine : Text
  publicLine : Text
  auditMark : Nat
  publicMark : Nat
deriving DecidableEq, Repr

structure Portal where
  keys : Option KeyDb
  sessions : Table Text ComplianceSession
  pending : Table Text PendingAction
  auditLog : Bytes
  publicLog : Bytes
  /-- The actions carried out so far. -/
  carried : List Carried

def Portal.start (keys : Option KeyDb) (auditLog publicLog : Bytes) : Portal :=
  ⟨keys, ∅, ∅, auditLog, publicLog, []⟩

/-- Where an append to a log goes wrong. -/
inductive AppendFault where
  | createDir
  | open
  /-- `write_all` of the line fails after `n` bytes. -/
  | line (n : Nat)
  /-- `write_all` of the newline fails. -/
  | newline
deriving DecidableEq, Repr

/-- The answer of the broker's admin port to a ban. -/
inductive BrokerReply where
  | unreachable
  /-- The request was sent, and the connection broke. -/
  | silent
  | replied (line : Text)
deriving DecidableEq, Repr

structure PortalEnv where
  now : Nat
  /-- A later reading of the clock in the same request. -/
  later : Nat
  randomHex : Text
  keyFileFails : Bool
  auditFault : Option AppendFault
  publicFault : Option AppendFault
  characters : Option (List Text)
  links : Option Text
  broker : BrokerReply
deriving DecidableEq, Repr

inductive Response where
  | notFound
  | badRequest (message : Text)
  | forbidden (message : Text)
  | internalServerError
  | serviceUnavailable
  | redirect (cookie : Option Text)
  | loginPage
  | portalHome (email : Text)
  | keySent
  | preview (publicLine pendingId : Text)
  | characters (names : List Text)
  | links (html : Text)
  | banned (reply : Text)
deriving DecidableEq, Repr

/-! ## Logging -/

def actionText : ActionKind → Text
  | .login => "login".toList
  | .viewCharacters => "view_characters".toList
  | .downloadAll => "download_all".toList
  | .downloadLogin => "download_login".toList
  | .downloadCharacter name => "download_character:".toList ++ name
  | .banCharacter name => "ban_character:".toList ++ name
  | .banIpPrefix cidr => "ban_ip_prefix:".toList ++ cidr

/-- One line of either log. -/
def logLine (ts action reason email emailHash ip : Text) : Text :=
  "ts=".toList ++ logfmtStr ts ++ " action=".toList ++ logfmtStr action
    ++ " reason=".toList ++ logfmtStr reason ++ " email=".toList ++ logfmtStr email
    ++ " email_hash=".toList ++ logfmtStr emailHash ++ " ip=".toList ++ logfmtStr ip

/-- `format_compliance_log_entries`: the public line and the audit line. -/
def formatComplianceLogEntries (cfg : ComplianceConfig) (L : PortalLib) (now : Nat)
    (p : PendingAction) : Text × Text :=
  -- the time of the preview, so the line shown is the line written on confirm
  let ts := L.rfc3339 p.createdUnix now
  let action := actionText p.kind
  let reason := (p.reason.map ReasonCode.asKey).getD []
  let emailPublic := if cfg.publicLogRedactEmail then redactEmail p.email else p.email
  let emailHash := L.sha256Hex p.email
  let ip := L.printIp p.requesterIp
  (logLine ts action reason emailPublic emailHash ip, logLine ts action reason p.email emailHash ip)

/-- `append_line`: whether it succeeds, and the file after it. -/
def appendLine (log : Bytes) (line : Text) : Option AppendFault → Bool × Bytes
  | none => (true, log ++ (Utf8.encode line ++ [10]))
  | some .createDir => (false, log)
  | some .open => (false, log)
  | some (.line n) => (false, log ++ (Utf8.encode line).take n)
  | some .newline => (false, log ++ Utf8.encode line)

/-- `write_compliance_logs`; its error is only warned about. -/
def writeComplianceLogs (cfg : ComplianceConfig) (L : PortalLib) (env : PortalEnv) (p : PendingAction)
    (s : Portal) : Portal :=
  let (publicLine, auditLine) := formatComplianceLogEntries cfg L env.now p
  let (ok, auditLog) := appendLine s.auditLog auditLine env.auditFault
  let s := { s with auditLog }
  if ok && cfg.publicLogEnabled then
    { s with publicLog := (appendLine s.publicLog publicLine env.publicFault).2 }
  else s

/-! ## Handlers -/

/-- `get_session`: expired sessions are dropped on the way. -/
def getSession (s : Portal) (cookie : Option Text) (now : Nat) : Option ComplianceSession × Portal :=
  match cookie with
  | none => (none, s)
  | some token =>
    let sessions := s.sessions.retain fun _ c => decide (c.expiresUnix > now)
    (sessions.lookup token, { s with sessions })

variable (cfg : ComplianceConfig) (L : PortalLib)

def complianceHome (env : PortalEnv) (cookie : Option Text) (s : Portal) : Response × Portal :=
  if !cfg.enabled then (.notFound, s)
  else
    match getSession s cookie env.now with
    | (some sess, s) => (.portalHome sess.email, s)
    | (none, s) => (.loginPage, s)

def complianceRequestKey (env : PortalEnv) (email : Text) (s : Portal) : Response × Portal :=
  if !cfg.enabled then (.notFound, s)
  else
    let email := Text.trim email
    if Text.byteLen email > 254 then (.badRequest "bad email\n".toList, s)
    -- avoid enumerating allowed domains; always respond success-ish
    else if !emailAllowedByRules email cfg.emailSuffixes then (.keySent, s)
    else
      let rec' := KeyRec.issue (L.sha256Hex env.randomHex) email env.now
      if env.keyFileFails then (.internalServerError, s)
      else (.keySent, { s with keys := some (upsertKeyRec s.keys env.later rec') })

def complianceLogin (env : PortalEnv) (ip : IpAddr) (accessKey : Text) (s : Portal) :
    Response × Portal :=
  if !cfg.enabled then (.notFound, s)
  else
    let key := Text.trim accessKey
    if key.isEmpty || decide (Text.byteLen key > 128) then (.badRequest "bad key\n".toList, s)
    else
      let keyHash := L.sha256Hex key
      if env.keyFileFails then (.internalServerError, s)
      else
        match findValidKey s.keys env.now keyHash with
        | none => (.forbidden "bad/expired key\n".toList, s)
        | some rec' =>
          -- require confirmation before we create a public log entry
          let p : PendingAction :=
            { id := env.randomHex, email := rec'.email, requesterIp := ip, createdUnix := env.later,
              kind := .login, reason := none, keyHashHex := some keyHash }
          (.preview (formatComplianceLogEntries cfg L env.later p).1 p.id,
            { s with pending := s.pending.insert p.id p })

structure ActionForm where
  action : Text
  reason : Text
  character : Text
  cidr : Text
deriving DecidableEq, Repr

def ActionForm.kind (f : ActionForm) : Option ActionKind :=
  if f.action = "view_characters".toList then some .viewCharacters
  else if f.action = "download_all".toList then some .downloadAll
  else if f.action = "download_login".toList then some .downloadLogin
  else if f.action = "download_character".toList then some (.downloadCharacter (Text.trim f.character))
  else if f.action = "ban_character".toList then some (.banCharacter (Text.trim f.character))
  else if f.action = "ban_ip_prefix".toList then some (.banIpPrefix (Text.trim f.cidr))
  else none

/-- Basic validation of an action; the message of the refusal. -/
def invalidKind : ActionKind → Option Text
  | .downloadCharacter name =>
    if (Text.trim name).isEmpty || decide (Text.byteLen name > 20) then some "bad character\n".toList
    else none
  | .banCharacter name =>
    if (Text.trim name).isEmpty || decide (Text.byteLen name > 20) then some "bad character\n".toList
    else none
  | .banIpPrefix cidr =>
    if (Text.trim cidr).isEmpty || decide (Text.byteLen cidr > 64) then some "bad cidr\n".toList
    else none
  | _ => none

def complianceActionPreview (env : PortalEnv) (ip : IpAddr) (cookie : Option Text) (f : ActionForm)
    (s : Portal) : Response × Portal :=
  if !cfg.enabled then (.notFound, s)
  else
    match getSession s cookie env.now with
    | (none, s) => (.redirect none, s)
    | (some sess, s) =>
      match f.kind with
      | none => (.badRequest "bad action\n".toList, s)
      | some kind =>
        -- require a reason for all actions
        match ReasonCode.parse f.reason with
        | none => (.badRequest "missing reason\n".toList, s)
        | some reason =>
          match invalidKind kind with
          | some message => (.badRequest message, s)
          | none =>
            let p : PendingAction :=
              { id := env.randomHex, email := sess.email, requesterIp := ip, createdUnix := env.later,
                kind, reason := some reason, keyHashHex := none }
            (.preview (formatComplianceLogEntries cfg L env.later p).1 p.id,
              { s with pending := s.pending.insert p.id p })

/-! ## compliance_action_confirm -/

/-- What is recorded of an action carried out by a request that found the portal as `s₀`. -/
def carriedOf (env : PortalEnv) (s₀ : Portal) (p : PendingAction) : Carried where
  action := p
  auditLine := (formatComplianceLogEntries cfg L env.now p).2
  publicLine := (formatComplianceLogEntries cfg L env.now p).1
  auditMark := s₀.auditLog.length
  publicMark := s₀.publicLog.length

/-- The checks before an action is logged: the pending action is taken out, and everything but a
login needs a session of the same address. -/
def takePending (env : PortalEnv) (cookie : Option Text) (pendingId understand : Text) (s : Portal) :
    (Response ⊕ PendingAction) × Portal :=
  let pendingId := Text.trim pendingId
  if pendingId.isEmpty then (.inl (.badRequest "missing pending_id\n".toList), s)
  else if understand ≠ "on".toList then (.inl (.badRequest "must check understand\n".toList), s)
  else
    match s.pending.lookup pendingId with
    | none => (.inl (.badRequest "unknown pending_id\n".toList), s)
    | some p =>
      let s := { s with pending := s.pending.erase pendingId }
      if p.kind = .login then (.inr p, s)
      else
        match getSession s cookie env.now with
        | (none, s) => (.inl (.redirect none), s)
        | (some sess, s) => if sess.email ≠ p.email then (.inl (.forbidden []), s) else (.inr p, s)

/-- The one-time key of a login is consumed. -/
def consumeKey (env : PortalEnv) (p : PendingAction) (s : Portal) : (Response ⊕ KeyRec) × Portal :=
  match p.keyHashHex with
  | none => (.inl .internalServerError, s)
  | some keyHash =>
    if env.keyFileFails then (.inl .internalServerError, s)
    else
      let (found, saved) := markKeyUsed s.keys env.now keyHash
      let s := { s with keys := saved.orElse fun _ => s.keys }
      match found with
      | none => (.inl (.forbidden "bad/expired key\n".toList), s)
      | some r => (.inr r, s)

/-- The `Login` arm: the session is opened first, and logged after that. -/
def confirmLogin (env : PortalEnv) (s₀ : Portal) (p : PendingAction) (s : Portal) : Response × Portal :=
  match consumeKey env p s with
  | (.inl resp, s) => (resp, s)
  | (.inr r, s) =>
    let sess : ComplianceSession :=
      { email := r.email, createdUnix := env.later,
        expiresUnix := Word.satAdd64 env.later cfg.sessionTtlS }
    let s := { s with
      sessions := s.sessions.insert env.randomHex sess
      carried := s.carried ++ [carriedOf cfg L env s₀ p] }
    (.redirect (some env.randomHex), writeComplianceLogs cfg L env p s)

/-- Whether the action is carried out, and the answer. -/
def outcome (env : PortalEnv) : ActionKind → Bool × Response
  | .login => (false, .internalServerError)
  | .viewCharacters =>
    match env.characters with
    | some names => (true, .characters names)
    | none => (false, .internalServerError)
  | .banCharacter _ | .banIpPrefix _ =>
    match env.broker with
    | .unreachable => (false, .serviceUnavailable)
    | .silent => (true, .serviceUnavailable)
    | .replied line => (true, .banned (Text.trim line))
  | .downloadAll | .downloadLogin | .downloadCharacter _ =>
    match env.links with
    | some html => (true, .links html)
    | none => (false, .serviceUnavailable)

/-- The other arms: always log after explicit confirmation, then act. -/
def confirmOther (env : PortalEnv) (s₀ : Portal) (p : PendingAction) (s : Portal) : Response × Portal :=
  let s := writeComplianceLogs cfg L env p s
  let (done, resp) := outcome env p.kind
  (resp, if done then { s with carried := s.carried ++ [carriedOf cfg L env s₀ p] } else s)

def complianceActionConfirm (env : PortalEnv) (cookie : Option Text) (pendingId understand : Text)
    (s : Portal) : Response × Portal :=
  if !cfg.enabled then (.notFound, s)
  else
    match takePending env cookie pendingId understand s with
    | (.inl resp, s') => (resp, s')
    | (.inr p, s') =>
      if p.kind = .login then confirmLogin cfg L env s p s' else confirmOther cfg L env s p s'

inductive PortalReq where
  | home (cookie : Option Text)
  | requestKey (email : Text)
  | login (ip : IpAddr) (accessKey : Text)
  | preview (ip : IpAddr) (cookie : Option Text) (form : ActionForm)
  | confirm (cookie : Option Text) (pendingId understand : Text)
deriving DecidableEq, Repr

/-- One request to the portal. -/
def Portal.handle (env : PortalEnv) (s : Portal) : PortalReq → Response × Portal
  | .home cookie => complianceHome cfg env cookie s
  | .requestKey email => complianceRequestKey cfg L env email s
  | .login ip accessKey => complianceLogin cfg L env ip accessKey s
  | .preview ip cookie form => complianceActionPreview cfg L env ip cookie form s
  | .confirm cookie pendingId understand => complianceActionConfirm cfg L env cookie pendingId understand s

/-- A request is a step, under the environment's choices. -/
def Portal.step (s : Portal) (m : PortalEnv × PortalReq) : Option Portal :=
  some (s.handle cfg L m.1 m.2).2

end Slopmud.Web
