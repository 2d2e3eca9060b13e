import Slopmud.Broker.Sections

/-!
# The handler of a connection

`handle_conn` of the broker, as the sections it goes through. The Rust function is
a loop around a read, with a loop over the lines of what was read inside; here one
round of either loop is a program that takes and returns the local variables. The
lines for the event log are one section wherever the source writes some, for the
sake of the panic when their file cannot be opened; what they say is left out.

Every state of the dialogue has its function, under the name of the state, and so
have the parts that several states share. In the source some of them stand there
several times; where two copies differ, the difference is an argument.
-/

namespace Slopmud.Broker

open Slopmud.Sbc Slopmud.Shard Telnet

/-- A task of the broker. -/
abbrev Task (Auth α : Type) := Program (Section Auth) Section.R α

/-- How a round of the loops ends. -/
inductive Flow (Auth : Type) where
  /-- `continue` -/
  | next (c : Conn Auth)
  /-- `break 'read` -/
  | leave (c : Conn Auth)
  /-- `?`, an error that the function returns, or a panic: the task is over. -/
  | fail

namespace Handler

variable {Raw Auth : Type} (cfg : BrokerConfig Raw Auth) (k : ConnId)

/-! ## What a connection asks for -/

def send (msg : Bytes) : Task Auth Unit := .op (Section.io (.say k msg))

def say (msg : Text) : Task Auth Unit := send k (Utf8.encode msg)

def isIpBanned (ip : IpAddr) : Task Auth (Option IpBan) := .op (Section.ban (.isIpBanned k ip))

def isCharBanned (n : Text) : Task Auth (Option CharacterBan) := .op (Section.ban (.isCharBanned k n))

def getAccount (n : Text) : Task Auth (Option AccountRec) := .op (Section.acct (.lookup k n))

def containsAccount (n : Text) : Task Auth Bool := .op (Section.acct (.contains k n))

def linkedNames (p : Provider) (sub : Text) : Task Auth (List Text) :=
  .op (Section.acct (.linkedNames p sub))

/-- Insert and save; the answer is whether that was saved. -/
def insertAccount (r : AccountRec) : Task Auth Bool := .op (Section.acct (.insertRec k r))

def nowUnix : Task Auth Nat := .op (Section.ask .nowUnix)

def hashPassword (pw : Bytes) : Task Auth (Option Text) := .op (Section.ask (.hashPassword pw))

def loadSaved (n : Text) : Task Auth (Option SavedPlayerSnapshot) :=
  .op (Section.shard (.loadSavedPlayer k n))

def deadlinePassed : Task Auth Bool := .op (Section.ask .deadline)

/-- `eventlog.log_line(..)`, once or to several streams; the answer is that it did not panic. -/
def logged : Task Auth Bool := .op (Section.ask .log)

def sendShard (msg : ShardMsg Auth) : Task Auth Unit := .op (Section.shard (.send k msg))

/-! ## Common endings -/

/-- Say something and go on. -/
def answer (msg : String) (c : Conn Auth) : Task Auth (Flow Auth) := do
  say k msg.toList
  pure (.next c)

/-- A ban was found. -/
def banned (c : Conn Auth) : Task Auth (Flow Auth) := do
  if ← logged then
    say k "banned\r\nbye\r\n".toList
    pure (.leave c)
  else pure .fail

/-- `wait_for_saved_player`. A round of its loop sleeps for 100 ms, so that after 20 of them the two
seconds have passed. -/
def waitForSavedPlayer (n : Text) : Nat → Task Auth (Option SavedPlayerSnapshot)
  | 0 => loadSaved k n
  | rounds + 1 => do
    match ← loadSaved k n with
    | some saved => pure (some saved)
    | none => if ← deadlinePassed then pure none else waitForSavedPlayer n rounds

/-- List a session and attach it to the shard, unless the line about it panics in between. -/
def enterWorld (info : SessionInfo Auth) (skipped : Bool) : Task Auth Bool := do
  let held ← (.op (Section.ask (.isHeld info.name)) : Task Auth Bool)
  let info := { info with held }
  (.op (Section.sess (.insert k info skipped)) : Task Auth Unit)
  if ← logged then
    sendShard k (.attach (attachBody cfg.authLen k info))
    pure true
  else pure false

/-- `attach_authenticated_session` -/
def attachAuthenticatedSession (c : Conn Auth) (n : Text) (saved : SavedPlayerSnapshot) :
    Task Auth Bool :=
  enterWorld cfg k {
    name := n, held := false, isBot := saved.isBot,
    -- set by whoever calls
    auth := c.authBlob,
    race := saved.race, cls := saved.cls, sex := saved.sex, pronouns := saved.pronouns,
    peerIp := c.peerIp } true

/-- What comes after a login: the world, for a player who was there before, or else the rest of
character creation. `lead` is what the question is printed after. -/
def enterOrCreate (lead : String) (c : Conn Auth) : Task Auth (Flow Auth) := do
  let uname := c.name.getD []
  match ← waitForSavedPlayer k uname 20 with
  | some saved =>
    if ← attachAuthenticatedSession cfg k c uname saved then pure (.next { c with state := .inWorld })
    else pure .fail
  | none =>
    answer k (lead ++ "character creation (step 2/4)\r\nare you using automation?\r\n"
      ++ "type: human | bot\r\n> ") { c with state := .needBotDisclosure }

/-- Login by an identity that an account is linked to. The e-mail of the account goes before the
one that came with the identity. -/
def loginLinked (p : Provider) (r : AccountRec) (n sub : Text) (email : Option Text)
    (caps : Option (List Text)) (c : Conn Auth) : Conn Auth :=
  let email := (r.providerEmail p).orElse fun _ => email
  (c.setIdentity p sub email).authenticated n p.method
    (cfg.auth.print (providerBlob p n sub email caps))

/-- Create an account for an identity. -/
def createLinked (p : Provider) (n sub : Text) (email : Option Text) (caps : Option (List Text))
    (c : Conn Auth) (now : Nat) : Task Auth (Option (Conn Auth)) := do
  if ← insertAccount k (.linked p n sub email now) then
    pure (some ((c.setIdentity p sub email).authenticated n p.method
      (cfg.auth.print (providerBlob p n sub email caps))))
  else pure none

/-! ## `WEB_AUTH` -/

/-- How far a `WEB_AUTH` request got. -/
inductive WebAuth (Auth : Type) where
  /-- It was answered. -/
  | refused (c : Conn Auth)
  | failed
  | accepted (c : Conn Auth)

def refuse (msg : String) (c : Conn Auth) : Task Auth (WebAuth Auth) := do
  say k msg.toList
  pure (.refused c)

/-- `action == "auto"`: which action and which account a request of an identity is about.
`none`: the request was answered. -/
def resolveAuto (p : Provider) (req : WebAuthReq) (c : Conn Auth) :
    Task Auth (Conn Auth × Option (Text × Text)) := do
  let sub := Text.trim ((req.sub p).getD [])
  if sub.isEmpty then
    say k ("web_auth: missing ".toList ++ p.method ++ "_sub\r\nname: ".toList)
    pure (c, none)
  else
    match ← linkedNames p sub with
    | [] =>
      let pending := ⟨p, sub, req.providerEmail p, req.caps⟩
      match (c.name.map sanitizeName).filter fun n => !n.isEmpty with
      | none => pure ({ c with pendingAutoWebauth := some pending }, none)
      | some chosen =>
        match ← getAccount k chosen with
        | none => pure (c, some ("create".toList, chosen))
        | some r =>
          if r.sub p = some sub then pure (c, some ("login".toList, chosen))
          else do
            say k "name already taken\r\nname: ".toList
            pure ({ c with pendingAutoWebauth := some pending, name := none, state := .needName }, none)
    | [only] => pure (c, some ("auto".toList, only))
    | _ => do
      say k "web_auth: multiple linked accounts\r\nname: ".toList
      pure (c, none)

def createPassword (req : WebAuthReq) (uname : Text) (c : Conn Auth) : Task Auth (WebAuth Auth) := do
  let pw := Utf8.encode (req.password.getD [])
  if pw.length < 8 then refuse k "web_auth: password too short (min 8)\r\nname: " c
  else if ← containsAccount k uname then refuse k "web_auth: name already taken\r\nname: " c
  else
    match ← hashPassword pw with
    | none => pure .failed
    | some hash =>
      let now ← nowUnix
      if ← insertAccount k (.withPassword uname hash none now) then
        pure (.accepted (c.authenticated uname "password".toList
          (cfg.auth.print (passwordBlob uname req.caps))))
      else pure .failed

def loginPassword (req : WebAuthReq) (uname : Text) (c : Conn Auth) : Task Auth (WebAuth Auth) := do
  let pw := Utf8.encode (req.password.getD [])
  match ← getAccount k uname with
  | none => refuse k "web_auth: account not found\r\nname: " c
  | some r =>
    match r.pwHash with
    | none => refuse k "web_auth: account has no password set\r\nname: " c
    | some hash =>
      if cfg.verifyPassword pw hash then
        pure (.accepted (c.authenticated uname "password".toList
          (cfg.auth.print (passwordBlob uname r.caps))))
      else refuse k "web_auth: bad password\r\nname: " c

/-- `create`, `login` and `auto` with an identity. -/
def webAuthIdentity (p : Provider) (create : Bool) (req : WebAuthReq) (uname : Text) (c : Conn Auth) :
    Task Auth (WebAuth Auth) := do
  let sub := Text.trim ((req.sub p).getD [])
  if sub.isEmpty then do
    say k ("web_auth: missing ".toList ++ p.method ++ "_sub\r\nname: ".toList)
    pure (.refused c)
  else
    let email := req.providerEmail p
    let now ← nowUnix
    match create, ← getAccount k uname with
    | false, none => refuse k "web_auth: account not found\r\nname: " c
    | false, some r =>
      if r.sub p = some sub then pure (.accepted (loginLinked cfg p r uname sub email req.caps c))
      else do
        say k ("web_auth: account not linked to ".toList ++ p.method ++ "\r\nname: ".toList)
        pure (.refused c)
    | true, some _ => refuse k "web_auth: name already taken\r\nname: " c
    | true, none =>
      match ← createLinked cfg k p uname sub email req.caps c now with
      | none => pure .failed
      | some c => pure (.accepted c)

/-- `match (action.as_str(), method.as_str())` -/
def webAuthAs (action method : Text) (req : WebAuthReq) (uname : Text) (c : Conn Auth) :
    Task Auth (WebAuth Auth) :=
  let create := action = "create".toList
  let login := action = "login".toList
  if method = "password".toList then
    if create then createPassword cfg k req uname c
    else if login then loginPassword cfg k req uname c
    else refuse k "web_auth: unsupported action/method\r\nname: " c
  else
    match Provider.ofMethod? method with
    | some p =>
      if create ∨ login ∨ action = "auto".toList then webAuthIdentity cfg k p create req uname c
      else refuse k "web_auth: unsupported action/method\r\nname: " c
    | none => refuse k "web_auth: unsupported action/method\r\nname: " c

/-- A request whose account name is settled. -/
def webAuthNamed (action method : Text) (req : WebAuthReq) (uname : Text) (c : Conn Auth) :
    Task Auth (Flow Auth) := do
  if uname.isEmpty then answer k "web_auth: bad name (use letters/numbers/_/-, max 20)\r\nname: " c
  else
    match ← isCharBanned k uname with
    | some _ => banned k c
    | none =>
      match ← webAuthAs cfg k action method req uname c with
      | .refused c => pure (.next c)
      | .failed => pure .fail
      | .accepted c => enterOrCreate cfg k "\r\n" c

/-- The rest of a `WEB_AUTH` line, from a peer that is trusted. -/
def webAuth (line : List Byte) (rest : Text) (c : Conn Auth) : Task Auth (Flow Auth) := do
  match cfg.parseWebAuth rest with
  | none => answer k "web_auth: bad json\r\nname: " c
  | some req =>
    (.op (Section.io (.act line req)) : Task Auth Unit)
    let action := Text.toAsciiLowercase (Text.trim req.action)
    let method := Text.toAsciiLowercase (Text.trim req.method)
    match Provider.ofMethod? method, decide (action = "auto".toList) with
    | some p, true =>
      match ← resolveAuto k p req c with
      | (c, none) => pure (.next c)
      | (c, some (action, uname)) => webAuthNamed cfg k action method req uname c
    | _, _ => webAuthNamed cfg k action method req (sanitizeName req.name) c

/-! ## The name prompt -/

/-- `auth_prompt` and its kin name the methods that there are. -/
def authMethods : String :=
  if cfg.hasOidcWebauth then
    "auth method:\r\n- password\r\n- google\r\n- slopsso\r\ntype: password | google | slopsso\r\n> "
  else "auth method:\r\n- password\r\n- google\r\ntype: password | google\r\n> "

def authPrompt : String := "\r\n" ++ authMethods cfg

def authPromptCancelled : String := "\r\ncancelled\r\n" ++ authMethods cfg

def authPromptInvalid : String :=
  if cfg.hasOidcWebauth then "please type: password | google | slopsso\r\n> "
  else "please type: password | google\r\n> "

/-- A name for an identity that waits for one. -/
def pendingLogin (pending : PendingAutoWebAuth) (n : Text) (c : Conn Auth) : Task Auth (Flow Auth) := do
  let ⟨p, sub, email, caps⟩ := pending
  match ← getAccount k n with
  | some r =>
    if r.sub p = some sub then
      let c := loginLinked cfg p r n sub email caps c
      enterOrCreate cfg k "\r\n" { c with pendingAutoWebauth := none }
    else answer k "name already taken\r\nname: " c
  | none =>
    let now ← nowUnix
    match ← createLinked cfg k p n sub email caps c now with
    | none => pure .fail
    | some c => enterOrCreate cfg k "\r\n" { c with pendingAutoWebauth := none }

def chooseName (line : Text) (c : Conn Auth) : Task Auth (Flow Auth) := do
  let n := sanitizeName line
  if n.isEmpty then answer k "bad name (use letters/numbers/_/-, max 20)\r\nname: " c
  else
    match ← isCharBanned k n with
    | some _ => banned k c
    | none =>
      match c.pendingAutoWebauth with
      | some pending => pendingLogin cfg k pending n c
      | none => answer k (authPrompt cfg) { c with name := some n, state := .needAuthMethod }

/-- A line at the name prompt that is no `PROXY` line. -/
def nameLine (lineBytes : List Byte) (line : Text) (c : Conn Auth) : Task Auth (Flow Auth) :=
  match c.trustedProxyPeer, Text.stripPrefix "WEB_AUTH ".toList line with
  | true, some rest => webAuth cfg k lineBytes rest c
  | _, _ => chooseName cfg k line c

/-- What the line says about the peer, if it may. -/
def proxied (line : Text) (c : Conn Auth) : Option (IpAddr × Nat) :=
  if !c.proxyChecked && c.peerIp.isLoopback && (Text.stripPrefix "PROXY ".toList line).isSome then
    parseProxyLineV1 cfg.ip line
  else none

/-- The text of a line. -/
def trimmed (lineBytes : List Byte) : Text := Text.trim (Utf8.decodeLossy (values lineBytes))

def needName (lineBytes : List Byte) (c : Conn Auth) : Task Auth (Flow Auth) := do
  let line := trimmed lineBytes
  if line.isEmpty then pure (.next c)
  else
    match proxied cfg line c with
    | some (ip, port) =>
      let c := { c with peerIp := ip, peerPort := port, proxyChecked := true }
      if ← logged then
        match ← isIpBanned k ip with
        | some _ => banned k c
        -- the prompt was sent before
        | none => pure (.next c)
      else pure .fail
    | none =>
      if c.proxyChecked then nameLine cfg k lineBytes line c
      else
        let c := { c with proxyChecked := true }
        match ← isIpBanned k c.peerIp with
        | some _ => banned k c
        | none => nameLine cfg k lineBytes line c

/-! ## The way to an account -/

/-- `wait_seconds`, of a duration in nanoseconds. -/
def waitSeconds (nanos : Nat) : Text := Nat.toDigits 10 ((nanos / 1000000 + 999) / 1000)

/-- The line is printed as it is typed, if it was not before. -/
def echoOn (c : Conn Auth) : Task Auth (Conn Auth) := do
  if c.passwordEchoDisabled then
    send k (telnetWont OPT_ECHO)
    pure { c with passwordEchoDisabled := false }
  else pure c

/-- `auth_method` is set, whatever else comes of the line. -/
def choosePassword (account : Option AccountRec) (c : Conn Auth) : Task Auth (Flow Auth) := do
  let c := { c with authMethod := some "password".toList }
  let ask (state : ConnState) (prompt : String) : Task Auth (Flow Auth) := do
    send k (telnetWill OPT_ECHO ++ Utf8.encode prompt.toList)
    pure (.next { c with passwordEchoDisabled := true, state })
  match account with
  | none => ask .needPasswordCreate "set password (never logged/echoed; min 8 chars): "
  | some r =>
    if r.pwHash.isNone then
      if cfg.hasOidcWebauth then answer k "account has no password; use google or slopsso\r\n> " c
      else answer k "account has no password; use google\r\n> " c
    else ask .needPasswordLogin "password (never logged/echoed): "

def chooseGoogle (account : Option AccountRec) (c : Conn Auth) : Task Auth (Flow Auth) := do
  let c := { c with authMethod := some "google".toList }
  if (account.map fun r => r.googleSub.isNone).getD false then
    answer k "account not linked to google; use password\r\n> " c
  else
    match ← (.op (Section.io (.startOauth k)) : Task Auth (Option Text)) with
    | none => pure .fail
    | some code =>
      let base := (cfg.googleAuthBaseUrl.reverse.dropWhile (· = '/')).reverse
      say k ("open this url in a browser to sign in:\r\n  ".toList ++ base
        ++ "/auth/google?code=".toList ++ code
        ++ "\r\nthen type: check\r\n(or type: cancel)\r\n> ".toList)
      pure (.next { c with googleOauthCode := some code, state := .needGoogleWait })

def needAuthMethod (lineBytes : List Byte) (c : Conn Auth) : Task Auth (Flow Auth) := do
  if c.trustedProxyPeer && Utf8.encode "WEB_AUTH ".toList <+: values lineBytes
      && Utf8.encode (Utf8.decodeLossy (values lineBytes)) = values lineBytes then
    -- the line is read again, at the name prompt; the broker ends it itself
    let replay := lineBytes ++ [⟨NL, .proxy⟩]
    pure (.next { c with state := .needName, linebuf := replay ++ c.linebuf })
  else
    let line := Text.toAsciiLowercase (trimmed lineBytes)
    if line.isEmpty then pure (.next c)
    else
      let account ← getAccount k (c.name.getD [])
      if line = "password".toList then choosePassword cfg k account c
      else if line = "google".toList then chooseGoogle cfg k account c
      else if line = "oidc".toList ∨ line = "slopsso".toList then
        if cfg.hasOidcWebauth then answer k "slopsso is web-client-only; open the web auth gate\r\n> " c
        else answer k "please type: password | google\r\n> " c
      else answer k (authPromptInvalid cfg) c

def removeOauth (code : Text) : Task Auth Unit := .op (Section.io (.removeOauth code))

/-- The sign-in is over, without success. -/
def giveUpGoogle (code msg : Text) (c : Conn Auth) : Task Auth (Flow Auth) := do
  removeOauth code
  say k msg
  pure (.next { c with googleOauthCode := none, state := .needAuthMethod })

/-- A sign-in that the web server has reported. -/
def googleSignedIn (code sub : Text) (email : Option Text) (now : Nat) (c : Conn Auth) :
    Task Auth (Flow Auth) := do
  let c := c.setIdentity .google sub email
  let uname := c.name.getD []
  match ← (.op (Section.acct (.bindGoogle (.linked .google uname sub email now))) :
      Task Auth BindResult) with
  | .taken =>
    say k "name already taken\r\nbye\r\n".toList
    pure (.leave c)
  | .bound false => pure .fail
  | .bound true =>
    removeOauth code
    enterOrCreate cfg k "\r\n" { c with
      authBlob := some (cfg.auth.print (providerBlob .google uname sub email none))
      googleOauthCode := none }

def checkGoogle (code : Text) (c : Conn Auth) : Task Auth (Flow Auth) := do
  match ← (.op (Section.io (.readOauth code)) : Task Auth OauthRead) with
  | .missing => answer k "still waiting\r\n> " c
  | .corrupted => answer k "oauth file corrupted\r\n> " c
  | .found pending =>
    let now ← nowUnix
    if now - pending.createdUnix > 15 * 60 then
      giveUpGoogle k code "oauth expired; try again\r\n> ".toList c
    else if pending.status = "pending".toList then answer k "still waiting\r\n> " c
    else if pending.status = "err".toList then
      giveUpGoogle k code (pending.error.getD "oauth failed".toList ++ "\r\n> ".toList) c
    else if pending.status ≠ "ok".toList then answer k "oauth status unknown\r\n> " c
    else
      match pending.googleSub.filter fun sub => !sub.isEmpty with
      | none => answer k "oauth missing sub\r\n> " c
      | some sub => googleSignedIn cfg k code sub pending.googleEmail now c

def needGoogleWait (lineBytes : List Byte) (c : Conn Auth) : Task Auth (Flow Auth) := do
  let line := Text.toAsciiLowercase (trimmed lineBytes)
  if line.isEmpty then pure (.next c)
  else
    match c.googleOauthCode with
    | none => answer k (authPrompt cfg) { c with state := .needAuthMethod }
    | some code =>
      if line = "cancel".toList then giveUpGoogle k code (authPromptCancelled cfg).toList c
      else if line = "check".toList then checkGoogle cfg k code c
      else answer k "type: check | cancel\r\n> " c

def throttleWait (ip : IpAddr) (n : Text) : Task Auth Nat := .op (Section.ask (.throttleWait ip n))

def noteFailure (ip : IpAddr) (n : Text) : Task Auth Nat := .op (Section.ask (.noteFailure ip n))

def noteSuccess (ip : IpAddr) (n : Text) : Task Auth Unit := .op (Section.ask (.noteSuccess ip n))

/-- The line comes too soon after a failure. -/
def tooSoon (wait : Nat) (prompt : String) (c : Conn Auth) : Task Auth (Flow Auth) := do
  let will := if c.passwordEchoDisabled then [] else telnetWill OPT_ECHO
  send k (Utf8.encode ("\r\nrate limit: retry in ".toList ++ waitSeconds wait ++ "s\r\n".toList)
    ++ will ++ Utf8.encode prompt.toList)
  pure (.next { c with passwordEchoDisabled := true })

/-- The password will not do. -/
def badPassword (n : Text) (what prompt : String) (c : Conn Auth) : Task Auth (Flow Auth) := do
  let delay ← noteFailure c.peerIp n
  send k (Utf8.encode ("\r\n".toList ++ what.toList ++ "; retry in ".toList ++ waitSeconds delay
    ++ "s\r\n".toList) ++ telnetWill OPT_ECHO ++ Utf8.encode prompt.toList)
  pure (.next { c with passwordEchoDisabled := true })

def needPasswordCreate (lineBytes : List Byte) (c : Conn Auth) : Task Auth (Flow Auth) := do
  let uname := c.name.getD []
  let wait ← throttleWait c.peerIp uname
  if wait ≠ 0 then tooSoon k wait "set password (min 8 chars): " c
  else
    let pw := trimAsciiWs (values lineBytes)
    let c ← echoOn k c
    if pw.length < 8 then badPassword k uname "password too short" "set password (min 8 chars): " c
    else
      say k "\r\n".toList
      match ← hashPassword pw with
      | none => pure .fail
      | some hash =>
        let now ← nowUnix
        if ← insertAccount k (.withPassword uname hash none now) then
          noteSuccess c.peerIp uname
          enterOrCreate cfg k "" { c with
            authBlob := some (cfg.auth.print (passwordBlob uname none)) }
        else pure .fail

def needPasswordLogin (lineBytes : List Byte) (c : Conn Auth) : Task Auth (Flow Auth) := do
  let uname := c.name.getD []
  let wait ← throttleWait c.peerIp uname
  if wait ≠ 0 then tooSoon k wait "password: " c
  else
    let pw := trimAsciiWs (values lineBytes)
    let account ← getAccount k uname
    match account.bind AccountRec.pwHash with
    | none =>
      let c ← echoOn k c
      say k "\r\naccount has no password set\r\nbye\r\n".toList
      pure (.leave c)
    | some hash =>
      let c ← echoOn k c
      if cfg.verifyPassword pw hash then
        say k "\r\n".toList
        noteSuccess c.peerIp uname
        enterOrCreate cfg k "" { c with
          authBlob := some (cfg.auth.print (passwordBlob uname (account.bind AccountRec.caps))) }
      else badPassword k uname "bad password" "password: " c

/-! ## Character creation -/

def needBotDisclosure (lineBytes : List Byte) (c : Conn Auth) : Task Auth (Flow Auth) := do
  let line := trimmed lineBytes
  if line.isEmpty then pure (.next c)
  else
    let accept (isBot : Bool) : Task Auth (Flow Auth) :=
      answer k ("character creation (step 3/4)\r\ncontent + licensing:\r\n"
        ++ "- anything you submit - consider it publicly licensed and publicly published\r\n"
        ++ "- zero privacy: logs may be shared and used for training\r\n"
        ++ "- exception: passwords are never logged/echoed; only password hashes are stored\r\n"
        ++ "type: agree\r\n> ") { c with isBot := some isBot, state := .needPublicAck }
    let v := Text.toAsciiLowercase line
    if v = "human".toList then accept false
    else if v = "bot".toList then accept true
    else answer k "please type: human | bot\r\n> " c

/-- `NeedPublicAck` and `NeedCocAck`: go on once the player agrees. -/
def needAgreement (state : ConnState) (prompt : String) (lineBytes : List Byte) (c : Conn Auth) :
    Task Auth (Flow Auth) := do
  let line := trimmed lineBytes
  if line.isEmpty then pure (.next c)
  else if Text.toAsciiLowercase line ≠ "agree".toList then answer k "type: agree\r\n> " c
  else answer k prompt { c with state }

/-- `COC_LINE_ITEMS` -/
def cocLineItems : List String :=
  ["1. nothing illegal",
    "2. hard R for violence, hard PG for sex/nudity",
    "3. no soliciting",
    "4. anything you submit - consider it publicly licensed and publicly published",
    "5. don't spam",
    "6. prioritize great experiences for humans",
    "7. don't lie about being a bot",
    "8. zero privacy (except passwords): we will share logs with various folks and train our models on them"]

def needPublicAck : List Byte → Conn Auth → Task Auth (Flow Auth) :=
  needAgreement k .needCocAck ("character creation (step 4/4)\r\ncode of conduct:\r\n"
    ++ String.join (cocLineItems.map (· ++ "\r\n")) ++ "type: agree\r\n> ")

def needCocAck : List Byte → Conn Auth → Task Auth (Flow Auth) :=
  needAgreement k .needRace ("character creation (step 5/7)\r\nchoose race:\r\n"
    ++ "type: race list | race <name>\r\n> ")

/-- `NeedRace` and `NeedClass`: list the tokens, or take one of them. -/
def needToken (kind plural sample : String) (tokens : List Text)
    (accept : Text → Task Auth (Flow Auth)) (lineBytes : List Byte) (c : Conn Auth) :
    Task Auth (Flow Auth) := do
  let line := Text.toAsciiLowercase (trimmed lineBytes)
  if line.isEmpty then pure (.next c)
  else if line = (kind ++ " list").toList ∨ line = "list".toList then
    say k ((plural ++ ":\r\n").toList
      ++ tokens.flatMap (fun t => " - ".toList ++ t ++ "\r\n".toList) ++ "> ".toList)
    pure (.next c)
  else
    let token := Text.trim ((Text.stripPrefix (kind ++ " ").toList line).getD line)
    if token ∈ tokens then accept token
    else answer k ("huh? (try: " ++ kind ++ " list | " ++ kind ++ " " ++ sample ++ ")\r\n> ") c

def needRace (lineBytes : List Byte) (c : Conn Auth) : Task Auth (Flow Auth) :=
  needToken k "race" "races" "human" raceTokens
    (fun token => answer k ("character creation (step 6/7)\r\nchoose class:\r\n"
      ++ "type: class list | class <name>\r\n> ") { c with race := some token, state := .needClass })
    lineBytes c

def needClass (lineBytes : List Byte) (c : Conn Auth) : Task Auth (Flow Auth) :=
  needToken k "class" "classes" "fighter" classTokens
    (fun token => answer k ("character creation (step 7/7)\r\nsex:\r\n"
      ++ "type: male | female | none | other\r\n> ") { c with cls := some token, state := .needSex })
    lineBytes c

/-! ## In the world -/

/-- `handle_account_command` -/
def handleAccountCommand (name line : Text) : Task Auth Text := do
  let usage := ("account:\r\nuse:\r\n - account email\r\n - account email set <addr>\r\n"
    ++ " - account email clear\r\n\r\n> ").toList
  let prompted (s : String) := s.toList ++ "\r\n\r\n> ".toList
  let setEmail (email : Option Text) : Task Auth (Option (Option Bool)) :=
    .op (Section.acct (.setEmail name email))
  match ((Text.splitWhitespace line).drop 1) with
  | [] => pure usage
  | sub :: words =>
    if Text.toAsciiLowercase sub ≠ "email".toList then pure usage
    else
      let action := Text.toAsciiLowercase (words.head?.getD [])
      if action = [] ∨ action = "show".toList then
        let account ← getAccount k name
        let shown (email : Option Text) := email.getD "(none)".toList ++ "\r\n".toList
        pure ("account email:\r\n - configured: ".toList ++ shown (account.bind AccountRec.email)
          ++ " - google: ".toList ++ shown (account.bind AccountRec.googleEmail)
          ++ ("use:\r\n - account email set <addr>\r\n - account email clear\r\n\r\n> ").toList)
      else if action = "set".toList then
        match normalizeEmail (List.intercalate [' '] (words.drop 1)) with
        | none => pure (prompted "account email set: bad email (example: alice@example.com)")
        | some email =>
          match ← setEmail (some email) with
          | none => pure (prompted "account: not found")
          | some none => pure ("ok: email already set to ".toList ++ email ++ prompted "")
          | some (some true) => pure ("ok: email set to ".toList ++ email ++ prompted "")
          | some (some false) => pure (prompted "account email: failed to save")
      else if action = "clear".toList ∨ action = "unset".toList ∨ action = "remove".toList then
        match ← setEmail none with
        | none => pure (prompted "account: not found")
        | some none => pure (prompted "ok: email already clear")
        | some (some true) => pure (prompted "ok: email cleared")
        | some (some false) => pure (prompted "account email: failed to save")
      else pure usage

/-- A command by itself, or with arguments. -/
def isCommand (cmd : String) (lc : Text) : Bool :=
  lc = cmd.toList ∨ (Text.stripPrefix (cmd ++ " ").toList lc).isSome

/-- What the broker itself prints for `uptime`. -/
def printUptime : Task Auth Unit := do
  let out ← (.op (Section.ask .uptime) : Task Auth Bytes)
  send k out

/-- `report` and `accounthold`: what their handlers print, unless they panic. -/
def printAnswer (line : Text) (c : Conn Auth) : Task Auth (Flow Auth) := do
  match ← (.op (Section.ask (.answer line)) : Task Auth (Option Bytes)) with
  | none => pure .fail
  | some out =>
    send k out
    pure (.next c)

/-- Some commands are handled here, all others are for the shard. -/
def command (name line : Text) (c : Conn Auth) : Task Auth (Flow Auth) := do
  let lc := Text.toAsciiLowercase line
  let forward : Task Auth (Flow Auth) := do
    sendShard k (.input k line)
    pure (.next c)
  if lc = "exit".toList ∨ lc = "quit".toList then do
    say k "bye\r\n".toList
    pure (.leave c)
  else if lc = "uptime".toList then do
    printUptime k
    -- the shard prints its own
    forward
  else if lc = "uptime broker".toList ∨ lc = "uptime session".toList then do
    printUptime k
    pure (.next c)
  else if isCommand "report" lc ∨ isCommand "accounthold" lc then printAnswer k line c
  else if isCommand "account" lc then do
    let out ← handleAccountCommand k name line
    say k out
    pure (.next c)
  else forward

/-- A line in the world. It is logged before anything is done about it. -/
def inWorld (lineBytes : List Byte) (c : Conn Auth) : Task Auth (Flow Auth) := do
  let line := trimmed lineBytes
  match line.isEmpty, c.name with
  | true, _ => pure (.next c)
  | false, none => pure (.next c)
  | false, some name => if ← logged then command k name line c else pure .fail

/-- The end of character creation. -/
def attachCreated (c : Conn Auth) : Task Auth (Flow Auth) := do
  let c := { c with state := .inWorld }
  let n := c.name.getD []
  let blob := makeShardAuthBlob n (c.authMethod.getD "unknown".toList) c.googleSub c.googleEmail
    c.oidcSub c.oidcEmail none
  let entered ← enterWorld cfg k {
    name := n, held := false, isBot := c.isBot.getD false,
    auth := some (c.authBlob.getD (cfg.auth.print blob)),
    race := c.race.getD "human".toList, cls := c.cls.getD "fighter".toList,
    sex := c.sex.getD "none".toList, pronouns := c.pronouns.getD "they".toList,
    peerIp := c.peerIp } false
  if entered then pure (.next c) else pure .fail

/-- Sex and pronouns may be settled: attach now. -/
def afterQuestions (lineBytes : List Byte) (c : Conn Auth) : Task Auth (Flow Auth) :=
  if c.sex.isSome ∧ c.pronouns.isSome then attachCreated cfg k c else inWorld k lineBytes c

def needSex (lineBytes : List Byte) (c : Conn Auth) : Task Auth (Flow Auth) := do
  let line := Text.toAsciiLowercase (trimmed lineBytes)
  let settle (pronouns : String) : Task Auth (Flow Auth) :=
    afterQuestions cfg k lineBytes { c with sex := some line, pronouns := some pronouns.toList }
  if line.isEmpty then pure (.next c)
  else if line = "male".toList then settle "he"
  else if line = "female".toList then settle "she"
  else if line = "none".toList then settle "they"
  else if line = "other".toList then
    answer k "pronouns (en): he | she | they\r\n(type: he)\r\n> "
      { c with sex := some line, state := .needPronouns }
  else answer k "please type: male | female | none | other\r\n> " c

def needPronouns (lineBytes : List Byte) (c : Conn Auth) : Task Auth (Flow Auth) := do
  match normalizePronouns (trimmed lineBytes) with
  | none => answer k "huh? (pronouns: he | she | they)\r\n> " c
  | some key => afterQuestions cfg k lineBytes { c with pronouns := some key }

/-! ## The loops -/

/-- `match state` -/
def handleLine (lineBytes : List Byte) (c : Conn Auth) : Task Auth (Flow Auth) :=
  match c.state with
  | .needName => needName cfg k lineBytes c
  | .needAuthMethod => needAuthMethod cfg k lineBytes c
  | .needGoogleWait => needGoogleWait cfg k lineBytes c
  | .needPasswordCreate => needPasswordCreate cfg k lineBytes c
  | .needPasswordLogin => needPasswordLogin cfg k lineBytes c
  | .needBotDisclosure => needBotDisclosure k lineBytes c
  | .needPublicAck => needPublicAck k lineBytes c
  | .needCocAck => needCocAck k lineBytes c
  | .needRace => needRace k lineBytes c
  | .needClass => needClass k lineBytes c
  | .needSex => needSex cfg k lineBytes c
  | .needPronouns => needPronouns cfg k lineBytes c
  | .inWorld => inWorld k lineBytes c

/-- A round of the loop around the read. -/
def readMore (c : Conn Auth) : Task Auth (Flow Auth) := do
  match ← (.op (Section.recv k) : Task Auth Recv) with
  -- `res?`
  | .error => pure .fail
  | .told => pure (.leave c)
  | .eof => pure (.leave c)
  | .data chunk =>
    let replies := c.iac.repliesTo chunk
    let c := { c with iac := c.iac.run chunk, linebuf := c.linebuf ++ c.iac.dataOf chunk }
    if replies.isEmpty then pure (.next c)
    else do
      send k replies
      pure (.next c)

/-- A round of the loop over the lines, or of the other one when no line is left. -/
def turn (c : Conn Auth) : Task Auth (Flow Auth) :=
  match tryPopLine c.linebuf with
  | none => readMore k c
  | some ([], rest) => pure (.next { c with linebuf := rest })
  | some (b :: line, rest) => handleLine cfg k (b :: line) { c with linebuf := rest }

/-- Disconnect cleanup. The line about it comes before the `Detach`. -/
def cleanup (c : Conn Auth) : Task Auth Unit := do
  -- disconnected mid-password
  let _ ← echoOn k c
  match ← (.op (Section.sess (.remove k)) : Task Auth (Option (SessionInfo Auth))) with
  | some _ => if ← logged then sendShard k (.detach k) else pure ()
  | none => pure ()

/-- The prologue of `handle_conn`. -/
def greet : Task Auth (Option (Conn Auth)) := do
  let (ip, port) ← (.op (Section.io (.accept k)) : Task Auth (IpAddr × Nat))
  if ← logged then
    say k "slopmud (alpha)\r\ncharacter creation (step 1/4)\r\nname: ".toList
    pure (some (.new ip port))
  else pure none

/-- A round of `handle_conn`; `none` when it has returned. -/
def round (c : Conn Auth) : Task Auth (Option (Conn Auth)) := do
  match ← turn cfg k c with
  | .next c => pure (some c)
  | .leave c =>
    cleanup k c
    pure none
  | .fail => pure none

end Handler

end Slopmud.Broker
