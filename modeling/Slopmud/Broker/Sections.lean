import Slopmud.Broker.Bans
import Slopmud.Broker.Login
import Slopmud.Broker.Redact
import Slopmud.Lib.Program
import Slopmud.Sbc.IpText
import Slopmud.Shard.Commands

/-!
# The sections of the broker and its neighbours

What the tasks of the broker share with each other, with the shard and with the
web servers, and every atomic section by which they change it: what is done under
one lock, one message sent or taken, one file read or written. The programs name
the sections (`Handler`, `Admin`, `Web`); here is what each of them does.

The state has one part for each thing that is locked or sent through. Some fields
are records of what happened that no section reads; they are marked as such, and
the statements about runs are in their terms.
-/

namespace Slopmud.Broker

open Slopmud.Sbc Slopmud.Shard

/-! ## Parameters -/

/-- What the broker is configured with, and the libraries it is built on. -/
structure BrokerConfig (Raw Auth : Type) where
  /-- The players file, as the shard writes and reads it. -/
  players : Codec Raw (List PlayerSnapshot)
  /-- The players file, as the broker reads it. -/
  readSaved : Raw → Option (List SavedPlayerSnapshot)
  /-- The broker reads its part of every snapshot that the shard wrote. -/
  readSaved_print : ∀ l, readSaved (players.print l) = some (l.map .ofSnapshot)
  /-- Auth blobs as JSON, and their length in bytes. -/
  auth : Codec Auth AuthBlob
  authLen : Auth → Nat
  /-- `WEB_AUTH` requests as JSON. -/
  printWebAuth : WebAuthReq → Text
  parseWebAuth : Text → Option WebAuthReq
  ip : IpText
  /-- Argon2, with a salt. -/
  hashPassword : Nat → Bytes → Option Text
  verifyPassword : Bytes → Text → Bool
  /-- An OIDC token endpoint is configured. -/
  hasOidcWebauth : Bool
  googleAuthBaseUrl : Text
  /-- Where the web servers reach the broker. -/
  sessionTcpIp : IpAddr
  sessionTcpPort : Nat

/-- What the environment decides in a section. -/
structure Env where
  /-- The save or the write of the section succeeds. -/
  saveOk : Bool := true
  readOk : Bool := true
  nowUnix : Nat := 0
  salt : Nat := 0
  /-- How many bytes a read returns. -/
  count : Nat := 0
  /-- Which event a `select!` reports, when several are ready. -/
  told : Bool := false
  readError : Bool := false
  /-- The yes or no, the duration, the bytes and the text that a question is answered with. -/
  yes : Bool := false
  nanos : Nat := 0
  bytes : Bytes := []
  text : Text := []
  /-- The connection or session that something new gets. -/
  conn : ConnId := 0
  port : Nat := 0
  clean : Bool := true
  rooms : Rooms := ⟨[], []⟩
  order : SetOrder := someOrder
  /-- The texts about held names that the section redacts. -/
  redacted : List Text := []
  /-- Every file of the event log that the section writes to is open, or can be opened. -/
  logOk : Bool := true

/-- The task panics: over a text that cannot be redacted, or over a file of the event log. -/
def Env.panics (e : Env) : Bool := !e.logOk || e.redacted.any fun t => (redactPii t).isNone

/-! ## Accounts -/

inductive AcctEvent where
  /-- A connection looked a name up. -/
  | looked (k : ConnId) (n : Text)
  /-- An account was stored that was new to its section. -/
  | stored (n : Text)
deriving DecidableEq, Repr

/-- The store behind the accounts lock. -/
structure AcctState where
  store : Accounts
  /-- A record of what happened, the latest first. -/
  log : List AcctEvent
  /-- A record of all records that were ever in the store. -/
  ever : List AccountRec

inductive AcctSection where
  /-- `a.by_name.get(n).cloned()` -/
  | lookup (k : ConnId) (n : Text)
  /-- `a.by_name.contains_key(n)` -/
  | contains (k : ConnId) (n : Text)
  | linkedNames (p : Provider) (sub : Text)
  /-- `a.by_name.insert(..); a.save()?` -/
  | insertRec (k : ConnId) (r : AccountRec)
  /-- `NeedGoogleWait`: bind to the account name, in one lock. -/
  | bindGoogle (r : AccountRec)
  /-- `CreateAccountPassword`: test and insert, in one lock. -/
  | createIfAbsent (r : AccountRec)
  | setPassword (n hash : Text)
  | grantCaps (n : Text) (add : List Text)
  | names
  | setEmail (n : Text) (email : Option Text)

inductive BindResult where
  | taken
  | bound (saved : Bool)
deriving DecidableEq, Repr

abbrev AcctSection.R : AcctSection → Type
  | .lookup _ _ => Option AccountRec
  | .contains _ _ => Bool
  | .linkedNames _ _ => List Text
  | .insertRec _ _ => Bool
  | .bindGoogle _ => BindResult
  | .createIfAbsent _ => Option Bool
  | .setPassword _ _ => Option (AccountRec × Bool)
  | .grantCaps _ _ => Option (AccountRec × Bool)
  | .names => List Text
  | .setEmail _ _ => Option (Option Bool)

namespace AcctState

def stores (s : AcctState) (r : AccountRec) : AcctState :=
  { s with store := s.store.insert r, log := .stored r.name :: s.log, ever := r :: s.ever }

/-- Replace a record by one of the same name. -/
def changes (s : AcctState) (r : AccountRec) : AcctState :=
  { s with store := s.store.insert r, ever := r :: s.ever }

def effect (e : Env) (s : AcctState) : (o : AcctSection) → o.R × AcctState
  | .lookup k n => (s.store.get n, { s with log := .looked k n :: s.log })
  | .contains k n => ((s.store.get n).isSome, { s with log := .looked k n :: s.log })
  | .linkedNames p sub =>
    (((Table.values s.store.byName).filter fun r => r.sub p == some sub).map AccountRec.name, s)
  | .insertRec _ r => (e.saveOk, s.stores r)
  | .bindGoogle r =>
    match s.store.get r.name with
    | some r' => if r'.googleSub ≠ r.googleSub then (.taken, s) else (.bound true, s)
    | none => (.bound e.saveOk, s.stores r)
  | .createIfAbsent r =>
    match s.store.get r.name with
    | some _ => (none, s)
    | none => (some e.saveOk, s.stores r)
  | .setPassword n hash =>
    match s.store.get n with
    | none => (none, s)
    | some r =>
      let r := { r with pwHash := some hash }
      (some (r, e.saveOk), s.changes r)
  | .grantCaps n add =>
    match s.store.get n with
    | none => (none, s)
    | some r =>
      let merged := normalizeCapsList (r.caps.getD [] ++ add)
      let r := { r with caps := if merged.isEmpty then none else some merged }
      (some (r, e.saveOk), s.changes r)
  | .names => ((Table.values s.store.byName).map AccountRec.name, s)
  | .setEmail n email =>
    match s.store.get n with
    | none => (none, s)
    | some r =>
      if r.email = email then (some none, s)
      else (some (some e.saveOk), s.changes { r with email })

end AcctState

/-! ## Bans -/

/-- The list behind the bans lock. -/
structure BanSide (T : IpText) where
  bans : BanState T
  /-- A record of the last name and the last address of each connection that were found not to
  be banned. -/
  vettedName : Table ConnId Text
  vettedIp : Table ConnId IpAddr

inductive BanSection where
  | isIpBanned (k : ConnId) (ip : IpAddr)
  | isCharBanned (k : ConnId) (n : Text)
  /-- `b.upsert_char_ban(..)?` -/
  | upsertChar (n createdBy reason : Text)
  /-- `b.upsert_ip_ban(..)?` -/
  | upsertIp (cidr createdBy reason : Text)
  | snapshotFile

abbrev BanSection.R : BanSection → Type
  | .isIpBanned _ _ => Option IpBan
  | .isCharBanned _ _ => Option CharacterBan
  | .upsertChar _ _ _ => Bool
  | .upsertIp _ _ _ => Option IpPrefix
  | .snapshotFile => BanListFile

def BanSide.effect {T : IpText} (e : Env) (s : BanSide T) : (o : BanSection) → o.R × BanSide T
  | .isIpBanned k ip =>
    match s.bans.isIpBanned ip with
    | some b => (some b, s)
    | none => (none, { s with vettedIp := s.vettedIp.insert k ip })
  | .isCharBanned k n =>
    match s.bans.isCharBanned n with
    | some b => (some b, s)
    | none => (none, { s with vettedName := s.vettedName.insert k n })
  | .upsertChar n createdBy reason =>
    match s.bans.upsertCharBan n e.nowUnix createdBy reason with
    | none => (false, s)
    | some bans => (e.saveOk, { s with bans })
  | .upsertIp cidr createdBy reason =>
    match s.bans.upsertIpBan cidr e.nowUnix createdBy reason with
    | none => (none, s)
    | some bans => (if e.saveOk then readCidr T cidr else none, { s with bans })
  | .snapshotFile => (s.bans.snapshotFile, s)

/-! ## Sessions -/

/-- A session that was listed: with which info, and whether it skipped character creation. -/
structure Login (Auth : Type) where
  conn : ConnId
  info : SessionInfo Auth
  skipped : Bool
deriving DecidableEq, Repr

/-- The map behind the sessions lock. -/
structure SessState (Auth : Type) where
  sessions : Table ConnId (SessionInfo Auth)
  /-- The sessions whose `disconnect_tx` was sent `true`. -/
  told : List ConnId
  /-- A record of all sessions ever listed. -/
  logins : List (Login Auth)

inductive SessSection (Auth : Type) where
  /-- List a session. That it skipped character creation is only recorded. -/
  | insert (k : ConnId) (info : SessionInfo Auth) (skipped : Bool)
  | remove (k : ConnId)
  /-- The sessions that `kick_by_char` and `kick_by_ip` are about. -/
  | named (nameLc : Text)
  | within (pfx : IpPrefix)
  /-- `tx.send(msg)`, `disc.send(true)` -/
  | tell (k : ConnId) (msg : Bytes)
  | roster

abbrev SessSection.R {Auth : Type} : SessSection Auth → Type
  | .insert _ _ _ => Unit
  | .remove _ => Option (SessionInfo Auth)
  | .named _ => List ConnId
  | .within _ => List ConnId
  | .tell _ _ => Unit
  | .roster => List (Text × Bool)

namespace SessState

variable {Auth : Type}

/-- The listed sessions that meet a condition. -/
def filtered (s : SessState Auth) (p : SessionInfo Auth → Bool) : List ConnId :=
  (s.sessions.entries.filter fun e => p e.2).map Sigma.fst

def effect (s : SessState Auth) : (o : SessSection Auth) → o.R × SessState Auth
  | .insert k info skipped =>
    ((), { s with sessions := s.sessions.insert k info, logins := ⟨k, info, skipped⟩ :: s.logins })
  | .remove k => (s.sessions.lookup k, { s with sessions := s.sessions.erase k })
  | .named nameLc =>
    (s.filtered fun i => Text.toAsciiLowercase (Text.trim i.name) == nameLc, s)
  | .within pfx => (s.filtered fun i => pfx.containsIp i.peerIp, s)
  | .tell k _ => ((), { s with told := k :: s.told })
  | .roster => ((Table.values s.sessions).map fun i => (i.name, i.isBot), s)

end SessState

/-! ## The shard and the way to it -/

/-- An `Attach` that the shard served: whether it restored a saved character, and the name of the
character that the session controls since then. -/
structure Served where
  conn : ConnId
  restored : Bool
  name : Option Text
deriving DecidableEq, Repr

structure ShardSide (Raw Auth : Type) where
  /-- The bounded channel to the manager task. -/
  queue : List (ShardMsg Auth)
  /-- What the manager wrote to the link and the shard has not read. -/
  wire : List (ShardMsg Auth)
  linked : Bool
  /-- The manager task has panicked, so that nobody takes from the channel or connects again. -/
  managerGone : Bool
  world : World Raw
  /-- A record of the connections that sent their `Attach`. -/
  sent : List ConnId
  /-- A record of the last saved player each connection asked for, and whether there was one. -/
  looked : Table ConnId (Text × Bool)
  served : List Served

inductive ShardSection (Auth : Type) where
  /-- `shard_tx.send(msg).await` -/
  | send (k : ConnId) (msg : ShardMsg Auth)
  | loadSavedPlayer (k : ConnId) (n : Text)
  /-- The manager connects again: the shard ends the old link and starts the world anew. -/
  | relink
  /-- The manager takes a message from the channel and writes it to the link. -/
  | forward
  /-- While the shard is offline the manager drops what is in the channel. -/
  | offline
  /-- The manager finds that the link is gone. -/
  | linkLost
  /-- The manager panics over output that it stores for a session. -/
  | managerPanics
  /-- The shard serves the next request. -/
  | serve
  /-- Anything else the shard does, input lines included. -/
  | play (m : ShardMove Auth)

abbrev ShardSection.R {Auth : Type} : ShardSection Auth → Type
  | .loadSavedPlayer _ _ => Option SavedPlayerSnapshot
  | _ => Unit

namespace ShardSide

variable {Raw Auth : Type} (cfg : BrokerConfig Raw Auth)

/-- The name of the character that a session controls. -/
def activeName (w : World Raw) (session : SessionId) : Option Text := do
  let ss ← w.sessions.lookup session
  let c ← w.chars.lookup ss.active
  pure c.name

/-- The handler of an `Attach` restores a saved character, once it has dropped prior ones. -/
def restores (e : Env) (w : World Raw) (r : AttachReq Auth) : Bool :=
  ((w.detachSession cfg.players e.order e.saveOk r.session).players.lookup
    (principalFromAttach cfg.auth (Text.trim r.name) r.auth)).isSome

/-- The shard handles a request. What an input line makes it do is a move of its own. -/
def handle (e : Env) (s : ShardSide Raw Auth) : ShardMsg Auth → ShardSide Raw Auth
  | .attach r =>
    let world := s.world.attach cfg.auth cfg.players e.order e.saveOk r
    { s with
      world
      served := ⟨r.session, restores cfg e s.world r, activeName world r.session⟩ :: s.served }
  | .input _ _ => s
  | .detach session =>
    { s with world := s.world.detachSession cfg.players e.order e.saveOk session }

/-- The moves of the shard besides the requests of the broker. -/
def isPlay : ShardMove Auth → Bool
  | .input _ _ _ => true
  | .drop _ _ _ => true
  | .killMob _ _ => true
  | .game _ => true
  | _ => false

/-- The capacity of the channel to the manager. -/
def channelSize : Nat := 4096

def effect (e : Env) (s : ShardSide Raw Auth) : (o : ShardSection Auth) → Option (o.R × ShardSide Raw Auth)
  | .send k msg =>
    -- the error of a closed channel is ignored
    if s.managerGone then some ((), s)
    else if s.queue.length < channelSize then
      let sent := match msg with
        | .attach _ => k :: s.sent
        | _ => s.sent
      some ((), { s with queue := s.queue ++ [msg], sent })
    else none
  | .loadSavedPlayer k n =>
    let found := loadSavedPlayer (fun raw => if e.readOk then cfg.readSaved raw else none) s.world.file n
    some (found, { s with looked := s.looked.insert k (n, found.isSome) })
  | .relink =>
    if s.linked || s.managerGone then none
    else
      let world := if e.clean then s.world.persistLivePlayers cfg.players e.saveOk else s.world
      let world := World.new cfg.players e.readOk e.rooms world.file
      some ((), { s with world, wire := [], linked := true })
  | .forward =>
    match s.linked, s.queue with
    | true, msg :: queue => some ((), { s with queue, wire := s.wire ++ [msg] })
    | _, _ => none
  | .offline =>
    match s.linked, s.queue with
    | false, _ :: queue => some ((), { s with queue })
    | _, _ => none
  | .linkLost => some ((), { s with linked := false })
  | .managerPanics =>
    if s.linked && e.panics then some ((), { s with managerGone := true, linked := false, queue := [] })
    else none
  | .serve =>
    match s.wire with
    | [] => none
    | msg :: wire => some ((), { s with wire }.handle cfg e msg)
  | .play m =>
    if isPlay m then (shardStep cfg.players cfg.auth s.world m).map fun world => ((), { s with world })
    else none

end ShardSide

/-! ## Sockets, OAuth files and web sessions -/

/-- The broker's end of a TCP connection: the peer, and what was written to it and not read. -/
structure Socket where
  peerIp : IpAddr
  peerPort : Nat
  stream : List Byte

/-- `WebOAuthIdentity`: who has signed in with a provider, in the web server's memory. -/
structure WebOAuthIdentity where
  provider : Provider
  sub : Text
  email : Option Text
  caps : Option (List Text)
deriving DecidableEq, Repr

structure IoState where
  sockets : Table ConnId Socket
  /-- The connections whose task is over. -/
  closed : List ConnId
  /-- The directory through which the web servers report Google logins, by code. -/
  oauth : Table Text GoogleOAuthPending
  /-- `WebSessionManager`: the connection of a resume token, and what waits for one. -/
  webSessions : Table Text ConnId
  pendingTcpInputs : Table Text (List (List Byte))
  webIdentities : Table Text WebOAuthIdentity
  /-- A record of the identities that a provider vouched for. -/
  exchanged : List WebOAuthIdentity
  /-- A record of the requests that `api_webauth_set` built, the first one first. -/
  built : List WebAuthReq
  /-- A record of the `WEB_AUTH` lines that a connection acted on. -/
  acted : List (List Byte × WebAuthReq)

/-- What a connection's `select!` reports. -/
inductive Recv where
  | data (chunk : List Byte)
  | eof
  | error
  | told
deriving DecidableEq, Repr

/-- A Google login, as `check` finds it. -/
inductive OauthRead where
  | missing
  | corrupted
  | found (p : GoogleOAuthPending)
deriving DecidableEq, Repr

inductive IoSection where
  /-- `listener.accept()` -/
  | accept (k : ConnId)
  | say (k : ConnId) (msg : Bytes)
  /-- The task ends and drops its half of the connection. -/
  | close (k : ConnId)
  /-- A `WEB_AUTH` line was parsed. This is only recorded. -/
  | act (line : List Byte) (req : WebAuthReq)
  | startOauth (k : ConnId)
  | readOauth (code : Text)
  | removeOauth (code : Text)
  /-- Somebody connects who is not on this host. -/
  | dial (k : ConnId) (ip : IpAddr) (port : Nat)
  | clientWrite (k : ConnId) (bs : Bytes)
  /-- `connect_session_tcp`: a web server connects, on behalf of a peer. -/
  | connectSessionTcp (ip : IpAddr) (port : Nat)
  /-- A web server writes to a connection of its own. -/
  | webWrite (k : ConnId) (bs : List Byte)
  | sessionOf (token : Text)
  | insertSession (token : Text) (k : ConnId)
  | removeSession (token : Text)
  | takePending (token : Text)
  | defer (token : Text) (b : List Byte)
  | identityOf (token : Text)
  | forgetIdentity (token : Text)
  /-- A provider answered the exchange for a token, or for a file. -/
  | exchange (token : Text) (id : WebOAuthIdentity)
  | exchangeFile (code : Text) (id : WebOAuthIdentity)
  | failFile (code : Text) (msg : Text)
  /-- `api_webauth_set` has built a request. This is only recorded; the answer is its number. -/
  | build (req : WebAuthReq)

abbrev IoSection.R : IoSection → Type
  | .accept _ => IpAddr × Nat
  | .startOauth _ => Option Text
  | .readOauth _ => OauthRead
  | .connectSessionTcp _ _ => ConnId
  | .sessionOf _ => Option ConnId
  | .insertSession _ _ => ConnId
  | .takePending _ => List (List Byte)
  | .identityOf _ => Option WebOAuthIdentity
  | .build _ => Nat
  | _ => Unit

/-- `PROXY {family} {src} {dst} {sport} {dport}` -/
def proxyLine (T : IpText) (src : IpAddr) (sport : Nat) (dst : IpAddr) (dport : Nat) : Text :=
  let family := if src.isV4 then "TCP4".toList else "TCP6".toList
  -- of the same family as the source
  let dst := match src, dst with
    | .v4 _, .v6 _ => .v4 0
    | .v6 _, .v4 _ => .v6 0
    | _, _ => dst
  "PROXY ".toList ++ family ++ ' ' :: T.print src ++ ' ' :: T.print dst
    ++ ' ' :: Nat.toDigits 10 sport ++ ' ' :: Nat.toDigits 10 dport ++ "\r\n".toList

def loopback : IpAddr := .v4 0x7F000001

namespace IoState

variable {Raw Auth : Type} (cfg : BrokerConfig Raw Auth)

/-- Append to what a connection has to read. -/
def append (s : IoState) (k : ConnId) (bs : List Byte) : IoState :=
  match s.sockets.lookup k with
  | none => s
  | some sock =>
    { s with sockets := s.sockets.insert k { sock with stream := sock.stream ++ bs } }

/-- A new connection. -/
def opens (s : IoState) (k : ConnId) (sock : Socket) : Option IoState :=
  if (s.sockets.lookup k).isSome then none
  else some { s with sockets := s.sockets.insert k sock }

def effect (e : Env) (s : IoState) : (o : IoSection) → Option (o.R × IoState)
  | .accept k => (s.sockets.lookup k).map fun sock => ((sock.peerIp, sock.peerPort), s)
  | .say _ _ => some ((), s)
  | .close k => some ((), { s with closed := k :: s.closed })
  | .act line req => some ((), { s with acted := (line, req) :: s.acted })
  | .startOauth _ =>
    if e.saveOk then
      let pending : GoogleOAuthPending :=
        { code := e.text, status := "pending".toList, createdUnix := e.nowUnix, googleSub := none,
          googleEmail := none, error := none }
      some (some e.text, { s with oauth := s.oauth.insert e.text pending })
    else some (none, s)
  | .readOauth code =>
    match s.oauth.lookup code with
    | none => some (.missing, s)
    | some p => if e.readOk then some (.found p, s) else some (.corrupted, s)
  | .removeOauth code => some ((), { s with oauth := s.oauth.erase code })
  | .dial k ip port =>
    if ip.isLoopback then none else (s.opens k ⟨ip, port, []⟩).map fun s => ((), s)
  | .clientWrite k bs =>
    match s.sockets.lookup k with
    | none => none
    | some sock => if sock.peerIp.isLoopback then none else some ((), s.append k (tagged .client bs))
  | .connectSessionTcp ip port =>
    let line := Utf8.encode (proxyLine cfg.ip ip port cfg.sessionTcpIp cfg.sessionTcpPort)
    (s.opens e.conn ⟨loopback, e.port, tagged .proxy line⟩).map fun s => (e.conn, s)
  | .webWrite k bs => some ((), s.append k bs)
  | .sessionOf token => some (s.webSessions.lookup token, s)
  | .insertSession token k =>
    -- unless someone raced us
    match s.webSessions.lookup token with
    | some raced => some (raced, s)
    | none => some (k, { s with webSessions := s.webSessions.insert token k })
  | .removeSession token =>
    some ((), { s with
      webSessions := s.webSessions.erase token
      pendingTcpInputs := if e.yes then s.pendingTcpInputs.erase token else s.pendingTcpInputs })
  | .takePending token =>
    some ((s.pendingTcpInputs.lookup token).getD [],
      { s with pendingTcpInputs := s.pendingTcpInputs.erase token })
  | .defer token b =>
    let waiting := (s.pendingTcpInputs.lookup token).getD []
    some ((), { s with pendingTcpInputs := s.pendingTcpInputs.insert token (waiting ++ [b]) })
  | .identityOf token => some (s.webIdentities.lookup token, s)
  | .forgetIdentity token => some ((), { s with webIdentities := s.webIdentities.erase token })
  | .exchange token id =>
    some ((), { s with
      webIdentities := s.webIdentities.insert token id
      exchanged := id :: s.exchanged })
  | .exchangeFile code id =>
    match s.oauth.lookup code with
    | none => some ((), s)
    | some p =>
      if p.status = "pending".toList then
        let p := { p with
          status := "ok".toList, googleSub := some id.sub, googleEmail := id.email, error := none }
        some ((), { s with oauth := s.oauth.insert code p, exchanged := id :: s.exchanged })
      else some ((), s)
  | .failFile code msg =>
    match s.oauth.lookup code with
    | none => some ((), s)
    | some p =>
      if p.status = "pending".toList then
        let p := { p with
          status := "err".toList, googleSub := none, googleEmail := none, error := some msg }
        some ((), { s with oauth := s.oauth.insert code p })
      else some ((), s)
  | .build req => some (s.built.length, { s with built := s.built ++ [req] })

end IoState

/-! ## Questions -/

/-- What a task asks the clock, the throttle, the holds or a library. Nothing shared is read or
changed that the model has. -/
inductive Query where
  | nowUnix
  /-- `LoginThrottle::wait`, `note_failure` and `note_success`; durations are in nanoseconds. -/
  | throttleWait (ip : IpAddr) (n : Text)
  | noteFailure (ip : IpAddr) (n : Text)
  | noteSuccess (ip : IpAddr) (n : Text)
  | hashPassword (pw : Bytes)
  | isHeld (n : Text)
  /-- The deadline of `wait_for_saved_player` has passed. -/
  | deadline
  /-- What `uptime` prints. -/
  | uptime
  /-- What `report` and `accounthold` print. `none`: they panic. -/
  | answer (line : Text)
  /-- Lines for the event log. `false`: writing them panics. -/
  | log

abbrev Query.R : Query → Type
  | .nowUnix => Nat
  | .throttleWait _ _ => Nat
  | .noteFailure _ _ => Nat
  | .noteSuccess _ _ => Unit
  | .hashPassword _ => Option Text
  | .isHeld _ => Bool
  | .deadline => Bool
  | .uptime => Bytes
  | .answer _ => Option Bytes
  | .log => Bool

def Query.answerOf {Raw Auth : Type} (cfg : BrokerConfig Raw Auth) (e : Env) : (q : Query) → q.R
  | .nowUnix => e.nowUnix
  | .throttleWait _ _ => e.nanos
  | .noteFailure _ _ => e.nanos
  | .noteSuccess _ _ => ()
  | .hashPassword pw => cfg.hashPassword e.salt pw
  | .isHeld _ => e.yes
  | .deadline => e.yes
  | .uptime => e.bytes
  | .answer _ => if e.panics then none else some e.bytes
  | .log => e.logOk

/-! ## All sections -/

structure Shared (T : IpText) (Raw Auth : Type) where
  acct : AcctState
  ban : BanSide T
  sess : SessState Auth
  shard : ShardSide Raw Auth
  io : IoState

inductive Section (Auth : Type) where
  | acct (o : AcctSection)
  | ban (o : BanSection)
  | sess (o : SessSection Auth)
  | shard (o : ShardSection Auth)
  | io (o : IoSection)
  | ask (q : Query)
  /-- `rd.read(..)` or `disconnect_rx.changed()` -/
  | recv (k : ConnId)
  /-- The manager re-attaches all listed sessions. It alone writes to the link, so that they are as
  good as written when the sessions are read. -/
  | reattach

abbrev Section.R {Auth : Type} : Section Auth → Type
  | .acct o => o.R
  | .ban o => o.R
  | .sess o => o.R
  | .shard o => o.R
  | .io o => o.R
  | .ask q => q.R
  | .recv _ => Recv
  | .reattach => Unit

namespace Shared

variable {Raw Auth : Type} (cfg : BrokerConfig Raw Auth)

/-- The next read of a connection, of at most 4096 bytes. -/
def recvEffect (e : Env) (s : Shared cfg.ip Raw Auth) (k : ConnId) :
    Option (Recv × Shared cfg.ip Raw Auth) :=
  if e.told then if k ∈ s.sess.told then some (.told, s) else none
  else if e.readError then some (.error, s)
  else
    match s.io.sockets.lookup k with
    | none => none
    | some sock =>
      let n := min e.count 4096
      let chunk := sock.stream.take n
      if chunk.isEmpty then some (.eof, s)
      else
        let sockets := s.io.sockets.insert k { sock with stream := sock.stream.drop n }
        some (.data chunk, { s with io := { s.io with sockets } })

def reattachEffect (s : Shared cfg.ip Raw Auth) : Shared cfg.ip Raw Auth :=
  let attaches := s.sess.sessions.entries.map fun e => ShardMsg.attach (attachBody cfg.authLen e.1 e.2)
  { s with shard := { s.shard with wire := s.shard.wire ++ attaches } }

/-- **What a section does.** -/
def effect (o : Section Auth) (e : Env) (s : Shared cfg.ip Raw Auth) :
    Option (o.R × Shared cfg.ip Raw Auth) :=
  match o with
  | .acct o => some ((s.acct.effect e o).1, { s with acct := (s.acct.effect e o).2 })
  | .ban o => some ((s.ban.effect e o).1, { s with ban := (s.ban.effect e o).2 })
  | .sess o => some ((s.sess.effect o).1, { s with sess := (s.sess.effect o).2 })
  | .shard o => (s.shard.effect cfg e o).map fun x => (x.1, { s with shard := x.2 })
  | .io o => (s.io.effect cfg e o).map fun x => (x.1, { s with io := x.2 })
  | .ask q => some (q.answerOf cfg e, s)
  | .recv k => s.recvEffect cfg e k
  | .reattach => if s.shard.managerGone then none else some ((), s.reattachEffect cfg)

end Shared

/-! ## Running the model -/

/-- The bytes of a password behind its salt, where Argon2 would have their hash. -/
def plainHash (salt : Nat) (pw : Bytes) : Text :=
  Nat.toDigits 10 salt ++ '$' :: pw.map fun b => Char.ofNat b.toNat

/-- Files and blobs that hold the values themselves; no `WEB_AUTH` request parses. -/
def BrokerConfig.plain : BrokerConfig (Option (List PlayerSnapshot)) (Option AuthBlob) where
  players := .direct _
  readSaved raw := raw.map fun l => l.map .ofSnapshot
  readSaved_print _ := rfl
  auth := .direct _
  authLen _ := 0
  printWebAuth _ := []
  parseWebAuth _ := none
  ip := IpText.plain
  hashPassword salt pw := some (plainHash salt pw)
  verifyPassword pw hash := (hash.dropWhile (· ≠ '$')).tail == pw.map fun b => Char.ofNat b.toNat
  hasOidcWebauth := false
  googleAuthBaseUrl := "http://localhost".toList
  sessionTcpIp := loopback
  sessionTcpPort := 4000

end Slopmud.Broker
