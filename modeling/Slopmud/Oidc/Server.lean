import Slopmud.Oidc.Core

/-!
# The handlers of the identity provider

Requests run concurrently. What they share is the file of users, the table of codes, and a
lock around the changes of the file; a request that is under way is a `Job`, named by how far
it has got, and a move takes one request to its next wait. What the world decides (clock,
random texts, failing reads and writes) comes with the move.
-/

namespace Slopmud.Oidc

/-- A request between two waits. -/
inductive Job where
  /-- Before `st.userdb_lock.lock()`. -/
  | registering (f : RegisterForm)
  | resetting (f : RegisterForm)
  /-- With the lock, before `load_userdb`. -/
  | registerLocked (f : RegisterForm)
  | resetLocked (f : RegisterForm)
  /-- With the lock and what was loaded, before the new password is hashed and saved. -/
  | registerLoaded (f : RegisterForm) (db : UserDb)
  | resetLoaded (f : RegisterForm) (db : UserDb)
  /-- With the lock, before the code is put into the table. -/
  | registerSaved (f : RegisterForm)
  /-- A password was right; before the code is put into the table. -/
  | authorized (f : AuthorizeForm) (user : UserRec)
deriving DecidableEq, Repr

/-- The jobs that have the lock. -/
def Job.locked : Job → Bool
  | .registerLocked _ | .resetLocked _ | .registerLoaded .. | .resetLoaded ..
  | .registerSaved _ => true
  | _ => false

/-- What a code was issued for. -/
inductive Origin where
  | login (f : AuthorizeForm) (user : UserRec)
  | registration (f : RegisterForm)
deriving DecidableEq, Repr

structure Issue where
  code : Text
  origin : Origin
  now : Nat
deriving DecidableEq, Repr

/-- What is put into the table for it. -/
def Issue.authCode (i : Issue) : AuthCode :=
  match i.origin with
  | .login f user => loginCode f user i.now
  | .registration f => registrationCode f i.now

/-- A code that was answered with a token, and the request. -/
structure Redemption where
  code : Text
  client : Text × Text
  redirectUri : Text
  verifier : Text
  now : Nat
  resp : TokenResp
deriving DecidableEq, Repr

structure Server (Raw : Type) where
  /-- The user database; `none` when there is no file. -/
  file : Option Raw
  codes : Table Text AuthCode
  /-- Who has `userdb_lock`. -/
  lock : Option Nat
  jobs : Table Nat Job
  /-- The answers given, in order. -/
  answers : List Response
  /-- The codes put into the table, in order. -/
  issued : List Issue
  redeemed : List Redemption
  /-- The issued codes that a token request of the client named, whatever came of it. -/
  named : List Text
  /-- Those among them that came with a redirect URI and a verifier. -/
  attempted : List Text

/-- A token request; the credentials are what `basic_auth` makes of the headers. -/
structure TokenReq where
  auth : Option (Text × Text)
  form : TokenForm
deriving DecidableEq, Repr

inductive Move where
  | registerPost (id : Nat) (f : RegisterForm)
  | resetPost (id : Nat) (f : RegisterForm)
  | lock (id : Nat)
  | load (id : Nat) (readOk : Bool)
  /-- `phc` is the hash of the new password, `none` when hashing fails. -/
  | save (id : Nat) (phc : Option Text) (saveOk : Bool)
  | authorizePost (id : Nat) (f : AuthorizeForm) (readOk : Bool)
  /-- The code of a login or a registration; `none` when there is no randomness. -/
  | issue (id : Nat) (code : Option Text) (now : Nat)
  | token (req : TokenReq) (now : Nat)
deriving DecidableEq, Repr

variable {Raw : Type} (J : Codec Raw UserDb) (L : OidcLib) (cfg : Config)

/-- `load_userdb`; a missing file has no users. -/
def loadUserdb (readOk : Bool) (file : Option Raw) : Option UserDb :=
  if !readOk then none
  else match file with
    | none => some ⟨[]⟩
    | some raw => J.parse raw

namespace Server

def answer (s : Server Raw) (r : Response) : Server Raw := { s with answers := s.answers ++ [r] }

/-- The request goes on. -/
def goOn (s : Server Raw) (id : Nat) (job : Job) : Server Raw :=
  { s with jobs := s.jobs.insert id job }

/-- The request ends with an answer. A lock it had is released. -/
def finish (s : Server Raw) (id : Nat) (job : Job) (r : Response) : Server Raw :=
  { s with
    jobs := s.jobs.erase id
    lock := if job.locked then none else s.lock }.answer r

/-- `save_userdb_atomic`: a temporary file, renamed over the old one. -/
def saveUserdb (s : Server Raw) (db : UserDb) : Server Raw := { s with file := some (J.print db) }

def putCode (s : Server Raw) (i : Issue) : Server Raw :=
  { s with codes := s.codes.insert i.code i.authCode, issued := s.issued ++ [i] }

/-- `register_post` up to the lock. -/
def registerPost (s : Server Raw) (id : Nat) (f : RegisterForm) : Server Raw :=
  if !cfg.allowRegistration then s.answer (.text 404 "not found\n")
  else match validateAuthorizeReq cfg f.query with
    | some e => s.answer (.text 400 (e ++ "\n"))
    | none => match newPasswordError f "bad username (use 3-32 chars: a-z, 0-9, _, -)" with
      | some e => s.answer (.page .register f.query e)
      | none => s.goOn id (.registering f)

/-- `reset_post` up to the lock. -/
def resetPost (s : Server Raw) (id : Nat) (f : RegisterForm) : Server Raw :=
  if !cfg.allowPasswordReset then s.answer (.text 404 "not found\n")
  else match validateAuthorizeReq cfg f.query with
    | some e => s.answer (.text 400 (e ++ "\n"))
    | none => match newPasswordError f "bad username" with
      | some e => s.answer (.page .reset f.query e)
      | none => s.goOn id (.resetting f)

def takeLock (s : Server Raw) (id : Nat) : Option (Server Raw) :=
  if s.lock.isSome then none
  else match s.jobs.lookup id with
    | some (.registering f) => some { s.goOn id (.registerLocked f) with lock := some id }
    | some (.resetting f) => some { s.goOn id (.resetLocked f) with lock := some id }
    | _ => none

def load (s : Server Raw) (id : Nat) (readOk : Bool) : Option (Server Raw) :=
  match s.jobs.lookup id with
  | some job@(.registerLocked f) => some <| match loadUserdb J readOk s.file with
    | none => s.finish id job (.text 500 "user db load failed\n")
    | some db =>
      if db.users.any fun u => u.username == Text.trim f.username then
        s.finish id job (.page .register f.query "username already taken")
      else s.goOn id (.registerLoaded f db)
  | some job@(.resetLocked f) => some <| match loadUserdb J readOk s.file with
    | none => s.finish id job (.text 500 "user db load failed\n")
    | some db =>
      if db.users.any fun u => u.username == Text.trim f.username then
        s.goOn id (.resetLoaded f db)
      -- don't leak existence
      else s.finish id job (.page .reset f.query "reset failed")
  | _ => none

def save (s : Server Raw) (id : Nat) (phc : Option Text) (saveOk : Bool) : Option (Server Raw) :=
  match s.jobs.lookup id with
  | some job@(.registerLoaded f db) => some <| match phc with
    | none => s.finish id job (.text 500 "password hash failed\n")
    | some phc =>
      if !saveOk then s.finish id job (.text 500 "user db save failed\n")
      else (s.saveUserdb J ⟨db.users ++ [newUser f phc]⟩).goOn id (.registerSaved f)
  | some job@(.resetLoaded f db) => some <| match phc with
    | none => s.finish id job (.text 500 "password hash failed\n")
    | some phc =>
      if !saveOk then s.finish id job (.text 500 "user db save failed\n")
      else (s.saveUserdb J ⟨setPassword (Text.trim f.username) phc db.users⟩).finish id job
        (.page .login f.query "password reset. please sign in.")
  | _ => none

/-- `authorize_post` up to the code. -/
def authorizePost (s : Server Raw) (id : Nat) (f : AuthorizeForm) (readOk : Bool) : Server Raw :=
  match validateAuthorizeReq cfg f.query with
  | some e => s.answer (.text 400 (e ++ "\n"))
  | none => match loadUserdb J readOk s.file with
    | none => s.answer (.text 500 "user db load failed\n")
    | some db => match db.users.find? fun u => u.username == Text.trim f.username with
      | none => s.answer (.page .login f.query "invalid username or password")
      | some user =>
        if !verifyPassword L cfg user f.password then
          s.answer (.page .login f.query "invalid username or password")
        else s.goOn id (.authorized f user)

def issue (s : Server Raw) (id : Nat) (code : Option Text) (now : Nat) : Option (Server Raw) :=
  match s.jobs.lookup id with
  | some job@(.authorized f user) => some <| match code with
    | none => s.finish id job (.text 500 "code gen failed\n")
    | some code => (s.putCode ⟨code, .login f user, now⟩).finish id job (codeRedirect L f code)
  | some job@(.registerSaved f) => some <| match code with
    | none => s.finish id job (.text 500 "code gen failed\n")
    | some code =>
      (s.putCode ⟨code, .registration f, now⟩).finish id job (codeRedirect L f.toAuthorizeForm code)
  | _ => none

/-- The grant `authorization_code`, for a client that is who it says. -/
def tokenCode (s : Server Raw) (client : Text × Text) (tf : TokenForm) (now : Nat) : Server Raw :=
  match tf.code with
  | none => s.answer (.text 400 "missing code\n")
  | some code =>
    let known := decide (code ∈ s.issued.map Issue.code)
    let s := if known then { s with named := s.named ++ [code] } else s
    match tf.redirectUri with
    | none => s.answer (.text 400 "missing redirect_uri\n")
    | some redirectUri => match tf.codeVerifier with
      | none => s.answer (.text 400 "missing code_verifier\n")
      | some verifier =>
        let s := if known then { s with attempted := s.attempted ++ [code] } else s
        match s.codes.lookup code with
        | none => s.answer (.text 400 "invalid code\n")
        | some ac =>
          let s := { s with codes := s.codes.erase code }
          match redeem L cfg ac redirectUri verifier now with
          | .token resp =>
            let r : Redemption := ⟨code, client, redirectUri, verifier, now, resp⟩
            { s with redeemed := s.redeemed ++ [r] }.answer (.token resp)
          | r => s.answer r

/-- `token` -/
def token (s : Server Raw) (req : TokenReq) (now : Nat) : Server Raw :=
  match req.auth with
  | none => s.answer (.text 401 "missing basic auth\n")
  | some (cid, csec) =>
    if cid ≠ cfg.clientId ∨ csec ≠ cfg.clientSecret then
      s.answer (.text 401 "bad client credentials\n")
    else if req.form.grantType = "client_credentials".toList then
      match L.encodeJwt (clientCredentialsClaims cfg req.form now) with
      | .error e => s.answer (.status 500 e)
      | .ok jwt => s.answer (.token (bearer cfg jwt req.form.scope none))
    else if req.form.grantType = "authorization_code".toList then
      s.tokenCode L cfg (cid, csec) req.form now
    else s.answer (.text 400 "unsupported grant_type\n")

/-- A request has a fresh id. -/
def step (s : Server Raw) : Move → Option (Server Raw)
  | .registerPost id f => if (s.jobs.lookup id).isSome then none else some (s.registerPost cfg id f)
  | .resetPost id f => if (s.jobs.lookup id).isSome then none else some (s.resetPost cfg id f)
  | .lock id => s.takeLock id
  | .load id readOk => s.load J id readOk
  | .save id phc saveOk => s.save J id phc saveOk
  | .authorizePost id f readOk =>
    if (s.jobs.lookup id).isSome then none else some (s.authorizePost J L cfg id f readOk)
  | .issue id code now => s.issue L id code now
  | .token req now => some (s.token L cfg req now)

/-- A server that starts on a file. -/
def init (file : Option Raw) : Server Raw := ⟨file, ∅, none, ∅, [], [], [], [], []⟩

end Server

end Slopmud.Oidc
