import Slopmud.Broker.Login
import Slopmud.Lib.Codec
import Slopmud.Lib.Dialogue

/-!
# Signing in from the web page

The OAuth handlers of `slopmud_web`. A browser that has a resume token starts a login with a
provider, comes back from the provider with a code, and the identity that the provider tells
is kept under the resume token, until a `WEB_AUTH` line carries it to the broker. The broker
starts logins of its own, through files in the same directory.

Handlers run concurrently; each is a program of sections over the maps behind their locks, the
directory, and the providers. What is at a provider is a parameter.
-/

namespace Slopmud.Web

open Slopmud.Broker (Provider WebAuthReq)

/-! ## Data -/

/-- The record of a login that the broker has started. -/
structure GoogleOAuthPending where
  code : Text
  verifier : Text
  /-- pending | ok | err -/
  status : Text
  createdUnix : Nat
  updatedUnix : Option Nat
  googleSub : Option Text
  googleEmail : Option Text
  error : Option Text
deriving DecidableEq, Repr

/-- A login that a browser has started. -/
structure WebOAuthPending where
  resume : Text
  verifier : Text
  returnTo : Text
  createdUnix : Nat
deriving DecidableEq, Repr

structure WebOAuthIdentity where
  /-- google | oidc -/
  provider : Text
  sub : Text
  email : Option Text
  caps : Option (List Text)
  createdUnix : Nat
deriving DecidableEq, Repr

/-- A file of the directory, by what `serde_json` makes of it. Neither record has all the fields that
the other needs. -/
inductive OAuthFile where
  | google (pending : GoogleOAuthPending)
  | web (pending : WebOAuthPending)
  | other
deriving DecidableEq, Repr

structure OAuthState where
  dir : Text
  clientId : Option Text
  clientSecret : Option Text
  redirectUri : Option Text
  oidcAuthUrl : Option Text
  oidcTokenUrl : Option Text
  oidcUserinfoUrl : Option Text
  oidcClientId : Option Text
  oidcClientSecret : Option Text
  oidcRedirectUri : Option Text
  oidcScope : Option Text
deriving DecidableEq, Repr

namespace OAuthState

def googleEnabled (st : OAuthState) : Bool :=
  st.clientId.isSome && st.clientSecret.isSome && st.redirectUri.isSome

def oidcEnabled (st : OAuthState) : Bool :=
  st.oidcAuthUrl.isSome && st.oidcTokenUrl.isSome && st.oidcUserinfoUrl.isSome && st.oidcClientId.isSome
    && st.oidcClientSecret.isSome && st.oidcRedirectUri.isSome

def enabled (st : OAuthState) : Provider → Bool
  | .google => st.googleEnabled
  | .oidc => st.oidcEnabled

end OAuthState

/-- What the handlers use of other libraries. -/
structure SignInLib where
  base64urlSha256 : Text → Text
  urlencode : Text → Text
  /-- `serde_json::to_vec`, which does not fail on such a value. -/
  webAuthJson : WebAuthReq → Bytes

/-! ## Requests and answers -/

structure OAuthStartReq where
  provider : Text
  resume : Text
  returnTo : Option Text
deriving DecidableEq, Repr

/-- `GoogleCallbackQuery` and `OidcCallbackQuery` have the same fields. -/
structure CallbackQuery where
  code : Option Text
  state : Option Text
  error : Option Text
  errorDescription : Option Text
deriving DecidableEq, Repr

structure WebAuthSetReq where
  resume : Text
  action : Text
  method : Text
  name : Text
  password : Option Text
deriving DecidableEq, Repr

inductive SignInReq where
  | providers
  | start (req : OAuthStartReq)
  | status (resume : Text)
  | logout (resume : Text)
  | webAuthSet (req : WebAuthSetReq)
  /-- `/auth/google?code=` and `/auth/oidc?code=` -/
  | authStart (p : Provider) (code : Option Text)
  | authCallback (p : Provider) (q : CallbackQuery)
deriving DecidableEq, Repr

inductive SignInResp where
  | text (status : Nat) (body : Text)
  | redirect (url : Text)
  | providers (google oidc : Bool)
  | start (status : Nat) (url : Except Text Text)
  | status (status : Nat) (identity : Except Text (Option WebOAuthIdentity))
  | webAuthSet (status : Nat) (err : Option Text)
  /-- The pages of a login that the broker has started. -/
  | alreadyCompleted
  | signInFailed (msg : Text)
  | signedIn
  /-- `oauth_popup_html` -/
  | popup (p : Provider) (ok : Bool) (msg returnTo : Text)

def SignInResp.plain (status : Nat) (body : String) : SignInResp := .text status body.toList

/-- The request that redeems a code. Google gets the client's name and secret in the form, the other
provider in the header. -/
structure CodeExchange where
  url : Text
  clientId : Text
  clientSecret : Text
  redirectUri : Text
  code : Text
  codeVerifier : Text
deriving DecidableEq, Repr

/-- The fields that the handlers read of the answer to a userinfo request. -/
structure UserInfo where
  sub : Text
  email : Option Text
  caps : Option (List Text)
deriving DecidableEq, Repr

/-- What comes of a request to a provider. -/
inductive HttpAnswer (α : Type) where
  | failed (err : Text)
  | returned (status : Text)
  | unparsed (err : Text)
  | ok (a : α)
deriving DecidableEq, Repr

/-! ## Sections -/

inductive SignInOp where
  /-- The request that the handler is for. -/
  | accept
  | now
  /-- So many random bytes, in base64. -/
  | random (bytes : Nat)
  | readFile (path : Text)
  /-- `std::fs::write` to the path with `json.tmp` for `json` -/
  | writeTmp (path : Text) (f : OAuthFile)
  | rename (path : Text)
  | removeFile (path : Text)
  | getPending (p : Provider) (code : Text)
  | putPending (p : Provider) (code : Text) (pending : WebOAuthPending)
  | dropPending (p : Provider) (code : Text)
  | getIdentity (resume : Text)
  | putIdentity (resume : Text) (identity : WebOAuthIdentity)
  | dropIdentity (resume : Text)
  | exchange (p : Provider) (req : CodeExchange)
  | userinfo (p : Provider) (url access : Text)
  | sendOrDefer (resume : Text) (line : Bytes)
  /-- Something that happens elsewhere: at the broker, or at a provider. -/
  | elsewhere
deriving DecidableEq, Repr

abbrev SignInOp.R : SignInOp → Type
  | .accept => SignInReq
  | .now => Nat
  | .random _ => Option Text
  | .readFile _ => Option OAuthFile
  | .writeTmp _ _ => Bool
  | .rename _ => Bool
  | .removeFile _ => Unit
  | .getPending _ _ => Option WebOAuthPending
  | .putPending _ _ _ => Unit
  | .dropPending _ _ => Unit
  | .getIdentity _ => Option WebOAuthIdentity
  | .putIdentity _ _ => Unit
  | .dropIdentity _ => Unit
  | .exchange _ _ => HttpAnswer Text
  | .userinfo _ _ _ => HttpAnswer UserInfo
  | .sendOrDefer _ _ => Bool
  | .elsewhere => Unit

abbrev SignIn (α : Type) := Program SignInOp SignInOp.R α

namespace SignIn

abbrev now : SignIn Nat := .op SignInOp.now
abbrev random (bytes : Nat) : SignIn (Option Text) := .op (SignInOp.random bytes)
abbrev readFile (path : Text) : SignIn (Option OAuthFile) := .op (SignInOp.readFile path)
abbrev writeTmp (path : Text) (f : OAuthFile) : SignIn Bool := .op (SignInOp.writeTmp path f)
abbrev rename (path : Text) : SignIn Bool := .op (SignInOp.rename path)
abbrev removeFile (path : Text) : SignIn Unit := .op (SignInOp.removeFile path)
abbrev getPending (p : Provider) (code : Text) : SignIn (Option WebOAuthPending) := .op (SignInOp.getPending p code)
abbrev putPending (p : Provider) (code : Text) (pending : WebOAuthPending) : SignIn Unit :=
  .op (SignInOp.putPending p code pending)
abbrev dropPending (p : Provider) (code : Text) : SignIn Unit := .op (SignInOp.dropPending p code)
abbrev getIdentity (resume : Text) : SignIn (Option WebOAuthIdentity) := .op (SignInOp.getIdentity resume)
abbrev putIdentity (resume : Text) (identity : WebOAuthIdentity) : SignIn Unit :=
  .op (SignInOp.putIdentity resume identity)
abbrev dropIdentity (resume : Text) : SignIn Unit := .op (SignInOp.dropIdentity resume)
abbrev exchange (p : Provider) (req : CodeExchange) : SignIn (HttpAnswer Text) := .op (SignInOp.exchange p req)
abbrev userinfo (p : Provider) (url access : Text) : SignIn (HttpAnswer UserInfo) :=
  .op (SignInOp.userinfo p url access)
abbrev sendOrDefer (resume : Text) (line : Bytes) : SignIn Bool := .op (SignInOp.sendOrDefer resume line)

end SignIn

/-! ## Checks and texts -/

def isValidResumeToken (t : Text) : Bool :=
  let s := Text.trim t
  if Text.byteLen s < 16 || Text.byteLen s > 128 then false
  else s.all fun c => Text.isAsciiAlphanumeric c || c == '_' || c == '-'

def sanitizeReturnTo (s : Option Text) : Text :=
  let raw := Text.trim (s.getD [])
  if raw.isEmpty then "/play.html".toList
  else if raw.head? ≠ some '/' then "/play.html".toList
  else if (Text.stripPrefix "//".toList raw).isSome then "/play.html".toList
  else if '\r' ∈ raw ∨ '\n' ∈ raw then "/play.html".toList
  else raw

/-- `PathBuf::push`: an absolute path takes the place of all. -/
def pushPath (dir name : Text) : Text :=
  if name.head? = some '/' then name
  else if dir.isEmpty || dir.getLast? == some '/' then dir ++ name
  else dir ++ '/' :: name

def pendingPath (dir code : Text) : Text := pushPath dir (code ++ ".json".toList)

def webPendingPath (dir provider code : Text) : Text :=
  pushPath dir ("web-".toList ++ provider ++ '-' :: code ++ ".json".toList)

/-- How long a login may take, in seconds. -/
def oauthTtlS : Nat := 15 * 60

def joinQuery (base qs : Text) : Text :=
  let out := Text.trim base
  if '?' ∈ out then
    if out.getLast? = some '?' || out.getLast? = some '&' then out ++ qs else out ++ '&' :: qs
  else out ++ '?' :: qs

/-- The address that is not too long to be one. -/
def keptEmail (email : Option Text) : Option Text := email.filter fun e => Text.byteLen e ≤ 254

/-- What the callback of the configurable provider keeps of the capabilities. -/
def keptCaps (caps : Option (List Text)) : Option (List Text) :=
  (caps.map fun v => ((v.map fun s => Text.toAsciiLowercase (Text.trim s)).filter fun s =>
    !s.isEmpty && Text.byteLen s ≤ 64).take 32).filter fun v => !v.isEmpty

def identityOf (p : Provider) (info : UserInfo) (now : Nat) : WebOAuthIdentity where
  provider := p.method
  sub := info.sub
  email := keptEmail info.email
  caps := match p with
    | .google => none
    | .oidc => keptCaps info.caps
  createdUnix := now

/-! ## Handlers -/

section

variable (L : SignInLib) (st : OAuthState)

/-- A file that is written beside its place and then renamed. -/
def replaceFile (path : Text) (f : OAuthFile) : SignIn Bool := do
  if ← SignIn.writeTmp path f then SignIn.rename path else return false

def apiOauthStart (req : OAuthStartReq) : SignIn SignInResp := do
  if !isValidResumeToken req.resume then
    return .start 400 (.error "bad resume token".toList)
  else match Provider.ofMethod? (Text.toAsciiLowercase (Text.trim req.provider)) with
    | none => return .start 400 (.error "unsupported provider".toList)
    | some p =>
      if !st.enabled p then
        return .start 503 (.error (p.method ++ " sso not configured".toList))
      else match ← SignIn.random 16 with
        | none => return .start 500 (.error "rng failure".toList)
        | some stateCode => match ← SignIn.random 32 with
          | none => return .start 500 (.error "rng failure".toList)
          | some verifier => do
            let nowUnix ← SignIn.now
            let pending : WebOAuthPending :=
              ⟨Text.trim req.resume, verifier, sanitizeReturnTo req.returnTo, nowUnix⟩
            match p with
            | .google => do
              SignIn.putPending .google stateCode pending
              return .start 200 (.ok ("/auth/google?code=".toList ++ L.urlencode stateCode))
            | .oidc => do
              if ← replaceFile (webPendingPath st.dir "oidc".toList stateCode) (.web pending) then
                SignIn.putPending .oidc stateCode pending
                return .start 200 (.ok ("/auth/oidc?code=".toList ++ L.urlencode stateCode))
              else return .start 500 (.error "failed to persist oauth state".toList)

def apiOauthStatus (resume : Text) : SignIn SignInResp := do
  if !isValidResumeToken resume then
    return .status 400 (.error "bad resume token".toList)
  else
    let identity ← SignIn.getIdentity (Text.trim resume)
    return .status 200 (.ok identity)

def apiOauthLogout (resume : Text) : SignIn SignInResp := do
  if !isValidResumeToken resume then
    return .status 400 (.error "bad resume token".toList)
  else
    SignIn.dropIdentity (Text.trim resume)
    return .status 200 (.ok none)

/-- A request without any proof of identity yet. -/
def newWebAuth (action method name : Text) : WebAuthReq where
  action := action
  method := method
  name := name
  password := none
  googleSub := none
  googleEmail := none
  oidcSub := none
  oidcEmail := none
  caps := none

/-- The request with the identity of the browser. -/
def withIdentity (wa : WebAuthReq) (p : Provider) (ident : WebOAuthIdentity) : WebAuthReq :=
  match p with
  | .google => { wa with googleSub := some ident.sub, googleEmail := ident.email, caps := ident.caps }
  | .oidc => { wa with oidcSub := some ident.sub, oidcEmail := ident.email, caps := ident.caps }

def webAuthLine (wa : WebAuthReq) : Bytes :=
  Utf8.encode "WEB_AUTH ".toList ++ L.webAuthJson wa ++ [10]

/-- The end of `api_webauth_set`. -/
def sendWebAuth (resume : Text) (wa : WebAuthReq) : SignIn SignInResp := do
  if ← SignIn.sendOrDefer resume (webAuthLine L wa) then return .webAuthSet 200 none
  else return .webAuthSet 400 (some "bad resume token".toList)

def apiWebauthSet (req : WebAuthSetReq) : SignIn SignInResp := do
  let bad (msg : String) : SignInResp := .webAuthSet 400 (some msg.toList)
  let action := Text.toAsciiLowercase (Text.trim req.action)
  let method := Text.toAsciiLowercase (Text.trim req.method)
  let wa := newWebAuth action method (Text.trim req.name)
  if !isValidResumeToken req.resume then return bad "bad resume token"
  else if action ≠ "login".toList ∧ action ≠ "create".toList ∧ action ≠ "auto".toList then
    return bad "bad action"
  else if action = "auto".toList ∧ (Provider.ofMethod? method).isNone then
    return bad "auto action requires google or oidc"
  else if method = "password".toList then
    let pw := req.password.getD []
    if pw.isEmpty then return bad "missing password"
    else sendWebAuth L req.resume { wa with password := some pw }
  else match Provider.ofMethod? method with
    | none => return bad "bad method"
    | some p => match ← SignIn.getIdentity (Text.trim req.resume) with
      | none => return bad "not signed in"
      | some ident =>
        if ident.provider ≠ method then return bad "signed in with different provider"
        else sendWebAuth L req.resume (withIdentity wa p ident)

/-! ### To the provider -/

def googleAuthUrl (clientId redirectUri code verifier : Text) : Text :=
  "https://accounts.google.com/o/oauth2/v2/auth?response_type=code&client_id=".toList
    ++ L.urlencode clientId ++ "&redirect_uri=".toList ++ L.urlencode redirectUri
    ++ "&scope=".toList ++ L.urlencode "openid email profile".toList
    ++ "&state=".toList ++ L.urlencode code
    ++ "&code_challenge=".toList ++ L.urlencode (L.base64urlSha256 verifier)
    ++ "&code_challenge_method=S256&prompt=select_account".toList

def googleAuthStart (code : Option Text) : SignIn SignInResp :=
  match code with
  | none => return .plain 400 "missing code\n"
  | some code => match st.clientId, st.redirectUri with
    | some clientId, some redirectUri => do
      let nowUnix ← SignIn.now
      match ← SignIn.readFile (pendingPath st.dir code) with
      | some (.google pending) =>
        if pending.status ≠ "pending".toList then return .plain 400 "oauth already completed\n"
        else return .redirect (googleAuthUrl L clientId redirectUri code pending.verifier)
      | some _ => return .plain 400 "bad oauth record\n"
      | none => match ← SignIn.getPending .google code with
        | none => return .plain 404 "unknown code\n"
        | some pending =>
          if nowUnix - pending.createdUnix > oauthTtlS then do
            SignIn.dropPending .google code
            return .plain 400 "oauth expired\n"
          else return .redirect (googleAuthUrl L clientId redirectUri code pending.verifier)
    | _, _ => return .plain 503 "google sso not configured\n"

def oidcAuthUrl (authUrl clientId redirectUri code verifier : Text) : Text :=
  joinQuery authUrl ("response_type=code&client_id=".toList ++ L.urlencode clientId
    ++ "&redirect_uri=".toList ++ L.urlencode redirectUri
    ++ "&scope=".toList ++ L.urlencode (st.oidcScope.getD "openid email profile".toList)
    ++ "&state=".toList ++ L.urlencode code
    ++ "&code_challenge=".toList ++ L.urlencode (L.base64urlSha256 verifier)
    ++ "&code_challenge_method=S256".toList)

/-- The login of a state code, from the map or else from its file. -/
def findOidcPending (code : Text) : SignIn (Option WebOAuthPending) := do
  match ← SignIn.getPending .oidc code with
  | some pending => return some pending
  | none => match ← SignIn.readFile (webPendingPath st.dir "oidc".toList code) with
    | some (.web pending) => return some pending
    | _ => return none

def oidcAuthStart (code : Option Text) : SignIn SignInResp :=
  match code with
  | none => return .plain 400 "missing code\n"
  | some code => match st.oidcAuthUrl, st.oidcClientId, st.oidcRedirectUri with
    | some authUrl, some clientId, some redirectUri => do
      let nowUnix ← SignIn.now
      match ← findOidcPending st code with
      | none => return .plain 404 "unknown code\n"
      | some pending =>
        if nowUnix - pending.createdUnix > oauthTtlS then do
          SignIn.dropPending .oidc code
          SignIn.removeFile (webPendingPath st.dir "oidc".toList code)
          return .plain 400 "oauth expired\n"
        else return .redirect (oidcAuthUrl L st authUrl clientId redirectUri code pending.verifier)
    | _, _, _ => return .plain 503 "oidc sso not configured\n"

/-! ### And back -/

/-- The code for a token, the token for what the provider knows of its owner; or what goes wrong. -/
def askProvider (p : Provider) (req : CodeExchange) (userinfoUrl : Text) : SignIn (Except Text UserInfo) := do
  match ← SignIn.exchange p req with
  | .failed e => return .error ("token exchange failed: ".toList ++ e)
  | .returned status => return .error ("token exchange returned ".toList ++ status)
  | .unparsed e => return .error ("token response parse failed: ".toList ++ e)
  | .ok access => match ← SignIn.userinfo p userinfoUrl access with
    | .failed e => return .error ("userinfo request failed: ".toList ++ e)
    | .returned status => return .error ("userinfo returned ".toList ++ status)
    | .unparsed e => return .error ("userinfo parse failed: ".toList ++ e)
    | .ok info => return .ok info

def writePendingOk (path sub : Text) (email : Option Text) : SignIn Bool := do
  match ← SignIn.readFile path with
  | some (.google pending) => do
    let nowUnix ← SignIn.now
    replaceFile path (.google { pending with
      status := "ok".toList
      updatedUnix := some nowUnix
      googleSub := some sub
      googleEmail := email
      error := none })
  | _ => return false

def writePendingErr (path msg : Text) : SignIn Bool := do
  match ← SignIn.readFile path with
  | some (.google pending) => do
    let nowUnix ← SignIn.now
    replaceFile path (.google { pending with
      status := "err".toList
      updatedUnix := some nowUnix
      googleSub := none
      googleEmail := none
      error := some msg })
  | _ => return false

/-- Which login a Google callback is for: one in a file of the broker's, or one of a browser. -/
inductive GoogleFlow where
  | file (path : Text) (pending : GoogleOAuthPending)
  | web (stateCode : Text) (pending : WebOAuthPending)

def GoogleFlow.verifier : GoogleFlow → Text
  | .file _ pending => pending.verifier
  | .web _ pending => pending.verifier

/-- What a failure does to the login, and how the browser hears of it. -/
def GoogleFlow.fail (flow : GoogleFlow) (msg : Text) : SignIn SignInResp :=
  match flow with
  | .file path _ => do
    let _ ← writePendingErr path msg
    return .signInFailed msg
  | .web _ pending => return .popup .google false msg pending.returnTo

/-- The end of `google_auth_callback`. -/
def GoogleFlow.succeed (flow : GoogleFlow) (nowUnix : Nat) (info : UserInfo) : SignIn SignInResp :=
  match flow with
  | .file path _ => do
    if ← writePendingOk path info.sub (keptEmail info.email) then return .signedIn
    else return .plain 500 "failed to write oauth result\n"
  | .web stateCode pending => do
    SignIn.putIdentity pending.resume (identityOf .google info nowUnix)
    SignIn.dropPending .google stateCode
    return .popup .google true "ok".toList pending.returnTo

/-- `google_auth_callback`, once it is known which login it is for. -/
def GoogleFlow.finish (flow : GoogleFlow) (nowUnix : Nat) (q : CallbackQuery) : SignIn SignInResp :=
  match q.error with
  | some err => flow.fail (q.errorDescription.getD err)
  | none => match q.code with
    | none => match flow with
      | .file path _ => do
        let _ ← writePendingErr path "missing code".toList
        return .plain 400 "missing code\n"
      | .web _ pending => return .popup .google false "missing code".toList pending.returnTo
    | some code => match st.clientId, st.clientSecret, st.redirectUri with
      | some clientId, some clientSecret, some redirectUri => do
        let req : CodeExchange := ⟨"https://oauth2.googleapis.com/token".toList, clientId, clientSecret,
          redirectUri, code, flow.verifier⟩
        match ← askProvider .google req "https://openidconnect.googleapis.com/v1/userinfo".toList with
        | .error msg => flow.fail msg
        | .ok info => flow.succeed nowUnix info
      | _, _, _ => match flow with
        | .file _ _ => return .plain 503 "google sso not configured\n"
        | .web _ pending => return .popup .google false "google sso not configured".toList pending.returnTo

def googleAuthCallback (q : CallbackQuery) : SignIn SignInResp :=
  match q.state with
  | none => return .plain 400 "missing state\n"
  | some stateCode => do
    let nowUnix ← SignIn.now
    let path := pendingPath st.dir stateCode
    match ← SignIn.readFile path with
    | some (.google pending) =>
      if pending.status ≠ "pending".toList then return .alreadyCompleted
      else GoogleFlow.finish st (.file path pending) nowUnix q
    | some _ => return .plain 400 "bad oauth record\n"
    | none => match ← SignIn.getPending .google stateCode with
      | none => return .plain 404 "unknown state\n"
      | some pending => GoogleFlow.finish st (.web stateCode pending) nowUnix q

/-- `oidc_auth_callback`, once the login is found. -/
def oidcFinish (stateCode : Text) (pending : WebOAuthPending) (nowUnix : Nat) (q : CallbackQuery) :
    SignIn SignInResp :=
  let failed (msg : Text) : SignInResp := .popup .oidc false msg pending.returnTo
  match q.error with
  | some err => return failed (q.errorDescription.getD err)
  | none => match q.code with
    | none => return failed "missing code".toList
    | some code =>
      match st.oidcTokenUrl, st.oidcUserinfoUrl, st.oidcClientId, st.oidcClientSecret, st.oidcRedirectUri with
      | some tokenUrl, some userinfoUrl, some clientId, some clientSecret, some redirectUri => do
        let req : CodeExchange := ⟨tokenUrl, clientId, clientSecret, redirectUri, code, pending.verifier⟩
        match ← askProvider .oidc req userinfoUrl with
        | .error msg => return failed msg
        | .ok info => do
          SignIn.putIdentity pending.resume (identityOf .oidc info nowUnix)
          SignIn.dropPending .oidc stateCode
          SignIn.removeFile (webPendingPath st.dir "oidc".toList stateCode)
          return .popup .oidc true "ok".toList pending.returnTo
      | _, _, _, _, _ => return failed "oidc sso not configured".toList

def oidcAuthCallback (q : CallbackQuery) : SignIn SignInResp :=
  match q.state with
  | none => return .plain 400 "missing state\n"
  | some stateCode => do
    match ← findOidcPending st stateCode with
    | none => return .plain 404 "unknown state\n"
    | some pending => do
      let nowUnix ← SignIn.now
      oidcFinish st stateCode pending nowUnix q

/-- What each request gets. -/
def handle : SignInReq → SignIn SignInResp
  | .providers => return .providers st.googleEnabled st.oidcEnabled
  | .start req => apiOauthStart L st req
  | .status resume => apiOauthStatus resume
  | .logout resume => apiOauthLogout resume
  | .webAuthSet req => apiWebauthSet L req
  | .authStart .google code => googleAuthStart L st code
  | .authStart .oidc code => oidcAuthStart L st code
  | .authCallback .google q => googleAuthCallback st q
  | .authCallback .oidc q => oidcAuthCallback st q

/-- A request, from its arrival to its answer. -/
def serve : SignIn SignInResp := do
  let req ← (.op SignInOp.accept : SignIn SignInReq)
  handle L st req

end

/-! ## What the sections do -/

/-- What is at the providers, what they answer, and what else may happen there. -/
structure Providers (P E : Type) where
  token : Provider → CodeExchange → E → P → HttpAnswer Text × P
  userinfo : Provider → (url access : Text) → E → P → HttpAnswer UserInfo × P
  elsewhere : E → P → P

/-- The handlers' surroundings: their libraries and configuration, which place a path leads to, and the
providers. -/
structure SignInWorld (Place P E : Type) where
  lib : SignInLib
  st : OAuthState
  locate : Text → Place
  providers : Providers P E

structure SignInShared (Place P : Type) where
  files : Table Place OAuthFile
  /-- The files that are still beside their places. -/
  tmps : Table Place OAuthFile
  webPendingGoogle : Table Text WebOAuthPending
  webPendingOidc : Table Text WebOAuthPending
  webIdentities : Table Text WebOAuthIdentity
  /-- What was handed to the web sessions, with the resume token. -/
  sent : List (Text × Bytes)
  providers : P

/-- What the broker does in the directory. -/
inductive BrokerAct where
  | writeTmp (code verifier : Text) (nowUnix : Nat)
  | rename (code : Text)
  | remove (code : Text)
deriving DecidableEq, Repr

inductive SignInEnv (E : Type) where
  | request (req : SignInReq)
  | clock (now : Nat)
  | random (s : Option Text)
  /-- Whether an access to the disk succeeds; one that fails may have damaged what it wrote. -/
  | disk (ok damaged : Bool)
  | provider (e : E)
  | broker (act : BrokerAct)
  /-- Nothing is left to chance. -/
  | plain

/-- The file that the broker starts a login with. -/
def brokerPending (code verifier : Text) (nowUnix : Nat) : GoogleOAuthPending where
  code := code
  verifier := verifier
  status := "pending".toList
  createdUnix := nowUnix
  updatedUnix := none
  googleSub := none
  googleEmail := none
  error := none

namespace SignInShared

variable {Place P : Type} [DecidableEq Place]

def pending (s : SignInShared Place P) : Provider → Table Text WebOAuthPending
  | .google => s.webPendingGoogle
  | .oidc => s.webPendingOidc

def setPending (s : SignInShared Place P) (m : Table Text WebOAuthPending) : Provider → SignInShared Place P
  | .google => { s with webPendingGoogle := m }
  | .oidc => { s with webPendingOidc := m }

def writeTmp (s : SignInShared Place P) (place : Place) (f : OAuthFile) : SignInShared Place P :=
  { s with tmps := s.tmps.insert place f }

/-- `std::fs::rename`, which fails when there is nothing to rename. -/
def rename (s : SignInShared Place P) (place : Place) : Option (SignInShared Place P) :=
  (s.tmps.lookup place).map fun f =>
    { s with files := s.files.insert place f, tmps := s.tmps.erase place }

def removeFile (s : SignInShared Place P) (place : Place) : SignInShared Place P :=
  { s with files := s.files.erase place }

/-- A directory with these files, and nobody signed in. -/
def init (files : Table Place OAuthFile) (providers : P) : SignInShared Place P where
  files := files
  tmps := ∅
  webPendingGoogle := ∅
  webPendingOidc := ∅
  webIdentities := ∅
  sent := []
  providers := providers

end SignInShared

section

variable {Place P E : Type} [DecidableEq Place] (W : SignInWorld Place P E)

def BrokerAct.run (s : SignInShared Place P) : BrokerAct → SignInShared Place P
  | .writeTmp code verifier nowUnix =>
    s.writeTmp (W.locate (pendingPath W.st.dir code)) (.google (brokerPending code verifier nowUnix))
  | .rename code => (s.rename (W.locate (pendingPath W.st.dir code))).getD s
  | .remove code => s.removeFile (W.locate (pendingPath W.st.dir code))

def signInEffect (o : SignInOp) (e : SignInEnv E) (s : SignInShared Place P) :
    Option (o.R × SignInShared Place P) :=
  match o, e with
  | .accept, .request req => some (req, s)
  | .now, .clock t => some (t, s)
  | .random _, .random bytes => some (bytes, s)
  | .readFile path, .disk ok _ => some (if ok then s.files.lookup (W.locate path) else none, s)
  | .writeTmp path f, .disk ok damaged =>
    if ok then some (true, s.writeTmp (W.locate path) f)
    else if damaged then some (false, s.writeTmp (W.locate path) .other)
    else some (false, s)
  | .rename path, .disk ok _ =>
    if !ok then some (false, s)
    else match s.rename (W.locate path) with
      | some s' => some (true, s')
      | none => some (false, s)
  | .removeFile path, .disk ok _ => some ((), if ok then s.removeFile (W.locate path) else s)
  | .getPending p code, .plain => some ((s.pending p).lookup code, s)
  | .putPending p code pending, .plain => some ((), s.setPending ((s.pending p).insert code pending) p)
  | .dropPending p code, .plain => some ((), s.setPending ((s.pending p).erase code) p)
  | .getIdentity resume, .plain => some (s.webIdentities.lookup resume, s)
  | .putIdentity resume identity, .plain =>
    some ((), { s with webIdentities := s.webIdentities.insert resume identity })
  | .dropIdentity resume, .plain => some ((), { s with webIdentities := s.webIdentities.erase resume })
  | .exchange p req, .provider e =>
    let (answer, providers) := W.providers.token p req e s.providers
    some (answer, { s with providers := providers })
  | .userinfo p url access, .provider e =>
    let (answer, providers) := W.providers.userinfo p url access e s.providers
    some (answer, { s with providers := providers })
  | .sendOrDefer resume line, .plain =>
    if isValidResumeToken resume then some (true, { s with sent := s.sent ++ [(resume, line)] })
    else some (false, s)
  | .elsewhere, .provider e => some ((), { s with providers := W.providers.elsewhere e s.providers })
  | .elsewhere, .broker act => some ((), act.run W s)
  | _, _ => none

/-- What starts a task. -/
inductive SignInCall where
  | request
  | elsewhere
deriving DecidableEq, Repr

/-- A task for each request, and one for each thing that happens elsewhere. -/
def signInTasks : Tasks (SignInShared Place P) Nat (SignInEnv E) SignInCall SignInOp SignInOp.R
    (Option SignInResp) where
  effect := signInEffect W
  start _ c old :=
    match c, old with
    | .request, none => some (do let resp ← serve W.lib W.st; return some resp)
    | .elsewhere, none => some (do .op SignInOp.elsewhere; return none)
    | _, some _ => none

abbrev SignInPool (Place P : Type) := Pool (SignInShared Place P) Nat SignInOp SignInOp.R (Option SignInResp)

abbrev SignInMove (E : Type) := Move Nat (SignInEnv E) SignInCall

def signInStep : SignInPool Place P → SignInMove E → Option (SignInPool Place P) :=
  Pool.step (signInTasks W)

def SignInPool.init (files : Table Place OAuthFile) (providers : P) : SignInPool Place P where
  shared := .init files providers
  task _ := none

end

end Slopmud.Web
