import Slopmud.Lib.Codec
import Slopmud.Lib.Table
import Slopmud.Lib.Text
import Slopmud.Lib.Word

/-!
# The identity provider

`internal_oidc`: its forms, its user database, authorization codes and token claims, with the
checks that depend on nothing else. Hashes, signatures and encodings are those of other
libraries, taken together in `OidcLib`.
-/

namespace Slopmud.Oidc

structure Config where
  issuer : Text
  clientId : Text
  clientSecret : Text
  tokenTtlS : Nat
  authCodeTtlS : Nat
  /-- Whether there is a user database, which enables `/authorize`. -/
  usersPath : Bool
  /-- Optional allowlist for the redirect URI. -/
  allowedRedirectUris : List Text
  allowPlaintextPasswords : Bool
  allowRegistration : Bool
  allowPasswordReset : Bool
deriving DecidableEq, Repr

structure UserRec where
  username : Text
  passwordHash : Option Text
  password : Option Text
  sub : Option Text
  email : Option Text
  caps : Option (List Text)
deriving DecidableEq, Repr

/-- `user.sub.clone().unwrap_or_else(|| user.username.clone())` -/
def UserRec.subject (u : UserRec) : Text := u.sub.getD u.username

structure UserDb where
  users : List UserRec
deriving DecidableEq, Repr

structure AuthCode where
  createdUnix : Nat
  redirectUri : Text
  codeChallenge : Text
  scope : Option Text
  sub : Text
  email : Option Text
  caps : Option (List Text)
deriving DecidableEq, Repr

structure AuthorizeQuery where
  responseType : Option Text
  clientId : Option Text
  redirectUri : Option Text
  scope : Option Text
  state : Option Text
  codeChallenge : Option Text
  codeChallengeMethod : Option Text
deriving DecidableEq, Repr

structure AuthorizeForm where
  username : Text
  password : Text
  responseType : Text
  clientId : Text
  redirectUri : Text
  scope : Option Text
  state : Option Text
  codeChallenge : Text
  codeChallengeMethod : Text
deriving DecidableEq, Repr

/-- `RegisterForm` and `ResetForm` have the same fields. -/
structure RegisterForm extends AuthorizeForm where
  password2 : Text
deriving DecidableEq, Repr

def AuthorizeForm.query (f : AuthorizeForm) : AuthorizeQuery where
  responseType := some f.responseType
  clientId := some f.clientId
  redirectUri := some f.redirectUri
  scope := f.scope
  state := f.state
  codeChallenge := some f.codeChallenge
  codeChallengeMethod := some f.codeChallengeMethod

structure TokenForm where
  grantType : Text
  sub : Option Text
  sid : Option Text
  scope : Option Text
  code : Option Text
  redirectUri : Option Text
  codeVerifier : Option Text
deriving DecidableEq, Repr

structure Claims where
  iss : Text
  sub : Text
  aud : Text
  iat : Nat
  exp : Nat
  sid : Option Text
  scope : Option Text
  clientId : Text
  email : Option Text
  caps : Option (List Text)
deriving DecidableEq, Repr

structure TokenResp where
  accessToken : Text
  tokenType : Text
  expiresIn : Nat
  scope : Option Text
  idToken : Option Text
deriving DecidableEq, Repr

inductive Page where
  | login | register | reset
deriving DecidableEq, Repr

inductive Response where
  | status (code : Nat) (text : Text)
  /-- A page with the query hidden in it, and an error. -/
  | form (page : Page) (q : AuthorizeQuery) (err : Option Text)
  | redirect (url : Text)
  | token (r : TokenResp)
deriving DecidableEq, Repr

def Response.text (code : Nat) (t : String) : Response := .status code t.toList

def Response.page (page : Page) (q : AuthorizeQuery) (err : String) : Response :=
  .form page q (some err.toList)

/-- What the provider uses of other libraries. -/
structure OidcLib where
  /-- Argon2, with a stored hash; `none` for a hash that does not parse. -/
  verifyPhc : (phc password : Text) → Option Bool
  base64urlSha256 : Text → Text
  /-- `encode_jwt`, under the configured key: the token, or the text of the error. -/
  encodeJwt : Claims → Except Text Text
  urlencode : Text → Text

/-! ## Checks -/

def validateRedirectUri (cfg : Config) (uri : Text) : Bool :=
  cfg.allowedRedirectUris.isEmpty || cfg.allowedRedirectUris.contains uri

/-- The error of `validate_authorize_req`, none for a valid query. -/
def validateAuthorizeReq (cfg : Config) (q : AuthorizeQuery) : Option String :=
  if !cfg.usersPath then some "authorize disabled (set OIDC_USERS_PATH)"
  else if q.responseType ≠ some "code".toList then some "unsupported response_type"
  else if q.clientId ≠ some cfg.clientId then some "bad client_id"
  else match q.redirectUri with
    | none => some "missing redirect_uri"
    | some uri =>
      if !validateRedirectUri cfg uri then some "redirect_uri not allowed"
      else match q.codeChallenge with
        | none => some "missing code_challenge"
        | some chal =>
          if (Text.trim chal).isEmpty then some "missing code_challenge"
          else if q.codeChallengeMethod ≠ some "S256".toList then
            some "unsupported code_challenge_method"
          else none

def isValidUsername (s : Text) : Bool :=
  let s := Text.trim s
  if Text.byteLen s < 3 || Text.byteLen s > 32 then false
  else s.all fun c => Text.isAsciiAlphanumeric c || c == '_' || c == '-'

/-- The checks on a new user name and password, the same for both forms but for one text. -/
def newPasswordError (f : RegisterForm) (badName : String) : Option String :=
  if !isValidUsername (Text.trim f.username) then some badName
  else if f.password ≠ f.password2 then some "passwords do not match"
  else if Text.byteLen f.password < 8 then some "password too short (min 8 chars)"
  else none

def sanitizeCaps (v : Option (List Text)) : Option (List Text) :=
  (v.map fun xs => ((xs.map fun s => Text.toAsciiLowercase (Text.trim s)).filter fun s =>
    !s.isEmpty && Text.byteLen s ≤ 64).take 32).filter fun v => !v.isEmpty

def verifyPassword (L : OidcLib) (cfg : Config) (user : UserRec) (password : Text) : Bool :=
  match user.passwordHash with
  | some phc => (L.verifyPhc phc password).getD false
  | none =>
    if cfg.allowPlaintextPasswords then
      match user.password with
      | some p => p == password
      | none => false
    else false

def joinQuery (base qs : Text) : Text :=
  let out := Text.trim base
  if '?' ∈ out then
    if out.getLast? = some '?' || out.getLast? = some '&' then out ++ qs else out ++ '&' :: qs
  else out ++ '?' :: qs

/-- The redirect with the code, and the state unless it is blank. -/
def codeRedirect (L : OidcLib) (f : AuthorizeForm) (code : Text) : Response :=
  let qs := "code=".toList ++ L.urlencode code
  let qs := match f.state with
    | some state => if (Text.trim state).isEmpty then qs
      else qs ++ "&state=".toList ++ L.urlencode state
    | none => qs
  .redirect (joinQuery f.redirectUri qs)

/-! ## Codes and tokens -/

/-- What `authorize_post` puts into the table. -/
def loginCode (f : AuthorizeForm) (user : UserRec) (now : Nat) : AuthCode where
  createdUnix := now
  redirectUri := f.redirectUri
  codeChallenge := f.codeChallenge
  scope := f.scope
  sub := user.subject
  email := user.email.filter fun e => Text.byteLen e ≤ 254
  caps := sanitizeCaps user.caps

/-- What `register_post` puts into the table. -/
def registrationCode (f : RegisterForm) (now : Nat) : AuthCode where
  createdUnix := now
  redirectUri := f.redirectUri
  codeChallenge := f.codeChallenge
  scope := f.scope
  sub := Text.trim f.username
  email := none
  caps := none

def newUser (f : RegisterForm) (phc : Text) : UserRec where
  username := Text.trim f.username
  passwordHash := some phc
  password := none
  sub := some (Text.trim f.username)
  email := none
  caps := none

/-- The first user of a name gets a new password. -/
def setPassword (name phc : Text) : List UserRec → List UserRec
  | [] => []
  | u :: us =>
    if u.username = name then { u with passwordHash := some phc, password := none } :: us
    else u :: setPassword name phc us

def clientCredentialsClaims (cfg : Config) (tf : TokenForm) (now : Nat) : Claims where
  iss := cfg.issuer
  sub := tf.sub.getD "anonymous".toList
  aud := "slopmud".toList
  iat := now
  exp := Word.satAdd64 now cfg.tokenTtlS
  sid := tf.sid
  scope := tf.scope
  clientId := cfg.clientId
  email := none
  caps := none

def codeClaims (cfg : Config) (ac : AuthCode) (now : Nat) : Claims where
  iss := cfg.issuer
  sub := ac.sub
  aud := "slopmud".toList
  iat := now
  exp := Word.satAdd64 now cfg.tokenTtlS
  sid := none
  scope := ac.scope
  clientId := cfg.clientId
  email := ac.email
  caps := ac.caps

def bearer (cfg : Config) (access : Text) (scope idToken : Option Text) : TokenResp :=
  ⟨access, "Bearer".toList, cfg.tokenTtlS, scope, idToken⟩

/-- The answer once a code has been taken out of the table. -/
def redeem (L : OidcLib) (cfg : Config) (ac : AuthCode) (redirectUri verifier : Text) (now : Nat) :
    Response :=
  if now - ac.createdUnix > cfg.authCodeTtlS then .text 400 "code expired\n"
  else if ac.redirectUri ≠ redirectUri then .text 400 "redirect_uri mismatch\n"
  else if ac.codeChallenge ≠ L.base64urlSha256 verifier then .text 400 "pkce verify failed\n"
  else
    let claims := codeClaims cfg ac now
    match L.encodeJwt claims with
    | .error e => .status 500 e
    | .ok access =>
      let openid := (Text.splitWhitespace (claims.scope.getD [])).any (· == "openid".toList)
      let idToken := if openid then (L.encodeJwt { claims with aud := cfg.clientId }).toOption else none
      .token (bearer cfg access claims.scope idToken)

end Slopmud.Oidc
