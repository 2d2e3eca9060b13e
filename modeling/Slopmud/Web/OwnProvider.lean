import Slopmud.Oidc.Server
import Slopmud.Web.SignIn

/-!
# Signing in with the own provider

`internal_oidc` as the provider that `slopmud_web` is configured with: its userinfo endpoint,
and what becomes of the requests of the web server between the two.
-/

namespace Slopmud.Oidc

/-- What `userinfo` uses of `jsonwebtoken`. -/
structure JwtLib (L : OidcLib) where
  /-- Whether the public key can be read. -/
  keyOk : Bool
  /-- Decoding at some time, which checks the signature, the issuer, the audience and the expiry. -/
  decodeJwt : (token : Text) → (now : Nat) → Option Claims
  /-- A token says what was signed. -/
  decode_encode : ∀ {c c' : Claims} {token : Text} {now : Nat},
    L.encodeJwt c = .ok token → decodeJwt token now = some c' → c' = c
  /-- A token is base64 with dots. -/
  trim_token : ∀ {c : Claims} {token : Text}, L.encodeJwt c = .ok token → Text.trim token = token

structure UserInfoResp where
  sub : Text
  email : Option Text
  caps : Option (List Text)
deriving DecidableEq, Repr

/-- The characters that `HeaderValue::to_str` accepts. -/
def isVisible (c : Char) : Bool := c == '\t' || (' ' ≤ c && c ≤ '~')

/-- `userinfo`, for the header `Authorization`. -/
def userinfo {L : OidcLib} (V : JwtLib L) (authorization : Option Text) (now : Nat) :
    Except (Nat × String) UserInfoResp :=
  match authorization with
  | none => .error (401, "missing bearer token\n")
  | some h =>
    if !h.all isVisible then .error (401, "bad authorization header\n")
    else match Text.stripPrefix "Bearer ".toList h with
      | none => .error (401, "bad authorization header\n")
      | some tok =>
        let tok := Text.trim tok
        if tok.isEmpty then .error (401, "missing bearer token\n")
        else if !V.keyOk then .error (500, "bad signing key\n")
        else match V.decodeJwt tok now with
          | none => .error (401, "invalid token\n")
          | some claims => .ok ⟨claims.sub, claims.email, sanitizeCaps claims.caps⟩

end Slopmud.Oidc

namespace Slopmud.Web

open Slopmud.Broker (Provider)
open Slopmud.Oidc (Server Config OidcLib JwtLib UserDb TokenForm TokenReq)

/-- How `http::StatusCode` prints. -/
def statusText (code : Nat) : Text :=
  let reason := match code with
    | 400 => "Bad Request"
    | 401 => "Unauthorized"
    | 500 => "Internal Server Error"
    | _ => "<unknown status code>"
  Nat.toDigits 10 code ++ ' ' :: reason.toList

/-- The form that `oidc_auth_callback` posts. -/
def CodeExchange.form (req : CodeExchange) : TokenForm where
  grantType := "authorization_code".toList
  sub := none
  sid := none
  scope := none
  code := some req.code
  redirectUri := some req.redirectUri
  codeVerifier := some req.codeVerifier

def CodeExchange.tokenReq (req : CodeExchange) : TokenReq where
  auth := some (req.clientId, req.clientSecret)
  form := req.form

/-- What the web server makes of the response to a token request. -/
def tokenAnswer : Option Oidc.Response → HttpAnswer Text
  | some (.token resp) => .ok resp.accessToken
  | some (.status code _) => .returned (statusText code)
  | _ => .unparsed []

/-- What may come of a request on the way, and what else happens at the providers. -/
inductive ProviderEnv where
  /-- Google answers as it likes. -/
  | google (token : HttpAnswer Text) (info : HttpAnswer UserInfo)
  /-- The request arrives at this time, and so does the response. -/
  | served (now : Nat)
  /-- The response does not. -/
  | lost (now : Nat) (err : Text)
  /-- The request does not. -/
  | unserved (err : Text)
  /-- Somebody else's request, or a step of one. -/
  | move (m : Oidc.Move)

section

variable {Raw : Type} (J : Codec Raw UserDb) {L : OidcLib} (V : JwtLib L) (cfg : Config)

def ownToken (p : Provider) (req : CodeExchange) (e : ProviderEnv) (s : Server Raw) :
    HttpAnswer Text × Server Raw :=
  match p, e with
  | .google, .google token _ => (token, s)
  | .oidc, .served now =>
    let s' := s.token L cfg req.tokenReq now
    (tokenAnswer s'.answers.getLast?, s')
  | .oidc, .lost now err => (.failed err, s.token L cfg req.tokenReq now)
  | _, .unserved err => (.failed err, s)
  | _, _ => (.failed [], s)

def ownUserinfo (p : Provider) (_url access : Text) (e : ProviderEnv) (s : Server Raw) :
    HttpAnswer UserInfo × Server Raw :=
  match p, e with
  | .google, .google _ info => (info, s)
  | .oidc, .served now =>
    match Oidc.userinfo V (some ("Bearer ".toList ++ access)) now with
    | .ok resp => (.ok ⟨resp.sub, resp.email, resp.caps⟩, s)
    | .error e => (.returned (statusText e.1), s)
  | _, .unserved err => (.failed err, s)
  | _, _ => (.failed [], s)

/-- The own provider, and Google. -/
def ownProviders : Providers (Server Raw) ProviderEnv where
  token := ownToken (L := L) cfg
  userinfo := ownUserinfo V
  elsewhere e s :=
    match e with
    | .move m => (s.step J L cfg m).getD s
    | _ => s

end

end Slopmud.Web
