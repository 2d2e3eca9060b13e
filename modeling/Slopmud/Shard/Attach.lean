import Slopmud.Shard.World

/-!
# Attaching sessions

The broker vouches for a session with an auth blob; the shard derives from it the
principal that owns the character, through a chain of fields of which the first
non-empty one wins.
-/

namespace Slopmud.Shard

structure AuthBlob where
  acct : Option Text
  method : Option Text
  googleSub : Option Text
  googleEmail : Option Text
  oidcSub : Option Text
  oidcEmail : Option Text
  caps : Option (List Text)
deriving DecidableEq, Repr

/-- One link of the chain: a field that is present and not blank. -/
def fieldPrincipal (tag : String) (fold : Text → Text) (field : Option Text) : Option Text :=
  field.bind fun v =>
    let v := fold (Text.trim v)
    if v.isEmpty then none else some (tag.toList ++ ':' :: v)

/-- The principal of a blob that parsed. Subs keep their case; e-mails and names are folded. -/
def AuthBlob.principal? (a : AuthBlob) : Option Text :=
  fieldPrincipal "google_sub" id a.googleSub
  <|> fieldPrincipal "oidc_sub" id a.oidcSub
  <|> fieldPrincipal "google_email" Text.toAsciiLowercase a.googleEmail
  <|> fieldPrincipal "oidc_email" Text.toAsciiLowercase a.oidcEmail
  <|> fieldPrincipal "acct" Text.toAsciiLowercase a.acct
  <|> fieldPrincipal "method" Text.toAsciiLowercase a.method

variable {Auth : Type} (A : Codec Auth AuthBlob)

/-- `auth` is asserted by the broker. This shard does not validate it. -/
def principalFromAttach (name : Text) (auth : Option Auth) : Text :=
  ((auth.bind A.parse).bind AuthBlob.principal?).getD
    ("acct:".toList ++ Text.toAsciiLowercase (Text.trim name))

/-- Unknown caps are ignored. -/
def capsFromAttach (auth : Option Auth) : List Capability :=
  (((auth.bind A.parse).bind AuthBlob.caps).getD []).filterMap Capability.parse

/-- `ShardReq::Attach`. The byte fields are given as the text the shard decodes them to. -/
structure AttachReq (Auth : Type) where
  session : SessionId
  isBot : Bool
  auth : Option Auth
  race : Option Text
  cls : Option Text
  sex : Option Text
  pronouns : Option Text
  name : Text
deriving DecidableEq, Repr

namespace AttachReq

variable {A}

/-- The build of a new character: a token that does not parse counts as absent. -/
def build (r : AttachReq Auth) (name : Text) : World.Build :=
  let sex := (r.sex.bind Sex.parse).getD .none
  { name
    isBot := r.isBot
    race := (r.race.bind Race.parse).getD .human
    cls := (r.cls.bind Class.parse).getD .fighter
    sex
    pronouns := (r.pronouns.bind PronounKey.parse).getD (.defaultForSex sex) }

end AttachReq

variable {Raw : Type} (J : Codec Raw (List PlayerSnapshot))

/-- The handler of `ShardReq::Attach`: drop the session's prior characters, give it its saved
character or a new one, save it. -/
def World.attach (O : SetOrder) (saveOk : Bool) (w : World Raw) (r : AttachReq Auth) : World Raw :=
  let name := Text.trim r.name
  if name.isEmpty then w
  else
    let w := w.detachSession J O saveOk r.session
    let (cid, w) := w.spawnOrRestoreCharacter r.session (principalFromAttach A name r.auth)
      (capsFromAttach A r.auth) (r.build name)
    w.rememberPlayerById J saveOk cid

end Slopmud.Shard
