import Slopmud.Web.SignIn

/-!
# What a handler must have heard

A handler may put a login, a file or an identity where others find it only after an exchange
that entitles it to. The evidence is its own dialogue: what each of these values takes is said
here, and every handler of `slopmud_web` that has to do with signing in is gone through once.
-/

namespace Slopmud.Web

open Machine Program
open Slopmud.Broker (Provider WebAuthReq)

/-- What a handler asked for and was answered, the first exchange first. -/
abbrev SignInTalk := List (Exchange SignInOp SignInOp.R)

/-- The section was run, and this was the answer. -/
def Told (d : SignInTalk) (o : SignInOp) (r : o.R) : Prop := ⟨o, r⟩ ∈ d

/-! ## Evidence -/

section

variable (L : SignInLib) (st : OAuthState) (d : SignInTalk)

/-- The handler is for the request that begins this login. -/
structure BegunBy (req : OAuthStartReq) (p : Provider) (pending : WebOAuthPending) : Prop where
  request : Told d .accept (.start req)
  token : isValidResumeToken req.resume = true
  provider : Provider.ofMethod? (Text.toAsciiLowercase (Text.trim req.provider)) = some p
  enabled : st.enabled p = true
  resume : pending.resume = Text.trim req.resume
  returnTo : pending.returnTo = sanitizeReturnTo req.returnTo
  verifier : Told d (.random 32) (some pending.verifier)
  created : Told d .now pending.createdUnix

def Begun (p : Provider) (pending : WebOAuthPending) : Prop := ∃ req, BegunBy st d req p pending

/-- The endpoints of the provider, and the client that this server is there. -/
def Configured : Provider → CodeExchange → Text → Prop
  | .google, req, url =>
    req.url = "https://oauth2.googleapis.com/token".toList
      ∧ url = "https://openidconnect.googleapis.com/v1/userinfo".toList
      ∧ st.clientId = some req.clientId ∧ st.clientSecret = some req.clientSecret
      ∧ st.redirectUri = some req.redirectUri
  | .oidc, req, url =>
    st.oidcTokenUrl = some req.url ∧ st.oidcUserinfoUrl = some url ∧ st.oidcClientId = some req.clientId
      ∧ st.oidcClientSecret = some req.clientSecret ∧ st.oidcRedirectUri = some req.redirectUri

/-- The provider has told who came back: the code of the callback was redeemed with this verifier, and
the access token that it was redeemed for was answered with `info`. -/
structure Vouched (p : Provider) (q : CallbackQuery) (verifier : Text) (info : UserInfo) : Prop where
  request : Told d .accept (.authCallback p q)
  noError : q.error = none
  redeemed : ∃ req url access, Configured st p req url ∧ q.code = some req.code ∧ req.codeVerifier = verifier
    ∧ Told d (.exchange p req) (.ok access) ∧ Told d (.userinfo p url access) (.ok info)

/-- The login was found under the state code. -/
inductive Found (p : Provider) (stateCode : Text) (pending : WebOAuthPending) : Prop where
  | kept (h : Told d (.getPending p stateCode) (some pending))
  | filed (hp : p = .oidc)
      (h : Told d (.readFile (webPendingPath st.dir "oidc".toList stateCode)) (some (.web pending)))

/-- The callback of this login has come to its end, with this identity. -/
def SignedIn (p : Provider) (pending : WebOAuthPending) (ident : WebOAuthIdentity) : Prop :=
  ∃ q stateCode info now, q.state = some stateCode ∧ Found st d p stateCode pending
    ∧ Vouched st d p q pending.verifier info ∧ Told d .now now ∧ ident = identityOf p info now

/-- The callback of a login of the broker's has come to its end, with what the file says. -/
def FileSignedIn (path : Text) (result : GoogleOAuthPending) : Prop :=
  ∃ q stateCode pending info, q.state = some stateCode ∧ path = pendingPath st.dir stateCode
    ∧ Told d (.readFile path) (some (.google pending)) ∧ pending.status = "pending".toList
    ∧ Vouched st d .google q pending.verifier info
    ∧ result.googleSub = some info.sub ∧ result.googleEmail = keptEmail info.email

/-- What the browser proves with a request: that it has a password, or the identity under its token. -/
inductive Proves (req : WebAuthSetReq) (wa : WebAuthReq) : WebAuthReq → Prop where
  | password (pw : Text) (hmethod : wa.method = "password".toList) (hpw : req.password = some pw)
      (hne : pw ≠ []) : Proves req wa { wa with password := some pw }
  | identity (p : Provider) (ident : WebOAuthIdentity)
      (h : Told d (.getIdentity (Text.trim req.resume)) (some ident)) (hp : ident.provider = p.method)
      (hmethod : wa.method = p.method) : Proves req wa (withIdentity wa p ident)

/-- The handler is for the request that is announced to the broker by this line. -/
def Announced (resume : Text) (line : Bytes) : Prop :=
  ∃ req wa, Told d .accept (.webAuthSet req) ∧ isValidResumeToken req.resume = true ∧ resume = req.resume
    ∧ Proves d req (newWebAuth (Text.toAsciiLowercase (Text.trim req.action))
        (Text.toAsciiLowercase (Text.trim req.method)) (Text.trim req.name)) wa
    ∧ line = webAuthLine L wa

/-- When it is the turn of a section. -/
def MayAsk : SignInOp → Prop
  | .accept => d = []
  | .putPending p _ pending => Begun st d p pending
  | .writeTmp path f =>
    match f with
    | .web pending => Begun st d .oidc pending
    | .google result => result.status = "ok".toList → FileSignedIn st d path result
    | .other => False
  | .putIdentity resume ident => ∃ p pending, resume = pending.resume ∧ SignedIn st d p pending ident
  | .sendOrDefer resume line => Announced L d resume line
  | _ => True

end

/-- The sections that are always allowed. -/
def SignInOp.free : SignInOp → Bool
  | .accept => false
  | .putPending _ _ _ => false
  | .writeTmp _ _ => false
  | .putIdentity _ _ => false
  | .sendOrDefer _ _ => false
  | _ => true

variable {L : SignInLib} {st : OAuthState} {d d' : SignInTalk}

/-! ## Evidence stays -/

theorem told_concat (d : SignInTalk) (o : SignInOp) (r : o.R) : Told (d ++ [⟨o, r⟩]) o r :=
  List.mem_append_right d List.mem_cons_self

theorem subset_concat (d : SignInTalk) (x : Exchange SignInOp SignInOp.R) : d ⊆ d ++ [x] :=
  List.subset_append_left d [x]

theorem Told.mono {o : SignInOp} {r : o.R} (h : Told d o r) (hd : d ⊆ d') : Told d' o r := hd h

theorem BegunBy.mono {req : OAuthStartReq} {p : Provider} {pending : WebOAuthPending}
    (h : BegunBy st d req p pending) (hd : d ⊆ d') : BegunBy st d' req p pending where
  request := h.request.mono hd
  token := h.token
  provider := h.provider
  enabled := h.enabled
  resume := h.resume
  returnTo := h.returnTo
  verifier := h.verifier.mono hd
  created := h.created.mono hd

theorem Begun.mono {p : Provider} {pending : WebOAuthPending} (h : Begun st d p pending) (hd : d ⊆ d') :
    Begun st d' p pending := by
  obtain ⟨req, hreq⟩ := h
  exact ⟨req, hreq.mono hd⟩

theorem Vouched.mono {p : Provider} {q : CallbackQuery} {verifier : Text} {info : UserInfo}
    (h : Vouched st d p q verifier info) (hd : d ⊆ d') : Vouched st d' p q verifier info := by
  obtain ⟨req, url, access, hconf, hcode, hver, hex, hinfo⟩ := h.redeemed
  exact ⟨h.request.mono hd, h.noError, req, url, access, hconf, hcode, hver, hex.mono hd, hinfo.mono hd⟩

theorem Found.mono {p : Provider} {stateCode : Text} {pending : WebOAuthPending}
    (h : Found st d p stateCode pending) (hd : d ⊆ d') : Found st d' p stateCode pending := by
  cases h with
  | kept h => exact .kept (h.mono hd)
  | filed hp h => exact .filed hp (h.mono hd)

theorem SignedIn.mono {p : Provider} {pending : WebOAuthPending} {ident : WebOAuthIdentity}
    (h : SignedIn st d p pending ident) (hd : d ⊆ d') : SignedIn st d' p pending ident := by
  obtain ⟨q, stateCode, info, now, hq, hfound, hvouched, hnow, hident⟩ := h
  exact ⟨q, stateCode, info, now, hq, hfound.mono hd, hvouched.mono hd, hnow.mono hd, hident⟩

theorem FileSignedIn.mono {path : Text} {result : GoogleOAuthPending} (h : FileSignedIn st d path result)
    (hd : d ⊆ d') : FileSignedIn st d' path result := by
  obtain ⟨q, stateCode, pending, info, hq, hpath, hread, hstatus, hvouched, hresult⟩ := h
  exact ⟨q, stateCode, pending, info, hq, hpath, hread.mono hd, hstatus, hvouched.mono hd, hresult⟩

theorem Announced.mono {resume : Text} {line : Bytes} (h : Announced L d resume line) (hd : d ⊆ d') :
    Announced L d' resume line := by
  obtain ⟨req, wa, hreq, hvalid, hresume, hproves, hline⟩ := h
  refine ⟨req, wa, hreq.mono hd, hvalid, hresume, ?_, hline⟩
  cases hproves with
  | password pw hmethod hpw hne => exact .password pw hmethod hpw hne
  | identity p ident h hp hmethod => exact .identity p ident (h.mono hd) hp hmethod

/-! ## The rules -/

/-- The program names sections only in their turn, after this dialogue. -/
def Talks {α : Type} (L : SignInLib) (st : OAuthState) (d : SignInTalk) (prog : SignIn α) : Prop :=
  Safe (.history (MayAsk L st) fun _ _ => True) d prog

/-- The same, and what is known when it is done. -/
def Learns {α : Type} (L : SignInLib) (st : OAuthState) (d : SignInTalk) (prog : SignIn α)
    (Q : SignInTalk → α → Prop) : Prop :=
  Safe (.history (MayAsk L st) fun d' a => d ⊆ d' ∧ Q d' a) d prog

section

variable {α β : Type} {Q : SignInTalk → α → Prop}

theorem talks_pure (a : α) : Talks L st d (pure a : SignIn α) := trivial

theorem learns_pure {a : α} (h : Q d a) : Learns L st d (pure a : SignIn α) Q := ⟨fun _ hx => hx, h⟩

theorem learns_op {o : SignInOp} (ho : MayAsk L st d o) : Learns L st d (op o) fun d' r => Told d' o r :=
  ⟨ho, fun r _ => ⟨subset_concat d _, told_concat d o r⟩⟩

theorem learns_free {o : SignInOp} (ho : o.free = true) : Learns L st d (op o) fun d' r => Told d' o r := by
  refine learns_op ?_
  cases o with
  | accept => cases ho
  | putPending p code pending => cases ho
  | writeTmp path f => cases ho
  | putIdentity resume ident => cases ho
  | sendOrDefer resume line => cases ho
  | _ => trivial

/-- **The rule for a beginning.** -/
theorem Learns.talks {prog : SignIn α} {f : α → SignIn β} (hp : Learns L st d prog Q)
    (hf : ∀ a d', d ⊆ d' → Q d' a → Talks L st d' (f a)) : Talks L st d (prog >>= f) :=
  Safe.bind (Q := fun d' a => d ⊆ d' ∧ Q d' a) hp fun d' a h => hf a d' h.1 h.2

theorem Learns.bind {prog : SignIn α} {f : α → SignIn β} {Q' : SignInTalk → β → Prop}
    (hp : Learns L st d prog Q)
    (hf : ∀ a d', d ⊆ d' → Q d' a → Learns L st d' (f a) Q') : Learns L st d (prog >>= f) Q' := by
  refine Safe.bind (Q := fun d' a => d ⊆ d' ∧ Q d' a) hp fun d' a h => ?_
  exact Safe.mono (C := .history (MayAsk L st) fun d'' b => d' ⊆ d'' ∧ Q' d'' b) (hf a d' h.1 h.2)
    fun d'' b h' => ⟨List.Subset.trans h.1 h'.1, h'.2⟩

theorem Learns.done {prog : SignIn α} (hp : Learns L st d prog Q) : Talks L st d prog :=
  Safe.mono (C := .history (MayAsk L st) fun d' a => d ⊆ d' ∧ Q d' a) hp fun _ _ _ => trivial

end

/-! ## The handlers -/

theorem learns_replaceFile {path : Text} {f : OAuthFile} (h : MayAsk L st d (.writeTmp path f)) :
    Learns L st d (replaceFile path f) fun _ _ => True := by
  refine (learns_op h).bind fun ok d₁ _ _ => ?_
  cases ok with
  | true => exact ⟨trivial, fun r _ => ⟨subset_concat d₁ _, trivial⟩⟩
  | false => exact learns_pure trivial

theorem talks_apiOauthStart {req : OAuthStartReq} (hreq : Told d .accept (.start req)) :
    Talks L st d (apiOauthStart L st req) := by
  unfold apiOauthStart
  split
  · exact talks_pure _
  · rename_i hvalid
    cases hp : Provider.ofMethod? (Text.toAsciiLowercase (Text.trim req.provider)) with
    | none => exact talks_pure _
    | some p =>
      dsimp only
      split
      · exact talks_pure _
      · rename_i henabled
        refine (learns_free rfl).talks fun stateCode d₁ h₁ _ => ?_
        cases stateCode with
        | none => exact talks_pure _
        | some stateCode =>
          refine (learns_free rfl).talks fun verifier d₂ h₂ hver => ?_
          cases verifier with
          | none => exact talks_pure _
          | some verifier =>
            refine (learns_free rfl).talks fun nowUnix d₃ h₃ hnow => ?_
            have hbegun : Begun st d₃ p
                ⟨Text.trim req.resume, verifier, sanitizeReturnTo req.returnTo, nowUnix⟩ := by
              refine ⟨req, hreq.mono fun x hx => h₃ (h₂ (h₁ hx)), ?_, hp, ?_, rfl, rfl, hver.mono h₃, hnow⟩
              · simpa using hvalid
              · simpa using henabled
            cases p with
            | google =>
              exact (learns_op (o := .putPending _ _ _) hbegun).talks fun _ _ _ _ => talks_pure _
            | oidc =>
              refine (learns_replaceFile (f := .web _) hbegun).talks fun ok d₄ h₄ _ => ?_
              cases ok with
              | true =>
                exact (learns_op (o := .putPending _ _ _) (hbegun.mono h₄)).talks fun _ _ _ _ => talks_pure _
              | false => exact talks_pure _

theorem talks_apiOauthStatus (resume : Text) : Talks L st d (apiOauthStatus resume) := by
  unfold apiOauthStatus
  split
  · exact talks_pure _
  · exact (learns_free rfl).talks fun _ _ _ _ => talks_pure _

theorem talks_apiOauthLogout (resume : Text) : Talks L st d (apiOauthLogout resume) := by
  unfold apiOauthLogout
  split
  · exact talks_pure _
  · exact (learns_free rfl).talks fun _ _ _ _ => talks_pure _

theorem talks_sendWebAuth {resume : Text} {wa : WebAuthReq} (h : Announced L d resume (webAuthLine L wa)) :
    Talks L st d (sendWebAuth L resume wa) := by
  refine (learns_op (o := .sendOrDefer _ _) h).talks fun ok d₁ _ _ => ?_
  cases ok with
  | true => exact talks_pure _
  | false => exact talks_pure _

theorem ofMethod_eq_some {method : Text} {p : Provider} (h : Provider.ofMethod? method = some p) :
    method = p.method := by
  unfold Provider.ofMethod? at h
  split at h
  · rename_i hm
    cases h
    exact hm
  · split at h
    · rename_i hm
      cases h
      exact hm
    · cases h

theorem talks_apiWebauthSet {req : WebAuthSetReq} (hreq : Told d .accept (.webAuthSet req)) :
    Talks L st d (apiWebauthSet L req) := by
  unfold apiWebauthSet
  dsimp only
  split
  · exact talks_pure _
  · rename_i hvalid
    have hvalid : isValidResumeToken req.resume = true := by simpa using hvalid
    split
    · exact talks_pure _
    · split
      · exact talks_pure _
      · split
        · rename_i hmethod
          split
          · exact talks_pure _
          · rename_i hpw
            cases hpw' : req.password with
            | none => simp [hpw'] at hpw
            | some pw =>
              refine talks_sendWebAuth ⟨req, _, hreq, hvalid, rfl, .password pw hmethod hpw' ?_, rfl⟩
              simpa [hpw'] using hpw
        · cases hp : Provider.ofMethod? (Text.toAsciiLowercase (Text.trim req.method)) with
          | none => exact talks_pure _
          | some p =>
            have hmethod := ofMethod_eq_some hp
            refine (learns_free rfl).talks fun ident d₁ h₁ hident => ?_
            cases ident with
            | none => exact talks_pure _
            | some ident =>
              dsimp only
              split
              · exact talks_pure _
              · rename_i hsame
                have hsame : ident.provider = p.method := (of_not_not hsame).trans hmethod
                exact talks_sendWebAuth
                  ⟨req, _, hreq.mono h₁, hvalid, rfl, .identity p ident hident hsame hmethod, rfl⟩

theorem talks_googleAuthStart (code : Option Text) : Talks L st d (googleAuthStart L st code) := by
  unfold googleAuthStart
  cases code with
  | none => exact talks_pure _
  | some code =>
    dsimp only
    split
    · refine (learns_free rfl).talks fun nowUnix d₁ _ _ => (learns_free rfl).talks fun file d₂ _ _ => ?_
      split
      · split
        · exact talks_pure _
        · exact talks_pure _
      · exact talks_pure _
      · refine (learns_free rfl).talks fun pending d₃ _ _ => ?_
        cases pending with
        | none => exact talks_pure _
        | some pending =>
          dsimp only
          split
          · exact (learns_free rfl).talks fun _ _ _ _ => talks_pure _
          · exact talks_pure _
    · exact talks_pure _

theorem learns_findOidcPending (code : Text) :
    Learns L st d (findOidcPending st code) fun d' r => ∀ pending, r = some pending →
      Found st d' .oidc code pending := by
  refine (learns_free rfl).bind fun pending d₁ _ hkept => ?_
  cases pending with
  | some pending =>
    refine learns_pure fun pending' h => ?_
    cases h
    exact .kept hkept
  | none =>
    refine (learns_free rfl).bind fun file d₂ _ hfile => ?_
    split
    · refine learns_pure fun pending' h => ?_
      cases h
      exact .filed rfl hfile
    · refine learns_pure fun pending' h => ?_
      cases h

theorem talks_oidcAuthStart (code : Option Text) : Talks L st d (oidcAuthStart L st code) := by
  unfold oidcAuthStart
  cases code with
  | none => exact talks_pure _
  | some code =>
    dsimp only
    split
    · refine (learns_free rfl).talks fun nowUnix d₁ _ _ =>
        (learns_findOidcPending code).talks fun pending d₂ _ _ => ?_
      cases pending with
      | none => exact talks_pure _
      | some pending =>
        dsimp only
        split
        · exact (learns_free rfl).talks fun _ _ _ _ => (learns_free rfl).talks fun _ _ _ _ => talks_pure _
        · exact talks_pure _
    · exact talks_pure _

/-- **What an answered question proves.** -/
theorem learns_askProvider (p : Provider) (req : CodeExchange) (url : Text) :
    Learns L st d (askProvider p req url) fun d' r => ∀ info, r = .ok info →
      ∃ access, Told d' (.exchange p req) (.ok access) ∧ Told d' (.userinfo p url access) (.ok info) := by
  refine (learns_free rfl).bind fun token d₁ _ hex => ?_
  cases token with
  | failed e => exact learns_pure fun info h => by cases h
  | returned status => exact learns_pure fun info h => by cases h
  | unparsed e => exact learns_pure fun info h => by cases h
  | ok access =>
    refine (learns_free rfl).bind fun answer d₂ h₂ hinfo => ?_
    cases answer with
    | failed e => exact learns_pure fun info h => by cases h
    | returned status => exact learns_pure fun info h => by cases h
    | unparsed e => exact learns_pure fun info h => by cases h
    | ok info =>
      refine learns_pure fun info' h => ?_
      cases h
      exact ⟨access, hex.mono h₂, hinfo⟩

theorem learns_writePendingErr (path msg : Text) :
    Learns L st d (writePendingErr path msg) fun _ _ => True := by
  refine (learns_free rfl).bind fun file d₁ _ _ => ?_
  split
  · refine (learns_free rfl).bind fun nowUnix d₂ _ _ => ?_
    -- such a file is not one that says ok
    refine learns_replaceFile (f := .google _) fun hok => ?_
    simp at hok
  · exact learns_pure trivial

theorem learns_writePendingOk {path sub : Text} {email : Option Text}
    (h : ∀ d', d ⊆ d' → ∀ result : GoogleOAuthPending, result.googleSub = some sub →
      result.googleEmail = email → FileSignedIn st d' path result) :
    Learns L st d (writePendingOk path sub email) fun _ _ => True := by
  refine (learns_free rfl).bind fun file d₁ h₁ _ => ?_
  split
  · refine (learns_free rfl).bind fun nowUnix d₂ h₂ _ => ?_
    exact learns_replaceFile (f := .google _) fun _ => h d₂ (List.Subset.trans h₁ h₂) _ rfl rfl
  · exact learns_pure trivial

theorem talks_fail (flow : GoogleFlow) (msg : Text) : Talks L st d (flow.fail msg) := by
  cases flow with
  | file path pending => exact (learns_writePendingErr path msg).talks fun _ _ _ _ => talks_pure _
  | web stateCode pending => exact talks_pure _

/-- What a callback has found out when it knows which login it is for. -/
inductive GoogleFlow.Known (st : OAuthState) (d : SignInTalk) (q : CallbackQuery) : GoogleFlow → Prop where
  | file (stateCode : Text) (pending : GoogleOAuthPending) (hq : q.state = some stateCode)
      (h : Told d (.readFile (pendingPath st.dir stateCode)) (some (.google pending)))
      (hstatus : pending.status = "pending".toList) : Known st d q (.file (pendingPath st.dir stateCode) pending)
  | web (stateCode : Text) (pending : WebOAuthPending) (hq : q.state = some stateCode)
      (h : Found st d .google stateCode pending) : Known st d q (.web stateCode pending)

theorem talks_succeed {flow : GoogleFlow} {q : CallbackQuery} {info : UserInfo} {nowUnix : Nat}
    (hflow : flow.Known st d q) (hnow : Told d .now nowUnix) (h : Vouched st d .google q flow.verifier info) :
    Talks L st d (flow.succeed nowUnix info) := by
  cases hflow with
  | file stateCode pending hq hread hstatus =>
    refine (learns_writePendingOk fun d' hd result hsub hemail => ?_).talks fun ok d₁ _ _ => ?_
    · exact ⟨q, stateCode, pending, info, hq, rfl, hread.mono hd, hstatus, h.mono hd, hsub, hemail⟩
    · cases ok with
      | true => exact talks_pure _
      | false => exact talks_pure _
  | web stateCode pending hq hfound =>
    have hsigned : SignedIn st d .google pending (identityOf .google info nowUnix) :=
      ⟨q, stateCode, info, nowUnix, hq, hfound, h, hnow, rfl⟩
    refine (learns_op (o := .putIdentity _ _) ⟨.google, pending, rfl, hsigned⟩).talks fun _ _ _ _ => ?_
    exact (learns_free rfl).talks fun _ _ _ _ => talks_pure _

theorem talks_finish {flow : GoogleFlow} {q : CallbackQuery} {nowUnix : Nat}
    (hreq : Told d .accept (.authCallback .google q)) (hflow : flow.Known st d q) (hnow : Told d .now nowUnix) :
    Talks L st d (GoogleFlow.finish st flow nowUnix q) := by
  unfold GoogleFlow.finish
  cases hq : q.error with
  | some err => exact talks_fail flow _
  | none =>
    cases hcode : q.code with
    | none =>
      cases flow with
      | file path pending => exact (learns_writePendingErr path _).talks fun _ _ _ _ => talks_pure _
      | web stateCode pending => exact talks_pure _
    | some code =>
      dsimp only
      split
      · rename_i clientId clientSecret redirectUri hid hsecret huri
        refine (learns_askProvider .google _ _).talks fun answer d₁ h₁ hanswer => ?_
        cases answer with
        | error msg => exact talks_fail flow msg
        | ok info =>
          obtain ⟨access, hex, hinfo⟩ := hanswer info rfl
          have hvouched : Vouched st d₁ .google q flow.verifier info :=
            ⟨hreq.mono h₁, hq, _, _, access, ⟨rfl, rfl, hid, hsecret, huri⟩, hcode, rfl, hex, hinfo⟩
          refine talks_succeed ?_ (hnow.mono h₁) hvouched
          cases hflow with
          | file stateCode pending hq hread hstatus =>
            exact .file stateCode pending hq (hread.mono h₁) hstatus
          | web stateCode pending hq hfound => exact .web stateCode pending hq (hfound.mono h₁)
      · cases flow with
        | file path pending => exact talks_pure _
        | web stateCode pending => exact talks_pure _

theorem talks_googleAuthCallback {q : CallbackQuery} (hreq : Told d .accept (.authCallback .google q)) :
    Talks L st d (googleAuthCallback st q) := by
  unfold googleAuthCallback
  cases hq : q.state with
  | none => exact talks_pure _
  | some stateCode =>
    refine (learns_free rfl).talks fun nowUnix d₁ h₁ hnow =>
      (learns_free rfl).talks fun file d₂ h₂ hfile => ?_
    have hreq₂ := (hreq.mono h₁).mono h₂
    split
    · split
      · exact talks_pure _
      · rename_i hstatus
        exact talks_finish hreq₂ (.file stateCode _ hq hfile (of_not_not hstatus)) (hnow.mono h₂)
    · exact talks_pure _
    · refine (learns_free rfl).talks fun pending d₃ h₃ hpending => ?_
      cases pending with
      | none => exact talks_pure _
      | some pending =>
        exact talks_finish (hreq₂.mono h₃) (.web stateCode pending hq (.kept hpending))
          ((hnow.mono h₂).mono h₃)

theorem talks_oidcFinish {q : CallbackQuery} {stateCode : Text} {pending : WebOAuthPending} {nowUnix : Nat}
    (hreq : Told d .accept (.authCallback .oidc q)) (hq : q.state = some stateCode)
    (hfound : Found st d .oidc stateCode pending) (hnow : Told d .now nowUnix) :
    Talks L st d (oidcFinish st stateCode pending nowUnix q) := by
  unfold oidcFinish
  cases herr : q.error with
  | some err => exact talks_pure _
  | none =>
    cases hcode : q.code with
    | none => exact talks_pure _
    | some code =>
      dsimp only
      split
      · rename_i tokenUrl userinfoUrl clientId clientSecret redirectUri htoken hinfoUrl hid hsecret huri
        refine (learns_askProvider .oidc _ _).talks fun answer d₁ h₁ hanswer => ?_
        cases answer with
        | error msg => exact talks_pure _
        | ok info =>
          obtain ⟨access, hex, hinfo⟩ := hanswer info rfl
          have hvouched : Vouched st d₁ .oidc q pending.verifier info :=
            ⟨hreq.mono h₁, herr, _, _, access, ⟨htoken, hinfoUrl, hid, hsecret, huri⟩, hcode, rfl, hex, hinfo⟩
          have hsigned : SignedIn st d₁ .oidc pending (identityOf .oidc info nowUnix) :=
            ⟨q, stateCode, info, nowUnix, hq, hfound.mono h₁, hvouched, hnow.mono h₁, rfl⟩
          refine (learns_op (o := .putIdentity _ _) ⟨.oidc, pending, rfl, hsigned⟩).talks fun _ _ _ _ => ?_
          exact (learns_free rfl).talks fun _ _ _ _ => (learns_free rfl).talks fun _ _ _ _ => talks_pure _
      · exact talks_pure _

theorem talks_oidcAuthCallback {q : CallbackQuery} (hreq : Told d .accept (.authCallback .oidc q)) :
    Talks L st d (oidcAuthCallback st q) := by
  unfold oidcAuthCallback
  cases hq : q.state with
  | none => exact talks_pure _
  | some stateCode =>
    refine (learns_findOidcPending stateCode).talks fun pending d₁ h₁ hfound => ?_
    cases pending with
    | none => exact talks_pure _
    | some pending =>
      refine (learns_free rfl).talks fun nowUnix d₂ h₂ hnow => ?_
      exact talks_oidcFinish ((hreq.mono h₁).mono h₂) hq ((hfound pending rfl).mono h₂) hnow

/-- **Every request is served by the rules.** -/
theorem talks_serve : Talks L st [] (serve L st) := by
  have hfirst : MayAsk L st [] .accept := rfl
  refine (learns_op hfirst).talks fun req d₁ _ hreq => ?_
  cases req with
  | providers => exact talks_pure _
  | start req => exact talks_apiOauthStart hreq
  | status resume => exact talks_apiOauthStatus resume
  | logout resume => exact talks_apiOauthLogout resume
  | webAuthSet req => exact talks_apiWebauthSet hreq
  | authStart p code =>
    cases p with
    | google => exact talks_googleAuthStart code
    | oidc => exact talks_oidcAuthStart code
  | authCallback p q =>
    cases p with
    | google => exact talks_googleAuthCallback hreq
    | oidc => exact talks_oidcAuthCallback hreq

end Slopmud.Web
