import Slopmud.Proof.OidcCodes
import Slopmud.Proof.SignIns
import Slopmud.Web.OwnProvider

/-!
# From a browser to its owner

When the provider is the own one, the two halves of a login meet: the web server keeps the
verifier of a login, and the provider keeps, with each code, the challenge that the user's form
came with. An identity is the user who entered a password, or registered, on a form whose
challenge was made from the verifier of the login that the browser has begun.
-/

namespace Slopmud.Oidc

variable {Raw : Type} {J : Codec Raw UserDb} {L : OidcLib} {cfg : Config} {s s' : Server Raw}

/-! ## The provider -/

/-- What is in the table was issued, and so was what was redeemed. -/
structure Genuine (L : OidcLib) (cfg : Config) (s : Server Raw) : Prop where
  table : ∀ code ac, s.codes.lookup code = some ac → ∃ i ∈ s.issued, i.code = code ∧ i.authCode = ac
  granted : ∀ r ∈ s.redeemed, ∃ i ∈ s.issued, Granted L cfg i r

theorem Genuine.init (file : Option Raw) : Genuine L cfg (.init file) where
  table code ac h := by cases h
  granted r h := by cases h

theorem Genuine.effect (h : Genuine L cfg s) (he : CodeEffect L cfg s s') : Genuine L cfg s' := by
  cases he with
  | same hcodes hissued hredeemed hattempted =>
    refine ⟨?_, ?_⟩
    · rw [hcodes, hissued]
      exact h.table
    · rw [hredeemed, hissued]
      exact h.granted
  | issued i hcodes hissued hredeemed hattempted =>
    refine ⟨fun code ac hlook => ?_, fun r hr => ?_⟩
    · rw [hcodes, Table.lookup_insert_eq] at hlook
      rw [hissued]
      split at hlook
      · rename_i hcode
        cases hlook
        exact ⟨i, List.mem_append_right _ List.mem_cons_self, hcode.symm, rfl⟩
      · obtain ⟨j, hj, hjcode⟩ := h.table code ac hlook
        exact ⟨j, List.mem_append_left _ hj, hjcode⟩
    · rw [hredeemed] at hr
      obtain ⟨j, hj, hgranted⟩ := h.granted r hr
      exact ⟨j, hissued ▸ List.mem_append_left _ hj, hgranted⟩
  | refused code hcodes hissued hredeemed hattempted =>
    refine ⟨fun code' ac hlook => ?_, ?_⟩
    · rw [hcodes] at hlook
      split at hlook
      · cases hlook
      · exact hissued ▸ h.table code' ac hlook
    · rw [hredeemed, hissued]
      exact h.granted
  | redeemed r ac hlook hclient htoken hcodes hissued hredeemed hattempted =>
    refine ⟨fun code' ac' hlook' => ?_, fun r' hr' => ?_⟩
    · rw [hcodes, Table.lookup_erase_eq] at hlook'
      split at hlook'
      · cases hlook'
      · exact hissued ▸ h.table code' ac' hlook'
    · rw [hredeemed] at hr'
      rw [hissued]
      rcases List.mem_append.mp hr' with hr' | hr'
      · exact h.granted r' hr'
      · obtain rfl := List.mem_singleton.mp hr'
        obtain ⟨i, hi, hcode, rfl⟩ := h.table r'.code ac hlook
        exact ⟨i, hi, granted_of_redeem hcode hclient htoken⟩

@[simp] theorem answer_last (s : Server Raw) (r : Response) : (s.answer r).answers.getLast? = some r := by
  simp [Server.answer]

/-- A code that is answered with a token is on record, with the request. -/
theorem tokenCode_answer {client : Text × Text} {tf : TokenForm} {now : Nat} {resp : TokenResp}
    (h : (s.tokenCode L cfg client tf now).answers.getLast? = some (.token resp)) :
    ∃ r ∈ (s.tokenCode L cfg client tf now).redeemed, r.resp = resp ∧ tf.redirectUri = some r.redirectUri
      ∧ tf.codeVerifier = some r.verifier ∧ tf.code = some r.code := by
  unfold Server.tokenCode at h ⊢
  split
  · rename_i hcode
    simp [hcode, Response.text] at h
  · rename_i code hcode
    dsimp only
    cases huri : tf.redirectUri with
    | none => simp [hcode, huri, Response.text] at h
    | some redirectUri =>
      dsimp only
      cases hver : tf.codeVerifier with
      | none => simp [hcode, huri, hver, Response.text] at h
      | some verifier =>
        simp only [hcode, huri, hver] at h ⊢
        -- the two records of attempts do not matter here
        generalize (if decide (code ∈ s.issued.map Issue.code) = true then
          { s with named := s.named ++ [code] } else s) = s₁ at h ⊢
        generalize (if decide (code ∈ s.issued.map Issue.code) = true then
          { s₁ with attempted := s₁.attempted ++ [code] } else s₁) = s₂ at h ⊢
        cases hlook : s₂.codes.lookup code with
        | none => simp [hlook, Response.text] at h
        | some ac =>
          simp only [hlook] at h ⊢
          split
          · rename_i resp' htoken
            simp only [htoken, answer_last, Option.some.injEq, Response.token.injEq] at h
            subst h
            exact ⟨⟨code, client, redirectUri, verifier, now, resp'⟩,
              List.mem_append_right _ List.mem_cons_self, rfl, rfl, rfl, rfl⟩
          · rename_i r hne
            simp only [answer_last, Option.some.injEq] at h
            exact absurd h (hne resp)

theorem token_answer {req : TokenReq} {now : Nat} {resp : TokenResp}
    (hgrant : req.form.grantType = "authorization_code".toList)
    (h : (s.token L cfg req now).answers.getLast? = some (.token resp)) :
    ∃ r ∈ (s.token L cfg req now).redeemed, r.resp = resp ∧ req.form.redirectUri = some r.redirectUri
      ∧ req.form.codeVerifier = some r.verifier ∧ req.form.code = some r.code := by
  have hother : ¬ req.form.grantType = "client_credentials".toList := by
    rw [hgrant]
    decide
  unfold Server.token at h ⊢
  split
  · rename_i hauth
    simp [hauth, Response.text] at h
  · rename_i cid csec hauth
    simp only [hauth] at h
    split
    · rename_i hbad
      simp [hbad, Response.text] at h
    · rename_i hgood
      simp only [if_neg hgood, if_neg hother, if_pos hgrant] at h ⊢
      exact tokenCode_answer h

/-- The capabilities that are kept of a list. -/
def keptOf (xs : List Text) : List Text :=
  ((xs.map fun s => Text.toAsciiLowercase (Text.trim s)).filter fun s =>
    !s.isEmpty && Text.byteLen s ≤ 64).take 32

theorem keptOf_idem (xs : List Text) : keptOf (keptOf xs) = keptOf xs := by
  have hmem : ∀ s ∈ keptOf xs, Text.toAsciiLowercase (Text.trim s) = s
      ∧ (!s.isEmpty && decide (Text.byteLen s ≤ 64)) = true := by
    intro s hs
    obtain ⟨hs, hkeep⟩ := List.mem_filter.mp (List.mem_of_mem_take hs)
    obtain ⟨s₀, -, rfl⟩ := List.mem_map.mp hs
    exact ⟨Text.lower_trim_idem s₀, hkeep⟩
  have hmap : (keptOf xs).map (fun s => Text.toAsciiLowercase (Text.trim s)) = keptOf xs :=
    (List.map_congr_left fun s hs => (hmem s hs).1).trans (List.map_id' _)
  have hfilter : (keptOf xs).filter (fun s => !s.isEmpty && decide (Text.byteLen s ≤ 64)) = keptOf xs :=
    List.filter_eq_self.mpr fun s hs => (hmem s hs).2
  have hshort : (keptOf xs).length ≤ 32 := List.length_take_le _ _
  show List.take 32 (List.filter _ ((keptOf xs).map _)) = keptOf xs
  rw [hmap, hfilter, List.take_of_length_le hshort]

theorem sanitizeCaps_eq (v : Option (List Text)) :
    sanitizeCaps v = (v.map keptOf).filter fun xs => !xs.isEmpty := rfl

/-- Sanitizing again changes nothing. -/
@[simp] theorem sanitizeCaps_idem (v : Option (List Text)) : sanitizeCaps (sanitizeCaps v) = sanitizeCaps v := by
  cases v with
  | none => rfl
  | some xs =>
    rw [sanitizeCaps_eq (some xs), Option.map_some, Option.filter_some]
    split
    · rename_i hne
      rw [sanitizeCaps_eq, Option.map_some, keptOf_idem, Option.filter_some, if_pos hne]
    · rfl

end Slopmud.Oidc

namespace Slopmud.Web

open Machine Program
open Slopmud.Broker (Provider)
open Slopmud.Oidc (Server Config OidcLib JwtLib UserDb Genuine CodeEffect Issue Claims)

section

variable {Place Raw : Type} [DecidableEq Place] {J : Codec Raw UserDb} {L : OidcLib} {V : JwtLib L}
  {cfg : Config} {W : SignInWorld Place (Server Raw) ProviderEnv}

/-! ## Between the two -/

/-- The token is for this issue of a code, and so is what it says. -/
def TokenOf (L : OidcLib) (i : Issue) (access : Text) : Prop :=
  ∃ c : Claims, L.encodeJwt c = .ok access ∧ c.sub = i.origin.subject ∧ c.email = i.origin.email
    ∧ c.caps = i.origin.caps

/-- What was answered is what the own provider answers. -/
structure OwnAnswers (V : JwtLib L) (cfg : Config) (s : Server Raw) (D : Nat → SignInTalk) : Prop where
  genuine : Genuine L cfg s
  token : ∀ t req access, Told (D t) (.exchange .oidc req) (.ok access) → ∃ i ∈ s.issued,
    i.origin.codeChallenge = L.base64urlSha256 req.codeVerifier ∧ i.origin.redirectUri = req.redirectUri
      ∧ TokenOf L i access
  userinfo : ∀ t url access info, Told (D t) (.userinfo .oidc url access) (.ok info) →
    ∃ now resp, Oidc.userinfo V (some ("Bearer ".toList ++ access)) now = .ok resp
      ∧ info = ⟨resp.sub, resp.email, resp.caps⟩

variable {s s' : SignInShared Place (Server Raw)} {D : Nat → SignInTalk} {t : Nat} {o : SignInOp}
  {e : SignInEnv ProviderEnv} {r : o.R}

theorem ownToken_codes (p : Provider) (req : CodeExchange) (e : ProviderEnv) (s : Server Raw) :
    CodeEffect L cfg s (ownToken (L := L) cfg p req e s).2 := by
  cases p with
  | google => cases e <;> exact .same rfl rfl rfl rfl
  | oidc =>
    cases e with
    | served now => exact Server.token_codes req.tokenReq now
    | lost now err => exact Server.token_codes req.tokenReq now
    | _ => exact .same rfl rfl rfl rfl

/-- Every section does to the codes what some move of the provider does, or nothing. -/
theorem providers_codes (hW : W.providers = ownProviders J V cfg)
    (heff : signInEffect W o e s = some (r, s')) : CodeEffect L cfg s.providers s'.providers := by
  cases o with
  | exchange p req =>
    cases e with
    | provider e =>
      cases heff
      rw [hW]
      exact ownToken_codes p req e s.providers
    | _ => cases heff
  | userinfo p url access =>
    cases e with
    | provider e =>
      cases heff
      rw [hW]
      have hsame : (ownUserinfo V p url access e s.providers).2 = s.providers := by
        cases p <;> cases e <;> simp only [ownUserinfo]
        split <;> rfl
      show CodeEffect L cfg s.providers (ownUserinfo V p url access e s.providers).2
      rw [hsame]
      exact .same rfl rfl rfl rfl
    | _ => cases heff
  | elsewhere =>
    cases e with
    | provider e =>
      cases heff
      rw [hW]
      cases e with
      | move m =>
        show CodeEffect L cfg s.providers ((s.providers.step J L cfg m).getD s.providers)
        cases hm : s.providers.step J L cfg m with
        | none => exact .same rfl rfl rfl rfl
        | some s₁ => exact Server.step_codes hm
      | _ => exact .same rfl rfl rfl rfl
    | broker act =>
      cases heff
      have hsame : (act.run W s).providers = s.providers := by
        cases act with
        | rename code =>
          simp only [BrokerAct.run, SignInShared.rename]
          cases s.tmps.lookup (W.locate (pendingPath W.st.dir code)) <;> rfl
        | _ => rfl
      rw [hsame]
      exact .same rfl rfl rfl rfl
    | _ => cases heff
  | rename path =>
    cases e with
    | disk ok damaged =>
      have hsame : s'.providers = s.providers := by
        simp only [signInEffect, SignInShared.rename] at heff
        split at heff
        · cases heff
          rfl
        · cases hlook : s.tmps.lookup (W.locate path) with
          | none =>
            simp only [hlook, Option.map_none] at heff
            cases heff
            rfl
          | some f =>
            simp only [hlook, Option.map_some] at heff
            cases heff
            rfl
      rw [hsame]
      exact .same rfl rfl rfl rfl
    | _ => cases heff
  | sendOrDefer resume line =>
    cases e with
    | plain =>
      simp only [signInEffect] at heff
      split at heff <;> cases heff <;> exact .same rfl rfl rfl rfl
    | _ => cases heff
  | writeTmp path f =>
    cases e with
    | disk ok damaged => cases ok <;> cases damaged <;> cases heff <;> exact .same rfl rfl rfl rfl
    | _ => cases heff
  | removeFile path =>
    cases e with
    | disk ok damaged => cases ok <;> cases heff <;> exact .same rfl rfl rfl rfl
    | _ => cases heff
  | putPending p code pending =>
    cases e with
    | plain =>
      cases heff
      cases p <;> exact .same rfl rfl rfl rfl
    | _ => cases heff
  | dropPending p code =>
    cases e with
    | plain =>
      cases heff
      cases p <;> exact .same rfl rfl rfl rfl
    | _ => cases heff
  | _ =>
    cases e <;> cases heff
    exact .same rfl rfl rfl rfl

/-- A token that the web server gets is for an issue on record. -/
theorem tokenOf_exchange (hW : W.providers = ownProviders J V cfg) (hgenuine : Genuine L cfg s'.providers)
    {req : CodeExchange} {access : Text}
    (heff : signInEffect W (.exchange .oidc req) e s = some (.ok access, s')) :
    ∃ i ∈ s'.providers.issued, i.origin.codeChallenge = L.base64urlSha256 req.codeVerifier
      ∧ i.origin.redirectUri = req.redirectUri ∧ TokenOf L i access := by
  cases e with
  | provider e =>
    have heff : ownToken (L := L) cfg .oidc req e s.providers = (.ok access, s'.providers) := by
      simp only [signInEffect, hW, ownProviders, Option.some.injEq, Prod.mk.injEq] at heff
      obtain ⟨hanswer, rfl⟩ := heff
      exact Prod.ext hanswer rfl
    cases e with
    | served now =>
      simp only [ownToken, Prod.mk.injEq] at heff
      obtain ⟨hanswer, hs⟩ := heff
      cases hlast : (s.providers.token L cfg req.tokenReq now).answers.getLast? with
      | none =>
        rw [hlast] at hanswer
        cases hanswer
      | some resp =>
        rw [hlast] at hanswer
        cases resp with
        | token resp =>
          obtain ⟨r, hr, hresp, huri, hver, -⟩ := Oidc.token_answer rfl hlast
          rw [hs] at hr
          obtain ⟨i, hi, hgranted⟩ := hgenuine.granted r hr
          obtain ⟨c, hencode, hsub, -, hemail, hcaps, -, -⟩ := hgranted.claims
          have hver : req.codeVerifier = r.verifier := Option.some.inj hver
          have huri : req.redirectUri = r.redirectUri := Option.some.inj huri
          have haccess : r.resp.accessToken = access := by
            rw [hresp]
            exact HttpAnswer.ok.inj hanswer
          exact ⟨i, hi, hver ▸ hgranted.verifier, huri ▸ hgranted.redirect, c, haccess ▸ hencode, hsub, hemail,
            hcaps⟩
        | _ => cases hanswer
    | _ => cases heff
  | _ => cases heff

theorem own_tells (hW : W.providers = ownProviders J V cfg) :
    Pool.Tells (signInTasks W) (signInTurn W) fun s D => OwnAnswers V cfg s.providers D := by
  intro D t o e s s' r h _ heff
  have heff : signInEffect W o e s = some (r, s') := heff
  have hcodes := providers_codes hW heff
  have hgenuine := h.genuine.effect hcodes
  refine ⟨hgenuine, fun t' req access htold => ?_, fun t' url access info htold => ?_⟩
  · rcases told_update htold with hold | hnew
    · obtain ⟨i, hi, hrest⟩ := h.token t' req access hold
      exact ⟨i, (Oidc.issued_grows hcodes).subset hi, hrest⟩
    · cases hnew
      exact tokenOf_exchange hW hgenuine heff
  · rcases told_update htold with hold | hnew
    · exact h.userinfo t' url access info hold
    · cases hnew
      cases e with
      | provider e =>
        simp only [signInEffect, hW, ownProviders, Option.some.injEq, Prod.mk.injEq] at heff
        obtain ⟨hanswer, -⟩ := heff
        cases e with
        | served now =>
          simp only [ownUserinfo] at hanswer
          split at hanswer
          · rename_i resp hresp
            exact ⟨now, resp, hresp, (HttpAnswer.ok.inj hanswer).symm⟩
          · cases hanswer
        | _ => cases hanswer
      | _ => cases heff

/-! ## The results -/

theorem userinfo_ok {access : Text} {now : Nat} {resp : Oidc.UserInfoResp}
    (h : Oidc.userinfo V (some ("Bearer ".toList ++ access)) now = .ok resp) :
    ∃ claims, V.decodeJwt (Text.trim access) now = some claims
      ∧ resp = ⟨claims.sub, claims.email, Oidc.sanitizeCaps claims.caps⟩ := by
  unfold Oidc.userinfo at h
  dsimp only at h
  split at h
  · cases h
  · split at h
    · cases h
    · rename_i tok hstrip
      have htok : access = tok := List.append_cancel_left (Text.eq_append_of_stripPrefix hstrip)
      subst htok
      split at h
      · cases h
      · split at h
        · cases h
        · split at h
          · cases h
          · rename_i claims hdecode
            cases h
            exact ⟨claims, hdecode, rfl⟩

theorem keptEmail_origin (i : Issue) : keptEmail i.origin.email = i.origin.email := by
  obtain ⟨code, origin, now⟩ := i
  cases origin with
  | login f user =>
    show Option.filter _ (Option.filter _ user.email) = Option.filter _ user.email
    rw [Option.filter_filter]
    congr 1
    funext e
    rw [Bool.and_self]
  | registration f => rfl

theorem keptCaps_origin (i : Issue) : keptCaps (Oidc.sanitizeCaps i.origin.caps) = i.origin.caps := by
  show Oidc.sanitizeCaps (Oidc.sanitizeCaps i.origin.caps) = i.origin.caps
  obtain ⟨code, origin, now⟩ := i
  cases origin with
  | login f user =>
    show Oidc.sanitizeCaps (Oidc.sanitizeCaps (Oidc.sanitizeCaps user.caps)) = Oidc.sanitizeCaps user.caps
    rw [Oidc.sanitizeCaps_idem, Oidc.sanitizeCaps_idem]
  | registration f => rfl

/-- What the callback makes of a token is the user that the code was issued for. -/
theorem identity_of_token {i : Issue} {access : Text} (htoken : TokenOf L i access) {now n : Nat}
    {resp : Oidc.UserInfoResp} (h : Oidc.userinfo V (some ("Bearer ".toList ++ access)) now = .ok resp) :
    (identityOf .oidc ⟨resp.sub, resp.email, resp.caps⟩ n).sub = i.origin.subject
      ∧ (identityOf .oidc ⟨resp.sub, resp.email, resp.caps⟩ n).email = i.origin.email
      ∧ (identityOf .oidc ⟨resp.sub, resp.email, resp.caps⟩ n).caps = i.origin.caps := by
  obtain ⟨c, hencode, hsub, hemail, hcaps⟩ := htoken
  obtain ⟨claims, hdecode, rfl⟩ := userinfo_ok h
  rw [V.trim_token hencode] at hdecode
  obtain rfl := V.decode_encode hencode hdecode
  refine ⟨hsub, ?_, ?_⟩
  · show keptEmail claims.email = i.origin.email
    rw [hemail, keptEmail_origin]
  · show keptCaps (Oidc.sanitizeCaps claims.caps) = i.origin.caps
    rw [hcaps, keptCaps_origin]

variable {files : Table Place OAuthFile} {file : Option Raw} {ms : List (SignInMove ProviderEnv)}
  {w : SignInPool Place (Server Raw)}

theorem own_heard (hW : W.providers = ownProviders J V cfg)
    (hrun : exec (signInStep W) (.init files (.init file)) ms = some w) :
    Pool.Heard (signInTurn W) (fun _ _ _ => True) (fun s D => OwnAnswers V cfg s.providers D) w
      (signInTalk W files (.init file) ms) := by
  refine Pool.heard_of_run signIn_starts (own_tells hW) (fun _ => rfl) ⟨Genuine.init file, ?_, ?_⟩ hrun
  · intro t req access htold
    cases htold
  · intro t url access info htold
    cases htold

/-- **The identity under a resume token is its owner's.** Whatever else goes on at the web server, at the
broker and at the provider: somebody has entered a password, or registered, on a form with the challenge of
a login that was begun with this resume token, and the identity is that user as the provider has it. -/
theorem own_identity_is_the_users (hW : W.providers = ownProviders J V cfg)
    (hfiles : ∀ place f, files.lookup place = some f → f.unfinished = true)
    (hrun : exec (signInStep W) (.init files (.init file)) ms = some w) {resume : Text}
    {ident : WebOAuthIdentity} (h : w.shared.webIdentities.lookup resume = some ident)
    (hp : ident.provider = Provider.oidc.method) :
    ∃ t pending, pending.resume = resume ∧ Begun W.st (signInTalk W files (.init file) ms t) .oidc pending
      ∧ ∃ i ∈ w.shared.providers.issued, i.origin.codeChallenge = L.base64urlSha256 pending.verifier
        ∧ W.st.oidcRedirectUri = some i.origin.redirectUri ∧ ident.sub = i.origin.subject
        ∧ ident.email = i.origin.email ∧ ident.caps = i.origin.caps := by
  have hown := (own_heard hW hrun).shared
  obtain ⟨p, hprovider, t, t', pending, hresume, hbegun, hsigned⟩ := identities_traceable hfiles hrun h
  obtain rfl : p = .oidc := method_injective (hprovider.symm.trans hp)
  obtain ⟨q, stateCode, info, now, -, -, hvouched, -, rfl⟩ := hsigned
  obtain ⟨req, url, access, hconf, -, hverifier, hexchange, hinfo⟩ := hvouched.redeemed
  obtain ⟨i, hi, hchallenge, huri, htoken⟩ := hown.token t' req access hexchange
  obtain ⟨now', resp, hresp, rfl⟩ := hown.userinfo t' url access info hinfo
  obtain ⟨hsub, hemail, hcaps⟩ := identity_of_token htoken (n := now) hresp
  refine ⟨t, pending, hresume, hbegun, i, hi, hverifier ▸ hchallenge, ?_, hsub, hemail, hcaps⟩
  rw [huri]
  exact hconf.2.2.2.2

end

/-! ## Bob registers -/

section

open Slopmud.Oidc (sampleConfig sampleLib registration)

/-- The claims of somebody without anything particular. -/
def plainClaims (sub : Text) : Claims where
  iss := sampleConfig.issuer
  sub := sub
  aud := "slopmud".toList
  iat := 150
  exp := 3750
  sid := none
  scope := none
  clientId := sampleConfig.clientId
  email := none
  caps := none

/-- Tokens that can be read, for such claims only. -/
def plainLib : OidcLib := { sampleLib with
  encodeJwt := fun c =>
    if c = plainClaims c.sub ∧ c.sub.all fun ch => !Text.isWhitespace ch then .ok ("jwt:".toList ++ c.sub)
    else .error "token encode failed\n".toList }

theorem plainLib_encode {c : Claims} {token : Text} (h : plainLib.encodeJwt c = .ok token) :
    c = plainClaims c.sub ∧ (c.sub.all fun ch => !Text.isWhitespace ch) = true ∧ token = "jwt:".toList ++ c.sub := by
  simp only [plainLib] at h
  split at h
  · rename_i hc
    cases h
    exact ⟨hc.1, hc.2, rfl⟩
  · cases h

def plainJwt : JwtLib plainLib where
  keyOk := true
  decodeJwt token _ := (Text.stripPrefix "jwt:".toList token).map plainClaims
  decode_encode := by
    intro c c' token now hencode hdecode
    obtain ⟨hc, -, rfl⟩ := plainLib_encode hencode
    obtain ⟨sub, hsub, rfl⟩ := Option.map_eq_some_iff.mp hdecode
    have heq : c.sub = sub := List.append_cancel_left (Text.eq_append_of_stripPrefix hsub)
    rw [hc, ← heq]
  trim_token := by
    intro c token hencode
    obtain ⟨-, hall, rfl⟩ := plainLib_encode hencode
    refine Text.trim_of_noWhitespace fun ch hch => ?_
    rcases List.mem_append.mp hch with hch | hch
    · have hjwt : ("jwt:".toList.all fun ch => !Text.isWhitespace ch) = true := by decide +kernel
      simpa using List.all_eq_true.mp hjwt ch hch
    · simpa using List.all_eq_true.mp hall ch hch

/-- The web page with the own provider. -/
def ownWorld : SignInWorld Text (Server (Option UserDb)) ProviderEnv where
  lib := plainWorld.lib
  st := { plainWorld.st with
    oidcClientId := some "slopmud".toList
    oidcClientSecret := some "secret".toList
    oidcRedirectUri := some "http://localhost/cb".toList }
  locate := id
  providers := ownProviders (Codec.direct UserDb) plainJwt sampleConfig

/-- Bob begins a login, registers at the provider, and comes back with the code. -/
def bobSignsIn : List (SignInMove ProviderEnv) :=
  ([.call 0 .request, .run 0 (.request (.start ⟨"oidc".toList, bobsBrowser, none⟩)),
   .run 0 (.random (some "state".toList)), .run 0 (.random (some "abc".toList)), .run 0 (.clock 5),
   .run 0 (.disk true false), .run 0 (.disk true false), .run 0 .plain] : List (SignInMove ProviderEnv))
  ++ ((registration "bob").mapIdx fun n m =>
      [Move.call (n + 1) SignInCall.elsewhere, .run (n + 1) (.provider (.move m))]).flatten
  ++ ([.call 9 .request,
   .run 9 (.request (.authCallback .oidc ⟨some "k1".toList, some "state".toList, none, none⟩)),
   .run 9 .plain, .run 9 (.clock 149), .run 9 (.provider (.served 150)), .run 9 (.provider (.served 151)),
   .run 9 .plain] : List (SignInMove ProviderEnv))

theorem own_identity_is_the_users_bob :
    ∃ w ident, exec (signInStep ownWorld) (.init ∅ (.init none)) bobSignsIn = some w
      ∧ w.shared.webIdentities.lookup bobsBrowser = some ident ∧ ident.sub = "bob".toList
      ∧ ∃ t pending, pending.resume = bobsBrowser
        ∧ Begun ownWorld.st (signInTalk ownWorld ∅ (.init none) bobSignsIn t) .oidc pending
        ∧ ∃ i ∈ w.shared.providers.issued, i.origin.codeChallenge = plainLib.base64urlSha256 pending.verifier
          ∧ ownWorld.st.oidcRedirectUri = some i.origin.redirectUri ∧ ident.sub = i.origin.subject
          ∧ ident.email = i.origin.email ∧ ident.caps = i.origin.caps := by
  have hfacts : (exec (signInStep ownWorld) (.init ∅ (.init none)) bobSignsIn).map (fun w =>
      (w.shared.webIdentities.lookup bobsBrowser).map fun ident => (ident.provider, ident.sub))
      = some (some ("oidc".toList, "bob".toList)) := by decide +kernel
  obtain ⟨w, hrun, hw⟩ := Option.map_eq_some_iff.mp hfacts
  obtain ⟨ident, hident, heq⟩ := Option.map_eq_some_iff.mp hw
  have hprovider : ident.provider = Provider.oidc.method := congrArg Prod.fst heq
  have hW : ownWorld.providers = ownProviders (Codec.direct UserDb) plainJwt sampleConfig := rfl
  exact ⟨w, ident, hrun, hident, congrArg Prod.snd heq,
    own_identity_is_the_users hW noFiles hrun hident hprovider⟩

end

end Slopmud.Web
