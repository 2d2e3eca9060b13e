import Slopmud.Proof.OidcUsers

/-!
# Authorization codes

A code is in the table from its issue to the first complete attempt to redeem it, whatever
comes of the attempt. So a token given for a code is given once, and it carries what the issue
on record carries. A request that lacks the redirect URI or the verifier is answered before
the table is asked and leaves the code there.
-/

namespace Slopmud.Oidc

open Machine

variable {Raw : Type} {J : Codec Raw UserDb} {L : OidcLib} {cfg : Config}

/-! ## What a token says -/

/-- The subject of a login or a registration. -/
def Origin.subject : Origin → Text
  | .login _ user => user.subject
  | .registration f => Text.trim f.username

def Origin.scope : Origin → Option Text
  | .login f _ => f.scope
  | .registration f => f.scope

/-- The e-mail address, unless it is too long to be one. -/
def Origin.email : Origin → Option Text
  | .login _ user => user.email.filter fun e => Text.byteLen e ≤ 254
  | .registration _ => none

def Origin.caps : Origin → Option (List Text)
  | .login _ user => sanitizeCaps user.caps
  | .registration _ => none

def Origin.redirectUri : Origin → Text
  | .login f _ => f.redirectUri
  | .registration f => f.redirectUri

def Origin.codeChallenge : Origin → Text
  | .login f _ => f.codeChallenge
  | .registration f => f.codeChallenge

theorem Issue.authCode_eq (i : Issue) : i.authCode = {
    createdUnix := i.now
    redirectUri := i.origin.redirectUri
    codeChallenge := i.origin.codeChallenge
    scope := i.origin.scope
    sub := i.origin.subject
    email := i.origin.email
    caps := i.origin.caps } := by
  obtain ⟨code, origin, now⟩ := i
  cases origin <;> rfl

/-- The token answers a request of the client for this issue: the same redirect URI, a verifier for
its challenge, not too old, and its claims are those of the login or registration. -/
structure Granted (L : OidcLib) (cfg : Config) (i : Issue) (r : Redemption) : Prop where
  code : i.code = r.code
  client : r.client = (cfg.clientId, cfg.clientSecret)
  redirect : i.origin.redirectUri = r.redirectUri
  verifier : i.origin.codeChallenge = L.base64urlSha256 r.verifier
  age : r.now - i.now ≤ cfg.authCodeTtlS
  claims : ∃ c : Claims, L.encodeJwt c = .ok r.resp.accessToken ∧ c.sub = i.origin.subject
    ∧ c.scope = i.origin.scope ∧ c.email = i.origin.email ∧ c.caps = i.origin.caps
    ∧ r.resp.scope = i.origin.scope
    ∧ ∀ t, r.resp.idToken = some t → L.encodeJwt { c with aud := cfg.clientId } = .ok t

/-- What it takes to get a token for a code that was in the table. -/
theorem redeem_token {ac : AuthCode} {uri verifier : Text} {now : Nat} {resp : TokenResp}
    (h : redeem L cfg ac uri verifier now = .token resp) :
    now - ac.createdUnix ≤ cfg.authCodeTtlS ∧ ac.redirectUri = uri
      ∧ ac.codeChallenge = L.base64urlSha256 verifier
      ∧ L.encodeJwt (codeClaims cfg ac now) = .ok resp.accessToken ∧ resp.scope = ac.scope
      ∧ ∀ t, resp.idToken = some t →
        L.encodeJwt { codeClaims cfg ac now with aud := cfg.clientId } = .ok t := by
  unfold redeem at h
  split at h
  · cases h
  · next hage =>
    split at h
    · cases h
    · next huri =>
      split at h
      · cases h
      · next hchal =>
        dsimp only at h
        split at h
        · cases h
        · next access henc =>
          cases h
          refine ⟨Nat.le_of_not_lt hage, not_ne_iff.mp huri, not_ne_iff.mp hchal, henc, rfl, ?_⟩
          intro t ht
          dsimp only [bearer] at ht
          split at ht
          · cases hid : L.encodeJwt { codeClaims cfg ac now with aud := cfg.clientId } with
            | ok tok =>
              rw [hid] at ht
              cases ht
              rfl
            | error e =>
              rw [hid] at ht
              cases ht
          · cases ht

/-- A code of the table is granted as it was issued. -/
theorem granted_of_redeem {i : Issue} {r : Redemption} (hcode : i.code = r.code)
    (hclient : r.client = (cfg.clientId, cfg.clientSecret))
    (h : redeem L cfg i.authCode r.redirectUri r.verifier r.now = .token r.resp) : Granted L cfg i r := by
  obtain ⟨hage, huri, hchal, henc, hscope, hid⟩ := redeem_token h
  have hac := i.authCode_eq
  rw [hac] at hage huri hchal hscope
  refine ⟨hcode, hclient, huri, hchal, hage, codeClaims cfg i.authCode r.now, henc, ?_, ?_, ?_, ?_, hscope, hid⟩
  · rw [hac]; rfl
  · rw [hac]; rfl
  · rw [hac]; rfl
  · rw [hac]; rfl

/-! ## What a move does to the codes -/

inductive CodeEffect (L : OidcLib) (cfg : Config) (s s' : Server Raw) : Prop where
  | same (hcodes : s'.codes = s.codes) (hissued : s'.issued = s.issued)
      (hredeemed : s'.redeemed = s.redeemed) (hattempted : s'.attempted = s.attempted)
  | issued (i : Issue) (hcodes : s'.codes = s.codes.insert i.code i.authCode)
      (hissued : s'.issued = s.issued ++ [i]) (hredeemed : s'.redeemed = s.redeemed)
      (hattempted : s'.attempted = s.attempted)
  | refused (code : Text)
      (hcodes : ∀ c, s'.codes.lookup c = if c = code then none else s.codes.lookup c)
      (hissued : s'.issued = s.issued) (hredeemed : s'.redeemed = s.redeemed)
      (hattempted : s'.attempted = s.attempted ++ if code ∈ s.issued.map Issue.code then [code] else [])
  | redeemed (r : Redemption) (ac : AuthCode) (hlook : s.codes.lookup r.code = some ac)
      (hclient : r.client = (cfg.clientId, cfg.clientSecret))
      (htoken : redeem L cfg ac r.redirectUri r.verifier r.now = .token r.resp)
      (hcodes : s'.codes = s.codes.erase r.code) (hissued : s'.issued = s.issued)
      (hredeemed : s'.redeemed = s.redeemed ++ [r])
      (hattempted : s'.attempted = s.attempted
        ++ if r.code ∈ s.issued.map Issue.code then [r.code] else [])

namespace Server

variable {s s' : Server Raw}

/-- An attempt, once it is noted. -/
theorem attempt_codes (s₁ : Server Raw) {client : Text × Text} {code uri verifier : Text} {now : Nat}
    (hclient : client = (cfg.clientId, cfg.clientSecret)) (hcodes : s₁.codes = s.codes)
    (hissued : s₁.issued = s.issued) (hredeemed : s₁.redeemed = s.redeemed)
    (hattempted : s₁.attempted = s.attempted ++ if code ∈ s.issued.map Issue.code then [code] else []) :
    CodeEffect L cfg s (match s₁.codes.lookup code with
      | none => s₁.answer (.text 400 "invalid code\n")
      | some ac => match redeem L cfg ac uri verifier now with
        | .token resp => { s₁ with
            codes := s₁.codes.erase code
            redeemed := s₁.redeemed ++ [Redemption.mk code client uri verifier now resp] }.answer (.token resp)
        | r => { s₁ with codes := s₁.codes.erase code }.answer r) := by
  split
  · next hlook =>
    refine .refused code (fun c => ?_) hissued hredeemed hattempted
    rw [show (s₁.answer (.text 400 "invalid code\n")).codes = s.codes from hcodes]
    rw [hcodes] at hlook
    split
    · next hc => rw [hc]; exact hlook
    · rfl
  · next ac hlook =>
    rw [hcodes] at hlook ⊢
    split
    · next resp htoken =>
      refine .redeemed ⟨code, client, uri, verifier, now, resp⟩ ac hlook hclient htoken rfl hissued ?_
        hattempted
      rw [← hredeemed]
      rfl
    · exact .refused code (Table.lookup_erase_eq s.codes code) hissued hredeemed hattempted

theorem tokenCode_codes {client : Text × Text} (hclient : client = (cfg.clientId, cfg.clientSecret))
    (tf : TokenForm) (now : Nat) : CodeEffect L cfg s (s.tokenCode L cfg client tf now) := by
  unfold tokenCode
  split
  · exact .same rfl rfl rfl rfl
  · next code _ =>
    dsimp only
    split
    · split <;> exact .same rfl rfl rfl rfl
    · split
      · split <;> exact .same rfl rfl rfl rfl
      · by_cases hknown : code ∈ s.issued.map Issue.code
        · simp only [hknown, decide_true, if_true]
          exact attempt_codes { s with named := s.named ++ [code], attempted := s.attempted ++ [code] }
            hclient rfl rfl rfl (by rw [if_pos hknown])
        · simp only [hknown, decide_false, Bool.false_eq_true, if_false]
          exact attempt_codes s hclient rfl rfl rfl (by rw [if_neg hknown, List.append_nil])

theorem token_codes (req : TokenReq) (now : Nat) : CodeEffect L cfg s (s.token L cfg req now) := by
  unfold token
  split
  · exact .same rfl rfl rfl rfl
  · next cid csec _ =>
    split
    · exact .same rfl rfl rfl rfl
    · next hcred =>
      have hclient : (cid, csec) = (cfg.clientId, cfg.clientSecret) := by
        rw [not_or, not_ne_iff, not_ne_iff] at hcred
        rw [hcred.1, hcred.2]
      split
      · split
        · exact .same rfl rfl rfl rfl
        · exact .same rfl rfl rfl rfl
      · split
        · exact tokenCode_codes hclient req.form now
        · exact .same rfl rfl rfl rfl

theorem issue_codes {id : Nat} {code : Option Text} {now : Nat} (hs : s.issue L id code now = some s') :
    CodeEffect L cfg s s' := by
  unfold issue at hs
  split at hs
  · cases hs
    split
    · exact .same rfl rfl rfl rfl
    · exact .issued _ rfl rfl rfl rfl
  · cases hs
    split
    · exact .same rfl rfl rfl rfl
    · exact .issued _ rfl rfl rfl rfl
  · cases hs

theorem step_codes {a : Move} (hs : s.step J L cfg a = some s') : CodeEffect L cfg s s' := by
  cases a with
  | issue id code now => exact issue_codes hs
  | token req now =>
    cases hs
    exact token_codes req now
  | _ =>
    -- the other moves are about users
    simp only [step, registerPost, resetPost, takeLock, load, save, authorizePost] at hs
    repeat' split at hs
    all_goals cases hs
    all_goals exact .same rfl rfl rfl rfl

end Server

/-! ## One use -/

/-- The codes of a server. -/
structure CodesOk (L : OidcLib) (cfg : Config) (s : Server Raw) : Prop where
  /-- What is in the table was issued, as it is there. -/
  table : ∀ code ac, s.codes.lookup code = some ac →
    ∃ i ∈ s.issued, i.code = code ∧ i.authCode = ac
  /-- And nobody has attempted to redeem it. -/
  unused : ∀ code, (s.codes.lookup code).isSome → code ∉ s.attempted
  attempted : ∀ code ∈ s.attempted, code ∈ s.issued.map Issue.code
  redeemed : ∀ r ∈ s.redeemed, r.code ∈ s.attempted
  once : (s.redeemed.map Redemption.code).Nodup
  granted : ∀ r ∈ s.redeemed, ∃ i ∈ s.issued, Granted L cfg i r

namespace CodesOk

variable {s s' : Server Raw}

theorem init (file : Option Raw) : CodesOk L cfg (.init file) where
  table code ac h := by cases h
  unused code h := by cases h
  attempted code h := by cases h
  redeemed r h := by cases h
  once := List.nodup_nil
  granted r h := by cases h

theorem mem_codes (h : CodesOk L cfg s) {code : Text} {ac : AuthCode}
    (hlook : s.codes.lookup code = some ac) : code ∈ s.issued.map Issue.code := by
  obtain ⟨i, hi, hcode, -⟩ := h.table code ac hlook
  exact List.mem_map.mpr ⟨i, hi, hcode⟩

/-- A new code. -/
theorem issue (h : CodesOk L cfg s) {i : Issue} (hnew : i.code ∉ s.issued.map Issue.code)
    (hcodes : s'.codes = s.codes.insert i.code i.authCode) (hissued : s'.issued = s.issued ++ [i])
    (hredeemed : s'.redeemed = s.redeemed) (hattempted : s'.attempted = s.attempted) :
    CodesOk L cfg s' := by
  refine ⟨?_, ?_, ?_, ?_, ?_, ?_⟩
  · intro code ac hlook
    rw [hcodes, Table.lookup_insert_eq] at hlook
    rw [hissued]
    split at hlook
    · next heq =>
      cases hlook
      exact ⟨i, List.mem_append_right _ (List.mem_singleton_self i), heq.symm, rfl⟩
    · obtain ⟨j, hj, hcode, hac⟩ := h.table code ac hlook
      exact ⟨j, List.mem_append_left _ hj, hcode, hac⟩
  · intro code hsome
    rw [hcodes, Table.lookup_insert_eq] at hsome
    rw [hattempted]
    split at hsome
    · next heq =>
      rw [heq]
      exact fun hmem => hnew (h.attempted _ hmem)
    · exact h.unused code hsome
  · intro code hmem
    rw [hattempted] at hmem
    rw [hissued, List.map_append]
    exact List.mem_append_left _ (h.attempted code hmem)
  · rw [hredeemed, hattempted]
    exact h.redeemed
  · rw [hredeemed]
    exact h.once
  · intro r hr
    rw [hredeemed] at hr
    obtain ⟨j, hj, hg⟩ := h.granted r hr
    rw [hissued]
    exact ⟨j, List.mem_append_left _ hj, hg⟩

/-- A complete attempt takes its code out of the table, and is on record if the code was issued. -/
theorem attempt (h : CodesOk L cfg s) {code : Text}
    (hcodes : ∀ c, s'.codes.lookup c = if c = code then none else s.codes.lookup c)
    (hissued : s'.issued = s.issued)
    (hattempted : s'.attempted = s.attempted ++ if code ∈ s.issued.map Issue.code then [code] else [])
    (hredeemed : ∀ r ∈ s'.redeemed, r.code ∈ s'.attempted)
    (honce : (s'.redeemed.map Redemption.code).Nodup)
    (hgranted : ∀ r ∈ s'.redeemed, ∃ i ∈ s'.issued, Granted L cfg i r) : CodesOk L cfg s' := by
  have hmem : ∀ c ∈ s'.attempted, c ∈ s.attempted ∨ c = code ∧ code ∈ s.issued.map Issue.code := by
    intro c hc
    rw [hattempted] at hc
    rcases List.mem_append.mp hc with hc | hc
    · exact .inl hc
    · split at hc
      · next hknown => exact .inr ⟨List.mem_singleton.mp hc, hknown⟩
      · cases hc
  refine ⟨?_, ?_, ?_, hredeemed, honce, hgranted⟩
  · intro c ac hlook
    rw [hcodes] at hlook
    rw [hissued]
    split at hlook
    · cases hlook
    · exact h.table c ac hlook
  · intro c hsome hc
    rw [hcodes] at hsome
    split at hsome
    · cases hsome
    · next hne =>
      rcases hmem c hc with hold | ⟨heq, -⟩
      · exact h.unused c hsome hold
      · exact hne heq
  · intro c hc
    rw [hissued]
    rcases hmem c hc with hold | ⟨rfl, hknown⟩
    · exact h.attempted c hold
    · exact hknown

theorem effect (h : CodesOk L cfg s) (he : CodeEffect L cfg s s')
    (hnodup : (s'.issued.map Issue.code).Nodup) : CodesOk L cfg s' := by
  cases he with
  | same hcodes hissued hredeemed hattempted =>
    refine ⟨?_, ?_, ?_, ?_, ?_, ?_⟩
    · rw [hcodes, hissued]; exact h.table
    · rw [hcodes, hattempted]; exact h.unused
    · rw [hissued, hattempted]; exact h.attempted
    · rw [hredeemed, hattempted]; exact h.redeemed
    · rw [hredeemed]; exact h.once
    · rw [hredeemed, hissued]; exact h.granted
  | issued i hcodes hissued hredeemed hattempted =>
    refine h.issue ?_ hcodes hissued hredeemed hattempted
    rw [hissued, List.map_append, List.nodup_append] at hnodup
    intro hmem
    exact hnodup.2.2 i.code hmem i.code (List.mem_singleton_self i.code) rfl
  | refused code hcodes hissued hredeemed hattempted =>
    refine h.attempt hcodes hissued hattempted ?_ ?_ ?_
    · rw [hredeemed, hattempted]
      exact fun r hr => List.mem_append_left _ (h.redeemed r hr)
    · rw [hredeemed]
      exact h.once
    · rw [hredeemed, hissued]
      exact h.granted
  | redeemed r ac hlook hclient htoken hcodes hissued hredeemed hattempted =>
    have hknown := h.mem_codes hlook
    have hfresh : r.code ∉ s.attempted := h.unused r.code (by rw [hlook]; rfl)
    have hcodes' : ∀ c, s'.codes.lookup c = if c = r.code then none else s.codes.lookup c := by
      intro c
      rw [hcodes]
      exact Table.lookup_erase_eq s.codes r.code c
    refine h.attempt hcodes' hissued hattempted ?_ ?_ ?_
    · intro r' hr'
      rw [hredeemed] at hr'
      rw [hattempted, if_pos hknown]
      rcases List.mem_append.mp hr' with hr' | hr'
      · exact List.mem_append_left _ (h.redeemed r' hr')
      · rw [List.mem_singleton.mp hr']
        exact List.mem_append_right _ (List.mem_singleton_self r.code)
    · rw [hredeemed, List.map_append]
      refine List.nodup_append.mpr ⟨h.once, List.nodup_singleton _, ?_⟩
      intro x hx y hy
      obtain ⟨r', hr', rfl⟩ := List.mem_map.mp hx
      have hy' : y = r.code := List.mem_singleton.mp hy
      rintro rfl
      rw [← hy'] at hfresh
      exact hfresh (h.redeemed r' hr')
    · intro r' hr'
      rw [hredeemed] at hr'
      rw [hissued]
      rcases List.mem_append.mp hr' with hr' | hr'
      · exact h.granted r' hr'
      · rw [List.mem_singleton.mp hr']
        obtain ⟨i, hi, hcode, hac⟩ := h.table r.code ac hlook
        rw [← hac] at htoken
        exact ⟨i, hi, granted_of_redeem hcode hclient htoken⟩

end CodesOk

theorem issued_grows {s s' : Server Raw} (he : CodeEffect L cfg s s') : s.issued <+: s'.issued := by
  cases he with
  | same _ hissued => simp [hissued]
  | issued i _ hissued => rw [hissued]; exact List.prefix_append _ _
  | refused _ _ hissued => simp [hissued]
  | redeemed _ _ _ _ _ _ hissued => simp [hissued]

/-- An attempt with a code that was attempted before. -/
theorem token_of_attempted {s : Server Raw} (h : CodesOk L cfg s) {req : TokenReq} {now : Nat}
    {code : Text} (hcode : req.form.code = some code) (hold : code ∈ s.attempted) :
    (s.token L cfg req now).redeemed = s.redeemed := by
  have hnone : s.codes.lookup code = none := by
    cases hlook : s.codes.lookup code with
    | none => rfl
    | some ac => exact absurd hold (h.unused code (by rw [hlook]; rfl))
  have htoken : ∀ client, (s.tokenCode L cfg client req.form now).redeemed = s.redeemed := by
    intro client
    unfold Server.tokenCode
    rw [hcode]
    dsimp only
    split
    · split <;> rfl
    · split
      · split <;> rfl
      · by_cases hknown : code ∈ s.issued.map Issue.code
        · simp only [hknown, decide_true, if_true, hnone]
          rfl
        · simp only [hknown, decide_false, Bool.false_eq_true, if_false, hnone]
          rfl
  unfold Server.token
  split
  · rfl
  · next cid csec _ =>
    split
    · rfl
    · split
      · split
        · rfl
        · rfl
      · split
        · exact htoken (cid, csec)
        · rfl

/-- **Authorization codes are single use and bound to their login.** In every run in which the
codes that are issued are different: each code is answered with at most one token; the token is
for an issue on record, whose login or registration has the subject, scope, e-mail and
capabilities of its claims, and its request had the credentials of the client, the same redirect
URI, a verifier for the challenge and came in time; and no request gets a token for a code that
the client has attempted to redeem before, with a redirect URI and a verifier. -/
theorem codes_single_use (J : Codec Raw UserDb) (L : OidcLib) (cfg : Config) {file : Option Raw}
    {as : List Move} {s : Server Raw} (hrun : exec (Server.step J L cfg) (.init file) as = some s)
    (hcodes : (s.issued.map Issue.code).Nodup) :
    (s.redeemed.map Redemption.code).Nodup ∧
    (∀ r ∈ s.redeemed, ∃ i ∈ s.issued, Granted L cfg i r) ∧
    ∀ req now code, req.form.code = some code → code ∈ s.attempted →
      (s.token L cfg req now).redeemed = s.redeemed := by
  have hok : (s.issued.map Issue.code).Nodup → CodesOk L cfg s := by
    refine exec_preserves (I := fun s => (s.issued.map Issue.code).Nodup → CodesOk L cfg s) ?_
      (fun _ => CodesOk.init file) hrun
    intro s s' a h hs hnodup
    have he := Server.step_codes hs
    have hpre := (issued_grows he).map Issue.code
    exact (h (hnodup.sublist hpre.sublist)).effect he hnodup
  have h := hok hcodes
  exact ⟨h.once, h.granted, fun req now code hcode hold => token_of_attempted h hcode hold⟩

/-! ## A code that was asked for too early -/

/-- The token request for `k1`, with or without a verifier. -/
def sampleRequest (verifier : Option Text) : TokenReq where
  auth := some ("slopmud".toList, "secret".toList)
  form := {
    grantType := "authorization_code".toList
    sub := none
    sid := none
    scope := none
    code := some "k1".toList
    redirectUri := some "http://localhost/cb".toList
    codeVerifier := verifier }

/-- Bob registers, and his code is redeemed. -/
def codeRun : List Move := registration "bob" ++ [Move.token (sampleRequest (some "abc".toList)) 150]

theorem codes_single_use_bob :
    ∃ s, exec (Server.step (Codec.direct UserDb) sampleLib sampleConfig) (Server.init none) codeRun = some s
      ∧ (s.redeemed.map Redemption.code).Nodup ∧
      (∀ r ∈ s.redeemed, ∃ i ∈ s.issued, Granted sampleLib sampleConfig i r) ∧
      ∀ req now code, req.form.code = some code → code ∈ s.attempted →
        (s.token sampleLib sampleConfig req now).redeemed = s.redeemed := by
  have hsome : (exec (Server.step (Codec.direct UserDb) sampleLib sampleConfig) (Server.init none)
      codeRun).map (fun s => s.issued.map Issue.code) = some ["k1".toList] := by
    decide +kernel
  obtain ⟨s, hs, hissued⟩ := Option.map_eq_some_iff.mp hsome
  exact ⟨s, hs, codes_single_use _ _ _ hs (by rw [hissued]; decide)⟩

/-- A request of the client that names the code and has no verifier is refused, and the code is
accepted afterwards. -/
theorem code_outlives_attempt :
    (exec (Server.step (Codec.direct UserDb) sampleLib sampleConfig) (Server.init none)
        (registration "bob" ++ [Move.token (sampleRequest none) 140])).map
        (fun s => (s.named, s.answers.getLast?, s.redeemed.map Redemption.code))
      = some (["k1".toList], some (.text 400 "missing code_verifier\n"), []) ∧
    (exec (Server.step (Codec.direct UserDb) sampleLib sampleConfig) (Server.init none)
        (registration "bob" ++ [Move.token (sampleRequest none) 140,
          Move.token (sampleRequest (some "abc".toList)) 150])).map
        (fun s => s.redeemed.map Redemption.code) = some ["k1".toList] := by
  constructor <;> decide +kernel

end Slopmud.Oidc
