import Slopmud.Proof.SigningIn

/-!
# Where an identity comes from

A login passes through several requests, and the identity at its end is found under a resume
token by whoever asks for it. The question is therefore not what a handler remembers but what
every value was made from: each pending login, wherever it is kept, was begun by a request
with its resume token, and each identity was told by the provider to a callback that redeemed
its code with the verifier of such a login. No step takes evidence away, so this holds in every
order of the handlers' turns.
-/

namespace Slopmud.Web

open Machine Program
open Slopmud.Broker (Provider WebAuthReq)

/-! ## The pool -/

section

variable {Place P E : Type} [DecidableEq Place] (W : SignInWorld Place P E)

/-- What a file says was found out by somebody. -/
def FileSound (d : Nat → SignInTalk) (place : Place) : OAuthFile → Prop
  | .web pending => ∃ t, Begun W.st (d t) .oidc pending
  | .google result => result.status = "ok".toList →
    ∃ t path, W.locate path = place ∧ FileSignedIn W.st (d t) path result
  | .other => True

/-- Everything that is kept was made by somebody who had the evidence. -/
structure Kept (s : SignInShared Place P) (d : Nat → SignInTalk) : Prop where
  pendings : ∀ p code pending, (s.pending p).lookup code = some pending → ∃ t, Begun W.st (d t) p pending
  files : ∀ place f, s.files.lookup place = some f → FileSound W d place f
  tmps : ∀ place f, s.tmps.lookup place = some f → FileSound W d place f
  identities : ∀ resume ident, s.webIdentities.lookup resume = some ident →
    ∃ t p pending, pending.resume = resume ∧ SignedIn W.st (d t) p pending ident
  sent : ∀ x ∈ s.sent, isValidResumeToken x.1 = true ∧ ∃ t, Announced W.lib (d t) x.1 x.2

/-- So was everything that somebody was told. -/
structure Learned (d : Nat → SignInTalk) : Prop where
  pending : ∀ t p code pending, Told (d t) (.getPending p code) (some pending) →
    ∃ t', Begun W.st (d t') p pending
  file : ∀ t path pending, Told (d t) (.readFile path) (some (.web pending)) →
    ∃ t', Begun W.st (d t') .oidc pending
  identity : ∀ t resume ident, Told (d t) (.getIdentity resume) (some ident) →
    ∃ t' p pending, pending.resume = resume ∧ SignedIn W.st (d t') p pending ident

structure Attributed (s : SignInShared Place P) (d : Nat → SignInTalk) : Prop where
  kept : Kept W s d
  learned : Learned W d

end

section

variable {Place P E : Type} [DecidableEq Place] {W : SignInWorld Place P E} {s s' : SignInShared Place P}
  {D D' : Nat → SignInTalk}

omit [DecidableEq Place] in
theorem FileSound.mono (hd : ∀ t, D t ⊆ D' t) {place : Place} {f : OAuthFile} (h : FileSound W D place f) :
    FileSound W D' place f := by
  cases f with
  | web pending =>
    obtain ⟨t, ht⟩ := h
    exact ⟨t, ht.mono (hd t)⟩
  | google result =>
    intro hok
    obtain ⟨t, path, hpath, ht⟩ := h hok
    exact ⟨t, path, hpath, ht.mono (hd t)⟩
  | other => trivial

theorem Kept.mono (hd : ∀ t, D t ⊆ D' t) (h : Kept W s D) : Kept W s D' where
  pendings p code pending hlook := by
    obtain ⟨t, ht⟩ := h.pendings p code pending hlook
    exact ⟨t, ht.mono (hd t)⟩
  files place f hlook := (h.files place f hlook).mono hd
  tmps place f hlook := (h.tmps place f hlook).mono hd
  identities resume ident hlook := by
    obtain ⟨t, p, pending, hresume, ht⟩ := h.identities resume ident hlook
    exact ⟨t, p, pending, hresume, ht.mono (hd t)⟩
  sent x hx := by
    obtain ⟨hvalid, t, ht⟩ := h.sent x hx
    exact ⟨hvalid, t, ht.mono (hd t)⟩

/-! ### What the sections keep -/

omit [DecidableEq Place] in
theorem lookup_setPending (p p' : Provider) (m : Table Text WebOAuthPending) :
    (s.setPending m p).pending p' = if p' = p then m else s.pending p' := by
  cases p <;> cases p' <;> rfl

omit [DecidableEq Place] in
theorem pending_of_eq (hgoogle : s'.webPendingGoogle = s.webPendingGoogle)
    (hoidc : s'.webPendingOidc = s.webPendingOidc) (p : Provider) : s'.pending p = s.pending p := by
  cases p with
  | google => exact hgoogle
  | oidc => exact hoidc

/-- What is found in the maps, when the maps are the same. -/
theorem Kept.pendings_of_eq (h : Kept W s D) (hgoogle : s'.webPendingGoogle = s.webPendingGoogle)
    (hoidc : s'.webPendingOidc = s.webPendingOidc) (p : Provider) (code : Text) (pending : WebOAuthPending)
    (hlook : (s'.pending p).lookup code = some pending) : ∃ t, Begun W.st (D t) p pending :=
  h.pendings p code pending (pending_of_eq hgoogle hoidc p ▸ hlook)

theorem Kept.setPending (h : Kept W s D) {p : Provider} {m : Table Text WebOAuthPending}
    (hm : ∀ code pending, m.lookup code = some pending → ∃ t, Begun W.st (D t) p pending) :
    Kept W (s.setPending m p) D where
  pendings p' code pending hlook := by
    rw [lookup_setPending] at hlook
    split at hlook
    · rename_i hp
      subst hp
      exact hm code pending hlook
    · exact h.pendings p' code pending hlook
  files := by cases p <;> exact h.files
  tmps := by cases p <;> exact h.tmps
  identities := by cases p <;> exact h.identities
  sent := by cases p <;> exact h.sent

theorem Kept.writeTmp (h : Kept W s D) {place : Place} {f : OAuthFile} (hf : FileSound W D place f) :
    Kept W (s.writeTmp place f) D where
  pendings := h.pendings_of_eq rfl rfl
  files := h.files
  tmps place' f' hlook := by
    have hlook : (s.tmps.insert place f).lookup place' = some f' := hlook
    rw [Table.lookup_insert_eq] at hlook
    split at hlook
    · rename_i hplace
      cases hlook
      exact hplace ▸ hf
    · exact h.tmps place' f' hlook
  identities := h.identities
  sent := h.sent

theorem Kept.rename (h : Kept W s D) {place : Place} (hs : s.rename place = some s') : Kept W s' D := by
  obtain ⟨f, hf, rfl⟩ := Option.map_eq_some_iff.mp hs
  refine ⟨h.pendings_of_eq rfl rfl, ?_, ?_, h.identities, h.sent⟩
  · intro place' f' hlook
    rw [Table.lookup_insert_eq] at hlook
    split at hlook
    · rename_i hplace
      cases hlook
      exact hplace ▸ h.tmps place f hf
    · exact h.files place' f' hlook
  · intro place' f' hlook
    rw [Table.lookup_erase_eq] at hlook
    split at hlook
    · cases hlook
    · exact h.tmps place' f' hlook

theorem Kept.removeFile (h : Kept W s D) (place : Place) : Kept W (s.removeFile place) D where
  pendings := h.pendings_of_eq rfl rfl
  files place' f' hlook := by
    have hlook : (s.files.erase place).lookup place' = some f' := hlook
    rw [Table.lookup_erase_eq] at hlook
    split at hlook
    · cases hlook
    · exact h.files place' f' hlook
  tmps := h.tmps
  identities := h.identities
  sent := h.sent

/-- The broker only begins logins. -/
theorem Kept.broker (h : Kept W s D) (act : BrokerAct) : Kept W (act.run W s) D := by
  cases act with
  | writeTmp code verifier nowUnix =>
    refine h.writeTmp fun hok => ?_
    simp [brokerPending] at hok
  | rename code =>
    show Kept W ((s.rename _).getD s) D
    cases hs : s.rename (W.locate (pendingPath W.st.dir code)) with
    | none => exact h
    | some s' => exact h.rename hs
  | remove code => exact h.removeFile _

theorem Kept.providers (h : Kept W s D) (x : P) : Kept W { s with providers := x } D where
  pendings := h.pendings_of_eq rfl rfl
  files := h.files
  tmps := h.tmps
  identities := h.identities
  sent := h.sent

/-- **One section keeps the attribution**, by the evidence of the task that names it. -/
theorem Kept.effect (h : Kept W s D) {t : Nat} {o : SignInOp} {e : SignInEnv E} {r : o.R}
    (hok : ∃ d, d ⊆ D t ∧ MayAsk W.lib W.st d o) (heff : signInEffect W o e s = some (r, s')) :
    Kept W s' D := by
  obtain ⟨d, hd, hok⟩ := hok
  cases o with
  | accept =>
    cases e <;> cases heff
    exact h
  | now =>
    cases e <;> cases heff
    exact h
  | random bytes =>
    cases e <;> cases heff
    exact h
  | readFile path =>
    cases e <;> cases heff
    exact h
  | getPending p code =>
    cases e <;> cases heff
    exact h
  | getIdentity resume =>
    cases e <;> cases heff
    exact h
  | writeTmp path f =>
    cases e with
    | disk ok damaged =>
      have hf : FileSound W D (W.locate path) f := by
        cases f with
        | web pending => exact ⟨t, Begun.mono hok hd⟩
        | google result => exact fun hstatus => ⟨t, path, rfl, (hok hstatus).mono hd⟩
        | other => trivial
      cases ok <;> cases damaged <;> cases heff
      · exact h
      · exact h.writeTmp trivial
      · exact h.writeTmp hf
      · exact h.writeTmp hf
    | _ => cases heff
  | rename path =>
    cases e with
    | disk ok damaged =>
      cases ok with
      | false =>
        cases heff
        exact h
      | true =>
        simp only [signInEffect, Bool.not_true, Bool.false_eq_true, if_false] at heff
        split at heff
        · rename_i hs
          cases heff
          exact h.rename hs
        · cases heff
          exact h
    | _ => cases heff
  | removeFile path =>
    cases e with
    | disk ok damaged =>
      cases ok <;> cases heff
      · exact h
      · exact h.removeFile _
    | _ => cases heff
  | putPending p code pending =>
    cases e with
    | plain =>
      cases heff
      refine h.setPending fun code' pending' hlook => ?_
      rw [Table.lookup_insert_eq] at hlook
      split at hlook
      · cases hlook
        exact ⟨t, Begun.mono hok hd⟩
      · exact h.pendings p code' pending' hlook
    | _ => cases heff
  | dropPending p code =>
    cases e with
    | plain =>
      cases heff
      refine h.setPending fun code' pending' hlook => ?_
      rw [Table.lookup_erase_eq] at hlook
      split at hlook
      · cases hlook
      · exact h.pendings p code' pending' hlook
    | _ => cases heff
  | putIdentity resume ident =>
    cases e with
    | plain =>
      cases heff
      refine ⟨h.pendings_of_eq rfl rfl, h.files, h.tmps, fun resume' ident' hlook => ?_, h.sent⟩
      rw [Table.lookup_insert_eq] at hlook
      split at hlook
      · rename_i hresume
        cases hlook
        obtain ⟨p, pending, hp, hsigned⟩ := hok
        exact ⟨t, p, pending, (hresume.trans hp).symm, hsigned.mono hd⟩
      · exact h.identities resume' ident' hlook
    | _ => cases heff
  | dropIdentity resume =>
    cases e with
    | plain =>
      cases heff
      refine ⟨h.pendings_of_eq rfl rfl, h.files, h.tmps, fun resume' ident' hlook => ?_, h.sent⟩
      rw [Table.lookup_erase_eq] at hlook
      split at hlook
      · cases hlook
      · exact h.identities resume' ident' hlook
    | _ => cases heff
  | exchange p req =>
    cases e with
    | provider e =>
      cases heff
      exact h.providers _
    | _ => cases heff
  | userinfo p url access =>
    cases e with
    | provider e =>
      cases heff
      exact h.providers _
    | _ => cases heff
  | sendOrDefer resume line =>
    cases e with
    | plain =>
      simp only [signInEffect] at heff
      split at heff
      · rename_i hvalid
        cases heff
        refine ⟨h.pendings_of_eq rfl rfl, h.files, h.tmps, h.identities, fun x hx => ?_⟩
        rcases List.mem_append.mp hx with hx | hx
        · exact h.sent x hx
        · obtain rfl := List.mem_singleton.mp hx
          exact ⟨hvalid, t, Announced.mono hok hd⟩
      · cases heff
        exact h
    | _ => cases heff
  | elsewhere =>
    cases e with
    | provider e =>
      cases heff
      exact h.providers _
    | broker act =>
      cases heff
      exact h.broker act
    | _ => cases heff

end

section

variable {Place P E : Type} [DecidableEq Place] {W : SignInWorld Place P E} {s s' : SignInShared Place P}
  {D : Nat → SignInTalk} {t : Nat} {o : SignInOp} {e : SignInEnv E} {r : o.R}

/-! ### What the tasks learn -/

theorem subset_update (D : Nat → SignInTalk) (t : Nat) (x : Exchange SignInOp SignInOp.R) (t' : Nat) :
    D t' ⊆ Function.update D t (D t ++ [x]) t' := by
  by_cases h : t' = t
  · subst h
    rw [Function.update_self]
    exact subset_concat _ _
  · rw [Function.update_of_ne h]
    exact fun _ hx => hx

/-- Something that was told is old, or it is the answer that was just given. -/
theorem told_update {t' : Nat} {o' : SignInOp} {r' : o'.R}
    (h : Told (Function.update D t (D t ++ [⟨o, r⟩]) t') o' r') :
    Told (D t') o' r' ∨ (⟨o', r'⟩ : Exchange SignInOp SignInOp.R) = ⟨o, r⟩ := by
  by_cases htt : t' = t
  · subst htt
    rw [Told, Function.update_self] at h
    rcases List.mem_append.mp h with h | h
    · exact Or.inl h
    · exact Or.inr (List.mem_singleton.mp h)
  · rw [Told, Function.update_of_ne htt] at h
    exact Or.inl h

/-- **One answer keeps the attribution**: it comes from what is kept. -/
theorem Learned.effect (h : Attributed W s D) (heff : signInEffect W o e s = some (r, s')) :
    Learned W (Function.update D t (D t ++ [⟨o, r⟩])) := by
  have hgrow := subset_update D t ⟨o, r⟩
  refine ⟨fun t' p code pending htold => ?_, fun t' path pending htold => ?_, fun t' resume ident htold => ?_⟩
  · have hbegun : ∃ t', Begun W.st (D t') p pending := by
      rcases told_update htold with hold | hnew
      · exact h.learned.pending t' p code pending hold
      · cases hnew
        cases e with
        | plain =>
          have hlook : (s.pending p).lookup code = some pending :=
            congrArg Prod.fst (Option.some.inj heff)
          exact h.kept.pendings p code pending hlook
        | _ => cases heff
    obtain ⟨t₁, h₁⟩ := hbegun
    exact ⟨t₁, h₁.mono (hgrow t₁)⟩
  · have hbegun : ∃ t', Begun W.st (D t') .oidc pending := by
      rcases told_update htold with hold | hnew
      · exact h.learned.file t' path pending hold
      · cases hnew
        cases e with
        | disk ok damaged =>
          have hlook : (if ok then s.files.lookup (W.locate path) else none) = some (.web pending) :=
            congrArg Prod.fst (Option.some.inj heff)
          cases ok with
          | false => cases hlook
          | true => exact h.kept.files _ _ hlook
        | _ => cases heff
    obtain ⟨t₁, h₁⟩ := hbegun
    exact ⟨t₁, h₁.mono (hgrow t₁)⟩
  · have hsigned : ∃ t' p pending, pending.resume = resume ∧ SignedIn W.st (D t') p pending ident := by
      rcases told_update htold with hold | hnew
      · exact h.learned.identity t' resume ident hold
      · cases hnew
        cases e with
        | plain =>
          have hlook : s.webIdentities.lookup resume = some ident :=
            congrArg Prod.fst (Option.some.inj heff)
          exact h.kept.identities resume ident hlook
        | _ => cases heff
    obtain ⟨t₁, p, pending, hresume, h₁⟩ := hsigned
    exact ⟨t₁, p, pending, hresume, h₁.mono (hgrow t₁)⟩

/-- What a task may name, and what it owes in the end: nothing. -/
abbrev signInTurn (W : SignInWorld Place P E) (_ : Nat) : SignInTalk → SignInOp → Prop := MayAsk W.lib W.st

theorem attributed_tells :
    Pool.Tells (signInTasks W) (signInTurn W) (Attributed W) := by
  intro D t o e s s' r h hok heff
  refine ⟨?_, Learned.effect h heff⟩
  have hgrow := subset_update D t ⟨o, r⟩
  exact (h.kept.mono hgrow).effect ⟨D t, hgrow t, hok⟩ heff

theorem signIn_starts : Pool.StartsSafe (signInTasks W) (signInTurn W) fun _ _ _ => True := by
  intro t c old p d hfresh _ hstart
  cases old with
  | some q => cases c <;> cases hstart
  | none =>
    obtain rfl := hfresh rfl
    cases c with
    | request =>
      cases hstart
      exact Safe.bind (Q := fun _ _ => True) talks_serve fun _ _ _ => trivial
    | elsewhere =>
      cases hstart
      exact ⟨trivial, fun _ _ => trivial⟩

end

/-! ## The results -/

/-- A file that a login has been completed in. -/
def OAuthFile.completed : OAuthFile → Bool
  | .google pending => decide (pending.status = "ok".toList)
  | _ => false

/-- A file that no login has been completed in, nor one from a browser begun. -/
def OAuthFile.unfinished : OAuthFile → Bool
  | .google pending => decide (pending.status ≠ "ok".toList)
  | .web _ => false
  | .other => true

section

variable {Place P E : Type} [DecidableEq Place] {W : SignInWorld Place P E} {files : Table Place OAuthFile}
  {providers : P} {ms : List (SignInMove E)} {w : SignInPool Place P}

/-- What a task has exchanged with the rest of the world. -/
abbrev signInTalk (W : SignInWorld Place P E) (files : Table Place OAuthFile) (providers : P)
    (ms : List (SignInMove E)) (t : Nat) : SignInTalk :=
  Pool.dialogue (signInTasks W) t (SignInPool.init files providers) ms

theorem signIn_heard (hfiles : ∀ place f, files.lookup place = some f → f.unfinished = true)
    (hrun : exec (signInStep W) (.init files providers) ms = some w) :
    Pool.Heard (signInTurn W) (fun _ _ _ => True) (Attributed W) w (signInTalk W files providers ms) := by
  refine Pool.heard_of_run signIn_starts attributed_tells (fun _ => rfl) ⟨⟨?_, ?_, ?_, ?_, ?_⟩, ⟨?_, ?_, ?_⟩⟩ hrun
  · intro p code pending hlook
    cases p <;> cases hlook
  · intro place f hlook
    have hfree := hfiles place f hlook
    cases f with
    | google pending => exact fun hok => absurd hok (of_decide_eq_true hfree)
    | web pending => cases hfree
    | other => trivial
  · intro place f hlook
    cases hlook
  · intro resume ident hlook
    cases hlook
  · intro x hx
    cases hx
  · intro t p code pending htold
    cases htold
  · intro t path pending htold
    cases htold
  · intro t resume ident htold
    cases htold

omit [DecidableEq Place] in
/-- The login that a callback found was begun by somebody. -/
theorem begun_of_found {D : Nat → SignInTalk} (h : Learned W D) {t : Nat} {p : Provider} {stateCode : Text}
    {pending : WebOAuthPending} (hfound : Found W.st (D t) p stateCode pending) :
    ∃ t', Begun W.st (D t') p pending := by
  cases hfound with
  | kept htold => exact h.pending t p stateCode pending htold
  | filed hp htold =>
    subst hp
    exact h.file t _ pending htold

/-- Somebody began a login with this resume token, and the provider told this identity to the callback
that redeemed its code with the verifier of that login. -/
def Traceable (W : SignInWorld Place P E) (D : Nat → SignInTalk) (resume : Text) (p : Provider)
    (ident : WebOAuthIdentity) : Prop :=
  ∃ t t' pending, pending.resume = resume ∧ Begun W.st (D t) p pending ∧ SignedIn W.st (D t') p pending ident

omit [DecidableEq Place] in
theorem traceable {D : Nat → SignInTalk} (h : Learned W D) {t : Nat} {p : Provider}
    {pending : WebOAuthPending} {ident : WebOAuthIdentity} (hsigned : SignedIn W.st (D t) p pending ident) :
    Traceable W D pending.resume p ident := by
  obtain ⟨q, stateCode, info, now, hq, hfound, hrest⟩ := hsigned
  obtain ⟨t', hbegun⟩ := begun_of_found h hfound
  exact ⟨t', t, pending, rfl, hbegun, q, stateCode, info, now, hq, hfound, hrest⟩

/-- **Whoever is signed in has signed in.** Whatever requests come, in whatever order their handlers take
turns, and whatever the disk, the broker and the providers do. -/
theorem identities_traceable (hfiles : ∀ place f, files.lookup place = some f → f.unfinished = true)
    (hrun : exec (signInStep W) (.init files providers) ms = some w) {resume : Text}
    {ident : WebOAuthIdentity} (h : w.shared.webIdentities.lookup resume = some ident) :
    ∃ p, ident.provider = p.method ∧ Traceable W (signInTalk W files providers ms) resume p ident := by
  have hheard := signIn_heard hfiles hrun
  obtain ⟨t, p, pending, rfl, hsigned⟩ := hheard.shared.kept.identities resume ident h
  refine ⟨p, ?_, traceable hheard.shared.learned hsigned⟩
  obtain ⟨_, _, _, _, _, _, _, _, rfl⟩ := hsigned
  rfl

theorem method_injective {p p' : Provider} (h : p.method = p'.method) : p = p' := by
  cases p <;> cases p' <;> first | rfl | exact absurd h (by decide)

/-- Only the fields of the one provider are filled in. -/
theorem withIdentity_sub (action method name : Text) (p p' : Provider) (ident : WebOAuthIdentity) :
    (withIdentity (newWebAuth action method name) p ident).sub p'
      = if p' = p then some ident.sub else none := by
  cases p <;> cases p' <;> rfl

theorem withIdentity_rest (wa : WebAuthReq) (p : Provider) (ident : WebOAuthIdentity) :
    (withIdentity wa p ident).method = wa.method ∧ (withIdentity wa p ident).password = wa.password
      ∧ (withIdentity wa p ident).providerEmail p = ident.email
      ∧ (withIdentity wa p ident).caps = ident.caps := by
  cases p <;> exact ⟨rfl, rfl, rfl, rfl⟩

/-- **What the broker is told of an identity.** A `WEB_AUTH` line names the subject of a provider only for a
browser that signed in there, and then no password and nobody at the other provider. -/
theorem announced_identity_traceable
    (hfiles : ∀ place f, files.lookup place = some f → f.unfinished = true)
    (hrun : exec (signInStep W) (.init files providers) ms = some w) {resume : Text} {line : Bytes}
    (h : (resume, line) ∈ w.shared.sent) :
    isValidResumeToken resume = true ∧ ∃ wa, line = webAuthLine W.lib wa ∧ ∀ p sub, wa.sub p = some sub →
      wa.method = p.method ∧ wa.password = none ∧ (∀ p', p' ≠ p → wa.sub p' = none)
        ∧ ∃ ident, ident.sub = sub ∧ wa.providerEmail p = ident.email ∧ wa.caps = ident.caps
          ∧ Traceable W (signInTalk W files providers ms) (Text.trim resume) p ident := by
  have hheard := signIn_heard hfiles hrun
  obtain ⟨hvalid, t, req, wa, -, -, rfl, hproves, rfl⟩ := hheard.shared.kept.sent _ h
  refine ⟨hvalid, wa, rfl, fun p sub hsub => ?_⟩
  cases hproves with
  | password pw hmethod hpw hne => cases p <;> cases hsub
  | identity p' ident htold hprovider hmethod =>
    obtain ⟨t', p'', pending, hresume, hsigned⟩ := hheard.shared.learned.identity t _ ident htold
    have hp : p'' = p' := by
      obtain ⟨_, _, _, _, _, _, _, _, rfl⟩ := hsigned
      exact method_injective hprovider
    subst hp
    have htrace := traceable hheard.shared.learned hsigned
    rw [hresume] at htrace
    obtain ⟨hmeth, hpassword, hemail, hcaps⟩ := withIdentity_rest (newWebAuth _ _ _) p'' ident
    have hfilled := (withIdentity_sub _ _ _ p'' p ident).symm.trans hsub
    obtain ⟨rfl, hident⟩ := Option.ite_none_right_eq_some.mp hfilled
    refine ⟨hmeth.trans hmethod, hpassword, fun p' hne => ?_, ident, Option.some.inj hident, hemail, hcaps,
      htrace⟩
    rw [withIdentity_sub, if_neg hne]

/-- **A login that the broker finds completed** has been completed by a callback that found it pending, and
the subject is who the provider told for a code redeemed with its verifier. -/
theorem completed_files_traceable (hfiles : ∀ place f, files.lookup place = some f → f.unfinished = true)
    (hrun : exec (signInStep W) (.init files providers) ms = some w) {code : Text}
    {result : GoogleOAuthPending}
    (h : w.shared.files.lookup (W.locate (pendingPath W.st.dir code)) = some (.google result))
    (hok : result.status = "ok".toList) :
    ∃ t path, W.locate path = W.locate (pendingPath W.st.dir code)
      ∧ FileSignedIn W.st (signInTalk W files providers ms t) path result :=
  (signIn_heard hfiles hrun).shared.kept.files _ _ h hok

end

/-! ## One evening -/

section

/-- Paths lead where they say, and the providers answer what they are told to. -/
def plainWorld : SignInWorld Text Unit (HttpAnswer Text × HttpAnswer UserInfo) where
  lib := ⟨id, id, fun wa => Utf8.encode (wa.oidcSub.getD [])⟩
  st := {
    dir := "oauth".toList
    clientId := some "web".toList
    clientSecret := some "hush".toList
    redirectUri := some "/auth/google/callback".toList
    oidcAuthUrl := some "https://sso/authorize".toList
    oidcTokenUrl := some "https://sso/token".toList
    oidcUserinfoUrl := some "https://sso/userinfo".toList
    oidcClientId := some "web".toList
    oidcClientSecret := some "hush".toList
    oidcRedirectUri := some "/auth/oidc/callback".toList
    oidcScope := none }
  locate := id
  providers := ⟨fun _ _ e x => (e.1, x), fun _ _ _ e x => (e.2, x), fun _ x => x⟩

def bobsBrowser : Text := "bobs-browser-0000".toList

/-- Bob signs in from the web page, and his browser announces him; meanwhile Ann, who plays by telnet,
follows the link that the broker has given her. -/
def signInEvening : List (SignInMove (HttpAnswer Text × HttpAnswer UserInfo)) :=
  [.call 0 .request, .run 0 (.request (.start ⟨"oidc".toList, bobsBrowser, none⟩)),
   .run 0 (.random (some "state".toList)), .run 0 (.random (some "verifier".toList)), .run 0 (.clock 5),
   .run 0 (.disk true false), .run 0 (.disk true false), .run 0 .plain,
   .call 1 .elsewhere, .run 1 (.broker (.writeTmp "a1".toList "secret".toList 5)),
   .call 2 .elsewhere, .run 2 (.broker (.rename "a1".toList)),
   .call 3 .request, .run 3 (.request (.authCallback .oidc ⟨some "code".toList, some "state".toList, none, none⟩)),
   .run 3 .plain, .run 3 (.clock 9),
   .call 4 .request, .run 4 (.request (.authCallback .google ⟨some "code".toList, some "a1".toList, none, none⟩)),
   .run 4 (.clock 9), .run 4 (.disk true false),
   .run 3 (.provider (.ok "token".toList, .failed [])),
   .run 3 (.provider (.failed [], .ok ⟨"bob".toList, none, none⟩)),
   .run 4 (.provider (.ok "token".toList, .failed [])),
   .run 4 (.provider (.failed [], .ok ⟨"ann".toList, none, none⟩)),
   .run 3 .plain, .run 3 .plain, .run 3 (.disk true false),
   .run 4 (.disk true false), .run 4 (.clock 10), .run 4 (.disk true false), .run 4 (.disk true false),
   .call 5 .request,
   .run 5 (.request (.webAuthSet ⟨bobsBrowser, "auto".toList, "oidc".toList, "Bob".toList, none⟩)),
   .run 5 .plain, .run 5 .plain]

/-- How the evening ends. -/
theorem signInEvening_ends : ∃ w, exec (signInStep plainWorld) (.init ∅ ()) signInEvening = some w
    ∧ (∃ ident, w.shared.webIdentities.lookup bobsBrowser = some ident)
    ∧ (bobsBrowser, webAuthLine plainWorld.lib { newWebAuth "auto".toList "oidc".toList "Bob".toList with
        oidcSub := some "bob".toList }) ∈ w.shared.sent
    ∧ ∃ result, w.shared.files.lookup (pendingPath plainWorld.st.dir "a1".toList) = some (.google result)
      ∧ result.status = "ok".toList := by
  have hfacts : (exec (signInStep plainWorld) (.init ∅ ()) signInEvening).map (fun w =>
      ((w.shared.webIdentities.lookup bobsBrowser).isSome,
        decide ((bobsBrowser, webAuthLine plainWorld.lib { newWebAuth "auto".toList "oidc".toList "Bob".toList with
          oidcSub := some "bob".toList }) ∈ w.shared.sent),
        (w.shared.files.lookup (pendingPath plainWorld.st.dir "a1".toList)).map OAuthFile.completed))
      = some (true, true, some true) := by decide +kernel
  obtain ⟨w, hrun, hw⟩ := Option.map_eq_some_iff.mp hfacts
  simp only [Prod.mk.injEq, decide_eq_true_eq, Option.map_eq_some_iff] at hw
  obtain ⟨hident, hsent, f, hf, hok⟩ := hw
  refine ⟨w, hrun, Option.isSome_iff_exists.mp hident, hsent, ?_⟩
  cases f with
  | google result => exact ⟨result, hf, of_decide_eq_true hok⟩
  | web pending => cases hok
  | other => cases hok

theorem noFiles (place : Text) (f : OAuthFile) (h : (∅ : Table Text OAuthFile).lookup place = some f) :
    f.unfinished = true := by
  cases h

theorem identities_traceable_bob :
    ∃ w, exec (signInStep plainWorld) (.init ∅ ()) signInEvening = some w
      ∧ ∃ ident, w.shared.webIdentities.lookup bobsBrowser = some ident
        ∧ ∃ p, ident.provider = p.method
          ∧ Traceable plainWorld (signInTalk plainWorld ∅ () signInEvening) bobsBrowser p ident := by
  obtain ⟨w, hrun, ⟨ident, hident⟩, -, -⟩ := signInEvening_ends
  exact ⟨w, hrun, ident, hident, identities_traceable noFiles hrun hident⟩

theorem announced_identity_traceable_bob :
    ∃ w line wa, exec (signInStep plainWorld) (.init ∅ ()) signInEvening = some w
      ∧ (bobsBrowser, line) ∈ w.shared.sent ∧ line = webAuthLine plainWorld.lib wa ∧ ∀ p sub, wa.sub p = some sub →
      wa.method = p.method ∧ wa.password = none ∧ (∀ p', p' ≠ p → wa.sub p' = none)
        ∧ ∃ ident, ident.sub = sub ∧ wa.providerEmail p = ident.email ∧ wa.caps = ident.caps
          ∧ Traceable plainWorld (signInTalk plainWorld ∅ () signInEvening) (Text.trim bobsBrowser) p ident := by
  obtain ⟨w, hrun, -, hsent, -⟩ := signInEvening_ends
  obtain ⟨-, wa, hline, hwa⟩ := announced_identity_traceable noFiles hrun hsent
  exact ⟨w, _, wa, hrun, hsent, hline, hwa⟩

theorem completed_files_traceable_ann :
    ∃ t path result, path = pendingPath plainWorld.st.dir "a1".toList ∧ result.status = "ok".toList
      ∧ FileSignedIn plainWorld.st (signInTalk plainWorld ∅ () signInEvening t) path result := by
  obtain ⟨w, hrun, -, -, result, hfile, hok⟩ := signInEvening_ends
  have hfile : w.shared.files.lookup (plainWorld.locate (pendingPath plainWorld.st.dir "a1".toList))
      = some (.google result) := hfile
  obtain ⟨t, path, hpath, hsigned⟩ := completed_files_traceable noFiles hrun hfile hok
  exact ⟨t, path, result, hpath, hok, hsigned⟩

end

end Slopmud.Web
