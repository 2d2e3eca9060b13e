import Slopmud.Proof.Dialogues

/-!
# The way into the world

Every function of `handle_conn` is gone through once: after any dialogue that
accounts for its local variables it names a section only when it is the turn of
that section, and the local variables that it returns are accounted for again.
-/

namespace Slopmud.Broker

open Slopmud.Sbc Slopmud.Shard Machine Program Telnet Dialogue

variable {Raw Auth : Type} {cfg : BrokerConfig Raw Auth} {k : ConnId} {d d' d'' : Dialogue Auth}

/-! ## The rules -/

/-- How a round of the loops leaves the dialogue. -/
def FlowSound (cfg : BrokerConfig Raw Auth) (k : ConnId) (d : Dialogue Auth) : Flow Auth → Prop
  | .next c => c.Sound cfg k d
  | .leave _ => NotEntered d ∨ Entered cfg k d
  | .fail => True

/-- A program of the connection after this dialogue. -/
def Talks (cfg : BrokerConfig Raw Auth) (k : ConnId) (d : Dialogue Auth) (p : Task Auth (Flow Auth)) : Prop :=
  Safe (.history (Asks cfg k) (FlowSound cfg k)) d p

/-- A program that neither reads, lists or sends anything, and what is known after it. -/
def Prepares {α : Type} (cfg : BrokerConfig Raw Auth) (k : ConnId) (d : Dialogue Auth) (p : Task Auth α)
    (Q : Dialogue Auth → α → Prop) : Prop :=
  Safe (.history (Asks cfg k) fun d' a => Silent d d' ∧ Q d' a) d p

section

variable {α β : Type} {post : Dialogue Auth → β → Prop} {Q : Dialogue Auth → α → Prop}

theorem silent_of_free {o : Section Auth} (ho : o.free = true) : o.silent = true := by
  unfold Section.free at ho
  split at ho
  · rfl
  · rfl
  · rfl
  · exact ho

theorem asks_free {o : Section Auth} (ho : o.free = true) : Asks cfg k d o := by
  cases o with
  | acct o =>
    cases o with
    | insertRec _ _ => cases ho
    | bindGoogle _ => cases ho
    | _ => trivial
  | ban o =>
    cases o with
    | isCharBanned _ _ => cases ho
    | _ => trivial
  | sess o =>
    cases o with
    | insert _ _ _ => cases ho
    | remove _ => cases ho
    | _ => trivial
  | shard o =>
    cases o with
    | send _ _ => cases ho
    | _ => trivial
  | recv _ => cases ho
  | _ => trivial

theorem prepares_asked {o : Section Auth} (ho : o.silent = true) (hok : Asks cfg k d o) :
    Prepares cfg k d (op o) fun d' r => Answered d' o r :=
  ⟨hok, fun r _ => ⟨silent_append ho r, answered_append d o r⟩⟩

theorem prepares_op {o : Section Auth} (ho : o.free = true) :
    Prepares cfg k d (op o) fun d' r => Answered d' o r :=
  prepares_asked (silent_of_free ho) (asks_free ho)

theorem prepares_pure {a : α} (h : Q d a) : Prepares cfg k d (pure a : Task Auth α) Q := ⟨.refl d, h⟩

/-- **The rule for a silent beginning.** -/
theorem Prepares.safe {p : Task Auth α} {f : α → Task Auth β} (hp : Prepares cfg k d p Q)
    (hf : ∀ a d', Silent d d' → Q d' a → Safe (.history (Asks cfg k) post) d' (f a)) :
    Safe (.history (Asks cfg k) post) d (p >>= f) :=
  Safe.bind (Q := fun d' a => Silent d d' ∧ Q d' a) hp fun d' a h => hf a d' h.1 h.2

theorem Prepares.talks {p : Task Auth α} {f : α → Task Auth (Flow Auth)} (hp : Prepares cfg k d p Q)
    (hf : ∀ a d', Silent d d' → Q d' a → Talks cfg k d' (f a)) : Talks cfg k d (p >>= f) :=
  hp.safe hf

theorem Prepares.bind {p : Task Auth α} {f : α → Task Auth β} {Q' : Dialogue Auth → β → Prop}
    (hp : Prepares cfg k d p Q) (hf : ∀ a d', Silent d d' → Q d' a → Prepares cfg k d' (f a) Q') :
    Prepares cfg k d (p >>= f) Q' := by
  refine hp.safe fun a d' hs hq => ?_
  exact Safe.mono (C := .history (Asks cfg k) fun d'' b => Silent d' d'' ∧ Q' d'' b) (hf a d' hs hq)
    fun d'' b h => ⟨hs.trans h.1, h.2⟩

end

section

open Handler

variable {c : Conn Auth}

theorem talks_next (h : c.Sound cfg k d) : Talks cfg k d (pure (.next c)) := h

theorem talks_fail : Talks cfg k d (pure (.fail : Flow Auth)) := trivial

theorem prepares_send (msg : Bytes) : Prepares cfg k d (send k msg) fun _ _ => True :=
  ⟨trivial, fun r _ => ⟨silent_append rfl r, trivial⟩⟩

theorem prepares_say (msg : Text) : Prepares cfg k d (say k msg) fun _ _ => True := prepares_send _

theorem talks_answer (msg : String) (h : c.Sound cfg k d) : Talks cfg k d (answer k msg c) :=
  (prepares_say msg.toList).talks fun _ _ hs _ => talks_next (h.silent hs)

theorem prepares_isCharBanned {n : Text} (h : NameGiven d n) :
    Prepares cfg k d (isCharBanned k n) fun d' r => Answered d' (.ban (.isCharBanned k n)) r :=
  prepares_asked (o := .ban (.isCharBanned k n)) rfl h

theorem prepares_insertAccount {r : AccountRec} (h : Answered d (.ban (.isCharBanned k r.name)) none) :
    Prepares cfg k d (insertAccount k r) fun d' saved => Answered d' (.acct (.insertRec k r)) saved :=
  prepares_asked (o := .acct (.insertRec k r)) rfl h

theorem prepares_bindGoogle {r : AccountRec} (h : Answered d (.ban (.isCharBanned k r.name)) none) :
    Prepares cfg k d (op (Section.acct (.bindGoogle r))) fun d' bound =>
      Answered d' (.acct (.bindGoogle r)) bound :=
  prepares_asked (o := .acct (.bindGoogle r)) rfl h

/-- A line for the event log is written, or it ends the handler. -/
theorem talks_logged {p : Task Auth (Flow Auth)} (h : ∀ d', Silent d d' → Talks cfg k d' p) :
    Talks cfg k d (do if ← logged then p else pure .fail) := by
  refine (prepares_op rfl).talks fun ok d₁ h₁ _ => ?_
  cases ok with
  | true => exact h d₁ h₁
  | false => exact talks_fail

theorem talks_banned (h : NotEntered d) : Talks cfg k d (banned k c) :=
  talks_logged fun _ h₁ => (prepares_say _).talks fun _ _ h₂ _ => Or.inl (h.silent (h₁.trans h₂))

/-! ### The way in -/

theorem prepares_waitForSavedPlayer (n : Text) (rounds : Nat) :
    Prepares cfg k d (waitForSavedPlayer k n rounds) fun _ _ => True := by
  induction rounds generalizing d with
  | zero => exact ⟨trivial, fun r _ => ⟨silent_append rfl r, trivial⟩⟩
  | succ rounds ih =>
    refine (prepares_op rfl).bind fun saved d₁ _ _ => ?_
    cases saved with
    | some saved => exact prepares_pure trivial
    | none =>
      refine (prepares_op rfl).bind fun passed d₂ _ _ => ?_
      split
      · exact prepares_pure trivial
      · exact ih

theorem safe_said {β : Type} {post : Dialogue Auth → β → Prop} {o : Section Auth} {f : o.R → Task Auth β}
    (hok : Asks cfg k d o) (h : ∀ r, Safe (.history (Asks cfg k) post) (d ++ [⟨o, r⟩]) (f r)) :
    Safe (.history (Asks cfg k) post) d (op o >>= f) := ⟨hok, fun r _ => h r⟩

theorem Admitted.grows {info : SessionInfo Auth} (h : Admitted cfg k d info) (hg : Grows d d') :
    Admitted cfg k d' info := by
  obtain ⟨blob, hblob, hcred⟩ := h.credential
  exact ⟨h.address.grows hg, h.ipAllowed.grows hg, h.nameAllowed.grows hg, blob, hblob, hcred.grows hg⟩

theorem later_append {x : Exchange (Section Auth) Section.R} (h : readOf x = []) : Later d (d ++ [x]) :=
  ⟨fun _ hx => List.mem_append_left _ hx, by rw [reads_concat, h, List.append_nil]⟩

/-- Listing and attaching, unless the handler panics in between. -/
theorem lists_enterWorld {info : SessionInfo Auth} {skipped : Bool} (hout : NotEntered d)
    (hinfo : Admitted cfg k d info) :
    Safe (.history (Asks cfg k) fun d' entered => Later d d' ∧ (entered = true → Entered cfg k d')) d
      (enterWorld cfg k info skipped) := by
  refine (prepares_op rfl).safe fun held d₁ hs _ => ?_
  obtain ⟨hlist, hmsgs⟩ := hout.silent hs
  have hinfo := hinfo.grows hs.grows
  refine safe_said ⟨rfl, ⟨hlist, hmsgs⟩, hinfo.address, hinfo.ipAllowed, hinfo.nameAllowed,
    hinfo.credential⟩ fun _ => ?_
  have hlisted : listings (d₁ ++ [⟨.sess (.insert k { info with held } skipped), ()⟩]) = [{ info with held }] := by
    rw [listings_concat, hlist]
    rfl
  have hqueued : messages (d₁ ++ [⟨.sess (.insert k { info with held } skipped), ()⟩]) = [] := by
    rw [messages_concat, hmsgs]
    rfl
  have hlater : Later d (d₁ ++ [⟨.sess (.insert k { info with held } skipped), ()⟩]) :=
    hs.toLater.trans (later_append rfl)
  refine (prepares_op rfl).safe fun ok d₂ h₂ _ => ?_
  have hlater := hlater.trans h₂.toLater
  have hlisted := h₂.listings.trans hlisted
  have hqueued := h₂.messages.trans hqueued
  cases ok with
  | false =>
    refine ⟨hlater, ?_⟩
    rintro ⟨⟩
  | true =>
    refine safe_said ⟨rfl, hqueued, _, hlisted, rfl⟩ fun _ => ?_
    refine ⟨hlater.trans (later_append rfl), fun _ => ⟨{ info with held }, [], ?_, ?_⟩⟩
    · exact (listings_concat _ _).trans ((List.append_nil _).trans hlisted)
    · refine (messages_concat _ _).trans ?_
      rw [hqueued]
      rfl

theorem talks_enterWorld {info : SessionInfo Auth} {skipped : Bool} (hout : NotEntered d)
    (hinfo : Admitted cfg k d info) (hc : c.Grounded cfg k d) (hstate : c.state = .inWorld) :
    Talks cfg k d (do if ← enterWorld cfg k info skipped then pure (.next c) else pure .fail) := by
  refine Safe.bind (lists_enterWorld hout hinfo) ?_
  rintro d' entered ⟨hl, hentered⟩
  cases entered with
  | false => exact talks_fail
  | true =>
    refine ⟨hc.later hl, ?_⟩
    rw [Conn.AtState, hstate]
    exact hentered rfl

/-- After a login: the world, or the rest of character creation. -/
theorem talks_enterOrCreate (lead : String) (hout : NotEntered d) (hc : c.Grounded cfg k d)
    (hauth : c.Authenticated cfg k d) : Talks cfg k d (enterOrCreate cfg k lead c) := by
  refine (prepares_waitForSavedPlayer _ _).talks fun saved d₁ hs _ => ?_
  have hc := hc.later hs.toLater
  have hauth := hauth.grows hs.grows
  cases saved with
  | none => exact talks_answer _ ⟨{ hc with }, hout.silent hs, hauth.vetted, hauth.entitled⟩
  | some saved =>
    obtain ⟨n, blob, hn, hblob, hban, hcred⟩ := hauth.entitled
    refine talks_enterWorld (hout.silent hs) ⟨hc.speaks, hc.vetted hauth.vetted, ?_, blob, hblob, ?_⟩
      { hc with } rfl
    · rw [hn]
      exact hban
    · rw [hn]
      exact hcred

/-- The local variables after a login with an identity. -/
theorem Conn.Grounded.setIdentity (h : c.Grounded cfg k d) (p : Provider) (sub : Text)
    (email : Option Text) : (c.setIdentity p sub email).Grounded cfg k d := by
  cases p with
  | google => exact { h with }
  | oidc => exact { h with }

theorem Conn.Grounded.authenticated (h : c.Grounded cfg k d) (name method : Text) (blob : Auth) :
    (c.authenticated name method blob).Grounded cfg k d := { h with }

theorem proxyChecked_setIdentity (p : Provider) (sub : Text) (email : Option Text) :
    (c.setIdentity p sub email).proxyChecked = c.proxyChecked := by
  cases p <;> rfl

/-- A login that was accepted. -/
structure LoggedInAs (cfg : BrokerConfig Raw Auth) (k : ConnId) (d : Dialogue Auth) (n : Text) (c : Conn Auth) :
    Prop where
  grounded : c.Grounded cfg k d
  vetted : c.proxyChecked = true
  named : c.name = some n
  credential : ∃ blob, c.authBlob = some blob ∧ Credential cfg k d n blob

theorem LoggedInAs.authenticated {n : Text} (h : LoggedInAs cfg k d n c)
    (hban : Answered d (.ban (.isCharBanned k n)) none) : c.Authenticated cfg k d := by
  obtain ⟨blob, hblob, hcred⟩ := h.credential
  exact ⟨h.vetted, n, blob, h.named, hblob, hban, hcred⟩

theorem loggedInAs_loginLinked {p : Provider} {r : AccountRec} {n sub : Text} (email : Option Text)
    (caps : Option (List Text)) (hc : c.Grounded cfg k d) (hchecked : c.proxyChecked = true)
    (hr : Answered d (.acct (.lookup k n)) (some r)) (hlinked : r.sub p = some sub)
    (hsub : Vouched cfg k d p sub) : LoggedInAs cfg k d n (loginLinked cfg p r n sub email caps c) where
  grounded := (hc.setIdentity p sub _).authenticated _ _ _
  vetted := (proxyChecked_setIdentity p sub _).trans hchecked
  named := rfl
  credential := ⟨_, rfl, .linked p r sub _ caps hr hlinked hsub⟩

theorem prepares_createLinked {p : Provider} {n sub : Text} (email : Option Text) (caps : Option (List Text))
    (now : Nat) (hc : c.Grounded cfg k d) (hchecked : c.proxyChecked = true)
    (hban : Answered d (.ban (.isCharBanned k n)) none) (habsent : Absent k d n)
    (hsub : Vouched cfg k d p sub) :
    Prepares cfg k d (createLinked cfg k p n sub email caps c now) fun d' r =>
      ∀ c', r = some c' → LoggedInAs cfg k d' n c' := by
  refine (prepares_insertAccount hban).bind fun saved d₁ hs hsaved => ?_
  split
  · next hyes =>
    subst hyes
    refine prepares_pure ?_
    rintro c' ⟨⟩
    exact ⟨((hc.later hs.toLater).setIdentity p sub _).authenticated _ _ _,
      (proxyChecked_setIdentity p sub _).trans hchecked, rfl, _, rfl,
      .newLink p sub email caps now (hsub.grows hs.grows) (habsent.grows hs.grows) hsaved⟩
  · refine prepares_pure ?_
    rintro c' ⟨⟩

/-! ### `WEB_AUTH` -/

def WebAuthSound (cfg : BrokerConfig Raw Auth) (k : ConnId) (n : Text) (d : Dialogue Auth) :
    WebAuth Auth → Prop
  | .refused c => c.Sound cfg k d
  | .failed => True
  | .accepted c => LoggedInAs cfg k d n c

theorem prepares_refuse {n : Text} (msg : String) (h : c.Sound cfg k d) :
    Prepares cfg k d (refuse k msg c) (WebAuthSound cfg k n) :=
  (prepares_say msg.toList).bind fun _ _ hs _ => prepares_pure (h.silent hs)

theorem prepares_createPassword {req : WebAuthReq} {n : Text} (h : c.Sound cfg k d)
    (hchecked : c.proxyChecked = true) (hban : Answered d (.ban (.isCharBanned k n)) none)
    (hreq : Requested cfg k d req) :
    Prepares cfg k d (createPassword cfg k req n c) (WebAuthSound cfg k n) := by
  dsimp only [createPassword]
  split
  · exact prepares_refuse _ h
  · refine (prepares_op rfl).bind fun taken d₁ h₁ htaken => ?_
    split
    · exact prepares_refuse _ (h.silent h₁)
    · next hno =>
      rw [Bool.not_eq_true] at hno
      subst hno
      refine (prepares_op rfl).bind fun hash d₂ h₂ hhash => ?_
      cases hash with
      | none => exact prepares_pure trivial
      | some hash =>
        refine (prepares_op rfl).bind fun now d₃ h₃ _ => ?_
        have hban := hban.grows (h₁.trans (h₂.trans h₃)).grows
        refine (prepares_insertAccount hban).bind fun saved d₄ h₄ hsaved => ?_
        have h₂₄ := h₃.trans h₄
        have h₁₄ := h₂.trans h₂₄
        have hall := h₁.trans h₁₄
        split
        · next hyes =>
          subst hyes
          exact prepares_pure ⟨(h.grounded.later hall.toLater).authenticated _ _ _, hchecked, rfl, _, rfl,
            .newPassword _ hash now req.caps (.requested req (hreq.grows hall.grows) rfl) (hhash.grows h₂₄.grows)
              (Or.inl (htaken.grows h₁₄.grows)) hsaved⟩
        · exact prepares_pure trivial

theorem prepares_loginPassword {req : WebAuthReq} {n : Text} (h : c.Sound cfg k d)
    (hchecked : c.proxyChecked = true) (hreq : Requested cfg k d req) :
    Prepares cfg k d (loginPassword cfg k req n c) (WebAuthSound cfg k n) := by
  refine (prepares_op rfl).bind fun account d₁ h₁ haccount => ?_
  cases account with
  | none => exact prepares_refuse _ (h.silent h₁)
  | some r =>
    dsimp only
    split
    · exact prepares_refuse _ (h.silent h₁)
    · next hash hhash =>
      split
      · next hverify =>
        exact prepares_pure ⟨(h.grounded.later h₁.toLater).authenticated _ _ _, hchecked, rfl, _, rfl,
          .password r hash _ haccount hhash hverify (.requested req (hreq.grows h₁.grows) rfl)⟩
      · exact prepares_refuse _ (h.silent h₁)

theorem prepares_webAuthIdentity (p : Provider) (create : Bool) {req : WebAuthReq} {n : Text}
    (h : c.Sound cfg k d) (hchecked : c.proxyChecked = true)
    (hban : Answered d (.ban (.isCharBanned k n)) none) (hreq : Requested cfg k d req) :
    Prepares cfg k d (webAuthIdentity cfg k p create req n c) (WebAuthSound cfg k n) := by
  dsimp only [webAuthIdentity]
  split
  · exact (prepares_say _).bind fun _ _ hs _ => prepares_pure (h.silent hs)
  · refine (prepares_op rfl).bind fun now d₁ h₁ _ => ?_
    refine (prepares_op rfl).bind fun account d₂ h₂ haccount => ?_
    have hall := h₁.trans h₂
    have hsub := (Vouched.requested p req hreq).grows hall.grows
    have hc := h.grounded.later hall.toLater
    cases create with
    | false =>
      cases account with
      | none => exact prepares_refuse _ (h.silent hall)
      | some r =>
        dsimp only
        split
        · next hlinked => exact prepares_pure (loggedInAs_loginLinked _ _ hc hchecked haccount hlinked hsub)
        · exact (prepares_say _).bind fun _ _ hs _ => prepares_pure (h.silent (hall.trans hs))
    | true =>
      cases account with
      | some r => exact prepares_refuse _ (h.silent hall)
      | none =>
        have hnew := prepares_createLinked (req.providerEmail p) req.caps now hc hchecked
          (hban.grows hall.grows) (Or.inr haccount) hsub
        refine hnew.bind fun c' d₃ h₃ hc' => ?_
        cases c' with
        | none => exact prepares_pure trivial
        | some c' => exact prepares_pure (hc' c' rfl)

theorem prepares_webAuthAs (action method : Text) {req : WebAuthReq} {n : Text} (h : c.Sound cfg k d)
    (hchecked : c.proxyChecked = true) (hban : Answered d (.ban (.isCharBanned k n)) none)
    (hreq : Requested cfg k d req) :
    Prepares cfg k d (webAuthAs cfg k action method req n c) (WebAuthSound cfg k n) := by
  dsimp only [webAuthAs]
  split
  · split
    · exact prepares_createPassword h hchecked hban hreq
    · split
      · exact prepares_loginPassword h hchecked hreq
      · exact prepares_refuse _ h
  · split
    · split
      · exact prepares_webAuthIdentity _ _ h hchecked hban hreq
      · exact prepares_refuse _ h
    · exact prepares_refuse _ h

/-- At the name prompt, behind the check of the address. -/
structure AtPrompt (cfg : BrokerConfig Raw Auth) (k : ConnId) (d : Dialogue Auth) (c : Conn Auth) : Prop where
  grounded : c.Grounded cfg k d
  checked : c.proxyChecked = true
  state : c.state = .needName
  outside : NotEntered d

theorem AtPrompt.sound (h : AtPrompt cfg k d c) : c.Sound cfg k d := by
  refine ⟨h.grounded, ?_⟩
  rw [Conn.AtState, h.state]
  exact h.outside

theorem AtPrompt.silent (h : AtPrompt cfg k d c) (hs : Silent d d') : AtPrompt cfg k d' c :=
  ⟨h.grounded.later hs.toLater, h.checked, h.state, h.outside.silent hs⟩

theorem talks_webAuthNamed (action method : Text) {req : WebAuthReq} (n : Text) (h : AtPrompt cfg k d c)
    (hname : n.isEmpty = false → NameGiven d n) (hreq : Requested cfg k d req) :
    Talks cfg k d (webAuthNamed cfg k action method req n c) := by
  unfold webAuthNamed
  split
  · exact talks_answer _ h.sound
  · next hne =>
    refine (prepares_isCharBanned (hname (by simpa using hne))).talks fun ban d₁ h₁ hban => ?_
    cases ban with
    | some ban => exact talks_banned (h.outside.silent h₁)
    | none =>
      have hres := prepares_webAuthAs action method (h.silent h₁).sound h.checked hban (hreq.grows h₁.grows)
      refine hres.talks fun result d₂ h₂ hresult => ?_
      cases result with
      | refused c' => exact talks_next hresult
      | failed => exact talks_fail
      | accepted c' =>
        exact talks_enterOrCreate _ (h.outside.silent (h₁.trans h₂)) hresult.grounded
          (hresult.authenticated (hban.grows h₂.grows))

theorem prepares_resolveAuto (p : Provider) {req : WebAuthReq} (h : AtPrompt cfg k d c)
    (hreq : Requested cfg k d req) :
    Prepares cfg k d (resolveAuto k p req c) fun d' r =>
      AtPrompt cfg k d' r.1 ∧ ∀ action n, r.2 = some (action, n) → NameGiven d' n := by
  have hpending : ∀ {d'}, Silent d d' → AtPrompt cfg k d' { c with
      pendingAutoWebauth := some ⟨p, Text.trim ((req.sub p).getD []), req.providerEmail p, req.caps⟩ } := by
    intro d' hs
    have hs' := h.silent hs
    refine ⟨{ hs'.grounded with pending := ?_ }, hs'.checked, hs'.state, hs'.outside⟩
    rintro pending ⟨⟩
    exact (Vouched.requested p req hreq).grows hs.grows
  have hnone : ∀ {d' : Dialogue Auth} {action n : Text},
      (none : Option (Text × Text)) = some (action, n) → NameGiven d' n := by
    rintro d' action n ⟨⟩
  dsimp only [resolveAuto]
  split
  · exact (prepares_say _).bind fun _ _ hs _ => prepares_pure ⟨h.silent hs, fun _ _ => hnone⟩
  · refine (prepares_op rfl).bind fun names d₁ h₁ hnames => ?_
    split
    · split
      · exact prepares_pure ⟨hpending h₁, fun _ _ => hnone⟩
      · next chosen hchosen =>
        have hname : IsName chosen := by
          obtain ⟨hsome, hne⟩ := Option.filter_eq_some_iff.mp hchosen
          obtain ⟨typed, -, rfl⟩ := Option.map_eq_some_iff.mp hsome
          exact isName_sanitizeName (by simpa using hne)
        have hgiven : ∀ {d' : Dialogue Auth} {action action' n : Text},
            some (action', chosen) = some (action, n) → NameGiven d' n := by
          rintro d' action action' n ⟨⟩
          exact .sanitized hname
        refine (prepares_op rfl).bind fun account d₂ h₂ _ => ?_
        have hall := h₁.trans h₂
        cases account with
        | none => exact prepares_pure ⟨h.silent hall, fun _ _ => hgiven⟩
        | some r =>
          dsimp only
          split
          · exact prepares_pure ⟨h.silent hall, fun _ _ => hgiven⟩
          · refine (prepares_say _).bind fun _ d₃ h₃ _ => prepares_pure ⟨?_, fun _ _ => hnone⟩
            have hp := hpending (hall.trans h₃)
            exact ⟨{ hp.grounded with }, hp.checked, rfl, hp.outside⟩
    · refine prepares_pure ⟨h.silent h₁, ?_⟩
      rintro action n ⟨⟩
      exact .linked p _ _ hnames List.mem_cons_self
    · exact (prepares_say _).bind fun _ _ hs _ => prepares_pure ⟨h.silent (h₁.trans hs), fun _ _ => hnone⟩

theorem talks_webAuth {line : List Byte} {rest : Text} (h : AtPrompt cfg k d c)
    (htrusted : c.trustedProxyPeer = true) (hline : line <:+: typed d)
    (hrest : Text.stripPrefix "WEB_AUTH ".toList (trimmed line) = some rest) :
    Talks cfg k d (webAuth cfg k line rest c) := by
  unfold webAuth
  split
  · exact talks_answer _ h.sound
  · next req hparse =>
    have hreq : Requested cfg k d req :=
      ⟨h.grounded.trusted htrusted, line, rest, hline.map Byte.val, hrest, hparse⟩
    refine (prepares_op rfl).talks fun _ d₁ h₁ _ => ?_
    dsimp only
    split
    · refine (prepares_resolveAuto _ (h.silent h₁) (hreq.grows h₁.grows)).talks fun r d₂ h₂ hr => ?_
      obtain ⟨c', resolved⟩ := r
      obtain ⟨hr, hname⟩ := hr
      cases resolved with
      | none => exact talks_next hr.sound
      | some resolved =>
        exact talks_webAuthNamed _ _ _ hr (fun _ => hname _ _ rfl) (hreq.grows (h₁.trans h₂).grows)
    · exact talks_webAuthNamed _ _ _ (h.silent h₁) (fun hne => .sanitized (isName_sanitizeName hne))
        (hreq.grows h₁.grows)

/-! ### The name prompt -/

theorem talks_pendingLogin {pending : PendingAutoWebAuth} {n : Text} (h : AtPrompt cfg k d c)
    (hban : Answered d (.ban (.isCharBanned k n)) none) (hpending : c.pendingAutoWebauth = some pending) :
    Talks cfg k d (pendingLogin cfg k pending n c) := by
  have hsub := h.grounded.pending pending hpending
  have henter : ∀ {d' c'}, Silent d d' → LoggedInAs cfg k d' n c' →
      Talks cfg k d' (enterOrCreate cfg k "\r\n" { c' with pendingAutoWebauth := none }) := by
    intro d' c' hs hlogin
    have hauth := hlogin.authenticated (hban.grows hs.grows)
    refine talks_enterOrCreate _ (h.outside.silent hs) { hlogin.grounded with pending := ?_ }
      ⟨hauth.vetted, hauth.entitled⟩
    rintro p ⟨⟩
  obtain ⟨p, sub, email, caps⟩ := pending
  refine (prepares_op rfl).talks fun account d₁ h₁ haccount => ?_
  cases account with
  | some r =>
    dsimp only
    split
    · next hlinked =>
      exact henter h₁ (loggedInAs_loginLinked email caps (h.silent h₁).grounded h.checked haccount hlinked
        (hsub.grows h₁.grows))
    · exact talks_answer _ (h.silent h₁).sound
  | none =>
    refine (prepares_op rfl).talks fun now d₂ h₂ _ => ?_
    have hall := h₁.trans h₂
    have hnew := prepares_createLinked email caps now (h.silent hall).grounded h.checked
      (hban.grows hall.grows) (Or.inr (haccount.grows h₂.grows)) (hsub.grows hall.grows)
    refine hnew.talks fun c' d₃ h₃ hc' => ?_
    cases c' with
    | none => exact talks_fail
    | some c' => exact henter (hall.trans h₃) (hc' c' rfl)

theorem talks_chooseName (line : Text) (h : AtPrompt cfg k d c) :
    Talks cfg k d (chooseName cfg k line c) := by
  dsimp only [chooseName]
  split
  · exact talks_answer _ h.sound
  · next hne =>
    have hname : IsName (sanitizeName line) := isName_sanitizeName (by simpa using hne)
    refine (prepares_isCharBanned (.sanitized hname)).talks fun ban d₁ h₁ hban => ?_
    cases ban with
    | some ban => exact talks_banned (h.outside.silent h₁)
    | none =>
      dsimp only
      have h := h.silent h₁
      split
      · next pending hpending => exact talks_pendingLogin h hban hpending
      · exact talks_answer _ ⟨{ h.grounded with }, h.outside, h.checked, _, rfl, hban⟩

theorem talks_nameLine {lineBytes : List Byte} {line : Text} (h : AtPrompt cfg k d c)
    (hline : lineBytes <:+: typed d) (htrimmed : trimmed lineBytes = line) :
    Talks cfg k d (nameLine cfg k lineBytes line c) := by
  subst htrimmed
  unfold nameLine
  split
  · next htrusted hrest => exact talks_webAuth h htrusted hline hrest
  · exact talks_chooseName _ h

theorem talks_needName {lineBytes : List Byte} (h : c.Sound cfg k d) (hstate : c.state = .needName)
    (hline : lineBytes <:+: typed d) : Talks cfg k d (needName cfg k lineBytes c) := by
  have hout : NotEntered d := by
    have hat := h.atState
    rwa [Conn.AtState, hstate] at hat
  have hg := h.grounded
  dsimp only [needName]
  split
  · exact talks_next h
  · split
    · next ip port hproxied =>
      -- a `PROXY` line, which only a connection from this host may send
      simp only [proxied, Option.ite_none_right_eq_some, Bool.and_eq_true, Bool.not_eq_true'] at hproxied
      obtain ⟨⟨⟨hunchecked, hloop⟩, -⟩, hparse⟩ := hproxied
      have hspeaks : SpeaksFor cfg k d ip :=
        .announced lineBytes port (hg.unchecked hunchecked hloop) (hline.map Byte.val) hparse
      refine talks_logged fun d₀ h₀ => ?_
      refine (prepares_op rfl).talks fun ban d₁ h₁ hban => ?_
      have h₁ := h₀.trans h₁
      cases ban with
      | some ban => exact talks_banned (hout.silent h₁)
      | none =>
        have hg := hg.later h₁.toLater
        have hg' : ({ c with peerIp := ip, peerPort := port, proxyChecked := true } : Conn Auth).Grounded cfg k d₁ :=
          { hg with speaks := hspeaks.grows h₁.grows, unchecked := by simp, vetted := fun _ => hban }
        refine talks_next ⟨hg', ?_⟩
        simp only [Conn.AtState, hstate]
        exact hout.silent h₁
    · split
      · next hchecked => exact talks_nameLine ⟨hg, hchecked, hstate, hout⟩ hline rfl
      · refine (prepares_op rfl).talks fun ban d₁ h₁ hban => ?_
        cases ban with
        | some ban => exact talks_banned (hout.silent h₁)
        | none =>
          have hg := hg.later h₁.toLater
          have hg' : ({ c with proxyChecked := true } : Conn Auth).Grounded cfg k d₁ :=
            { hg with unchecked := by simp, vetted := fun _ => hban }
          exact talks_nameLine ⟨hg', rfl, hstate, hout.silent h₁⟩ (h₁.typed_eq ▸ hline) rfl

/-! ### The way to an account -/

theorem prepares_echoOn (c : Conn Auth) :
    Prepares cfg k d (echoOn k c) fun _ c' => ∃ b, c' = { c with passwordEchoDisabled := b } := by
  unfold echoOn
  split
  · exact (prepares_send _).bind fun _ _ _ _ => prepares_pure ⟨false, rfl⟩
  · exact prepares_pure ⟨c.passwordEchoDisabled, rfl⟩

/-- What a prompt for a password, or for a login, knows. -/
structure AtName (cfg : BrokerConfig Raw Auth) (k : ConnId) (d : Dialogue Auth) (c : Conn Auth) : Prop where
  grounded : c.Grounded cfg k d
  outside : NotEntered d
  named : c.Named k d

theorem AtName.silent (h : AtName cfg k d c) (hs : Silent d d') : AtName cfg k d' c :=
  ⟨h.grounded.later hs.toLater, h.outside.silent hs, h.named.grows hs.grows⟩

/-- The states in which no more is known. -/
theorem AtName.sound (h : AtName cfg k d c)
    (hstate : c.state = .needAuthMethod ∨ c.state = .needPasswordLogin ∨ c.state = .needGoogleWait) :
    c.Sound cfg k d := by
  refine ⟨h.grounded, ?_⟩
  rw [Conn.AtState]
  rcases hstate with hstate | hstate | hstate <;> rw [hstate] <;> exact ⟨h.outside, h.named⟩

theorem talks_choosePassword {account : Option AccountRec} (h : AtName cfg k d c)
    (hstate : c.state = .needAuthMethod) (haccount : Answered d (.acct (.lookup k (c.name.getD []))) account) :
    Talks cfg k d (choosePassword cfg k account c) := by
  dsimp only [choosePassword]
  have hanswer : ∀ msg, Talks cfg k d (answer k msg { c with authMethod := some "password".toList }) := by
    intro msg
    have h' : AtName cfg k d { c with authMethod := some "password".toList } :=
      ⟨{ h.grounded with }, h.outside, h.named.vetted, h.named.allowed⟩
    exact talks_answer _ (h'.sound (Or.inl hstate))
  split
  · refine (prepares_send _).talks fun _ d₁ h₁ _ => talks_next ?_
    have h := h.silent h₁
    exact ⟨{ h.grounded with }, h.outside, ⟨h.named.vetted, h.named.allowed⟩, haccount.grows h₁.grows⟩
  · split
    · split
      · exact hanswer _
      · exact hanswer _
    · refine (prepares_send _).talks fun _ d₁ h₁ _ => talks_next ?_
      have h := h.silent h₁
      exact ⟨{ h.grounded with }, h.outside, h.named.vetted, h.named.allowed⟩

theorem talks_chooseGoogle {account : Option AccountRec} (h : AtName cfg k d c)
    (hstate : c.state = .needAuthMethod) : Talks cfg k d (chooseGoogle cfg k account c) := by
  dsimp only [chooseGoogle]
  split
  · have h' : AtName cfg k d { c with authMethod := some "google".toList } :=
      ⟨{ h.grounded with }, h.outside, h.named.vetted, h.named.allowed⟩
    exact talks_answer _ (h'.sound (Or.inl hstate))
  · refine (prepares_op rfl).talks fun code d₁ h₁ hcode => ?_
    cases code with
    | none => exact talks_fail
    | some code =>
      refine (prepares_say _).talks fun _ d₂ h₂ _ => talks_next ?_
      have h := h.silent (h₁.trans h₂)
      refine ⟨{ h.grounded with code := ?_ }, h.outside, h.named.vetted, h.named.allowed⟩
      rintro code' ⟨⟩
      exact hcode.grows h₂.grows

theorem talks_needAuthMethod {lineBytes : List Byte} (h : AtName cfg k d c)
    (hstate : c.state = .needAuthMethod) (hline : lineBytes <:+: typed d)
    (hends : ∀ b ∈ lineBytes, isEol b = false) (hrest : c.linebuf <:+ typed d) :
    Talks cfg k d (needAuthMethod cfg k lineBytes c) := by
  dsimp only [needAuthMethod]
  have hsound := h.sound (Or.inl hstate)
  split
  · exact talks_next ⟨{ h.grounded with
      buffered := ⟨_, _, rfl, hrest, Or.inr ⟨lineBytes, rfl, hends, hline⟩⟩ }, h.outside⟩
  · split
    · exact talks_next hsound
    · refine (prepares_op rfl).talks fun account d₁ h₁ haccount => ?_
      have hsound := hsound.silent h₁
      split
      · exact talks_choosePassword (h.silent h₁) hstate haccount
      · split
        · exact talks_chooseGoogle (h.silent h₁) hstate
        · split
          · split
            · exact talks_answer _ hsound
            · exact talks_answer _ hsound
          · exact talks_answer _ hsound

theorem talks_giveUpGoogle (code msg : Text) (h : AtName cfg k d c) :
    Talks cfg k d (giveUpGoogle k code msg c) := by
  refine (prepares_op rfl).talks fun _ d₁ h₁ _ => ?_
  refine (prepares_say msg).talks fun _ d₂ h₂ _ => talks_next ?_
  have h := h.silent (h₁.trans h₂)
  refine ⟨{ h.grounded with code := ?_ }, h.outside, h.named.vetted, h.named.allowed⟩
  rintro code' ⟨⟩

theorem talks_googleSignedIn {code sub : Text} (email : Option Text) (now : Nat) (h : AtName cfg k d c)
    (hsub : Vouched cfg k d .google sub) : Talks cfg k d (googleSignedIn cfg k code sub email now c) := by
  obtain ⟨n, hn, hban⟩ := h.named.allowed
  have hname : (c.setIdentity .google sub email).name.getD [] = n := congrArg (Option.getD · []) hn
  refine (prepares_bindGoogle (hname.symm ▸ hban)).talks fun bound d₁ h₁ hbound => ?_
  rw [hname] at hbound
  cases bound with
  | taken => exact (prepares_say _).talks fun _ _ h₂ _ => Or.inl (h.outside.silent (h₁.trans h₂))
  | bound saved =>
    cases saved with
    | false => exact talks_fail
    | true =>
      refine (prepares_op rfl).talks fun _ d₂ h₂ _ => ?_
      have hall := h₁.trans h₂
      have hg := (h.silent hall).grounded.setIdentity .google sub email
      refine talks_enterOrCreate _ (h.outside.silent hall) { hg with code := ?_ } ⟨h.named.vetted, n, _, hn, rfl,
        hban.grows hall.grows, ?_⟩
      · rintro code' ⟨⟩
      · rw [hname]
        exact .bound sub email now (hsub.grows hall.grows) (hbound.grows h₂.grows)

theorem talks_checkGoogle {code : Text} (h : AtName cfg k d c) (hstate : c.state = .needGoogleWait)
    (hcode : c.googleOauthCode = some code) : Talks cfg k d (checkGoogle cfg k code c) := by
  refine (prepares_op rfl).talks fun found d₁ h₁ hfound => ?_
  have hsound := fun d' (hs : Silent d d') => (h.silent hs).sound (Or.inr (Or.inr hstate))
  cases found with
  | missing => exact talks_answer _ (hsound d₁ h₁)
  | corrupted => exact talks_answer _ (hsound d₁ h₁)
  | found pending =>
    refine (prepares_op rfl).talks fun now d₂ h₂ _ => ?_
    have hall := h₁.trans h₂
    split
    · exact talks_giveUpGoogle _ _ (h.silent hall)
    · split
      · exact talks_answer _ (hsound d₂ hall)
      · split
        · exact talks_giveUpGoogle _ _ (h.silent hall)
        · split
          · exact talks_answer _ (hsound d₂ hall)
          · next hok =>
            split
            · exact talks_answer _ (hsound d₂ hall)
            · next sub hsub =>
              have hstart := (h.grounded.code code hcode).grows hall.grows
              exact talks_googleSignedIn _ _ (h.silent hall) (.signedIn code sub pending hstart
                (hfound.grows h₂.grows) (not_not.mp hok) (Option.filter_eq_some_iff.mp hsub).1)

theorem talks_needGoogleWait {lineBytes : List Byte} (h : AtName cfg k d c)
    (hstate : c.state = .needGoogleWait) : Talks cfg k d (needGoogleWait cfg k lineBytes c) := by
  have hsound := h.sound (Or.inr (Or.inr hstate))
  dsimp only [needGoogleWait]
  split
  · exact talks_next hsound
  · split
    · exact talks_answer _ ⟨{ h.grounded with }, h.outside, h.named.vetted, h.named.allowed⟩
    · next code hcode =>
      split
      · exact talks_giveUpGoogle _ _ h
      · split
        · exact talks_checkGoogle h hstate hcode
        · exact talks_answer _ hsound

/-! ### Passwords -/

theorem trimAsciiWs_within (s : Bytes) : trimAsciiWs s <:+: s := by
  unfold trimAsciiWs
  have hback : ((s.dropWhile isAsciiWhitespace).reverse.dropWhile isAsciiWhitespace).reverse
      <+: s.dropWhile isAsciiWhitespace := by
    rw [← List.reverse_suffix, List.reverse_reverse]
    exact List.dropWhile_suffix _
  exact hback.isInfix.trans (List.dropWhile_suffix _).isInfix

/-- A password that is a line. -/
theorem supplied_line {lineBytes : List Byte} (hline : lineBytes <:+: typed d) :
    Supplied cfg k d (trimAsciiWs (values lineBytes)) :=
  .typed ((trimAsciiWs_within _).trans (hline.map Byte.val))

theorem Conn.Sound.echo (h : c.Sound cfg k d) (b : Bool) :
    ({ c with passwordEchoDisabled := b } : Conn Auth).Sound cfg k d :=
  ⟨{ h.grounded with }, h.atState.congr rfl rfl rfl rfl rfl⟩

theorem talks_tooSoon (wait : Nat) (prompt : String) (h : c.Sound cfg k d) :
    Talks cfg k d (tooSoon k wait prompt c) :=
  (prepares_send _).talks fun _ _ hs _ => talks_next ((h.silent hs).echo true)

theorem talks_badPassword (n : Text) (what prompt : String) (h : c.Sound cfg k d) :
    Talks cfg k d (badPassword k n what prompt c) := by
  refine (prepares_op rfl).talks fun delay d₁ h₁ _ => ?_
  exact (prepares_send _).talks fun _ _ h₂ _ => talks_next ((h.silent (h₁.trans h₂)).echo true)

theorem talks_needPasswordCreate {lineBytes : List Byte} (h : AtName cfg k d c)
    (hstate : c.state = .needPasswordCreate)
    (hfresh : Answered d (.acct (.lookup k (c.name.getD []))) none) (hline : lineBytes <:+: typed d) :
    Talks cfg k d (needPasswordCreate cfg k lineBytes c) := by
  have hsound : c.Sound cfg k d := by
    refine ⟨h.grounded, ?_⟩
    rw [Conn.AtState, hstate]
    exact ⟨h.outside, h.named, hfresh⟩
  obtain ⟨n, hn, hban⟩ := h.named.allowed
  refine (prepares_op rfl).talks fun wait d₁ h₁ _ => ?_
  dsimp only
  split
  · exact talks_tooSoon _ _ (hsound.silent h₁)
  · refine (prepares_echoOn c).talks fun c' d₂ h₂ hc' => ?_
    obtain ⟨b, rfl⟩ := hc'
    split
    · exact talks_badPassword _ _ _ ((hsound.silent (h₁.trans h₂)).echo b)
    · refine (prepares_say _).talks fun _ d₃ h₃ _ => ?_
      refine (prepares_op rfl).talks fun hash d₄ h₄ hhash => ?_
      cases hash with
      | none => exact talks_fail
      | some hash =>
        refine (prepares_op rfl).talks fun now d₅ h₅ _ => ?_
        have hbefore := h₁.trans (h₂.trans (h₃.trans (h₄.trans h₅)))
        have hname : c.name.getD [] = n := congrArg (Option.getD · []) hn
        have hban₅ : Answered d₅ (.ban (.isCharBanned k (c.name.getD []))) none := by
          rw [hname]
          exact hban.grows hbefore.grows
        refine (prepares_insertAccount hban₅).talks fun saved d₆ h₆ hsaved => ?_
        split
        · next hyes =>
          subst hyes
          refine (prepares_op rfl).talks fun _ d₇ h₇ _ => ?_
          have hall := h₁.trans (h₂.trans (h₃.trans (h₄.trans (h₅.trans (h₆.trans h₇)))))
          have h := h.silent hall
          refine talks_enterOrCreate _ h.outside { h.grounded with } ⟨h.named.vetted, n, _, hn, rfl,
            hban.grows hall.grows, ?_⟩
          rw [hname] at hfresh hsaved ⊢
          exact .newPassword _ hash now none ((supplied_line hline).grows hall.grows)
            (hhash.grows (h₅.trans (h₆.trans h₇)).grows) (Or.inr (hfresh.grows hall.grows))
            (hsaved.grows h₇.grows)
        · exact talks_fail

theorem talks_needPasswordLogin {lineBytes : List Byte} (h : AtName cfg k d c)
    (hstate : c.state = .needPasswordLogin) (hline : lineBytes <:+: typed d) :
    Talks cfg k d (needPasswordLogin cfg k lineBytes c) := by
  have hsound := h.sound (Or.inr (Or.inl hstate))
  obtain ⟨n, hn, hban⟩ := h.named.allowed
  have hname : c.name.getD [] = n := congrArg (Option.getD · []) hn
  refine (prepares_op rfl).talks fun wait d₁ h₁ _ => ?_
  dsimp only
  split
  · exact talks_tooSoon _ _ (hsound.silent h₁)
  · refine (prepares_op rfl).talks fun account d₂ h₂ haccount => ?_
    have hall₂ := h₁.trans h₂
    split
    · refine (prepares_echoOn c).talks fun c' d₃ h₃ _ => ?_
      exact (prepares_say _).talks fun _ _ h₄ _ => Or.inl (h.outside.silent (hall₂.trans (h₃.trans h₄)))
    · next hash hhash =>
      obtain ⟨r, rfl, hr⟩ := Option.bind_eq_some_iff.mp hhash
      refine (prepares_echoOn c).talks fun c' d₃ h₃ hc' => ?_
      obtain ⟨b, rfl⟩ := hc'
      split
      · next hverify =>
        refine (prepares_say _).talks fun _ d₄ h₄ _ => ?_
        refine (prepares_op rfl).talks fun _ d₅ h₅ _ => ?_
        have hlate := h₃.trans (h₄.trans h₅)
        have hall := hall₂.trans hlate
        have h := h.silent hall
        refine talks_enterOrCreate _ h.outside { h.grounded with } ⟨h.named.vetted, n, _, hn, rfl,
          hban.grows hall.grows, ?_⟩
        rw [hname] at haccount ⊢
        exact .password r hash _ (haccount.grows hlate.grows) hr hverify ((supplied_line hline).grows hall.grows)
      · exact talks_badPassword _ _ _ ((hsound.silent (hall₂.trans h₃)).echo b)

/-! ### Character creation -/

/-- Between the login and the world. -/
structure AtCreation (cfg : BrokerConfig Raw Auth) (k : ConnId) (d : Dialogue Auth) (c : Conn Auth) : Prop where
  grounded : c.Grounded cfg k d
  outside : NotEntered d
  authenticated : c.Authenticated cfg k d

/-- A question is answered: the next one is asked in `c'`. -/
theorem talks_question (msg : String) {c' : Conn Auth} (h : AtCreation cfg k d c)
    (hg : c.Grounded cfg k d → c'.Grounded cfg k d) (hname : c'.name = c.name)
    (hchecked : c'.proxyChecked = c.proxyChecked) (hblob : c'.authBlob = c.authBlob)
    (hstate : c'.state = .needBotDisclosure ∨ c'.state = .needPublicAck ∨ c'.state = .needCocAck
      ∨ c'.state = .needRace ∨ c'.state = .needClass ∨ c'.state = .needSex
      ∨ (c'.state = .needPronouns ∧ c'.sex.isSome = true)) :
    Talks cfg k d (answer k msg c') := by
  have hauth : c'.Authenticated cfg k d := by
    refine ⟨hchecked.trans h.authenticated.vetted, ?_⟩
    rw [hname, hblob]
    exact h.authenticated.entitled
  refine talks_answer _ ⟨hg h.grounded, ?_⟩
  unfold Conn.AtState
  rcases hstate with hs | hs | hs | hs | hs | hs | ⟨hs, hsex⟩ <;> rw [hs]
  case inr.inr.inr.inr.inr.inr => exact ⟨h.outside, hauth, hsex⟩
  all_goals exact ⟨h.outside, hauth⟩

theorem talks_needBotDisclosure (lineBytes : List Byte) (h : AtCreation cfg k d c)
    (hsound : c.Sound cfg k d) : Talks cfg k d (needBotDisclosure k lineBytes c) := by
  dsimp only [needBotDisclosure]
  have haccept : ∀ msg isBot, Talks cfg k d (answer k msg { c with isBot := some isBot, state := .needPublicAck }) :=
    fun msg isBot => talks_question msg h (fun hg => { hg with }) rfl rfl rfl (Or.inr (Or.inl rfl))
  split
  · exact talks_next hsound
  · split
    · exact haccept _ _
    · split
      · exact haccept _ _
      · exact talks_answer _ hsound

theorem talks_needAgreement {state : ConnState} (prompt : String) (lineBytes : List Byte)
    (h : AtCreation cfg k d c) (hsound : c.Sound cfg k d) (hstate : state = .needCocAck ∨ state = .needRace) :
    Talks cfg k d (needAgreement k state prompt lineBytes c) := by
  dsimp only [needAgreement]
  split
  · exact talks_next hsound
  · split
    · exact talks_answer _ hsound
    · refine talks_question prompt h (fun hg => { hg with }) rfl rfl rfl ?_
      rcases hstate with rfl | rfl
      · exact Or.inr (Or.inr (Or.inl rfl))
      · exact Or.inr (Or.inr (Or.inr (Or.inl rfl)))

theorem talks_needToken (kind plural sample : String) (tokens : List Text)
    {accept : Text → Task Auth (Flow Auth)} (lineBytes : List Byte) (hsound : c.Sound cfg k d)
    (haccept : ∀ token, Talks cfg k d (accept token)) :
    Talks cfg k d (needToken k kind plural sample tokens accept lineBytes c) := by
  dsimp only [needToken]
  split
  · exact talks_next hsound
  · split
    · exact (prepares_say _).talks fun _ _ hs _ => talks_next (hsound.silent hs)
    · split
      · exact haccept _
      · exact talks_answer _ hsound

theorem talks_attachCreated (h : AtCreation cfg k d c) : Talks cfg k d (attachCreated cfg k c) := by
  obtain ⟨n, blob, hn, hblob, hban, hcred⟩ := h.authenticated.entitled
  refine talks_enterWorld h.outside ⟨h.grounded.speaks, h.grounded.vetted h.authenticated.vetted, ?_, blob, ?_, ?_⟩
    { h.grounded with } rfl
  · dsimp only
    rw [hn]
    exact hban
  · dsimp only
    rw [hblob]
    rfl
  · dsimp only
    rw [hn]
    exact hcred

/-- With both questions answered the session is attached. -/
theorem talks_afterQuestions (lineBytes : List Byte) (h : AtCreation cfg k d c) (hsex : c.sex.isSome = true)
    (hpronouns : c.pronouns.isSome = true) : Talks cfg k d (afterQuestions cfg k lineBytes c) := by
  rw [afterQuestions, if_pos ⟨hsex, hpronouns⟩]
  exact talks_attachCreated h

theorem talks_needSex (lineBytes : List Byte) (h : AtCreation cfg k d c) (hsound : c.Sound cfg k d) :
    Talks cfg k d (needSex cfg k lineBytes c) := by
  have hsettle : ∀ line pronouns, Talks cfg k d
      (afterQuestions cfg k lineBytes { c with sex := some line, pronouns := some pronouns }) :=
    fun line pronouns => talks_afterQuestions lineBytes
      ⟨{ h.grounded with }, h.outside, h.authenticated.vetted, h.authenticated.entitled⟩ rfl rfl
  dsimp only [needSex]
  split
  · exact talks_next hsound
  · split
    · exact hsettle _ _
    · split
      · exact hsettle _ _
      · split
        · exact hsettle _ _
        · split
          · exact talks_question _ h (fun hg => { hg with }) rfl rfl rfl
              (Or.inr (Or.inr (Or.inr (Or.inr (Or.inr (Or.inr ⟨rfl, rfl⟩))))))
          · exact talks_answer _ hsound

theorem talks_needPronouns (lineBytes : List Byte) (h : AtCreation cfg k d c) (hsound : c.Sound cfg k d)
    (hsex : c.sex.isSome = true) : Talks cfg k d (needPronouns cfg k lineBytes c) := by
  unfold needPronouns
  split
  · exact talks_answer _ hsound
  · exact talks_afterQuestions lineBytes
      ⟨{ h.grounded with }, h.outside, h.authenticated.vetted, h.authenticated.entitled⟩ hsex rfl

/-! ### In the world -/

theorem prepares_printUptime : Prepares cfg k d (printUptime k) fun _ _ => True :=
  (prepares_op (o := .ask .uptime) rfl).bind fun _ _ _ _ => prepares_send _

theorem talks_printAnswer (line : Text) (h : c.Sound cfg k d) : Talks cfg k d (printAnswer k line c) := by
  refine (prepares_op rfl).talks fun out d₁ h₁ _ => ?_
  cases out with
  | none => exact talks_fail
  | some out => exact (prepares_send _).talks fun _ _ h₂ _ => talks_next (h.silent (h₁.trans h₂))

theorem prepares_handleAccountCommand (name line : Text) :
    Prepares cfg k d (handleAccountCommand k name line) fun _ _ => True := by
  have hdone : ∀ {d' : Dialogue Auth} (out : Text), Prepares cfg k d' (pure out) fun _ _ => True :=
    fun _ => prepares_pure trivial
  have hemail : ∀ {f : Option (Option Bool) → Task Auth Text} (email : Option Text),
      (∀ changed d', Prepares cfg k d' (f changed) fun _ _ => True) →
      Prepares cfg k d (op (.acct (.setEmail name email)) >>= f) fun _ _ => True :=
    fun email hf => (prepares_op rfl).bind fun changed d' _ _ => hf changed d'
  dsimp only [handleAccountCommand]
  split
  · exact hdone _
  · split
    · exact hdone _
    · split
      · exact (prepares_op rfl).bind fun _ _ _ _ => hdone _
      · split
        · split
          · exact hdone _
          · refine hemail _ fun changed d' => ?_
            split <;> exact hdone _
        · split
          · refine hemail _ fun changed d' => ?_
            split <;> exact hdone _
          · exact hdone _

/-- Input follows the `Attach`. -/
theorem Entered.input (h : Entered cfg k d) (line : Text) :
    Entered cfg k (d ++ [⟨.shard (.send k (.input k line)), ()⟩]) := by
  obtain ⟨info, lines, hlisted, hmessages⟩ := h
  refine ⟨info, lines ++ [line], ?_, ?_⟩
  · rw [listings_concat, hlisted]
    rfl
  · rw [messages_concat, hmessages, List.map_append]
    rfl

theorem talks_command (name line : Text) (h : c.Sound cfg k d) (hstate : c.state = .inWorld) :
    Talks cfg k d (command k name line c) := by
  have hentered : ∀ {d'}, Silent d d' → Entered cfg k d' := by
    intro d' hs
    have hat := (h.silent hs).atState
    rwa [Conn.AtState, hstate] at hat
  have hforward : ∀ {d'} (line : Text), Silent d d' →
      Talks cfg k d' (do sendShard k (.input k line); pure (.next c)) := by
    intro d' line hs
    have hin := hentered hs
    refine safe_said ⟨rfl, rfl, hin⟩ fun _ => ⟨(h.grounded.later hs.toLater).later (later_append rfl), ?_⟩
    rw [Conn.AtState, hstate]
    exact hin.input line
  dsimp only [command]
  split
  · exact (prepares_say _).talks fun _ _ hs _ => Or.inr (hentered hs)
  · split
    · exact prepares_printUptime.talks fun _ _ hs _ => hforward _ hs
    · split
      · exact prepares_printUptime.talks fun _ _ hs _ => talks_next (h.silent hs)
      · split
        · exact talks_printAnswer _ h
        · split
          · refine (prepares_handleAccountCommand _ _).talks fun _ d₁ h₁ _ => ?_
            exact (prepares_say _).talks fun _ _ h₂ _ => talks_next (h.silent (h₁.trans h₂))
          · exact hforward _ (.refl d)

theorem talks_inWorld (lineBytes : List Byte) (h : c.Sound cfg k d) (hstate : c.state = .inWorld) :
    Talks cfg k d (inWorld k lineBytes c) := by
  dsimp only [inWorld]
  split
  · exact talks_next h
  · exact talks_next h
  · exact talks_logged fun _ hs => talks_command _ _ (h.silent hs) hstate

/-! ### The loops -/

theorem Conn.Sound.quits (h : c.Sound cfg k d) : NotEntered d ∨ Entered cfg k d := by
  have hat := h.atState
  unfold Conn.AtState at hat
  cases hstate : c.state <;> rw [hstate] at hat <;> dsimp only at hat
  case inWorld => exact Or.inr hat
  case needName => exact Or.inl hat
  all_goals exact Or.inl hat.1

/-- A line, in any state. -/
theorem talks_handleLine {lineBytes : List Byte} (h : c.Sound cfg k d) (hline : lineBytes <:+: typed d)
    (hends : ∀ b ∈ lineBytes, isEol b = false) (hrest : c.linebuf <:+ typed d) :
    Talks cfg k d (handleLine cfg k lineBytes c) := by
  have hat := h.atState
  unfold handleLine
  unfold Conn.AtState at hat
  cases hstate : c.state <;> rw [hstate] at hat <;> dsimp only at hat ⊢
  case needName => exact talks_needName h hstate hline
  case needAuthMethod => exact talks_needAuthMethod ⟨h.grounded, hat.1, hat.2⟩ hstate hline hends hrest
  case needGoogleWait => exact talks_needGoogleWait ⟨h.grounded, hat.1, hat.2⟩ hstate
  case needPasswordCreate =>
    exact talks_needPasswordCreate ⟨h.grounded, hat.1, hat.2.1⟩ hstate hat.2.2 hline
  case needPasswordLogin => exact talks_needPasswordLogin ⟨h.grounded, hat.1, hat.2⟩ hstate hline
  case needBotDisclosure => exact talks_needBotDisclosure _ ⟨h.grounded, hat.1, hat.2⟩ h
  case needPublicAck => exact talks_needAgreement _ _ ⟨h.grounded, hat.1, hat.2⟩ h (Or.inl rfl)
  case needCocAck => exact talks_needAgreement _ _ ⟨h.grounded, hat.1, hat.2⟩ h (Or.inr rfl)
  case needRace =>
    exact talks_needToken _ _ _ _ _ h fun token => talks_question _ ⟨h.grounded, hat.1, hat.2⟩
      (fun hg => { hg with }) rfl rfl rfl (Or.inr (Or.inr (Or.inr (Or.inr (Or.inl rfl)))))
  case needClass =>
    exact talks_needToken _ _ _ _ _ h fun token => talks_question _ ⟨h.grounded, hat.1, hat.2⟩
      (fun hg => { hg with }) rfl rfl rfl (Or.inr (Or.inr (Or.inr (Or.inr (Or.inr (Or.inl rfl))))))
  case needSex => exact talks_needSex _ ⟨h.grounded, hat.1, hat.2⟩ h
  case needPronouns => exact talks_needPronouns _ ⟨h.grounded, hat.1, hat.2.1⟩ h hat.2.2
  case inWorld => exact talks_inWorld _ h hstate

/-- What a read that brings no data adds. -/
theorem quits_concat {x : Exchange (Section Auth) Section.R} (h : NotEntered d ∨ Entered cfg k d)
    (hsent : sentTo x = none) (hlisted : listedAs x = none) :
    NotEntered (d ++ [x]) ∨ Entered cfg k (d ++ [x]) := by
  have hm : messages (d ++ [x]) = messages d := by
    rw [messages_concat, hsent]
    exact List.append_nil _
  have hl : listings (d ++ [x]) = listings d := by
    rw [listings_concat, hlisted]
    exact List.append_nil _
  rcases h with h | ⟨info, lines, hinfo, hlines⟩
  · exact Or.inl ⟨hl.trans h.1, hm.trans h.2⟩
  · exact Or.inr ⟨info, lines, hl.trans hinfo, hm.trans hlines⟩

/-- What a chunk of data adds. -/
theorem Conn.Sound.data (h : c.Sound cfg k d) (chunk : List Byte) :
    ({ c with iac := c.iac.run chunk, linebuf := c.linebuf ++ c.iac.dataOf chunk } : Conn Auth).Sound cfg k
      (d ++ [⟨.recv k, .data chunk⟩]) := by
  have hreads : reads (d ++ [⟨.recv k, .data chunk⟩]) = reads d ++ chunk := reads_concat _ _
  have htyped : typed (d ++ [⟨.recv k, .data chunk⟩]) = typed d ++ c.iac.dataOf chunk := by
    rw [typed, hreads, IacParser.dataOf_append, ← h.grounded.parser]
    rfl
  have hg : Grows d (d ++ [⟨.recv k, .data chunk⟩]) :=
    ⟨fun x hx => List.mem_append_left _ hx, htyped ▸ List.prefix_append _ _⟩
  refine ⟨?_, ?_⟩
  · refine ⟨h.grounded.speaks.grows hg, fun ht => (h.grounded.trusted ht).grows hg,
      fun hc hp => (h.grounded.unchecked hc hp).grows hg, fun hc => (h.grounded.vetted hc).grows hg,
      fun code hcode => (h.grounded.code code hcode).grows hg,
      fun p hp => (h.grounded.pending p hp).grows hg, ?_, ?_⟩
    · dsimp only
      rw [hreads, IacParser.run_append, ← h.grounded.parser]
    · obtain ⟨replay, rest, hbuf, hrest, hreplay⟩ := h.grounded.buffered
      refine ⟨replay, rest ++ c.iac.dataOf chunk, ?_, ?_, hreplay.imp id ?_⟩
      · dsimp only
        rw [hbuf, List.append_assoc]
      · rw [htyped]
        obtain ⟨before, hbefore⟩ := hrest
        exact ⟨before, by rw [← hbefore, List.append_assoc]⟩
      · rintro ⟨line, hline, hends, hinfix⟩
        exact ⟨line, hline, hends, hinfix.trans hg.typed.isInfix⟩
  · refine (h.atState.grows hg ?_ ?_).congr rfl rfl rfl rfl rfl
    · exact (messages_concat _ _).trans (List.append_nil _)
    · exact (listings_concat _ _).trans (List.append_nil _)

theorem talks_readMore (h : c.Sound cfg k d) : Talks cfg k d (readMore k c) := by
  refine safe_said rfl fun got => ?_
  cases got with
  | error => exact talks_fail
  | eof => exact quits_concat h.quits rfl rfl
  | told => exact quits_concat h.quits rfl rfl
  | data chunk =>
    have hdata := h.data chunk
    dsimp only
    split
    · exact talks_next hdata
    · exact (prepares_send _).talks fun _ _ hs _ => talks_next (hdata.silent hs)

theorem talks_turn (h : c.Sound cfg k d) : Talks cfg k d (turn cfg k c) := by
  unfold turn
  have hrest : ∀ {line rest}, tryPopLine c.linebuf = some (line, rest) →
      ({ c with linebuf := rest } : Conn Auth).Sound cfg k d := by
    intro line rest hpop
    have hsuffix := (h.grounded.buffered.pop hpop).2.2
    exact ⟨{ h.grounded with buffered := ⟨[], rest, rfl, hsuffix, Or.inl rfl⟩ },
      h.atState.congr rfl rfl rfl rfl rfl⟩
  split
  · exact talks_readMore h
  · next rest hpop => exact talks_next (hrest hpop)
  · next b line rest hpop =>
    obtain ⟨hline, hends, hsuffix⟩ := h.grounded.buffered.pop hpop
    exact talks_handleLine (hrest hpop) hline hends hsuffix

/-- What a task of a connection returns. -/
def Returned (cfg : BrokerConfig Raw Auth) (k : ConnId) (d : Dialogue Auth) (result : TaskResult Auth) : Prop :=
  ∀ c, result = some c → c.Sound cfg k d

theorem returned_none : Returned cfg k d none := by
  rintro c ⟨⟩

/-- **The cleanup**: nothing is sent after the `Detach`. -/
theorem cleans_up (h : NotEntered d ∨ Entered cfg k d) (c : Conn Auth) :
    Safe (.history (Asks cfg k) fun _ _ => True) d (cleanup k c) := by
  refine (prepares_echoOn c).safe fun c' d₁ h₁ _ => ?_
  have h : NotEntered d₁ ∨ Entered cfg k d₁ := h.imp (·.silent h₁) (·.silent h₁)
  refine safe_said ⟨rfl, h⟩ fun removed => ?_
  cases removed with
  | none => trivial
  | some info =>
    have h := quits_concat h (x := ⟨.sess (.remove k), some info⟩) rfl rfl
    refine (prepares_op rfl).safe fun ok d₂ h₂ _ => ?_
    cases ok with
    | false => trivial
    | true =>
      exact ⟨⟨rfl, rfl, h.imp (·.silent h₂) (·.silent h₂), info, (answered_append _ _ _).grows h₂.grows⟩,
        fun _ _ => trivial⟩

theorem safe_roundOf (h : c.Sound cfg k d) :
    Safe (.history (Asks cfg k) (Returned cfg k)) d (round cfg k c) := by
  refine Safe.bind (Q := FlowSound cfg k) (talks_turn h) fun d' flow hflow => ?_
  cases flow with
  | next c' =>
    rintro c'' ⟨⟩
    exact hflow
  | leave c' => exact Safe.bind (Q := fun _ _ => True) (cleans_up hflow c') fun _ _ _ => returned_none
  | fail => exact returned_none

/-- **The prologue.** -/
theorem safe_greeting : Safe (.history (Asks cfg k) (Returned cfg k)) [] (greet k : Task Auth (TaskResult Auth)) := by
  refine (prepares_op rfl).safe fun peer d₀ h₀ haccept => ?_
  obtain ⟨ip, port⟩ := peer
  refine (prepares_op rfl).safe fun ok d₁ h₁ _ => ?_
  have haccept := haccept.grows h₁.grows
  have h₁ := h₀.trans h₁
  cases ok with
  | false => exact returned_none
  | true =>
    refine (prepares_say _).safe fun _ d₂ h₂ _ => ?_
    have haccept := haccept.grows h₂.grows
    have hs := h₁.trans h₂
    rintro c ⟨⟩
    refine ⟨⟨.itself port haccept, fun hloop => ⟨ip, port, haccept, hloop⟩,
      fun _ hloop => ⟨ip, port, haccept, hloop⟩, by simp [Conn.new], by simp [Conn.new], by simp [Conn.new],
      ?_, [], [], rfl, List.nil_suffix, Or.inl rfl⟩, hs.listings, hs.messages⟩
    rw [hs.reads]
    rfl

end

end Slopmud.Broker
