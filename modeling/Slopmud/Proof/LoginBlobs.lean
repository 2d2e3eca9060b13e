import Slopmud.Proof.LoginRuns

/-!
# The blob of a login

A login writes down in the blob what the shard is to know about the player. Which capabilities are
among that depends on the line that ended it: a password takes those of the account, an identity
those that came with it, and a sign-in with a code none. The lines after it leave the blob alone.
-/

namespace Slopmud.Broker

open Slopmud.Sbc Slopmud.Shard Telnet

variable {Raw Auth : Type} {cfg : BrokerConfig Raw Auth} {k : ConnId}

/-- Where a login has its capabilities from. -/
inductive CapsSource where
  | account
  | own (caps : Option (List Text))
deriving DecidableEq, Repr

/-- The capabilities of a login to the account `r`. -/
def CapsSource.caps (r : AccountRec) : CapsSource → Option (List Text)
  | .account => r.caps
  | .own caps => caps

/-- The source of a `WEB_AUTH` request. -/
def WebAuthReq.capsSource (req : WebAuthReq) : CapsSource :=
  if Text.toAsciiLowercase (Text.trim req.method) = "password".toList then .account else .own req.caps

/-- The request of a line, if it is a `WEB_AUTH` line from a peer that may send one. -/
def Conn.webAuthReq? (cfg : BrokerConfig Raw Auth) (c : Conn Auth) (line : List Byte) : Option WebAuthReq :=
  if c.trustedProxyPeer then
    (Text.stripPrefix "WEB_AUTH ".toList (Handler.trimmed line)).bind cfg.parseWebAuth
  else none

/-- The source of a login that ends with this line. -/
def Conn.capsSource (cfg : BrokerConfig Raw Auth) (c : Conn Auth) (line : List Byte) : CapsSource :=
  match c.state with
  | .needPasswordLogin => .account
  | .needName =>
    match c.webAuthReq? cfg line with
    | some req => req.capsSource
    -- a name for an identity that waits for one
    | none => .own (c.pendingAutoWebauth.bind PendingAutoWebAuth.caps)
  | _ => .own none

/-- The blob of the connection has the capabilities of this source, if the account was there. -/
def Conn.Carries (cfg : BrokerConfig Raw Auth) (a : Accounts) (src : CapsSource) (c : Conn Auth) : Prop :=
  ∀ n r, c.name = some n → a.get n = some r →
    ∃ blob, c.authBlob = some (cfg.auth.print blob) ∧ blob.caps = blobCaps (src.caps r)

def Flow.Carries (cfg : BrokerConfig Raw Auth) (a : Accounts) (src : CapsSource) (flow : Flow Auth) : Prop :=
  ∀ c, flow.login? = some c → c.Carries cfg a src

/-- The line ended no login. -/
def Flow.StillOut (flow : Flow Auth) : Prop := flow.login? = none

/-- A request that is refused leaves the dialogue at the name prompt. -/
def Handler.WebAuth.Carries (cfg : BrokerConfig Raw Auth) (a : Accounts) (src : CapsSource) :
    Handler.WebAuth Auth → Prop
  | .refused c => c.state = .needName
  | .failed => True
  | .accepted c => c.Carries cfg a src

theorem providerBlob_caps (p : Provider) (n sub : Text) (email : Option Text) (caps : Option (List Text)) :
    (providerBlob p n sub email caps).caps = blobCaps caps := by
  cases p <;> rfl

namespace Handler

variable {es : List Env} {s s' : Shared cfg.ip Raw Auth} {src : CapsSource}

theorem carries_of_state {c : Conn Auth} {a : Accounts} (h : c.state = .needName) :
    (Flow.next c).Carries cfg a src := by
  intro c' hlogin
  rw [login?_of_state h (by decide) (by decide)] at hlogin
  cases hlogin

theorem carries_fail {a : Accounts} : (Flow.fail : Flow Auth).Carries cfg a src := by
  intro c' hlogin
  cases hlogin

/-- Entering the world keeps the blob. -/
theorem enterOrCreate_carries {lead : String} {c : Conn Auth} {a : Accounts} {flow : Flow Auth}
    (h : (enterOrCreate cfg k lead c).run (Shared.effect cfg) es s = some (flow, s'))
    (hc : c.Carries cfg a src) : flow.Carries cfg a src := by
  intro c' hlogin n r hn hr
  obtain ⟨-, -, -, hname, hblob⟩ := enterOrCreate_login h hlogin
  rw [hblob]
  exact hc n r (hname.symm.trans hn) hr

theorem run_containsAccount {n : Text} {there : Bool}
    (h : (containsAccount k n : Task Auth _).run (Shared.effect cfg) es s = some (there, s')) :
    there = (s.acct.store.get n).isSome ∧ s'.acct.store = s.acct.store := by
  obtain ⟨e, -, he⟩ := Program.run_op.mp h
  cases he
  exact ⟨rfl, rfl⟩

/-! ## Identities -/

/-- An identity that is linked brings its capabilities. -/
theorem loginLinked_carries (p : Provider) (r : AccountRec) (n sub : Text) (email : Option Text)
    (caps : Option (List Text)) (c : Conn Auth) (a : Accounts) :
    (loginLinked cfg p r n sub email caps c).Carries cfg a (.own caps) := by
  intro n' r' _ _
  exact ⟨_, rfl, providerBlob_caps _ _ _ _ _⟩

/-- An account that an identity creates was not there. -/
theorem createLinked_carries {p : Provider} {n sub : Text} {email : Option Text} {caps : Option (List Text)}
    {c c' : Conn Auth} {now : Nat}
    (h : (createLinked cfg k p n sub email caps c now).run (Shared.effect cfg) es s = some (some c', s'))
    (a : Accounts) : c'.Carries cfg a (.own caps) := by
  obtain ⟨es₁, es₂, saved, s₁, -, -, h⟩ := Program.run_bind.mp h
  split at h
  · obtain ⟨-, hc, -⟩ := Program.run_ret.mp h
    cases hc
    intro n' r' _ _
    exact ⟨_, rfl, providerBlob_caps _ _ _ _ _⟩
  · obtain ⟨-, hc, -⟩ := Program.run_ret.mp h
    cases hc

theorem refuse_carries {msg : String} {c : Conn Auth} {res : WebAuth Auth} {a : Accounts}
    (hstate : c.state = .needName)
    (h : (refuse k msg c).run (Shared.effect cfg) es s = some (res, s')) : res.Carries cfg a src := by
  obtain ⟨es₁, es₂, u, s₁, -, -, h⟩ := Program.run_bind.mp h
  obtain ⟨-, rfl, -⟩ := Program.run_ret.mp h
  exact hstate

theorem webAuthIdentity_carries {p : Provider} {create : Bool} {req : WebAuthReq} {uname : Text}
    {c : Conn Auth} {res : WebAuth Auth} (hstate : c.state = .needName)
    (h : (webAuthIdentity cfg k p create req uname c).run (Shared.effect cfg) es s = some (res, s'))
    (a : Accounts) : res.Carries cfg a (.own req.caps) := by
  dsimp only [webAuthIdentity] at h
  split at h
  · obtain ⟨es₁, es₂, u, s₁, -, -, h⟩ := Program.run_bind.mp h
    obtain ⟨-, rfl, -⟩ := Program.run_ret.mp h
    exact hstate
  · obtain ⟨es₁, es₂, now, s₁, -, -, h⟩ := Program.run_bind.mp h
    obtain ⟨es₃, es₄, account, s₂, -, -, h⟩ := Program.run_bind.mp h
    split at h
    · exact refuse_carries hstate h
    · split at h
      · obtain ⟨-, rfl, -⟩ := Program.run_ret.mp h
        exact loginLinked_carries _ _ _ _ _ _ _ _
      · obtain ⟨es₅, es₆, u, s₃, -, -, h⟩ := Program.run_bind.mp h
        obtain ⟨-, rfl, -⟩ := Program.run_ret.mp h
        exact hstate
    · exact refuse_carries hstate h
    · obtain ⟨es₅, es₆, created, s₃, -, hcreate, h⟩ := Program.run_bind.mp h
      cases created with
      | none =>
        obtain ⟨-, rfl, -⟩ := Program.run_ret.mp h
        trivial
      | some c₁ =>
        obtain ⟨-, rfl, -⟩ := Program.run_ret.mp h
        exact createLinked_carries hcreate a

/-! ## `WEB_AUTH` -/

/-- A password creates only accounts that are not there. -/
theorem createPassword_carries {req : WebAuthReq} {uname : Text} {c : Conn Auth} {res : WebAuth Auth}
    (hstate : c.state = .needName)
    (h : (createPassword cfg k req uname c).run (Shared.effect cfg) es s = some (res, s')) :
    res.Carries cfg s.acct.store .account := by
  dsimp only [createPassword] at h
  split at h
  · exact refuse_carries hstate h
  · obtain ⟨es₁, es₂, there, s₁, -, h₁, h⟩ := Program.run_bind.mp h
    obtain ⟨hthere, -⟩ := run_containsAccount h₁
    split at h
    · exact refuse_carries hstate h
    · next hno =>
      obtain ⟨es₃, es₄, hash, s₂, -, -, h⟩ := Program.run_bind.mp h
      cases hash with
      | none =>
        obtain ⟨-, rfl, -⟩ := Program.run_ret.mp h
        trivial
      | some hash =>
        obtain ⟨es₅, es₆, now, s₃, -, -, h⟩ := Program.run_bind.mp h
        obtain ⟨es₇, es₈, saved, s₄, -, -, h⟩ := Program.run_bind.mp h
        split at h
        · obtain ⟨-, rfl, -⟩ := Program.run_ret.mp h
          intro n r hn hr
          cases hn
          rw [hthere, hr] at hno
          exact absurd rfl hno
        · obtain ⟨-, rfl, -⟩ := Program.run_ret.mp h
          trivial

/-- A password takes the capabilities of the account. -/
theorem loginPassword_carries {req : WebAuthReq} {uname : Text} {c : Conn Auth} {res : WebAuth Auth}
    (hstate : c.state = .needName)
    (h : (loginPassword cfg k req uname c).run (Shared.effect cfg) es s = some (res, s')) :
    res.Carries cfg s.acct.store .account := by
  obtain ⟨es₁, es₂, account, s₁, -, h₁, h⟩ := Program.run_bind.mp h
  obtain ⟨haccount, -⟩ := run_getAccount h₁
  split at h
  · exact refuse_carries hstate h
  · next r =>
    split at h
    · exact refuse_carries hstate h
    · split at h
      · obtain ⟨-, rfl, -⟩ := Program.run_ret.mp h
        intro n r' hn hr'
        cases hn
        cases haccount.trans hr'
        exact ⟨_, rfl, rfl⟩
      · exact refuse_carries hstate h

theorem webAuthAs_carries {action : Text} {req : WebAuthReq} {uname : Text} {c : Conn Auth}
    {res : WebAuth Auth} (hstate : c.state = .needName)
    (h : (webAuthAs cfg k action (Text.toAsciiLowercase (Text.trim req.method)) req uname c).run
      (Shared.effect cfg) es s = some (res, s')) : res.Carries cfg s.acct.store req.capsSource := by
  rw [webAuthAs] at h
  rw [WebAuthReq.capsSource]
  split at h
  · next hmethod =>
    rw [if_pos hmethod]
    split at h
    · exact createPassword_carries hstate h
    · split at h
      · exact loginPassword_carries hstate h
      · exact refuse_carries hstate h
  · next hmethod =>
    rw [if_neg hmethod]
    split at h
    · split at h
      · exact webAuthIdentity_carries hstate h _
      · exact refuse_carries hstate h
    · exact refuse_carries hstate h

theorem answer_carries {msg : String} {c : Conn Auth} {flow : Flow Auth} {a : Accounts}
    (h : (answer k msg c).run (Shared.effect cfg) es s = some (flow, s')) (hstate : c.state = .needName) :
    flow.Carries cfg a src := by
  obtain ⟨es₁, es₂, u, s₁, -, -, h⟩ := Program.run_bind.mp h
  obtain ⟨-, rfl, -⟩ := Program.run_ret.mp h
  exact carries_of_state hstate

theorem banned_carries {c : Conn Auth} {flow : Flow Auth} {a : Accounts}
    (h : (banned k c).run (Shared.effect cfg) es s = some (flow, s')) : flow.Carries cfg a src := by
  obtain ⟨es₁, es₂, ok, s₁, -, -, h⟩ := Program.run_bind.mp h
  cases ok with
  | true =>
    obtain ⟨es₃, es₄, u, s₂, -, -, h⟩ := Program.run_bind.mp h
    obtain ⟨-, rfl, -⟩ := Program.run_ret.mp h
    intro c' hlogin
    cases hlogin
  | false =>
    obtain ⟨-, rfl, -⟩ := Program.run_ret.mp h
    exact carries_fail

/-- The sections besides the accounts change nothing of them. -/
theorem op_acct {o : Section Auth} {r : o.R} (ho : o.IsAside)
    (h : (.op o : Task Auth o.R).run (Shared.effect cfg) es s = some (r, s')) : s'.acct = s.acct := by
  obtain ⟨e, -, he⟩ := Program.run_op.mp h
  exact effect_acct ho he

theorem webAuthNamed_carries {action : Text} {req : WebAuthReq} {uname : Text} {c : Conn Auth}
    {flow : Flow Auth} (hstate : c.state = .needName)
    (h : (webAuthNamed cfg k action (Text.toAsciiLowercase (Text.trim req.method)) req uname c).run
      (Shared.effect cfg) es s = some (flow, s')) : flow.Carries cfg s.acct.store req.capsSource := by
  rw [webAuthNamed] at h
  split at h
  · exact answer_carries h hstate
  · obtain ⟨es₁, es₂, ban, s₁, -, h₁, h⟩ := Program.run_bind.mp h
    have hacct := op_acct (o := .ban _) trivial h₁
    split at h
    · exact banned_carries h
    · obtain ⟨es₃, es₄, res, s₂, -, h₂, h⟩ := Program.run_bind.mp h
      have hres := webAuthAs_carries hstate h₂
      rw [hacct] at hres
      cases res with
      | refused c₁ =>
        obtain ⟨-, rfl, -⟩ := Program.run_ret.mp h
        exact carries_of_state hres
      | failed =>
        obtain ⟨-, rfl, -⟩ := Program.run_ret.mp h
        exact carries_fail
      | accepted c₁ => exact enterOrCreate_carries h hres

/-- `auto` stays at the name prompt, or finds the action and the account. -/
theorem resolveAuto_spec {p : Provider} {req : WebAuthReq} {c c' : Conn Auth} {found : Option (Text × Text)}
    (hstate : c.state = .needName)
    (h : (resolveAuto k p req c).run (Shared.effect cfg) es s = some ((c', found), s')) :
    s'.acct.store = s.acct.store ∧ c'.state = .needName := by
  dsimp only [resolveAuto] at h
  split at h
  · obtain ⟨es₁, es₂, u, s₁, -, h₁, h⟩ := Program.run_bind.mp h
    obtain ⟨-, hc, rfl⟩ := Program.run_ret.mp h
    cases hc
    rw [run_send h₁]
    exact ⟨rfl, hstate⟩
  · obtain ⟨es₁, es₂, names, s₁, -, h₁, h⟩ := Program.run_bind.mp h
    have hs₁ : s₁.acct.store = s.acct.store := by
      obtain ⟨e, -, he⟩ := Program.run_op.mp h₁
      cases he
      rfl
    split at h
    · split at h
      · obtain ⟨-, hc, rfl⟩ := Program.run_ret.mp h
        cases hc
        exact ⟨hs₁, hstate⟩
      · obtain ⟨es₃, es₄, account, s₂, -, h₂, h⟩ := Program.run_bind.mp h
        have hs₂ := (run_getAccount h₂).2.trans hs₁
        split at h
        · obtain ⟨-, hc, rfl⟩ := Program.run_ret.mp h
          cases hc
          exact ⟨hs₂, hstate⟩
        · split at h
          · obtain ⟨-, hc, rfl⟩ := Program.run_ret.mp h
            cases hc
            exact ⟨hs₂, hstate⟩
          · obtain ⟨es₅, es₆, u, s₃, -, h₃, h⟩ := Program.run_bind.mp h
            obtain ⟨-, hc, rfl⟩ := Program.run_ret.mp h
            cases hc
            rw [run_send h₃]
            exact ⟨hs₂, rfl⟩
    · obtain ⟨-, hc, rfl⟩ := Program.run_ret.mp h
      cases hc
      exact ⟨hs₁, hstate⟩
    · obtain ⟨es₃, es₄, u, s₂, -, h₂, h⟩ := Program.run_bind.mp h
      obtain ⟨-, hc, rfl⟩ := Program.run_ret.mp h
      cases hc
      rw [run_send h₂]
      exact ⟨hs₁, hstate⟩

/-- **A `WEB_AUTH` line** takes the capabilities of its source. -/
theorem webAuth_carries {line : List Byte} {rest : Text} {req : WebAuthReq} {c : Conn Auth}
    {flow : Flow Auth} (hreq : cfg.parseWebAuth rest = some req) (hstate : c.state = .needName)
    (h : (webAuth cfg k line rest c).run (Shared.effect cfg) es s = some (flow, s')) :
    flow.Carries cfg s.acct.store req.capsSource := by
  rw [webAuth, hreq] at h
  obtain ⟨es₁, es₂, u, s₁, -, h₁, h⟩ := Program.run_bind.mp h
  have hacct := op_acct (o := .io _) trivial h₁
  dsimp only at h
  split at h
  · obtain ⟨es₃, es₄, found, s₂, -, h₂, h⟩ := Program.run_bind.mp h
    obtain ⟨c₁, found⟩ := found
    obtain ⟨hstore, hc₁⟩ := resolveAuto_spec hstate h₂
    rw [hacct] at hstore
    split at h
    · next heq =>
      cases heq
      obtain ⟨-, rfl, -⟩ := Program.run_ret.mp h
      exact carries_of_state hc₁
    · next heq =>
      cases heq
      rw [← hstore]
      exact webAuthNamed_carries hc₁ h
  · rw [← hacct]
    exact webAuthNamed_carries hstate h

/-! ## The other ways in -/

/-- A name for an identity that waits for one. -/
theorem pendingLogin_carries {pending : PendingAutoWebAuth} {n : Text} {c : Conn Auth} {flow : Flow Auth}
    (hstate : c.state = .needName)
    (h : (pendingLogin cfg k pending n c).run (Shared.effect cfg) es s = some (flow, s'))
    (a : Accounts) : flow.Carries cfg a (.own pending.caps) := by
  dsimp only [pendingLogin] at h
  obtain ⟨es₁, es₂, account, s₁, -, -, h⟩ := Program.run_bind.mp h
  split at h
  · next r =>
    split at h
    · have hlinked : (loginLinked cfg pending.provider r n pending.sub pending.email pending.caps c).Carries
          cfg a (.own pending.caps) := loginLinked_carries _ _ _ _ _ _ _ _
      exact enterOrCreate_carries h fun n r => hlinked n r
    · exact answer_carries h hstate
  · obtain ⟨es₃, es₄, now, s₂, -, -, h⟩ := Program.run_bind.mp h
    obtain ⟨es₅, es₆, created, s₃, -, hcreate, h⟩ := Program.run_bind.mp h
    split at h
    · obtain ⟨-, rfl, -⟩ := Program.run_ret.mp h
      intro c' hlogin
      cases hlogin
    · have hcreated := createLinked_carries hcreate a
      exact enterOrCreate_carries h fun n r => hcreated n r

theorem chooseName_carries {line : Text} {c : Conn Auth} {flow : Flow Auth} (hstate : c.state = .needName)
    (h : (chooseName cfg k line c).run (Shared.effect cfg) es s = some (flow, s')) (a : Accounts) :
    flow.Carries cfg a (.own (c.pendingAutoWebauth.bind PendingAutoWebAuth.caps)) := by
  dsimp only [chooseName] at h
  split at h
  · exact answer_carries h hstate
  · obtain ⟨es₁, es₂, ban, s₁, -, -, h⟩ := Program.run_bind.mp h
    split at h
    · exact banned_carries h
    · split at h
      · next pending hpending =>
        rw [hpending]
        exact pendingLogin_carries hstate h a
      · obtain ⟨es₃, es₄, u, s₂, -, -, h⟩ := Program.run_bind.mp h
        obtain ⟨-, rfl, -⟩ := Program.run_ret.mp h
        intro c' hlogin
        rw [login?_of_state rfl (by simp) (by simp)] at hlogin
        cases hlogin

theorem nameLine_carries {line : List Byte} {c : Conn Auth} {flow : Flow Auth} (hstate : c.state = .needName)
    (h : (nameLine cfg k line (trimmed line) c).run (Shared.effect cfg) es s = some (flow, s')) :
    flow.Carries cfg s.acct.store (c.capsSource cfg line) := by
  rw [Conn.capsSource, hstate]
  dsimp only
  rw [Conn.webAuthReq?]
  rw [nameLine] at h
  split at h
  · next rest htrusted hrest =>
    rw [if_pos htrusted, hrest, Option.bind_some]
    cases hreq : cfg.parseWebAuth rest with
    | none =>
      rw [webAuth, hreq] at h
      exact answer_carries h hstate
    | some req => exact webAuth_carries hreq hstate h
  · next hno =>
    have hnone : (if c.trustedProxyPeer = true then
        (Text.stripPrefix "WEB_AUTH ".toList (trimmed line)).bind cfg.parseWebAuth else none) = none := by
      split
      · next htrusted =>
        cases hrest : Text.stripPrefix "WEB_AUTH ".toList (trimmed line) with
        | none => rfl
        | some rest => exact (hno rest htrusted hrest).elim
      · rfl
    rw [hnone]
    exact chooseName_carries hstate h _

theorem needName_carries {line : List Byte} {c : Conn Auth} {flow : Flow Auth} (hstate : c.state = .needName)
    (h : (needName cfg k line c).run (Shared.effect cfg) es s = some (flow, s')) :
    flow.Carries cfg s.acct.store (c.capsSource cfg line) := by
  dsimp only [needName] at h
  split at h
  · obtain ⟨-, rfl, -⟩ := Program.run_ret.mp h
    exact carries_of_state hstate
  · split at h
    · obtain ⟨es₁, es₂, ok, s₁, -, -, h⟩ := Program.run_bind.mp h
      cases ok with
      | true =>
        obtain ⟨es₃, es₄, ban, s₂, -, -, h⟩ := Program.run_bind.mp h
        split at h
        · exact banned_carries h
        · obtain ⟨-, rfl, -⟩ := Program.run_ret.mp h
          exact carries_of_state hstate
      | false =>
        obtain ⟨-, rfl, -⟩ := Program.run_ret.mp h
        exact carries_fail
    · split at h
      · exact nameLine_carries hstate h
      · obtain ⟨es₁, es₂, ban, s₁, -, h₁, h⟩ := Program.run_bind.mp h
        have hacct := op_acct (o := .ban _) trivial h₁
        split at h
        · exact banned_carries h
        · rw [← hacct]
          exact nameLine_carries (c := { c with proxyChecked := true }) hstate h

theorem stillOut_next {c : Conn Auth} (hworld : c.state ≠ .inWorld) (hbot : c.state ≠ .needBotDisclosure) :
    Flow.StillOut (.next c) := login?_of_state rfl hworld hbot

theorem answer_stillOut {msg : String} {c : Conn Auth} (hworld : c.state ≠ .inWorld)
    (hbot : c.state ≠ .needBotDisclosure) : (answer k msg c).Yields Flow.StillOut :=
  fun _ => stillOut_next hworld hbot

theorem choosePassword_stillOut (account : Option AccountRec) {c : Conn Auth} (hworld : c.state ≠ .inWorld)
    (hbot : c.state ≠ .needBotDisclosure) : (choosePassword cfg k account c).Yields Flow.StillOut := by
  cases account with
  | none => exact fun _ => stillOut_next (by simp) (by simp)
  | some r =>
    dsimp only [choosePassword]
    split
    · split
      · exact answer_stillOut hworld hbot
      · exact answer_stillOut hworld hbot
    · exact fun _ => stillOut_next (by simp) (by simp)

theorem chooseGoogle_stillOut (account : Option AccountRec) {c : Conn Auth} (hworld : c.state ≠ .inWorld)
    (hbot : c.state ≠ .needBotDisclosure) : (chooseGoogle cfg k account c).Yields Flow.StillOut := by
  dsimp only [chooseGoogle]
  split
  · exact answer_stillOut hworld hbot
  · intro code
    cases code with
    | none => rfl
    | some code => exact fun _ => stillOut_next (by simp) (by simp)

theorem needAuthMethod_stillOut {line : List Byte} {c : Conn Auth} (hstate : c.state = .needAuthMethod) :
    (needAuthMethod cfg k line c).Yields Flow.StillOut := by
  have hworld : c.state ≠ .inWorld := by simp [hstate]
  have hbot : c.state ≠ .needBotDisclosure := by simp [hstate]
  dsimp only [needAuthMethod]
  split
  · exact stillOut_next (by simp) (by simp)
  · split
    · exact stillOut_next hworld hbot
    · refine Program.Yields.bind (Program.yields_true _) fun account _ => ?_
      split
      · exact choosePassword_stillOut account hworld hbot
      · split
        · exact chooseGoogle_stillOut account hworld hbot
        · split
          · split
            · exact answer_stillOut hworld hbot
            · exact answer_stillOut hworld hbot
          · exact answer_stillOut hworld hbot

/-- A sign-in with a code brings no capabilities. -/
theorem googleSignedIn_carries {code sub : Text} {email : Option Text} {now : Nat} {c : Conn Auth}
    {flow : Flow Auth}
    (h : (googleSignedIn cfg k code sub email now c).run (Shared.effect cfg) es s = some (flow, s'))
    (a : Accounts) : flow.Carries cfg a (.own none) := by
  dsimp only [googleSignedIn] at h
  obtain ⟨es₁, es₂, bound, s₁, -, -, h⟩ := Program.run_bind.mp h
  split at h
  · obtain ⟨es₃, es₄, u, s₂, -, -, h⟩ := Program.run_bind.mp h
    obtain ⟨-, rfl, -⟩ := Program.run_ret.mp h
    intro c' hlogin
    cases hlogin
  · obtain ⟨-, rfl, -⟩ := Program.run_ret.mp h
    intro c' hlogin
    cases hlogin
  · obtain ⟨es₃, es₄, u, s₂, -, -, h⟩ := Program.run_bind.mp h
    exact enterOrCreate_carries h fun n r _ _ => ⟨_, rfl, providerBlob_caps .google _ _ _ _⟩

/-- A line that ends no login carries whatever. -/
theorem carries_of_stillOut {flow : Flow Auth} {a : Accounts} (h : flow.StillOut) : flow.Carries cfg a src := by
  intro c hlogin
  rw [h] at hlogin
  cases hlogin

theorem needGoogleWait_carries {line : List Byte} {c : Conn Auth} {flow : Flow Auth}
    (hstate : c.state = .needGoogleWait)
    (h : (needGoogleWait cfg k line c).run (Shared.effect cfg) es s = some (flow, s')) (a : Accounts) :
    flow.Carries cfg a (.own none) := by
  have hworld : c.state ≠ .inWorld := by simp [hstate]
  have hbot : c.state ≠ .needBotDisclosure := by simp [hstate]
  have hgive : ∀ code msg, (giveUpGoogle k code msg c).Yields Flow.StillOut :=
    fun code msg _ _ => stillOut_next (by simp) (by simp)
  dsimp only [needGoogleWait] at h
  split at h
  · obtain ⟨-, rfl, -⟩ := Program.run_ret.mp h
    exact carries_of_stillOut (stillOut_next hworld hbot)
  · split at h
    · exact carries_of_stillOut ((answer_stillOut (by simp) (by simp)).run h)
    · split at h
      · exact carries_of_stillOut ((hgive _ _).run h)
      · split at h
        · obtain ⟨es₁, es₂, found, s₁, -, -, h⟩ := Program.run_bind.mp h
          cases found with
          | missing => exact carries_of_stillOut ((answer_stillOut hworld hbot).run h)
          | corrupted => exact carries_of_stillOut ((answer_stillOut hworld hbot).run h)
          | found pending =>
            obtain ⟨es₃, es₄, now, s₂, -, -, h⟩ := Program.run_bind.mp h
            split at h
            · exact carries_of_stillOut ((hgive _ _).run h)
            · split at h
              · exact carries_of_stillOut ((answer_stillOut hworld hbot).run h)
              · split at h
                · exact carries_of_stillOut ((hgive _ _).run h)
                · split at h
                  · exact carries_of_stillOut ((answer_stillOut hworld hbot).run h)
                  · split at h
                    · exact carries_of_stillOut ((answer_stillOut hworld hbot).run h)
                    · exact googleSignedIn_carries h a
        · exact carries_of_stillOut ((answer_stillOut hworld hbot).run h)

end Handler

/-- Nobody is logged in yet. -/
def Conn.LoggingIn (c : Conn Auth) : Prop :=
  c.state = .needName ∨ c.state = .needAuthMethod ∨ c.state = .needGoogleWait
    ∨ c.state = .needPasswordCreate ∨ c.state = .needPasswordLogin

/-- **A line that ends a login** leaves a blob with the capabilities of its source. -/
theorem login_carries {line : List Byte} {c : Conn Auth} {flow : Flow Auth} {es : List Env}
    {s s' : Shared cfg.ip Raw Auth} (hc : c.LoggingIn)
    (h : (Handler.handleLine cfg k line c).run (Shared.effect cfg) es s = some (flow, s')) :
    flow.Carries cfg s.acct.store (c.capsSource cfg line) := by
  rcases hc with hstate | hstate | hstate | hstate | hstate
  · rw [Handler.handleLine, hstate] at h
    exact Handler.needName_carries hstate h
  · rw [Handler.handleLine, hstate] at h
    exact Handler.carries_of_stillOut ((Handler.needAuthMethod_stillOut hstate).run h)
  · rw [Handler.handleLine, hstate] at h
    rw [Conn.capsSource, hstate]
    exact Handler.needGoogleWait_carries hstate h _
  · rw [Handler.handleLine, hstate] at h
    rw [Conn.capsSource, hstate]
    intro c' hlogin n r _ _
    exact ⟨_, (Handler.needPasswordCreate_spec hstate h hlogin).2, rfl⟩
  · rw [Handler.handleLine, hstate] at h
    rw [Conn.capsSource, hstate]
    intro c' hlogin n r hn hr
    rcases Handler.needPasswordLogin_spec hstate h with ⟨r', hash, c₁, hr', -, -, hc₁, hname, hblob⟩ | ⟨hno, -⟩
    · cases hc₁.symm.trans hlogin
      rw [← hname, hn, Option.getD_some, hr] at hr'
      cases hr'
      exact ⟨_, hblob, rfl⟩
    · rw [hno] at hlogin
      cases hlogin

/-! ## After the login -/

/-- The login is over, and this is its blob. -/
structure Conn.Past (blob : Option Auth) (c : Conn Auth) : Prop where
  blob : c.authBlob = blob
  ended : ¬ c.LoggingIn

def Flow.Past (blob : Option Auth) (flow : Flow Auth) : Prop := ∀ c, flow = .next c → c.Past blob

namespace Handler

variable {blob : Option Auth}

theorem past_next {c : Conn Auth} (h : c.Past blob) : Flow.Past blob (.next c) := by
  rintro _ ⟨⟩
  exact h

theorem past_leave (c : Conn Auth) : Flow.Past blob (.leave c) := by
  rintro _ ⟨⟩

theorem past_fail : Flow.Past blob (.fail : Flow Auth) := by
  rintro _ ⟨⟩

theorem logged_past {p : Task Auth (Flow Auth)} (h : p.Yields (Flow.Past blob)) :
    (do if ← logged then p else pure .fail : Task Auth (Flow Auth)).Yields (Flow.Past blob) := by
  intro ok
  cases ok with
  | true => exact h
  | false => exact past_fail

theorem answer_past {msg : String} {c : Conn Auth} (h : c.Past blob) :
    (answer k msg c).Yields (Flow.Past blob) := fun _ => past_next h

theorem needBotDisclosure_past {line : List Byte} {c : Conn Auth} (h : c.Past blob) :
    (needBotDisclosure k line c).Yields (Flow.Past blob) := by
  dsimp only [needBotDisclosure]
  split
  · exact past_next h
  · split
    · exact answer_past ⟨h.blob, by simp [Conn.LoggingIn]⟩
    · split
      · exact answer_past ⟨h.blob, by simp [Conn.LoggingIn]⟩
      · exact answer_past h

theorem needAgreement_past {state : ConnState} {prompt : String} {line : List Byte} {c : Conn Auth}
    (h : c.Past blob) (hs : ¬ { c with state }.LoggingIn) : (needAgreement k state prompt line c).Yields (Flow.Past blob) := by
  dsimp only [needAgreement]
  split
  · exact past_next h
  · split
    · exact answer_past h
    · exact answer_past ⟨h.blob, hs⟩

theorem needToken_past {kind plural sample : String} {tokens : List Text}
    {accept : Text → Task Auth (Flow Auth)} {line : List Byte} {c : Conn Auth} (h : c.Past blob)
    (haccept : ∀ t, (accept t).Yields (Flow.Past blob)) :
    (needToken k kind plural sample tokens accept line c).Yields (Flow.Past blob) := by
  dsimp only [needToken]
  split
  · exact past_next h
  · split
    · exact fun _ => past_next h
    · split
      · exact haccept _
      · exact answer_past h

theorem printAnswer_past {line : Text} {c : Conn Auth} (h : c.Past blob) :
    (printAnswer k line c).Yields (Flow.Past blob) := by
  intro out
  cases out with
  | none => exact past_fail
  | some out => exact fun _ => past_next h

/-- Besides what the player is told, the line may go to the shard. -/
theorem command_past {name line : Text} {c : Conn Auth} (h : c.Past blob) :
    (command k name line c).Yields (Flow.Past blob) := by
  dsimp only [command]
  split
  · exact fun _ => past_leave _
  · split
    · exact fun _ _ _ => past_next h
    · split
      · exact fun _ _ => past_next h
      · split
        · exact printAnswer_past h
        · split
          · exact (Program.yields_true _).bind fun out _ _ => past_next h
          · exact fun _ => past_next h

theorem inWorld_past {line : List Byte} {c : Conn Auth} (h : c.Past blob) :
    (inWorld k line c).Yields (Flow.Past blob) := by
  dsimp only [inWorld]
  split
  · exact past_next h
  · exact past_next h
  · exact logged_past (command_past h)

theorem afterQuestions_past {line : List Byte} {c : Conn Auth} (h : c.Past blob) :
    (afterQuestions cfg k line c).Yields (Flow.Past blob) := by
  rw [afterQuestions]
  split
  · refine (Program.yields_true _).bind fun entered _ => ?_
    cases entered with
    | true => exact past_next ⟨h.blob, by simp [Conn.LoggingIn]⟩
    | false => exact past_fail
  · exact inWorld_past h

theorem needSex_past {line : List Byte} {c : Conn Auth} (h : c.Past blob) :
    (needSex cfg k line c).Yields (Flow.Past blob) := by
  dsimp only [needSex]
  split
  · exact past_next h
  · split
    · exact afterQuestions_past ⟨h.blob, h.ended⟩
    · split
      · exact afterQuestions_past ⟨h.blob, h.ended⟩
      · split
        · exact afterQuestions_past ⟨h.blob, h.ended⟩
        · split
          · exact answer_past ⟨h.blob, by simp [Conn.LoggingIn]⟩
          · exact answer_past h

theorem needPronouns_past {line : List Byte} {c : Conn Auth} (h : c.Past blob) :
    (needPronouns cfg k line c).Yields (Flow.Past blob) := by
  rw [needPronouns]
  split
  · exact answer_past h
  · exact afterQuestions_past ⟨h.blob, h.ended⟩

/-- **The lines after a login** keep its blob. -/
theorem handleLine_past {line : List Byte} {c : Conn Auth} (h : c.Past blob) :
    (handleLine cfg k line c).Yields (Flow.Past blob) := by
  rw [handleLine]
  cases hstate : c.state with
  | needName => exact (h.ended (.inl hstate)).elim
  | needAuthMethod => exact (h.ended (.inr (.inl hstate))).elim
  | needGoogleWait => exact (h.ended (.inr (.inr (.inl hstate)))).elim
  | needPasswordCreate => exact (h.ended (.inr (.inr (.inr (.inl hstate))))).elim
  | needPasswordLogin => exact (h.ended (.inr (.inr (.inr (.inr hstate))))).elim
  | needBotDisclosure => exact needBotDisclosure_past h
  | needPublicAck => exact needAgreement_past h (by simp [Conn.LoggingIn])
  | needCocAck => exact needAgreement_past h (by simp [Conn.LoggingIn])
  | needRace => exact needToken_past h fun _ => answer_past ⟨h.blob, by simp [Conn.LoggingIn]⟩
  | needClass => exact needToken_past h fun _ => answer_past ⟨h.blob, by simp [Conn.LoggingIn]⟩
  | needSex => exact needSex_past h
  | needPronouns => exact needPronouns_past h
  | inWorld => exact inWorld_past h

end Handler

/-- The connection after any number of lines more, whatever others did in between. -/
inductive Conn.Later (cfg : BrokerConfig Raw Auth) (k : ConnId) (c : Conn Auth) : Conn Auth → Prop
  | refl : Later cfg k c c
  | line {c₁ c₂ : Conn Auth} {line : List Byte} {es : List Env} {s s' : Shared cfg.ip Raw Auth} :
    Later cfg k c c₁ →
    (Handler.handleLine cfg k line c₁).run (Shared.effect cfg) es s = some (.next c₂, s') → Later cfg k c c₂

theorem Conn.Past.later {blob : Option Auth} {c c' : Conn Auth} (hc : c.Past blob) (h : c.Later cfg k c') :
    c'.Past blob := by
  induction h with
  | refl => exact hc
  | line _ hrun ih => exact (Handler.handleLine_past ih).run hrun _ rfl

/-! ## The session -/

/-- The session of a player who was there before. -/
def Conn.savedSession (c : Conn Auth) (n : Text) (saved : SavedPlayerSnapshot) : SessionInfo Auth where
  name := n
  held := false
  isBot := saved.isBot
  auth := c.authBlob
  race := saved.race
  cls := saved.cls
  sex := saved.sex
  pronouns := saved.pronouns
  peerIp := c.peerIp

/-- The session of a new player. -/
def Conn.createdSession (cfg : BrokerConfig Raw Auth) (c : Conn Auth) : SessionInfo Auth :=
  let n := c.name.getD []
  let blob := makeShardAuthBlob n (c.authMethod.getD "unknown".toList) c.googleSub c.googleEmail
    c.oidcSub c.oidcEmail none
  { name := n, held := false, isBot := c.isBot.getD false,
    auth := some (c.authBlob.getD (cfg.auth.print blob)),
    race := c.race.getD "human".toList, cls := c.cls.getD "fighter".toList,
    sex := c.sex.getD "none".toList, pronouns := c.pronouns.getD "they".toList,
    peerIp := c.peerIp }

theorem attachAuthenticatedSession_eq (c : Conn Auth) (n : Text) (saved : SavedPlayerSnapshot) :
    Handler.attachAuthenticatedSession cfg k c n saved
      = Handler.enterWorld cfg k (c.savedSession n saved) true := rfl

theorem attachCreated_eq (c : Conn Auth) : Handler.attachCreated cfg k c
    = Handler.enterWorld cfg k (c.createdSession cfg) false >>= fun entered =>
      if entered then pure (.next { c with state := .inWorld }) else pure .fail := rfl

/-- What a connection enters the world with. -/
inductive Conn.Enters (cfg : BrokerConfig Raw Auth) (c : Conn Auth) : SessionInfo Auth → Prop
  | saved (n : Text) (saved : SavedPlayerSnapshot) : Enters cfg c (c.savedSession n saved)
  | created : Enters cfg c (c.createdSession cfg)

theorem Conn.Enters.auth {c : Conn Auth} {info : SessionInfo Auth} {blob : Auth} (h : c.Enters cfg info)
    (hc : c.authBlob = some blob) : info.auth = some blob := by
  cases h with
  | saved n saved => exact hc
  | created =>
    dsimp only [Conn.createdSession]
    rw [hc, Option.getD_some]

end Slopmud.Broker
