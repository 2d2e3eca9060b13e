import Slopmud.Broker.Handler

/-!
# Logins by themselves

What the rounds of `handle_conn` that end a login or create an account do when no other task comes
between their sections: what they read of the accounts, what they store, and the blob they leave for
the shard.
-/

namespace Slopmud.Broker

open Slopmud.Sbc Slopmud.Shard Telnet

variable {Raw Auth : Type} {cfg : BrokerConfig Raw Auth} {k : ConnId}

/-! ## Sections besides the accounts -/

def Section.IsAside : Section Auth → Prop
  | .acct _ => False
  | _ => True

theorem effect_acct {o : Section Auth} {e : Env} {s s' : Shared cfg.ip Raw Auth} {r : o.R}
    (ho : o.IsAside) (h : Shared.effect cfg o e s = some (r, s')) : s'.acct = s.acct := by
  cases o with
  | acct o => exact ho.elim
  | ban o => cases h; rfl
  | sess o => cases h; rfl
  | shard o =>
    obtain ⟨x, -, hx⟩ := Option.map_eq_some_iff.mp h
    cases hx
    rfl
  | io o =>
    obtain ⟨x, -, hx⟩ := Option.map_eq_some_iff.mp h
    cases hx
    rfl
  | ask q => cases h; rfl
  | recv k =>
    simp only [Shared.effect, Shared.recvEffect] at h
    split at h
    · split at h
      · cases h; rfl
      · cases h
    · split at h
      · cases h; rfl
      · split at h
        · cases h
        · split at h
          · cases h; rfl
          · cases h; rfl
  | reattach =>
    obtain ⟨-, heq⟩ := Option.ite_none_left_eq_some.mp h
    cases heq
    rfl

/-- A program that leaves the accounts alone. -/
theorem run_acct {α : Type} {p : Task Auth α} (hp : p.Names Section.IsAside) {es : List Env}
    {s s' : Shared cfg.ip Raw Auth} {a : α} (h : p.run (Shared.effect cfg) es s = some (a, s')) :
    s'.acct = s.acct :=
  hp.run_keeps (I := fun s₁ => s₁.acct = s.acct) (fun ho he hs => (effect_acct ho he).trans hs) h rfl

/-! ## After the login -/

/-- The dialogue is past the login. -/
def Conn.LoggedIn (c : Conn Auth) : Prop := c.state = .inWorld ∨ c.state = .needBotDisclosure

instance (c : Conn Auth) : Decidable c.LoggedIn := inferInstanceAs (Decidable (_ ∨ _))

/-- The connection of a round that ends in a login. -/
def Flow.login? : Flow Auth → Option (Conn Auth)
  | .next c => if c.LoggedIn then some c else none
  | _ => none

namespace Handler

theorem names_waitForSavedPlayer (n : Text) (rounds : Nat) :
    (waitForSavedPlayer k n rounds : Task Auth _).Names Section.IsAside := by
  induction rounds with
  | zero => exact ⟨trivial, fun _ => trivial⟩
  | succ rounds ih =>
    refine ⟨trivial, fun saved => ?_⟩
    cases saved with
    | some saved => exact trivial
    | none =>
      refine ⟨trivial, fun passed => ?_⟩
      cases passed with
      | true => exact trivial
      | false => exact ih

theorem names_logged {α : Type} {p q : Task Auth α} (hp : p.Names Section.IsAside) (hq : q.Names Section.IsAside) :
    (do if ← logged then p else q : Task Auth α).Names Section.IsAside := by
  refine ⟨trivial, fun ok => ?_⟩
  cases ok with
  | true => exact hp
  | false => exact hq

theorem names_enterWorld (info : SessionInfo Auth) (skipped : Bool) :
    (enterWorld cfg k info skipped).Names Section.IsAside :=
  ⟨trivial, fun _ => ⟨trivial, fun _ => names_logged ⟨trivial, fun _ => trivial⟩ trivial⟩⟩

theorem names_enterOrCreate (lead : String) (c : Conn Auth) :
    (enterOrCreate cfg k lead c).Names Section.IsAside := by
  refine (names_waitForSavedPlayer _ _).bind fun saved => ?_
  cases saved with
  | some saved =>
    refine (names_enterWorld _ _).bind fun entered => ?_
    cases entered with
    | true => exact trivial
    | false => exact trivial
  | none => exact ⟨trivial, fun _ => trivial⟩

/-- Only the event log can keep a session out of the world. -/
theorem run_enterWorld {info : SessionInfo Auth} {skipped entered : Bool} {es : List Env}
    {s s' : Shared cfg.ip Raw Auth}
    (h : (enterWorld cfg k info skipped).run (Shared.effect cfg) es s = some (entered, s')) :
    entered = true ∨ ∃ e ∈ es, e.logOk = false := by
  obtain ⟨es₁, es₂, held, s₁, rfl, -, h⟩ := Program.run_bind.mp h
  obtain ⟨es₃, es₄, u, s₂, rfl, -, h⟩ := Program.run_bind.mp h
  obtain ⟨es₅, es₆, ok, s₃, rfl, h₅, h⟩ := Program.run_bind.mp h
  obtain ⟨e, rfl, he⟩ := Program.run_op.mp h₅
  cases ok with
  | true =>
    obtain ⟨es₇, es₈, u, s₄, rfl, -, h⟩ := Program.run_bind.mp h
    obtain ⟨-, rfl, -⟩ := Program.run_ret.mp h
    exact .inl rfl
  | false => exact .inr ⟨e, by simp, congrArg Prod.fst (Option.some.inj he)⟩

/-- **After a login** the connection is in the world or asks its first question, with the same name and
the same blob, if the event log can be written. -/
theorem enterOrCreate_spec {lead : String} {c : Conn Auth} {es : List Env} {s s' : Shared cfg.ip Raw Auth}
    {flow : Flow Auth} (h : (enterOrCreate cfg k lead c).run (Shared.effect cfg) es s = some (flow, s')) :
    s'.acct = s.acct
      ∧ ((∃ c', flow = .next c' ∧ c'.LoggedIn ∧ c'.name = c.name ∧ c'.authBlob = c.authBlob)
        ∨ flow = .fail ∧ ∃ e ∈ es, e.logOk = false) := by
  refine ⟨run_acct (names_enterOrCreate lead c) h, ?_⟩
  obtain ⟨es₁, es₂, saved, s₁, rfl, -, h⟩ := Program.run_bind.mp h
  cases saved with
  | some saved =>
    obtain ⟨es₃, es₄, entered, s₂, rfl, h₃, h⟩ := Program.run_bind.mp h
    cases entered with
    | true =>
      obtain ⟨-, rfl, -⟩ := Program.run_ret.mp h
      exact .inl ⟨_, rfl, .inl rfl, rfl, rfl⟩
    | false =>
      obtain ⟨-, rfl, -⟩ := Program.run_ret.mp h
      rcases run_enterWorld h₃ with hentered | ⟨e, he, hlog⟩
      · cases hentered
      · exact .inr ⟨rfl, e, by simp [he], hlog⟩
  | none =>
    obtain ⟨es₃, es₄, u, s₂, rfl, -, h⟩ := Program.run_bind.mp h
    obtain ⟨-, rfl, -⟩ := Program.run_ret.mp h
    exact .inl ⟨_, rfl, .inr rfl, rfl, rfl⟩

theorem enterOrCreate_login {lead : String} {c c' : Conn Auth} {es : List Env} {s s' : Shared cfg.ip Raw Auth}
    {flow : Flow Auth} (h : (enterOrCreate cfg k lead c).run (Shared.effect cfg) es s = some (flow, s'))
    (hlogin : flow.login? = some c') :
    s'.acct = s.acct ∧ flow = .next c' ∧ c'.LoggedIn ∧ c'.name = c.name ∧ c'.authBlob = c.authBlob := by
  obtain ⟨hacct, ⟨c₁, rfl, hlogged, hc₁⟩ | ⟨rfl, -⟩⟩ := enterOrCreate_spec h
  · rw [Flow.login?, if_pos hlogged] at hlogin
    cases hlogin
    exact ⟨hacct, rfl, hlogged, hc₁⟩
  · cases hlogin

/-- It gets there: no saved player can be read, and the deadline has passed. -/
theorem enterOrCreate_runs (lead : String) (c : Conn Auth) (s : Shared cfg.ip Raw Auth) :
    ∃ es flow s', (∀ e ∈ es, e.nanos = 0 ∧ e.logOk = true) ∧
      (enterOrCreate cfg k lead c).run (Shared.effect cfg) es s = some (flow, s') := by
  have hload : ∀ n, loadSavedPlayer (fun _ : Raw => none) s.shard.world.file n = none := by
    intro n
    rw [loadSavedPlayer]
    split
    · rfl
    · rw [Option.bind_fun_none, Option.bind_none]
  have hread : ∀ n, Shared.effect cfg (.shard (.loadSavedPlayer k n)) { readOk := false } s
      = some (none, { s with shard := { s.shard with looked := s.shard.looked.insert k (n, false) } }) := by
    intro n
    have hnone := hload n
    simp only [Shared.effect, ShardSide.effect, Bool.false_eq_true, if_false, hnone, Option.map_some]
    rfl
  have hwait : (waitForSavedPlayer k (c.name.getD []) 20 : Task Auth _).run (Shared.effect cfg)
      [{ readOk := false }, { yes := true }] s = some (none, { s with
        shard := { s.shard with looked := s.shard.looked.insert k (c.name.getD [], false) } }) := by
    refine Program.run_act.mpr ⟨_, _, _, _, rfl, hread _, ?_⟩
    rfl
  refine ⟨[{ readOk := false }, { yes := true }, {}], .next { c with state := .needBotDisclosure }, { s with
    shard := { s.shard with looked := s.shard.looked.insert k (c.name.getD [], false) } }, by simp, ?_⟩
  exact Program.run_bind.mpr ⟨[{ readOk := false }, { yes := true }], [{}], none, _, rfl, hwait, rfl⟩

end Handler

def Handler.WebAuth.login? : Handler.WebAuth Auth → Option (Conn Auth)
  | .accepted c => some c
  | _ => none

namespace Handler

theorem login?_of_state {c : Conn Auth} {state : ConnState} (h : c.state = state) (hworld : state ≠ .inWorld)
    (hbot : state ≠ .needBotDisclosure) : (Flow.next c).login? = none := by
  have hno : ¬ c.LoggedIn := by
    rintro (hc | hc)
    · exact hworld (h.symm.trans hc)
    · exact hbot (h.symm.trans hc)
  exact if_neg hno

/-- Every save succeeds, nobody has to wait and nothing panics. -/
def quiet : Env := {}

/-! ## Single sections -/

variable {es : List Env} {s s' : Shared cfg.ip Raw Auth}

theorem run_send {msg : Bytes} {u : Unit}
    (h : (send k msg : Task Auth Unit).run (Shared.effect cfg) es s = some (u, s')) : s' = s := by
  obtain ⟨e, -, he⟩ := Program.run_op.mp h
  cases he
  rfl

theorem run_ask {q : Query} {r : q.R}
    (h : (.op (Section.ask q) : Task Auth q.R).run (Shared.effect cfg) es s = some (r, s')) :
    s' = s ∧ ∃ e, es = [e] ∧ r = q.answerOf cfg e := by
  obtain ⟨e, rfl, he⟩ := Program.run_op.mp h
  cases he
  exact ⟨rfl, e, rfl, rfl⟩

theorem run_getAccount {n : Text} {r : Option AccountRec}
    (h : (getAccount k n : Task Auth _).run (Shared.effect cfg) es s = some (r, s')) :
    r = s.acct.store.get n ∧ s'.acct.store = s.acct.store := by
  obtain ⟨e, -, he⟩ := Program.run_op.mp h
  cases he
  exact ⟨rfl, rfl⟩

theorem run_insertAccount {r : AccountRec} {saved : Bool}
    (h : (insertAccount k r : Task Auth _).run (Shared.effect cfg) es s = some (saved, s')) :
    s'.acct.store = s.acct.store.insert r := by
  obtain ⟨e, -, he⟩ := Program.run_op.mp h
  cases he
  rfl

theorem run_echoOn {c c' : Conn Auth}
    (h : (echoOn k c : Task Auth _).run (Shared.effect cfg) es s = some (c', s')) :
    s' = s ∧ c'.state = c.state ∧ c'.name = c.name := by
  rw [echoOn] at h
  split at h
  · obtain ⟨es₁, es₂, u, s₁, -, h₁, h₂⟩ := Program.run_bind.mp h
    obtain ⟨-, rfl, rfl⟩ := Program.run_ret.mp h₂
    exact ⟨run_send h₁, rfl, rfl⟩
  · obtain ⟨-, rfl, rfl⟩ := Program.run_ret.mp h
    exact ⟨rfl, rfl, rfl⟩

/-- A line that comes too soon, or a password that will not do: the dialogue stays where it is. -/
theorem run_tooSoon {wait : Nat} {prompt : String} {c : Conn Auth} {flow : Flow Auth}
    (h : (tooSoon k wait prompt c).run (Shared.effect cfg) es s = some (flow, s')) :
    s' = s ∧ ∃ c', flow = .next c' ∧ c'.state = c.state := by
  obtain ⟨es₁, es₂, u, s₁, -, h₁, h₂⟩ := Program.run_bind.mp h
  obtain ⟨-, rfl, rfl⟩ := Program.run_ret.mp h₂
  exact ⟨run_send h₁, _, rfl, rfl⟩

theorem run_badPassword {n : Text} {what prompt : String} {c : Conn Auth} {flow : Flow Auth}
    (h : (badPassword k n what prompt c).run (Shared.effect cfg) es s = some (flow, s')) :
    s' = s ∧ ∃ c', flow = .next c' ∧ c'.state = c.state := by
  obtain ⟨es₁, es₂, delay, s₁, -, h₁, h₂⟩ := Program.run_bind.mp h
  obtain ⟨es₃, es₄, u, s₂, -, h₃, h₄⟩ := Program.run_bind.mp h₂
  obtain ⟨-, rfl, rfl⟩ := Program.run_ret.mp h₄
  have hdelay := (run_ask h₁).1
  exact ⟨(run_send h₃).trans hdelay, _, rfl, rfl⟩

theorem run_refuse {msg : String} {c : Conn Auth} {res : WebAuth Auth}
    (h : (refuse k msg c).run (Shared.effect cfg) es s = some (res, s')) : res.login? = none := by
  obtain ⟨es₁, es₂, u, s₁, -, -, h⟩ := Program.run_bind.mp h
  obtain ⟨-, rfl, -⟩ := Program.run_ret.mp h
  rfl

/-! ## Passwords by telnet -/

/-- **A new account by telnet** has the hash of the trimmed line, and its blob no capabilities. -/
theorem needPasswordCreate_spec {line : List Byte} {c c' : Conn Auth} {flow : Flow Auth}
    (hstate : c.state = .needPasswordCreate)
    (h : (needPasswordCreate cfg k line c).run (Shared.effect cfg) es s = some (flow, s'))
    (hlogin : flow.login? = some c') :
    (∃ salt hash r, cfg.hashPassword salt (trimAsciiWs (values line)) = some hash
      ∧ s'.acct.store.get (c.name.getD []) = some r ∧ r.pwHash = some hash)
      ∧ c'.authBlob = some (cfg.auth.print (passwordBlob (c.name.getD []) none)) := by
  obtain ⟨es₁, es₂, wait, s₁, -, h₁, h⟩ := Program.run_bind.mp h
  split at h
  · obtain ⟨-, c₁, rfl, hc₁⟩ := run_tooSoon h
    rw [login?_of_state (hc₁.trans hstate) (by decide) (by decide)] at hlogin
    cases hlogin
  · obtain ⟨es₃, es₄, c₂, s₂, -, h₂, h⟩ := Program.run_bind.mp h
    have hc₂ := (run_echoOn h₂).2.1
    split at h
    · obtain ⟨-, c₁, rfl, hc₁⟩ := run_badPassword h
      rw [login?_of_state (hc₁.trans (hc₂.trans hstate)) (by decide) (by decide)] at hlogin
      cases hlogin
    · obtain ⟨es₅, es₆, u, s₃, -, -, h⟩ := Program.run_bind.mp h
      obtain ⟨es₇, es₈, hash, s₄, -, h₄, h⟩ := Program.run_bind.mp h
      obtain ⟨-, e, -, hhash⟩ := run_ask h₄
      cases hash with
      | none =>
        obtain ⟨-, rfl, -⟩ := Program.run_ret.mp h
        cases hlogin
      | some hash =>
        obtain ⟨es₉, es₁₀, now, s₅, -, h₅, h⟩ := Program.run_bind.mp h
        obtain ⟨es₁₁, es₁₂, saved, s₆, -, h₆, h⟩ := Program.run_bind.mp h
        have hstore := run_insertAccount h₆
        split at h
        · obtain ⟨es₁₃, es₁₄, u', s₇, -, h₇, h⟩ := Program.run_bind.mp h
          obtain ⟨hacct, -, -, -, hblob⟩ := enterOrCreate_login h hlogin
          rw [(run_ask h₇).1] at hacct
          refine ⟨⟨e.salt, hash, .withPassword (c.name.getD []) hash none now, hhash.symm, ?_, rfl⟩, hblob⟩
          rw [hacct, hstore, Accounts.get_insert]
          exact if_pos rfl
        · obtain ⟨-, rfl, -⟩ := Program.run_ret.mp h
          cases hlogin

/-- **A login by telnet** compares the trimmed line with the hash of the account, and takes the
capabilities of the account into the blob. -/
theorem needPasswordLogin_spec {line : List Byte} {c : Conn Auth} {flow : Flow Auth}
    (hstate : c.state = .needPasswordLogin)
    (hrun : (needPasswordLogin cfg k line c).run (Shared.effect cfg) es s = some (flow, s')) :
    (∃ r hash c', s.acct.store.get (c.name.getD []) = some r ∧ r.pwHash = some hash
        ∧ cfg.verifyPassword (trimAsciiWs (values line)) hash = true ∧ flow.login? = some c'
        ∧ c'.name = c.name ∧ c'.authBlob = some (cfg.auth.print (passwordBlob (c.name.getD []) r.caps)))
      ∨ flow.login? = none ∧ ((∀ e ∈ es, e.nanos = 0 ∧ e.logOk = true) →
        ∀ r hash, s.acct.store.get (c.name.getD []) = some r → r.pwHash = some hash →
          cfg.verifyPassword (trimAsciiWs (values line)) hash = false) := by
  obtain ⟨es₁, es₂, wait, s₁, rfl, h₁, h⟩ := Program.run_bind.mp hrun
  obtain ⟨rfl, e, rfl, hwait⟩ := run_ask h₁
  split at h
  · next hlate =>
    obtain ⟨-, c₁, rfl, hc₁⟩ := run_tooSoon h
    refine .inr ⟨login?_of_state (hc₁.trans hstate) (by decide) (by decide), fun hnanos => ?_⟩
    exact absurd (hwait.trans (hnanos e (by simp)).1) hlate
  · obtain ⟨es₃, es₄, account, s₂, rfl, h₂, h⟩ := Program.run_bind.mp h
    obtain ⟨rfl, -⟩ := run_getAccount h₂
    cases haccount : (s₁.acct.store.get (c.name.getD [])).bind AccountRec.pwHash with
    | none =>
      rw [haccount] at h
      obtain ⟨es₅, es₆, c₁, s₃, -, -, h⟩ := Program.run_bind.mp h
      obtain ⟨es₇, es₈, u, s₄, -, -, h⟩ := Program.run_bind.mp h
      obtain ⟨-, rfl, -⟩ := Program.run_ret.mp h
      refine .inr ⟨rfl, fun _ r hash hr hhash => ?_⟩
      rw [hr, Option.bind_some, hhash] at haccount
      cases haccount
    | some hash =>
      rw [haccount] at h
      obtain ⟨r, hr, hhash⟩ := Option.bind_eq_some_iff.mp haccount
      obtain ⟨es₅, es₆, c₁, s₃, rfl, h₃, h⟩ := Program.run_bind.mp h
      obtain ⟨-, hc₁, hname⟩ := run_echoOn h₃
      split at h
      · next hverify =>
        obtain ⟨es₇, es₈, u, s₄, rfl, -, h⟩ := Program.run_bind.mp h
        obtain ⟨es₉, es₁₀, u', s₅, rfl, -, h⟩ := Program.run_bind.mp h
        obtain ⟨-, ⟨c', rfl, hlogged, hname', hblob⟩ | ⟨rfl, e', he', hlog⟩⟩ := enterOrCreate_spec h
        · refine .inl ⟨r, hash, c', hr, hhash, hverify, if_pos hlogged, hname'.trans hname, hblob.trans ?_⟩
          rw [hr, Option.bind_some]
        · refine .inr ⟨rfl, fun hquiet => ?_⟩
          have hlogOk := (hquiet e' (by simp [he'])).2
          rw [hlog] at hlogOk
          cases hlogOk
      · next hverify =>
        obtain ⟨-, c₂, rfl, hc₂⟩ := run_badPassword h
        refine .inr ⟨login?_of_state (hc₂.trans (hc₁.trans hstate)) (by decide) (by decide), ?_⟩
        intro _ r' hash' hr' hhash'
        cases hr.symm.trans hr'
        cases hhash.symm.trans hhash'
        simpa using hverify

/-- A line with the right password is read to its end. -/
theorem needPasswordLogin_runs {line : List Byte} {c : Conn Auth} {r : AccountRec} {hash : Text}
    (hr : s.acct.store.get (c.name.getD []) = some r) (hhash : r.pwHash = some hash)
    (hverify : cfg.verifyPassword (trimAsciiWs (values line)) hash = true) :
    ∃ es flow s', (∀ e ∈ es, e.nanos = 0 ∧ e.logOk = true) ∧
      (needPasswordLogin cfg k line c).run (Shared.effect cfg) es s = some (flow, s') := by
  have haccount : (s.acct.store.get (c.name.getD [])).bind AccountRec.pwHash = some hash := by
    rw [hr, Option.bind_some, hhash]
  have hecho : ∃ es c₁, (∀ e ∈ es, e.nanos = 0 ∧ e.logOk = true) ∧ ∀ s₁ : Shared cfg.ip Raw Auth,
      (echoOn k c : Task Auth _).run (Shared.effect cfg) es s₁ = some (c₁, s₁) := by
    rw [echoOn]
    split
    · exact ⟨[quiet], _, by simp [quiet], fun s₁ => rfl⟩
    · exact ⟨[], c, by simp, fun s₁ => rfl⟩
  obtain ⟨es₁, c₁, hes₁, h₁⟩ := hecho
  -- the sections after the lookup change nothing
  let s₁ : Shared cfg.ip Raw Auth :=
    { s with acct := { s.acct with log := .looked k (c.name.getD []) :: s.acct.log } }
  obtain ⟨es₂, flow, s', hes₂, h₂⟩ := enterOrCreate_runs (k := k) "" { c₁ with
    authBlob := some (cfg.auth.print (passwordBlob (c.name.getD [])
      ((s.acct.store.get (c.name.getD [])).bind AccountRec.caps))) } s₁
  refine ⟨[quiet] ++ ([quiet] ++ (es₁ ++ ([quiet] ++ ([quiet] ++ es₂)))), flow, s', ?_, ?_⟩
  · intro e he
    simp only [List.mem_append, List.mem_singleton] at he
    rcases he with rfl | rfl | he | rfl | rfl | he
    · exact ⟨rfl, rfl⟩
    · exact ⟨rfl, rfl⟩
    · exact hes₁ e he
    · exact ⟨rfl, rfl⟩
    · exact ⟨rfl, rfl⟩
    · exact hes₂ e he
  · refine Program.run_bind.mpr ⟨_, _, 0, s, rfl, rfl, ?_⟩
    refine Program.run_bind.mpr ⟨_, _, s.acct.store.get (c.name.getD []), s₁, rfl, rfl, ?_⟩
    rw [haccount]
    refine Program.run_bind.mpr ⟨_, _, c₁, s₁, rfl, h₁ s₁, ?_⟩
    rw [if_pos hverify]
    exact Program.run_bind.mpr ⟨_, _, (), s₁, rfl, rfl, Program.run_bind.mpr ⟨_, _, (), s₁, rfl, rfl, h₂⟩⟩

/-! ## Passwords through `WEB_AUTH` -/

/-- **A new account through `WEB_AUTH`** has the hash of the password as it came. -/
theorem webAuthAs_create_spec {req : WebAuthReq} {uname : Text} {c c' : Conn Auth} {res : WebAuth Auth}
    (hrun : (webAuthAs cfg k "create".toList "password".toList req uname c).run (Shared.effect cfg) es s
      = some (res, s')) (hlogin : res.login? = some c') :
    ∃ salt hash r, cfg.hashPassword salt (Utf8.encode (req.password.getD [])) = some hash
      ∧ s'.acct.store.get uname = some r ∧ r.pwHash = some hash := by
  have hcreate : webAuthAs cfg k "create".toList "password".toList req uname c = createPassword cfg k req uname c := by
    rw [webAuthAs, if_pos rfl, if_pos rfl]
  rw [hcreate] at hrun
  rw [createPassword] at hrun
  split at hrun
  · rw [run_refuse hrun] at hlogin
    cases hlogin
  · obtain ⟨es₁, es₂, there, s₁, -, -, h⟩ := Program.run_bind.mp hrun
    split at h
    · rw [run_refuse h] at hlogin
      cases hlogin
    · obtain ⟨es₃, es₄, hash, s₂, -, h₂, h⟩ := Program.run_bind.mp h
      obtain ⟨-, e, -, hhash⟩ := run_ask h₂
      cases hash with
      | none =>
        obtain ⟨-, rfl, -⟩ := Program.run_ret.mp h
        cases hlogin
      | some hash =>
        obtain ⟨es₅, es₆, now, s₃, -, -, h⟩ := Program.run_bind.mp h
        obtain ⟨es₇, es₈, saved, s₄, -, h₄, h⟩ := Program.run_bind.mp h
        have hstore := run_insertAccount h₄
        split at h
        · obtain ⟨-, rfl, rfl⟩ := Program.run_ret.mp h
          refine ⟨e.salt, hash, .withPassword uname hash none now, hhash.symm, ?_, rfl⟩
          rw [hstore, Accounts.get_insert]
          exact if_pos rfl
        · obtain ⟨-, rfl, -⟩ := Program.run_ret.mp h
          cases hlogin

/-- **A login through `WEB_AUTH`** compares the password as it came. -/
theorem webAuthAs_login_spec {req : WebAuthReq} {uname : Text} {c : Conn Auth} {res : WebAuth Auth}
    (hrun : (webAuthAs cfg k "login".toList "password".toList req uname c).run (Shared.effect cfg) es s
      = some (res, s')) :
    (∃ r hash c', s.acct.store.get uname = some r ∧ r.pwHash = some hash
        ∧ cfg.verifyPassword (Utf8.encode (req.password.getD [])) hash = true ∧ res.login? = some c'
        ∧ c'.authBlob = some (cfg.auth.print (passwordBlob uname r.caps)))
      ∨ res.login? = none ∧ ∀ r hash, s.acct.store.get uname = some r → r.pwHash = some hash →
        cfg.verifyPassword (Utf8.encode (req.password.getD [])) hash = false := by
  have hlogin : webAuthAs cfg k "login".toList "password".toList req uname c = loginPassword cfg k req uname c := by
    rw [webAuthAs, if_pos rfl, if_neg (by decide), if_pos rfl]
  rw [hlogin] at hrun
  obtain ⟨es₁, es₂, account, s₁, -, h₁, h⟩ := Program.run_bind.mp hrun
  obtain ⟨rfl, -⟩ := run_getAccount h₁
  cases hr : s.acct.store.get uname with
  | none =>
    rw [hr] at h
    exact .inr ⟨run_refuse h, fun r hash hr' => by cases hr'⟩
  | some r =>
    rw [hr] at h
    cases hhash : r.pwHash with
    | none =>
      simp only [hhash] at h
      refine .inr ⟨run_refuse h, fun r' hash hr' hhash' => ?_⟩
      cases hr'
      rw [hhash] at hhash'
      cases hhash'
    | some hash =>
      simp only [hhash] at h
      split at h
      · next hverify =>
        obtain ⟨-, rfl, -⟩ := Program.run_ret.mp h
        exact .inl ⟨r, hash, _, rfl, hhash, hverify, rfl, rfl⟩
      · next hverify =>
        refine .inr ⟨run_refuse h, fun r' hash' hr' hhash' => ?_⟩
        cases hr'
        cases hhash.symm.trans hhash'
        simpa using hverify

/-- A `WEB_AUTH` line with the right password is read to its end. -/
theorem webAuthAs_login_runs {req : WebAuthReq} {uname : Text} {c : Conn Auth} {r : AccountRec} {hash : Text}
    (hr : s.acct.store.get uname = some r) (hhash : r.pwHash = some hash)
    (hverify : cfg.verifyPassword (Utf8.encode (req.password.getD [])) hash = true) :
    ∃ es res s', (webAuthAs cfg k "login".toList "password".toList req uname c).run (Shared.effect cfg) es s
      = some (res, s') := by
  refine ⟨[quiet], .accepted (c.authenticated uname "password".toList
    (cfg.auth.print (passwordBlob uname r.caps))),
    { s with acct := { s.acct with log := .looked k uname :: s.acct.log } }, ?_⟩
  rw [webAuthAs, if_pos rfl, if_neg (by decide), if_pos rfl]
  refine Program.run_bind.mpr ⟨[quiet], [], s.acct.store.get uname, _, rfl, rfl, ?_⟩
  simp only [hr, hhash, hverify, if_true]
  rfl

end Handler

/-- A broker with these accounts, and nobody connected. -/
def Shared.idle (a : Accounts) : Shared IpText.plain (Option (List PlayerSnapshot)) (Option AuthBlob) where
  acct := ⟨a, [], []⟩
  ban := ⟨BanState.empty, ∅, ∅⟩
  sess := ⟨∅, [], []⟩
  shard :=
    { queue := [], wire := [], linked := true, managerGone := false, sent := [], looked := ∅, served := []
      world := World.new (.direct _) true ⟨[], []⟩ none }
  io :=
    { sockets := ∅, closed := [], oauth := ∅, webSessions := ∅, pendingTcpInputs := ∅
      webIdentities := ∅, exchanged := [], built := [], acted := [] }

end Slopmud.Broker
