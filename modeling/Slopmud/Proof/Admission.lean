import Slopmud.Broker.ShardLink
import Slopmud.Proof.Entering
import Slopmud.Proof.LoginRuns

/-!
# Who is listed

Over every schedule of the broker: whoever is listed had a credential for the name,
and was let in by the ban list, in the connection's own dialogue; and what the shard
is sent of a session has one form.
-/

namespace Slopmud.Broker

open Slopmud.Sbc Slopmud.Shard Machine Program Telnet Dialogue

variable {Raw Auth : Type} {cfg : BrokerConfig Raw Auth} {k : ConnId}

/-! ## The pool -/

/-- When a task may name a section. -/
def MayAsk (cfg : BrokerConfig Raw Auth) : TaskId → Dialogue Auth → Section Auth → Prop
  | .conn k, d, o => Asks cfg k d o
  | .other _, _, o => o.ofOthers = true

def MayReturn (cfg : BrokerConfig Raw Auth) : TaskId → Dialogue Auth → TaskResult Auth → Prop
  | .conn k, d, result => Returned cfg k d result
  | .other _, _, _ => True

theorem starts_safe : Pool.StartsSafe (tasks cfg).traced (MayAsk cfg) (MayReturn cfg) := by
  intro t c old p d hfresh hsafe hstart
  cases t with
  | conn k =>
    cases c with
    | once o => cases hstart
    | go =>
      cases old with
      | none =>
        cases hstart
        rw [hfresh rfl]
        exact safe_greeting
      | some q =>
        have hq := hsafe q rfl
        cases q with
        | act o next => cases hstart
        | ret result =>
          cases result with
          | none => cases hstart
          | some c =>
            cases hstart
            exact safe_roundOf (hq c rfl)
  | other i =>
    cases c with
    | go => cases hstart
    | once o =>
      have hp : o.ofOthers = true ∧ Program.act o (fun _ => .ret none) = p := by
        cases old with
        | none => exact (Option.ite_none_right_eq_some.mp hstart).imp id Option.some.inj
        | some q =>
          cases q with
          | act _ _ => cases hstart
          | ret _ => exact (Option.ite_none_right_eq_some.mp hstart).imp id Option.some.inj
      obtain ⟨ho, rfl⟩ := hp
      exact ⟨ho, fun _ _ => trivial⟩

/-- The session that a message is about. -/
def ShardMsg.session : ShardMsg Auth → SessionId
  | .attach r => r.session
  | .input session _ => session
  | .detach session => session

/-- What the dialogues say about the shared state. -/
structure Recounts (s : Traced (Shared cfg.ip Raw Auth) (Section Auth)) (d : TaskId → Dialogue Auth) : Prop where
  listed : ∀ k info, s.state.sess.sessions.lookup k = some info → listings (d (.conn k)) = [info]
  recorded : ∀ login ∈ s.state.sess.logins,
    Answered (d (.conn login.conn)) (.sess (.insert login.conn login.info login.skipped)) ()
  logged : ∀ k, ∀ info ∈ listings (d (.conn k)), ∃ login ∈ s.state.sess.logins, login.conn = k ∧ login.info = info
  /-- What was taken off the list had been listed before. -/
  removed : ∀ k info pre rest, d (.conn k) = pre ++ ⟨.sess (.remove k), some info⟩ :: rest → listings pre ≠ []
  sent : ∀ k, (sends s.trace).filter (fun msg => decide (msg.session = k)) = messages (d (.conn k))

section

variable {s s' : Traced (Shared cfg.ip Raw Auth) (Section Auth)} {t : TaskId} {o : Section Auth} {e : Env}
  {r : o.R} {d : TaskId → Dialogue Auth}

theorem logins_effect (ho : o.relists = false) (heff : (tasks cfg).traced.effect o e s = some (r, s')) :
    s'.state.sess.logins = s.state.sess.logins := by
  obtain ⟨heff, -⟩ := Tasks.traced_effect heff
  obtain ⟨x', trace⟩ := s'
  cases o with
  | sess o =>
    cases o with
    | insert k info skipped => cases ho
    | remove k => cases ho
    | _ => cases heff; rfl
  | shard o =>
    obtain ⟨y, -, hy⟩ := Option.map_eq_some_iff.mp heff
    cases hy
    rfl
  | io o =>
    obtain ⟨y, -, hy⟩ := Option.map_eq_some_iff.mp heff
    cases hy
    rfl
  | recv k =>
    dsimp only
    rw [(recv_spec heff).1]
  | reattach =>
    obtain ⟨-, heq⟩ := Option.ite_none_left_eq_some.mp heff
    cases heq
    rfl
  | _ => cases heff; rfl

/-- A message is sent by the connection that it is about. -/
theorem sends_of_mayAsk (hok : MayAsk cfg t (d t) o) (k : ConnId) :
    (sends [o]).filter (fun msg => decide (msg.session = k))
      = if t = .conn k then (sentTo ⟨o, r⟩).toList else [] := by
  by_cases hsend : ∃ k₁ msg, o = .shard (.send k₁ msg)
  · obtain ⟨k₁, msg, rfl⟩ := hsend
    cases t with
    | other i => cases hok
    | conn k₂ =>
      have hsession : msg.session = k₂ := by
        cases msg with
        | attach a =>
          obtain ⟨-, -, info, -, rfl⟩ := hok
          rfl
        | input _ _ => exact hok.2.1
        | detach _ => exact hok.2.1
      by_cases hk : k₂ = k
      · subst hk
        simp [sends, sentTo, hsession]
      · have hne : ¬ msg.session = k := fun heq => hk (hsession.symm.trans heq)
        simp [sends, hne, hk]
  · have hnone : sends [o] = [] ∧ sentTo ⟨o, r⟩ = none := by
      cases o with
      | shard o =>
        cases o with
        | send k₁ msg => exact absurd ⟨k₁, msg, rfl⟩ hsend
        | _ => exact ⟨rfl, rfl⟩
      | _ => exact ⟨rfl, rfl⟩
    rw [hnone.1, hnone.2]
    simp

theorem recounts_tells : Pool.Tells (tasks cfg).traced (MayAsk cfg) (@Recounts Raw Auth cfg) := by
  intro d t o e s s' r h hok heff
  have hnext : ∀ k, Function.update d t (d t ++ [⟨o, r⟩]) (.conn k)
      = d (.conn k) ++ if t = .conn k then [⟨o, r⟩] else [] := by
    intro k
    by_cases htk : TaskId.conn k = t
    · subst htk
      simp
    · rw [Function.update_of_ne htk, if_neg (Ne.symm htk), List.append_nil]
  have hlistings : ∀ k, listings (Function.update d t (d t ++ [⟨o, r⟩]) (.conn k))
      = listings (d (.conn k)) ++ if t = .conn k then (listedAs ⟨o, r⟩).toList else [] := by
    intro k
    rw [hnext]
    split
    · exact listings_concat _ _
    · simp
  have hremoved : ∀ k info pre rest, Function.update d t (d t ++ [⟨o, r⟩]) (.conn k)
      = pre ++ ⟨.sess (.remove k), some info⟩ :: rest → listings pre ≠ [] ∨ (t = .conn k ∧ pre = d (.conn k)
        ∧ (⟨.sess (.remove k), some info⟩ : Exchange (Section Auth) Section.R) = ⟨o, r⟩) := by
    intro k info pre rest heq
    rw [hnext] at heq
    split at heq
    · next htk =>
      rcases List.eq_nil_or_concat rest with rfl | ⟨rest, y, rfl⟩
      · obtain ⟨hpre, hx⟩ := List.append_inj' heq rfl
        exact Or.inr ⟨htk, hpre.symm, (List.cons.inj hx).1.symm⟩
      · have hsplit : d (.conn k) ++ [⟨o, r⟩] = (pre ++ ⟨.sess (.remove k), some info⟩ :: rest) ++ [y] :=
          heq.trans (by simp)
        exact Or.inl (h.removed k info pre rest (List.append_inj' hsplit rfl).1)
    · rw [List.append_nil] at heq
      exact Or.inl (h.removed k info pre rest heq)
  have hkept : ∀ {k o' r'}, Answered (d (.conn k)) o' r' →
      Answered (Function.update d t (d t ++ [⟨o, r⟩]) (.conn k)) o' r' := by
    intro k o' r' hans
    rw [Answered, hnext]
    exact List.mem_append_left _ hans
  have hsent : ∀ k, (sends s'.trace).filter (fun msg => decide (msg.session = k))
      = messages (Function.update d t (d t ++ [⟨o, r⟩]) (.conn k)) := by
    intro k
    rw [(Tasks.traced_effect heff).2, sends_append, List.filter_append, h.sent k,
      sends_of_mayAsk (r := r) hok k, hnext]
    split
    · exact (messages_concat _ _).symm
    · simp
  by_cases hrel : o.relists = true
  · -- a connection lists itself, or takes itself off the list
    cases o with
    | sess o =>
      obtain ⟨x', trace⟩ := s'
      have hstate := (Tasks.traced_effect heff).1
      cases o with
      | insert k₁ info skipped =>
        cases t with
        | other i => cases hok
        | conn k₂ =>
          obtain ⟨rfl, hout, -⟩ := hok
          cases hstate
          refine ⟨fun k info' hk => ?_, fun login hlogin => ?_, fun k info' hmem => ?_,
            fun k info' pre rest hsplit => ?_, hsent⟩
          · rw [hlistings]
            have hnew : (if k = k₁ then some info else s.state.sess.sessions.lookup k) = some info' :=
              (Table.lookup_insert_eq _ _ _ _).symm.trans hk
            split at hnew
            · next heq =>
              obtain rfl := Option.some.inj hnew
              rw [heq, hout.1, if_pos rfl]
              rfl
            · next hne => rw [if_neg (by simp [Ne.symm hne]), List.append_nil, h.listed k info' hnew]
          · rcases List.mem_cons.mp hlogin with rfl | hold
            · show Answered _ _ _
              rw [Answered, hnext, if_pos rfl]
              exact List.mem_append_right _ List.mem_cons_self
            · exact hkept (h.recorded login hold)
          · rw [hlistings] at hmem
            rcases List.mem_append.mp hmem with hold | hnew
            · obtain ⟨login, hlogin, hsame⟩ := h.logged k info' hold
              exact ⟨login, List.mem_cons_of_mem _ hlogin, hsame⟩
            · split at hnew
              · next heq =>
                cases heq
                cases List.mem_singleton.mp hnew
                exact ⟨_, List.mem_cons_self, rfl, rfl⟩
              · cases hnew
          · rcases hremoved k info' pre rest hsplit with hold | ⟨-, -, hnew⟩
            · exact hold
            · cases hnew
      | remove k₁ =>
        cases t with
        | other i => cases hok
        | conn k₂ =>
          obtain ⟨rfl, -⟩ := hok
          have hsame : ∀ k, listings (Function.update d (.conn k₁) (d (.conn k₁) ++ [⟨.sess (.remove k₁), r⟩])
              (.conn k)) = listings (d (.conn k)) := by
            intro k
            rw [hlistings]
            simp [listedAs]
          cases hstate
          refine ⟨fun k info' hk => ?_, fun login hlogin => hkept (h.recorded login hlogin),
            fun k info' hmem => h.logged k info' (hsame k ▸ hmem), fun k info' pre rest hsplit => ?_, hsent⟩
          · rw [hsame]
            have hold : (if k = k₁ then none else s.state.sess.sessions.lookup k) = some info' :=
              (Table.lookup_erase_eq _ _ _).symm.trans hk
            split at hold
            · cases hold
            · exact h.listed k info' hold
          · rcases hremoved k info' pre rest hsplit with hold | ⟨htk, rfl, hnew⟩
            · exact hold
            · cases htk
              obtain ⟨-, heq⟩ := Sigma.mk.inj hnew
              rw [h.listed k₁ info' (eq_of_heq heq).symm]
              exact List.cons_ne_nil _ _
      | _ => cases hrel
    | _ => cases hrel
  · rw [Bool.not_eq_true] at hrel
    have hlisted : listedAs ⟨o, r⟩ = none := by
      cases o with
      | sess o =>
        cases o with
        | insert _ _ _ => cases hrel
        | _ => rfl
      | _ => rfl
    have hsame : ∀ k, listings (Function.update d t (d t ++ [⟨o, r⟩]) (.conn k)) = listings (d (.conn k)) := by
      intro k
      rw [hlistings, hlisted]
      simp
    refine ⟨fun k info hk => ?_, fun login hlogin => ?_, fun k info hmem => ?_,
      fun k info pre rest hsplit => ?_, hsent⟩
    · rw [sessions_effect hrel heff] at hk
      rw [hsame]
      exact h.listed k info hk
    · rw [logins_effect hrel heff] at hlogin
      exact hkept (h.recorded login hlogin)
    · rw [logins_effect hrel heff]
      exact h.logged k info (hsame k ▸ hmem)
    · rcases hremoved k info pre rest hsplit with hold | ⟨-, -, hnew⟩
      · exact hold
      · cases hnew
        cases hrel

end

/-! ## Names -/

/-- The record that a section may add to the accounts. -/
def AcctSection.newRec? : AcctSection → Option AccountRec
  | .insertRec _ r => some r
  | .bindGoogle r => some r
  | .createIfAbsent r => some r
  | _ => none

/-- The accounts keep names as `sanitize_name` leaves them. -/
theorem AcctState.effect_names {e : Env} {s : AcctState} {o : AcctSection}
    (h : ∀ n r, s.store.get n = some r → IsName n) (hnew : ∀ r, o.newRec? = some r → IsName r.name)
    {n : Text} {r : AccountRec} (hr : (s.effect e o).2.store.get n = some r) : IsName n := by
  have hinsert : ∀ r₀ : AccountRec, IsName r₀.name → (s.store.insert r₀).get n = some r → IsName n := by
    intro r₀ h₀ hget
    rw [Accounts.get_insert] at hget
    split at hget
    · next heq => exact heq ▸ h₀
    · exact h n r hget
  -- a record that is changed keeps its name
  have hkeep : ∀ {n' : Text} {r' : AccountRec}, s.store.get n' = some r' → IsName r'.name :=
    fun {n' r'} hr' => Accounts.get_name hr' ▸ h n' r' hr'
  cases o with
  | lookup k n' => exact h n r hr
  | contains k n' => exact h n r hr
  | linkedNames p sub => exact h n r hr
  | names => exact h n r hr
  | insertRec k r' => exact hinsert r' (hnew r' rfl) hr
  | bindGoogle r' =>
    simp only [AcctState.effect] at hr
    split at hr
    · split at hr
      · exact h n r hr
      · exact h n r hr
    · exact hinsert r' (hnew r' rfl) hr
  | createIfAbsent r' =>
    simp only [AcctState.effect] at hr
    split at hr
    · exact h n r hr
    · exact hinsert r' (hnew r' rfl) hr
  | setPassword n' hash =>
    simp only [AcctState.effect] at hr
    split at hr
    · exact h n r hr
    · next r' hr' =>
      have hname : IsName r'.name := hkeep hr'
      exact hinsert { r' with pwHash := some hash } hname hr
  | grantCaps n' add =>
    simp only [AcctState.effect] at hr
    split at hr
    · exact h n r hr
    · next r' hr' =>
      have hname : IsName r'.name := hkeep hr'
      refine hinsert _ ?_ hr
      exact hname
  | setEmail n' email =>
    simp only [AcctState.effect] at hr
    split at hr
    · exact h n r hr
    · next r' hr' =>
      have hname : IsName r'.name := hkeep hr'
      split at hr
      · exact h n r hr
      · exact hinsert { r' with email } hname hr

/-- All names are as `sanitize_name` leaves them: those of accounts, those that were found for an
identity, and those that connections go on with. -/
structure NamesSane (s : Traced (Shared cfg.ip Raw Auth) (Section Auth)) (d : TaskId → Dialogue Auth) :
    Prop where
  stored : ∀ n r, s.state.acct.store.get n = some r → IsName n
  linked : ∀ t p sub names, Answered (d t) (.acct (.linkedNames p sub)) names → ∀ n ∈ names, IsName n
  asked : ∀ t k n r, Answered (d t) (.ban (.isCharBanned k n)) r → IsName n

/-- That holds as long as the admin creates only accounts of such names. -/
def NamesKept (s : Traced (Shared cfg.ip Raw Auth) (Section Auth)) (d : TaskId → Dialogue Auth) : Prop :=
  (∀ r, .acct (.createIfAbsent r) ∈ s.trace → IsName r.name) → NamesSane s d

theorem acct_effect {o : Section Auth} {e : Env} {x x' : Shared cfg.ip Raw Auth} {r : o.R}
    (heff : x.effect cfg o e = some (r, x')) :
    x'.acct = x.acct ∨ ∃ o', o = .acct o' ∧ x'.acct = (x.acct.effect e o').2 := by
  cases o with
  | acct o =>
    cases heff
    exact Or.inr ⟨o, rfl, rfl⟩
  | _ => exact Or.inl (effect_acct (by trivial) heff)

theorem names_tells : Pool.Tells (tasks cfg).traced (MayAsk cfg) (@NamesKept Raw Auth cfg) := by
  intro d t o e s s' r h hok heff hadmin
  obtain ⟨heff, htrace⟩ := Tasks.traced_effect heff
  rw [htrace] at hadmin
  have h : NamesSane s d := h fun r hr => hadmin r (List.mem_append_left _ hr)
  -- an exchange was there before, or is the one of this step
  have hnew : ∀ {t' : TaskId} {o' : Section Auth} {r' : o'.R},
      Answered (Function.update d t (d t ++ [⟨o, r⟩]) t') o' r' →
      Answered (d t') o' r' ∨ (t' = t ∧ (⟨o', r'⟩ : Exchange (Section Auth) Section.R) = ⟨o, r⟩) := by
    intro t' o' r' hans
    by_cases ht : t' = t
    · subst ht
      rw [Answered, Function.update_self] at hans
      exact (List.mem_append.mp hans).imp id fun hlast => ⟨rfl, List.mem_singleton.mp hlast⟩
    · rw [Answered, Function.update_of_ne ht] at hans
      exact Or.inl hans
  refine ⟨?_, ?_, ?_⟩
  · intro n rec hrec
    rcases acct_effect heff with hsame | ⟨o', rfl, hacct⟩
    · rw [hsame] at hrec
      exact h.stored n rec hrec
    · rw [hacct] at hrec
      refine AcctState.effect_names h.stored ?_ hrec
      -- the handlers add a record under a name for which they have asked the bans, the admin any
      intro rec' hrec'
      cases o' with
      | insertRec k rec₀ =>
        cases hrec'
        cases t with
        | other i => cases hok
        | conn k' => exact h.asked _ _ _ _ hok
      | bindGoogle rec₀ =>
        cases hrec'
        cases t with
        | other i => cases hok
        | conn k' => exact h.asked _ _ _ _ hok
      | createIfAbsent rec₀ =>
        cases hrec'
        exact hadmin _ (List.mem_append_right _ List.mem_cons_self)
      | _ => cases hrec'
  · intro t' p sub names hans n hn
    rcases hnew hans with hold | ⟨-, heq⟩
    · exact h.linked t' p sub names hold n hn
    · obtain ⟨rfl, hr⟩ := Sigma.mk.inj heq
      cases hr
      obtain ⟨state, trace⟩ := s'
      cases heff
      obtain ⟨rec, hrec, rfl⟩ := List.mem_map.mp hn
      obtain ⟨n', hn'⟩ := Table.mem_values.mp (List.mem_of_mem_filter hrec)
      exact (Accounts.get_name hn').symm ▸ h.stored n' rec hn'
  · intro t' k' n r' hans
    rcases hnew hans with hold | ⟨rfl, heq⟩
    · exact h.asked t' k' n r' hold
    · obtain ⟨rfl, -⟩ := Sigma.mk.inj heq
      cases t' with
      | other i => cases hok
      | conn k₁ =>
        cases hok with
        | sanitized hname => exact hname
        | linked p sub names hlinked hmem => exact h.linked _ p sub names hlinked n hmem

/-! ## Who is listed -/

section

variable {x : Shared cfg.ip Raw Auth} {ms : List (BrokerMove Auth)} {w : BrokerPool cfg}

/-- What a connection has exchanged with the rest of the broker. -/
abbrev talkOf (cfg : BrokerConfig Raw Auth) (x : Shared cfg.ip Raw Auth) (ms : List (BrokerMove Auth)) (k : ConnId) :
    Dialogue Auth :=
  Pool.dialogue (tasks cfg).traced (.conn k) (BrokerPool.init cfg x) ms

theorem heard (hsessions : x.sess.sessions = ∅) (hlogins : x.sess.logins = [])
    (hrun : exec (brokerStep cfg) (BrokerPool.init cfg x) ms = some w) :
    Pool.Heard (MayAsk cfg) (MayReturn cfg) (@Recounts Raw Auth cfg) w
      fun t => Pool.dialogue (tasks cfg).traced t (BrokerPool.init cfg x) ms := by
  refine Pool.heard_of_run starts_safe recounts_tells (fun _ => rfl) ?_ hrun
  have hsess : (BrokerPool.init cfg x).shared.state.sess.sessions = ∅ := hsessions
  have hlog : (BrokerPool.init cfg x).shared.state.sess.logins = [] := hlogins
  refine ⟨fun k info hk => ?_, fun login hlogin => ?_, fun k info hmem => ?_, fun k info pre rest heq => ?_,
    fun k => rfl⟩
  · rw [hsess] at hk
    cases hk
  · rw [hlog] at hlogin
    cases hlogin
  · cases hmem
  · simp at heq

theorem admitted_of_login (hsessions : x.sess.sessions = ∅) (hlogins : x.sess.logins = [])
    (hrun : exec (brokerStep cfg) (BrokerPool.init cfg x) ms = some w) {login : Login Auth}
    (hlogin : login ∈ w.shared.state.sess.logins) :
    ∃ before after, talkOf cfg x ms login.conn
        = before ++ ⟨.sess (.insert login.conn login.info login.skipped), ()⟩ :: after
      ∧ Admitted cfg login.conn before login.info := by
  have h := heard hsessions hlogins hrun
  obtain ⟨before, after, hsplit⟩ := List.append_of_mem (h.shared.recorded login hlogin)
  exact ⟨before, after, hsplit, (h.asked (.conn login.conn) before _ after hsplit).2.2⟩

/-- **Nobody is listed without a credential.** Whatever the other connections, the web servers, the admin
and the shard do: for every session ever listed, the connection itself had shown, before, what entitles
to the very name, and the auth blob that goes to the shard is the one of that credential. -/
theorem listed_with_credential (hsessions : x.sess.sessions = ∅) (hlogins : x.sess.logins = [])
    (hrun : exec (brokerStep cfg) (BrokerPool.init cfg x) ms = some w) {login : Login Auth}
    (hlogin : login ∈ w.shared.state.sess.logins) :
    ∃ before after blob, talkOf cfg x ms login.conn
        = before ++ ⟨.sess (.insert login.conn login.info login.skipped), ()⟩ :: after
      ∧ login.info.auth = some blob ∧ Credential cfg login.conn before login.info.name blob := by
  obtain ⟨before, after, hsplit, hadmitted⟩ := admitted_of_login hsessions hlogins hrun hlogin
  obtain ⟨blob, hblob, hcredential⟩ := hadmitted.credential
  exact ⟨before, after, blob, hsplit, hblob, hcredential⟩

/-- **Nobody is listed without the ban checks**, of the very name and of the very address that the session
has; and that address is the peer's own, unless a peer on this host announced it. -/
theorem listed_after_ban_checks (hsessions : x.sess.sessions = ∅) (hlogins : x.sess.logins = [])
    (hrun : exec (brokerStep cfg) (BrokerPool.init cfg x) ms = some w) {login : Login Auth}
    (hlogin : login ∈ w.shared.state.sess.logins) :
    ∃ before after, talkOf cfg x ms login.conn
        = before ++ ⟨.sess (.insert login.conn login.info login.skipped), ()⟩ :: after
      ∧ Answered before (.ban (.isCharBanned login.conn login.info.name)) none
      ∧ Answered before (.ban (.isIpBanned login.conn login.info.peerIp)) none
      ∧ SpeaksFor cfg login.conn before login.info.peerIp := by
  obtain ⟨before, after, hsplit, hadmitted⟩ := admitted_of_login hsessions hlogins hrun hlogin
  exact ⟨before, after, hsplit, hadmitted.nameAllowed, hadmitted.ipAllowed, hadmitted.address⟩

/-- **What the handlers list are sessions as the link to the shard has them**, under a name as
`sanitize_name` leaves it, if the names of the account file are like that and those that the admin
creates, which its handler sanitizes too. -/
theorem listed_named (hsessions : x.sess.sessions = ∅) (hlogins : x.sess.logins = [])
    (haccounts : ∀ n r, x.acct.store.get n = some r → IsName n)
    (hrun : exec (brokerStep cfg) (BrokerPool.init cfg x) ms = some w)
    (hadmin : ∀ r, .acct (.createIfAbsent r) ∈ w.shared.trace → IsName r.name) {login : Login Auth}
    (hlogin : login ∈ w.shared.state.sess.logins) : ∃ l : ListedSession Auth, l.info = login.info := by
  have hinit : NamesKept (BrokerPool.init cfg x).shared fun _ => ([] : Dialogue Auth) := by
    refine fun _ => ⟨haccounts, fun _ _ _ _ hans => ?_, fun _ _ _ _ hans => ?_⟩
    · cases hans
    · cases hans
  have hnames : NamesSane w.shared fun t => Pool.dialogue (tasks cfg).traced t (BrokerPool.init cfg x) ms :=
    (Pool.heard_of_run starts_safe names_tells (fun _ => rfl) hinit hrun).shared hadmin
  obtain ⟨before, after, hsplit, hadmitted⟩ := admitted_of_login hsessions hlogins hrun hlogin
  -- the bans are asked about the very name that is listed, and only for names as they should be
  have hasked : Answered (talkOf cfg x ms login.conn)
      (.ban (.isCharBanned login.conn login.info.name)) none := by
    rw [hsplit]
    exact List.mem_append_left _ hadmitted.nameAllowed
  exact ⟨⟨login.info, hnames.asked _ _ _ _ hasked⟩, rfl⟩

/-! ## What the shard is sent -/

/-- The session has been attached and detached. -/
def Gone (cfg : BrokerConfig Raw Auth) (k : ConnId) (d : Dialogue Auth) : Prop :=
  ∃ (info : SessionInfo Auth) (lines : List Text), listings d = [info]
    ∧ messages d = .attach (attachBody cfg.authLen k info) :: lines.map (ShardMsg.input k) ++ [.detach k]

/-- Of what was asked in turn, the messages are in order. -/
theorem messages_in_order {d : Dialogue Auth}
    (hasked : ∀ pre y rest, d = pre ++ y :: rest → Asks cfg k pre y.1)
    (hremoved : ∀ info pre rest, d = pre ++ ⟨.sess (.remove k), some info⟩ :: rest → listings pre ≠ []) :
    messages d = [] ∨ Entered cfg k d ∨ Gone cfg k d := by
  induction d using List.reverseRecOn with
  | nil => exact Or.inl rfl
  | append_singleton d y ih =>
    have hold := ih (fun pre z rest heq => hasked pre z (rest ++ [y]) (by simp [heq]))
      (fun info pre rest heq => hremoved info pre (rest ++ [y]) (by simp [heq]))
    have hturn : Asks cfg k d y.1 := hasked d y [] rfl
    have hsame : sentTo y = none → listedAs y = none →
        messages (d ++ [y]) = [] ∨ Entered cfg k (d ++ [y]) ∨ Gone cfg k (d ++ [y]) := by
      intro hsent hlisted
      have hm : messages (d ++ [y]) = messages d := by
        rw [messages_concat, hsent]
        exact List.append_nil _
      have hl : listings (d ++ [y]) = listings d := by
        rw [listings_concat, hlisted]
        exact List.append_nil _
      rcases hold with hold | ⟨info, lines, hinfo, hlines⟩ | ⟨info, lines, hinfo, hlines⟩
      · exact Or.inl (hm.trans hold)
      · exact Or.inr (Or.inl ⟨info, lines, hl.trans hinfo, hm.trans hlines⟩)
      · exact Or.inr (Or.inr ⟨info, lines, hl.trans hinfo, hm.trans hlines⟩)
    obtain ⟨o, r⟩ := y
    cases o with
    | sess o =>
      cases o with
      | insert k' info skipped =>
        -- it is the first time
        left
        rw [messages_concat, hturn.2.1.2]
        rfl
      | _ => exact hsame rfl rfl
    | shard o =>
      cases o with
      | send k' msg =>
        cases msg with
        | attach a =>
          obtain ⟨-, hmessages, info, hinfo, rfl⟩ := hturn
          refine Or.inr (Or.inl ⟨info, [], ?_, ?_⟩)
          · rw [listings_concat, hinfo]
            rfl
          · rw [messages_concat, hmessages]
            rfl
        | input s line =>
          obtain ⟨rfl, rfl, hentered⟩ := hturn
          exact Or.inr (Or.inl (hentered.input line))
        | detach s =>
          obtain ⟨rfl, rfl, hquits, info, hremove⟩ := hturn
          -- who was taken off the list had been listed, and is attached by now
          obtain ⟨pre, rest, rfl⟩ := List.append_of_mem hremove
          have hlisted := hremoved info pre (rest ++ [⟨.shard (.send s (.detach s)), r⟩]) (by simp)
          rcases hquits with hout | ⟨info', lines, hinfo, hlines⟩
          · have hnil := hout.1
            rw [listings, List.filterMap_append, List.append_eq_nil_iff] at hnil
            exact absurd hnil.1 hlisted
          · refine Or.inr (Or.inr ⟨info', lines, ?_, ?_⟩)
            · rw [listings_concat, hinfo]
              rfl
            · rw [messages_concat, hlines]
              rfl
      | _ => exact hsame rfl rfl
    | _ => exact hsame rfl rfl

/-- Of what is sent the channel takes a part: all of it until the manager panics. -/
theorem queued_heads_sends (trace : List (Section Auth)) : queued trace <+: sends trace :=
  (List.takeWhile_prefix _).filterMap _

theorem prefix_attached {msgs : List (ShardMsg Auth)} {r : AttachReq Auth} {lines : List Text}
    (h : msgs <+: .attach r :: lines.map (ShardMsg.input k)) :
    msgs = [] ∨ ∃ lines', msgs = .attach r :: List.map (ShardMsg.input k) lines' := by
  rcases List.prefix_cons_iff.mp h with hnil | ⟨rest, hmsgs, hrest⟩
  · exact Or.inl hnil
  · obtain ⟨lines', -, rfl⟩ := List.prefix_map_iff.mp hrest
    exact Or.inr ⟨lines', hmsgs⟩

/-- **What the shard is sent of a session**: nothing, or one `Attach`, exactly as the session is listed,
then input of this session, and at most one `Detach`, behind which nothing comes. -/
theorem session_messages (hsessions : x.sess.sessions = ∅) (hlogins : x.sess.logins = [])
    (hrun : exec (brokerStep cfg) (BrokerPool.init cfg x) ms = some w) (k : ConnId) :
    (queued w.shared.trace).filter (fun msg => decide (msg.session = k)) = []
      ∨ ∃ login ∈ w.shared.state.sess.logins, login.conn = k ∧ ∃ (lines : List Text) (rest : List (ShardMsg Auth)),
        (queued w.shared.trace).filter (fun msg => decide (msg.session = k))
          = .attach (attachBody cfg.authLen k login.info) :: lines.map (ShardMsg.input k) ++ rest
        ∧ (rest = [] ∨ rest = [.detach k]) := by
  have h := heard hsessions hlogins hrun
  have horder := messages_in_order (fun pre y rest => h.asked (.conn k) pre y rest)
    (fun info pre rest => h.shared.removed k info pre rest)
  have hqueued : (queued w.shared.trace).filter (fun msg => decide (msg.session = k))
      <+: messages (talkOf cfg x ms k) := h.shared.sent k ▸ (queued_heads_sends w.shared.trace).filter _
  have hlogged : ∀ info, listings (talkOf cfg x ms k) = [info] →
      ∃ login ∈ w.shared.state.sess.logins, login.conn = k ∧ login.info = info :=
    fun info hinfo => h.shared.logged k info (hinfo ▸ List.mem_cons_self)
  rcases horder with hnil | ⟨info, lines, hinfo, hlines⟩ | ⟨info, lines, hinfo, hlines⟩
  · rw [hnil] at hqueued
    exact Or.inl (List.prefix_nil.mp hqueued)
  · rw [hlines] at hqueued
    obtain ⟨login, hlogin, hk, rfl⟩ := hlogged info hinfo
    refine (prefix_attached hqueued).imp id ?_
    rintro ⟨lines', hq⟩
    exact ⟨login, hlogin, hk, lines', [], hq.trans (List.append_nil _).symm, Or.inl rfl⟩
  · rw [hlines] at hqueued
    obtain ⟨login, hlogin, hk, rfl⟩ := hlogged info hinfo
    rcases List.prefix_concat_iff.mp hqueued with hq | hqueued
    · exact Or.inr ⟨login, hlogin, hk, lines, [.detach k], hq, Or.inr rfl⟩
    · refine (prefix_attached hqueued).imp id ?_
      rintro ⟨lines', hq⟩
      exact ⟨login, hlogin, hk, lines', [], hq.trans (List.append_nil _).symm, Or.inl rfl⟩

end

/-! ## One player, again -/

theorem alice_listed :
    ∃ w login, exec (brokerStep .plain) (BrokerPool.init .plain aliceAway) aliceEnters = some w
      ∧ login ∈ w.shared.state.sess.logins := by
  have hfacts : (exec (brokerStep .plain) (BrokerPool.init .plain aliceAway) aliceEnters).map
      (fun w => w.shared.state.sess.logins.isEmpty) = some false := by decide +kernel
  obtain ⟨w, hrun, hw⟩ := Option.map_eq_some_iff.mp hfacts
  have hsome : w.shared.state.sess.logins ≠ [] := by simpa using hw
  obtain ⟨login, hlogin⟩ := List.exists_mem_of_ne_nil _ hsome
  exact ⟨w, login, hrun, hlogin⟩

theorem listed_with_credential_alice :
    ∃ w, exec (brokerStep .plain) (BrokerPool.init .plain aliceAway) aliceEnters = some w
      ∧ ∃ login ∈ w.shared.state.sess.logins, ∃ before after blob, talkOf .plain aliceAway aliceEnters login.conn
          = before ++ ⟨.sess (.insert login.conn login.info login.skipped), ()⟩ :: after
        ∧ login.info.auth = some blob ∧ Credential .plain login.conn before login.info.name blob := by
  obtain ⟨w, login, hrun, hlogin⟩ := alice_listed
  exact ⟨w, hrun, login, hlogin, listed_with_credential rfl rfl hrun hlogin⟩

theorem listed_after_ban_checks_alice :
    ∃ w, exec (brokerStep .plain) (BrokerPool.init .plain aliceAway) aliceEnters = some w
      ∧ ∃ login ∈ w.shared.state.sess.logins, ∃ before after, talkOf .plain aliceAway aliceEnters login.conn
          = before ++ ⟨.sess (.insert login.conn login.info login.skipped), ()⟩ :: after
        ∧ Answered before (.ban (.isCharBanned login.conn login.info.name)) none
        ∧ Answered before (.ban (.isIpBanned login.conn login.info.peerIp)) none
        ∧ SpeaksFor .plain login.conn before login.info.peerIp := by
  obtain ⟨w, login, hrun, hlogin⟩ := alice_listed
  exact ⟨w, hrun, login, hlogin, listed_after_ban_checks rfl rfl hrun hlogin⟩

theorem session_messages_alice :
    ∃ w, exec (brokerStep .plain) (BrokerPool.init .plain aliceAway) aliceEnters = some w
      ∧ ∃ login ∈ w.shared.state.sess.logins, login.conn = 7 ∧ ∃ (lines : List Text) (rest : List (ShardMsg _)),
        (queued w.shared.trace).filter (fun msg => decide (msg.session = 7))
          = .attach (attachBody BrokerConfig.plain.authLen 7 login.info) :: lines.map (ShardMsg.input 7) ++ rest
        ∧ (rest = [] ∨ rest = [.detach 7]) := by
  have hfacts : (exec (brokerStep .plain) (BrokerPool.init .plain aliceAway) aliceEnters).map
      (fun w => ((queued w.shared.trace).filter fun msg => decide (msg.session = 7)).isEmpty) = some false := by
    decide +kernel
  obtain ⟨w, hrun, hw⟩ := Option.map_eq_some_iff.mp hfacts
  rcases session_messages rfl rfl hrun 7 with hnil | hsome
  · rw [hnil] at hw
    cases hw
  · exact ⟨w, hrun, hsome⟩

end Slopmud.Broker
