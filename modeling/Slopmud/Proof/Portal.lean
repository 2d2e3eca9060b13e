import Slopmud.Lib.Machine
import Slopmud.Web.Portal

/-!
# Compliance actions and their log lines

The error of `write_compliance_logs` is only warned about, so an action is in the
logs exactly when the appends went well, each at the start of a line. An append
that broke off earlier leaves half a line, and the next line is glued to it.
-/

namespace Slopmud.Web

open Machine
open Slopmud.Sbc (IpAddr)

variable {cfg : ComplianceConfig} {L : PortalLib}

/-! ## Lines -/

/-- The end of the log is the start of a line. -/
def AtLineStart (log : Bytes) : Prop := log = [] ∨ log.getLast? = some 10

instance (log : Bytes) : Decidable (AtLineStart log) := inferInstanceAs (Decidable (_ ∨ _))

/-- From byte `mark` on, the log holds this as a whole line. -/
def HoldsLine (log : Bytes) (mark : Nat) (line : Bytes) : Prop :=
  10 ∉ line ∧ ∃ pre suf, log = pre ++ (line ++ 10 :: suf) ∧ mark ≤ pre.length ∧ AtLineStart pre

/-- Logs that grow keep their lines. -/
theorem HoldsLine.grow {log log' line : Bytes} {mark : Nat} (h : HoldsLine log mark line)
    (hpre : log <+: log') : HoldsLine log' mark line := by
  obtain ⟨hline, pre, suf, rfl, hmark, hstart⟩ := h
  obtain ⟨more, rfl⟩ := hpre
  refine ⟨hline, pre, suf ++ more, ?_, hmark, hstart⟩
  simp only [List.append_assoc, List.cons_append]

/-- A chunk that is no longer than the line with its newline gives the log the line only when it
is that, at the start of a line. -/
theorem holdsLine_append {log line chunk : Bytes} (hline : 10 ∉ line)
    (hlen : chunk.length ≤ line.length + 1) :
    HoldsLine (log ++ chunk) log.length line ↔ chunk = line ++ [10] ∧ AtLineStart log := by
  constructor
  · rintro ⟨-, pre, suf, heq, hmark, hstart⟩
    have hlens := congrArg List.length heq
    simp only [List.length_append, List.length_cons] at hlens
    -- there is room for the line only behind the whole old log
    have hpre : log = pre := List.append_inj_left heq (by omega)
    have hsuf : suf = [] := List.length_eq_zero_iff.mp (by omega)
    subst hpre
    subst hsuf
    exact ⟨List.append_cancel_left heq, hstart⟩
  · rintro ⟨rfl, hstart⟩
    exact ⟨hline, log, [], rfl, Nat.le_refl _, hstart⟩

/-- What an append leaves behind, as a chunk. -/
theorem appendLine_grows (log : Bytes) (line : Text) (fault : Option AppendFault) :
    ∃ chunk, (appendLine log line fault).2 = log ++ chunk ∧
      chunk.length ≤ (Utf8.encode line).length + 1 ∧
      (chunk = Utf8.encode line ++ [10] ↔ fault = none) := by
  have hshort : ∀ chunk : Bytes, chunk.length ≤ (Utf8.encode line).length →
      chunk ≠ Utf8.encode line ++ [10] := by
    intro chunk hle heq
    rw [heq, List.length_append, List.length_singleton] at hle
    omega
  match fault with
  | none => exact ⟨_, rfl, by simp, by simp⟩
  | some .createDir => exact ⟨[], by simp [appendLine], by simp, by simp⟩
  | some .open => exact ⟨[], by simp [appendLine], by simp, by simp⟩
  | some (.line n) =>
      have hle : ((Utf8.encode line).take n).length ≤ (Utf8.encode line).length :=
        List.length_take_le' n _
      exact ⟨_, rfl, by omega, by simp [hshort _ hle]⟩
  | some .newline => exact ⟨_, rfl, by omega, by simp⟩

/-- **An append gives the log its line exactly when it does not fail, at the start of a line.** -/
theorem appendLine_holds (log : Bytes) {line : Text} (hline : 10 ∉ Utf8.encode line)
    (fault : Option AppendFault) :
    HoldsLine (appendLine log line fault).2 log.length (Utf8.encode line) ↔
      fault = none ∧ AtLineStart log := by
  obtain ⟨chunk, hchunk, hlen, hwhole⟩ := appendLine_grows log line fault
  rw [hchunk, holdsLine_append hline hlen, hwhole]

theorem appendLine_ok (log : Bytes) (line : Text) (fault : Option AppendFault) :
    (appendLine log line fault).1 = true ↔ fault = none := by
  match fault with
  | none => simp [appendLine]
  | some .createDir => simp [appendLine]
  | some .open => simp [appendLine]
  | some (.line n) => simp [appendLine]
  | some .newline => simp [appendLine]

/-! ## The texts are lines -/

theorem newline_mem_of_encode {t : Text} (h : (10 : UInt8) ∈ Utf8.encode t) : '\n' ∈ t := by
  have hmem := Utf8.mem_decodeLossy_of_isAscii (b := 10) (by decide) h
  rw [Utf8.decodeLossy_encode] at hmem
  exact hmem

theorem newline_ne_digitChar (d : Nat) (h : d < 16) : '\n' ≠ Nat.digitChar d := by
  revert d
  decide

theorem newline_not_mem_toDigits (n : Nat) : '\n' ∉ Nat.toDigits 16 n := by
  induction n using Nat.strongRecOn with
  | ind n ih =>
    rw [Nat.toDigits_eq_if (by decide)]
    split
    · rename_i hlt
      rw [List.mem_singleton]
      exact newline_ne_digitChar n hlt
    · intro hmem
      rcases List.mem_append.mp hmem with hmem | hmem
      · exact ih (n / 16) (by omega) hmem
      · exact newline_ne_digitChar _ (Nat.mod_lt _ (by decide)) (List.mem_singleton.mp hmem)

theorem newline_not_mem_logfmtChar (c : Char) : '\n' ∉ logfmtChar c := by
  have hhex : '\n' ∉ hex4 c.toNat := by
    intro hmem
    rcases List.mem_append.mp hmem with hmem | hmem
    · have hzero : '\n' = '0' := List.eq_of_mem_replicate hmem
      revert hzero
      decide
    · exact newline_not_mem_toDigits _ hmem
  unfold logfmtChar
  split_ifs with h1 h2 hnewline
  · decide
  · decide
  · decide
  · decide
  · decide
  · intro hmem
    rcases List.mem_append.mp hmem with hmem | hmem
    · revert hmem
      decide
    · exact hhex hmem
  · intro hmem
    exact hnewline (List.mem_singleton.mp hmem).symm

theorem newline_not_mem_logfmtStr (s : Text) : '\n' ∉ logfmtStr s := by
  have hquote : '\n' ≠ '"' := by decide
  intro hmem
  simp only [logfmtStr, List.cons_append, List.mem_cons, List.mem_append, List.mem_flatMap,
    List.not_mem_nil, or_false] at hmem
  rcases hmem with h | ⟨c, -, hc⟩ | h
  · exact hquote h
  · exact newline_not_mem_logfmtChar c hc
  · exact hquote h

theorem newline_not_mem_field {pre label : Text} (hpre : '\n' ∉ pre) (hlabel : '\n' ∉ label)
    (value : Text) : '\n' ∉ pre ++ label ++ logfmtStr value := by
  rw [List.mem_append, List.mem_append]
  rintro ((hmem | hmem) | hmem)
  · exact hpre hmem
  · exact hlabel hmem
  · exact newline_not_mem_logfmtStr value hmem

/-- **A log line is one line**, whatever was typed into the forms. -/
theorem newline_not_mem_logLine (ts action reason email emailHash ip : Text) :
    '\n' ∉ logLine ts action reason email emailHash ip := by
  unfold logLine
  refine newline_not_mem_field ?_ (by decide +kernel) ip
  refine newline_not_mem_field ?_ (by decide +kernel) emailHash
  refine newline_not_mem_field ?_ (by decide +kernel) email
  refine newline_not_mem_field ?_ (by decide +kernel) reason
  refine newline_not_mem_field ?_ (by decide +kernel) action
  exact @newline_not_mem_field [] _ List.not_mem_nil (by decide +kernel) ts

theorem newline_not_mem_entries (now : Nat) (p : PendingAction) :
    '\n' ∉ (formatComplianceLogEntries cfg L now p).1 ∧
    '\n' ∉ (formatComplianceLogEntries cfg L now p).2 := by
  unfold formatComplianceLogEntries
  exact ⟨newline_not_mem_logLine _ _ _ _ _ _, newline_not_mem_logLine _ _ _ _ _ _⟩

/-! ## What a request does to the logs -/

/-- `write_compliance_logs` changes the logs only. -/
structure LogsOnly (s s' : Portal) : Prop where
  keys : s'.keys = s.keys
  sessions : s'.sessions = s.sessions
  pending : s'.pending = s.pending
  carried : s'.carried = s.carried

theorem writeComplianceLogs_frame (env : PortalEnv) (p : PendingAction) (s : Portal) :
    LogsOnly s (writeComplianceLogs cfg L env p s) := by
  unfold writeComplianceLogs
  dsimp only
  split <;> exact ⟨rfl, rfl, rfl, rfl⟩

theorem writeComplianceLogs_grows (env : PortalEnv) (p : PendingAction) (s : Portal) :
    s.auditLog <+: (writeComplianceLogs cfg L env p s).auditLog ∧
    s.publicLog <+: (writeComplianceLogs cfg L env p s).publicLog := by
  obtain ⟨audit, haudit, -⟩ :=
    appendLine_grows s.auditLog (formatComplianceLogEntries cfg L env.now p).2 env.auditFault
  obtain ⟨pub, hpub, -⟩ :=
    appendLine_grows s.publicLog (formatComplianceLogEntries cfg L env.now p).1 env.publicFault
  unfold writeComplianceLogs
  dsimp only
  rw [haudit, hpub]
  split
  · exact ⟨List.prefix_append _ _, List.prefix_append _ _⟩
  · exact ⟨List.prefix_append _ _, List.prefix_refl _⟩

/-- The audit log has the line of the action, and the public log has its line when it is enabled. -/
def Logged (cfg : ComplianceConfig) (s : Portal) (c : Carried) : Prop :=
  HoldsLine s.auditLog c.auditMark (Utf8.encode c.auditLine) ∧
  (cfg.publicLogEnabled = true → HoldsLine s.publicLog c.publicMark (Utf8.encode c.publicLine))

/-- The appends of a request do not fail, and both logs end with whole lines. -/
def AppendsWell (cfg : ComplianceConfig) (env : PortalEnv) (s : Portal) : Prop :=
  env.auditFault = none ∧ AtLineStart s.auditLog ∧
  (cfg.publicLogEnabled = true → env.publicFault = none ∧ AtLineStart s.publicLog)

/-- **`write_compliance_logs` logs an action exactly when its appends go well.** -/
theorem writeComplianceLogs_logged (env : PortalEnv) (p : PendingAction) {s₀ s : Portal}
    (haudit : s.auditLog = s₀.auditLog) (hpublic : s.publicLog = s₀.publicLog) :
    Logged cfg (writeComplianceLogs cfg L env p s) (carriedOf cfg L env s₀ p) ↔
      AppendsWell cfg env s₀ := by
  obtain ⟨hpub, haud⟩ := @newline_not_mem_entries cfg L env.now p
  have hA := appendLine_holds s.auditLog (fun h => haud (newline_mem_of_encode h)) env.auditFault
  have hP := appendLine_holds s.publicLog (fun h => hpub (newline_mem_of_encode h)) env.publicFault
  have hok := appendLine_ok s.auditLog (formatComplianceLogEntries cfg L env.now p).2 env.auditFault
  unfold Logged AppendsWell carriedOf writeComplianceLogs
  dsimp only
  rw [← haudit, ← hpublic]
  by_cases hfault : env.auditFault = none
  · by_cases hen : cfg.publicLogEnabled = true
    · rw [if_pos (by rw [hok.mpr hfault, hen]; rfl)]
      dsimp only
      rw [hA, hP, and_assoc]
    · rw [if_neg (by simp [hen])]
      dsimp only
      rw [hA, and_assoc]
      simp [hen]
  · rw [if_neg (by simp [hok, hfault])]
    dsimp only
    rw [hA]
    simp [hfault]

/-! ## Parts without effect -/

/-- A part of the portal that leaves logs and actions alone, and opens no session. -/
structure Quiet (s s' : Portal) : Prop where
  audit : s'.auditLog = s.auditLog
  pub : s'.publicLog = s.publicLog
  carried : s'.carried = s.carried
  sessions : ∀ token sess, s'.sessions.lookup token = some sess → s.sessions.lookup token = some sess

theorem Quiet.refl (s : Portal) : Quiet s s := ⟨rfl, rfl, rfl, fun _ _ h => h⟩

theorem Quiet.trans {s s' s'' : Portal} (h : Quiet s s') (h' : Quiet s' s'') : Quiet s s'' where
  audit := h'.audit.trans h.audit
  pub := h'.pub.trans h.pub
  carried := h'.carried.trans h.carried
  sessions := fun token sess hlook => h.sessions token sess (h'.sessions token sess hlook)

theorem getSession_quiet (s : Portal) (cookie : Option Text) (now : Nat) :
    Quiet s (getSession s cookie now).2 := by
  unfold getSession
  split
  · exact Quiet.refl s
  · refine ⟨rfl, rfl, rfl, ?_⟩
    intro token sess hlook
    dsimp only at hlook
    rw [Table.lookup_retain] at hlook
    exact (Option.filter_eq_some_iff.mp hlook).1

/-- Answers that give something away. -/
def Response.handsOut : Response → Bool
  | .redirect (some _) => true
  | .characters _ | .links _ | .banned _ => true
  | _ => false

/-- An answer that gives nothing away, and a portal on which nothing was done. -/
def Harmless (s : Portal) (x : Response × Portal) : Prop := x.1.handsOut = false ∧ Quiet s x.2

theorem complianceHome_harmless (env : PortalEnv) (cookie : Option Text) (s : Portal) :
    Harmless s (complianceHome cfg env cookie s) := by
  have hget := getSession_quiet s cookie env.now
  unfold complianceHome
  split
  · exact ⟨rfl, Quiet.refl s⟩
  · split <;> rename_i heq <;> rw [heq] at hget <;> exact ⟨rfl, hget⟩

theorem complianceRequestKey_harmless (env : PortalEnv) (email : Text) (s : Portal) :
    Harmless s (complianceRequestKey cfg L env email s) := by
  unfold complianceRequestKey
  split
  · exact ⟨rfl, Quiet.refl s⟩
  dsimp only
  split
  · exact ⟨rfl, Quiet.refl s⟩
  split
  · exact ⟨rfl, Quiet.refl s⟩
  split
  · exact ⟨rfl, Quiet.refl s⟩
  · exact ⟨rfl, rfl, rfl, rfl, fun _ _ h => h⟩

theorem complianceLogin_harmless (env : PortalEnv) (ip : IpAddr) (accessKey : Text) (s : Portal) :
    Harmless s (complianceLogin cfg L env ip accessKey s) := by
  unfold complianceLogin
  split
  · exact ⟨rfl, Quiet.refl s⟩
  dsimp only
  split
  · exact ⟨rfl, Quiet.refl s⟩
  split
  · exact ⟨rfl, Quiet.refl s⟩
  split
  · exact ⟨rfl, Quiet.refl s⟩
  · exact ⟨rfl, rfl, rfl, rfl, fun _ _ h => h⟩

theorem complianceActionPreview_harmless (env : PortalEnv) (ip : IpAddr) (cookie : Option Text)
    (form : ActionForm) (s : Portal) :
    Harmless s (complianceActionPreview cfg L env ip cookie form s) := by
  have hget := getSession_quiet s cookie env.now
  unfold complianceActionPreview
  split
  · exact ⟨rfl, Quiet.refl s⟩
  split
  · rename_i heq
    rw [heq] at hget
    exact ⟨rfl, hget⟩
  · rename_i heq
    rw [heq] at hget
    split
    · exact ⟨rfl, hget⟩
    split
    · exact ⟨rfl, hget⟩
    split
    · exact ⟨rfl, hget⟩
    · exact ⟨rfl, hget.audit, hget.pub, hget.carried, hget.sessions⟩

theorem takePending_quiet (env : PortalEnv) (cookie : Option Text) (pendingId understand : Text)
    (s : Portal) : Quiet s (takePending env cookie pendingId understand s).2 ∧
      ∀ resp, (takePending env cookie pendingId understand s).1 = .inl resp → resp.handsOut = false := by
  unfold takePending
  dsimp only
  split
  · exact ⟨Quiet.refl s, by intro resp h; cases h; rfl⟩
  split
  · exact ⟨Quiet.refl s, by intro resp h; cases h; rfl⟩
  split
  · exact ⟨Quiet.refl s, by intro resp h; cases h; rfl⟩
  split
  · exact ⟨⟨rfl, rfl, rfl, fun _ _ h => h⟩, by intro resp h; cases h⟩
  · have hget := getSession_quiet { s with pending := s.pending.erase (Text.trim pendingId) } cookie env.now
    split
    · rename_i heq
      rw [heq] at hget
      exact ⟨⟨hget.audit, hget.pub, hget.carried, hget.sessions⟩, by intro resp h; cases h; rfl⟩
    · rename_i heq
      rw [heq] at hget
      split
      · exact ⟨⟨hget.audit, hget.pub, hget.carried, hget.sessions⟩, by intro resp h; cases h; rfl⟩
      · exact ⟨⟨hget.audit, hget.pub, hget.carried, hget.sessions⟩, by intro resp h; cases h⟩

theorem consumeKey_quiet (env : PortalEnv) (p : PendingAction) (s : Portal) :
    Quiet s (consumeKey env p s).2 ∧
      ∀ resp, (consumeKey env p s).1 = .inl resp → resp.handsOut = false := by
  unfold consumeKey
  split
  · exact ⟨Quiet.refl s, by intro resp h; cases h; rfl⟩
  split
  · exact ⟨Quiet.refl s, by intro resp h; cases h; rfl⟩
  dsimp only
  split
  · exact ⟨⟨rfl, rfl, rfl, fun _ _ h => h⟩, by intro resp h; cases h; rfl⟩
  · exact ⟨⟨rfl, rfl, rfl, fun _ _ h => h⟩, by intro resp h; cases h⟩

/-- An action that is not carried out gives nothing away. -/
theorem outcome_handsOut (env : PortalEnv) (kind : ActionKind) (h : (outcome env kind).1 = false) :
    (outcome env kind).2.handsOut = false := by
  have hlinks : (outcome env .downloadAll).1 = false → (outcome env .downloadAll).2.handsOut = false := by
    unfold outcome
    cases env.links with
    | none => intro _; rfl
    | some html => intro h; cases h
  have hbroker : (outcome env (.banCharacter [])).1 = false →
      (outcome env (.banCharacter [])).2.handsOut = false := by
    unfold outcome
    cases env.broker with
    | unreachable => intro _; rfl
    | silent => intro h; cases h
    | replied line => intro h; cases h
  cases kind with
  | login => rfl
  | viewCharacters =>
      unfold outcome at h ⊢
      dsimp only at h ⊢
      split at h
      · cases h
      · rfl
  | downloadAll => exact hlinks h
  | downloadLogin => exact hlinks h
  | downloadCharacter name => exact hlinks h
  | banCharacter name => exact hbroker h
  | banIpPrefix cidr => exact hbroker h

/-! ## One request -/

/-- The action a request carries out, if it does. -/
def performed (cfg : ComplianceConfig) (env : PortalEnv) (s : Portal) : PortalReq → Option PendingAction
  | .confirm cookie pendingId understand =>
    if !cfg.enabled then none
    else
      match takePending env cookie pendingId understand s with
      | (.inl _, _) => none
      | (.inr p, s') =>
        if p.kind = .login then
          match consumeKey env p s' with
          | (.inl _, _) => none
          | (.inr _, _) => some p
        else if (outcome env p.kind).1 then some p else none
  | _ => none

/-- What a request may do to the logs, to the actions carried out, and for its sender. -/
structure Handled (cfg : ComplianceConfig) (L : PortalLib) (env : PortalEnv) (done : Option PendingAction)
    (s : Portal) (x : Response × Portal) : Prop where
  audit : s.auditLog <+: x.2.auditLog
  pub : s.publicLog <+: x.2.publicLog
  carried : x.2.carried = s.carried ++ (done.map (carriedOf cfg L env s)).toList
  /-- What is carried out is logged exactly when the appends go well. -/
  logged : ∀ p ∈ done, Logged cfg x.2 (carriedOf cfg L env s p) ↔ AppendsWell cfg env s
  /-- Without an action nothing is given away, and no session opened. -/
  effect : done = none → x.1.handsOut = false ∧
    ∀ token sess, x.2.sessions.lookup token = some sess → s.sessions.lookup token = some sess

theorem Harmless.handled {env : PortalEnv} {s : Portal} {x : Response × Portal} (h : Harmless s x) :
    Handled cfg L env none s x where
  audit := h.2.audit ▸ List.prefix_refl _
  pub := h.2.pub ▸ List.prefix_refl _
  carried := by simp [h.2.carried]
  logged := by intro p hp; cases hp
  effect := fun _ => ⟨h.1, h.2.sessions⟩

/-- After the logs are written, the rest of the state does not matter to them. -/
theorem handled_write {env : PortalEnv} {p : PendingAction} {s₀ s : Portal} {x : Response × Portal}
    {done : Option PendingAction} (hdone : ∀ q ∈ done, q = p)
    (haudit₀ : s.auditLog = s₀.auditLog) (hpub₀ : s.publicLog = s₀.publicLog)
    (haudit : x.2.auditLog = (writeComplianceLogs cfg L env p s).auditLog)
    (hpub : x.2.publicLog = (writeComplianceLogs cfg L env p s).publicLog)
    (hcarried : x.2.carried = s₀.carried ++ (done.map (carriedOf cfg L env s₀)).toList)
    (heffect : done = none → x.1.handsOut = false ∧
      ∀ token sess, x.2.sessions.lookup token = some sess → s₀.sessions.lookup token = some sess) :
    Handled cfg L env done s₀ x where
  audit := by
    rw [haudit, ← haudit₀]
    exact (writeComplianceLogs_grows env p s).1
  pub := by
    rw [hpub, ← hpub₀]
    exact (writeComplianceLogs_grows env p s).2
  carried := hcarried
  logged := by
    intro q hq
    have hlogged := @writeComplianceLogs_logged cfg L env p s₀ s haudit₀ hpub₀
    rw [hdone q hq]
    unfold Logged at hlogged ⊢
    rw [haudit, hpub]
    exact hlogged
  effect := heffect

theorem confirmLogin_handled (env : PortalEnv) {s₀ s : Portal} (hquiet : Quiet s₀ s) (p : PendingAction) :
    Handled cfg L env
      (match consumeKey env p s with | (.inl _, _) => none | (.inr _, _) => some p)
      s₀ (confirmLogin cfg L env s₀ p s) := by
  obtain ⟨hkey, hout⟩ := consumeKey_quiet env p s
  unfold confirmLogin
  generalize consumeKey env p s = consumed at hkey hout
  rcases consumed with ⟨resp | r, s'⟩
  · exact Harmless.handled ⟨hout resp rfl, hquiet.trans hkey⟩
  · have hall := hquiet.trans hkey
    refine handled_write (p := p) (by simp) ?_ ?_ rfl rfl ?_ (by intro h; cases h)
    · exact hall.audit
    · exact hall.pub
    · rw [(writeComplianceLogs_frame _ _ _).carried]
      simpa using hall.carried

theorem confirmOther_handled (env : PortalEnv) {s₀ s : Portal} (hquiet : Quiet s₀ s) (p : PendingAction) :
    Handled cfg L env (if (outcome env p.kind).1 then some p else none)
      s₀ (confirmOther cfg L env s₀ p s) := by
  have hframe := @writeComplianceLogs_frame cfg L env p s
  have hcarried := hframe.carried.trans hquiet.carried
  unfold confirmOther
  dsimp only
  split
  · exact handled_write (by simp) hquiet.audit hquiet.pub rfl rfl (by simp [hcarried])
      (by intro h; cases h)
  · rename_i hnot
    refine handled_write (by simp) hquiet.audit hquiet.pub rfl rfl (by simp [hcarried]) ?_
    intro _
    refine ⟨outcome_handsOut env p.kind (by simpa using hnot), ?_⟩
    intro token sess hlook
    rw [hframe.sessions] at hlook
    exact hquiet.sessions token sess hlook

/-- **Every request** lets the logs grow, has no effect unless it records an action as carried
out, and the action is logged exactly when the appends go well. -/
theorem handle_handled (env : PortalEnv) (s : Portal) (req : PortalReq) :
    Handled cfg L env (performed cfg env s req) s (s.handle cfg L env req) := by
  cases req with
  | home cookie => exact (complianceHome_harmless env cookie s).handled
  | requestKey email => exact (complianceRequestKey_harmless env email s).handled
  | login ip accessKey => exact (complianceLogin_harmless env ip accessKey s).handled
  | preview ip cookie form => exact (complianceActionPreview_harmless env ip cookie form s).handled
  | confirm cookie pendingId understand =>
      obtain ⟨htake, hout⟩ := takePending_quiet env cookie pendingId understand s
      simp only [Portal.handle, performed, complianceActionConfirm]
      split
      · exact Harmless.handled ⟨rfl, Quiet.refl s⟩
      · generalize takePending env cookie pendingId understand s = taken at htake hout
        rcases taken with ⟨resp | p, s'⟩
        · exact Harmless.handled ⟨hout resp rfl, htake⟩
        · dsimp only
          split
          · exact confirmLogin_handled env htake _
          · exact confirmOther_handled env htake _

/-- **What has an effect is recorded**: a request that gives something away, or opens a session, is
one that carries out an action. -/
theorem effect_carried (cfg : ComplianceConfig) (L : PortalLib) (env : PortalEnv) (s : Portal)
    (req : PortalReq)
    (h : (s.handle cfg L env req).1.handsOut = true ∨ ∃ token sess,
      (s.handle cfg L env req).2.sessions.lookup token = some sess ∧
      s.sessions.lookup token ≠ some sess) :
    ∃ p, (s.handle cfg L env req).2.carried = s.carried ++ [carriedOf cfg L env s p] := by
  have hstep := @handle_handled cfg L env s req
  cases hdone : performed cfg env s req with
  | some p => exact ⟨p, by rw [hstep.carried, hdone]; rfl⟩
  | none =>
      obtain ⟨hout, hsess⟩ := hstep.effect hdone
      rcases h with h | ⟨token, sess, hlook, hnew⟩
      · rw [hout] at h
        cases h
      · exact absurd (hsess token sess hlook) hnew

/-! ## Runs -/

/-- All actions carried out so far are logged. -/
def Accountable (cfg : ComplianceConfig) (s : Portal) : Prop := ∀ c ∈ s.carried, Logged cfg s c

/-- The condition: a request that carries out its action can append its lines. -/
def LogsWritten (cfg : ComplianceConfig) (s : Portal) (m : PortalEnv × PortalReq) : Prop :=
  performed cfg m.1 s m.2 ≠ none → AppendsWell cfg m.1 s

theorem Logged.grow {s s' : Portal} {c : Carried} (h : Logged cfg s c) (haudit : s.auditLog <+: s'.auditLog)
    (hpub : s.publicLog <+: s'.publicLog) : Logged cfg s' c :=
  ⟨h.1.grow haudit, fun hen => (h.2 hen).grow hpub⟩

/-- **One request** leaves an accountable portal accountable exactly when it meets the condition. -/
theorem accountable_step_iff {s s' : Portal} {m : PortalEnv × PortalReq} (h : Accountable cfg s)
    (hs : Portal.step cfg L s m = some s') : Accountable cfg s' ↔ LogsWritten cfg s m := by
  obtain ⟨env, req⟩ := m
  cases hs
  have hstep := @handle_handled cfg L env s req
  unfold LogsWritten
  constructor
  · intro h' hdone
    obtain ⟨p, hp⟩ := Option.ne_none_iff_exists'.mp hdone
    refine (hstep.logged p hp).mp (h' _ ?_)
    rw [hstep.carried, hp]
    exact List.mem_append_right _ (List.mem_singleton_self _)
  · intro hok c hc
    rw [hstep.carried, List.mem_append] at hc
    rcases hc with hc | hc
    · exact (h c hc).grow hstep.audit hstep.pub
    · obtain ⟨p, hp, rfl⟩ := Option.map_eq_some_iff.mp (Option.mem_toList.mp hc)
      exact (hstep.logged p hp).mpr (hok (by simp only [hp]; exact Option.some_ne_none p))

/-- **Every action carried out is logged, in all states of a run, exactly in the runs whose
confirmed actions can append their lines**, for all logs the portal starts with. -/
theorem compliance_actions_logged_iff (cfg : ComplianceConfig) (L : PortalLib) (keys : Option KeyDb)
    (auditLog publicLog : Bytes) (ms : List (PortalEnv × PortalReq)) :
    Throughout (Portal.step cfg L) (Accountable cfg) (.start keys auditLog publicLog) ms ↔
      Along (Portal.step cfg L) (LogsWritten cfg) (.start keys auditLog publicLog) ms := by
  have hstart : Accountable cfg (.start keys auditLog publicLog) := by
    intro c hc
    cases hc
  obtain ⟨t, hex⟩ := exec_total (fun s m => ⟨_, (rfl : Portal.step cfg L s m = _)⟩)
    (.start keys auditLog publicLog) ms
  exact throughout_iff_along id (fun h hok hs => (accountable_step_iff h hs).mpr hok)
    (fun h hs h' => (accountable_step_iff h hs).mp h') hstart hex

/-- A key for the login below; hashes are the texts themselves. -/
def someLib : PortalLib := ⟨id, fun unix _ => Nat.toDigits 10 unix, fun _ => "198.51.100.7".toList⟩

def loggingConfig : ComplianceConfig := ⟨true, ["gov".toList], 3600, true, true⟩

/-- Nothing fails but the opening of the audit log. -/
def noAuditLog : PortalEnv :=
  ⟨1000, 1000, "token".toList, false, some .open, none, none, none, .unreachable⟩

/-- A login with a valid key, confirmed. -/
def confirmedLogin : List (PortalEnv × PortalReq) :=
  [(noAuditLog, .login (.v4 0xC6336407) "key".toList),
    (noAuditLog, .confirm none "token".toList "on".toList)]

/-- **A session is opened and nothing is logged**, when the audit log cannot be opened. -/
theorem unlogged_login : ∃ s,
    exec (Portal.step loggingConfig someLib)
      (.start (some ⟨1, [.issue "key".toList "a@b.gov".toList 1000]⟩) [] []) confirmedLogin = some s ∧
    (s.sessions.lookup "token".toList).isSome ∧ s.auditLog = [] ∧ s.publicLog = [] ∧
    ¬ Accountable loggingConfig s := by
  have hrun : (exec (Portal.step loggingConfig someLib)
      (.start (some ⟨1, [.issue "key".toList "a@b.gov".toList 1000]⟩) [] []) confirmedLogin).map
      (fun s => ((s.sessions.lookup "token".toList).isSome, s.auditLog, s.publicLog, s.carried.isEmpty))
        = some (true, [], [], false) := by decide +kernel
  obtain ⟨s, hex, hout⟩ := Option.map_eq_some_iff.mp hrun
  simp only [Prod.mk.injEq] at hout
  obtain ⟨hsess, haudit, hpub, hcarried⟩ := hout
  refine ⟨s, hex, hsess, haudit, hpub, ?_⟩
  intro h
  obtain ⟨c, hc⟩ := List.exists_mem_of_ne_nil s.carried (by simpa using hcarried)
  obtain ⟨-, pre, suf, heq, -⟩ := (h c hc).1
  simp [haudit] at heq

end Slopmud.Web
