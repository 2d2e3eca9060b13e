import Slopmud.Lib.Machine
import Slopmud.Proof.Prefixes
import Slopmud.Sbc.DnsTask

/-!
# What sbc_enforcerd applies

The DNS check and the events of raftd change the mode, the desired bans and the applied bans, each
in its own way. Most of what should relate the three holds whatever comes in: the backend is
attached exactly while enforcing, nothing is applied otherwise, and what is applied is exempt from
nothing. Two things depend on the bans. An exempt address is spared only as long as no ban is
*wider* than the prefix that exempts it, because prefixes are compared as wholes. And an upsert
that changes the prefix of an applied ban to an exempt one leaves the old ban applied.
-/

namespace Slopmud.Sbc

open Machine EnforcerState

/-! ## Exempt prefixes -/

/-- The prefix is shorter than an exempt one, and contains it. -/
def ExemptPrefixes.HasWithin (x : ExemptPrefixes) (key : IpPrefix) : Prop :=
  ∃ p ∈ x.prefixes, key.prefixLen < p.prefixLen ∧ key.containsIp p.addr = true

/-- **What the comparison of whole prefixes misses**: a prefix that no exempt one contains has an
exempt address in it exactly when it contains a whole exempt prefix. -/
theorem ExemptPrefixes.hits_iff_hasWithin {x : ExemptPrefixes} {key : IpPrefix}
    (h : x.containsPrefix key = false) :
    (∃ ip, x.containsIp ip = true ∧ key.containsIp ip = true) ↔ x.HasWithin key := by
  constructor
  · rintro ⟨ip, hx, hkey⟩
    obtain ⟨p, hp, hip⟩ := List.any_eq_true.mp hx
    have hshort : key.prefixLen < p.prefixLen := by
      by_contra hle
      have hin : p.containsPrefix key = true :=
        IpPrefix.containsPrefix_of_containsIp (Nat.not_lt.mp hle)
          (IpPrefix.containsIp_addr (Nat.not_lt.mp hle) hip hkey)
      have hany : x.containsPrefix key = true := List.any_eq_true.mpr ⟨p, hp, hin⟩
      rw [h] at hany
      cases hany
    exact ⟨p, hp, hshort, IpPrefix.containsIp_addr (Nat.le_of_lt hshort) hkey hip⟩
  · rintro ⟨p, hp, -, hkey⟩
    exact ⟨p.addr, List.any_eq_true.mpr ⟨p, hp, p.containsIp_self⟩, hkey⟩

/-! ## Tables of bans -/

/-- Every ban is filed under its own id. -/
def Owned (m : Table Text BanEntry) : Prop := ∀ k b, m.lookup k = some b → b.banId = k

theorem owned_empty : Owned ∅ := by
  intro k b h
  simp at h

theorem Owned.insert {m : Table Text BanEntry} (h : Owned m) (b : BanEntry) :
    Owned (m.insert b.banId b) := by
  intro k b' hb'
  rw [Table.lookup_insert_eq] at hb'
  split at hb'
  · next heq => cases hb'; exact heq.symm
  · exact h k b' hb'

theorem Owned.erase {m : Table Text BanEntry} (h : Owned m) (banId : Text) :
    Owned (m.erase banId) := by
  intro k b hb
  rw [Table.lookup_erase_eq] at hb
  split at hb
  · cases hb
  · exact h k b hb

theorem owned_insertAll {m : Table Text BanEntry} (h : Owned m) (bs : List BanEntry) :
    Owned (insertAll m bs) := by
  induction bs generalizing m with
  | nil => exact h
  | cons b bs ih => exact ih (h.insert b)

/-- The bans of a table that pass a test, filed anew. -/
theorem lookup_insertAll_filter {m : Table Text BanEntry} (h : Owned m) (p : BanEntry → Bool)
    (k : Text) : (insertAll ∅ ((Table.values m).filter p)).lookup k = (m.lookup k).filter p :=
  Table.lookup_refile h p k

namespace Enforcer

/-- What may be put on at `now`. -/
def applicable (s : EnforcerState) (now : Nat) (b : BanEntry) : Bool :=
  !expired now b && !s.exempt.containsPrefix b.key

theorem attach_fold (s : EnforcerState) (now : Nat) (bs : List BanEntry)
    (acc : Table Text BanEntry × List BanApplyResult) :
    (bs.foldl (attachOne s now) acc).1 = insertAll acc.1 (bs.filter (applicable s now)) := by
  induction bs generalizing acc with
  | nil => rfl
  | cons b bs ih =>
    rw [List.foldl_cons, ih]
    by_cases hexp : expired now b = true
    · simp [attachOne, applicable, hexp]
    · by_cases hx : s.exempt.containsPrefix b.key = true
      · simp [attachOne, applicable, hexp, hx]
      · simp [attachOne, applicable, hexp, hx, insertAll]

/-- What an attach applies: the desired bans that have neither expired nor are exempt. -/
theorem attach_lookup {s : EnforcerState} (h : Owned s.desiredBans) (now : Nat) (k : Text) :
    (attach s now).1.lookup k = (s.desiredBans.lookup k).filter (applicable s now) := by
  rw [attach, attach_fold]
  exact lookup_insertAll_filter h _ k

/-! ## What always holds -/

/-- What holds whatever the bans are. -/
structure Ready (e : Enforcer) : Prop where
  /-- Attached and enforcing are the same. -/
  attached : e.backendAttached = (e.bans.enforcementMode == .enforcing)
  /-- Desired bans are filed under their ids. -/
  owned : Owned e.bans.desiredBans
  /-- Nothing is applied when failing open. -/
  idle : e.bans.enforcementMode = .failOpen → ∀ k, e.bans.appliedBans.lookup k = none
  /-- What is applied lies in no exempt prefix. -/
  spared : ∀ k b, e.bans.appliedBans.lookup k = some b → e.bans.exempt.containsPrefix b.key = false

variable {cfg : EnforcerConfig}

theorem ready_init (cfg : EnforcerConfig) : Ready (init cfg) where
  attached := rfl
  owned := owned_empty
  idle := by intro _ k; rfl
  spared := by intro k b h; simp [init] at h

/-- The bans that a step puts on. -/
def putOn (cfg : EnforcerConfig) (e : Enforcer) : EnforcerMove → List BanEntry
  | .dns now resolved =>
    if !e.backendAttached && (check cfg resolved).1 then
      (Table.values e.bans.desiredBans).filter (applicable e.bans now)
    else []
  | .event now env =>
    if e.bans.enforcementMode = .enforcing then
      match env.event with
      | .snapshot bans _ => (Table.values (insertAll ∅ (bans.filter fun b => !expired now b))).filter
          fun b => !e.bans.exempt.containsPrefix b.key
      | .banUpserted entry => if e.bans.exempt.containsPrefix entry.key then [] else [entry]
      | _ => []
    else []

/-- How the applied bans after a step come about. -/
structure Applies (e e' : Enforcer) (put : List BanEntry) : Prop where
  /-- What is applied afterwards was applied before, or is put on. -/
  before : ∀ k b, e'.bans.appliedBans.lookup k = some b → b ∈ put ∨ e.bans.appliedBans.lookup k = some b
  /-- What is put on is applied afterwards. -/
  after : ∀ b ∈ put, ∃ k, e'.bans.appliedBans.lookup k = some b
  /-- None of it is exempt. -/
  spared : ∀ b ∈ put, e.bans.exempt.containsPrefix b.key = false
  exempt : e'.bans.exempt = e.bans.exempt

theorem applies_none {e e' : Enforcer} (hx : e'.bans.exempt = e.bans.exempt)
    (h : ∀ k b, e'.bans.appliedBans.lookup k = some b → e.bans.appliedBans.lookup k = some b) :
    Applies e e' [] where
  before k b hb := Or.inr (h k b hb)
  after := by simp
  spared := by simp
  exempt := hx

/-- A table made of the values of another one that pass a test. -/
theorem applies_filter {e e' : Enforcer} {m : Table Text BanEntry} {p : BanEntry → Bool}
    (hx : e'.bans.exempt = e.bans.exempt)
    (hp : ∀ b, p b = true → e.bans.exempt.containsPrefix b.key = false)
    (h : ∀ k, e'.bans.appliedBans.lookup k = (m.lookup k).filter p) :
    Applies e e' ((Table.values m).filter p) where
  before := by
    intro k b hb
    rw [h k] at hb
    obtain ⟨hb, hpb⟩ := Option.filter_eq_some_iff.mp hb
    exact Or.inl (List.mem_filter.mpr ⟨Table.mem_values.mpr ⟨k, hb⟩, hpb⟩)
  after := by
    intro b hb
    obtain ⟨hb, hpb⟩ := List.mem_filter.mp hb
    obtain ⟨k, hk⟩ := Table.mem_values.mp hb
    exact ⟨k, by rw [h k, hk, Option.filter_some_pos hpb]⟩
  spared b hb := hp b (List.mem_filter.mp hb).2
  exempt := hx

/-- What a DNS check does: the backend follows the outcome. -/
structure Checked (e e' : Enforcer) (now : Nat) (enabled : Bool) : Prop where
  mode : e'.bans.enforcementMode = wantMode enabled
  attached : e'.backendAttached = enabled
  desired : e'.bans.desiredBans = e.bans.desiredBans
  exempt : e'.bans.exempt = e.bans.exempt
  /-- Nothing is applied while failing open. -/
  detached : enabled = false → ∀ k, e'.bans.appliedBans.lookup k = none
  /-- An attach applies what is applicable. -/
  attaches : enabled = true → e.backendAttached = false → ∀ k,
    e'.bans.appliedBans.lookup k = (e.bans.desiredBans.lookup k).filter (applicable e.bans now)
  /-- A backend that is attached already goes on. -/
  goesOn : enabled = true → e.backendAttached = true → e'.bans.appliedBans = e.bans.appliedBans

theorem next_dns {e : Enforcer} (h : Ready e) (now : Nat) (resolved : Except Text (List IpAddr)) :
    Checked e (e.next cfg (.dns now resolved)) now (check cfg resolved).1 := by
  have hidle : e.backendAttached = false → ∀ k, e.bans.appliedBans.lookup k = none := by
    intro hb
    refine h.idle ?_
    have hatt := h.attached
    cases hm : e.bans.enforcementMode with
    | enforcing => rw [hb, hm] at hatt; cases hatt
    | failOpen => rfl
  have hattach : ∀ k, (attach { e.bans with enforcementMode := .enforcing } now).1.lookup k
      = (e.bans.desiredBans.lookup k).filter (applicable e.bans now) := by
    intro k
    exact attach_lookup (s := { e.bans with enforcementMode := .enforcing }) h.owned now k
  cases hen : (check cfg resolved).1 <;> cases hb : e.backendAttached <;>
    constructor <;> simp_all [next, dnsSection, setAttached, wantMode]

theorem next_applies {e : Enforcer} (h : Ready e) (m : EnforcerMove) :
    Applies e (e.next cfg m) (putOn cfg e m) := by
  cases m with
  | dns now resolved =>
    have hc : Checked e (e.next cfg (.dns now resolved)) now (check cfg resolved).1 := next_dns h now resolved
    cases hen : (check cfg resolved).1 with
    | false =>
      rw [show putOn cfg e (.dns now resolved) = [] by simp [putOn, hen]]
      refine applies_none hc.exempt ?_
      intro k b hb
      rw [hc.detached hen k] at hb
      cases hb
    | true =>
      cases hb : e.backendAttached with
      | true =>
        rw [show putOn cfg e (.dns now resolved) = [] by simp [putOn, hb]]
        refine applies_none hc.exempt ?_
        intro k b
        rw [hc.goesOn hen hb]
        exact id
      | false =>
        rw [show putOn cfg e (.dns now resolved)
          = (Table.values e.bans.desiredBans).filter (applicable e.bans now) by simp [putOn, hen, hb]]
        exact applies_filter hc.exempt (by simp [applicable]) (hc.attaches hen hb)
  | event now env =>
    obtain ⟨idx, ev⟩ := env
    cases hm : e.bans.enforcementMode with
    | failOpen =>
      rw [show putOn cfg e (.event now ⟨idx, ev⟩) = [] by simp [putOn, hm]]
      cases ev <;> exact applies_none (by simp [next, foldEvent, hm]) (by simp [next, foldEvent, hm])
    | enforcing =>
      cases ev with
      | snapshot bans holds =>
        simp only [putOn, hm, if_true]
        refine applies_filter (by simp [next, foldEvent, hm]) (by simp) ?_
        intro k
        simp only [next, foldEvent, hm, beq_self_eq_true, if_true]
        exact lookup_insertAll_filter (owned_insertAll owned_empty _) _ k
      | banUpserted entry =>
        simp only [putOn, hm, if_true]
        cases hx : e.bans.exempt.containsPrefix entry.key with
        | true =>
          simp only [if_true]
          exact applies_none (by simp [next, foldEvent, hm, hx]) (by simp [next, foldEvent, hm, hx])
        | false =>
          simp only [Bool.false_eq_true, if_false]
          have hlook : ∀ k, (e.next cfg (.event now ⟨idx, .banUpserted entry⟩)).bans.appliedBans.lookup k
              = if k = entry.banId then some entry else e.bans.appliedBans.lookup k := by
            intro k
            simp [next, foldEvent, hm, hx, Table.lookup_insert_eq]
          refine ⟨?_, ?_, ?_, by simp [next, foldEvent, hm, hx]⟩
          · intro k b hb
            rw [hlook k] at hb
            split at hb
            · exact Or.inl (by simpa using hb.symm)
            · exact Or.inr hb
          · intro b hb
            exact ⟨entry.banId, by rw [hlook, if_pos rfl, List.mem_singleton.mp hb]⟩
          · intro b hb
            rw [List.mem_singleton.mp hb, hx]
      | banDeleted banId =>
        simp only [putOn, hm, if_true]
        refine applies_none (by simp [next, foldEvent, hm]) ?_
        intro k b hb
        simp only [next, foldEvent, hm, beq_self_eq_true, if_true, Table.lookup_erase_eq] at hb
        split at hb
        · cases hb
        · exact hb
      | legalHoldUpserted entry => simp only [putOn, hm, if_true]; exact applies_none rfl fun _ _ => id
      | legalHoldDeleted nameLc => simp only [putOn, hm, if_true]; exact applies_none rfl fun _ _ => id
      | enforcementStatus status => simp only [putOn, hm, if_true]; exact applies_none rfl fun _ _ => id
      | banApplyResult report => simp only [putOn, hm, if_true]; exact applies_none rfl fun _ _ => id

theorem foldEvent_mode (s : EnforcerState) (now : Nat) (env : EventEnvelope) :
    (s.foldEvent now env).1.enforcementMode = s.enforcementMode
      ∧ (s.foldEvent now env).1.exempt = s.exempt := by
  obtain ⟨idx, ev⟩ := env
  cases ev with
  | snapshot bans holds => simp only [foldEvent]; split <;> exact ⟨rfl, rfl⟩
  | banUpserted entry => simp only [foldEvent]; split <;> (try split) <;> exact ⟨rfl, rfl⟩
  | banDeleted banId => simp only [foldEvent]; split <;> exact ⟨rfl, rfl⟩
  | _ => exact ⟨rfl, rfl⟩

theorem foldEvent_owned {s : EnforcerState} (h : Owned s.desiredBans) (now : Nat)
    (env : EventEnvelope) : Owned (s.foldEvent now env).1.desiredBans := by
  obtain ⟨idx, ev⟩ := env
  cases ev with
  | snapshot bans holds =>
    simp only [foldEvent]
    split <;> exact owned_insertAll owned_empty _
  | banUpserted entry =>
    have hnot : ¬ (⟨idx, .banUpserted entry⟩ : EventEnvelope).event.IsSnapshot := fun h => h
    rw [foldEvent_desired hnot]
    exact h.insert entry
  | banDeleted banId =>
    have hnot : ¬ (⟨idx, .banDeleted banId⟩ : EventEnvelope).event.IsSnapshot := fun h => h
    rw [foldEvent_desired hnot]
    exact h.erase banId
  | _ => exact h

theorem ready_next {e : Enforcer} (h : Ready e) (m : EnforcerMove) : Ready (e.next cfg m) := by
  have happ : Applies e (e.next cfg m) (putOn cfg e m) := next_applies h m
  have hspared : ∀ k b, (e.next cfg m).bans.appliedBans.lookup k = some b →
      (e.next cfg m).bans.exempt.containsPrefix b.key = false := by
    intro k b hb
    rw [happ.exempt]
    rcases happ.before k b hb with hput | hold
    · exact happ.spared b hput
    · exact h.spared k b hold
  cases m with
  | dns now resolved =>
    have hc : Checked e (e.next cfg (.dns now resolved)) now (check cfg resolved).1 := next_dns h now resolved
    refine ⟨?_, hc.desired ▸ h.owned, ?_, hspared⟩
    · rw [hc.mode, hc.attached]
      cases (check cfg resolved).1 <;> rfl
    · intro hm
      refine hc.detached ?_
      rw [hc.mode] at hm
      cases hen : (check cfg resolved).1 with
      | false => rfl
      | true => rw [hen] at hm; cases hm
  | event now env =>
    have hmode := (foldEvent_mode e.bans now env).1
    refine ⟨?_, foldEvent_owned h.owned now env, ?_, hspared⟩
    · exact h.attached.trans (congrArg (· == EnforcementMode.enforcing) hmode.symm)
    · intro hm k
      have hm' : e.bans.enforcementMode = .failOpen := hmode ▸ hm
      cases hb : (e.next cfg (.event now env)).bans.appliedBans.lookup k with
      | none => rfl
      | some b =>
        rcases happ.before k b hb with hput | hold
        · simp [putOn, hm'] at hput
        · rw [h.idle hm' k] at hold
          cases hold

/-! ## Exempt addresses -/

/-- No ban that is applied contains an exempt address. -/
def ExemptSpared (e : Enforcer) : Prop :=
  ∀ ip, e.bans.exempt.containsIp ip = true →
    ∀ k b, e.bans.appliedBans.lookup k = some b → b.key.containsIp ip = false

/-- No ban that the step puts on is wider than an exempt prefix that it contains. -/
def NoWideBan (cfg : EnforcerConfig) (e : Enforcer) (m : EnforcerMove) : Prop :=
  ∀ b ∈ putOn cfg e m, ¬ e.bans.exempt.HasWithin b.key

theorem exemptSpared_init (cfg : EnforcerConfig) : ExemptSpared (init cfg) := by
  intro ip _ k b hb
  simp [init] at hb

/-- A ban that is exempt from nothing hits no exempt address unless it is too wide. -/
theorem spares_of_not_hasWithin {x : ExemptPrefixes} {key : IpPrefix} (h : x.containsPrefix key = false)
    (hwide : ¬ x.HasWithin key) {ip : IpAddr} (hip : x.containsIp ip = true) :
    key.containsIp ip = false := by
  cases hk : key.containsIp ip with
  | false => rfl
  | true => exact absurd ((ExemptPrefixes.hits_iff_hasWithin h).mp ⟨ip, hip, hk⟩) hwide

theorem exemptSpared_next {e : Enforcer} (h : Ready e) (hs : ExemptSpared e) {m : EnforcerMove}
    (hok : NoWideBan cfg e m) : ExemptSpared (e.next cfg m) := by
  have happ : Applies e (e.next cfg m) (putOn cfg e m) := next_applies h m
  intro ip hip k b hb
  rw [happ.exempt] at hip
  rcases happ.before k b hb with hput | hold
  · exact spares_of_not_hasWithin (happ.spared b hput) (hok b hput) hip
  · exact hs ip hip k b hold

/-- A step that puts on a ban that is too wide hits an exempt address. -/
theorem noWideBan_of_exemptSpared {e : Enforcer} (h : Ready e) {m : EnforcerMove}
    (hs : ExemptSpared (e.next cfg m)) : NoWideBan cfg e m := by
  have happ : Applies e (e.next cfg m) (putOn cfg e m) := next_applies h m
  intro b hb hwide
  obtain ⟨ip, hip, hkey⟩ := (ExemptPrefixes.hits_iff_hasWithin (happ.spared b hb)).mpr hwide
  obtain ⟨k, hk⟩ := happ.after b hb
  have hno := hs ip (happ.exempt ▸ hip) k b hk
  rw [hkey] at hno
  cases hno

/-- **Exempt addresses are spared** in every state of a run exactly when no step of it puts on a
ban that is wider than an exempt prefix within it. -/
theorem exempt_spared_iff (cfg : EnforcerConfig) (ms : List EnforcerMove) :
    Throughout (step cfg) ExemptSpared (init cfg) ms ↔ Along (step cfg) (NoWideBan cfg) (init cfg) ms := by
  obtain ⟨t, hex⟩ := exec_total (fun e m => ⟨e.next cfg m, rfl⟩) (init cfg) ms
  refine throughout_iff_along (I := fun e => Ready e ∧ ExemptSpared e) (fun h => h.2) ?_ ?_
    ⟨ready_init cfg, exemptSpared_init cfg⟩ hex
  · rintro e e' m ⟨hr, hs⟩ hok hstep
    cases hstep
    exact ⟨ready_next hr m, exemptSpared_next hr hs hok⟩
  · rintro e e' m ⟨hr, -⟩ hstep hs
    cases hstep
    exact noWideBan_of_exemptSpared hr hs

/-- One address is exempt, and enforcement is on whenever the name resolves. -/
def oneExempt : EnforcerConfig :=
  ⟨"n1".toList, "on.example".toList, none, ⟨[⟨.v4 0x0a010203#32, 32⟩]⟩⟩

/-- A ban on the whole of `10.0.0.0/8`. -/
def wideBan : BanEntry := ⟨"b1".toList, ⟨.v4 0x0a000000#32, 8⟩, 100, "ops".toList, "".toList, 0⟩

/-- The ban comes while enforcing, and the exempt address is banned with the rest. -/
theorem wide_ban_hits_exempt : ∃ e, exec (step oneExempt) (init oneExempt)
      [.dns 1 (.ok [.v4 0x7f000001#32]), .event 2 ⟨1, .banUpserted wideBan⟩] = some e
    ∧ ¬ ExemptSpared e := by
  refine ⟨_, rfl, ?_⟩
  intro hspared
  have hkey : wideBan.key.containsIp (.v4 0x0a010203#32) = false :=
    hspared _ (by decide) "b1".toList wideBan (by decide +kernel)
  revert hkey
  decide

end Enforcer

namespace Watched

variable {cfg : EnforcerConfig}

/-- What the mode says about the backend and about the two tables. -/
structure MatchesMode (w : Watched) : Prop where
  /-- The backend is attached exactly while enforcing. -/
  attached : w.enf.backendAttached = true ↔ w.enf.bans.enforcementMode = .enforcing
  /-- Otherwise nothing is applied. -/
  idle : w.enf.bans.enforcementMode ≠ .enforcing → ∀ k, w.enf.bans.appliedBans.lookup k = none
  /-- What is applied is desired. -/
  subset : w.enf.bans.enforcementMode = .enforcing →
    ∀ k b, w.enf.bans.appliedBans.lookup k = some b → w.enf.bans.desiredBans.lookup k = some b
  /-- No exempt prefix contains any of it. -/
  spared : w.enf.bans.enforcementMode = .enforcing →
    ∀ k b, w.enf.bans.appliedBans.lookup k = some b → w.enf.bans.exempt.containsPrefix b.key = false
  /-- What is desired, not exempt, and had not expired when it was last attached or received, is
  applied. -/
  full : w.enf.bans.enforcementMode = .enforcing →
    ∀ k b, w.enf.bans.desiredBans.lookup k = some b → w.enf.bans.exempt.containsPrefix b.key = false →
      expired (w.seen k) b = false → w.enf.bans.appliedBans.lookup k = some b

/-- An upsert does not change the prefix of an applied ban to an exempt one. -/
def KeepsPrefix (w : Watched) : EnforcerMove → Prop
  | .event _ ⟨_, .banUpserted entry⟩ => w.enf.bans.enforcementMode = .enforcing →
      w.enf.bans.exempt.containsPrefix entry.key = true →
      w.enf.bans.appliedBans.lookup entry.banId = none
  | _ => True

theorem matchesMode_init (cfg : EnforcerConfig) : MatchesMode (init cfg) where
  attached := by simp [init, Enforcer.init]
  idle := by intro _ k; rfl
  subset := by intro h; cases h
  spared := by intro h; cases h
  full := by intro h; cases h

/-- The two facts that a step has to be asked for, while enforcing. -/
structure Follows (w : Watched) : Prop where
  subset : w.enf.bans.enforcementMode = .enforcing →
    ∀ k b, w.enf.bans.appliedBans.lookup k = some b → w.enf.bans.desiredBans.lookup k = some b
  full : w.enf.bans.enforcementMode = .enforcing →
    ∀ k b, w.enf.bans.desiredBans.lookup k = some b → w.enf.bans.exempt.containsPrefix b.key = false →
      expired (w.seen k) b = false → w.enf.bans.appliedBans.lookup k = some b

/-- The others hold of every state. -/
theorem MatchesMode.of_ready {w : Watched} (h : w.enf.Ready) (hf : Follows w) : MatchesMode w where
  attached := by rw [h.attached]; exact beq_iff_eq
  idle := by
    intro hm
    refine h.idle ?_
    cases hmode : w.enf.bans.enforcementMode with
    | enforcing => exact absurd hmode hm
    | failOpen => rfl
  subset := hf.subset
  spared := fun _ => h.spared
  full := hf.full

theorem follows_failOpen {w : Watched} (h : w.enf.bans.enforcementMode = .failOpen) : Follows w where
  subset := by
    intro hm
    rw [h] at hm
    cases hm
  full := by
    intro hm
    rw [h] at hm
    cases hm

theorem follows_dns {w : Watched} (hr : w.enf.Ready) (h : Follows w) (now : Nat)
    (resolved : Except Text (List IpAddr)) :
    Follows ⟨w.enf.next cfg (.dns now resolved), w.seenAfter cfg (.dns now resolved)⟩ := by
  have hc : Enforcer.Checked w.enf (w.enf.next cfg (.dns now resolved)) now
    (Enforcer.check cfg resolved).1 := Enforcer.next_dns hr now resolved
  cases hen : (Enforcer.check cfg resolved).1 with
  | false =>
    have hmode : (w.enf.next cfg (.dns now resolved)).bans.enforcementMode = .failOpen := by
      rw [hc.mode, hen]; rfl
    exact follows_failOpen hmode
  | true =>
    cases hb : w.enf.backendAttached with
    | true =>
      -- the backend was attached before: nothing changes
      have hm : w.enf.bans.enforcementMode = .enforcing := by
        have := hr.attached
        rw [hb] at this
        exact beq_iff_eq.mp this.symm
      have hseen : w.seenAfter cfg (.dns now resolved) = w.seen := by simp [seenAfter, hb]
      refine ⟨fun _ => ?_, fun _ => ?_⟩
      · rw [hc.goesOn hen hb, hc.desired]
        exact h.subset hm
      · rw [hc.goesOn hen hb, hc.desired, hc.exempt, hseen]
        exact h.full hm
    | false =>
      have hseen : w.seenAfter cfg (.dns now resolved) = fun _ => now := by simp [seenAfter, hb, hen]
      refine ⟨fun _ k b hk => ?_, fun _ k b hk hx hexp => ?_⟩
      · rw [hc.attaches hen hb k] at hk
        rw [hc.desired]
        exact (Option.filter_eq_some_iff.mp hk).1
      · rw [hc.desired] at hk
        rw [hc.exempt] at hx
        rw [hseen] at hexp
        rw [hc.attaches hen hb k, hk, Option.filter_some_pos]
        simp [Enforcer.applicable, hexp, hx]

theorem follows_event {w : Watched} (h : Follows w) {now : Nat} {env : EventEnvelope}
    (hok : KeepsPrefix w (.event now env)) :
    Follows ⟨w.enf.next cfg (.event now env), w.seenAfter cfg (.event now env)⟩ := by
  have hmode := (Enforcer.foldEvent_mode w.enf.bans now env).1
  cases hm : w.enf.bans.enforcementMode with
  | failOpen =>
    have hno : (w.enf.next cfg (.event now env)).bans.enforcementMode = .failOpen := hmode.trans hm
    exact follows_failOpen hno
  | enforcing =>
    have hsub := h.subset hm
    have hfull := h.full hm
    obtain ⟨idx, ev⟩ := env
    cases ev with
    | snapshot bans holds =>
      have hlook : ∀ k, (w.enf.next cfg (.event now ⟨idx, .snapshot bans holds⟩)).bans.appliedBans.lookup k
          = ((w.enf.next cfg (.event now ⟨idx, .snapshot bans holds⟩)).bans.desiredBans.lookup k).filter
            fun b => !w.enf.bans.exempt.containsPrefix b.key := by
        intro k
        simp only [Enforcer.next, foldEvent, hm, beq_self_eq_true, if_true]
        exact lookup_insertAll_filter (owned_insertAll owned_empty _) _ k
      have hx' := (Enforcer.foldEvent_mode w.enf.bans now ⟨idx, .snapshot bans holds⟩).2
      refine ⟨fun _ k b hk => ?_, fun _ k b hk hx _ => ?_⟩
      · rw [hlook k] at hk
        exact (Option.filter_eq_some_iff.mp hk).1
      · have hx : w.enf.bans.exempt.containsPrefix b.key = false := hx' ▸ hx
        rw [hlook k, hk, Option.filter_some_pos (by simp [hx])]
    | banUpserted entry =>
      cases hx : w.enf.bans.exempt.containsPrefix entry.key with
      | true =>
        have hnone := hok hm hx
        refine ⟨fun _ k b hk => ?_, fun _ k b hk hxb hexp => ?_⟩
        · simp only [Enforcer.next, foldEvent, hm, hx, beq_self_eq_true, if_true, Table.lookup_insert_eq]
            at hk ⊢
          split
          · next heq => rw [heq, hnone] at hk; cases hk
          · exact hsub k b hk
        · simp only [Enforcer.next, foldEvent, hm, hx, beq_self_eq_true, if_true,
            Table.lookup_insert_eq] at hk hxb ⊢
          split at hk
          · cases hk
            rw [hx] at hxb
            cases hxb
          · next hne =>
            simp only [seenAfter, Function.update_of_ne hne] at hexp
            exact hfull k b hk hxb hexp
      | false =>
        refine ⟨fun _ k b hk => ?_, fun _ k b hk hxb hexp => ?_⟩
        · simp only [Enforcer.next, foldEvent, hm, hx, beq_self_eq_true, if_true, Bool.false_eq_true,
            if_false, Table.lookup_insert_eq] at hk ⊢
          split at hk
          · next heq => rw [if_pos heq]; exact hk
          · next hne => rw [if_neg hne]; exact hsub k b hk
        · simp only [Enforcer.next, foldEvent, hm, hx, beq_self_eq_true, if_true, Bool.false_eq_true,
            if_false, Table.lookup_insert_eq] at hk hxb ⊢
          split at hk
          · next heq => rw [if_pos heq]; exact hk
          · next hne =>
            simp only [seenAfter, Function.update_of_ne hne] at hexp
            rw [if_neg hne]
            exact hfull k b hk hxb hexp
    | banDeleted banId =>
      refine ⟨fun _ k b hk => ?_, fun _ k b hk hxb hexp => ?_⟩
      · simp only [Enforcer.next, foldEvent, hm, beq_self_eq_true, if_true, Table.lookup_erase_eq] at hk ⊢
        split at hk
        · cases hk
        · next hne => rw [if_neg hne]; exact hsub k b hk
      · simp only [Enforcer.next, foldEvent, hm, beq_self_eq_true, if_true, Table.lookup_erase_eq]
          at hk hxb ⊢
        split at hk
        · cases hk
        · next hne => rw [if_neg hne]; exact hfull k b hk hxb hexp
    | legalHoldUpserted entry => exact ⟨fun _ => hsub, fun _ => hfull⟩
    | legalHoldDeleted nameLc => exact ⟨fun _ => hsub, fun _ => hfull⟩
    | enforcementStatus status => exact ⟨fun _ => hsub, fun _ => hfull⟩
    | banApplyResult report => exact ⟨fun _ => hsub, fun _ => hfull⟩

theorem matchesMode_step {w w' : Watched} {m : EnforcerMove}
    (h : w.enf.Ready ∧ Follows w) (hok : KeepsPrefix w m) (hs : step cfg w m = some w') :
    w'.enf.Ready ∧ Follows w' := by
  cases hs
  refine ⟨Enforcer.ready_next h.1 m, ?_⟩
  cases m with
  | dns now resolved => exact follows_dns h.1 h.2 now resolved
  | event now env => exact follows_event h.2 hok

/-- A step that ends with the applied bans among the desired ones keeps the prefix of an applied
ban out of the exempt ones. -/
theorem keepsPrefix_of_matchesMode {w w' : Watched} {m : EnforcerMove} (hs : step cfg w m = some w')
    (h : MatchesMode w') : KeepsPrefix w m := by
  cases hs
  cases m with
  | dns now resolved => trivial
  | event now env =>
    obtain ⟨idx, ev⟩ := env
    cases ev with
    | banUpserted entry =>
      intro hm hx
      have hm' := (Enforcer.foldEvent_mode w.enf.bans now ⟨idx, .banUpserted entry⟩).1.trans hm
      have hx' := (Enforcer.foldEvent_mode w.enf.bans now ⟨idx, .banUpserted entry⟩).2
      have happ : (w.enf.bans.foldEvent now ⟨idx, .banUpserted entry⟩).1.appliedBans
          = w.enf.bans.appliedBans := by
        simp [foldEvent, hm, hx]
      have hdes : (w.enf.bans.foldEvent now ⟨idx, .banUpserted entry⟩).1.desiredBans.lookup entry.banId
          = some entry := by
        rw [foldEvent_desired (fun h => h : ¬ (⟨idx, .banUpserted entry⟩ : EventEnvelope).event.IsSnapshot)]
        exact AList.lookup_insert _
      cases hb : w.enf.bans.appliedBans.lookup entry.banId with
      | none => rfl
      | some b =>
        -- the old ban would have to be the new one, and that is exempt
        have hold := h.subset hm' entry.banId b (by rw [← hb, ← happ]; rfl)
        have hspared := h.spared hm' entry.banId b (by rw [← hb, ← happ]; rfl)
        have heq : entry = b := Option.some.inj (hdes.symm.trans hold)
        rw [← heq] at hspared
        have hfalse : w.enf.bans.exempt.containsPrefix entry.key = false := hx' ▸ hspared
        rw [hx] at hfalse
        cases hfalse
    | _ => trivial

/-- **The state matches the mode** throughout a run exactly when no upsert of the run moves an
applied ban into an exempt prefix. -/
theorem matches_mode_iff (cfg : EnforcerConfig) (ms : List EnforcerMove) :
    Throughout (step cfg) MatchesMode (init cfg) ms ↔ Along (step cfg) KeepsPrefix (init cfg) ms := by
  obtain ⟨t, hex⟩ := exec_total (fun w m => ⟨_, rfl⟩ : ∀ w m, ∃ w', step cfg w m = some w') (init cfg) ms
  refine throughout_iff_along (I := fun w => w.enf.Ready ∧ Follows w)
    (fun h => MatchesMode.of_ready h.1 h.2) (fun h hok hs => matchesMode_step h hok hs)
    (fun _ hs h => keepsPrefix_of_matchesMode hs h) ⟨Enforcer.ready_init cfg, ?_⟩ hex
  exact ⟨(matchesMode_init cfg).subset, (matchesMode_init cfg).full⟩

/-- A ban on `10.9.0.0/16`, and then one on the exempt address under the same id. -/
def movedBan : BanEntry := { Enforcer.wideBan with key := ⟨.v4 0x0a090000#32, 16⟩ }

/-- The desired ban has moved into the exempt prefix, and the old one is still applied. -/
theorem moved_ban_stays_applied : ∃ w, exec (step Enforcer.oneExempt) (init Enforcer.oneExempt)
      [.dns 1 (.ok [.v4 0x7f000001#32]), .event 2 ⟨1, .banUpserted movedBan⟩,
        .event 3 ⟨2, .banUpserted { movedBan with key := ⟨.v4 0x0a010203#32, 32⟩ }⟩] = some w
    ∧ ¬ MatchesMode w := by
  refine ⟨_, rfl, ?_⟩
  intro hmatch
  have hsub := hmatch.subset rfl "b1".toList movedBan (by decide +kernel)
  revert hsub
  decide +kernel

end Watched

end Slopmud.Sbc
