import Slopmud.Broker.Bans
import Slopmud.Proof.OneBan
import Slopmud.Sbc.Deciderd

/-!
# Bans on repeat offenders

The decider never forgets a key for which it was granted a ban, and the server forgets the ban when
its time is up. So an offender whose ban has run out is banned again only if the answer has its
address in a spelling that is not remembered. Before the first TTL is over this cannot happen.
-/

namespace Slopmud.Sbc

open Machine

/-! ## Offenders -/

/-- The item is of an address with this prefix, at or over the threshold and not exempt. -/
structure Offends (T : IpText) (cfg : DeciderConfig) (item : TopItem) (pfx : IpPrefix) : Prop where
  heavy : cfg.thresholdBytesIn ≤ item.value
  address : (T.parse item.key).bind hostPrefix = some pfx
  exposed : cfg.exempt.containsPrefix pfx = false

/-- The time of the ban is not up. -/
def BanEntry.InForce (e : BanEntry) (nowUnix : Nat) : Prop :=
  e.expiresAtUnix = 0 ∨ nowUnix < e.expiresAtUnix

/-- The ban was in force when the poll began, or the poll was granted it. -/
def Poll.Source (p : Poll) (e : BanEntry) : Prop :=
  e ∈ p.created ∨ (p.bansThen.lookup e.banId = some e ∧ e.InForce p.beganUnix)

/-- It is in the table, unless its time is up by now. -/
def Deciding.Stands (w : Deciding) (e : BanEntry) : Prop :=
  w.st.bans.lookup e.banId = some e ∨ ¬ e.InForce w.nowUnix

/-- Such a ban covers the prefix. -/
def Deciding.Banned (w : Deciding) (pfx : IpPrefix) : Prop :=
  ∃ e, w.poll.Source e ∧ e.key.containsPrefix pfx = true ∧ w.Stands e

/-- When the poll began, each offender of the answer had a ban in force, or the answer has its address
in a spelling that was not remembered. -/
def Poll.Sound (T : IpText) (cfg : DeciderConfig) (p : Poll) : Prop :=
  ∀ item ∈ p.top, ∀ pfx, Offends T cfg item pfx →
    (∃ e, p.bansThen.lookup e.banId = some e ∧ e.key.containsPrefix pfx = true ∧ e.InForce p.beganUnix)
      ∨ ∃ item' ∈ p.top, Offends T cfg item' pfx ∧ item'.key ∉ p.bannedThen

variable {T : IpText} {cfg : DeciderConfig}

theorem BanEntry.InForce.mono {e : BanEntry} {t t' : Nat} (h : e.InForce t') (hle : t ≤ t') :
    e.InForce t := by
  rcases h with h | h
  · exact .inl h
  · exact .inr (Nat.lt_of_le_of_lt hle h)

/-! ## Items -/

/-- The prefix of one address covers no other. -/
theorem containsPrefix_hostPrefix {ip ip' : IpAddr} {p q : IpPrefix} (hp : hostPrefix ip = some p)
    (hq : hostPrefix ip' = some q) : p.containsPrefix q = true ↔ p = q := by
  cases ip with
  | v4 a =>
    obtain rfl : IpPrefix.mk (.v4 (a &&& v4Mask 32)) 32 = p := Option.some.inj hp
    cases ip' with
    | v4 b =>
      obtain rfl : IpPrefix.mk (.v4 (b &&& v4Mask 32)) 32 = q := Option.some.inj hq
      simp [IpPrefix.containsPrefix, IpPrefix.containsIp, IpAddr.isV4, Broker.and_v4Mask_idem]
    | v6 b =>
      obtain rfl : IpPrefix.mk (.v6 (b &&& v6Mask 128)) 128 = q := Option.some.inj hq
      simp [IpPrefix.containsPrefix, IpAddr.isV4]
  | v6 a =>
    obtain rfl : IpPrefix.mk (.v6 (a &&& v6Mask 128)) 128 = p := Option.some.inj hp
    cases ip' with
    | v4 b =>
      obtain rfl : IpPrefix.mk (.v4 (b &&& v4Mask 32)) 32 = q := Option.some.inj hq
      simp [IpPrefix.containsPrefix, IpAddr.isV4]
    | v6 b =>
      obtain rfl : IpPrefix.mk (.v6 (b &&& v6Mask 128)) 128 = q := Option.some.inj hq
      simp [IpPrefix.containsPrefix, IpPrefix.containsIp, IpAddr.isV4, Broker.and_v6Mask_idem]

theorem containsPrefix_of_address {key key' : Text} {p q : IpPrefix}
    (hp : (T.parse key).bind hostPrefix = some p) (hq : (T.parse key').bind hostPrefix = some q) :
    p.containsPrefix q = true ↔ p = q := by
  obtain ⟨ip, -, hip⟩ := Option.bind_eq_some_iff.mp hp
  obtain ⟨ip', -, hip'⟩ := Option.bind_eq_some_iff.mp hq
  exact containsPrefix_hostPrefix hip hip'

theorem requestFor_of_offends {banned : List Text} {item : TopItem} {pfx : IpPrefix}
    (h : Offends T cfg item pfx) (hnew : item.key ∉ banned) :
    requestFor T cfg banned item = some (autoBan T cfg item pfx) := by
  rw [requestFor, if_neg (Nat.not_lt.mpr h.heavy), if_neg hnew, h.address]
  simp [h.exposed]

theorem offends_of_requestFor {banned : List Text} {item : TopItem} {req : AdminReq}
    (h : requestFor T cfg banned item = some req) :
    ∃ pfx, Offends T cfg item pfx ∧ item.key ∉ banned ∧ req = autoBan T cfg item pfx := by
  rw [requestFor] at h
  split at h
  · cases h
  next hheavy =>
  split at h
  · cases h
  next hnew =>
  cases haddr : (T.parse item.key).bind hostPrefix with
  | none => simp [haddr] at h
  | some pfx =>
    cases hex : cfg.exempt.containsPrefix pfx with
    | true => simp [haddr, hex] at h
    | false =>
      simp only [haddr, hex, Bool.false_eq_true, if_false, Option.some.injEq] at h
      exact ⟨pfx, ⟨Nat.not_lt.mp hheavy, haddr, hex⟩, hnew, h.symm⟩

/-- The ban that the server files when it is asked for one -/
def filed (T : IpText) (cfg : DeciderConfig) (s : PersistedState) (env : RaftdEnv) (item : TopItem)
    (pfx : IpPrefix) : BanEntry where
  banId := (s.takeBanId (pfx.toCidrString T) env.randHex16).1
  key := pfx
  createdAtUnix := env.now
  createdBy := cfg.createdBy
  reason := "auto bytes_in ".toList ++ Nat.toDigits 10 item.value
  expiresAtUnix := if cfg.ttlS = 0 then 0 else Word.satAdd64 env.now cfg.ttlS

theorem parseCidr_of_address {key : Text} {pfx : IpPrefix} (h : (T.parse key).bind hostPrefix = some pfx) :
    IpPrefix.parseCidr T (pfx.toCidrString T) = some pfx := by
  obtain ⟨ip, -, hip⟩ := Option.bind_eq_some_iff.mp h
  exact Broker.parseCidr_toCidrString T hip

theorem adminSection_autoBan (s : PersistedState) (env : RaftdEnv) {item : TopItem} {pfx : IpPrefix}
    (h : Offends T cfg item pfx) : ∃ idx ev st',
      adminSection T env s (autoBan T cfg item pfx)
        = (some (.okBan idx (filed T cfg s env item pfx), ev), st')
      ∧ st'.bans = s.bans.insert (filed T cfg s env item pfx).banId (filed T cfg s env item pfx) := by
  simp only [autoBan, adminSection, parseCidr_of_address h.address]
  exact ⟨_, _, _, rfl, by simp [filed]⟩

namespace Deciding

/-- The next item of the poll is handled, when there is one. -/
theorem item_spec {w w' : Deciding} {randHex16 : Text} (hs : step T cfg w (.item randHex16) = some w') :
    ∃ item rest, w.todo = item :: rest ∧ w' = w.handle T cfg randHex16 item rest := by
  simp only [step] at hs
  cases htodo : w.todo with
  | nil => simp [htodo] at hs
  | cons item rest =>
    simp only [htodo, Option.some.injEq] at hs
    exact ⟨item, rest, rfl, hs.symm⟩

/-- **An item** is passed over, or a ban on its address is filed. -/
theorem handle_cases (w : Deciding) (randHex16 : Text) (item : TopItem) (rest : List TopItem) :
    (requestFor T cfg w.banned item = none ∧ w.handle T cfg randHex16 item rest = { w with todo := rest })
    ∨ ∃ pfx st', Offends T cfg item pfx ∧ item.key ∉ w.banned
      ∧ requestFor T cfg w.banned item = some (autoBan T cfg item pfx)
      ∧ st' = (adminSection T { now := w.nowUnix, randHex16 } w.st (autoBan T cfg item pfx)).2
      ∧ st'.bans = w.st.bans.insert (filed T cfg w.st { now := w.nowUnix, randHex16 } item pfx).banId
          (filed T cfg w.st { now := w.nowUnix, randHex16 } item pfx)
      ∧ w.handle T cfg randHex16 item rest = { w with
          st := st'
          banned := item.key :: w.banned
          todo := rest
          poll := { w.poll with
            created := filed T cfg w.st { now := w.nowUnix, randHex16 } item pfx :: w.poll.created } } := by
  cases hreq : requestFor T cfg w.banned item with
  | none => exact .inl ⟨rfl, by simp only [handle, hreq]⟩
  | some req =>
    obtain ⟨pfx, hoff, hnew, rfl⟩ := offends_of_requestFor hreq
    obtain ⟨idx, ev, st', hans, hbans⟩ :=
      adminSection_autoBan w.st { now := w.nowUnix, randHex16 } hoff
    refine .inr ⟨pfx, st', hoff, hnew, rfl, by rw [hans], hbans, ?_⟩
    simp only [handle, hreq, hans]

/-- A ban that the reaper takes has run out. -/
theorem lookup_reapSection {s : PersistedState} {now : Nat} {order : List Text}
    (hperm : order.Perm (s.expiredIds now)) {e : BanEntry} (he : s.bans.lookup e.banId = some e) :
    (reapSection T s order).2.bans.lookup e.banId = some e ∨ ¬ e.InForce now := by
  rw [reapSection, reap_bans]
  by_cases hid : e.banId ∈ order
  · right
    obtain ⟨b, hb, hbid⟩ := List.mem_map.mp (hperm.mem_iff.mp hid)
    obtain ⟨hmem, hexp⟩ := List.mem_filter.mp hb
    have hlook : s.bans.lookup b.1 = some b.2 := Table.lookup_eq_some_iff.mpr hmem
    rw [hbid, he] at hlook
    cases hlook
    simp only [Bool.and_eq_true, bne_iff_ne, ne_eq, decide_eq_true_eq] at hexp
    rintro (h0 | hlt)
    · exact hexp.1 h0
    · omega
  · left
    rw [if_neg hid]
    exact he

/-- A ban stays in the table when another is filed, unless it was on the same prefix. -/
theorem lookup_filed {s : PersistedState} (h : OneBan T s) {env : RaftdEnv} {item : TopItem} {pfx : IpPrefix}
    (haddr : (T.parse item.key).bind hostPrefix = some pfx)
    (hfresh : ∀ id ∈ drawnId T s env (autoBan T cfg item pfx), s.bans.lookup id = none)
    {e : BanEntry} (he : s.bans.lookup e.banId = some e) :
    e.key = pfx ∨ (s.bans.insert (filed T cfg s env item pfx).banId
      (filed T cfg s env item pfx)).lookup e.banId = some e := by
  rw [Table.lookup_insert_eq]
  by_cases hid : e.banId = (filed T cfg s env item pfx).banId
  · left
    simp only [filed, PersistedState.takeBanId] at hid
    cases hix : s.banByKey.lookup (pfx.toCidrString T) with
    | none =>
      have hnone : s.bans.lookup env.randHex16 = none :=
        hfresh env.randHex16 (by simp [autoBan, drawnId, parseCidr_of_address haddr, hix])
      simp only [hix] at hid
      rw [hid, hnone] at he
      cases he
    | some existing =>
      simp only [hix] at hid
      obtain ⟨b, hb, hkey⟩ := (h.index _ _).mp hix
      rw [← hid, he] at hb
      cases hb
      exact Broker.toCidrString_inj hkey
  · right
    rw [if_neg hid]
    exact he

/-! ## What a poll comes to -/

structure Held (T : IpText) (cfg : DeciderConfig) (w : Deciding) : Prop where
  oneBan : OneBan T w.st
  /-- A ban that the poll began with or was granted is not lost before its time, except to another one
  on its prefix. -/
  kept : ∀ e, w.poll.Source e → ∃ e', w.poll.Source e' ∧ e'.key = e.key ∧ w.Stands e'
  /-- A ban is granted on an offender whose key was not remembered. -/
  fromAnswer : ∀ e ∈ w.poll.created, ∃ item ∈ w.poll.top, Offends T cfg item e.key
    ∧ item.key ∉ w.poll.bannedThen
  /-- No key is forgotten. -/
  grown : ∀ key ∈ w.poll.bannedThen, key ∈ w.banned
  /-- A key is remembered since a ban on its address was granted. -/
  granted : ∀ key ∈ w.banned, key ∈ w.poll.bannedThen
    ∨ ∀ pfx, (T.parse key).bind hostPrefix = some pfx → ∃ e ∈ w.poll.created, e.key = pfx
  /-- The keys of the offenders in the part of the answer that is done are remembered. -/
  handled : ∃ done, w.poll.top = done ++ w.todo
    ∧ ∀ item ∈ done, ∀ pfx, Offends T cfg item pfx → item.key ∈ w.banned

theorem held_init {st : PersistedState} (h : OneBan T st) (now : Nat) : Held T cfg (.init now st) where
  oneBan := h
  kept := by
    rintro e (he | ⟨he, hin⟩)
    · cases he
    · exact ⟨e, .inr ⟨he, hin⟩, rfl, .inl he⟩
  fromAnswer := nofun
  grown := nofun
  granted := nofun
  handled := ⟨[], rfl, nofun⟩

theorem Held.handle {w : Deciding} (h : Held T cfg w) {randHex16 : Text} {item : TopItem}
    {rest : List TopItem} (htodo : w.todo = item :: rest)
    (hfresh : w.DrawsFresh T cfg (.item randHex16)) : Held T cfg (w.handle T cfg randHex16 item rest) := by
  obtain ⟨done, htop, hdone⟩ := h.handled
  have htop' : w.poll.top = (done ++ [item]) ++ rest := by
    rw [htop, htodo]
    simp
  rcases @handle_cases T cfg w randHex16 item rest with
    ⟨hreq, heq⟩ | ⟨pfx, st', hoff, hnew, hreq, hst', hbans, heq⟩
  · -- passed over: an offender is so only if its key is remembered
    rw [heq]
    refine ⟨h.oneBan, h.kept, h.fromAnswer, h.grown, h.granted, done ++ [item], htop', ?_⟩
    intro item' hmem pfx hoff
    rcases List.mem_append.mp hmem with hmem | hmem
    · exact hdone item' hmem pfx hoff
    · obtain rfl := List.mem_singleton.mp hmem
      by_contra hnew
      rw [requestFor_of_offends hoff hnew] at hreq
      cases hreq
  · have hfresh' : ∀ id ∈ drawnId T w.st { now := w.nowUnix, randHex16 } (autoBan T cfg item pfx),
        w.st.bans.lookup id = none :=
      hfresh item (by rw [htodo]; rfl) _ hreq
    rw [heq]
    have hone : OneBan T st' := by
      rw [hst']
      exact adminSection_oneBan h.oneBan hfresh'
    refine ⟨hone, ?_, ?_, ?_, ?_, done ++ [item], htop', ?_⟩
    · -- the new ban is in the table, and stands for the one that it may have replaced
      set new := filed T cfg w.st { now := w.nowUnix, randHex16 } item pfx with hnewdef
      have hfiled : st'.bans.lookup new.banId = some new := by
        rw [hbans, Table.lookup_insert_eq, if_pos rfl]
      intro e he
      by_cases hkey : e.key = pfx
      · exact ⟨new, .inl List.mem_cons_self, hkey.symm, .inl hfiled⟩
      · have hold : w.poll.Source e := by
          rcases he with he | he
          · rcases List.mem_cons.mp he with rfl | he
            · exact absurd rfl hkey
            · exact .inl he
          · exact .inr he
        obtain ⟨e₁, hsrc, hkey₁, hcase⟩ := h.kept e hold
        have hsrc' : (e₁ ∈ new :: w.poll.created)
            ∨ (w.poll.bansThen.lookup e₁.banId = some e₁ ∧ e₁.InForce w.poll.beganUnix) :=
          hsrc.imp (List.mem_cons_of_mem _) id
        refine ⟨e₁, hsrc', hkey₁, ?_⟩
        rcases hcase with hlook | hout
        · rcases lookup_filed h.oneBan hoff.address hfresh' hlook with hpfx | hlook'
          · exact absurd (hkey₁.symm.trans hpfx) hkey
          · left
            rw [hbans]
            exact hlook'
        · exact .inr hout
    · intro e he
      rcases List.mem_cons.mp he with rfl | he
      · exact ⟨item, by rw [htop']; simp, hoff, fun hmem => hnew (h.grown _ hmem)⟩
      · exact h.fromAnswer e he
    · intro key hkey
      exact List.mem_cons_of_mem _ (h.grown key hkey)
    · intro key hkey
      rcases List.mem_cons.mp hkey with rfl | hkey
      · right
        intro pfx' hpfx'
        rw [hoff.address] at hpfx'
        cases hpfx'
        exact ⟨_, List.mem_cons_self, rfl⟩
      · rcases h.granted key hkey with hthen | hgot
        · exact .inl hthen
        · right
          intro pfx' hpfx'
          obtain ⟨e, he, hek⟩ := hgot pfx' hpfx'
          exact ⟨e, List.mem_cons_of_mem _ he, hek⟩
    · intro item' hmem pfx' hoff'
      rcases List.mem_append.mp hmem with hmem | hmem
      · exact List.mem_cons_of_mem _ (hdone item' hmem pfx' hoff')
      · obtain rfl := List.mem_singleton.mp hmem
        exact List.mem_cons_self

/-- **One step** -/
theorem held_step {w w' : Deciding} {m : DecideMove} (h : Held T cfg w) (hfresh : w.DrawsFresh T cfg m)
    (hs : w.step T cfg m = some w') : Held T cfg w' := by
  cases m with
  | tick seconds =>
    cases hs
    refine ⟨h.oneBan, ?_, h.fromAnswer, h.grown, h.granted, h.handled⟩
    intro e he
    obtain ⟨e₁, hsrc, hkey, hcase⟩ := h.kept e he
    exact ⟨e₁, hsrc, hkey, hcase.imp_right fun hout hin => hout (hin.mono (Nat.le_add_right _ _))⟩
  | reap order =>
    simp only [step] at hs
    split at hs
    · next hperm =>
      cases hs
      refine ⟨reap_oneBan h.oneBan, ?_, h.fromAnswer, h.grown, h.granted, h.handled⟩
      intro e he
      obtain ⟨e₁, hsrc, hkey, hcase⟩ := h.kept e he
      refine ⟨e₁, hsrc, hkey, ?_⟩
      rcases hcase with hlook | hout
      · exact lookup_reapSection (List.isPerm_iff.mp hperm) hlook
      · exact .inr hout
    · cases hs
  | poll top =>
    simp only [step] at hs
    split at hs
    · cases hs
      refine ⟨h.oneBan, ?_, nofun, fun _ hk => hk, fun _ hk => .inl hk, [], rfl, nofun⟩
      rintro e (he | ⟨he, hin⟩)
      · cases he
      · exact ⟨e, .inr ⟨he, hin⟩, rfl, .inl he⟩
    · cases hs
  | item randHex16 =>
    obtain ⟨item, rest, htodo, rfl⟩ := item_spec hs
    exact h.handle htodo hfresh

/-- **Offenders are banned again exactly when their address comes in a new spelling** or has a ban
still, at the end of each poll of each run. -/
theorem offenders_banned_iff {before : List HostMove} {host : RaftdHost}
    (hhost : exec (RaftdHost.step T) .init before = some host)
    (hdraws : Along (RaftdHost.step T) (Sbc.DrawsFresh T) .init before) {now : Nat} {ms : List DecideMove}
    {w : Deciding} (hex : exec (step T cfg) (.init now host.st) ms = some w)
    (hfresh : Along (step T cfg) (DrawsFresh T cfg) (.init now host.st) ms) (hend : w.todo = []) :
    (∀ item ∈ w.poll.top, ∀ pfx, Offends T cfg item pfx → w.Banned pfx) ↔ w.poll.Sound T cfg := by
  have h : Held T cfg w :=
    exec_invariant held_step (held_init (oneBan_reachable hhost hdraws) now) hfresh hex
  constructor
  · intro hall item hitem pfx hoff
    obtain ⟨e, he | ⟨he, hin⟩, hcovers, -⟩ := hall item hitem pfx hoff
    · obtain ⟨item', hitem', hoff', hnew⟩ := h.fromAnswer e he
      have heq : e.key = pfx := (containsPrefix_of_address hoff'.address hoff.address).mp hcovers
      exact .inr ⟨item', hitem', heq ▸ hoff', hnew⟩
    · exact .inl ⟨e, he, hcovers, hin⟩
  · intro hsound item hitem pfx hoff
    rcases hsound item hitem pfx hoff with ⟨e, he, hcovers, hin⟩ | ⟨item', hitem', hoff', hnew⟩
    · obtain ⟨e₁, hsrc, hkey, hstands⟩ := h.kept e (.inr ⟨he, hin⟩)
      exact ⟨e₁, hsrc, hkey ▸ hcovers, hstands⟩
    · obtain ⟨done, htop, hdone⟩ := h.handled
      rw [hend, List.append_nil] at htop
      have hkey : item'.key ∈ w.banned := hdone item' (htop ▸ hitem') pfx hoff'
      rcases h.granted _ hkey with hthen | hgot
      · exact absurd hthen hnew
      · obtain ⟨e, he, rfl⟩ := hgot pfx hoff'.address
        obtain ⟨e₁, hsrc, hkey₁, hstands⟩ := h.kept e (.inl he)
        have hcovers : e.key.containsPrefix e.key = true :=
          (containsPrefix_of_address hoff.address hoff.address).mpr rfl
        exact ⟨e₁, hsrc, hkey₁ ▸ hcovers, hstands⟩

/-- One minute for more than 1000 bytes -/
def minuteBans : DeciderConfig := ⟨true, 1000, 60, "sbc_deciderd".toList, ⟨[]⟩⟩

def flood : TopItem := ⟨"203.0.113.5".toList, 5000⟩

def floodPfx : IpPrefix := ⟨.v4 0xCB007105#32, 32⟩

theorem flood_offends : Offends IpText.plain minuteBans flood floodPfx where
  heavy := by decide
  address := by decide
  exposed := rfl

/-- The ban runs out, and the address is in the answer again. -/
def floodAgain : List DecideMove :=
  [.poll [flood], .item "b1".toList, .tick 60, .reap ["b1".toList], .poll [flood], .item "b2".toList]

/-- Then it is not banned again. -/
theorem flood_not_banned_again :
    ∃ w, exec (step IpText.plain minuteBans) (.init 1000 RaftdHost.init.st) floodAgain = some w
      ∧ w.todo = [] ∧ flood ∈ w.poll.top ∧ Offends IpText.plain minuteBans flood floodPfx
      ∧ ¬ w.Banned floodPfx := by
  have hrun : (exec (step IpText.plain minuteBans) (.init 1000 RaftdHost.init.st) floodAgain).map
      (fun w => (w.todo, w.poll.top, w.poll.created, w.poll.bansThen.entries.isEmpty))
      = some ([], [flood], [], true) := by
    decide +kernel
  obtain ⟨w, hex, hw⟩ := Option.map_eq_some_iff.mp hrun
  obtain ⟨htodo, htop, hcreated, hthen⟩ : w.todo = [] ∧ w.poll.top = [flood] ∧ w.poll.created = []
      ∧ w.poll.bansThen.entries.isEmpty = true := by simpa using hw
  refine ⟨w, hex, htodo, by simp [htop], flood_offends, ?_⟩
  rintro ⟨e, he | ⟨he, -⟩, -⟩
  · simp [hcreated] at he
  · rw [Table.lookup_eq_some_iff, List.isEmpty_iff.mp hthen] at he
    cases he

/-- The first time it is. -/
theorem flood_banned :
    ∃ w, exec (step IpText.plain minuteBans) (.init 1000 RaftdHost.init.st) [.poll [flood], .item "b1".toList]
        = some w ∧ w.poll.top = [flood] ∧ w.Banned floodPfx := by
  have hrun : (exec (step IpText.plain minuteBans) (.init 1000 RaftdHost.init.st)
      [.poll [flood], .item "b1".toList]).map (fun w => (w.todo, w.poll.top, w.poll.bannedThen))
      = some ([], [flood], []) := by
    decide +kernel
  obtain ⟨w, hex, hw⟩ := Option.map_eq_some_iff.mp hrun
  obtain ⟨htodo, htop, hthen⟩ : w.todo = [] ∧ w.poll.top = [flood] ∧ w.poll.bannedThen = [] := by
    simpa using hw
  have hfresh : Along (step IpText.plain minuteBans) (DrawsFresh IpText.plain minuteBans)
      (.init 1000 RaftdHost.init.st) [.poll [flood], .item "b1".toList] := by
    refine ⟨trivial, fun w₁ h₁ => ⟨?_, fun _ _ => trivial⟩⟩
    -- there is no ban yet
    obtain rfl := Option.some.inj h₁
    intro _ _ _ _ _ _
    rfl
  have hsound : w.poll.Sound IpText.plain minuteBans := by
    intro item hitem pfx hoff
    exact .inr ⟨item, hitem, hoff, by simp [hthen]⟩
  have hhost : exec (RaftdHost.step IpText.plain) .init [] = some .init := rfl
  refine ⟨w, hex, htop, ?_⟩
  exact (offenders_banned_iff hhost trivial hex hfresh htodo).mpr hsound flood (by simp [htop]) floodPfx
    flood_offends

/-! ## Before the first bans run out -/

/-- No ban that the decider was granted since `start` can have run out. -/
def Early (cfg : DeciderConfig) (start : Nat) (w : Deciding) : Prop :=
  cfg.ttlS = 0 ∨ w.nowUnix < Word.satAdd64 start cfg.ttlS

/-- The address of every remembered key has a ban that lasts as long. -/
structure Lasting (T : IpText) (cfg : DeciderConfig) (start : Nat) (w : Deciding) : Prop where
  oneBan : OneBan T w.st
  since : start ≤ w.nowUnix
  lasting : w.Early cfg start → ∀ key ∈ w.banned, ∀ pfx, (T.parse key).bind hostPrefix = some pfx →
    ∃ e, w.st.bans.lookup e.banId = some e ∧ e.key = pfx
      ∧ ∀ now, (cfg.ttlS = 0 ∨ now < Word.satAdd64 start cfg.ttlS) → e.InForce now
  sound : w.Early cfg start → w.poll.Sound T cfg

theorem filed_inForce {s : PersistedState} {env : RaftdEnv} {item : TopItem} {pfx : IpPrefix} {start now : Nat}
    (hle : start ≤ env.now) (hnow : cfg.ttlS = 0 ∨ now < Word.satAdd64 start cfg.ttlS) :
    (filed T cfg s env item pfx).InForce now := by
  by_cases h0 : cfg.ttlS = 0
  · left
    simp [filed, h0]
  · right
    have hlt : now < Word.satAdd64 start cfg.ttlS := hnow.resolve_left h0
    simp only [filed, if_neg h0]
    simp only [Word.satAdd64] at hlt ⊢
    omega

theorem lasting_step {start : Nat} {w w' : Deciding} {m : DecideMove} (h : Lasting T cfg start w)
    (hfresh : w.DrawsFresh T cfg m) (hs : w.step T cfg m = some w') : Lasting T cfg start w' := by
  cases m with
  | tick seconds =>
    cases hs
    have hback : Early cfg start { w with nowUnix := w.nowUnix + seconds } → w.Early cfg start := by
      rintro (h0 | hlt)
      · exact .inl h0
      · exact .inr (Nat.lt_of_le_of_lt (Nat.le_add_right _ _) hlt)
    exact ⟨h.oneBan, Nat.le_trans h.since (Nat.le_add_right _ _), fun he => h.lasting (hback he),
      fun he => h.sound (hback he)⟩
  | reap order =>
    simp only [step] at hs
    split at hs
    · next hperm =>
      cases hs
      refine ⟨reap_oneBan h.oneBan, h.since, ?_, h.sound⟩
      intro he key hkey pfx hpfx
      obtain ⟨e, hlook, hek, hin⟩ := h.lasting he key hkey pfx hpfx
      rcases lookup_reapSection (List.isPerm_iff.mp hperm) hlook with hlook' | hout
      · exact ⟨e, hlook', hek, hin⟩
      · exact absurd (hin _ he) hout
    · cases hs
  | poll top =>
    simp only [step] at hs
    split at hs
    · cases hs
      refine ⟨h.oneBan, h.since, h.lasting, ?_⟩
      intro he item hitem pfx hoff
      by_cases hkey : item.key ∈ w.banned
      · obtain ⟨e, hlook, hek, hin⟩ := h.lasting he _ hkey pfx hoff.address
        have hcovers : pfx.containsPrefix pfx = true :=
          (containsPrefix_of_address hoff.address hoff.address).mpr rfl
        exact .inl ⟨e, hlook, hek ▸ hcovers, hin _ he⟩
      · exact .inr ⟨item, hitem, hoff, hkey⟩
    · cases hs
  | item randHex16 =>
    obtain ⟨item, rest, htodo, rfl⟩ := item_spec hs
    rcases @handle_cases T cfg w randHex16 item rest with
      ⟨-, heq⟩ | ⟨pfx, st', hoff, -, hreq, hst', hbans, heq⟩
    · rw [heq]
      exact ⟨h.oneBan, h.since, h.lasting, h.sound⟩
    · have hfresh' : ∀ id ∈ drawnId T w.st { now := w.nowUnix, randHex16 } (autoBan T cfg item pfx),
          w.st.bans.lookup id = none :=
        hfresh item (by rw [htodo]; rfl) _ hreq
      rw [heq]
      refine ⟨by rw [hst']; exact adminSection_oneBan h.oneBan hfresh', h.since, ?_, h.sound⟩
      set new := filed T cfg w.st { now := w.nowUnix, randHex16 } item pfx
      have hnew : st'.bans.lookup new.banId = some new := by
        rw [hbans, Table.lookup_insert_eq, if_pos rfl]
      intro he key hkey pfx' hpfx'
      by_cases hsame : pfx' = pfx
      · exact ⟨new, hnew, hsame.symm, fun _ hnow => filed_inForce h.since hnow⟩
      · rcases List.mem_cons.mp hkey with rfl | hkey
        · rw [hoff.address] at hpfx'
          exact absurd (Option.some.inj hpfx').symm hsame
        · obtain ⟨e, hlook, hek, hin⟩ := h.lasting he key hkey pfx' hpfx'
          rcases lookup_filed h.oneBan hoff.address hfresh' hlook with hpfx | hlook'
          · exact absurd (hek.symm.trans hpfx) hsame
          · exact ⟨e, by rw [hbans]; exact hlook', hek, hin⟩

/-- A poll that begins before the first TTL is over bans every offender, and so does every poll when
bans never expire. -/
theorem sound_of_early {st : PersistedState} (hone : OneBan T st) {now : Nat} {ms : List DecideMove}
    {w : Deciding} (hex : exec (step T cfg) (.init now st) ms = some w)
    (hfresh : Along (step T cfg) (DrawsFresh T cfg) (.init now st) ms) (hearly : w.Early cfg now) :
    w.poll.Sound T cfg := by
  have h0 : Lasting T cfg now (.init now st) := ⟨hone, Nat.le_refl _, fun _ => nofun, fun _ => nofun⟩
  exact (exec_invariant lasting_step h0 hfresh hex).sound hearly

end Deciding

end Slopmud.Sbc
