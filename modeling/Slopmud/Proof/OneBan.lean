import Slopmud.Lib.TableIndex
import Slopmud.Sbc.IpText
import Slopmud.Sbc.Persist

/-!
# One ban for each prefix

`ban_by_key` is the index of `bans` by the printed prefix. The prefix is masked before it is
printed, so every spelling of it comes to the same key, and a second ban on it takes the id of the
first. Each of the lock sections keeps the index, and so does a restart, because what is in the
file is a state that some process had.
-/

namespace Slopmud.Sbc

open Machine

/-- The index and the table it is of. -/
structure OneBan (T : IpText) (s : PersistedState) : Prop where
  /-- A prefix has the id of its ban. -/
  index : Table.Indexes (fun b : BanEntry => b.key.toCidrString T) s.bans s.banByKey
  /-- A ban is filed under its own id. -/
  own : ∀ id b, s.bans.lookup id = some b → b.banId = id

variable {T : IpText}

theorem oneBan_empty : OneBan T .empty where
  index := Table.indexes_empty _
  own := by
    intro id b h
    simp [PersistedState.empty] at h

/-! ## The lock sections -/

/-- Only the two tables matter. -/
theorem OneBan.congr {s s' : PersistedState} (h : OneBan T s) (hbans : s'.bans = s.bans)
    (hkeys : s'.banByKey = s.banByKey) : OneBan T s' where
  index := by rw [hbans, hkeys]; exact h.index
  own := by rw [hbans]; exact h.own

theorem OneBan.removeBan {s : PersistedState} (h : OneBan T s) (banId : Text) :
    OneBan T (s.removeBan T banId) := by
  unfold PersistedState.removeBan
  cases hb : s.bans.lookup banId with
  | none => exact h
  | some entry =>
    refine ⟨h.index.erase hb, ?_⟩
    intro id b hid
    simp only [Table.lookup_erase_eq] at hid
    split at hid
    · cases hid
    · exact h.own id b hid

/-- After the removal of an id neither table has it. -/
theorem OneBan.removed {s : PersistedState} (h : OneBan T s) (banId : Text) :
    (s.removeBan T banId).bans.lookup banId = none
      ∧ ∀ k, (s.removeBan T banId).banByKey.lookup k ≠ some banId := by
  have hnone : (s.removeBan T banId).bans.lookup banId = none := by
    unfold PersistedState.removeBan
    cases hb : s.bans.lookup banId with
    | none => exact hb
    | some entry => simp
  exact ⟨hnone, (h.removeBan banId).index.ne_of_none hnone⟩

/-- Filing a ban under the id of its prefix, old or new. -/
theorem OneBan.upsert {s : PersistedState} (h : OneBan T s) (id : Text) (entry : BanEntry)
    (hfresh : s.banByKey.lookup (entry.key.toCidrString T) = none → s.bans.lookup id = none)
    (hown : entry.banId = (s.takeBanId (entry.key.toCidrString T) id).1) :
    OneBan T { (s.takeBanId (entry.key.toCidrString T) id).2 with
      bans := (s.takeBanId (entry.key.toCidrString T) id).2.bans.insert entry.banId entry } := by
  have hfiled : ∀ id' b, (s.bans.insert entry.banId entry).lookup id' = some b → b.banId = id' := by
    intro id' b hb
    rw [Table.lookup_insert_eq] at hb
    split at hb
    · next heq => cases hb; exact heq.symm
    · exact h.own id' b hb
  unfold PersistedState.takeBanId at hown ⊢
  cases hk : s.banByKey.lookup (entry.key.toCidrString T) with
  | none =>
    simp only [hk] at hown ⊢
    refine ⟨?_, hfiled⟩
    rw [← hown]
    exact h.index.insert_new (hown ▸ hfresh hk) hk
  | some existing =>
    simp only [hk] at hown ⊢
    exact ⟨h.index.replace (hown ▸ hk), hfiled⟩

theorem adminSection_oneBan {s : PersistedState} (h : OneBan T s) {env : RaftdEnv} {req : AdminReq}
    (hfresh : ∀ id ∈ drawnId T s env req, s.bans.lookup id = none) :
    OneBan T (adminSection T env s req).2 := by
  cases req with
  | upsertBan key ttlS createdBy reason =>
    simp only [adminSection]
    simp only [drawnId] at hfresh
    cases hp : IpPrefix.parseCidr T key with
    | none => exact h
    | some keyPfx =>
      have hnew : s.banByKey.lookup (keyPfx.toCidrString T) = none →
          s.bans.lookup env.randHex16 = none := by
        intro hnone
        exact hfresh env.randHex16 (by simp [hp, hnone])
      exact (h.upsert env.randHex16
        ⟨(s.takeBanId (keyPfx.toCidrString T) env.randHex16).1, keyPfx, env.now, createdBy, reason,
          if ttlS = 0 then 0 else Word.satAdd64 env.now ttlS⟩ hnew rfl).congr rfl rfl
  | deleteBan banId => exact (h.removeBan banId).congr rfl rfl
  | upsertLegalHold name createdBy reason =>
    simp only [adminSection]
    split
    · exact h
    · exact h.congr rfl rfl
  | deleteLegalHold name =>
    simp only [adminSection]
    split
    · exact h
    · exact h.congr rfl rfl
  | reportEnforcementStatus status => exact h.congr rfl rfl
  | reportBanApplyResult report => exact h.congr rfl rfl
  | getState => exact h

/-- The bans that are left when the reaper is through with `ids`. -/
theorem reap_bans (T : IpText) (ids : List Text) (acc : List EventEnvelope × PersistedState)
    (id : Text) : ((ids.foldl (reapOne T) acc).2).bans.lookup id
      = if id ∈ ids then none else acc.2.bans.lookup id := by
  induction ids generalizing acc with
  | nil => simp
  | cons banId ids ih =>
    rw [List.foldl_cons, ih]
    have hone : (reapOne T acc banId).2.bans.lookup id
        = if id = banId then none else acc.2.bans.lookup id := by
      simp only [reapOne, PersistedState.bump_bans, PersistedState.removeBan]
      cases hb : acc.2.bans.lookup banId with
      | none =>
        by_cases heq : id = banId
        · rw [if_pos heq, heq, hb]
        · rw [if_neg heq]
      | some entry => exact Table.lookup_erase_eq _ _ _
    rw [hone]
    by_cases hmem : id ∈ ids
    · simp [hmem]
    · by_cases heq : id = banId
      · simp [heq]
      · simp [hmem, heq]

theorem reap_oneBan {ids : List Text} {acc : List EventEnvelope × PersistedState}
    (h : OneBan T acc.2) : OneBan T (ids.foldl (reapOne T) acc).2 := by
  induction ids generalizing acc with
  | nil => exact h
  | cons banId ids ih => exact ih ((h.removeBan banId).congr rfl rfl)

/-- After the expiry of an id neither table has it. -/
theorem OneBan.reaped {s : PersistedState} (h : OneBan T s) {ids : List Text} {id : Text}
    (hid : id ∈ ids) : (reapSection T s ids).2.bans.lookup id = none
      ∧ ∀ k, (reapSection T s ids).2.banByKey.lookup k ≠ some id := by
  have hnone : (reapSection T s ids).2.bans.lookup id = none := by
    rw [reapSection, reap_bans, if_pos hid]
  exact ⟨hnone, (reap_oneBan h : OneBan T (reapSection T s ids).2).index.ne_of_none hnone⟩

/-- A ban on a prefix that has one keeps its id. -/
theorem OneBan.reupsert {s : PersistedState} (h : OneBan T s) {id : Text} {b : BanEntry}
    (hb : s.bans.lookup id = some b) (env : RaftdEnv) {key : Text}
    (hkey : IpPrefix.parseCidr T key = some b.key) (ttlS : Nat) (createdBy reason : Text) :
    ∃ idx entry ev, (adminSection T env s (.upsertBan key ttlS createdBy reason)).1
        = some (.okBan idx entry, ev) ∧ entry.banId = id ∧ entry.key = b.key
      ∧ (adminSection T env s (.upsertBan key ttlS createdBy reason)).2.bans.lookup id
        = some entry := by
  have hix : s.banByKey.lookup (b.key.toCidrString T) = some id := h.index.lookup_key hb
  simp only [adminSection, hkey, PersistedState.takeBanId, hix]
  exact ⟨_, _, _, rfl, rfl, rfl, by simp [AList.lookup_insert]⟩

/-! ## Runs -/

/-- The state, the copy of it and the file. -/
structure HostSound (T : IpText) (w : RaftdHost) : Prop where
  st : OneBan T w.st
  snapshot : ∀ s ∈ w.snapshot, OneBan T s
  file : ∀ s ∈ w.file, OneBan T s

theorem hostSound_init : HostSound T .init where
  st := oneBan_empty
  snapshot := by simp [RaftdHost.init]
  file := by simp [RaftdHost.init]

/-- **One step**, whoever takes it. -/
theorem hostSound_step {w w' : RaftdHost} {m : HostMove} (h : HostSound T w)
    (hfresh : DrawsFresh T w m) (hs : w.step T m = some w') : HostSound T w' := by
  cases m with
  | task m =>
    obtain ⟨pool, hpool, rfl⟩ := Option.map_eq_some_iff.mp hs
    refine ⟨?_, h.snapshot, h.file⟩
    rcases Pool.step_cases hpool with ⟨t, c, p, rfl, -, -, rfl⟩ | ⟨t, env, o, next, r, s', rfl, -, hsec, heff, rfl⟩
    · exact h.st
    · cases o with
      | mutate req =>
        obtain ⟨-, rfl⟩ := Prod.mk.inj (Option.some.inj heff)
        exact adminSection_oneBan h.st (hfresh req hsec)
      | reap =>
        have heff' : (if env.order.isPerm (w.pool.shared.st.expiredIds env.now) then _ else none)
          = some (r, s') := heff
        split at heff'
        · obtain ⟨-, rfl⟩ := Prod.mk.inj (Option.some.inj heff')
          exact reap_oneBan h.st
        · cases heff'
      | send ev =>
        obtain ⟨-, rfl⟩ := Prod.mk.inj (Option.some.inj heff)
        exact h.st
  | copy =>
    cases hs
    refine ⟨h.st, ?_, h.file⟩
    rintro s ⟨⟩
    exact h.st
  | persist saveOk =>
    simp only [RaftdHost.step] at hs
    cases hsnap : w.snapshot with
    | none => simp [hsnap] at hs
    | some s =>
      simp only [hsnap, Option.some.injEq] at hs
      subst hs
      refine ⟨h.st, by simp, ?_⟩
      intro s' hs'
      by_cases hok : saveOk = true
      · rw [if_pos hok] at hs'
        exact h.snapshot s' (hsnap ▸ hs')
      · rw [if_neg hok] at hs'
        exact h.file s' hs'
  | restart =>
    cases hs
    refine ⟨?_, by simp, h.file⟩
    cases hfile : w.file with
    | none => exact oneBan_empty
    | some s => exact h.file s hfile

theorem oneBan_reachable {ms : List HostMove} {w : RaftdHost}
    (hex : exec (RaftdHost.step T) .init ms = some w)
    (hfresh : Along (RaftdHost.step T) (DrawsFresh T) .init ms) : OneBan T w.st :=
  (exec_invariant (I := HostSound T) hostSound_step hostSound_init hfresh hex).st

/-- What the claims about one prefix come to, in one state of the tables. -/
structure PrefixesHaveOneBan (T : IpText) (s : PersistedState) : Prop where
  /-- The index has exactly the printed prefixes of the bans, each with the id of its ban. -/
  mirror : ∀ k id, s.banByKey.lookup k = some id
    ↔ ∃ b, s.bans.lookup id = some b ∧ b.banId = id ∧ b.key.toCidrString T = k
  /-- A request for a prefix that has a ban, in any spelling, replaces the ban under its id. -/
  reupsert : ∀ id b, s.bans.lookup id = some b → ∀ env key ttlS createdBy reason,
    IpPrefix.parseCidr T key = some b.key →
    ∃ idx entry ev, (adminSection T env s (.upsertBan key ttlS createdBy reason)).1
        = some (.okBan idx entry, ev) ∧ entry.banId = id ∧ entry.key = b.key
      ∧ (adminSection T env s (.upsertBan key ttlS createdBy reason)).2.bans.lookup id = some entry
  /-- A deleted id is gone from both tables. -/
  deleted : ∀ env id, (adminSection T env s (.deleteBan id)).2.bans.lookup id = none
    ∧ ∀ k, (adminSection T env s (.deleteBan id)).2.banByKey.lookup k ≠ some id
  /-- An expired id is gone from both tables, in whatever order the reaper takes them. -/
  expired : ∀ now ids, ids.Perm (s.expiredIds now) → ∀ id ∈ s.expiredIds now,
    (reapSection T s ids).2.bans.lookup id = none
      ∧ ∀ k, (reapSection T s ids).2.banByKey.lookup k ≠ some id

/-- **Every prefix has one ban**, however often and in whatever spelling it is asked for. -/
theorem one_ban_per_prefix {ms : List HostMove} {w : RaftdHost}
    (hex : exec (RaftdHost.step T) .init ms = some w)
    (hfresh : Along (RaftdHost.step T) (DrawsFresh T) .init ms) : PrefixesHaveOneBan T w.st := by
  have h : OneBan T w.st := oneBan_reachable hex hfresh
  refine ⟨?_, ?_, ?_, ?_⟩
  · intro k id
    rw [h.index k id]
    constructor
    · rintro ⟨b, hb, hkey⟩
      exact ⟨b, hb, h.own id b hb, hkey⟩
    · rintro ⟨b, hb, -, hkey⟩
      exact ⟨b, hb, hkey⟩
  · intro id b hb env key ttlS createdBy reason hkey
    exact h.reupsert hb env hkey ttlS createdBy reason
  · intro env id
    exact h.removed id
  · intro now ids hperm id hid
    exact h.reaped (hperm.mem_iff.mpr hid)

/-- A ban on `10.0.0.0/8`, asked for by one of its addresses. -/
def looseBan : List HostMove :=
  [HostMove.task (.call (.conn 0) (.admin (.upsertBan " 10.1.2.3/8".toList 60 "ops".toList "".toList))),
    HostMove.task (.run (.conn 0) { now := 100, randHex16 := "b1".toList }), HostMove.copy]

theorem one_ban_per_prefix_loose : ∃ w, exec (RaftdHost.step IpText.plain) .init looseBan = some w
    ∧ w.st.banByKey.lookup "10.0.0.0/8".toList = some "b1".toList
    ∧ PrefixesHaveOneBan IpText.plain w.st := by
  have hrun : (exec (RaftdHost.step IpText.plain) .init looseBan).map
      (fun w => w.st.banByKey.lookup "10.0.0.0/8".toList) = some (some "b1".toList) := by
    decide +kernel
  obtain ⟨w, hex, hkey⟩ := Option.map_eq_some_iff.mp hrun
  have hfresh : Along (RaftdHost.step IpText.plain) (DrawsFresh IpText.plain) .init looseBan := by
    refine ⟨trivial, fun w₁ h₁ => ⟨?_, fun _ _ => ⟨trivial, fun _ _ => trivial⟩⟩⟩
    -- nothing is banned before the first request runs
    obtain rfl := Option.some.inj h₁
    intro req _ id _
    rfl
  exact ⟨w, hex, hkey, one_ban_per_prefix hex hfresh⟩

end Slopmud.Sbc
