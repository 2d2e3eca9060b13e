import Slopmud.Sbc.Enforcerd
import Slopmud.Sbc.IpText
import Slopmud.Sbc.Raftd

/-!
# Ban events reach subscribers in commit order

An event gets its index under the lock and is sent later, without it, so nothing
in `sbc_raftd` keeps the sends in the order of the indices. What is proved here
is that this is the *only* thing that can go wrong: in a run in which no event
overtakes an earlier one on its way to the channel, subscribers see strictly
increasing indices, and an enforcer that folds what it sees ends up with raftd's
own table.

The invariant lists the events in commit order: first what was sent, then the
`rest`, which is shared out among the tasks that still have to send them.
-/

namespace Slopmud.Sbc

open Machine

/-! ## One lock section -/

/-- What the lock sections do to the table of bans: the effect of the events `evs`, which take the
next indices in turn. -/
structure Commit (s s' : PersistedState) (evs : List EventEnvelope) : Prop where
  /-- The table changes as the events say. -/
  bans : Table.Same s'.bans (evs.foldl (fun m ev => ev.event.onBans m) s.bans)
  /-- The events take the next indices, one each. -/
  indices : evs.map EventEnvelope.index = List.range' s.nextIndex evs.length
  /-- And no others. -/
  next : s'.nextIndex = s.nextIndex + evs.length
  /-- Nobody broadcasts a snapshot. -/
  broadcast : ∀ ev ∈ evs, ¬ ev.event.IsSnapshot

theorem onBans_same {m m' : Table Text BanEntry} (h : Table.Same m m') (e : Event) :
    Table.Same (e.onBans m) (e.onBans m') := by
  cases e with
  | banUpserted entry => exact h.insert _ _
  | banDeleted banId => exact h.erase _
  | _ => exact h

theorem foldl_onBans_same {m m' : Table Text BanEntry} (h : Table.Same m m')
    (evs : List EventEnvelope) :
    Table.Same (evs.foldl (fun m ev => ev.event.onBans m) m)
      (evs.foldl (fun m ev => ev.event.onBans m) m') := by
  induction evs generalizing m m' with
  | nil => exact h
  | cons ev evs ih => exact ih (onBans_same h ev.event)

theorem Commit.refl (s : PersistedState) : Commit s s [] where
  bans := Table.Same.refl _
  indices := rfl
  next := rfl
  broadcast := by simp

theorem Commit.trans {s₁ s₂ s₃ : PersistedState} {evs evs' : List EventEnvelope}
    (h : Commit s₁ s₂ evs) (h' : Commit s₂ s₃ evs') : Commit s₁ s₃ (evs ++ evs') where
  bans := by
    intro k
    rw [h'.bans k, List.foldl_append, foldl_onBans_same h.bans evs' k]
  indices := by
    rw [List.map_append, h.indices, h'.indices, h.next, List.length_append, ← List.range'_append_1]
  next := by
    rw [h'.next, h.next, List.length_append]
    omega
  broadcast := by
    intro ev hev
    rcases List.mem_append.mp hev with hev | hev
    · exact h.broadcast ev hev
    · exact h'.broadcast ev hev

/-- Mutate the tables, take the index, make the event of it. -/
theorem commit_one {s s' : PersistedState} {e : Event}
    (hbans : Table.Same s'.bans (e.onBans s.bans)) (hnext : s'.nextIndex = s.nextIndex)
    (hleft : s.nextIndex < Word.maxU64) (he : ¬ e.IsSnapshot) :
    Commit s s'.bump [⟨s'.nextIndex, e⟩] where
  bans := hbans
  indices := by simp [hnext]
  next := by
    have hsat : Word.satAdd64 s'.nextIndex 1 = s'.nextIndex + 1 := Word.satAdd64_of_lt (by omega)
    rw [PersistedState.bump, hsat, hnext]
    rfl
  broadcast := by simpa using he

theorem removeBan_bans (T : IpText) (s : PersistedState) (banId : Text) :
    Table.Same (s.removeBan T banId).bans (s.bans.erase banId) := by
  intro k
  unfold PersistedState.removeBan
  cases h : s.bans.lookup banId with
  | none =>
      rw [Table.lookup_erase_eq]
      by_cases hk : k = banId
      · rw [if_pos hk, hk, h]
      · rw [if_neg hk]
  | some entry => rfl

/-- The events of a lock section, none or one. -/
def answerEvents : Option (AdminResp × Option EventEnvelope) → List EventEnvelope
  | some (_, some ev) => [ev]
  | _ => []

/-- **What the admin lock section does.** -/
theorem adminSection_commit (T : IpText) (env : RaftdEnv) {s : PersistedState} (req : AdminReq)
    (hleft : s.nextIndex < Word.maxU64) :
    Commit s (adminSection T env s req).2 (answerEvents (adminSection T env s req).1) := by
  cases req with
  | upsertBan key ttlS createdBy reason =>
      simp only [adminSection]
      cases IpPrefix.parseCidr T key with
      | none => exact Commit.refl s
      | some keyPfx =>
          refine commit_one ?_ (s.takeBanId_nextIndex _ _) hleft (fun h => h)
          simp only [PersistedState.takeBanId_bans]
          exact Table.Same.refl _
  | deleteBan banId =>
      exact commit_one (removeBan_bans T s banId) (s.removeBan_nextIndex T banId) hleft (fun h => h)
  | upsertLegalHold name createdBy reason =>
      simp only [adminSection]
      split
      · exact Commit.refl s
      · exact commit_one (Table.Same.refl _) rfl hleft (fun h => h)
  | deleteLegalHold name =>
      simp only [adminSection]
      split
      · exact Commit.refl s
      · exact commit_one (Table.Same.refl _) rfl hleft (fun h => h)
  | reportEnforcementStatus status => exact commit_one (Table.Same.refl _) rfl hleft (fun h => h)
  | reportBanApplyResult report => exact commit_one (Table.Same.refl _) rfl hleft (fun h => h)
  | getState => exact Commit.refl s

theorem reapOne_commit {T : IpText} {s : PersistedState}
    {acc : List EventEnvelope × PersistedState} (h : Commit s acc.2 acc.1) (banId : Text)
    (hleft : acc.2.nextIndex < Word.maxU64) :
    Commit s (reapOne T acc banId).2 (reapOne T acc banId).1 := by
  have hone := commit_one (e := .banDeleted banId) (removeBan_bans T acc.2 banId)
    (acc.2.removeBan_nextIndex T banId) hleft (fun h => h)
  exact h.trans hone

/-- **What the reaper's lock section does.** -/
theorem reapSection_commit (T : IpText) {s : PersistedState} (ids : List Text)
    (hleft : s.nextIndex + ids.length < Word.maxU64) :
    Commit s (reapSection T s ids).2 (reapSection T s ids).1 := by
  suffices h : ∀ acc : List EventEnvelope × PersistedState, Commit s acc.2 acc.1 →
      acc.2.nextIndex + ids.length < Word.maxU64 →
      Commit s (ids.foldl (reapOne T) acc).2 (ids.foldl (reapOne T) acc).1 from
    h ([], s) (Commit.refl s) hleft
  clear hleft
  induction ids with
  | nil => intro acc h _; exact h
  | cons banId ids ih =>
      intro acc h hl
      simp only [List.length_cons] at hl
      refine ih _ (reapOne_commit h banId (by omega)) ?_
      have hlen : (reapOne T acc banId).1.length = acc.1.length + 1 := by simp [reapOne]
      have h1 := (reapOne_commit (T := T) h banId (by omega)).next
      have h2 := h.next
      omega

/-! ## What is on its way to the channel -/

/-- What a task still has to send, up to its next lock section. -/
def toSend : RaftdProg → List EventEnvelope
  | .act (.send ev) next => ev :: toSend (next ())
  | _ => []

/-- The events task `t` has taken indices for and not sent. -/
def unsent (w : RaftdPool) (t : RaftdTask) : List EventEnvelope :=
  match w.task t with
  | some p => toSend p
  | none => []

/-- An event is sent only when no event with a smaller index is still unsent. -/
def SendsInOrder (w : RaftdPool) (m : Move RaftdTask RaftdEnv RaftdCall) : Prop :=
  ∀ ev, w.section? m = some (.send ev) → ∀ t, ∀ ev' ∈ unsent w t, ev.index ≤ ev'.index

/-- The index counter is not about to saturate. -/
def IndexLeft (w : RaftdPool) : Prop :=
  w.shared.st.nextIndex + w.shared.st.bans.entries.length < Word.maxU64

instance (w : RaftdPool) : Decidable (IndexLeft w) := inferInstanceAs (Decidable (_ < _))

/-- The condition under which the channel keeps the order of the indices. -/
def Orderly (w : RaftdPool) (m : Move RaftdTask RaftdEnv RaftdCall) : Prop :=
  SendsInOrder w m ∧ IndexLeft w

/-- A task knows what it still has to send, and sends exactly that. -/
def sendContract : Program.Contract RaftdOp RaftdOp.Res (List EventEnvelope) (Option AdminResp) where
  ok g
    | .send ev => g.head? = some ev
    | .mutate _ => g = []
    | .reap => g = []
  ans _ _ := True
  note g
    | .send _ => fun _ => g.tail
    | .mutate _ => answerEvents
    | .reap => fun evs => evs
  post g _ := g = []

theorem safe_sendAll (evs : List EventEnvelope) : (sendAll evs).Safe sendContract evs := by
  induction evs with
  | nil => rfl
  | cons ev evs ih => exact ⟨rfl, fun _ _ => ih⟩

theorem safe_reaperTick : reaperTick.Safe sendContract [] :=
  ⟨rfl, fun evs _ => safe_sendAll evs⟩

theorem safe_handleAdminConn (req : AdminReq) : (handleAdminConn req).Safe sendContract [] := by
  refine ⟨rfl, ?_⟩
  rintro (_ | ⟨resp, _ | ev⟩) _
  · rfl
  · rfl
  · exact ⟨rfl, fun _ _ => rfl⟩

/-- A safe task has to send what it knows it has to send. -/
theorem toSend_eq {p : RaftdProg} {g : List EventEnvelope} (h : p.Safe sendContract g) :
    toSend p = g := by
  induction p generalizing g with
  | ret a => exact h.symm
  | act o next ih =>
      cases o with
      | mutate req => exact h.1.symm
      | reap => exact h.1.symm
      | send ev =>
          obtain ⟨g', rfl⟩ : ∃ g', g = ev :: g' := List.head?_eq_some_iff.mp h.1
          simp only [toSend]
          rw [ih () (h.2 () trivial)]
          rfl

/-! ## The invariant -/

/-- All events so far, in commit order: those sent, then the `rest`, each still with its owner. -/
structure CommitLog (bans₀ : Table Text BanEntry) (w : Raftd) (know : RaftdTask → List EventEnvelope)
    (rest : List EventEnvelope) (owner : Nat → RaftdTask) : Prop where
  /-- Every task has to send its share of the rest, in this order. -/
  share : ∀ t, know t = rest.filter (fun ev => owner ev.index = t)
  /-- The indices increase. -/
  increasing : ((w.sent ++ rest).map EventEnvelope.index).Pairwise (· < ·)
  /-- The next index is larger than all of them. -/
  below : ∀ ev ∈ w.sent ++ rest, ev.index < w.st.nextIndex
  /-- raftd's table is what the events make of the initial one. -/
  bans : Table.Same w.st.bans ((w.sent ++ rest).foldl (fun m ev => ev.event.onBans m) bans₀)
  /-- No event is a snapshot. -/
  broadcast : ∀ ev ∈ w.sent ++ rest, ¬ ev.event.IsSnapshot

/-- The invariant of the server: there is such a log. -/
def Logged (bans₀ : Table Text BanEntry) (w : Raftd) (know : RaftdTask → List EventEnvelope) : Prop :=
  ∃ rest owner, CommitLog bans₀ w know rest owner

theorem commit_index {s s' : PersistedState} {evs : List EventEnvelope} (hc : Commit s s' evs)
    {ev : EventEnvelope} (hev : ev ∈ evs) : s.nextIndex ≤ ev.index ∧ ev.index < s'.nextIndex := by
  have hmem : ev.index ∈ List.range' s.nextIndex evs.length := by
    rw [← hc.indices]; exact List.mem_map_of_mem hev
  have := List.mem_range'_1.mp hmem
  have := hc.next
  omega

/-- A lock section's events go on with the indices of what was logged before. -/
theorem increasing_commit {s s' : PersistedState} {log evs : List EventEnvelope}
    (hc : Commit s s' evs) (hlog : (log.map EventEnvelope.index).Pairwise (· < ·))
    (hbelow : ∀ ev ∈ log, ev.index < s.nextIndex) :
    ((log ++ evs).map EventEnvelope.index).Pairwise (· < ·) := by
  rw [List.map_append, List.pairwise_append]
  refine ⟨hlog, ?_, ?_⟩
  · rw [hc.indices]
    exact List.pairwise_lt_range'
  · intro i hi j hj
    obtain ⟨ev, hev, rfl⟩ := List.mem_map.mp hi
    obtain ⟨ev', hev', rfl⟩ := List.mem_map.mp hj
    exact lt_of_lt_of_le (hbelow ev hev) (commit_index hc hev').1

/-- The new events belong to `t`, which had none left; the others keep their share. -/
theorem share_commit {know : RaftdTask → List EventEnvelope} {rest evs : List EventEnvelope}
    {owner : Nat → RaftdTask} {t : RaftdTask} {n : Nat}
    (hshare : ∀ t, know t = rest.filter (fun ev => owner ev.index = t)) (ht : know t = [])
    (hold : ∀ ev ∈ rest, ev.index < n) (hnew : ∀ ev ∈ evs, n ≤ ev.index) (t' : RaftdTask) :
    Function.update know t evs t'
      = (rest ++ evs).filter (fun ev => (if n ≤ ev.index then t else owner ev.index) = t') := by
  have hrest : rest.filter (fun ev => (if n ≤ ev.index then t else owner ev.index) = t')
      = know t' := by
    rw [hshare t']
    refine List.filter_congr fun ev hev => ?_
    have := hold ev hev
    rw [if_neg (by omega)]
  have hevs : ∀ ev ∈ evs, (if n ≤ ev.index then t else owner ev.index) = t := by
    intro ev hev
    rw [if_pos (hnew ev hev)]
  rw [List.filter_append, hrest]
  by_cases htt : t' = t
  · subst htt
    rw [Function.update_self, ht,
      List.filter_eq_self.mpr fun ev hev => decide_eq_true (hevs ev hev)]
    rfl
  · rw [Function.update_of_ne htt]
    have : evs.filter (fun ev => (if n ≤ ev.index then t else owner ev.index) = t') = [] := by
      refine List.filter_eq_nil_iff.mpr fun ev hev => ?_
      rw [hevs ev hev]
      simpa using fun heq => htt heq.symm
    rw [this, List.append_nil]

/-- What a task sends is the first of its share, and leaves the rest. -/
theorem share_send {know : RaftdTask → List EventEnvelope} {rest : List EventEnvelope}
    {owner : Nat → RaftdTask} {t : RaftdTask} {ev : EventEnvelope}
    (hshare : ∀ t, know t = rest.filter (fun ev => owner ev.index = t))
    (ht : (know t).head? = some ev) (t' : RaftdTask) :
    Function.update know t (know t).tail t'
      = (rest.erase ev).filter (fun ev => owner ev.index = t') := by
  obtain ⟨more, hmore⟩ := List.head?_eq_some_iff.mp ht
  have howner : owner ev.index = t := by
    have : ev ∈ rest.filter (fun ev => owner ev.index = t) := by rw [← hshare, hmore]; simp
    simpa using (List.mem_filter.mp this).2
  rw [← List.erase_filter, ← hshare]
  by_cases htt : t' = t
  · rw [htt, Function.update_self, hmore, List.erase_cons_head]
    rfl
  · rw [Function.update_of_ne htt, List.erase_of_not_mem]
    intro hmem
    rw [hshare] at hmem
    have : owner ev.index = t' := by simpa using (List.mem_filter.mp hmem).2
    exact htt (this.symm.trans howner)

/-- A lock section of task `t` appends its events to the rest. -/
theorem logged_commit {bans₀ : Table Text BanEntry} {w : Raftd}
    {know : RaftdTask → List EventEnvelope} {t : RaftdTask} {st' : PersistedState}
    {evs : List EventEnvelope} (h : Logged bans₀ w know) (ht : know t = [])
    (hc : Commit w.st st' evs) :
    Logged bans₀ { w with st := st' } (Function.update know t evs) := by
  obtain ⟨rest, owner, h⟩ := h
  refine ⟨rest ++ evs, fun i => if w.st.nextIndex ≤ i then t else owner i, ?_, ?_, ?_, ?_, ?_⟩
  · exact share_commit h.share ht (fun ev hev => h.below ev (List.mem_append_right _ hev))
      (fun ev hev => (commit_index hc hev).1)
  · rw [← List.append_assoc]
    exact increasing_commit hc h.increasing h.below
  · intro ev hev
    rw [← List.append_assoc] at hev
    rcases List.mem_append.mp hev with hev | hev
    · have := h.below ev hev
      have := hc.next
      simp only
      omega
    · exact (commit_index hc hev).2
  · intro k
    rw [← List.append_assoc, List.foldl_append]
    simp only
    rw [hc.bans k, foldl_onBans_same h.bans evs k]
  · intro ev hev
    rw [← List.append_assoc] at hev
    rcases List.mem_append.mp hev with hev | hev
    · exact h.broadcast ev hev
    · exact hc.broadcast ev hev

/-- Sending the first event of the rest moves the border between sent and rest. -/
theorem logged_send {bans₀ : Table Text BanEntry} {w : Raftd}
    {know : RaftdTask → List EventEnvelope} {t : RaftdTask} {ev : EventEnvelope}
    (h : Logged bans₀ w know) (ht : (know t).head? = some ev)
    (hfirst : ∀ t', ∀ ev' ∈ know t', ev.index ≤ ev'.index) :
    Logged bans₀ { w with sent := w.sent ++ [ev] } (Function.update know t (know t).tail) := by
  obtain ⟨rest, owner, h⟩ := h
  have hrest : ev ∈ rest := by
    have : ev ∈ know t := List.mem_of_head? ht
    rw [h.share t] at this
    exact List.mem_of_mem_filter this
  cases rest with
  | nil => simp at hrest
  | cons ev₀ rest =>
      -- nothing unsent is older than `ev`, so `ev` is the head of the rest
      have hhead : ev = ev₀ := by
        rcases List.mem_cons.mp hrest with heq | htail
        · exact heq
        · exfalso
          have hle : ev.index ≤ ev₀.index :=
            hfirst (owner ev₀.index) ev₀ (by rw [h.share]; simp)
          have hpw := h.increasing
          rw [List.map_append, List.pairwise_append, List.map_cons, List.pairwise_cons] at hpw
          have := hpw.2.1.1 ev.index (List.mem_map_of_mem htail)
          omega
      subst hhead
      have hassoc : (w.sent ++ [ev]) ++ rest = w.sent ++ ev :: rest := by simp
      refine ⟨rest, owner, ?_, ?_, ?_, ?_, ?_⟩
      · intro t'
        rw [share_send h.share ht, List.erase_cons_head]
      · simp only [hassoc]; exact h.increasing
      · simp only [hassoc]; exact h.below
      · simp only [hassoc]; exact h.bans
      · simp only [hassoc]; exact h.broadcast

/-- In a sound pool, what is unsent is what the tasks know they have to send. -/
theorem unsent_eq {I : Raftd → (RaftdTask → List EventEnvelope) → Prop} {w : RaftdPool}
    {know : RaftdTask → List EventEnvelope}
    (h : Pool.Sound (fun _ => sendContract) I w know) (t : RaftdTask) :
    unsent w t = know t := by
  unfold unsent
  cases ht : w.task t with
  | none => exact (h.fresh t ht).symm
  | some p => exact toSend_eq (h.safe t p ht)

/-- Whoever is called has nothing left to send, and starts with nothing to send. -/
theorem safe_start {T : IpText} {I : Raftd → (RaftdTask → List EventEnvelope) → Prop}
    {w : RaftdPool} {know : RaftdTask → List EventEnvelope} {t : RaftdTask} {c : RaftdCall}
    {p : RaftdProg} (h : Pool.Sound (fun _ => sendContract) I w know)
    (hp : (raftd T).start t c (w.task t) = some p) :
    I w.shared (Function.update know t []) ∧ p.Safe sendContract [] := by
  have key : know t = [] → I w.shared (Function.update know t []) ∧ p.Safe sendContract [] := by
    intro hnil
    refine ⟨by rw [← hnil, Function.update_eq_self]; exact h.shared, ?_⟩
    simp only [raftd, raftdStart] at hp
    split at hp <;> cases hp
    · exact safe_handleAdminConn _
    · exact safe_reaperTick
    · exact safe_reaperTick
  cases ht : w.task t with
  | none => exact key (h.fresh t ht)
  | some q =>
      cases q with
      | ret a => exact key (h.safe t _ ht)
      | act o next => cases t <;> cases c <;> simp [raftd, raftdStart, ht] at hp

theorem expiredIds_length {s : PersistedState} {now : Nat} {ids : List Text}
    (h : ids.isPerm (s.expiredIds now) = true) : ids.length ≤ s.bans.entries.length := by
  rw [(List.isPerm_iff.mp h).length_eq]
  simpa [PersistedState.expiredIds] using List.length_filter_le _ _

/-- **The sections keep the log.** -/
theorem raftd_keeps (T : IpText) (bans₀ : Table Text BanEntry) :
    Pool.Keeps (raftd T) (fun _ => sendContract) (Logged bans₀) Orderly where
  start := by
    intro w know t c p h _ hp
    exact ⟨[], safe_start h hp⟩
  effect := by
    intro w know t e o r s' h hok hsec hmay heff
    refine ⟨trivial, ?_⟩
    obtain ⟨hin, hleft⟩ := hok
    unfold IndexLeft at hleft
    cases o with
    | mutate req =>
        simp only [raftd, raftdEffect, Option.some.injEq, Prod.mk.injEq] at heff
        obtain ⟨rfl, rfl⟩ := heff
        exact logged_commit h.shared hmay (adminSection_commit T e req (by omega))
    | reap =>
        simp only [raftd, raftdEffect, Option.ite_none_right_eq_some, Option.some.injEq,
          Prod.mk.injEq] at heff
        obtain ⟨hperm, rfl, rfl⟩ := heff
        refine logged_commit h.shared hmay (reapSection_commit T e.order ?_)
        have := expiredIds_length hperm
        omega
    | send ev =>
        simp only [raftd, raftdEffect, Option.some.injEq, Prod.mk.injEq] at heff
        obtain ⟨-, rfl⟩ := heff
        refine logged_send h.shared hmay ?_
        intro t' ev' hev'
        exact hin ev hsec t' ev' (by rw [unsent_eq h]; exact hev')

theorem sound_init (bans₀ : Table Text BanEntry) (st : PersistedState) (h : st.bans = bans₀) :
    Pool.Sound (fun _ => sendContract) (Logged bans₀) (RaftdPool.init st) (fun _ => []) where
  shared := ⟨[], fun _ => .reaper, by simp, by simp [RaftdPool.init], by simp [RaftdPool.init],
    by subst h; exact Table.Same.refl _, by simp [RaftdPool.init]⟩
  safe := by intro t p hp; simp [RaftdPool.init] at hp
  fresh := fun _ _ => rfl

/-! ## What subscribers see -/

/-- A subscriber that is there throughout receives strictly increasing indices. -/
def DeliversInOrder (w : RaftdPool) : Prop :=
  (w.shared.sent.map EventEnvelope.index).Pairwise (· < ·)

/-- Once all sends are done, an enforcer that started from raftd's table and folded every event
has raftd's table. -/
def SubscribersAgree (st : PersistedState) (w : RaftdPool) : Prop :=
  (∀ t, unsent w t = []) → ∀ (clock : EventEnvelope → Nat) (s : EnforcerState),
    Table.Same s.desiredBans st.bans →
    Table.Same (s.foldEvents clock w.shared.sent).desiredBans w.shared.st.bans

/-- **In a run that never lets an event overtake an earlier one, every subscriber receives
strictly increasing indices, and enforcers end up with raftd's table of bans.** -/
theorem events_in_commit_order (T : IpText) (st : PersistedState)
    (ms : List (Move RaftdTask RaftdEnv RaftdCall)) (w : RaftdPool)
    (hex : exec (Pool.step (raftd T)) (RaftdPool.init st) ms = some w)
    (hal : Along (Pool.step (raftd T)) Orderly (RaftdPool.init st) ms) :
    DeliversInOrder w ∧ SubscribersAgree st w := by
  obtain ⟨know, h⟩ := Pool.pool_invariant (raftd_keeps T st.bans) ⟨_, sound_init st.bans st rfl⟩ hal hex
  obtain ⟨rest, owner, hlog⟩ := h.shared
  constructor
  · have hpw := hlog.increasing
    rw [List.map_append, List.pairwise_append] at hpw
    exact hpw.1
  · intro hdone clock s hs k
    have hrest : rest = [] := by
      refine List.eq_nil_iff_forall_not_mem.mpr fun ev hev => ?_
      have hmem : ev ∈ know (owner ev.index) := by rw [hlog.share]; simpa using hev
      rw [← unsent_eq h, hdone] at hmem
      simp at hmem
    subst hrest
    have hbans := hlog.bans k
    rw [List.append_nil] at hbans
    rw [foldEvents_desired (fun ev hev => hlog.broadcast ev (List.mem_append_left _ hev)),
      foldl_onBans_same hs, hbans]

/-- The event a move sends, if it sends one. -/
def sending (w : RaftdPool) (m : Move RaftdTask RaftdEnv RaftdCall) : Option EventEnvelope :=
  match w.section? m with
  | some (.send ev) => some ev
  | _ => none

/-- `Orderly`, asked of the tasks `ts` only. -/
def OrderlyAmong (ts : List RaftdTask) (w : RaftdPool) (m : Move RaftdTask RaftdEnv RaftdCall) :
    Prop :=
  (∀ ev ∈ sending w m, ∀ t ∈ ts, ∀ ev' ∈ unsent w t, ev.index ≤ ev'.index) ∧ IndexLeft w

instance (ts : List RaftdTask) (w : RaftdPool) (m : Move RaftdTask RaftdEnv RaftdCall) :
    Decidable (OrderlyAmong ts w m) :=
  inferInstanceAs (Decidable (_ ∧ _))

/-- A run can be checked by its tasks: the others never start, so they have nothing to send. -/
theorem orderly_of_called {T : IpText} {ts : List RaftdTask} {w : RaftdPool}
    {ms : List (Move RaftdTask RaftdEnv RaftdCall)} (h0 : ∀ t ∉ ts, w.task t = none)
    (hcalls : ∀ t c, Move.call t c ∈ ms → t ∈ ts)
    (hal : Along (Pool.step (raftd T)) (OrderlyAmong ts) w ms) :
    Along (Pool.step (raftd T)) Orderly w ms := by
  induction ms generalizing w with
  | nil => trivial
  | cons m ms ih =>
      obtain ⟨⟨hsend, hleft⟩, hrest⟩ := hal
      refine ⟨⟨?_, hleft⟩, ?_⟩
      · intro ev hsec t ev' hev'
        -- a task that never started has nothing unsent
        by_cases ht : t ∈ ts
        · exact hsend ev (by simp [sending, hsec]) t ht ev' hev'
        · simp [unsent, h0 t ht] at hev'
      · intro w' hs
        refine ih ?_ (fun t c hc => hcalls t c (List.mem_cons_of_mem _ hc)) (hrest w' hs)
        intro t ht
        have hone : exec (Pool.step (raftd T)) w [m] = some w' :=
          exec_cons.mpr ⟨w', hs, exec_nil w'⟩
        refine Pool.task_none_of_not_called hone (fun c hc => ht (hcalls t c ?_)) (h0 t ht)
        rw [List.mem_singleton.mp hc]
        exact List.mem_cons_self

/-- A ban on one address, as an administrator's request and as the entry it makes. -/
def banRequest : AdminReq := .upsertBan "10.0.0.1/32".toList 0 "ops".toList "spam".toList

def liftRequest : AdminReq := .deleteBan "b1".toList

def banEnv : RaftdEnv := { now := 100, randHex16 := "b1".toList }

def banEntry : BanEntry :=
  ⟨"b1".toList, ⟨.v4 0x0a000001#32, 32⟩, 100, "ops".toList, "spam".toList, 0⟩

def oneBan : PersistedState :=
  { PersistedState.empty with nextIndex := 2, bans := AList.insert "b1".toList banEntry ∅ }

/-- Connection 0 bans and connection 1 lifts the ban. Both take their index before either sends, and
they send in that order. -/
def orderlyRun : List (Move RaftdTask RaftdEnv RaftdCall) :=
  [.call (.conn 0) (.admin banRequest), .call (.conn 1) (.admin liftRequest),
    .run (.conn 0) banEnv, .run (.conn 1) {}, .run (.conn 0) {}, .run (.conn 1) {}]

/-- What the two connections leave behind: the events in the order sent, what is unsent, and
whether raftd still bans. -/
def outcome (w : RaftdPool) : List EventEnvelope × List (List EventEnvelope) × Bool :=
  (w.shared.sent, [unsent w (.conn 0), unsent w (.conn 1)], (w.shared.st.bans.lookup "b1".toList).isSome)

theorem events_in_commit_order_lift : ∃ w,
    exec (Pool.step (raftd IpText.plain)) (RaftdPool.init .empty) orderlyRun = some w ∧
    w.shared.sent = [⟨1, .banUpserted banEntry⟩, ⟨2, .banDeleted "b1".toList⟩] ∧
    (DeliversInOrder w ∧ SubscribersAgree .empty w) := by
  have hrun : (exec (Pool.step (raftd IpText.plain)) (RaftdPool.init .empty) orderlyRun).map outcome
      = some ([⟨1, .banUpserted banEntry⟩, ⟨2, .banDeleted "b1".toList⟩], [[], []], false) := by
    decide +kernel
  obtain ⟨w, hex, hout⟩ := Option.map_eq_some_iff.mp hrun
  have hal : Along (Pool.step (raftd IpText.plain)) (OrderlyAmong [.conn 0, .conn 1])
      (RaftdPool.init .empty) orderlyRun := by
    decide +kernel
  have hcalls : ∀ t c, Move.call t c ∈ orderlyRun → t ∈ [RaftdTask.conn 0, RaftdTask.conn 1] := by
    intro t c hc
    simp only [orderlyRun, List.mem_cons, Move.call.injEq, reduceCtorEq, List.not_mem_nil,
      or_false] at hc ⊢
    exact hc.imp And.left And.left
  have horderly := orderly_of_called (fun _ _ => rfl) hcalls hal
  exact ⟨w, hex, congrArg Prod.fst hout,
    events_in_commit_order IpText.plain .empty orderlyRun w hex horderly⟩

/-- Both connections take their index before either sends, and the later event goes first. -/
def overtakingRun : List (Move RaftdTask RaftdEnv RaftdCall) :=
  [.call (.conn 0) (.admin banRequest), .call (.conn 1) (.admin liftRequest),
    .run (.conn 0) banEnv, .run (.conn 1) {}, .run (.conn 1) {}, .run (.conn 0) {}]

/-- **The lock alone does not keep the order**: the delete overtakes the upsert, and the enforcer
keeps a ban that raftd has lifted. -/
theorem overtaking_breaks_order : ∃ w,
    exec (Pool.step (raftd IpText.plain)) (RaftdPool.init .empty) overtakingRun = some w ∧
    ¬ DeliversInOrder w ∧ ¬ SubscribersAgree .empty w := by
  have hrun : (exec (Pool.step (raftd IpText.plain)) (RaftdPool.init .empty) overtakingRun).map outcome
      = some ([⟨2, .banDeleted "b1".toList⟩, ⟨1, .banUpserted banEntry⟩], [[], []], false) := by
    decide +kernel
  obtain ⟨w, hex, hout⟩ := Option.map_eq_some_iff.mp hrun
  simp only [outcome, Prod.mk.injEq, List.cons.injEq, and_true] at hout
  obtain ⟨hsent, ⟨h0, h1⟩, hban⟩ := hout
  refine ⟨w, hex, ?_, ?_⟩
  · unfold DeliversInOrder
    rw [hsent]
    decide
  · intro hagree
    have hdone : ∀ t, unsent w t = [] := by
      intro t
      by_cases ht0 : t = .conn 0
      · rw [ht0, h0]
      · by_cases ht1 : t = .conn 1
        · rw [ht1, h1]
        · have hnone : w.task t = none :=
            Pool.task_none_of_not_called hex (by simp [overtakingRun, ht0, ht1]) rfl
          simp [unsent, hnone]
    have hsame := hagree hdone (fun _ => 0) ⟨[], .enforcing, 0, ∅, ∅, ⟨[]⟩⟩ (Table.Same.refl _)
      "b1".toList
    rw [hsent] at hsame
    rw [← hsame] at hban
    revert hban
    decide

end Slopmud.Sbc
