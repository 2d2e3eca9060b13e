import Slopmud.Proof.BanEvents
import Slopmud.Sbc.Subscribe

/-!
# A snapshot and the events after it

`handle_events_conn` subscribes to the channel only after it has taken the
snapshot and written it, so an event that is committed and sent in between is in
neither. What is proved here is that apart from that gap a subscriber loses
nothing: in a run in which no event newer than the snapshot is sent in the gap,
and in which the events about one ban or hold are sent in the order of their
indices, the subscriber is sent every newer event and ends up with raftd's tables.

The order of events about different bans and holds does not matter, so the log
is kept per target: what was sent about a target, and then what is still to be
sent about it, is what was committed about it.
-/

namespace Slopmud.Sbc

open Machine Replay

/-! ## Lock sections and the table of holds -/

/-- The table of holds changes as the events say. -/
def HoldCommit (s s' : PersistedState) (evs : List EventEnvelope) : Prop :=
  Table.Same s'.holds (replay EventEnvelope.holdWrite s.holds evs)

theorem adminSection_holds (T : IpText) (env : RaftdEnv) (s : PersistedState) (req : AdminReq) :
    HoldCommit s (adminSection T env s req).2 (answerEvents (adminSection T env s req).1) := by
  cases req with
  | upsertBan key ttlS createdBy reason =>
      simp only [adminSection]
      cases IpPrefix.parseCidr T key with
      | none => exact Table.Same.refl _
      | some keyPfx =>
          intro k
          simp only [PersistedState.bump_holds, PersistedState.takeBanId_holds]
          rfl
  | deleteBan banId =>
      intro k
      simp only [adminSection, PersistedState.bump_holds, PersistedState.removeBan_holds]
      rfl
  | upsertLegalHold name createdBy reason =>
      simp only [adminSection]
      split
      · exact Table.Same.refl _
      · exact Table.Same.refl _
  | deleteLegalHold name =>
      simp only [adminSection]
      split
      · exact Table.Same.refl _
      · exact Table.Same.refl _
  | reportEnforcementStatus status => exact Table.Same.refl _
  | reportBanApplyResult report => exact Table.Same.refl _
  | getState => exact Table.Same.refl _

theorem reapSection_holds (T : IpText) (s : PersistedState) (ids : List Text) :
    HoldCommit s (reapSection T s ids).2 (reapSection T s ids).1 := by
  suffices h : ∀ acc : List EventEnvelope × PersistedState, HoldCommit s acc.2 acc.1 →
      HoldCommit s (ids.foldl (reapOne T) acc).2 (ids.foldl (reapOne T) acc).1 from
    h ([], s) (Table.Same.refl _)
  induction ids with
  | nil => exact fun acc h => h
  | cons banId ids ih =>
      intro acc h
      refine ih _ ?_
      intro k
      simp only [reapOne, PersistedState.bump_holds, PersistedState.removeBan_holds, replay_append]
      exact h k

/-! ## The log, by target -/

/-- The events about one ban or hold. -/
def concerning (κ : Target) (evs : List EventEnvelope) : List EventEnvelope :=
  evs.filter fun ev => ev.event.target = some κ

theorem concerning_append (κ : Target) (evs evs' : List EventEnvelope) :
    concerning κ (evs ++ evs') = concerning κ evs ++ concerning κ evs' :=
  List.filter_append ..

theorem mem_concerning {κ : Target} {ev : EventEnvelope} {evs : List EventEnvelope} :
    ev ∈ concerning κ evs ↔ ev ∈ evs ∧ ev.event.target = some κ := by
  simp [concerning]

theorem about_banWrite (banId : Text) (evs : List EventEnvelope) :
    about EventEnvelope.banWrite banId evs = concerning (.ban banId) evs :=
  List.filter_congr fun _ _ => decide_eq_decide.mpr banWrite_target

theorem about_holdWrite (nameLc : Text) (evs : List EventEnvelope) :
    about EventEnvelope.holdWrite nameLc evs = concerning (.hold nameLc) evs :=
  List.filter_congr fun _ _ => decide_eq_decide.mpr holdWrite_target

/-- All events so far: `log` in commit order, and those of it that are still to be sent, each with
its owner. -/
structure KeyLog (st₀ : PersistedState) (w : Raftd) (know : RaftdTask → List EventEnvelope)
    (log rest : List EventEnvelope) (owner : Nat → RaftdTask) : Prop where
  /-- Every task has to send its share of the rest, in this order. -/
  share : ∀ t, know t = rest.filter (fun ev => owner ev.index = t)
  /-- The rest is in commit order too. -/
  restLogged : rest.Sublist log
  /-- Only what was committed is sent. -/
  sentLogged : ∀ ev ∈ w.sent, ev ∈ log
  /-- The indices increase. -/
  increasing : (log.map EventEnvelope.index).Pairwise (· < ·)
  /-- The next index is larger than all of them. -/
  below : ∀ ev ∈ log, ev.index < w.st.nextIndex
  /-- About each target the sends keep the order of the log. -/
  order : ∀ κ, concerning κ log = concerning κ w.sent ++ concerning κ rest
  /-- raftd's tables are what the log makes of the initial ones. -/
  bans : Table.Same w.st.bans (replay EventEnvelope.banWrite st₀.bans log)
  holds : Table.Same w.st.holds (replay EventEnvelope.holdWrite st₀.holds log)
  /-- No event is a snapshot. -/
  broadcast : ∀ ev ∈ log, ¬ ev.event.IsSnapshot
  /-- The first index was at least one. -/
  started : 0 < w.st.nextIndex

theorem keyLog_commit {st₀ : PersistedState} {w : Raftd} {know : RaftdTask → List EventEnvelope}
    {log rest evs : List EventEnvelope} {owner : Nat → RaftdTask} {t : RaftdTask}
    {st' : PersistedState} (h : KeyLog st₀ w know log rest owner) (ht : know t = [])
    (hc : Commit w.st st' evs) (hh : HoldCommit w.st st' evs) :
    KeyLog st₀ { w with st := st' } (Function.update know t evs) (log ++ evs) (rest ++ evs)
      (fun i => if w.st.nextIndex ≤ i then t else owner i) where
  share := share_commit h.share ht (fun ev hev => h.below ev (h.restLogged.subset hev))
    (fun ev hev => (commit_index hc hev).1)
  restLogged := h.restLogged.append (List.Sublist.refl evs)
  sentLogged := fun ev hev => List.mem_append_left _ (h.sentLogged ev hev)
  increasing := increasing_commit hc h.increasing h.below
  below := by
    intro ev hev
    rcases List.mem_append.mp hev with hev | hev
    · have := h.below ev hev
      have := hc.next
      simp only
      omega
    · exact (commit_index hc hev).2
  order := by
    intro κ
    rw [concerning_append, concerning_append, h.order κ, List.append_assoc]
  bans := by
    intro k
    simp only
    rw [hc.bans k, foldl_onBans_eq, replay_append, replay_same h.bans evs k]
  holds := by
    intro k
    simp only
    rw [hh k, replay_append, replay_same h.holds evs k]
  broadcast := by
    intro ev hev
    rcases List.mem_append.mp hev with hev | hev
    · exact h.broadcast ev hev
    · exact hc.broadcast ev hev
  started := by
    have := h.started
    have := hc.next
    simp only
    omega

/-- The event with the smallest index about a target is the first of them. -/
theorem concerning_first {rest : List EventEnvelope} {ev : EventEnvelope} {κ : Target}
    (hrest : (rest.map EventEnvelope.index).Pairwise (· < ·)) (hev : ev ∈ rest)
    (hκ : ev.event.target = some κ)
    (hfirst : ∀ ev' ∈ rest, ev'.event.target = some κ → ev.index ≤ ev'.index) :
    concerning κ rest = ev :: concerning κ (rest.erase ev) := by
  have hmem : ev ∈ concerning κ rest := mem_concerning.mpr ⟨hev, hκ⟩
  rw [concerning, concerning, ← List.erase_filter, ← concerning]
  cases hlist : concerning κ rest with
  | nil => rw [hlist] at hmem; simp at hmem
  | cons ev₀ more =>
      have hev₀ : ev₀ ∈ concerning κ rest := by rw [hlist]; exact List.mem_cons_self
      obtain ⟨hin, htarget⟩ := mem_concerning.mp hev₀
      have hle := hfirst ev₀ hin htarget
      have hpw : ((concerning κ rest).map EventEnvelope.index).Pairwise (· < ·) :=
        hrest.sublist (List.filter_sublist.map _)
      rw [hlist, List.map_cons, List.pairwise_cons] at hpw
      rw [hlist] at hmem
      rcases List.mem_cons.mp hmem with rfl | hmore
      · rw [List.erase_cons_head]
      · have := hpw.1 ev.index (List.mem_map_of_mem hmore)
        omega

theorem keyLog_send {st₀ : PersistedState} {w : Raftd} {know : RaftdTask → List EventEnvelope}
    {log rest : List EventEnvelope} {owner : Nat → RaftdTask} {t : RaftdTask} {ev : EventEnvelope}
    (h : KeyLog st₀ w know log rest owner) (ht : (know t).head? = some ev)
    (hfirst : ∀ κ, ev.event.target = some κ → ∀ t', ∀ ev' ∈ know t',
      ev'.event.target = some κ → ev.index ≤ ev'.index) :
    KeyLog st₀ { w with sent := w.sent ++ [ev] } (Function.update know t (know t).tail) log
      (rest.erase ev) owner := by
  have hrest : ev ∈ rest := by
    have : ev ∈ know t := List.mem_of_head? ht
    rw [h.share t] at this
    exact List.mem_of_mem_filter this
  refine { h with share := share_send h.share ht, restLogged := ?_, sentLogged := ?_, order := ?_ }
  · exact List.erase_sublist.trans h.restLogged
  · intro ev' hev'
    rcases List.mem_append.mp hev' with hev' | hev'
    · exact h.sentLogged ev' hev'
    · rw [List.mem_singleton.mp hev']
      exact h.restLogged.subset hrest
  · intro κ
    rw [concerning_append, h.order κ, List.append_assoc]
    congr 1
    by_cases hκ : ev.event.target = some κ
    · rw [concerning_first (h.increasing.sublist (h.restLogged.map _)) hrest hκ]
      · simp [concerning, hκ]
      · intro ev' hev' hκ'
        exact hfirst κ hκ (owner ev'.index) ev' (by rw [h.share]; simpa using hev') hκ'
    · rw [concerning, concerning, concerning, ← List.erase_filter, List.erase_of_not_mem]
      · simp [hκ]
      · intro hmem
        exact hκ (by simpa using (List.mem_filter.mp hmem).2)

/-! ## The connection -/

/-- `snap` has the tables as the `early` part of the log left them. -/
structure Taken (st₀ : PersistedState) (log : List EventEnvelope) (snap : EventEnvelope)
    (early late : List EventEnvelope) : Prop where
  split : log = early ++ late
  /-- Its index separates the two parts. -/
  earlyLe : ∀ ev ∈ early, ev.index ≤ snap.index
  lateGt : ∀ ev ∈ late, snap.index < ev.index
  content : ∃ st : PersistedState, snap = snapshotOf st ∧
    Table.Same st.bans (replay EventEnvelope.banWrite st₀.bans early) ∧
    Table.Same st.holds (replay EventEnvelope.holdWrite st₀.holds early)

/-- A snapshot of the current state. -/
theorem taken_now {st₀ : PersistedState} {w : Raftd} {know : RaftdTask → List EventEnvelope}
    {log rest : List EventEnvelope} {owner : Nat → RaftdTask}
    (h : KeyLog st₀ w know log rest owner) : Taken st₀ log (snapshotOf w.st) log [] where
  split := (List.append_nil log).symm
  earlyLe := by
    intro ev hev
    have := h.below ev hev
    simp only [snapshotOf]
    omega
  lateGt := by simp
  content := ⟨w.st, rfl, h.bans, h.holds⟩

/-- What is committed later is late. -/
theorem taken_commit {st₀ st st' : PersistedState} {log early late evs : List EventEnvelope}
    {snap : EventEnvelope} (h : Taken st₀ log snap early late) (hold : snap.index < st.nextIndex)
    (hc : Commit st st' evs) : Taken st₀ (log ++ evs) snap early (late ++ evs) where
  split := by rw [h.split, List.append_assoc]
  earlyLe := h.earlyLe
  lateGt := by
    intro ev hev
    rcases List.mem_append.mp hev with hev | hev
    · exact h.lateGt ev hev
    · have := (commit_index hc hev).1
      omega
  content := h.content

/-- What the connection has been sent, at each point of the function. -/
def Served (st₀ : PersistedState) (log : List EventEnvelope) (w : Raftd) (c : EventsConn) : Prop :=
  match c.phase with
  | .asked => c.out = [] ∧ c.dropped = 0
  | .snapped => c.dropped = 0 ∧ ∃ snap early late, c.out = [snap] ∧
      Taken st₀ log snap early late ∧ snap.index < w.st.nextIndex ∧
      ∀ ev ∈ w.sent, ev.index ≤ snap.index
  | .receiving pos => pos ≤ w.sent.length ∧ ∃ snap early late start,
      Taken st₀ log snap early late ∧ snap.index < w.st.nextIndex ∧ start ≤ pos ∧
      (∀ ev ∈ w.sent.take start, ev.index ≤ snap.index) ∧
      (c.dropped = 0 → c.out = snap :: (w.sent.take pos).drop start)
  | .closed => True

/-- The invariant of the server with a connection. -/
def Seen (st₀ : PersistedState) (c : EventsConn) (w : Raftd)
    (know : RaftdTask → List EventEnvelope) : Prop :=
  c.mode = .snapshot ∧
    ∃ log rest owner, KeyLog st₀ w know log rest owner ∧ Served st₀ log w c

theorem served_commit {st₀ st' : PersistedState} {log evs : List EventEnvelope} {w : Raftd}
    {c : EventsConn} (h : Served st₀ log w c) (hc : Commit w.st st' evs) :
    Served st₀ (log ++ evs) { w with st := st' } c := by
  have hnext := hc.next
  unfold Served at h ⊢
  split at h
  · exact h
  · obtain ⟨hdrop, snap, early, late, hout, htaken, hidx, hsent⟩ := h
    exact ⟨hdrop, snap, early, late ++ evs, hout, taken_commit htaken hidx hc,
      by simp only; omega, hsent⟩
  · obtain ⟨hpos, snap, early, late, start, htaken, hidx, hstart, htake, hout⟩ := h
    exact ⟨hpos, snap, early, late ++ evs, start, taken_commit htaken hidx hc,
      by simp only; omega, hstart, htake, hout⟩
  · trivial

/-- An event sent in the gap is not newer than the snapshot. -/
def GapClean (c : EventsConn) (ev : EventEnvelope) : Prop :=
  c.phase = .snapped → ∀ snap ∈ c.out, ev.index ≤ snap.index

theorem served_send {st₀ : PersistedState} {log : List EventEnvelope} {w : Raftd} {c : EventsConn}
    {ev : EventEnvelope} (h : Served st₀ log w c) (hgap : GapClean c ev) :
    Served st₀ log { w with sent := w.sent ++ [ev] } c := by
  unfold Served at h ⊢
  unfold GapClean at hgap
  split at h
  · exact h
  · rename_i hphase
    obtain ⟨hdrop, snap, early, late, hout, htaken, hidx, hsent⟩ := h
    refine ⟨hdrop, snap, early, late, hout, htaken, hidx, ?_⟩
    intro ev' hev'
    rcases List.mem_append.mp hev' with hev' | hev'
    · exact hsent ev' hev'
    · rw [List.mem_singleton.mp hev']
      exact hgap hphase snap (by rw [hout]; exact List.mem_cons_self)
  · obtain ⟨hpos, snap, early, late, start, htaken, hidx, hstart, htake, hout⟩ := h
    refine ⟨?_, snap, early, late, start, htaken, hidx, hstart, ?_, ?_⟩
    · simp only [List.length_append, List.length_singleton]
      omega
    · rw [List.take_append_of_le_length (by omega)]
      exact htake
    · rw [List.take_append_of_le_length hpos]
      exact hout
  · trivial

/-- **Everything a connection in snapshot mode can do**: take the snapshot, subscribe, learn that it
has lagged, pass an event on, or end at a failed write. -/
theorem EventsConn.step_cases {w : Raftd} {c c' : EventsConn} {e : EventsMove}
    (hmode : c.mode = .snapshot) (h : c.step w e = some c') :
    (c.phase = .asked ∧ c' = { c with phase := .snapped, out := c.out ++ [snapshotOf w.st] })
    ∨ (c.phase = .snapped ∧ c' = { c with phase := .receiving w.sent.length })
    ∨ (∃ pos, c.phase = .receiving pos ∧ pos + channelCapacity < w.sent.length ∧
        c' = { c with
          phase := .receiving (w.sent.length - channelCapacity)
          dropped := c.dropped + (w.sent.length - channelCapacity - pos) })
    ∨ (∃ pos, ∃ hlt : pos < w.sent.length, c.phase = .receiving pos ∧
        c' = { c with phase := .receiving (pos + 1), out := c.out ++ [w.sent[pos]] })
    ∨ c' = { c with phase := .closed } := by
  obtain ⟨mode, phase, out, dropped⟩ := c
  simp only at hmode
  subst hmode
  cases e with
  | snapshot written =>
      cases phase with
      | asked =>
          simp only [EventsConn.step] at h
          split at h
          · exact Or.inl ⟨rfl, (Option.some.inj h).symm⟩
          · exact Or.inr (Or.inr (Or.inr (Or.inr (Option.some.inj h).symm)))
      | _ => cases h
  | subscribe =>
      cases phase with
      | snapped => exact Or.inr (Or.inl ⟨rfl, (Option.some.inj h).symm⟩)
      | _ => cases h
  | recv written =>
      cases phase with
      | receiving pos =>
          simp only [EventsConn.step] at h
          split at h
          · rename_i hlag
            exact Or.inr (Or.inr (Or.inl ⟨pos, rfl, hlag, (Option.some.inj h).symm⟩))
          · obtain ⟨ev, hev, heq⟩ := Option.map_eq_some_iff.mp h
            obtain ⟨hlt, rfl⟩ := List.getElem?_eq_some_iff.mp hev
            split at heq
            · exact Or.inr (Or.inr (Or.inr (Or.inl ⟨pos, hlt, rfl, heq.symm⟩)))
            · exact Or.inr (Or.inr (Or.inr (Or.inr heq.symm)))
      | _ => cases h

/-- **A step of the connection keeps what is known of it.** -/
theorem seen_step {st₀ : PersistedState} {w : Raftd} {know : RaftdTask → List EventEnvelope}
    {c c' : EventsConn} {e : EventsMove} (h : Seen st₀ c w know) (hs : c.step w e = some c') :
    Seen st₀ c' w know := by
  obtain ⟨hmode, log, rest, owner, hlog, hserved⟩ := h
  rcases EventsConn.step_cases hmode hs with ⟨hphase, rfl⟩ | ⟨hphase, rfl⟩ |
    ⟨pos, hphase, hlag, rfl⟩ | ⟨pos, hlt, hphase, rfl⟩ | rfl
  · simp only [Served, hphase] at hserved
    refine ⟨hmode, log, rest, owner, hlog, hserved.2, snapshotOf w.st, log, [], ?_,
      taken_now hlog, ?_, ?_⟩
    · simp [hserved.1]
    · have := hlog.started
      simp only [snapshotOf]
      omega
    · intro ev hev
      exact (taken_now hlog).earlyLe ev (hlog.sentLogged ev hev)
  · simp only [Served, hphase] at hserved
    obtain ⟨hdrop, snap, early, late, hout, htaken, hidx, hsent⟩ := hserved
    refine ⟨hmode, log, rest, owner, hlog, Nat.le_refl _, snap, early, late, w.sent.length,
      htaken, hidx, Nat.le_refl _, ?_, ?_⟩
    · rw [List.take_length]
      exact hsent
    · intro _
      simp [hout]
  · -- from here on `dropped` is not zero
    simp only [Served, hphase] at hserved
    obtain ⟨hpos, snap, early, late, start, htaken, hidx, hstart, htake, hout⟩ := hserved
    refine ⟨hmode, log, rest, owner, hlog, by omega, snap, early, late, start, htaken, hidx,
      by omega, htake, ?_⟩
    intro hdrop
    simp only at hdrop
    omega
  · simp only [Served, hphase] at hserved
    obtain ⟨hpos, snap, early, late, start, htaken, hidx, hstart, htake, hout⟩ := hserved
    refine ⟨hmode, log, rest, owner, hlog, by omega, snap, early, late, start, htaken, hidx,
      by omega, htake, ?_⟩
    intro hdrop
    simp only at hdrop
    rw [hout hdrop, List.take_succ_eq_append_getElem hlt,
      List.drop_append_of_le_length (by rw [List.length_take]; omega)]
    rfl
  · exact ⟨hmode, log, rest, owner, hlog, trivial⟩

/-! ## The runs in which nothing is missed -/

/-- About one ban or hold, an event is sent only when no older one is still unsent. -/
def SendsInTurn (w : RaftdPool) (m : Move RaftdTask RaftdEnv RaftdCall) : Prop :=
  ∀ ev, w.section? m = some (.send ev) → ∀ κ, ev.event.target = some κ →
    ∀ t, ∀ ev' ∈ unsent w t, ev'.event.target = some κ → ev.index ≤ ev'.index

/-- The condition under which the snapshot and the tail fit together. -/
def NothingMissed (s : Watch) : WatchMove → Prop
  | .raftd m => SendsInTurn s.server m ∧ IndexLeft s.server ∧
      ∀ ev, s.server.section? m = some (.send ev) → GapClean s.conn ev
  | .events _ => True

/-- **The sections of the server keep the invariant**, whatever the connection has reached. -/
theorem seen_keeps (T : IpText) (st₀ : PersistedState) (c : EventsConn) :
    Pool.Keeps (raftd T) (fun _ => sendContract) (Seen st₀ c)
      (fun w m => NothingMissed ⟨w, c⟩ (.raftd m)) where
  start := by
    intro w know t call p h _ hp
    exact ⟨[], safe_start h hp⟩
  effect := by
    intro w know t e o r s' h hok hsec hmay heff
    refine ⟨trivial, ?_⟩
    obtain ⟨hturn, hleft, hgap⟩ := hok
    unfold IndexLeft at hleft
    obtain ⟨hmode, log, rest, owner, hlog, hserved⟩ := h.shared
    cases o with
    | mutate req =>
        simp only [raftd, raftdEffect, Option.some.injEq, Prod.mk.injEq] at heff
        obtain ⟨rfl, rfl⟩ := heff
        have hc := adminSection_commit T e (s := w.shared.st) req (by simp only at hleft; omega)
        exact ⟨hmode, _, _, _, keyLog_commit hlog hmay hc (adminSection_holds T e _ req),
          served_commit hserved hc⟩
    | reap =>
        simp only [raftd, raftdEffect, Option.ite_none_right_eq_some, Option.some.injEq,
          Prod.mk.injEq] at heff
        obtain ⟨hperm, rfl, rfl⟩ := heff
        have := expiredIds_length hperm
        have hc := reapSection_commit T (s := w.shared.st) e.order
          (by simp only at hleft; omega)
        exact ⟨hmode, _, _, _, keyLog_commit hlog hmay hc (reapSection_holds T _ e.order),
          served_commit hserved hc⟩
    | send ev =>
        simp only [raftd, raftdEffect, Option.some.injEq, Prod.mk.injEq] at heff
        obtain ⟨-, rfl⟩ := heff
        refine ⟨hmode, _, _, _, keyLog_send hlog hmay ?_, served_send hserved (hgap ev hsec)⟩
        intro κ hκ t' ev' hev'
        exact hturn ev hsec κ hκ t' ev' (by simp only; rw [unsent_eq h]; exact hev')

/-- What holds of a server with a connection: the pool is sound, for what the connection has seen. -/
def WatchInv (st₀ : PersistedState) (s : Watch) : Prop :=
  ∃ know, Pool.Sound (fun _ => sendContract) (Seen st₀ s.conn) s.server know

theorem watchInv_step {T : IpText} {st₀ : PersistedState} {s s' : Watch} {m : WatchMove}
    (h : WatchInv st₀ s) (hok : NothingMissed s m) (hs : s.step T m = some s') :
    WatchInv st₀ s' := by
  obtain ⟨know, h⟩ := h
  cases m with
  | raftd m =>
      obtain ⟨server, hserver, rfl⟩ := Option.map_eq_some_iff.mp hs
      exact Pool.sound_step (seen_keeps T st₀ s.conn) h hok hserver
  | events e =>
      obtain ⟨conn, hconn, rfl⟩ := Option.map_eq_some_iff.mp hs
      exact ⟨know, seen_step h.shared hconn, h.safe, h.fresh⟩

/-- The moves of the server in a run with a connection. -/
def serverMoves (ms : List WatchMove) : List (Move RaftdTask RaftdEnv RaftdCall) :=
  ms.filterMap fun
    | .raftd m => some m
    | .events _ => none

/-- The server does not notice the connection. -/
theorem server_exec {T : IpText} {s s' : Watch} {ms : List WatchMove}
    (hex : exec (Watch.step T) s ms = some s') :
    exec (Pool.step (raftd T)) s.server (serverMoves ms) = some s'.server := by
  induction ms generalizing s with
  | nil => cases hex; rfl
  | cons m ms ih =>
      obtain ⟨s₁, h₁, h₂⟩ := exec_cons.mp hex
      cases m with
      | raftd m =>
          obtain ⟨server, hserver, rfl⟩ := Option.map_eq_some_iff.mp h₁
          exact exec_cons.mpr ⟨server, hserver, ih h₂⟩
      | events e =>
          obtain ⟨conn, -, rfl⟩ := Option.map_eq_some_iff.mp h₁
          exact ih (s := { s with conn }) h₂

/-- A state as `sbc_raftd` saves it: the entries lie under their own names. -/
structure PersistedState.Saved (st : PersistedState) : Prop where
  started : 0 < st.nextIndex
  bans : ∀ banId entry, st.bans.lookup banId = some entry → entry.banId = banId
  holds : ∀ nameLc entry, st.holds.lookup nameLc = some entry → entry.nameLc = nameLc

theorem watchInv_init {st : PersistedState} (h : st.Saved) : WatchInv st (Watch.init st) := by
  refine ⟨fun _ => [], ⟨rfl, [], [], fun _ => .reaper, ?_, rfl, rfl⟩, ?_, fun _ _ => rfl⟩
  · exact ⟨by simp, by simp, by simp [Watch.init, RaftdPool.init], by simp, by simp,
      by simp [concerning, Watch.init, RaftdPool.init], Table.Same.refl _, Table.Same.refl _,
      by simp, h.started⟩
  · intro t p hp
    simp [Watch.init, RaftdPool.init] at hp

/-! ## What a subscriber ends up with -/

/-- The index splits what was sent before the subscription from what was committed after the
snapshot. -/
theorem early_prefix {st₀ : PersistedState} {log early late before : List EventEnvelope}
    {snap : EventEnvelope} (h : Taken st₀ log snap early late) {κ : Target}
    (hbefore : ∀ ev ∈ before, ev.index ≤ snap.index)
    (hpre : concerning κ before <+: concerning κ log) :
    concerning κ before <+: concerning κ early := by
  rw [h.split, concerning_append] at hpre
  rcases List.prefix_or_prefix_of_prefix hpre (List.prefix_append _ _) with hle | hle
  · exact hle
  · -- what `before` has beyond `early` would be older and newer than the snapshot
    obtain ⟨more, hmore⟩ := hle
    rw [← hmore, List.prefix_append_right_inj] at hpre
    cases more with
    | nil => exact ⟨[], by simpa using hmore.symm⟩
    | cons ev more =>
        exfalso
        have hin : ev ∈ concerning κ before := by rw [← hmore]; simp
        have hlate : ev ∈ concerning κ late := hpre.subset List.mem_cons_self
        have := hbefore ev (mem_concerning.mp hin).1
        have := h.lateGt ev (mem_concerning.mp hlate).1
        omega

/-- A connection that has been sent everything: its lines are the snapshot and a tail of what was
sent, and replaying that tail over the tables of the snapshot gives raftd's. -/
theorem caught_up {st₀ : PersistedState} {s : Watch} (h : WatchInv st₀ s) (hst₀ : st₀.Saved)
    (hdone : ∀ t, unsent s.server t = [])
    (hphase : s.conn.phase = .receiving s.server.shared.sent.length) (hdrop : s.conn.dropped = 0) :
    ∃ st : PersistedState, ∃ tail, s.conn.out = snapshotOf st :: tail ∧
      (∀ ev ∈ tail, ¬ ev.event.IsSnapshot) ∧
      (∀ banId entry, st.bans.lookup banId = some entry → entry.banId = banId) ∧
      (∀ nameLc entry, st.holds.lookup nameLc = some entry → entry.nameLc = nameLc) ∧
      Table.Same (replay EventEnvelope.banWrite st.bans tail) s.server.shared.st.bans ∧
      Table.Same (replay EventEnvelope.holdWrite st.holds tail) s.server.shared.st.holds := by
  obtain ⟨know, hsound⟩ := h
  obtain ⟨-, log, rest, owner, hlog, hserved⟩ := hsound.shared
  simp only [Served, hphase] at hserved
  obtain ⟨-, snap, early, late, start, htaken, -, -, htake, hout⟩ := hserved
  obtain ⟨st, rfl, hbans, hholds⟩ := htaken.content
  have hrest : rest = [] := by
    refine List.eq_nil_iff_forall_not_mem.mpr fun ev hev => ?_
    have hmem : ev ∈ know (owner ev.index) := by rw [hlog.share]; simpa using hev
    rw [← unsent_eq hsound, hdone] at hmem
    simp at hmem
  subst hrest
  -- about each target, the log is what was sent before the subscription, and the tail
  have hsplit : ∀ κ, concerning κ log = concerning κ (s.server.shared.sent.take start)
      ++ concerning κ (s.server.shared.sent.drop start) := by
    intro κ
    rw [hlog.order κ, ← concerning_append κ (List.take _ _), List.take_append_drop]
    exact List.append_nil _
  have hearly : ∀ κ, concerning κ (s.server.shared.sent.take start) <+: concerning κ early :=
    fun κ => early_prefix htaken htake ⟨_, (hsplit κ).symm⟩
  refine ⟨st, s.server.shared.sent.drop start, ?_, ?_, ?_, ?_, ?_, ?_⟩
  · rw [hout hdrop, List.take_length]
  · exact fun ev hev => hlog.broadcast ev (hlog.sentLogged ev (List.mem_of_mem_drop hev))
  · intro banId entry hentry
    rw [hbans banId] at hentry
    exact replay_own hst₀.bans banWrite_own banId entry hentry
  · intro nameLc entry hentry
    rw [hholds nameLc] at hentry
    exact replay_own hst₀.holds holdWrite_own nameLc entry hentry
  · intro banId
    rw [replay_same hbans, hlog.bans banId, htaken.split]
    refine lookup_replay_suffix (s.server.shared.sent.take start) ?_ ?_
    · rw [about_banWrite, about_banWrite, about_banWrite, ← htaken.split, hsplit]
    · rw [about_banWrite, about_banWrite]
      exact hearly _
  · intro nameLc
    rw [replay_same hholds, hlog.holds nameLc, htaken.split]
    refine lookup_replay_suffix (s.server.shared.sent.take start) ?_ ?_
    · rw [about_holdWrite, about_holdWrite, about_holdWrite, ← htaken.split, hsplit]
    · rw [about_holdWrite, about_holdWrite]
      exact hearly _

/-- Of the events a connection has taken from the channel without a lag, it has passed on every one
that is newer than the snapshot it sent first. -/
def TailComplete (s : Watch) : Prop :=
  ∀ pos, s.conn.phase = .receiving pos → s.conn.dropped = 0 →
    ∃ snap tail, s.conn.out = snap :: tail ∧ snap.event.IsSnapshot ∧
      ∀ ev ∈ s.server.shared.sent.take pos, snap.index < ev.index → ev ∈ tail

/-- A connection that is not too far behind takes everything that was sent, if it is left alone. -/
def CanCatchUp (T : IpText) (s : Watch) : Prop :=
  ∀ pos, s.conn.phase = .receiving pos →
    s.server.shared.sent.length ≤ pos + channelCapacity →
    ∃ s', exec (Watch.step T) s (List.replicate (s.server.shared.sent.length - pos)
        (.events (.recv true))) = some s' ∧ s'.server = s.server ∧
      s'.conn.phase = .receiving s.server.shared.sent.length ∧ s'.conn.dropped = s.conn.dropped

/-- Every event is sent, and the connection has taken all of them without a lag. -/
structure Settled (s : Watch) : Prop where
  sent : ∀ t, unsent s.server t = []
  taken : s.conn.phase = .receiving s.server.shared.sent.length
  noLag : s.conn.dropped = 0

/-- The lines fold to raftd's tables. -/
def TablesDetermined (s : Watch) : Prop :=
  Settled s → Table.Same (Tables.fold s.conn.out).bans s.server.shared.st.bans ∧
    Table.Same (Tables.fold s.conn.out).holds s.server.shared.st.holds

/-- An enforcer that reads the lines wants raftd's bans, apart from those that had expired when it
read the snapshot and were not touched since. -/
def EnforcerAgrees (s : Watch) : Prop :=
  Settled s → ∀ (clock : EventEnvelope → Nat) (enforcer : EnforcerState) (banId : Text),
    let wanted := (enforcer.foldEvents clock s.conn.out).desiredBans.lookup banId
    wanted = s.server.shared.st.bans.lookup banId ∨
      (wanted = none ∧ ∃ snap ∈ s.conn.out.head?, ∃ entry,
        s.server.shared.st.bans.lookup banId = some entry ∧
          EnforcerState.expired (clock snap) entry = true)

theorem tail_complete {st₀ : PersistedState} {s : Watch} (h : WatchInv st₀ s) : TailComplete s := by
  intro pos hphase hdrop
  obtain ⟨know, hsound⟩ := h
  obtain ⟨-, log, rest, owner, hlog, hserved⟩ := hsound.shared
  simp only [Served, hphase] at hserved
  obtain ⟨hpos, snap, early, late, start, htaken, -, hstart, htake, hout⟩ := hserved
  obtain ⟨st, rfl, -, -⟩ := htaken.content
  refine ⟨_, _, hout hdrop, trivial, ?_⟩
  intro ev hev hnew
  rw [← List.take_append_drop start (s.server.shared.sent.take pos), List.take_take] at hev
  rcases List.mem_append.mp hev with hev | hev
  · rw [Nat.min_eq_left hstart] at hev
    have := htake ev hev
    omega
  · exact hev

theorem can_catch_up (T : IpText) {st₀ : PersistedState} {s : Watch} (h : WatchInv st₀ s) :
    CanCatchUp T s := by
  intro pos hphase hnear
  have hpos : pos ≤ s.server.shared.sent.length := by
    obtain ⟨know, hsound⟩ := h
    obtain ⟨-, log, rest, owner, -, hserved⟩ := hsound.shared
    simp only [Served, hphase] at hserved
    exact hserved.1
  clear h
  generalize hn : s.server.shared.sent.length - pos = n
  induction n generalizing s pos with
  | zero => exact ⟨s, rfl, rfl, by rw [hphase]; congr 1; omega, rfl⟩
  | succ n ih =>
      have hlt : pos < s.server.shared.sent.length := by omega
      let s₁ : Watch := { s with conn := { s.conn with
        phase := .receiving (pos + 1)
        out := s.conn.out ++ [s.server.shared.sent[pos]] } }
      have hstep : s.step T (.events (.recv true)) = some s₁ := by
        simp [Watch.step, EventsConn.step, hphase, s₁, List.getElem?_eq_getElem hlt,
          show ¬ pos + channelCapacity < s.server.shared.sent.length by omega]
      obtain ⟨s', hex, hserver, hphase', hdrop⟩ := ih (s := s₁) (pos + 1) rfl
        (by simp only [s₁]; omega) (by simp only [s₁]; omega) (by simp only [s₁]; omega)
      exact ⟨s', exec_cons.mpr ⟨s₁, hstep, hex⟩, hserver, hphase', hdrop⟩

/-- A snapshot's tables, as a subscriber rebuilds them. -/
theorem fold_snapshot {st : PersistedState} {tail : List EventEnvelope}
    (hbans : ∀ banId entry, st.bans.lookup banId = some entry → entry.banId = banId)
    (hholds : ∀ nameLc entry, st.holds.lookup nameLc = some entry → entry.nameLc = nameLc)
    (htail : ∀ ev ∈ tail, ¬ ev.event.IsSnapshot) :
    Table.Same (Tables.fold (snapshotOf st :: tail)).bans
      (replay EventEnvelope.banWrite st.bans tail) ∧
    Table.Same (Tables.fold (snapshotOf st :: tail)).holds
      (replay EventEnvelope.holdWrite st.holds tail) := by
  rw [Tables.fold, List.foldl_cons, Tables.foldl_apply htail]
  constructor
  · exact replay_same (fun k => Table.lookup_refile_all hbans k) tail
  · exact replay_same (fun k => Table.lookup_refile_all hholds k) tail

theorem tables_determined {st₀ : PersistedState} {s : Watch} (h : WatchInv st₀ s)
    (hst₀ : st₀.Saved) : TablesDetermined s := by
  intro hsettled
  obtain ⟨st, tail, hout, htail, hbans, hholds, hb, hh⟩ :=
    caught_up h hst₀ hsettled.sent hsettled.taken hsettled.noLag
  obtain ⟨hfb, hfh⟩ := fold_snapshot hbans hholds htail
  rw [hout]
  exact ⟨fun k => (hfb k).trans (hb k), fun k => (hfh k).trans (hh k)⟩

theorem foldEvent_snapshot (now : Nat) (enforcer : EnforcerState) (st : PersistedState) :
    (enforcer.foldEvent now (snapshotOf st)).1.desiredBans =
      Table.fileAll BanEntry.banId ∅
        ((Table.values st.bans).filter fun b => !EnforcerState.expired now b) := by
  simp only [EnforcerState.foldEvent, snapshotOf]
  split <;> rfl

theorem enforcer_agrees {st₀ : PersistedState} {s : Watch} (h : WatchInv st₀ s)
    (hst₀ : st₀.Saved) : EnforcerAgrees s := by
  intro hsettled clock enforcer banId
  obtain ⟨st, tail, hout, htail, hbans, -, hb, -⟩ :=
    caught_up h hst₀ hsettled.sent hsettled.taken hsettled.noLag
  have hwanted : (enforcer.foldEvents clock s.conn.out).desiredBans
      = replay EventEnvelope.banWrite (Table.fileAll BanEntry.banId ∅ ((Table.values st.bans).filter
          fun b => !EnforcerState.expired (clock (snapshotOf st)) b)) tail := by
    rw [hout, EnforcerState.foldEvents, List.foldl_cons, ← EnforcerState.foldEvents,
      foldEvents_desired htail, foldl_onBans_eq, foldEvent_snapshot]
  simp only [hwanted]
  rw [← hb banId]
  -- an event of the tail decides, or the snapshot does
  rcases lookup_replay_cases EventEnvelope.banWrite _ st.bans tail banId with heq | ⟨hl, hr⟩
  · exact Or.inl heq
  · rw [hl, hr, Table.lookup_refile hbans]
    cases hlook : st.bans.lookup banId with
    | none => exact Or.inl rfl
    | some entry =>
        by_cases hexp : EnforcerState.expired (clock (snapshotOf st)) entry = true
        · refine Or.inr ⟨by simp [hexp], snapshotOf st, by simp [hout], entry, rfl, hexp⟩
        · exact Or.inl (by simp [hexp])

/-- **The snapshot and the events after it are complete** in every run in which no event newer than
the snapshot is sent before the subscription and the events about one ban or hold are sent in turn:
every newer event is passed on, and what the subscriber folds is what raftd has. -/
theorem snapshot_and_tail_complete (T : IpText) (st : PersistedState) (hst : st.Saved)
    (ms : List WatchMove) (s : Watch)
    (hex : exec (Watch.step T) (Watch.init st) ms = some s)
    (hal : Along (Watch.step T) NothingMissed (Watch.init st) ms) :
    TailComplete s ∧ CanCatchUp T s ∧ TablesDetermined s ∧ EnforcerAgrees s := by
  have h : WatchInv st s :=
    exec_invariant (fun hi hok hs => watchInv_step hi hok hs) (watchInv_init hst) hal hex
  exact ⟨tail_complete h, can_catch_up T h, tables_determined h hst, enforcer_agrees h hst⟩

theorem oneBan_saved : oneBan.Saved where
  started := by decide
  bans := by
    intro banId entry h
    have : banId = "b1".toList ∧ entry = banEntry := by
      simp only [oneBan, Table.lookup_insert_eq] at h
      split at h
      · exact ⟨by assumption, (Option.some.inj h).symm⟩
      · simp at h
    rw [this.1, this.2]
    rfl
  holds := by
    intro nameLc entry h
    simp [oneBan, PersistedState.empty] at h

/-- The subscriber gets its snapshot of one ban, and then the ban is lifted. -/
def servedRun : List WatchMove :=
  [.events (.snapshot true), .events .subscribe, .raftd (.call (.conn 0) (.admin liftRequest)),
    .raftd (.run (.conn 0) {}), .raftd (.run (.conn 0) {})]

theorem snapshot_and_tail_complete_lift : ∃ s,
    exec (Watch.step IpText.plain) (Watch.init oneBan) servedRun = some s ∧
    (TailComplete s ∧ CanCatchUp IpText.plain s ∧ TablesDetermined s ∧ EnforcerAgrees s) := by
  refine ⟨_, rfl, snapshot_and_tail_complete IpText.plain oneBan oneBan_saved servedRun _ rfl ?_⟩
  refine (along_cons rfl).mpr ⟨trivial, (along_cons rfl).mpr ⟨trivial, (along_cons rfl).mpr
    ⟨⟨?_, by decide, ?_⟩, (along_cons rfl).mpr ⟨⟨?_, by decide, ?_⟩, (along_cons rfl).mpr
    ⟨⟨?_, by decide, ?_⟩, trivial⟩⟩⟩⟩⟩
  · intro ev hev
    cases hev
  · intro ev hev
    cases hev
  · intro ev hev
    cases hev
  · intro ev hev
    cases hev
  · -- only connection 0 has anything to send, and it is this event
    intro ev hev κ _ t ev' hev' _
    cases hev
    by_cases ht : t = .conn 0
    · subst ht
      have : ev' ∈ [(⟨2, .banDeleted "b1".toList⟩ : EventEnvelope)] := hev'
      rw [List.mem_singleton.mp this]
      exact Nat.le_refl 2
    · simp [unsent, Function.update_of_ne ht, RaftdPool.init, Watch.init] at hev'
  · intro ev _ hphase
    cases hphase

/-- The ban is committed and sent after the snapshot and before the subscription. -/
def gapRun : List WatchMove :=
  [.events (.snapshot true), .raftd (.call (.conn 0) (.admin banRequest)),
    .raftd (.run (.conn 0) banEnv), .raftd (.run (.conn 0) {}), .events .subscribe]

/-- What the run leaves behind: the events sent, the connection, what is unsent, and raftd's entry. -/
def gapOutcome (s : Watch) :
    List EventEnvelope × EventsConn × List EventEnvelope × Option BanEntry :=
  (s.server.shared.sent, s.conn, unsent s.server (.conn 0),
    s.server.shared.st.bans.lookup "b1".toList)

/-- **Subscribing after the snapshot loses events**: the subscriber has the empty snapshot of index
0, is never sent the event of index 1, and does not know the ban. -/
theorem gap_loses_event : ∃ s,
    exec (Watch.step IpText.plain) (Watch.init .empty) gapRun = some s ∧
    ¬ TailComplete s ∧ ¬ TablesDetermined s := by
  have hrun : (exec (Watch.step IpText.plain) (Watch.init .empty) gapRun).map gapOutcome
      = some ([⟨1, .banUpserted banEntry⟩],
          ⟨.snapshot, .receiving 1, [⟨0, .snapshot [] []⟩], 0⟩, [], some banEntry) := by
    decide +kernel
  obtain ⟨s, hex, hout⟩ := Option.map_eq_some_iff.mp hrun
  simp only [gapOutcome, Prod.mk.injEq] at hout
  obtain ⟨hsent, hconn, h0, hban⟩ := hout
  refine ⟨s, hex, ?_, ?_⟩
  · intro hcomplete
    obtain ⟨snap, tail, hlines, -, htail⟩ := hcomplete 1 (by rw [hconn]) (by rw [hconn])
    rw [hconn, List.cons.injEq] at hlines
    obtain ⟨rfl, rfl⟩ := hlines
    have := htail ⟨1, .banUpserted banEntry⟩ (by rw [hsent]; simp) (by decide)
    simp at this
  · intro hdetermined
    have hnone : ∀ t, unsent s.server t = [] := by
      intro t
      by_cases ht : t = .conn 0
      · rw [ht, h0]
      · have : s.server.task t = none :=
          Pool.task_none_of_not_called (server_exec hex) (by simp [serverMoves, gapRun, ht]) rfl
        simp [unsent, this]
    have hsame := (hdetermined ⟨hnone, by rw [hconn, hsent]; rfl, by rw [hconn]⟩).1 "b1".toList
    rw [hban, hconn] at hsame
    revert hsame
    decide

end Slopmud.Sbc
