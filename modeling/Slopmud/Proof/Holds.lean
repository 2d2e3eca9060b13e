import Mathlib.Tactic.FinCases
import Slopmud.Broker.Holds
import Slopmud.Lib.Machine
import Slopmud.Proof.Subscribers

/-!
# Legal holds converge, if nothing older overwrites what the events task has brought

The events task alone would do: it takes the snapshot and every change after it,
in order. A command's reply is a second way for the same change, and the cache
does not compare indices; so a reply that is late puts an older state over a newer
one, for good. The same goes for the flags that a command sets, and for the flag
that a login has read before it inserts its session. The results here are for the
runs without such lateness.
-/

namespace Slopmud.Broker

open Machine Replay Slopmud.Sbc

variable {Auth : Type}

/-! ## Keys -/

/-- A name as raftd keeps it. -/
def IsHoldKey (n : Text) : Prop := n ≠ [] ∧ holdKey n = n

theorem holdKey_holdKey (name : Text) : holdKey (holdKey name) = holdKey name :=
  Text.lower_trim_idem name

theorem isHoldKey_holdKey {name : Text} (h : holdKey name ≠ []) : IsHoldKey (holdKey name) :=
  ⟨h, holdKey_holdKey name⟩

/-- All changes of holds in these events have such names. -/
def HoldKeys (evs : List EventEnvelope) : Prop :=
  ∀ ev ∈ evs, ¬ ev.event.IsSnapshot ∧ ∀ n v, ev.holdWrite = some (n, v) → IsHoldKey n

theorem holdKeys_nil : HoldKeys [] := by
  intro ev hev
  cases hev

/-- Events that change no hold. -/
theorem holdKeys_other {idx : Nat} {e : Event} (hsnap : ¬ e.IsSnapshot) (hnone : e.holdWrite = none) :
    HoldKeys [⟨idx, e⟩] := by
  intro ev hev
  cases List.mem_singleton.mp hev
  refine ⟨hsnap, ?_⟩
  intro n v hw
  rw [EventEnvelope.holdWrite, hnone] at hw
  cases hw

theorem holdKeys_write {idx : Nat} {e : Event} {name : Text} {v : Option LegalHoldEntry}
    (hsnap : ¬ e.IsSnapshot) (hw : e.holdWrite = some (holdKey name, v)) (hne : holdKey name ≠ []) :
    HoldKeys [⟨idx, e⟩] := by
  intro ev hev
  cases List.mem_singleton.mp hev
  refine ⟨hsnap, ?_⟩
  intro n v' hw'
  rw [EventEnvelope.holdWrite, hw] at hw'
  cases hw'
  exact isHoldKey_holdKey hne

theorem adminSection_keys (T : IpText) (env : RaftdEnv) (st : PersistedState) (req : AdminReq) :
    HoldKeys (HoldWorld.eventsOf (adminSection T env st req).1) := by
  cases req with
  | upsertBan key ttlS createdBy reason =>
      simp only [adminSection]
      split
      · exact holdKeys_nil
      · exact holdKeys_other id rfl
  | deleteBan banId => exact holdKeys_other id rfl
  | upsertLegalHold name createdBy reason =>
      simp only [adminSection]
      split
      · exact holdKeys_nil
      · rename_i hne
        exact holdKeys_write id rfl (by simpa [holdKey] using hne)
  | deleteLegalHold name =>
      simp only [adminSection]
      split
      · exact holdKeys_nil
      · rename_i hne
        exact holdKeys_write id rfl (by simpa [holdKey] using hne)
  | reportEnforcementStatus status => exact holdKeys_other id rfl
  | reportBanApplyResult report => exact holdKeys_other id rfl
  | getState => exact holdKeys_nil

theorem reapSection_keys (T : IpText) (st : PersistedState) (ids : List Text) :
    HoldKeys (reapSection T st ids).1 := by
  suffices h : ∀ acc : List EventEnvelope × PersistedState, HoldKeys acc.1 →
      HoldKeys (ids.foldl (reapOne T) acc).1 from h ([], st) holdKeys_nil
  induction ids with
  | nil => exact fun acc h => h
  | cons banId ids ih =>
      intro acc h
      refine ih _ ?_
      intro ev hev
      rcases List.mem_append.mp hev with hev | hev
      · exact h ev hev
      · cases List.mem_singleton.mp hev
        exact holdKeys_other id rfl _ (List.mem_singleton_self _)

/-! ## The cache writes what the event says -/

theorem onEvent_event (cache : HoldCache) {ev : EventEnvelope} (hsnap : ¬ ev.event.IsSnapshot)
    (hkey : ∀ n v, ev.holdWrite = some (n, v) → IsHoldKey n) :
    (cache.onEvent ev).1.holds = put cache.holds ev.holdWrite ∧
    (cache.onEvent ev).2 = ev.holdWrite.map fun w => Flags.one w.1 w.2.isSome := by
  obtain ⟨idx, e⟩ := ev
  cases e with
  | snapshot bans holds => exact absurd trivial hsnap
  | legalHoldUpserted entry =>
      obtain ⟨hne, hfix⟩ := hkey entry.nameLc (some entry) rfl
      have hempty : (holdKey entry.nameLc).isEmpty = false := by
        rw [hfix]
        simpa using hne
      constructor
      · simp only [HoldCache.onEvent, HoldCache.applyUpsert, hempty, Bool.false_eq_true, if_false]
        rw [hfix]
        rfl
      · simp only [HoldCache.onEvent, hempty, Bool.false_eq_true, if_false]
        rw [hfix]
        rfl
  | legalHoldDeleted nameLc =>
      obtain ⟨hne, hfix⟩ := hkey nameLc none rfl
      have hempty : (holdKey nameLc).isEmpty = false := by
        rw [hfix]
        simpa using hne
      constructor
      · simp only [HoldCache.onEvent, HoldCache.applyDelete, holdKey_holdKey, hempty,
          Bool.false_eq_true, if_false]
        rw [hfix]
        rfl
      · simp only [HoldCache.onEvent, hempty, Bool.false_eq_true, if_false]
        rw [hfix]
        rfl
  | _ => exact ⟨rfl, rfl⟩

/-- The cache of a snapshot, when every entry is under its own key. -/
theorem foldl_fileHold {holds : List LegalHoldEntry} (h : ∀ e ∈ holds, IsHoldKey e.nameLc)
    (m : Table Text LegalHoldEntry) :
    holds.foldl HoldCache.fileHold m = Table.fileAll LegalHoldEntry.nameLc m holds := by
  induction holds generalizing m with
  | nil => rfl
  | cons e holds ih =>
      obtain ⟨hne, hfix⟩ := h e List.mem_cons_self
      have hfile : HoldCache.fileHold m e = m.insert e.nameLc e := by
        simp only [HoldCache.fileHold]
        rw [hfix, if_neg (by simpa using hne)]
      rw [List.foldl_cons, hfile, ih (fun e' he' => h e' (List.mem_cons_of_mem _ he'))]
      rfl

/-! ## The condition -/

/-- No change of this name among these changes. -/
def Unchanged (n : Text) (evs : List EventEnvelope) : Prop := about EventEnvelope.holdWrite n evs = []

/-- The condition. When a reply is applied, the events task has not taken a later change of the
name; when a command sets flags, the events task has not brought a later change to the flags; and
when a login inserts its session, the events task has brought no change of the name to the flags
that it had not taken when the login read. -/
def InTime (s : HoldWorld Auth) : HoldMove Auth → Prop
  | .apply k => ∀ c resp seq, s.cmd k = .answered c resp seq →
    Unchanged c.nameLc ((s.log.take s.pos).drop (seq + 1))
  | .flagCmd k => ∀ c existed seq, s.cmd k = .applied c existed seq →
    Unchanged c.nameLc ((s.log.take s.flagged).drop (seq + 1))
  | .insert j => ∀ si seen, s.login j = some (si, seen) →
    Unchanged (holdKey si.name) ((s.log.take s.flagged).drop seen)
  | _ => True

/-! ## The invariant -/

/-- Whether a name is held after these changes. -/
def heldIn (n : Text) (evs : List EventEnvelope) : Bool :=
  presence EventEnvelope.holdWrite n false evs

/-- The change a command stands for is number `seq`. -/
def CommittedAs (log : List EventEnvelope) (c : HoldCmd) (seq : Nat) (v : Option LegalHoldEntry) : Prop :=
  c.op.isAdd = v.isSome ∧ ∃ ev, log[seq]? = some ev ∧ ev.holdWrite = some (c.nameLc, v)

def CmdOk (log : List EventEnvelope) : HoldCmdPhase → Prop
  | .idle _ => True
  | .asked c => IsHoldKey c.nameLc
  | .answered c resp seq => IsHoldKey c.nameLc ∧
    ∃ idx v, c.onReply resp = .inr (idx, v) ∧ CommittedAs log c seq v
  | .applied c _ seq => ∃ v, CommittedAs log c seq v

def TaskOk (log : List EventEnvelope) (pos : Nat) : EventsTask → Prop
  | .connecting => pos = 0
  /- The snapshot has what the first `upTo` changes made. -/
  | .subscribed snap upTo => pos = 0 ∧ upTo ≤ log.length ∧ ∃ bans holds,
    snap.event = .snapshot bans holds ∧ (∀ e ∈ holds, IsHoldKey e.nameLc) ∧
    Table.Same (Table.fileAll LegalHoldEntry.nameLc ∅ holds)
      (replay EventEnvelope.holdWrite ∅ (log.take upTo))
  | .reading => True
  | .flagging (.one nameLc held) => 0 < pos ∧ ∃ ev v, log[pos - 1]? = some ev ∧
    ev.holdWrite = some (nameLc, v) ∧ held = v.isSome
  | .flagging (.all heldNames) => ∀ n, heldNames.contains n = heldIn n (log.take pos)

structure HoldInv (s : HoldWorld Auth) : Prop where
  keys : HoldKeys s.log
  raftd : Table.Same s.raftd.holds (replay EventEnvelope.holdWrite ∅ s.log)
  own : ∀ k e, s.raftd.holds.lookup k = some e → e.nameLc = k
  pos : s.pos ≤ s.log.length
  task : TaskOk s.log s.pos s.task
  cmd : ∀ k, CmdOk s.log (s.cmd k)
  /-- With the changes that the events task still has to take, the cache is right. -/
  cache : ∀ n, (replay EventEnvelope.holdWrite s.cache.holds (s.log.drop s.pos)).lookup n
    = (replay EventEnvelope.holdWrite ∅ s.log).lookup n
  /-- With the changes that it still has to bring to the flags, the flags are right. -/
  flags : ∀ j si, s.sessions.lookup j = some si →
    presence EventEnvelope.holdWrite (holdKey si.name) si.held (s.log.drop s.flagged)
      = heldIn (holdKey si.name) s.log
  /-- What a login has read is right unless a change that was not taken then says otherwise. -/
  logins : ∀ j si seen, s.login j = some (si, seen) → seen ≤ s.log.length ∧
    (Unchanged (holdKey si.name) (s.log.drop seen) → si.held = heldIn (holdKey si.name) s.log)

theorem holdInv_start : HoldInv (.start : HoldWorld Auth) where
  keys := holdKeys_nil
  raftd := Table.Same.refl _
  own := by intro k e h; cases h
  pos := Nat.le_refl _
  task := rfl
  cmd := fun _ => trivial
  cache := fun _ => rfl
  flags := by intro j si h; cases h
  logins := by intro j si seen h; cases h

/-! ## Positions in the log -/

theorem unchanged_append {n : Text} {evs evs' : List EventEnvelope} :
    Unchanged n (evs ++ evs') ↔ Unchanged n evs ∧ Unchanged n evs' := by
  unfold Unchanged
  rw [about_append, List.append_eq_nil_iff]

theorem unchanged_of_drop {n : Text} {evs : List EventEnvelope} (h : Unchanged n evs) (i : Nat) :
    Unchanged n (evs.drop i) := by
  rw [← List.take_append_drop i evs, unchanged_append] at h
  exact h.2

/-- No change between two positions, and none from the second on. -/
theorem unchanged_join {n : Text} {log : List EventEnvelope} {i p : Nat}
    (h : Unchanged n ((log.take p).drop i)) (h' : Unchanged n (log.drop p)) :
    Unchanged n (log.drop i) := by
  rw [← List.take_append_drop p log, List.drop_append, unchanged_append]
  exact ⟨h, unchanged_of_drop h' _⟩

/-- The last change of a name decides. -/
theorem lookup_of_last {log : List EventEnvelope} {seq : Nat} {ev : EventEnvelope} {n : Text}
    {v : Option LegalHoldEntry} (hev : log[seq]? = some ev) (hw : ev.holdWrite = some (n, v))
    (hlast : Unchanged n (log.drop (seq + 1))) (m : Table Text LegalHoldEntry) :
    (replay EventEnvelope.holdWrite m log).lookup n = v := by
  obtain ⟨hlt, hget⟩ := List.getElem?_eq_some_iff.mp hev
  have hsplit : log = log.take seq ++ ([ev] ++ log.drop (seq + 1)) := by
    rw [← hget, List.singleton_append, List.getElem_cons_drop, List.take_append_drop]
  have hlook : (replay EventEnvelope.holdWrite (replay EventEnvelope.holdWrite m (log.take seq ++ [ev]))
      (log.drop (seq + 1))).lookup n = (replay EventEnvelope.holdWrite m (log.take seq ++ [ev])).lookup n := by
    rw [lookup_replay, hlast]
    rfl
  rw [hsplit, ← List.append_assoc, replay_append, hlook, replay_append, replay_cons, replay_nil,
    lookup_put, hw]
  simp

theorem heldIn_eq (n : Text) (log : List EventEnvelope) :
    heldIn n log = ((replay EventEnvelope.holdWrite ∅ log).lookup n).isSome := by
  rw [presence_lookup]
  rfl

theorem heldIn_append (n : Text) (log evs : List EventEnvelope) :
    heldIn n (log ++ evs) = presence EventEnvelope.holdWrite n (heldIn n log) evs :=
  presence_append false

theorem heldIn_drop (n : Text) (log : List EventEnvelope) (i : Nat) :
    presence EventEnvelope.holdWrite n (heldIn n (log.take i)) (log.drop i) = heldIn n log := by
  rw [← heldIn_append, List.take_append_drop]

/-- No name is empty. -/
theorem heldIn_empty {log : List EventEnvelope} (h : HoldKeys log) : heldIn [] log = false := by
  refine presence_of_about ?_ false
  refine List.filter_eq_nil_iff.mpr ?_
  intro ev hev hkey
  obtain ⟨⟨n, v⟩, hw, hn⟩ := Option.map_eq_some_iff.mp (of_decide_eq_true hkey)
  exact ((h ev hev).2 n v hw).1 hn

/-- What raftd holds has a proper name. -/
theorem isHoldKey_of_lookup {log : List EventEnvelope} (h : HoldKeys log) {n : Text} {e : LegalHoldEntry}
    (hlook : (replay EventEnvelope.holdWrite ∅ log).lookup n = some e) : IsHoldKey n := by
  rw [lookup_replay] at hlook
  cases hlast : (about EventEnvelope.holdWrite n log).getLast? with
  | none =>
      rw [hlast] at hlook
      cases hlook
  | some ev =>
      obtain ⟨hmem, hkey⟩ := mem_about.mp (List.mem_of_getLast? hlast)
      obtain ⟨⟨n', v⟩, hw, rfl⟩ := Option.map_eq_some_iff.mp hkey
      exact (h ev hmem).2 n' v hw

theorem HoldKeys.append {evs evs' : List EventEnvelope} (h : HoldKeys evs) (h' : HoldKeys evs') :
    HoldKeys (evs ++ evs') := by
  intro ev hev
  rcases List.mem_append.mp hev with hev | hev
  · exact h ev hev
  · exact h' ev hev

theorem flagged_le (s : HoldWorld Auth) : s.flagged ≤ s.pos := by
  unfold HoldWorld.flagged
  split
  · exact Nat.le_refl _
  · omega
  · exact Nat.zero_le _

/-! ## raftd commits -/

theorem CommittedAs.append {log : List EventEnvelope} {c : HoldCmd} {seq : Nat}
    {v : Option LegalHoldEntry} (h : CommittedAs log c seq v) (evs : List EventEnvelope) :
    CommittedAs (log ++ evs) c seq v := by
  obtain ⟨hop, ev, hev, hw⟩ := h
  have hlt : seq < log.length := (List.getElem?_eq_some_iff.mp hev).1
  exact ⟨hop, ev, by rw [List.getElem?_append_left hlt]; exact hev, hw⟩

theorem CmdOk.append {log : List EventEnvelope} {p : HoldCmdPhase} (h : CmdOk log p)
    (evs : List EventEnvelope) : CmdOk (log ++ evs) p := by
  cases p with
  | idle answer => trivial
  | asked c => exact h
  | answered c resp seq =>
      obtain ⟨hkey, idx, v, hreply, hcommit⟩ := h
      exact ⟨hkey, idx, v, hreply, hcommit.append evs⟩
  | applied c existed seq =>
      obtain ⟨v, hcommit⟩ := h
      exact ⟨v, hcommit.append evs⟩

theorem TaskOk.append {log : List EventEnvelope} {pos : Nat} {t : EventsTask} (h : TaskOk log pos t)
    (hpos : pos ≤ log.length) (evs : List EventEnvelope) : TaskOk (log ++ evs) pos t := by
  cases t with
  | connecting => exact h
  | subscribed snap upTo =>
      obtain ⟨hzero, hle, bans, holds, hsnap, hkeys, hsame⟩ := h
      refine ⟨hzero, by simp only [List.length_append]; omega, bans, holds, hsnap, hkeys, ?_⟩
      rw [List.take_append_of_le_length hle]
      exact hsame
  | reading => trivial
  | flagging f =>
      cases f with
      | all heldNames =>
          intro n
          rw [List.take_append_of_le_length hpos]
          exact h n
      | one nameLc held =>
          obtain ⟨hzero, ev, v, hev, hw, hheld⟩ := h
          have hlt : pos - 1 < log.length := (List.getElem?_eq_some_iff.mp hev).1
          exact ⟨hzero, ev, v, by rw [List.getElem?_append_left hlt]; exact hev, hw, hheld⟩

/-- **raftd commits changes**: the events task has more to take. -/
theorem holdInv_commit {s : HoldWorld Auth} (h : HoldInv s) {st' : PersistedState}
    {evs : List EventEnvelope} (hcommit : HoldCommit s.raftd st' evs) (hkeys : HoldKeys evs) :
    HoldInv { s with raftd := st', log := s.log ++ evs } where
  keys := h.keys.append hkeys
  raftd := by
    intro k
    simp only
    rw [hcommit k, replay_append, replay_same h.raftd evs k]
  own := by
    intro k e hlook
    simp only at hlook
    rw [hcommit k] at hlook
    exact replay_own h.own (fun ev k v => holdWrite_own ev k v) k e hlook
  pos := by
    have := h.pos
    simp only [List.length_append]
    omega
  task := h.task.append h.pos evs
  cmd := fun k => (h.cmd k).append evs
  cache := by
    intro n
    simp only
    rw [List.drop_append_of_le_length h.pos, replay_append, replay_append]
    exact lookup_replay_congr (h.cache n) rfl
  flags := by
    intro j si hsi
    have hle : s.flagged ≤ s.log.length := Nat.le_trans (flagged_le s) h.pos
    have hdrop : (s.log ++ evs).drop s.flagged = s.log.drop s.flagged ++ evs :=
      List.drop_append_of_le_length hle
    have hflags := h.flags j si hsi
    simp only [HoldWorld.flagged] at hdrop hflags ⊢
    rw [hdrop, presence_append, hflags, heldIn_append]
  logins := by
    intro j si seen hj
    obtain ⟨hle, hread⟩ := h.logins j si seen hj
    refine ⟨by simp only [List.length_append]; omega, ?_⟩
    intro hun
    rw [List.drop_append_of_le_length hle, unchanged_append] at hun
    rw [hread hun.1, heldIn_append, presence_of_about hun.2]

/-! ## The events task -/

theorem holdInv_subscribe {s : HoldWorld Auth} (h : HoldInv s) (htask : s.task = .connecting) :
    HoldInv { s with task := .subscribed (snapshotOf s.raftd) s.log.length } := by
  have hpos : s.pos = 0 := by
    have := h.task
    rwa [htask] at this
  have hflagged : s.flagged = 0 := by rw [HoldWorld.flagged, htask]
  exact {
    keys := h.keys
    raftd := h.raftd
    own := h.own
    pos := h.pos
    task := by
      refine ⟨hpos, Nat.le_refl _, _, _, rfl, ?_, ?_⟩
      · intro e he
        obtain ⟨k, hk⟩ := Table.mem_values.mp he
        rw [h.own k e hk]
        exact isHoldKey_of_lookup h.keys ((h.raftd k).symm.trans hk)
      · intro k
        rw [List.take_length, Table.lookup_refile_all h.own]
        exact h.raftd k
    cmd := h.cmd
    cache := h.cache
    flags := by
      intro j si hsi
      rw [← h.flags j si hsi, hflagged]
      rfl
    logins := h.logins }

/-- The held names of a snapshot are the names of its entries. -/
theorem heldNames_contains {holds : List LegalHoldEntry} (h : ∀ e ∈ holds, IsHoldKey e.nameLc) (n : Text) :
    ((holds.map fun e => holdKey e.nameLc).filter fun k => !k.isEmpty).contains n
      = decide (n ∈ holds.map LegalHoldEntry.nameLc) := by
  rw [List.contains_eq_mem, decide_eq_decide, List.mem_filter, List.mem_map, List.mem_map]
  constructor
  · rintro ⟨⟨e, he, rfl⟩, -⟩
    exact ⟨e, he, (h e he).2.symm⟩
  · rintro ⟨e, he, rfl⟩
    exact ⟨⟨e, he, (h e he).2⟩, by simpa using (h e he).1⟩

theorem holdInv_takeSnapshot {s : HoldWorld Auth} (h : HoldInv s) {snap : EventEnvelope} {upTo : Nat}
    (htask : s.task = .subscribed snap upTo) : HoldInv (s.taken (s.cache.onEvent snap) upTo) := by
  have hok := h.task
  rw [htask] at hok
  obtain ⟨hpos, hle, bans, holds, hsnap, hkeys, hsame⟩ := hok
  have hflagged : s.flagged = 0 := by rw [HoldWorld.flagged, htask]
  have hevent : s.cache.onEvent snap = (s.cache.applySnapshot snap.index holds,
      some (.all ((holds.map fun e => holdKey e.nameLc).filter fun k => !k.isEmpty))) := by
    unfold HoldCache.onEvent
    rw [hsnap]
  have hcache : (s.cache.applySnapshot snap.index holds).holds
      = Table.fileAll LegalHoldEntry.nameLc ∅ holds := foldl_fileHold hkeys ∅
  have hheld : ∀ n, ((holds.map fun e => holdKey e.nameLc).filter fun k => !k.isEmpty).contains n
      = heldIn n (s.log.take upTo) := by
    intro n
    rw [heldNames_contains hkeys, heldIn_eq, ← hsame n, Table.lookup_fileAll_isSome]
    simp
  rw [hevent]
  exact {
    keys := h.keys
    raftd := h.raftd
    own := h.own
    pos := hle
    task := hheld
    cmd := h.cmd
    cache := by
      intro n
      simp only [HoldWorld.taken, hcache]
      rw [replay_same hsame (s.log.drop upTo) n, ← replay_append, List.take_append_drop]
    flags := by
      intro j si hsi
      have hflags := h.flags j si hsi
      rw [hflagged] at hflags
      exact hflags
    logins := h.logins }

theorem holdInv_takeEvent {s : HoldWorld Auth} (h : HoldInv s) (htask : s.task = .reading)
    {ev : EventEnvelope} (hev : s.log[s.pos]? = some ev) :
    HoldInv (s.taken (s.cache.onEvent ev) (s.pos + 1)) := by
  obtain ⟨hlt, hget⟩ := List.getElem?_eq_some_iff.mp hev
  have hmem : ev ∈ s.log := hget ▸ List.getElem_mem hlt
  have hdrop : s.log.drop s.pos = ev :: s.log.drop (s.pos + 1) := by
    rw [← hget, List.getElem_cons_drop]
  have hflagged : s.flagged = s.pos := by rw [HoldWorld.flagged, htask]
  obtain ⟨hholds, hflags⟩ := onEvent_event s.cache (h.keys ev hmem).1 (h.keys ev hmem).2
  exact {
    keys := h.keys
    raftd := h.raftd
    own := h.own
    pos := hlt
    task := by
      simp only [HoldWorld.taken, hflags]
      cases hw : ev.holdWrite with
      | none => trivial
      | some w => exact ⟨Nat.succ_pos _, ev, w.2, by simpa using hev, by rw [hw], rfl⟩
    cmd := h.cmd
    cache := by
      intro n
      simp only [HoldWorld.taken]
      rw [hholds, ← h.cache n, hdrop, replay_cons]
    flags := by
      intro j si hsi
      have hold := h.flags j si hsi
      rw [hflagged] at hold
      simp only [HoldWorld.flagged, HoldWorld.taken, hflags]
      rw [← hold]
      cases hw : ev.holdWrite with
      | some w => rfl
      | none =>
          -- there are no flags to set, and nothing they would say
          simp only [Option.map_none]
          rw [hdrop, ← List.singleton_append, presence_append]
          have hone : presence EventEnvelope.holdWrite (holdKey si.name) si.held [ev] = si.held := by
            refine presence_of_about ?_ si.held
            simp [about, hw]
          rw [hone]
    logins := h.logins }

theorem Flags.onSession_name (f : Flags) (si : SessionInfo Auth) : (f.onSession si).name = si.name := by
  cases f with
  | all heldNames => rfl
  | one nameLc held =>
      simp only [Flags.onSession]
      split <;> rfl

theorem Flags.lookup_apply {f : Flags} {m : Table ConnId (SessionInfo Auth)} {j : ConnId}
    {si : SessionInfo Auth} (h : (f.apply m).lookup j = some si) :
    ∃ si₀, m.lookup j = some si₀ ∧ si = f.onSession si₀ := by
  rw [Flags.apply, Table.lookup_mapVals] at h
  obtain ⟨si₀, hsi₀, rfl⟩ := Option.map_eq_some_iff.mp h
  exact ⟨si₀, hsi₀, rfl⟩

theorem holdInv_flag {s : HoldWorld Auth} (h : HoldInv s) {f : Flags} (htask : s.task = .flagging f) :
    HoldInv { s with sessions := f.apply s.sessions, task := .reading } := by
  have hok := h.task
  rw [htask] at hok
  have hflags : ∀ j si, (f.apply s.sessions).lookup j = some si →
      presence EventEnvelope.holdWrite (holdKey si.name) si.held (s.log.drop s.pos)
        = heldIn (holdKey si.name) s.log := by
    intro j si hsi
    obtain ⟨si₀, hsi₀, rfl⟩ := Flags.lookup_apply hsi
    rw [Flags.onSession_name]
    cases f with
    | all heldNames =>
        rw [Flags.onSession, hok (holdKey si₀.name)]
        exact heldIn_drop _ _ _
    | one nameLc held =>
        obtain ⟨hzero, ev, v, hev, hw, hheld⟩ := hok
        obtain ⟨hlt, hget⟩ := List.getElem?_eq_some_iff.mp hev
        have hflagged : s.flagged = s.pos - 1 := by rw [HoldWorld.flagged, htask]
        have hdrop : s.log.drop (s.pos - 1) = [ev] ++ s.log.drop s.pos := by
          rw [← hget, List.singleton_append, ← List.getElem_cons_drop hlt]
          congr 2
          omega
        rw [← h.flags j si₀ hsi₀, hflagged, hdrop, presence_append]
        congr 1
        simp only [presence, List.foldl_cons, List.foldl_nil, hw, Option.map_some, Option.some.injEq,
          Option.bind_some, Flags.onSession]
        by_cases hn : holdKey si₀.name = nameLc
        · rw [if_pos hn, if_pos hn.symm, hheld]
        · rw [if_neg hn, if_neg (Ne.symm hn)]
  exact {
    keys := h.keys
    raftd := h.raftd
    own := h.own
    pos := h.pos
    task := trivial
    cmd := h.cmd
    cache := h.cache
    flags := hflags
    logins := h.logins }

/-! ## The commands -/

theorem holdInv_cmd {s : HoldWorld Auth} (h : HoldInv s) {k : Nat} {p : HoldCmdPhase}
    (hp : CmdOk s.log p) : HoldInv { s with cmd := Function.update s.cmd k p } where
  keys := h.keys
  raftd := h.raftd
  own := h.own
  pos := h.pos
  task := h.task
  cmd := by
    intro k'
    by_cases hk : k' = k
    · subst hk
      simp only [Function.update_self]
      exact hp
    · simp only [Function.update_of_ne hk]
      exact h.cmd k'
  cache := h.cache
  flags := h.flags
  logins := h.logins

theorem parse_key {op : HoldOp} {raw actor : Text} {nowUnix : Nat} {c : HoldCmd}
    (h : HoldCmd.parse op raw actor nowUnix = .inr c) : IsHoldKey c.nameLc := by
  simp only [HoldCmd.parse] at h
  split at h
  · cases h
  · rename_i hne
    cases h
    have hname := isName_sanitizeName (by simpa using hne)
    refine ⟨?_, ?_⟩
    · simp only [ne_eq, Text.toAsciiLowercase_eq_nil]
      exact hname.nonempty
    · simp only [holdKey]
      rw [Text.trim_toAsciiLowercase, hname.trim_eq, Text.toAsciiLowercase_idem]

/-- raftd answers a command with the change that it commits. -/
theorem answer_committed (T : IpText) (env : RaftdEnv) (st : PersistedState) {c : HoldCmd}
    (hkey : IsHoldKey c.nameLc) (log : List EventEnvelope) :
    ∃ resp ev idx v, (adminSection T env st c.request).1 = some (resp, some ev) ∧
      c.onReply resp = .inr (idx, v) ∧ CommittedAs (log ++ [ev]) c log.length v := by
  obtain ⟨hne, hfix⟩ := hkey
  have hempty : (Text.toAsciiLowercase (Text.trim c.nameLc)).isEmpty = false := by
    rw [← holdKey, hfix]
    simpa using hne
  obtain ⟨op, nameLc, actor, nowUnix⟩ := c
  cases op with
  | add reason =>
      let entry : LegalHoldEntry := ⟨holdKey nameLc, env.now, actor, reason⟩
      refine ⟨.okLegalHold st.nextIndex entry, ⟨st.nextIndex, .legalHoldUpserted entry⟩, st.nextIndex,
        some entry, ?_, rfl, rfl, _, List.getElem?_concat_length, ?_⟩
      · simp only [HoldCmd.request, adminSection, hempty, Bool.false_eq_true, if_false]
        rfl
      · simp only [EventEnvelope.holdWrite, Event.holdWrite]
        exact congrArg (fun n => some (n, _)) hfix
  | del =>
      refine ⟨.ok st.nextIndex, ⟨st.nextIndex, .legalHoldDeleted (holdKey nameLc)⟩, st.nextIndex, none,
        ?_, rfl, rfl, _, List.getElem?_concat_length, ?_⟩
      · simp only [HoldCmd.request, adminSection, hempty, Bool.false_eq_true, if_false]
        rfl
      · simp only [EventEnvelope.holdWrite, Event.holdWrite]
        exact congrArg (fun n => some (n, _)) hfix

theorem eventsOf_eq (r : Option (AdminResp × Option EventEnvelope)) :
    HoldWorld.eventsOf r = answerEvents r := by
  rcases r with _ | ⟨resp, _ | ev⟩
  · rfl
  · rfl
  · rfl

theorem adminSection_holdCommit (T : IpText) (env : RaftdEnv) (st : PersistedState) (req : AdminReq) :
    HoldCommit st (adminSection T env st req).2 (HoldWorld.eventsOf (adminSection T env st req).1) := by
  rw [eventsOf_eq]
  exact adminSection_holds T env st req

theorem holdInv_answer (T : IpText) (env : RaftdEnv) {s : HoldWorld Auth} (h : HoldInv s) {k : Nat}
    {c : HoldCmd} (hcmd : s.cmd k = .asked c) :
    HoldInv { s with
      raftd := (adminSection T env s.raftd c.request).2
      log := s.log ++ HoldWorld.eventsOf (adminSection T env s.raftd c.request).1
      cmd := Function.update s.cmd k
        (match (adminSection T env s.raftd c.request).1 with
        | some (resp, _) => .answered c resp s.log.length
        | none => .idle (some c.unavailable)) } := by
  have hkey : IsHoldKey c.nameLc := by
    have := h.cmd k
    rwa [hcmd] at this
  obtain ⟨resp, ev, idx, v, hr, hreply, hcommit⟩ := answer_committed T env s.raftd hkey s.log
  have hlog := holdInv_commit h (adminSection_holdCommit T env s.raftd c.request)
    (adminSection_keys T env s.raftd c.request)
  refine holdInv_cmd hlog ?_
  rw [hr]
  exact ⟨hkey, idx, v, hreply, hcommit⟩

/-- What a command does to the cache is the change it stands for. -/
theorem applyTo_holds {c : HoldCmd} (hkey : IsHoldKey c.nameLc) {v : Option LegalHoldEntry}
    (hown : ∀ e, v = some e → e.nameLc = c.nameLc) (idx : Nat) (cache : HoldCache) :
    (c.applyTo idx v cache).2.holds = put cache.holds (some (c.nameLc, v)) := by
  obtain ⟨hne, hfix⟩ := hkey
  have hempty : (holdKey c.nameLc).isEmpty = false := by
    rw [hfix]
    simpa using hne
  cases v with
  | some e =>
      simp only [HoldCmd.applyTo, HoldCache.applyUpsert, hown e rfl, hempty, Bool.false_eq_true, if_false]
      rw [hfix]
      rfl
  | none =>
      simp only [HoldCmd.applyTo, HoldCache.applyDelete, hempty, Bool.false_eq_true, if_false]
      rw [hfix]
      rfl

theorem holdInv_apply {s : HoldWorld Auth} (h : HoldInv s) {k : Nat} {c : HoldCmd} {resp : AdminResp}
    {seq : Nat} (hcmd : s.cmd k = .answered c resp seq)
    (hintime : Unchanged c.nameLc ((s.log.take s.pos).drop (seq + 1)))
    {idx : Nat} {v : Option LegalHoldEntry} (hreply : c.onReply resp = .inr (idx, v)) :
    HoldInv { s with
      cache := (c.applyTo idx v s.cache).2
      cmd := Function.update s.cmd k (.applied c (c.applyTo idx v s.cache).1 seq) } := by
  have hok := h.cmd k
  rw [hcmd] at hok
  obtain ⟨hkey, idx', v', hreply', hcommit⟩ := hok
  rw [hreply] at hreply'
  cases hreply'
  obtain ⟨hop, ev, hev, hw⟩ := hcommit
  have hown : ∀ e, v = some e → e.nameLc = c.nameLc := by
    rintro e rfl
    exact holdWrite_own ev c.nameLc e hw
  have hholds := applyTo_holds hkey hown idx s.cache
  have hcache : ∀ n, (replay EventEnvelope.holdWrite (c.applyTo idx v s.cache).2.holds
      (s.log.drop s.pos)).lookup n = (replay EventEnvelope.holdWrite ∅ s.log).lookup n := by
    intro n
    rw [hholds]
    by_cases hn : n = c.nameLc
    · subst hn
      by_cases hrest : Unchanged c.nameLc (s.log.drop s.pos)
      · -- nothing newer is in the cache or to come, so the reply is the last change
        rw [lookup_of_last hev hw (unchanged_join hintime hrest), lookup_replay, hrest]
        simp [lookup_put]
      · -- what the events task still takes decides
        rw [← h.cache c.nameLc, lookup_replay, lookup_replay (m := s.cache.holds)]
        cases hlast : (about EventEnvelope.holdWrite c.nameLc (s.log.drop s.pos)).getLast? with
        | none => exact absurd (List.getLast?_eq_none_iff.mp hlast) hrest
        | some ev' => rfl
    · rw [← h.cache n]
      refine lookup_replay_congr ?_ rfl
      rw [lookup_put, if_neg (by simpa using Ne.symm hn)]
  have hset : HoldInv { s with cache := (c.applyTo idx v s.cache).2 } := { h with cache := hcache }
  exact holdInv_cmd hset ⟨v, hop, ev, hev, hw⟩

theorem holdInv_flagCmd {s : HoldWorld Auth} (h : HoldInv s) {k : Nat} {c : HoldCmd} {existed : Bool}
    {seq : Nat} (hcmd : s.cmd k = .applied c existed seq)
    (hintime : Unchanged c.nameLc ((s.log.take s.flagged).drop (seq + 1))) :
    HoldInv { s with
      sessions := c.flags.apply s.sessions
      cmd := Function.update s.cmd k (.idle (some (c.answer existed))) } := by
  have hok := h.cmd k
  rw [hcmd] at hok
  obtain ⟨v, hop, ev, hev, hw⟩ := hok
  have hflags : ∀ j si, (c.flags.apply s.sessions).lookup j = some si →
      presence EventEnvelope.holdWrite (holdKey si.name) si.held (s.log.drop s.flagged)
        = heldIn (holdKey si.name) s.log := by
    intro j si hsi
    obtain ⟨si₀, hsi₀, rfl⟩ := Flags.lookup_apply hsi
    have hold := h.flags j si₀ hsi₀
    rw [Flags.onSession_name]
    simp only [HoldCmd.flags, Flags.onSession]
    by_cases hn : holdKey si₀.name = c.nameLc
    · rw [if_pos hn]
      rw [hn] at hold ⊢
      by_cases hrest : Unchanged c.nameLc (s.log.drop s.flagged)
      · rw [presence_of_about hrest, hop, heldIn_eq,
          lookup_of_last hev hw (unchanged_join hintime hrest)]
      · rw [← hold]
        exact presence_of_ne hrest _ _
    · rw [if_neg hn]
      exact hold
  have hset : HoldInv { s with sessions := c.flags.apply s.sessions } := { h with flags := hflags }
  exact holdInv_cmd hset trivial

/-! ## The logins -/

theorem holdInv_read {s : HoldWorld Auth} (h : HoldInv s) (j : ConnId) (si : SessionInfo Auth) :
    HoldInv { s with
      login := Function.update s.login j
        (some ({ si with held := (s.cache.isHeld si.name).isSome }, s.pos)) } := by
  refine { h with logins := ?_ }
  intro j' si' seen hj'
  by_cases hj : j' = j
  · subst hj
    simp only [Function.update_self, Option.some.injEq, Prod.mk.injEq] at hj'
    obtain ⟨rfl, rfl⟩ := hj'
    refine ⟨h.pos, ?_⟩
    intro hun
    simp only [HoldCache.isHeld]
    by_cases hempty : holdKey si.name = []
    · rw [hempty, heldIn_empty h.keys]
      rfl
    · rw [if_neg (by simpa using hempty), heldIn_eq, ← h.cache, lookup_replay]
      simp only at hun
      rw [hun]
      rfl
  · simp only [Function.update_of_ne hj] at hj'
    exact h.logins j' si' seen hj'

theorem holdInv_insert {s : HoldWorld Auth} (h : HoldInv s) {j : ConnId} {si : SessionInfo Auth}
    {seen : Nat} (hlogin : s.login j = some (si, seen))
    (hintime : Unchanged (holdKey si.name) ((s.log.take s.flagged).drop seen)) :
    HoldInv { s with
      sessions := s.sessions.insert j si
      login := Function.update s.login j none } := by
  have hnew : presence EventEnvelope.holdWrite (holdKey si.name) si.held (s.log.drop s.flagged)
      = heldIn (holdKey si.name) s.log := by
    by_cases hrest : Unchanged (holdKey si.name) (s.log.drop s.flagged)
    · rw [presence_of_about hrest]
      exact (h.logins j si seen hlogin).2 (unchanged_join hintime hrest)
    · rw [← heldIn_drop _ s.log s.flagged]
      exact presence_of_ne hrest _ _
  refine { h with flags := ?_, logins := ?_ }
  · intro j' si' hsi'
    simp only [Table.lookup_insert_eq] at hsi'
    split at hsi'
    · cases hsi'
      exact hnew
    · exact h.flags j' si' hsi'
  · intro j' si' seen' hj'
    by_cases hj : j' = j
    · subst hj
      simp only [Function.update_self] at hj'
      cases hj'
    · simp only [Function.update_of_ne hj] at hj'
      exact h.logins j' si' seen' hj'

theorem holdInv_leave {s : HoldWorld Auth} (h : HoldInv s) (j : ConnId) :
    HoldInv { s with sessions := s.sessions.erase j } := by
  refine { h with flags := ?_ }
  intro j' si' hsi'
  simp only [Table.lookup_erase_eq] at hsi'
  split at hsi'
  · cases hsi'
  · exact h.flags j' si' hsi'

/-! ## Runs -/

/-- **A section in time keeps the invariant.** -/
theorem holdInv_step {T : IpText} {s s' : HoldWorld Auth} {m : HoldMove Auth} (h : HoldInv s)
    (hok : InTime s m) (hs : s.step T m = some s') : HoldInv s' := by
  cases m with
  | commit env req =>
      cases hs
      exact holdInv_commit h (adminSection_holdCommit T env s.raftd req) (adminSection_keys T env s.raftd req)
  | reap ids =>
      cases hs
      exact holdInv_commit h (reapSection_holds T s.raftd ids) (reapSection_keys T s.raftd ids)
  | subscribe =>
      simp only [HoldWorld.step] at hs
      split at hs
      · rename_i htask
        cases hs
        exact holdInv_subscribe h htask
      · cases hs
  | takeSnapshot =>
      simp only [HoldWorld.step] at hs
      split at hs
      · rename_i htask
        cases hs
        exact holdInv_takeSnapshot h htask
      · cases hs
  | takeEvent =>
      simp only [HoldWorld.step] at hs
      split at hs
      · rename_i htask hev
        cases hs
        exact holdInv_takeEvent h htask hev
      · cases hs
  | flag =>
      simp only [HoldWorld.step] at hs
      split at hs
      · rename_i htask
        cases hs
        exact holdInv_flag h htask
      · cases hs
  | ask k op raw actor nowUnix =>
      simp only [HoldWorld.step] at hs
      split at hs
      · split at hs
        · cases hs
          exact holdInv_cmd h trivial
        · rename_i hparse
          cases hs
          exact holdInv_cmd h (parse_key hparse)
      · cases hs
  | answer k env =>
      simp only [HoldWorld.step] at hs
      split at hs
      · rename_i hcmd
        cases hs
        exact holdInv_answer T env h hcmd
      · cases hs
  | fail k =>
      simp only [HoldWorld.step] at hs
      split at hs
      · cases hs
        exact holdInv_cmd h trivial
      · cases hs
        exact holdInv_cmd h trivial
      · cases hs
  | apply k =>
      simp only [HoldWorld.step] at hs
      split at hs
      · rename_i c resp seq hcmd
        split at hs
        · cases hs
          exact holdInv_cmd h trivial
        · rename_i hreply
          cases hs
          exact holdInv_apply h hcmd (hok c resp seq hcmd) hreply
      · cases hs
  | flagCmd k =>
      simp only [HoldWorld.step] at hs
      split at hs
      · rename_i c existed seq hcmd
        cases hs
        exact holdInv_flagCmd h hcmd (hok c existed seq hcmd)
      · cases hs
  | read j si =>
      cases hs
      exact holdInv_read h j si
  | insert j =>
      simp only [HoldWorld.step] at hs
      split at hs
      · rename_i si seen hlogin
        cases hs
        exact holdInv_insert h hlogin (hok si seen hlogin)
      · cases hs
  | leave j =>
      cases hs
      exact holdInv_leave h j

/-- Every event and every reply has been applied. -/
structure Settled (s : HoldWorld Auth) : Prop where
  reading : s.task = .reading
  taken : s.pos = s.log.length
  idle : ∀ k, ∃ answer, s.cmd k = .idle answer

/-- Cache and flags are as raftd's table. -/
structure Converged (s : HoldWorld Auth) : Prop where
  cache : Table.Same s.cache.holds s.raftd.holds
  flags : ∀ j si, s.sessions.lookup j = some si →
    si.held = (s.raftd.holds.lookup (holdKey si.name)).isSome

theorem converged_of_holdInv {s : HoldWorld Auth} (h : HoldInv s) (hset : Settled s) : Converged s := by
  have hflagged : s.flagged = s.log.length := by rw [HoldWorld.flagged, hset.reading]; exact hset.taken
  constructor
  · intro n
    have hcache := h.cache n
    rw [hset.taken, List.drop_length, replay_nil] at hcache
    rw [hcache, h.raftd n]
  · intro j si hsi
    have hflags := h.flags j si hsi
    rw [hflagged, List.drop_length, presence_nil] at hflags
    rw [hflags, heldIn_eq, h.raftd]

/-- **Legal holds converge** in every run of raftd, the events task, the commands and the logins in
which nothing is late. -/
theorem holds_converge (T : IpText) (ms : List (HoldMove Auth)) (s : HoldWorld Auth)
    (hex : exec (HoldWorld.step T) .start ms = some s) (hal : Along (HoldWorld.step T) InTime .start ms)
    (hset : Settled s) : Converged s :=
  converged_of_holdInv (exec_invariant holdInv_step holdInv_start hal hex) hset

/-- A hold is added, and the reply applied when the events task has taken the change. -/
def promptRun : List (HoldMove Unit) :=
  [.subscribe, .takeSnapshot, .flag, .ask 0 (.add []) "Al".toList "root".toList 5, .answer 0 {},
    .takeEvent, .flag]

theorem holds_converge_prompt : ∃ s,
    exec (HoldWorld.step IpText.plain) .start (promptRun ++ [.apply 0, .flagCmd 0]) = some s ∧
    Settled s ∧ Converged s := by
  obtain ⟨s, hex, hset⟩ : ∃ s,
      exec (HoldWorld.step IpText.plain) .start (promptRun ++ [.apply 0, .flagCmd 0]) = some s ∧
      Settled s := by
    refine ⟨_, rfl, rfl, rfl, ?_⟩
    intro k
    rcases k with _ | k
    · exact ⟨_, rfl⟩
    · exact ⟨_, rfl⟩
  refine ⟨s, hex, hset, holds_converge IpText.plain _ s hex ?_ hset⟩
  refine (along_append rfl).mpr ⟨?_, (along_cons rfl).mpr ⟨?_, (along_cons rfl).mpr ⟨?_, trivial⟩⟩⟩
  · refine along_of_forall_mem ?_ _
    intro m hm s
    unfold promptRun at hm
    fin_cases hm <;> trivial
  · intro c resp seq h
    cases h
    rfl
  · intro c existed seq h
    cases h
    rfl

/-- Two commands for one name. The events task has taken both changes when the reply to the first
of them is applied. -/
def lateRun : List (HoldMove Unit) :=
  [.subscribe, .takeSnapshot, .flag, .ask 0 (.add []) "Al".toList "root".toList 5, .answer 0 {},
    .ask 1 .del "Al".toList "root".toList 6, .answer 1 {}, .takeEvent, .flag, .takeEvent, .flag,
    .apply 1, .flagCmd 1, .apply 0, .flagCmd 0]

/-- **The released hold stays in the cache**, when everything has been applied. -/
theorem late_reply_stays : ∃ s,
    exec (HoldWorld.step IpText.plain) .start lateRun = some s ∧ Settled s ∧
    s.raftd.holds.lookup "al".toList = none ∧ (s.cache.isHeld "al".toList).isSome ∧ ¬ Converged s := by
  obtain ⟨s, hex, hset, hraftd, hcache⟩ : ∃ s,
      exec (HoldWorld.step IpText.plain) .start lateRun = some s ∧ Settled s ∧
      s.raftd.holds.lookup "al".toList = none ∧ (s.cache.holds.lookup "al".toList).isSome := by
    refine ⟨_, rfl, ⟨rfl, rfl, ?_⟩, rfl, rfl⟩
    intro k
    rcases k with _ | _ | k
    · exact ⟨_, rfl⟩
    · exact ⟨_, rfl⟩
    · exact ⟨_, rfl⟩
  refine ⟨s, hex, hset, hraftd, hcache, ?_⟩
  intro h
  rw [h.cache, hraftd] at hcache
  cases hcache

end Slopmud.Broker
