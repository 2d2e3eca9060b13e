import Slopmud.Proof.GroupNames

/-!
# What a restart does to the groups

A start replays the log, which is the store as it was, and then runs genesis on top of it. Genesis
makes the groups that are missing, and once it has been done none are; but the bootstrap members
are appended at every start, so a restart changes nothing exactly when there are none of them.
-/

namespace Slopmud.Shard

open Machine

namespace GroupLog

variable {J : LineCodec (RaftEnvelope GroupLogEntry)}

/-- Every append of a handler leaves nothing of a line that fails, and has an index to give. -/
def CleanAll (J : LineCodec (RaftEnvelope GroupLogEntry)) (ms : Nat) :
    GroupLog → List GroupLogEntry → List AppendOutcome → Prop
  | _, [], _ => True
  | w, e :: es, os =>
    CleanAppend J w (.append ms e (os.headD .ok)) ∧ w.raft.nextIndex < Word.maxU64
      ∧ CleanAll J ms (w.raftAppendGroup J ms e (os.headD .ok)).2 es os.tail

/-- The indices of the log increase, and the next one is above them. -/
structure Indexed (w : GroupLog) : Prop where
  increasing : (w.appended.map RaftEnvelope.index).Pairwise (· < ·)
  below : ∀ env ∈ w.appended, env.index < w.raft.nextIndex
  bounded : 1 ≤ w.raft.nextIndex ∧ w.raft.nextIndex ≤ Word.maxU64

theorem Indexed.init : Indexed init where
  increasing := .nil
  below := by intro env h; cases h
  bounded := ⟨Nat.le_refl 1, by decide⟩

theorem nextIndex_append (w : GroupLog) (ms : Nat) (e : GroupLogEntry) (o : AppendOutcome) :
    (w.raftAppendGroup J ms e o).2.raft.nextIndex = Word.satAdd64 w.raft.nextIndex 1 := by
  by_cases ho : o = .ok
  · subst ho
    rfl
  · simp only [raftAppendGroup, RaftLog.append, if_neg ho]

theorem Indexed.append {w : GroupLog} (h : Indexed w) (hlt : w.raft.nextIndex < Word.maxU64)
    (ms : Nat) (e : GroupLogEntry) (o : AppendOutcome) : Indexed (w.raftAppendGroup J ms e o).2 := by
  have hnext : (w.raftAppendGroup J ms e o).2.raft.nextIndex = w.raft.nextIndex + 1 := by
    rw [nextIndex_append, Word.satAdd64_of_lt hlt]
  have hbounded : 1 ≤ w.raft.nextIndex + 1 ∧ w.raft.nextIndex + 1 ≤ Word.maxU64 :=
    ⟨Nat.le_add_left 1 _, hlt⟩
  rcases raftAppendGroup_cases (J := J) w ms e o with ⟨-, -, -, -, happ⟩ | ⟨-, -, -, -, happ⟩
  · refine ⟨?_, ?_, hnext ▸ hbounded⟩
    · rw [happ, List.map_append, List.pairwise_append]
      refine ⟨h.increasing, List.pairwise_singleton _ _, ?_⟩
      intro i hi j hj
      obtain ⟨env, henv, rfl⟩ := List.mem_map.mp hi
      rw [List.mem_singleton.mp hj]
      exact h.below env henv
    · intro env henv
      rw [happ, List.mem_append, List.mem_singleton] at henv
      rw [hnext]
      rcases henv with henv | rfl
      · exact Nat.lt_succ_of_lt (h.below env henv)
      · exact Nat.lt_succ_self _
  · refine ⟨happ ▸ h.increasing, ?_, hnext ▸ hbounded⟩
    intro env henv
    rw [happ] at henv
    rw [hnext]
    exact Nat.lt_succ_of_lt (h.below env henv)

/-- The log is the file, and its indices are in order. -/
structure Kept (J : LineCodec (RaftEnvelope GroupLogEntry)) (w : GroupLog) : Prop where
  intact : Intact J w
  indexed : Indexed w

theorem Kept.appendAll {w : GroupLog} (h : Kept J w) {ms : Nat} {es : List GroupLogEntry}
    {os : List AppendOutcome} (hclean : CleanAll J ms w es os) : Kept J (w.appendAll J ms es os) := by
  induction es generalizing w os with
  | nil => exact h
  | cons e es ih =>
    obtain ⟨hone, hlt, hrest⟩ := hclean
    have hkept : Kept J (w.raftAppendGroup J ms e (os.headD .ok)).2 :=
      ⟨h.intact.append hone, h.indexed.append hlt ms e _⟩
    rw [GroupLog.appendAll]
    cases hres : w.raftAppendGroup J ms e (os.headD .ok) with
    | mk ok w' =>
      rw [hres] at hkept hrest
      cases ok with
      | false => exact hkept
      | true => exact ih hkept hrest

/-- Without failures everything is appended. -/
theorem appendAll_ok (w : GroupLog) (ms : Nat) (es : List GroupLogEntry) :
    (w.appendAll J ms es []).appended.length = w.appended.length + es.length := by
  induction es generalizing w with
  | nil => rfl
  | cons e es ih =>
    have hone : w.raftAppendGroup J ms e .ok = (true, (w.raftAppendGroup J ms e .ok).2) := rfl
    have happ : (w.raftAppendGroup J ms e .ok).2.appended = w.appended ++ [w.raft.envelope ms e] := rfl
    rw [GroupLog.appendAll, List.headD_nil, hone]
    dsimp only
    rw [List.tail_nil, ih, happ, List.length_append, List.length_singleton, List.length_cons,
      Nat.add_right_comm, Nat.add_assoc]

/-- The largest index of a replay. -/
theorem foldl_max_index {rows : List (Text × RaftEnvelope GroupLogEntry)} {m b : Nat} (hm : m < b)
    (h : ∀ env ∈ rows.map Prod.snd, env.index < b) :
    (rows.foldl (fun m row => max m row.2.index) m) < b
      ∧ m ≤ rows.foldl (fun m row => max m row.2.index) m
      ∧ ∀ env ∈ rows.map Prod.snd, env.index ≤ rows.foldl (fun m row => max m row.2.index) m := by
  induction rows generalizing m with
  | nil => exact ⟨hm, Nat.le_refl m, by intro env henv; cases henv⟩
  | cons row rows ih =>
    have hrow : row.2.index < b := h row.2 List.mem_cons_self
    obtain ⟨hlt, hle, hall⟩ := ih (m := max m row.2.index) (Nat.max_lt.mpr ⟨hm, hrow⟩)
      fun env henv => h env (List.mem_cons_of_mem _ henv)
    refine ⟨hlt, Nat.le_trans (Nat.le_max_left _ _) hle, ?_⟩
    intro env henv
    rcases List.mem_cons.mp henv with rfl | henv
    · exact Nat.le_trans (Nat.le_max_right _ _) hle
    · exact hall env henv

/-- A start reads back the log, and continues its indices. -/
theorem Kept.reopen {w : GroupLog} (h : Kept J w) :
    ∃ w', w.reopen J = some w' ∧ Kept J w' ∧ w'.groups = w.groups ∧ w'.file = w.file
      ∧ w'.appended = w.appended := by
  obtain ⟨rows, hrows, hreplay⟩ : ∃ rows, RaftLog.replayLines J (Lines.lines 10 13 (w.file.getD [])) = some rows
      ∧ rows.map Prod.snd = w.appended := by
    obtain ⟨loaded, hloaded, happ⟩ := Option.map_eq_some_iff.mp h.intact.survives.1
    obtain ⟨rows, hrows, rfl⟩ := Option.map_eq_some_iff.mp hloaded
    exact ⟨rows, hrows, happ⟩
  have hre : ∃ w', w.reopen J = some w' ∧ w'.groups = .replay (rows.map Prod.snd) ∧ w'.file = w.file
      ∧ w'.appended = w.appended
      ∧ w'.raft.nextIndex = max (Word.satAdd64 (rows.foldl (fun m row => max m row.2.index) 0) 1) 1 := by
    rw [GroupLog.reopen, RaftLog.load, hrows]
    exact ⟨_, rfl, rfl, rfl, rfl, rfl⟩
  obtain ⟨w', hw', hgroups, hfile, happ, hnext⟩ := hre
  have hgroups' : w'.groups = w.groups := by rw [hgroups, hreplay, h.intact.groups]
  have hbelow : ∀ env ∈ rows.map Prod.snd, env.index < w.raft.nextIndex :=
    fun env henv => h.indexed.below env (hreplay ▸ henv)
  obtain ⟨hlt, -, hall⟩ := foldl_max_index h.indexed.bounded.1 hbelow
  have hmax : rows.foldl (fun m row => max m row.2.index) 0 + 1 ≤ Word.maxU64 :=
    Nat.le_trans hlt h.indexed.bounded.2
  rw [Word.satAdd64_of_lt hmax, Nat.max_eq_left (Nat.le_add_left 1 _)] at hnext
  refine ⟨w', hw', ⟨h.intact.reopen hw', ⟨?_, ?_, ?_⟩⟩, hgroups', hfile, happ⟩
  · rw [happ]
    exact h.indexed.increasing
  · intro env henv
    rw [happ, ← hreplay] at henv
    rw [hnext]
    exact Nat.lt_succ_of_le (hall env henv)
  · rw [hnext]
    exact ⟨Nat.le_add_left 1 _, hmax⟩

end GroupLog

/-! ## Genesis at every start -/

/-- The members that every start appends. -/
def bootstrapEntries (admins sso : List Text) : List GroupLogEntry :=
  admins.filterMap bootstrapAdmin ++ sso.filterMap bootstrapAdminSso

/-- After genesis all its groups are there. -/
theorem started_ensure (s : GroupStore) (admins sso : List Text) :
    Started ((s.ensureGenesisGroups admins sso).foldl GroupStore.apply s) := by
  have hids : groupIdAdmins :: Class.all.zipIdx.map (groupIdClassBase + ·.2) = genesisNames.map Prod.fst := rfl
  intro e he
  cases hlook : s.groups.lookup e.1 with
  | some g =>
    refine lookup_foldl_isSome ?_ _
    rw [hlook]
    rfl
  | none =>
    refine lookup_created ?_
    rw [createIds_ensure, createIds_genesisGroups, hids, List.mem_filter]
    exact ⟨List.mem_map.mpr ⟨e, he, rfl⟩, by rw [hlook]; rfl⟩

/-- Of a shard that has started, only the bootstrap members are left of genesis. -/
theorem Started.ensure {s : GroupStore} (h : Started s) (admins sso : List Text) :
    s.ensureGenesisGroups admins sso = bootstrapEntries admins sso := by
  have hgroups : s.genesisGroups = [] := by
    refine List.eq_nil_iff_forall_not_mem.mpr ?_
    intro e he
    obtain ⟨id, kind, name, rfl, -⟩ := genesisGroups_create s e he
    have hid : id ∈ createIds s.genesisGroups := List.mem_filterMap.mpr ⟨_, he, rfl⟩
    rw [← createIds_ensure s admins sso, h.no_creates] at hid
    cases hid
  rw [ensureGenesisGroups_eq, hgroups]
  rfl

/-! ## Restarts -/

namespace GroupShard

variable (J : LineCodec (RaftEnvelope GroupLogEntry)) (admins sso : List Text)

/-- The move leaves nothing of a failed append in the file, and the indices do not run out. -/
def CleanMove (w : GroupShard) : GroupShardMove → Prop
  | .start ms os => ∀ log, w.log.reopen J = some log →
    GroupLog.CleanAll J ms log (log.groups.ensureGenesisGroups admins sso) os
  | .command ms p line os => GroupLog.CleanAll J ms w.log (w.log.groups.command p line).entries os

/-- The log is kept, and a shard that serves has had its genesis. -/
structure Kept (w : GroupShard) : Prop where
  log : GroupLog.Kept J w.log
  started : w.serving = true → Started w.log.groups

theorem Kept.init : Kept J init where
  log := ⟨.init, .init⟩
  started := by intro h; cases h

variable {J admins sso}

/-- What a start appends, all of it if it succeeds. -/
theorem start_spec {w w' : GroupShard} (h : GroupLog.Kept J w.log) {ms : Nat} {os : List AppendOutcome}
    (hs : w.start J admins sso ms os = some w') :
    ∃ log envs, w.log.reopen J = some log ∧ GroupLog.Kept J log
      ∧ log.groups = w.log.groups ∧ log.file = w.log.file ∧ log.appended = w.log.appended
      ∧ w'.log = log.appendAll J ms (w.log.groups.ensureGenesisGroups admins sso) os
      ∧ w'.log.appended = w.log.appended ++ envs
      ∧ envs.map RaftEnvelope.entry <+: w.log.groups.ensureGenesisGroups admins sso
      ∧ w'.log.groups = (envs.map RaftEnvelope.entry).foldl GroupStore.apply w.log.groups
      ∧ (w'.serving = true
          ↔ envs.map RaftEnvelope.entry = w.log.groups.ensureGenesisGroups admins sso) := by
  obtain ⟨log, hre, hkept, hgroups, hfile, happ⟩ := h.reopen
  rw [start, hre, Option.map_some, Option.some.injEq] at hs
  rw [hgroups] at hs
  obtain ⟨envs, happ', hpre, hgroups'⟩ :=
    GroupWorld.appendAll_spec J ms log (w.log.groups.ensureGenesisGroups admins sso) os
  refine ⟨log, envs, hre, hkept, hgroups, hfile, happ, ?_, ?_, hpre, ?_, ?_⟩
  · rw [← hs]
  · rw [← hs, ← happ]
    exact happ'
  · rw [← hs]
    dsimp only
    rw [hgroups', hgroups]
  · rw [← hs]
    dsimp only
    rw [happ', List.length_append, decide_eq_true_iff, Nat.add_left_cancel_iff]
    constructor
    · intro hlen
      refine hpre.eq_of_length ?_
      rw [List.length_map, hlen]
    · intro heq
      rw [← heq, List.length_map]

theorem Kept.step {w w' : GroupShard} {a : GroupShardMove} (h : Kept J w)
    (hclean : CleanMove J admins sso w a) (hs : w.step J admins sso a = some w') : Kept J w' := by
  cases a with
  | start ms os =>
    obtain ⟨log, envs, hre, hkept, hgroups, -, -, hlog, -, -, hgroups', hserving⟩ := start_spec h.log hs
    have hall := hclean log hre
    refine ⟨?_, ?_⟩
    · rw [hlog, ← hgroups]
      exact hkept.appendAll hall
    · intro hserve
      rw [hgroups', hserving.mp hserve]
      exact started_ensure _ _ _
  | command ms p line os =>
    rw [GroupShard.step] at hs
    split at hs
    · next hserve =>
      cases hs
      refine ⟨h.log.appendAll hclean, ?_⟩
      intro _
      obtain ⟨envs, -, -, hgroups⟩ :=
        GroupWorld.appendAll_spec J ms w.log (w.log.groups.command p line).entries os
      dsimp only
      rw [hgroups]
      exact (h.started hserve).foldl _
    · cases hs

/-- A restart now succeeds, whatever the file system does, and changes neither the groups nor the
log. -/
def RestartKeeps (J : LineCodec (RaftEnvelope GroupLogEntry)) (admins sso : List Text)
    (w : GroupShard) : Prop :=
  ∀ ms os, ∃ w', w.start J admins sso ms os = some w' ∧ w'.serving = true
    ∧ w'.log.groups = w.log.groups ∧ w'.log.appended = w.log.appended ∧ w'.log.file = w.log.file

/-- A start without failures succeeds. -/
theorem start_serves {w w' : GroupShard} {ms : Nat} (hs : w.start J admins sso ms [] = some w') :
    w'.serving = true := by
  obtain ⟨log, -, rfl⟩ := Option.map_eq_some_iff.mp hs
  exact decide_eq_true (GroupLog.appendAll_ok log ms _)

theorem start_total {w : GroupShard} (h : GroupLog.Kept J w.log) (ms : Nat) (os : List AppendOutcome) :
    ∃ w', w.start J admins sso ms os = some w' := by
  obtain ⟨log, hre, -⟩ := h.reopen
  exact ⟨_, by rw [start, hre]; rfl⟩

theorem restartKeeps_iff {w : GroupShard} (h : Kept J w) (hserve : w.serving = true) :
    RestartKeeps J admins sso w ↔ bootstrapEntries admins sso = [] := by
  have hensure := (h.started hserve).ensure admins sso
  constructor
  · intro hkeeps
    obtain ⟨w', hs, hserve', -, happ, -⟩ := hkeeps 0 []
    obtain ⟨-, envs, -, -, -, -, -, -, happ', -, -, hall⟩ := start_spec h.log hs
    have hnil : envs = [] := by
      rw [happ] at happ'
      simpa using happ'
    rw [← hensure, ← hall.mp hserve', hnil]
    rfl
  · intro hnone ms os
    obtain ⟨w', hs⟩ : ∃ w', w.start J admins sso ms os = some w' := start_total h.log ms os
    obtain ⟨log, envs, -, -, hgroups, hfile, happ, hlog, happ', hpre, hgroups', hall⟩ := start_spec h.log hs
    rw [hensure, hnone, List.prefix_nil, List.map_eq_nil_iff] at hpre
    subst hpre
    refine ⟨w', hs, ?_, ?_, ?_, ?_⟩
    · rw [hall, hensure, hnone]
      rfl
    · rw [hgroups']
      rfl
    · rw [happ', List.append_nil]
    · rw [hlog, hensure, hnone]
      exact hfile

end GroupShard

open GroupShard

/-- **What a restart does to the groups.** In every run of starts and group commands in which a
failing append leaves nothing in the file: the indices of the log increase, and at every moment
when the shard serves a restart gives the same groups and appends nothing if and only if there is
no bootstrap member. -/
theorem restart_keeps_groups_iff (J : LineCodec (RaftEnvelope GroupLogEntry)) (admins sso : List Text)
    {as : List GroupShardMove} {w : GroupShard}
    (hrun : exec (step J admins sso) GroupShard.init as = some w)
    (hclean : Along (step J admins sso) (CleanMove J admins sso) GroupShard.init as) :
    (w.log.appended.map RaftEnvelope.index).Pairwise (· < ·)
    ∧ (w.serving = true → (RestartKeeps J admins sso w ↔ bootstrapEntries admins sso = [])) := by
  have h : GroupShard.Kept J w :=
    exec_invariant (fun h hok hs => h.step hok hs) (GroupShard.Kept.init J) hclean hrun
  exact ⟨h.log.indexed.increasing, restartKeeps_iff h⟩

/-! ## An administrator who was removed -/

instance GroupLog.decidableCleanAll (J : LineCodec (RaftEnvelope GroupLogEntry)) (ms : Nat) :
    ∀ (w : GroupLog) (es : List GroupLogEntry) (os : List AppendOutcome),
      Decidable (GroupLog.CleanAll J ms w es os)
  | _, [], _ => .isTrue trivial
  | w, e :: es, os =>
    have : Decidable (GroupLog.CleanAll J ms (w.raftAppendGroup J ms e (os.headD .ok)).2 es os.tail) :=
      GroupLog.decidableCleanAll J ms _ es os.tail
    inferInstanceAs (Decidable (CleanAppend J w (.append ms e (os.headD .ok)) ∧ _ < _ ∧ _))

instance (J : LineCodec (RaftEnvelope GroupLogEntry)) (admins sso : List Text) :
    ∀ (w : GroupShard) (a : GroupShardMove), Decidable (CleanMove J admins sso w a)
  | w, .start ms os => inferInstanceAs (Decidable (∀ log ∈ w.log.reopen J, GroupLog.CleanAll J ms log
      (log.groups.ensureGenesisGroups admins sso) os))
  | w, .command ms p line os => inferInstanceAs (Decidable (GroupLog.CleanAll J ms w.log
      (w.log.groups.command p line).entries os))

def root : Character := fighter "Root" "acct:root" [.adminAll]

/-- Root takes Alice off the administrators. -/
def removalMoves : List GroupShardMove :=
  [.start 0 [], .command 1 root "group remove admins alice".toList []]

/-- Root makes Alice an administrator. -/
def grantMoves : List GroupShardMove :=
  [.start 0 [], .command 1 root "group add admins alice".toList []]

/-- And takes her off again. -/
def grantRemovalMoves : List GroupShardMove :=
  grantMoves ++ [.command 2 root "group remove admins alice".toList []]

theorem removal_clean :
    Along (step sampleCodec ["alice".toList] []) (CleanMove sampleCodec ["alice".toList] [])
      GroupShard.init removalMoves := by
  decide +kernel

theorem grantRemoval_clean :
    Along (step sampleCodec [] []) (CleanMove sampleCodec [] []) GroupShard.init grantRemovalMoves := by
  decide +kernel

/-- Alice's role among the administrators. -/
def aliceRole (s : GroupStore) : Option GroupRole := s.roleForPrincipalInGroup 1 "acct:alice".toList []

/-- The shard at the end of the moves, with Alice's role then, and after the bootstrap entries. -/
def served (admins : List Text) (moves : List GroupShardMove) :
    Option (Bool × Option GroupRole × Option GroupRole) :=
  (exec (step sampleCodec admins []) GroupShard.init moves).map fun w =>
    (w.serving, aliceRole w.log.groups,
      aliceRole ((bootstrapEntries admins []).foldl GroupStore.apply w.log.groups))

/-- Without bootstrap members a restart keeps the groups: Alice was an administrator, and is none
after the removal and whatever start follows it. -/
theorem restart_keeps_removal :
    served [] grantMoves = some (true, some .member, some .member)
      ∧ ∃ w, exec (step sampleCodec [] []) GroupShard.init grantRemovalMoves = some w
        ∧ w.serving = true ∧ aliceRole w.log.groups = none
        ∧ (w.log.appended.map RaftEnvelope.index).Pairwise (· < ·)
        ∧ RestartKeeps sampleCodec [] [] w := by
  refine ⟨by decide +kernel, ?_⟩
  have hrun : served [] grantRemovalMoves = some (true, none, none) := by decide +kernel
  obtain ⟨w, hw, hstate⟩ := Option.map_eq_some_iff.mp hrun
  simp only [Prod.mk.injEq] at hstate
  obtain ⟨hserve, hremoved, -⟩ := hstate
  obtain ⟨hindices, hkeeps⟩ := restart_keeps_groups_iff sampleCodec [] [] hw grantRemoval_clean
  exact ⟨w, hw, hserve, hremoved, hindices, (hkeeps hserve).mpr rfl⟩

/-- Alice is a bootstrap administrator. Root removes her, and the next start appends an entry and
makes her an administrator again. -/
theorem removed_admin_returns :
    ∃ w w', exec (step sampleCodec ["alice".toList] []) GroupShard.init removalMoves = some w
      ∧ w.serving = true
      ∧ aliceRole w.log.groups = none
      ∧ w.start sampleCodec ["alice".toList] [] 2 [] = some w' ∧ w'.serving = true
      ∧ aliceRole w'.log.groups = some .member
      ∧ w'.log.appended.length = w.log.appended.length + 1
      ∧ ¬ RestartKeeps sampleCodec ["alice".toList] [] w := by
  have hrun : served ["alice".toList] removalMoves = some (true, none, some .member) := by decide +kernel
  obtain ⟨w, hw, hstate⟩ := Option.map_eq_some_iff.mp hrun
  simp only [Prod.mk.injEq] at hstate
  obtain ⟨hserve, hremoved, hreturned⟩ := hstate
  have hkept : GroupShard.Kept sampleCodec w :=
    exec_invariant (fun h hok hs => h.step hok hs) (GroupShard.Kept.init sampleCodec) removal_clean hw
  have hensure := (hkept.started hserve).ensure ["alice".toList] []
  have hentries : bootstrapEntries ["alice".toList] [] ≠ [] := by decide
  obtain ⟨w', hs⟩ : ∃ w', w.start sampleCodec ["alice".toList] [] 2 [] = some w' :=
    start_total hkept.log 2 []
  have hserve' := start_serves hs
  obtain ⟨-, envs, -, -, -, -, -, -, happ, -, hgroups, hall⟩ := start_spec hkept.log hs
  have henvs : envs.map RaftEnvelope.entry = bootstrapEntries ["alice".toList] [] := by
    rw [hall.mp hserve', hensure]
  refine ⟨w, w', hw, hserve, hremoved, hs, hserve', ?_, ?_, ?_⟩
  · rw [hgroups, henvs]
    exact hreturned
  · have hlen : envs.length = 1 := by
      rw [← List.length_map RaftEnvelope.entry, henvs]
      decide
    rw [happ, List.length_append, hlen]
  · exact fun hkeeps => hentries ((restartKeeps_iff hkept hserve).mp hkeeps)

end Slopmud.Shard
