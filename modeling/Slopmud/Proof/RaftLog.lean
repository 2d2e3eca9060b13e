import Mathlib.Logic.Equiv.List
import Mathlib.Tactic.DeriveEncodable
import Slopmud.Lib.Machine
import Slopmud.Shard.RaftLog

/-!
# What the shard log survives

As long as every append that fails has left nothing in the file, the file is exactly the
lines of the appends that succeeded, and the next start replays those. One byte of a failed
append is enough to break that: what is left of its line either does not parse, which stops
the start, or replays as an entry that was never applied.
-/

namespace Slopmud.Shard

open Machine

namespace RaftLog

variable {E : Type} (J : LineCodec (RaftEnvelope E))

theorem isLine_bytes (envs : List (RaftEnvelope E)) :
    ∀ l ∈ envs.map J.bytes, Lines.IsLine 10 13 l := by
  intro l hl
  obtain ⟨env, -, rfl⟩ := List.mem_map.mp hl
  exact J.bytes_isLine env

/-- Whole lines replay as their envelopes. -/
theorem replayLines_bytes (envs : List (RaftEnvelope E)) (rest : List Bytes) :
    replayLines J (envs.map J.bytes ++ rest)
      = (replayLines J rest).map (envs.map (fun env => (J.print env, env)) ++ ·) := by
  induction envs with
  | nil => simp
  | cons env envs ih =>
    have hblank : (J.print env).isEmpty = false := by simpa using J.notBlank env
    rw [List.map_cons, List.cons_append, replayLines, ih]
    simp only [LineCodec.bytes, Utf8.fromUtf8_encode, Option.bind_eq_bind, Option.bind_some,
      J.trimmed, hblank, J.parse_print]
    cases replayLines J rest <;> simp

/-- What a start reads from whole lines with something after them. -/
theorem load_append {file : Option Bytes} {envs : List (RaftEnvelope E)} {left : Bytes}
    (h : file.getD [] = Lines.unlines 10 (envs.map J.bytes) ++ left) :
    (load J file).map Prod.snd
      = (replayLines J (Lines.lines 10 13 left)).map (envs ++ ·.map Prod.snd) := by
  rw [load, h, Lines.lines_unlines_append (isLine_bytes J envs), replayLines_bytes]
  cases replayLines J (Lines.lines 10 13 left) <;> simp [Function.comp_def]

/-- Whole lines replay as themselves. -/
theorem load_of_lines {file : Option Bytes} {envs : List (RaftEnvelope E)}
    (h : file.getD [] = Lines.unlines 10 (envs.map J.bytes)) :
    (load J file).map Prod.snd = some envs := by
  have h' : file.getD [] = Lines.unlines 10 (envs.map J.bytes) ++ [] := by rw [h, List.append_nil]
  rw [load_append J h']
  simp [Lines.lines, Lines.linesFrom, replayLines]

/-- The beginning of a line, however short, is never passed over. -/
theorem replayLines_prefix {env : RaftEnvelope E} {left : Bytes} (hpre : left <+: J.bytes env)
    (hne : left ≠ []) : replayLines J (Lines.lines 10 13 left) ≠ some [] := by
  have hnl : (10 : UInt8) ∉ left := fun h => (J.bytes_isLine env).1 (hpre.subset h)
  rw [Lines.lines_partial hnl hne]
  intro h
  rw [replayLines] at h
  obtain ⟨t, ht, h⟩ := Option.bind_eq_some_iff.mp h
  have hblank : (Text.trim t).isEmpty = false := by
    simpa using J.notBlank_of_prefix hpre hne ht
  simp only [hblank] at h
  rw [if_neg Bool.false_ne_true] at h
  obtain ⟨env', -, h⟩ := Option.bind_eq_some_iff.mp h
  obtain ⟨rows, -, h⟩ := Option.bind_eq_some_iff.mp h
  cases h

/-- What a failed append can leave. -/
theorem written_cases {line bs : Bytes} {o : AppendOutcome} (h : o.written line = some bs) :
    bs <+: line ∨ bs = line ++ [10] := by
  cases o with
  | ok => exact .inr (Option.some.inj h).symm
  | noFile => cases h
  | line n =>
    cases h
    exact .inl (List.take_prefix n line)
  | newline =>
    cases h
    exact .inl (List.prefix_refl _)
  | flush => exact .inr (Option.some.inj h).symm

theorem replayLines_written {env : RaftEnvelope E} {bs : Bytes} {o : AppendOutcome}
    (h : o.written (J.bytes env) = some bs) (hne : bs ≠ []) :
    replayLines J (Lines.lines 10 13 bs) ≠ some [] := by
  rcases written_cases h with hpre | rfl
  · exact replayLines_prefix J hpre hne
  · have hwhole : J.bytes env ++ [10] = Lines.unlines 10 ([env].map J.bytes) := by simp
    rw [hwhole, Lines.lines_unlines (isLine_bytes J [env])]
    have hone := replayLines_bytes J [env] []
    rw [List.append_nil] at hone
    rw [hone]
    simp [replayLines]

end RaftLog

namespace GroupLog

variable (J : LineCodec (RaftEnvelope GroupLogEntry))

/-- The append leaves nothing of a line that fails. -/
def CleanAppend (w : GroupLog) : Move → Prop
  | .append ms entry o =>
    o = .ok ∨ (o.written (J.bytes (w.raft.envelope ms entry))).getD [] = []
  | .reopen => True

instance decidableCleanAppend (w : GroupLog) : ∀ a, Decidable (CleanAppend J w a)
  | .append ms entry o =>
    inferInstanceAs (Decidable (o = .ok ∨ (o.written (J.bytes (w.raft.envelope ms entry))).getD [] = []))
  | .reopen => .isTrue trivial

/-- A start now succeeds, replays the entries whose append returned `Ok`, in order, and the store
it builds from them is the live one. -/
def Survives (w : GroupLog) : Prop :=
  (RaftLog.load J w.file).map Prod.snd = some w.appended ∧ GroupStore.replay w.appended = w.groups

/-- The file is the lines of the appends that succeeded. -/
structure Intact (w : GroupLog) : Prop where
  file : w.file.getD [] = Lines.unlines 10 (w.appended.map J.bytes)
  groups : GroupStore.replay w.appended = w.groups

variable {J}

theorem Intact.survives {w : GroupLog} (h : Intact J w) : Survives J w :=
  ⟨RaftLog.load_of_lines J h.file, h.groups⟩

theorem Intact.init : Intact J init := ⟨rfl, rfl⟩

theorem replay_concat (envs : List (RaftEnvelope GroupLogEntry)) (env : RaftEnvelope GroupLogEntry) :
    GroupStore.replay (envs ++ [env]) = (GroupStore.replay envs).apply env.entry := by
  simp [GroupStore.replay]

/-- `raft_append_group`, by its outcome. -/
theorem raftAppendGroup_cases (w : GroupLog) (ms : Nat) (entry : GroupLogEntry) (o : AppendOutcome) :
    let env := w.raft.envelope ms entry
    (o = .ok ∧ (w.raftAppendGroup J ms entry o).1 = true
      ∧ (w.raftAppendGroup J ms entry o).2.file = some (w.file.getD [] ++ (J.bytes env ++ [10]))
      ∧ (w.raftAppendGroup J ms entry o).2.groups = w.groups.apply entry
      ∧ (w.raftAppendGroup J ms entry o).2.appended = w.appended ++ [env])
    ∨ (o ≠ .ok ∧ (w.raftAppendGroup J ms entry o).1 = false
      ∧ (w.raftAppendGroup J ms entry o).2.file.getD []
        = w.file.getD [] ++ (o.written (J.bytes env)).getD []
      ∧ (w.raftAppendGroup J ms entry o).2.groups = w.groups
      ∧ (w.raftAppendGroup J ms entry o).2.appended = w.appended) := by
  intro env
  by_cases ho : o = .ok
  · subst ho
    exact .inl ⟨rfl, rfl, rfl, rfl, rfl⟩
  · refine .inr ⟨ho, ?_⟩
    simp only [raftAppendGroup, RaftLog.append, if_neg ho]
    refine ⟨trivial, ?_, trivial, trivial⟩
    cases hw : o.written (J.bytes (w.raft.envelope ms entry)) with
    | none => simp
    | some bs => simp

theorem Intact.append {w : GroupLog} (h : Intact J w) {ms : Nat} {entry : GroupLogEntry}
    {o : AppendOutcome} (hok : CleanAppend J w (.append ms entry o)) :
    Intact J (w.raftAppendGroup J ms entry o).2 := by
  rcases raftAppendGroup_cases (J := J) w ms entry o with
    ⟨-, -, hfile, hgroups, happ⟩ | ⟨ho, -, hfile, hgroups, happ⟩
  · refine ⟨?_, ?_⟩
    · rw [hfile, happ, Option.getD_some, h.file]
      simp
    · rw [happ, hgroups, replay_concat, h.groups]
      rfl
  · have hnone := hok.resolve_left ho
    refine ⟨?_, ?_⟩
    · rw [hfile, happ, hnone, List.append_nil, h.file]
    · rw [happ, hgroups, h.groups]

theorem Intact.reopen {w w' : GroupLog} (h : Intact J w) (hs : w.reopen J = some w') :
    Intact J w' := by
  obtain ⟨⟨raft, replay⟩, hload, rfl⟩ := Option.map_eq_some_iff.mp hs
  have happ := RaftLog.load_of_lines J h.file
  rw [hload, Option.map_some, Option.some.injEq] at happ
  have hreplay : replay = w.appended := happ
  refine ⟨h.file, ?_⟩
  rw [hreplay]

theorem Intact.step {w w' : GroupLog} {a : Move} (h : Intact J w) (hok : CleanAppend J w a)
    (hs : w.step J a = some w') : Intact J w' := by
  cases a with
  | append ms entry o =>
    cases hs
    exact h.append hok
  | reopen => exact h.reopen hs

/-- A step after which a start would still be right has left nothing of a failed append. -/
theorem Intact.clean_of_survives {w w' : GroupLog} {a : Move} (h : Intact J w)
    (hs : w.step J a = some w') (hsurv : Survives J w') : CleanAppend J w a := by
  cases a with
  | reopen => trivial
  | append ms entry o =>
    cases hs
    rcases raftAppendGroup_cases (J := J) w ms entry o with
      ⟨ho, -, -, -, -⟩ | ⟨ho, -, hfile, -, happ⟩
    · exact .inl ho
    · refine .inr ?_
      cases hw : o.written (J.bytes (w.raft.envelope ms entry)) with
      | none => rfl
      | some bs =>
        rw [Option.getD_some]
        by_contra hne
        rw [hw, Option.getD_some, h.file] at hfile
        have hload := hsurv.1
        rw [RaftLog.load_append J hfile, happ] at hload
        obtain ⟨rows, hrows, heq⟩ := Option.map_eq_some_iff.mp hload
        have hnil : rows = [] := by simpa using heq
        rw [hnil] at hrows
        exact RaftLog.replayLines_written J hw hne hrows

end GroupLog

open GroupLog

/-- **What the shard log survives.** In every run of appends, with any failures, and restarts:
every moment is one at which a start succeeds, replays exactly the entries whose append returned
`Ok` and rebuilds the live store, if and only if no failed append left a byte in the file. -/
theorem log_survives_iff (J : LineCodec (RaftEnvelope GroupLogEntry)) {as : List Move}
    {w : GroupLog} (hrun : exec (step J) init as = some w) :
    Throughout (step J) (Survives J) init as ↔ Along (step J) (CleanAppend J) init as :=
  throughout_iff_along (fun h => h.survives) (fun h hok hs => h.step hok hs)
    (fun h hs hsurv => h.clean_of_survives hs hsurv) Intact.init hrun

/-! ## A log to run -/

deriving instance Encodable for Capability
deriving instance Encodable for GroupRole
deriving instance Encodable for GroupKind
deriving instance Encodable for GroupLogEntry
deriving instance Encodable for RaftEnvelope

def adminsEntry : GroupLogEntry := .groupCreate 1 .admin "admins".toList

def adminsJson : Text :=
  "\x7b\"index\":1,\"ms\":0,\"entry\":\x7b\"t\":\"GroupCreate\",\"group_id\":1,".toList
    ++ "\"kind\":\"Admin\",\"name\":\"admins\"\x7d\x7d".toList

def aliceEntry : GroupLogEntry := .groupMemberSet 1 "acct:alice".toList (some .member)

def aliceJson : Text :=
  "\x7b\"index\":2,\"ms\":7,\"entry\":\x7b\"t\":\"GroupMemberSet\",\"group_id\":1,".toList
    ++ "\"member\":\"acct:alice\",\"role\":\"Member\"\x7d\x7d".toList

/-- A codec that prints these two envelopes as JSON. -/
def sampleCodec : LineCodec (RaftEnvelope GroupLogEntry) :=
  (LineCodec.strokes _).withSamples (fun env => if env.index = 1 then adminsJson else aliceJson)
    [⟨1, 0, adminsEntry⟩, ⟨2, 7, aliceEntry⟩] (by decide +kernel)
    (fun env _ => LineCodec.strokes_ne (c := 'i') (by split <;> decide +kernel) (by decide))
    (by decide +kernel) (by decide +kernel) (by decide +kernel)

/-- One entry is appended, the next append finds no file, the shard starts again and goes on with
the index that was used up. -/
def adminsRun : List Move :=
  [.append 0 adminsEntry .ok, .append 5 aliceEntry .noFile, .reopen, .append 7 aliceEntry .ok]

/-- The log survives that. -/
theorem log_survives_admins :
    ∃ w, exec (step sampleCodec) init adminsRun = some w
      ∧ w.appended = [⟨1, 0, adminsEntry⟩, ⟨2, 7, aliceEntry⟩]
      ∧ Throughout (step sampleCodec) (Survives sampleCodec) init adminsRun := by
  have hrun : (exec (step sampleCodec) init adminsRun).map GroupLog.appended
      = some [⟨1, 0, adminsEntry⟩, ⟨2, 7, aliceEntry⟩] := by
    decide +kernel
  -- the append that finds no file leaves none of its bytes behind
  have hclean : Along (step sampleCodec) (CleanAppend sampleCodec) init adminsRun := by
    decide +kernel
  obtain ⟨w, hw, happ⟩ := Option.map_eq_some_iff.mp hrun
  exact ⟨w, hw, happ, (log_survives_iff sampleCodec hw).mpr hclean⟩

/-- The line of the first entry was written and its line feed was not, so its append returned an
error and nothing was applied; the next start replays it. -/
theorem unfinished_line_replays :
    ∃ w, exec (step sampleCodec) init [.append 0 adminsEntry .newline] = some w
      ∧ w.appended = [] ∧ w.groups.groups.lookup 1 = none
      ∧ (RaftLog.load sampleCodec w.file).map Prod.snd = some [⟨1, 0, adminsEntry⟩]
      ∧ ¬ Survives sampleCodec w := by
  refine ⟨(init.raftAppendGroup sampleCodec 0 adminsEntry .newline).2, rfl, rfl, rfl, ?_, ?_⟩
  · have hline : sampleCodec.bytes ⟨1, 0, adminsEntry⟩ ≠ [] := sampleCodec.bytes_ne_nil _
    have hnl := (sampleCodec.bytes_isLine ⟨1, 0, adminsEntry⟩).1
    have hrows := RaftLog.replayLines_bytes sampleCodec [⟨1, 0, adminsEntry⟩] []
    have hfile : (init.raftAppendGroup sampleCodec 0 adminsEntry .newline).2.file
        = some (sampleCodec.bytes ⟨1, 0, adminsEntry⟩) := rfl
    rw [List.append_nil] at hrows
    rw [RaftLog.load, hfile, Option.getD_some, Lines.lines_partial hnl hline]
    rw [List.map_singleton] at hrows
    rw [hrows]
    simp [RaftLog.replayLines]
  · intro hsurv
    have hclean : CleanAppend sampleCodec init (.append 0 adminsEntry .newline) :=
      Intact.init.clean_of_survives rfl hsurv
    rcases hclean with h | h
    · cases h
    · exact sampleCodec.bytes_ne_nil _ h

end Slopmud.Shard
