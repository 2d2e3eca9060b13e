import Slopmud.Broker.EventLog

/-!
# Logged lines reach their objects

What a file holds and what its writer still holds back are together all that was
written to it, as long as it is there. Once an upload has removed it the object
has to hold everything, so two things may not happen: a removal while bytes are
still in the buffer or were appended after the upload had read the file, and a
write to a path that has been uploaded and removed. Neither is prevented by
anything in `eventlog.rs`; in every run in which neither happens no line is lost.
-/

namespace Slopmud.Broker

open Machine

/-! ## Paths are injective -/

theorem ofDigitChars_padded (w n : Nat) : Nat.ofDigitChars 10 (padded w n) 0 = n := by
  simp [padded, Nat.ofDigitChars_append, Nat.ofDigitChars_replicate_zero]

theorem padded_inj {w n n' : Nat} (h : padded w n = padded w n') : n = n' := by
  rw [← ofDigitChars_padded w n, h, ofDigitChars_padded]

theorem slash_notMem_padded (w n : Nat) : '/' ∉ padded w n := by
  intro h
  rcases List.mem_append.mp h with h | h
  · exact absurd (List.eq_of_mem_replicate h) (by decide)
  · exact Text.notMem_toDigits (by decide) n h

/-- **A path determines the day and the directory of the stream.** -/
theorem objectRelpath_inj {s s' : LogStream} {d d' : Date}
    (h : objectRelpath s d = objectRelpath s' d') : s.dir = s'.dir ∧ d = d' := by
  have hday : ∀ d : Date, '/' ∉ padded 2 d.day ++ ".log".toList := by
    intro d hmem
    rcases List.mem_append.mp hmem with hmem | hmem
    · exact slash_notMem_padded 2 d.day hmem
    · exact absurd hmem (by decide)
  have hpath : ∀ s d, objectRelpath s d = s.dir ++ '/' :: padded 4 d.year ++ '/' :: padded 2 d.month
      ++ '/' :: (padded 2 d.day ++ ".log".toList) := fun s d => List.append_assoc _ _ _
  rw [hpath, hpath] at h
  obtain ⟨h, hd⟩ := Text.last_inj (hday d) (hday d') h
  obtain ⟨h, hm⟩ := Text.last_inj (slash_notMem_padded _ _) (slash_notMem_padded _ _) h
  obtain ⟨h, hy⟩ := Text.last_inj (slash_notMem_padded _ _) (slash_notMem_padded _ _) h
  refine ⟨h, ?_⟩
  cases d
  cases d'
  simp only [Date.mk.injEq]
  exact ⟨padded_inj hy, padded_inj hm, padded_inj (List.append_cancel_right hd)⟩

/-- The stream, with the slashes around a character's name trimmed off. -/
def LogStream.trimmed : LogStream → LogStream
  | .character name => .character (trimSlashes name)
  | s => s

/-- The letter in which the directories of the streams differ. -/
def LogStream.initial : LogStream → Char
  | .all => 'a'
  | .login => 'l'
  | .character _ => 'c'
  | .reports => 'r'

theorem LogStream.dir_initial (s : LogStream) : s.dir[3]? = some s.initial := by cases s <;> rfl

/-- Different streams have different directories. -/
theorem LogStream.dir_inj {s s' : LogStream} (h : s.dir = s'.dir) : s.trimmed = s'.trimmed := by
  have hi : s.initial = s'.initial := by
    have h3 := s.dir_initial
    rw [h, s'.dir_initial] at h3
    exact (Option.some.inj h3).symm
  cases s with
  | character name =>
    cases s' with
    | character name' => exact congrArg LogStream.character (List.append_cancel_left h)
    | _ => simp [LogStream.initial] at hi
  | _ => cases s' <;> first | rfl | simp [LogStream.initial] at hi

theorem LogStream.dir_trimmed {s s' : LogStream} (h : s.trimmed = s'.trimmed) : s.dir = s'.dir := by
  cases s with
  | character name =>
    cases s' with
    | character name' =>
      have hname : trimSlashes name = trimSlashes name' := LogStream.character.inj h
      exact congrArg (fun n => "v1/char/".toList ++ n) hname
    | _ => cases h
  | _ =>
    cases s' <;> cases h
    rfl

theorem objectRelpath_eq_iff {s s' : LogStream} {d d' : Date} :
    objectRelpath s d = objectRelpath s' d' ↔ s.trimmed = s'.trimmed ∧ d = d' := by
  constructor
  · intro h
    obtain ⟨hdir, hd⟩ := objectRelpath_inj h
    exact ⟨LogStream.dir_inj hdir, hd⟩
  · rintro ⟨hs, rfl⟩
    rw [objectRelpath, LogStream.dir_trimmed hs, objectRelpath]

theorem isRelative_objectRelpath (s : LogStream) (d : Date) : IsRelative (objectRelpath s d) := by
  have hhead : (objectRelpath s d).head? = some 'v' := by cases s <;> rfl
  rw [IsRelative, hhead]
  decide

theorem trimStartSlashes_of_isRelative {rel : Text} (h : IsRelative rel) :
    trimStartSlashes rel = rel := by
  cases rel with
  | nil => rfl
  | cons c rel =>
    have hc : c ≠ '/' := by simpa [IsRelative] using h
    simp [trimStartSlashes, hc]

/-- Different files are uploaded under different keys. -/
theorem joinPrefix_inj {pre rel rel' : Text} (h : IsRelative rel) (h' : IsRelative rel')
    (heq : joinPrefix pre rel = joinPrefix pre rel') : rel = rel' := by
  simp only [joinPrefix, trimStartSlashes_of_isRelative h, trimStartSlashes_of_isRelative h'] at heq
  split at heq
  · exact heq
  · simpa using heq

/-! ## What was written -/

/-- What a file holds and its writer still holds back. -/
def textOf (w : LocalWriter) (f : Files) (rel : Text) : Text :=
  (f.read rel).getD [] ++ ((w.openFiles.lookup rel).map BufWriter.buf).getD []

/-- Every open file is there under its name, or it has been removed with nothing in the buffer. -/
def Attached (removed : Text → Prop) (w : LocalWriter) (f : Files) : Prop :=
  ∀ rel b, w.openFiles.lookup rel = some b →
    f.names.lookup rel = some b.ino ∨ (f.names.lookup rel = none ∧ b.buf = [] ∧ removed rel)

/-- What an operation on the writer does to the files: names stay, and each has its text. -/
structure Settles (w : LocalWriter) (f : Files) (w' : LocalWriter) (f' : Files) : Prop where
  names : ∀ rel, f'.names.lookup rel = f.names.lookup rel
  text : ∀ rel, textOf w' f' rel = textOf w f rel

section Writer

variable {removed : Text → Prop} {w : LocalWriter} {f : Files}

theorem foldl_flushOne_names (es : List (Sigma fun _ : Text => BufWriter)) (f : Files) :
    (es.foldl LocalWriter.flushOne f).names = f.names := by
  induction es generalizing f with
  | nil => rfl
  | cons e es ih => rw [List.foldl_cons, ih]; rfl

/-- Flushing one file after the other appends to each what its own buffer held. -/
theorem foldl_flushOne_data (es : List (Sigma fun _ : Text => BufWriter)) (hnd : es.NodupKeys)
    (f : Files)
    (hatt : ∀ e ∈ es, f.names.lookup e.1 = some e.2.ino ∨ (f.names.lookup e.1 = none ∧ e.2.buf = []))
    {rel : Text} {i : Nat} (hi : f.names.lookup rel = some i) :
    (es.foldl LocalWriter.flushOne f).data i
      = f.data i ++ ((es.dlookup rel).map BufWriter.buf).getD [] := by
  induction es generalizing f with
  | nil => simp
  | cons e es ih =>
    obtain ⟨k, b⟩ := e
    obtain ⟨he, hnd⟩ := List.nodupKeys_cons.mp hnd
    have hnames : (LocalWriter.flushOne f ⟨k, b⟩).names = f.names := rfl
    rw [List.foldl_cons, ih hnd _ (fun e' he' => by
      rw [hnames]
      exact hatt e' (List.mem_cons_of_mem _ he')) (by rw [hnames]; exact hi)]
    have hdata : (LocalWriter.flushOne f ⟨k, b⟩).data = (f.append b.ino b.buf).data := rfl
    rw [hdata]
    by_cases hk : rel = k
    · -- its own buffer; it is not flushed again
      subst hk
      rw [List.dlookup_cons_eq, List.dlookup_eq_none.mpr he]
      rcases hatt ⟨rel, b⟩ List.mem_cons_self with hat | ⟨hnone, -⟩
      · obtain rfl : b.ino = i := Option.some.inj (hat.symm.trans hi)
        simp
      · rw [hnone] at hi
        cases hi
    · rw [List.dlookup_cons_ne es (⟨k, b⟩ : Sigma fun _ : Text => BufWriter) hk]
      rcases hatt ⟨k, b⟩ List.mem_cons_self with hat | ⟨-, hbuf⟩
      · -- another file's inode
        have hne : i ≠ b.ino := fun heq => hk (f.inj hi (heq ▸ hat))
        rw [Files.append_data_of_ne f hne]
      · simp only at hbuf
        rw [hbuf, Files.append_nil]

theorem flushAll_names : (w.flushAll f).2.names = f.names := foldl_flushOne_names _ _

theorem flushAll_lookup (rel : Text) : (w.flushAll f).1.openFiles.lookup rel
    = (w.openFiles.lookup rel).map fun b => { b with buf := [] } :=
  Table.lookup_mapVals _ _ _

theorem attached_flushAll (h : Attached removed w f) :
    Attached removed (w.flushAll f).1 (w.flushAll f).2 := by
  intro rel b hb
  rw [flushAll_lookup] at hb
  obtain ⟨b₀, hb₀, rfl⟩ := Option.map_eq_some_iff.mp hb
  rw [flushAll_names]
  rcases h rel b₀ hb₀ with hat | ⟨hnone, -, hrem⟩
  · exact Or.inl hat
  · exact Or.inr ⟨hnone, rfl, hrem⟩

theorem read_flushAll (h : Attached removed w f) (rel : Text) :
    ((w.flushAll f).2.read rel).getD [] = textOf w f rel := by
  have hnames : (w.flushAll f).2.names = f.names := flushAll_names
  rw [textOf, Files.read, Files.read, hnames]
  cases hi : f.names.lookup rel with
  | none =>
    -- a file that is gone has nothing in its buffer
    cases hb : w.openFiles.lookup rel with
    | none => rfl
    | some b =>
      rcases h rel b hb with hat | ⟨-, hbuf, -⟩
      · rw [hi] at hat
        cases hat
      · simp [hbuf]
  | some i =>
    have hatt : ∀ e ∈ w.openFiles.entries,
        f.names.lookup e.1 = some e.2.ino ∨ (f.names.lookup e.1 = none ∧ e.2.buf = []) := by
      intro e he
      rcases h e.1 e.2 (Table.lookup_eq_some_iff.mpr he) with hat | ⟨hnone, hbuf, -⟩
      · exact Or.inl hat
      · exact Or.inr ⟨hnone, hbuf⟩
    simp only [Option.map_some, Option.getD_some]
    exact foldl_flushOne_data _ w.openFiles.nodupKeys f hatt hi

theorem settles_flushAll (h : Attached removed w f) :
    Settles w f (w.flushAll f).1 (w.flushAll f).2 where
  names rel := by rw [flushAll_names]
  text rel := by
    have hbuf : (((w.flushAll f).1.openFiles.lookup rel).map BufWriter.buf).getD [] = [] := by
      rw [flushAll_lookup]
      cases w.openFiles.lookup rel <;> rfl
    rw [textOf, hbuf, List.append_nil]
    exact read_flushAll h rel

theorem rotateIfNeeded_settles (h : Attached removed w f) (date : Date) (order : List Text) :
    Attached removed (w.rotateIfNeeded f date order).2.1 (w.rotateIfNeeded f date order).2.2 ∧
    Settles w f (w.rotateIfNeeded f date order).2.1 (w.rotateIfNeeded f date order).2.2 := by
  unfold LocalWriter.rotateIfNeeded
  split
  · exact ⟨h, fun _ => rfl, fun _ => rfl⟩
  · refine ⟨fun rel b hb => by simp at hb, fun rel => ?_, fun rel => ?_⟩
    · exact (settles_flushAll h).names rel
    · rw [← read_flushAll h rel]
      simp [textOf]

theorem writeText_moves (b : BufWriter) (f : Files) (line : Text) :
    b.Moves f (LocalWriter.writeText b f line) (LocalWriter.lineText line) := by
  unfold LocalWriter.writeText LocalWriter.lineText
  split
  · exact b.writeAll_moves f line
  · exact (b.writeAll_moves f line).trans (BufWriter.writeAll_moves _ _ _)

/-- What opening a path for a line gives: a handle on the file of that name. -/
theorem openFile_spec (h : Attached removed w f) {rel : Text}
    (hrel : (f.names.lookup rel).isSome ∨ ¬ removed rel) :
    (w.openFile f rel).2.names.lookup rel = some (w.openFile f rel).1.ino ∧
    (w.openFile f rel).2.data (w.openFile f rel).1.ino ++ (w.openFile f rel).1.buf = textOf w f rel ∧
    ∀ r, r ≠ rel → (w.openFile f rel).2.names.lookup r = f.names.lookup r ∧
      (w.openFile f rel).2.read r = f.read r := by
  unfold LocalWriter.openFile
  cases hb : w.openFiles.lookup rel with
  | some b =>
    have hat : f.names.lookup rel = some b.ino := by
      rcases h rel b hb with hat | ⟨hnone, -, hrem⟩
      · exact hat
      · rcases hrel with hsome | hnot
        · rw [hnone] at hsome
          cases hsome
        · exact absurd hrem hnot
    exact ⟨hat, by simp [textOf, hb, Files.read, hat], fun _ _ => ⟨rfl, rfl⟩⟩
  | none =>
    obtain ⟨hat, hdata, hothers⟩ := f.openAppend_spec rel
    exact ⟨hat, by simp [textOf, hb, hdata], hothers⟩

/-- What writing `t` to one file does to all of them. -/
structure Wrote (removed : Text → Prop) (w : LocalWriter) (f : Files) (w' : LocalWriter) (f' : Files)
    (rel t : Text) : Prop where
  attached : Attached removed w' f'
  here : (f'.names.lookup rel).isSome
  names : ∀ r, r ≠ rel → f'.names.lookup r = f.names.lookup r
  text : textOf w' f' rel = textOf w f rel ++ t
  others : ∀ r, r ≠ rel → textOf w' f' r = textOf w f r

/-- Something that keeps every text may come first. -/
theorem Wrote.after {w₁ w' : LocalWriter} {f₁ f' : Files} {rel t : Text}
    (hs : Settles w f w₁ f₁) (h : Wrote removed w₁ f₁ w' f' rel t) : Wrote removed w f w' f' rel t where
  attached := h.attached
  here := h.here
  names r hr := (h.names r hr).trans (hs.names r)
  text := by rw [h.text, hs.text]
  others r hr := (h.others r hr).trans (hs.text r)

/-- The write itself, once nothing is due to be flushed. -/
theorem wrote_append_false (h : Attached removed w f) {rel : Text}
    (hrel : (f.names.lookup rel).isSome ∨ ¬ removed rel) (line : Text) :
    Wrote removed w f (w.append f false rel line).1 (w.append f false rel line).2 rel
      (LocalWriter.lineText line) := by
  obtain ⟨hat, htext, hothers⟩ := openFile_spec h hrel
  simp only [LocalWriter.append, Bool.false_eq_true, if_false]
  set b := (w.openFile f rel).1
  set f₁ := (w.openFile f rel).2
  have hm := writeText_moves b f₁ line
  set x := LocalWriter.writeText b f₁ line
  have hnames : ∀ r, x.2.names.lookup r = f₁.names.lookup r := fun r => by rw [hm.names]
  refine ⟨?_, ?_, ?_, ?_, ?_⟩
  · intro r b' hb'
    rw [Table.lookup_insert_eq] at hb'
    split at hb'
    · next hr =>
      cases hb'
      rw [hnames, hr, hm.ino]
      exact Or.inl hat
    · next hr =>
      rw [hnames, (hothers r hr).1]
      exact h r b' hb'
  · rw [hnames, hat]
    rfl
  · intro r hr
    rw [hnames, (hothers r hr).1]
  · have hread : x.2.read rel = some (x.2.data b.ino) := by rw [Files.read, hnames, hat]; rfl
    rw [textOf, hread, Table.lookup_insert_eq, if_pos rfl, ← htext]
    exact hm.text
  · intro r hr
    rw [textOf, textOf, Table.lookup_insert_eq, if_neg hr]
    congr 2
    rw [← (hothers r hr).2, Files.read, Files.read, hnames]
    cases hi : f₁.names.lookup r with
    | none => rfl
    | some i =>
      have hne : i ≠ b.ino := fun heq => hr (f₁.inj hi (heq ▸ hat))
      simp only [Option.map_some, hm.others i hne]

theorem wrote_append (h : Attached removed w f) {rel : Text}
    (hrel : (f.names.lookup rel).isSome ∨ ¬ removed rel) (flushDue : Bool) (line : Text) :
    Wrote removed w f (w.append f flushDue rel line).1 (w.append f flushDue rel line).2 rel
      (LocalWriter.lineText line) := by
  cases flushDue with
  | false => exact wrote_append_false h hrel line
  | true =>
    have hs := settles_flushAll h
    refine Wrote.after hs (wrote_append_false (attached_flushAll h) ?_ line)
    rw [hs.names]
    exact hrel

/-- **What `write_line` does.** -/
theorem wrote_writeLine (h : Attached removed w f) {rel : Text}
    (hrel : (f.names.lookup rel).isSome ∨ ¬ removed rel) (flushDue : Bool) (order : List Text)
    (date : Date) (line : Text) :
    Wrote removed w f (w.writeLine f flushDue order date rel line).2.1
      (w.writeLine f flushDue order date rel line).2.2 rel (LocalWriter.lineText line) := by
  obtain ⟨hatt, hs⟩ := rotateIfNeeded_settles h date order
  refine Wrote.after hs (wrote_append hatt ?_ flushDue line)
  rw [hs.names]
  exact hrel

end Writer

/-! ## Nothing is lost -/

section Upload

variable (cfg : EventLogConfig) (files₀ : Files)

/-- The object of a path, if one has been uploaded. -/
def EventLog.object (s : EventLog) (rel : Text) : Option Text :=
  s.objects.lookup (joinPrefix cfg.s3Prefix rel)

/-- What has been written to a path, in the order of the writes. -/
def EventLog.writtenTo (s : EventLog) (rel : Text) : Text :=
  ((s.written.filter fun e => e.rel = rel).map fun e => LocalWriter.lineText e.line).flatten

/-- All that belongs to a path: what was in the file at the start, and what has been written. -/
def EventLog.whole (s : EventLog) (rel : Text) : Text :=
  (files₀.read rel).getD [] ++ s.writtenTo rel

/-- Every path has all its text: in the file and the buffer, or, once the file is gone, in the
object. -/
structure Kept (s : EventLog) : Prop where
  relative : ∀ rel, (s.files.names.lookup rel).isSome → IsRelative rel
  attached : Attached (fun rel => (s.object cfg rel).isSome) s.writer s.files
  here : ∀ rel, (s.files.names.lookup rel).isSome → textOf s.writer s.files rel = s.whole files₀ rel
  gone : ∀ rel, IsRelative rel → s.files.names.lookup rel = none →
    (s.object cfg rel).getD [] = s.whole files₀ rel

/-- The condition on one move: a line is written to a path whose file has not been uploaded and
removed, and a file is removed when its object holds all of it and no byte is held back. -/
def LogMoveOk (w : LogPool) (m : Move LogTask LogEnv LogCall) : Prop :=
  match w.section? m with
  | some (.writeLine e) =>
    (w.shared.files.names.lookup e.rel).isSome ∨ w.shared.object cfg e.rel = none
  | some (.removeFile rel) =>
    ((w.shared.writer.openFiles.lookup rel).map BufWriter.buf).getD [] = [] ∧
      w.shared.object cfg rel = w.shared.files.read rel
  | _ => True

instance (w : LogPool) (m : Move LogTask LogEnv LogCall) : Decidable (LogMoveOk cfg w m) := by
  unfold LogMoveOk
  split <;> infer_instance

variable {cfg files₀} {s : EventLog}

theorem kept_new {today : Date} (h : ∀ rel, (files₀.names.lookup rel).isSome → IsRelative rel) :
    Kept cfg files₀ (.new files₀ today) where
  relative := h
  attached rel b hb := by simp [EventLog.new, LocalWriter.new] at hb
  here rel _ := by simp [EventLog.new, LocalWriter.new, textOf, EventLog.whole, EventLog.writtenTo]
  gone rel _ hnone := by
    have hread : files₀.read rel = none := by
      rw [Files.read, show files₀.names.lookup rel = none from hnone]
      rfl
    simp [EventLog.new, EventLog.object, EventLog.whole, EventLog.writtenTo, hread]

theorem writtenTo_concat (e : LogEntry) (rel : Text) :
    EventLog.writtenTo { s with written := s.written ++ [e] } rel
      = s.writtenTo rel ++ if e.rel = rel then LocalWriter.lineText e.line else [] := by
  simp only [EventLog.writtenTo, List.filter_append, List.map_append, List.flatten_append]
  by_cases h : e.rel = rel <;> simp [h]

theorem kept_writeLine (h : Kept cfg files₀ s) {e : LogEntry}
    (hok : (s.files.names.lookup e.rel).isSome ∨ s.object cfg e.rel = none) (flushDue : Bool)
    (order : List Text) :
    let x := s.writer.writeLine s.files flushDue order e.date e.rel e.line
    Kept cfg files₀ { s with writer := x.2.1, files := x.2.2, written := s.written ++ [e] } := by
  intro x
  have hw : Wrote (fun rel => (s.object cfg rel).isSome) s.writer s.files x.2.1 x.2.2 e.rel
      (LocalWriter.lineText e.line) :=
    wrote_writeLine h.attached (hok.imp id (fun hn => by simp [hn])) flushDue order e.date e.line
  have hwhole : ∀ rel, EventLog.whole files₀
      { s with writer := x.2.1, files := x.2.2, written := s.written ++ [e] } rel
      = s.whole files₀ rel ++ if e.rel = rel then LocalWriter.lineText e.line else [] := by
    intro rel
    rw [EventLog.whole, EventLog.whole, List.append_assoc]
    exact congrArg _ (writtenTo_concat (s := s) e rel)
  refine ⟨?_, hw.attached, ?_, ?_⟩
  · intro rel hrel
    by_cases hr : rel = e.rel
    · rw [hr]
      exact isRelative_objectRelpath _ _
    · rw [hw.names rel hr] at hrel
      exact h.relative rel hrel
  · intro rel hrel
    rw [hwhole]
    by_cases hr : rel = e.rel
    · rw [hr, if_pos rfl, hw.text]
      refine congrArg (· ++ _) ?_
      cases hi : s.files.names.lookup e.rel with
      | some i => exact h.here e.rel (by rw [hi]; rfl)
      | none =>
        -- a new file: nothing was written to this path before
        have hobj : s.object cfg e.rel = none := by simpa [hi] using hok
        have hgone := h.gone e.rel (isRelative_objectRelpath _ _) hi
        rw [hobj] at hgone
        rw [← hgone, textOf, Files.read, hi]
        cases hb : s.writer.openFiles.lookup e.rel with
        | none => rfl
        | some b =>
          rcases h.attached e.rel b hb with hat | ⟨-, hbuf, -⟩
          · rw [hi] at hat
            cases hat
          · simp [hbuf]
    · rw [if_neg (Ne.symm hr), List.append_nil, hw.others rel hr]
      rw [hw.names rel hr] at hrel
      exact h.here rel hrel
  · intro rel hrelative hnone
    have hr : rel ≠ e.rel := by
      rintro rfl
      have := hw.here
      rw [hnone] at this
      cases this
    rw [hwhole, if_neg (Ne.symm hr), List.append_nil]
    rw [hw.names rel hr] at hnone
    exact h.gone rel hrelative hnone

theorem kept_flush (h : Kept cfg files₀ s) :
    Kept cfg files₀ { s with
      writer := (s.writer.flushAll s.files).1, files := (s.writer.flushAll s.files).2 } := by
  have hs := settles_flushAll h.attached
  refine ⟨fun rel hrel => ?_, attached_flushAll h.attached, fun rel hrel => ?_,
    fun rel hrelative hnone => ?_⟩
  · rw [hs.names] at hrel
    exact h.relative rel hrel
  · rw [hs.names] at hrel
    exact (hs.text rel).trans (h.here rel hrel)
  · rw [hs.names] at hnone
    exact h.gone rel hrelative hnone

theorem object_putObject {rel rel' body : Text} (hrel : IsRelative rel) (hrel' : IsRelative rel') :
    EventLog.object cfg { s with objects := s.objects.insert (joinPrefix cfg.s3Prefix rel) body } rel'
      = if rel' = rel then some body else s.object cfg rel' := by
  rw [EventLog.object, EventLog.object, Table.lookup_insert_eq]
  by_cases hr : rel' = rel
  · rw [if_pos hr, if_pos (by rw [hr])]
  · rw [if_neg hr, if_neg (fun heq => hr (joinPrefix_inj hrel' hrel heq))]

theorem kept_putObject (h : Kept cfg files₀ s) {rel : Text}
    (hrel : (s.files.names.lookup rel).isSome) (body : Text) :
    Kept cfg files₀ { s with objects := s.objects.insert (joinPrefix cfg.s3Prefix rel) body } := by
  refine ⟨h.relative, ?_, h.here, ?_⟩
  · intro r b hb
    refine (h.attached r b hb).imp id fun ⟨hnone, hbuf, hrem⟩ => ⟨hnone, hbuf, ?_⟩
    simp only [EventLog.object] at hrem ⊢
    rw [Table.lookup_insert_eq]
    split
    · rfl
    · exact hrem
  · intro r hrelative hnone
    have hne : r ≠ rel := by
      rintro rfl
      rw [show s.files.names.lookup r = none from hnone] at hrel
      cases hrel
    rw [object_putObject (h.relative rel hrel) hrelative, if_neg hne]
    exact h.gone r hrelative hnone

theorem kept_removeFile (h : Kept cfg files₀ s) {rel : Text}
    (hrel : (s.files.names.lookup rel).isSome)
    (hbuf : ((s.writer.openFiles.lookup rel).map BufWriter.buf).getD [] = [])
    (hobj : s.object cfg rel = s.files.read rel) :
    Kept cfg files₀ { s with files := s.files.remove rel } := by
  have hlook : ∀ r, (s.files.remove rel).names.lookup r
      = if r = rel then none else s.files.names.lookup r := fun r => Table.lookup_erase_eq _ _ _
  have hread : (s.files.read rel).isSome := by
    rw [Files.read, Option.isSome_map]
    exact hrel
  refine ⟨?_, ?_, ?_, ?_⟩
  · intro r hr
    rw [hlook] at hr
    split at hr
    · cases hr
    · exact h.relative r hr
  · intro r b hb
    rw [hlook]
    split
    · next hr =>
      subst hr
      refine Or.inr ⟨rfl, ?_, ?_⟩
      · rw [show s.writer.openFiles.lookup r = some b from hb] at hbuf
        exact hbuf
      · show (s.object cfg r).isSome
        rw [hobj]
        exact hread
    · exact h.attached r b hb
  · intro r hr
    rw [hlook] at hr
    split at hr
    · cases hr
    · next hne =>
      rw [← show s.whole files₀ r = EventLog.whole files₀ { s with files := s.files.remove rel } r
        from rfl, ← h.here r hr, textOf, textOf, Files.read, hlook, if_neg hne]
      rfl
  · intro r hrelative hnone
    rw [hlook] at hnone
    by_cases hr : r = rel
    · subst hr
      show (s.object cfg r).getD [] = s.whole files₀ r
      rw [hobj, ← h.here r hrel, textOf, hbuf, List.append_nil]
    · rw [if_neg hr] at hnone
      exact h.gone r hrelative hnone

end Upload

/-! ## Every call writes its line once -/

/-- What a task knows: of a call of `log_line` how far it is, of the upload which file it has
seen. -/
inductive LogKnow where
  | idle
  | called
  | holding (e : LogEntry)
  | done
  | file (rel : Text)
deriving DecidableEq, Inhabited

/-- Which sections a task may name. -/
def logContract (t : LogTask) : Program.Contract LogOp LogOp.Res LogKnow Unit where
  ok g o :=
    match t, o with
    | .logger n, .now call _ _ => g = .called ∧ call = n
    | .logger _, .writeLine e => g = .holding e
    | .logger _, .send _ => True
    | .flusher, .flush => True
    | .scanner, .today => True
    | .scanner, .readDir => True
    | .scanner, .send _ => True
    | .worker, .recv => True
    | .worker, .isFile _ => True
    | .worker, .fromPath _ => True
    | .worker, .putObject rel _ => g = .file rel
    | .worker, .removeFile rel => g = .file rel
    | _, _ => False
  ans _ _ := True
  note g
    | .now call stream line => fun date => .holding ⟨call, stream, date, line⟩
    | .writeLine _ => fun _ => .done
    | .isFile rel => fun isFile => if isFile then .file rel else g
    | .removeFile _ => fun _ => .idle
    | .flush => fun _ => g
    | .send _ => fun _ => g
    | .today => fun _ => g
    | .readDir => fun _ => g
    | .recv => fun _ => g
    | .fromPath _ => fun _ => g
    | .putObject .. => fun _ => g
  post g _ := ∀ e, g ≠ .holding e

theorem safe_logLine (cfg : EventLogConfig) (call : Nat) (stream : LogStream) (line : Text) :
    (logLine cfg call stream line).Safe (logContract (.logger call)) .called := by
  unfold logLine
  split
  · intro e h
    cases h
  · refine ⟨⟨rfl, rfl⟩, fun date _ => ⟨rfl, ?_⟩⟩
    rintro (_ | rotated) _
    · intro e h
      cases h
    · simp only
      split
      · exact ⟨trivial, fun _ _ e h => by cases h⟩
      · intro e h
        cases h

theorem safe_flush : (Program.act .flush .ret : LogProg).Safe (logContract .flusher) .idle :=
  ⟨trivial, fun _ _ e h => by cases h⟩

theorem safe_scan : scanAndEnqueueBacklog.Safe (logContract .scanner) .idle := by
  refine ⟨trivial, fun today _ => ⟨trivial, fun seen _ => ?_⟩⟩
  simp only
  split
  · intro e h
    cases h
  · exact ⟨trivial, fun _ _ e h => by cases h⟩

theorem safe_uploadOne (cfg : EventLogConfig) (rel : Text) {g : LogKnow} (hg : ∀ e, g ≠ .holding e) :
    (uploadOne cfg rel).Safe (logContract .worker) g := by
  refine ⟨trivial, ?_⟩
  rintro (_ | _) _
  · exact hg
  · refine ⟨trivial, ?_⟩
    rintro (_ | body) _
    · intro e h
      cases h
    · refine ⟨rfl, fun _ _ => ?_⟩
      simp only
      split
      · exact ⟨rfl, fun _ _ e h => by cases h⟩
      · intro e h
        cases h

theorem safe_uploadBatch (cfg : EventLogConfig) (batch : List Text) {g : LogKnow}
    (hg : ∀ e, g ≠ .holding e) : (uploadBatch cfg batch).Safe (logContract .worker) g := by
  induction batch generalizing g with
  | nil => exact hg
  | cons rel batch ih =>
    refine Program.Safe.bind (Q := fun g _ => ∀ e, g ≠ .holding e) ?_ fun g _ hg => ih hg
    exact (safe_uploadOne cfg rel hg).mono fun _ _ h => h

theorem safe_uploadWorker (cfg : EventLogConfig) :
    (uploadWorker cfg).Safe (logContract .worker) .idle :=
  ⟨trivial, fun batch _ => safe_uploadBatch cfg batch fun e h => by cases h⟩

/-- Every line passed to `log_line` has been written once, or is still held by its call. -/
structure Accounted (s : EventLog) (know : LogTask → LogKnow) : Prop where
  once : (s.passed.map LogEntry.call).Nodup
  passed : ∀ e ∈ s.passed, know (.logger e.call) = .holding e ∨
    (know (.logger e.call) = .done ∧ e ∈ s.written)
  written : ∀ e ∈ s.written, e ∈ s.passed ∧ know (.logger e.call) = .done
  writtenOnce : s.written.Nodup
  held : ∀ n e, know (.logger n) = .holding e → e.call = n ∧ e ∈ s.passed

theorem accounted_new (files : Files) (today : Date) :
    Accounted (.new files today) fun _ => default where
  once := List.nodup_nil
  passed e he := by simp [EventLog.new] at he
  written e he := by simp [EventLog.new] at he
  writtenOnce := List.nodup_nil
  held n e h := by cases h

section Account

variable {s s' : EventLog} {know : LogTask → LogKnow}

/-- What the accounts are about. -/
theorem Accounted.of_eq (h : Accounted s know) (hp : s'.passed = s.passed)
    (hw : s'.written = s.written) : Accounted s' know := by
  refine ⟨?_, ?_, ?_, ?_, ?_⟩
  · rw [hp]; exact h.once
  · rw [hp, hw]; exact h.passed
  · rw [hp, hw]; exact h.written
  · rw [hw]; exact h.writtenOnce
  · rw [hp]; exact h.held

/-- A task that does not log learns nothing the accounts are about. -/
theorem Accounted.update (h : Accounted s know) {t : LogTask} (ht : ∀ n, t ≠ .logger n)
    (g : LogKnow) : Accounted s (Function.update know t g) := by
  have hsame : ∀ n, Function.update know t g (.logger n) = know (.logger n) :=
    fun n => Function.update_of_ne (Ne.symm (ht n)) _ _
  refine ⟨h.once, fun e he => ?_, fun e he => ?_, h.writtenOnce, fun n e he => ?_⟩
  · rw [hsame]; exact h.passed e he
  · rw [hsame]; exact h.written e he
  · rw [hsame] at he; exact h.held n e he

theorem accounted_call (h : Accounted s know) {n : Nat} (hn : know (.logger n) = .idle) :
    Accounted s (Function.update know (.logger n) .called) := by
  -- no line of this call has been passed yet
  have hne : ∀ e ∈ s.passed, e.call ≠ n := by
    intro e he heq
    rcases h.passed e he with hk | ⟨hk, -⟩
    · rw [heq, hn] at hk; cases hk
    · rw [heq, hn] at hk; cases hk
  have hsame : ∀ e ∈ s.passed, Function.update know (.logger n) .called (.logger e.call)
      = know (.logger e.call) := by
    intro e he
    refine Function.update_of_ne (fun heq => hne e he ?_) _ _
    injection heq
  refine ⟨h.once, fun e he => ?_, fun e he => ?_, h.writtenOnce, fun m e he => ?_⟩
  · rw [hsame e he]; exact h.passed e he
  · rw [hsame e (h.written e he).1]; exact h.written e he
  · by_cases hm : m = n
    · rw [hm, Function.update_self] at he
      cases he
    · have hne' : LogTask.logger m ≠ .logger n := fun heq => hm (by injection heq)
      rw [Function.update_of_ne hne'] at he
      exact h.held m e he

theorem accounted_now (h : Accounted s know) {n : Nat} (hn : know (.logger n) = .called)
    {e : LogEntry} (he : e.call = n) :
    Accounted { s with passed := s.passed ++ [e] }
      (Function.update know (.logger n) (.holding e)) := by
  subst he
  have hne : ∀ e' ∈ s.passed, e'.call ≠ e.call := by
    intro e' he' heq
    rcases h.passed e' he' with hk | ⟨hk, -⟩
    · rw [heq, hn] at hk; cases hk
    · rw [heq, hn] at hk; cases hk
  have hsame : ∀ e' ∈ s.passed, Function.update know (.logger e.call) (.holding e) (.logger e'.call)
      = know (.logger e'.call) := by
    intro e' he'
    refine Function.update_of_ne (fun heq => hne e' he' ?_) _ _
    injection heq
  refine ⟨?_, fun e' he' => ?_, fun e' he' => ?_, h.writtenOnce, fun m e' he' => ?_⟩
  · rw [List.map_append, List.nodup_append]
    refine ⟨h.once, List.nodup_singleton _, ?_⟩
    intro c hc c' hc' heq
    obtain ⟨e', he', rfl⟩ := List.mem_map.mp hc
    rw [List.map_singleton, List.mem_singleton] at hc'
    exact hne e' he' (heq.trans hc')
  · rcases List.mem_append.mp he' with he' | he'
    · rw [hsame e' he']; exact h.passed e' he'
    · rw [List.mem_singleton.mp he', Function.update_self]
      exact Or.inl rfl
  · obtain ⟨hp, hk⟩ := h.written e' he'
    rw [hsame e' hp]
    exact ⟨List.mem_append_left _ hp, hk⟩
  · by_cases hm : m = e.call
    · subst hm
      rw [Function.update_self] at he'
      cases he'
      exact ⟨rfl, List.mem_append_right _ (List.mem_singleton.mpr rfl)⟩
    · have hne' : LogTask.logger m ≠ .logger e.call := fun heq => hm (by injection heq)
      rw [Function.update_of_ne hne'] at he'
      obtain ⟨hc, hp⟩ := h.held m e' he'
      exact ⟨hc, List.mem_append_left _ hp⟩

theorem accounted_write (h : Accounted s know) {n : Nat} {e : LogEntry}
    (hn : know (.logger n) = .holding e) :
    Accounted { s with written := s.written ++ [e] } (Function.update know (.logger n) .done) := by
  obtain ⟨rfl, hp⟩ := h.held n e hn
  have hnot : e ∉ s.written := by
    intro he
    have := (h.written e he).2
    rw [hn] at this
    cases this
  -- the other lines belong to other calls
  have hother : ∀ e' ∈ s.passed, e' ≠ e → e'.call ≠ e.call := fun e' he' hne heq =>
    hne (List.inj_on_of_nodup_map h.once he' hp heq)
  have hsame : ∀ e' ∈ s.passed, e' ≠ e →
      Function.update know (.logger e.call) .done (.logger e'.call) = know (.logger e'.call) := by
    intro e' he' hne
    refine Function.update_of_ne (fun heq => hother e' he' hne ?_) _ _
    injection heq
  refine ⟨h.once, fun e' he' => ?_, fun e' he' => ?_, ?_, fun m e' he' => ?_⟩
  · by_cases hee : e' = e
    · rw [hee, Function.update_self]
      exact Or.inr ⟨rfl, List.mem_append_right _ (List.mem_singleton.mpr rfl)⟩
    · rw [hsame e' he' hee]
      exact (h.passed e' he').imp id fun ⟨hk, hw⟩ => ⟨hk, List.mem_append_left _ hw⟩
  · rcases List.mem_append.mp he' with he' | he'
    · obtain ⟨hp', hk⟩ := h.written e' he'
      rw [hsame e' hp' (fun heq => hnot (heq ▸ he'))]
      exact ⟨hp', hk⟩
    · rw [List.mem_singleton.mp he', Function.update_self]
      exact ⟨hp, rfl⟩
  · rw [List.nodup_append]
    refine ⟨h.writtenOnce, List.nodup_singleton _, ?_⟩
    intro e' he' e'' he'' heq
    rw [List.mem_singleton] at he''
    exact hnot (he'' ▸ heq ▸ he')
  · by_cases hm : m = e.call
    · rw [hm, Function.update_self] at he'
      cases he'
    · have hne' : LogTask.logger m ≠ .logger e.call := fun heq => hm (by injection heq)
      rw [Function.update_of_ne hne'] at he'
      exact h.held m e' he'

end Account

/-! ## Runs -/

/-- The invariant of the log: all text is kept, every call is accounted for, and the file that the
upload has seen is still there. -/
structure LogSound (cfg : EventLogConfig) (files₀ : Files) (s : EventLog)
    (know : LogTask → LogKnow) : Prop where
  kept : Kept cfg files₀ s
  accounted : Accounted s know
  seen : ∀ rel, know .worker = .file rel → (s.files.names.lookup rel).isSome

section Run

variable {cfg : EventLogConfig} {files₀ : Files} {s : EventLog} {know : LogTask → LogKnow}

theorem update_logger_worker (n : Nat) (g : LogKnow) :
    Function.update know (.logger n) g .worker = know .worker :=
  Function.update_of_ne (fun h => by cases h) _ _

/-- What the kept texts are about. -/
theorem Kept.of_eq {s' : EventLog} (h : Kept cfg files₀ s) (hf : s'.files = s.files)
    (hw : s'.writer = s.writer) (ho : s'.objects = s.objects) (hwr : s'.written = s.written) :
    Kept cfg files₀ s' := by
  obtain ⟨files, writer, queue, objects, passed, written⟩ := s'
  simp only at hf hw ho hwr
  subst hf hw ho hwr
  exact ⟨h.relative, h.attached, h.here, h.gone⟩

theorem LogSound.ofUpdate (h : LogSound cfg files₀ s know) (t : LogTask) :
    LogSound cfg files₀ s (Function.update know t (know t)) := by
  rw [Function.update_eq_self]
  exact h

/-- A section that only moves the queue. -/
theorem LogSound.queue (h : LogSound cfg files₀ s know) (t : LogTask) (queue : List (List Text)) :
    LogSound cfg files₀ { s with queue } (Function.update know t (know t)) := by
  rw [Function.update_eq_self]
  exact ⟨h.kept.of_eq rfl rfl rfl rfl, h.accounted.of_eq rfl rfl, h.seen⟩

/-- What the uploader knows of a file it has looked for. -/
theorem sound_isFile (h : LogSound cfg files₀ s know) (rel : Text) :
    LogSound cfg files₀ s (Function.update know .worker
      (if s.files.exists? rel then .file rel else know .worker)) := by
  split
  · next hfile =>
    refine ⟨h.kept, h.accounted.update (fun n h => by cases h) _, fun rel' hrel => ?_⟩
    rw [Function.update_self] at hrel
    cases hrel
    exact hfile
  · exact h.ofUpdate .worker

theorem sound_removeFile (h : LogSound cfg files₀ s know) {rel : Text}
    (hseen : (s.files.names.lookup rel).isSome)
    (hok : ((s.writer.openFiles.lookup rel).map BufWriter.buf).getD [] = [] ∧
      s.object cfg rel = s.files.read rel) :
    LogSound cfg files₀ { s with files := s.files.remove rel }
      (Function.update know .worker .idle) := by
  refine ⟨kept_removeFile h.kept hseen hok.1 hok.2, ?_, fun rel' hrel => ?_⟩
  · exact Accounted.update (s := { s with files := s.files.remove rel }) (t := .worker)
      (h.accounted.of_eq rfl rfl) (fun n h => by cases h) _
  · rw [Function.update_self] at hrel
    cases hrel

theorem sound_writeLine (h : LogSound cfg files₀ s know) {n : Nat} {e : LogEntry}
    (hn : know (.logger n) = .holding e)
    (hok : (s.files.names.lookup e.rel).isSome ∨ s.object cfg e.rel = none) (flushDue : Bool)
    (order : List Text) :
    let x := s.writer.writeLine s.files flushDue order e.date e.rel e.line
    LogSound cfg files₀ { s with writer := x.2.1, files := x.2.2, written := s.written ++ [e] }
      (Function.update know (.logger n) .done) := by
  intro x
  have hw : Wrote (fun rel => (s.object cfg rel).isSome) s.writer s.files x.2.1 x.2.2 e.rel
      (LocalWriter.lineText e.line) :=
    wrote_writeLine h.kept.attached (hok.imp id (fun hn => by simp [hn])) flushDue order e.date e.line
  refine ⟨kept_writeLine h.kept hok flushDue order, ?_, fun rel hrel => ?_⟩
  · exact (accounted_write h.accounted hn).of_eq rfl rfl
  · rw [update_logger_worker] at hrel
    by_cases hr : rel = e.rel
    · rw [hr]
      exact hw.here
    · rw [hw.names rel hr]
      exact h.seen rel hrel

/-- **Every section keeps the invariant**, as far as the condition allows it. -/
theorem log_effect {w : LogPool} {t : LogTask} {env : LogEnv} {o : LogOp} {r : o.Res} {s' : EventLog}
    (h : LogSound cfg files₀ w.shared know) (hok : LogMoveOk cfg w (.run t env))
    (hsec : w.section? (.run t env : Move LogTask LogEnv LogCall) = some o)
    (hmay : (logContract t).ok (know t) o) (he : logEffect cfg o env w.shared = some (r, s')) :
    LogSound cfg files₀ s' (Function.update know t ((logContract t).note (know t) o r)) := by
  simp only [LogMoveOk, hsec] at hok
  cases o with
  | now call stream line =>
    cases t with
    | logger n =>
      obtain ⟨hn, rfl⟩ := hmay
      cases he
      refine ⟨h.kept.of_eq rfl rfl rfl rfl, accounted_now h.accounted hn rfl, fun rel hrel => ?_⟩
      rw [update_logger_worker] at hrel
      exact h.seen rel hrel
    | _ => exact hmay.elim
  | writeLine e =>
    cases t with
    | logger n =>
      simp only [logEffect] at he
      split at he
      · cases he
        exact sound_writeLine h hmay hok env.flushDue env.order
      · cases he
    | _ => exact hmay.elim
  | flush =>
    cases he
    refine LogSound.ofUpdate ⟨kept_flush h.kept, h.accounted.of_eq rfl rfl, fun rel hrel => ?_⟩ t
    rw [(settles_flushAll h.kept.attached).names]
    exact h.seen rel hrel
  | send rels =>
    simp only [logEffect] at he
    split at he
    · cases he
      exact h.queue t _
    · cases he
  | today =>
    cases he
    exact h.ofUpdate t
  | readDir =>
    simp only [logEffect] at he
    split at he
    · cases he
      exact h.ofUpdate t
    · cases he
  | recv =>
    simp only [logEffect] at he
    split at he
    · cases he
    · cases he
      exact h.queue t _
  | isFile rel =>
    cases t with
    | worker =>
      cases he
      exact sound_isFile h rel
    | _ => exact hmay.elim
  | fromPath rel =>
    cases he
    exact h.ofUpdate t
  | putObject rel body =>
    cases t with
    | worker =>
      cases he
      have hseen := h.seen rel hmay
      exact LogSound.ofUpdate ⟨kept_putObject h.kept hseen body, h.accounted.of_eq rfl rfl, h.seen⟩ _
    | _ => exact hmay.elim
  | removeFile rel =>
    cases t with
    | worker =>
      cases he
      exact sound_removeFile h (h.seen rel hmay) hok
    | _ => exact hmay.elim

/-- A call starts a task that keeps its contract. -/
theorem log_start {t : LogTask} {c : LogCall} {prev : Option LogProg} {p : LogProg}
    (h : LogSound cfg files₀ s know) (hfresh : prev = none → know t = .idle)
    (hp : logStart cfg t c prev = some p) :
    ∃ g, LogSound cfg files₀ s (Function.update know t g) ∧ p.Safe (logContract t) g := by
  have hidle : ∀ t', (∀ n, t' ≠ .logger n) →
      LogSound cfg files₀ s (Function.update know t' .idle) := by
    intro t' ht'
    refine ⟨h.kept, h.accounted.update ht' _, fun rel hrel => h.seen rel ?_⟩
    by_cases hw : t' = .worker
    · rw [hw, Function.update_self] at hrel
      cases hrel
    · rwa [Function.update_of_ne (Ne.symm hw)] at hrel
  unfold logStart at hp
  split at hp
  · cases hp
    refine ⟨.called, ⟨h.kept, accounted_call h.accounted (hfresh rfl), fun rel hrel => ?_⟩,
      safe_logLine cfg _ _ _⟩
    rw [update_logger_worker] at hrel
    exact h.seen rel hrel
  · cases hp
  · split at hp
    · cases hp
      exact ⟨.idle, hidle _ (fun n h => by cases h), safe_flush⟩
    · cases hp
  · split at hp
    · cases hp
      exact ⟨.idle, hidle _ (fun n h => by cases h), safe_scan⟩
    · cases hp
  · split at hp
    · cases hp
      exact ⟨.idle, hidle _ (fun n h => by cases h), safe_uploadWorker cfg⟩
    · cases hp
  · cases hp

theorem log_keeps : Pool.Keeps (eventLog cfg) logContract (LogSound cfg files₀) (LogMoveOk cfg) where
  start h _ hp := log_start h.shared (fun hnone => h.fresh _ hnone) hp
  effect h hok hsec hmay he := ⟨trivial, log_effect h.shared hok hsec hmay he⟩

/-! ## The final flush and upload -/

/-- Uploading one file after the other. -/
theorem foldl_upload {f : Files} (es : List (Sigma fun _ : Text => Nat)) (hnd : es.NodupKeys)
    (hrel : ∀ e ∈ es, IsRelative e.1) (objects : Table Text Text) {rel : Text} (hr : IsRelative rel) :
    (es.foldl (fun objects e => objects.insert (joinPrefix cfg.s3Prefix e.1) (f.data e.2))
      objects).lookup (joinPrefix cfg.s3Prefix rel)
      = ((es.dlookup rel).map f.data).or (objects.lookup (joinPrefix cfg.s3Prefix rel)) := by
  induction es generalizing objects with
  | nil => rfl
  | cons e es ih =>
    obtain ⟨k, i⟩ := e
    obtain ⟨hk, hnd⟩ := List.nodupKeys_cons.mp hnd
    rw [List.foldl_cons, ih hnd (fun e he => hrel e (List.mem_cons_of_mem _ he)),
      Table.lookup_insert_eq]
    by_cases hkr : rel = k
    · subst hkr
      rw [if_pos rfl, List.dlookup_cons_eq, List.dlookup_eq_none.mpr hk]
      rfl
    · have hkey : joinPrefix cfg.s3Prefix rel ≠ joinPrefix cfg.s3Prefix k := fun heq =>
        hkr (joinPrefix_inj hr (hrel _ List.mem_cons_self) heq)
      rw [if_neg hkey, List.dlookup_cons_ne es (⟨k, i⟩ : Sigma fun _ : Text => Nat) hkr]

/-- **When everything is flushed and uploaded, every object is whole.** -/
theorem settled_whole (h : Kept cfg files₀ s) {rel : Text} (hr : IsRelative rel) :
    ((s.settled cfg).lookup (joinPrefix cfg.s3Prefix rel)).getD [] = s.whole files₀ rel := by
  have hnames : (s.writer.flushAll s.files).2.names = s.files.names := flushAll_names
  have hrel : ∀ e ∈ (s.writer.flushAll s.files).2.names.entries, IsRelative e.1 := by
    intro e he
    rw [hnames] at he
    exact h.relative e.1 (by rw [Table.lookup_eq_some_iff.mpr he]; rfl)
  rw [EventLog.settled, foldl_upload _ (AList.nodupKeys _) hrel _ hr]
  have hlook : (s.writer.flushAll s.files).2.names.entries.dlookup rel = s.files.names.lookup rel := by
    rw [hnames]
    rfl
  rw [hlook]
  cases hi : s.files.names.lookup rel with
  | none => exact h.gone rel hr hi
  | some i =>
    have hread := read_flushAll h.attached rel
    rw [Files.read, hnames, hi] at hread
    rw [← h.here rel (by rw [hi]; rfl), ← hread]
    rfl

/-! ## Calls that were made -/

/-- A call of `log_line` has not read the clock yet, or its line has been passed. -/
def CallMade (cfg : EventLogConfig) (n : Nat) (stream : LogStream) (line : Text) (w : LogPool) : Prop :=
  w.task (.logger n) = some (logLine cfg n stream line) ∨
    ∃ date, (⟨n, stream, date, line⟩ : LogEntry) ∈ w.shared.passed

/-- Passed lines stay passed. -/
theorem passed_mono {o : LogOp} {env : LogEnv} {s s' : EventLog} {r : o.Res}
    (h : logEffect cfg o env s = some (r, s')) {e : LogEntry} (he : e ∈ s.passed) : e ∈ s'.passed := by
  cases o with
  | now call stream line =>
    cases h
    exact List.mem_append_left _ he
  | writeLine e' =>
    simp only [logEffect] at h
    split at h
    · cases h
      exact he
    · cases h
  | send rels =>
    simp only [logEffect] at h
    split at h
    · cases h
      exact he
    · cases h
  | readDir =>
    simp only [logEffect] at h
    split at h
    · cases h
      exact he
    · cases h
  | recv =>
    simp only [logEffect] at h
    split at h
    · cases h
    · cases h
      exact he
  | _ => cases h; exact he

theorem callMade_step (hon : cfg.enabled = true) {n : Nat} {stream : LogStream} {line : Text}
    {w w' : LogPool} {m : Move LogTask LogEnv LogCall} (h : CallMade cfg n stream line w)
    (hs : Pool.step (eventLog cfg) w m = some w') : CallMade cfg n stream line w' := by
  obtain ⟨next, hlog⟩ : ∃ next : Date → Option (List Text) → LogProg, logLine cfg n stream line =
      .act (.now n stream line) fun date => .act (.writeLine ⟨n, stream, date, line⟩) (next date) := by
    rw [logLine, hon, if_neg (by simp)]
    exact ⟨_, rfl⟩
  rcases Pool.step_cases hs with ⟨t, c, p, rfl, hp, -, rfl⟩ | ⟨t, env, o, next, r, s', rfl, ht, -, he, rfl⟩
  · rcases h with h | h
    · left
      by_cases htn : t = .logger n
      · -- a call that is on its way is not called again
        subst htn
        rw [h, hlog] at hp
        cases c <;> cases hp
      · rw [← h]
        exact Function.update_of_ne (Ne.symm htn) _ _
    · exact Or.inr h
  · rcases h with h | ⟨date, h⟩
    · by_cases htn : t = .logger n
      · subst htn
        rw [h, hlog] at ht
        cases ht
        cases he
        exact Or.inr ⟨env.now, List.mem_append_right _ (List.mem_singleton.mpr rfl)⟩
      · left
        rw [← h]
        exact Function.update_of_ne (Ne.symm htn) _ _
    · exact Or.inr ⟨date, passed_mono he h⟩

theorem callMade_of_mem (hon : cfg.enabled = true) {n : Nat} {stream : LogStream} {line : Text}
    {ms : List (Move LogTask LogEnv LogCall)} {w w' : LogPool}
    (hex : exec (Pool.step (eventLog cfg)) w ms = some w')
    (hm : .call (.logger n) (.logLine stream line) ∈ ms) : CallMade cfg n stream line w' := by
  obtain ⟨before, after, rfl⟩ := List.append_of_mem hm
  obtain ⟨w₁, -, hex⟩ := exec_append.mp hex
  obtain ⟨w₂, hcall, hex⟩ := exec_cons.mp hex
  have hmade : CallMade cfg n stream line w₂ := by
    rcases Pool.step_cases hcall with ⟨t, c, p, hmv, hp, -, rfl⟩ | ⟨t, env, o, next, r, s', hmv, -⟩
    · cases hmv
      left
      refine (Function.update_self _ _ _).trans ?_
      cases htask : w₁.task (.logger n) with
      | none =>
        rw [htask] at hp
        exact hp.symm
      | some p' =>
        rw [htask] at hp
        cases p' <;> cases hp
    · cases hmv
  have hall : Along (Pool.step (eventLog cfg)) (fun _ _ => True) w₂ after :=
    along_of_forall (fun _ _ => trivial) _ _
  exact exec_invariant (I := CallMade cfg n stream line)
    (fun hi _ hs => callMade_step hon hi hs) hmade hall hex

end Run

/-- The lines written to a stream on a day, in the order of the writes. -/
def EventLog.linesOf (s : EventLog) (stream : LogStream) (date : Date) : List Text :=
  (s.written.filter fun e => e.stream.trimmed = stream.trimmed ∧ e.date = date).map LogEntry.line

theorem writtenTo_objectRelpath (s : EventLog) (stream : LogStream) (date : Date) :
    s.writtenTo (objectRelpath stream date)
      = ((s.linesOf stream date).map LocalWriter.lineText).flatten := by
  have hfilter : (s.written.filter fun e => e.rel = objectRelpath stream date)
      = s.written.filter fun e => e.stream.trimmed = stream.trimmed ∧ e.date = date :=
    List.filter_congr fun e _ => decide_eq_decide.mpr objectRelpath_eq_iff
  rw [EventLog.writtenTo, EventLog.linesOf, hfilter, List.map_map]
  rfl

/-- No task has anything left to do. -/
def AllDone (w : LogPool) : Prop := ∀ t p, w.task t = some p → ∃ u, p = .ret u

/-- **No logged line is lost**, in any run in which no line is written to a path whose file has been
uploaded and removed, and no file is removed while bytes are held back or the object does not hold
all of it. After a final flush and upload the object of a stream and day holds what its file held
at the start and then the lines written to it, in the order of the writes. Every call writes its
line at most once; once all calls are over, exactly the lines passed to `log_line` are written. -/
theorem logged_lines_uploaded (cfg : EventLogConfig) (files₀ : Files) (today : Date)
    (hrel : ∀ rel, (files₀.names.lookup rel).isSome → IsRelative rel)
    (ms : List (Move LogTask LogEnv LogCall)) (w : LogPool)
    (hex : exec (Pool.step (eventLog cfg)) (LogPool.init files₀ today) ms = some w)
    (hal : Along (Pool.step (eventLog cfg)) (LogMoveOk cfg) (LogPool.init files₀ today) ms) :
    (∀ stream date,
      ((w.shared.settled cfg).lookup (joinPrefix cfg.s3Prefix (objectRelpath stream date))).getD []
        = (files₀.read (objectRelpath stream date)).getD []
          ++ ((w.shared.linesOf stream date).map LocalWriter.lineText).flatten) ∧
    (w.shared.written.map LogEntry.call).Nodup ∧
    (AllDone w → w.shared.written.Perm w.shared.passed ∧
      (cfg.enabled = true → ∀ n stream line, .call (.logger n) (.logLine stream line) ∈ ms →
        ∃ date, (⟨n, stream, date, line⟩ : LogEntry) ∈ w.shared.written)) := by
  have h0 : Pool.Sound logContract (LogSound cfg files₀) (LogPool.init files₀ today)
      (fun _ => default) :=
    ⟨⟨kept_new hrel, accounted_new _ _, fun rel hk => by cases hk⟩, fun t p hp => (by cases hp),
      fun _ _ => rfl⟩
  obtain ⟨know, h⟩ := Pool.pool_invariant log_keeps ⟨_, h0⟩ hal hex
  obtain ⟨⟨hkept, hacc, -⟩, hsafe, hfresh⟩ := h
  refine ⟨fun stream date => ?_, ?_, fun hdone => ?_⟩
  · rw [settled_whole hkept (isRelative_objectRelpath stream date), EventLog.whole,
      writtenTo_objectRelpath]
  · refine (List.nodup_map_iff_inj_on hacc.writtenOnce).mpr fun e he e' he' heq => ?_
    exact List.inj_on_of_nodup_map hacc.once (hacc.written e he).1 (hacc.written e' he').1 heq
  · -- a call that is over holds no line
    have hwritten : ∀ e ∈ w.shared.passed, e ∈ w.shared.written := by
      intro e he
      rcases hacc.passed e he with hhold | ⟨-, hw⟩
      · exfalso
        cases ht : w.task (.logger e.call) with
        | none =>
          rw [hfresh _ ht] at hhold
          cases hhold
        | some p =>
          obtain ⟨u, rfl⟩ := hdone _ _ ht
          exact hsafe _ _ ht e hhold
      · exact hw
    refine ⟨?_, fun hon n stream line hm => ?_⟩
    · exact (List.perm_ext_iff_of_nodup hacc.writtenOnce hacc.once.of_map).mpr fun e =>
        ⟨fun he => (hacc.written e he).1, hwritten e⟩
    · rcases callMade_of_mem hon hex hm with htask | ⟨date, hp⟩
      · obtain ⟨u, hu⟩ := hdone _ _ htask
        rw [logLine, hon] at hu
        cases hu
      · exact ⟨date, hwritten _ hp⟩

/-! ## Two days -/

def logConfig : EventLogConfig where
  enabled := true
  s3Prefix := "slopmud/eventlog".toList
  uploadEnabled := true
  uploadDeleteLocal := true

def mayFirst : Date := ⟨2026, 5, 1⟩

def maySecond : Date := ⟨2026, 5, 2⟩

def allPath (day : Date) : Text := objectRelpath .all day

def callLog (n : Nat) (line : String) : Move LogTask LogEnv LogCall :=
  .call (.logger n) (.logLine .all line.toList)

/-- Run a section, with what the environment says. -/
def runLog (t : LogTask) (env : LogEnv) : Move LogTask LogEnv LogCall := .run t env

/-- One round of the upload worker on a batch of one file. -/
def uploadRound : List (Move LogTask LogEnv LogCall) :=
  [.call .worker .tick, runLog .worker {}, runLog .worker {}, runLog .worker {}, runLog .worker {},
    runLog .worker {}]

/-- A line on the first day, and one on the second, after which the first day's file is uploaded. -/
def quietNight : List (Move LogTask LogEnv LogCall) :=
  [callLog 0 "a", runLog (.logger 0) { now := mayFirst }, runLog (.logger 0) {},
    callLog 1 "b", runLog (.logger 1) { now := maySecond },
    runLog (.logger 1) { order := [allPath mayFirst] }, runLog (.logger 1) {}] ++ uploadRound

def logRun (ms : List (Move LogTask LogEnv LogCall)) : Option LogPool :=
  exec (Pool.step (eventLog logConfig)) (LogPool.init .empty mayFirst) ms

theorem logged_lines_uploaded_quietNight : ∃ w, logRun quietNight = some w ∧
    ((w.shared.settled logConfig).lookup
      (joinPrefix logConfig.s3Prefix (objectRelpath .all mayFirst))).getD []
      = (Files.empty.read (objectRelpath .all mayFirst)).getD []
        ++ ((w.shared.linesOf .all mayFirst).map LocalWriter.lineText).flatten := by
  have hrun : (logRun quietNight).isSome := by decide +kernel
  obtain ⟨w, hex⟩ := Option.isSome_iff_exists.mp hrun
  refine ⟨w, hex, ?_⟩
  exact (logged_lines_uploaded logConfig .empty mayFirst (fun rel h => by cases h) quietNight w hex
    (by decide +kernel)).1 .all mayFirst

/-- The clock is read before midnight for one line and after it for another, and the second line is
written first. The late line turns the day back, so the new day's file is uploaded and removed
while the new day goes on, and the upload at its end replaces the object. -/
def lateLine : List (Move LogTask LogEnv LogCall) :=
  [callLog 0 "late", runLog (.logger 0) { now := mayFirst },
    callLog 1 "new day", runLog (.logger 1) { now := maySecond }, runLog (.logger 1) {},
    runLog (.logger 1) {},
    runLog (.logger 0) { order := [allPath maySecond] }, runLog (.logger 0) {},
    .call .worker .tick, runLog .worker {}] ++ uploadRound ++
  [callLog 2 "later", runLog (.logger 2) { now := maySecond },
    runLog (.logger 2) { order := [allPath mayFirst] }, runLog (.logger 2) {}]

theorem late_line_loses_another : ∃ w, logRun lateLine = some w ∧
    w.shared.linesOf .all maySecond = ["new day".toList, "later".toList] ∧
    (w.shared.settled logConfig).lookup
      (joinPrefix logConfig.s3Prefix (objectRelpath .all maySecond)) = some "later\n".toList := by
  have hrun : (logRun lateLine).map (fun w => (w.shared.linesOf .all maySecond,
      (w.shared.settled logConfig).lookup
        (joinPrefix logConfig.s3Prefix (objectRelpath .all maySecond))))
      = some (["new day".toList, "later".toList], some "later\n".toList) := by decide +kernel
  obtain ⟨w, hex, hw⟩ := Option.map_eq_some_iff.mp hrun
  obtain ⟨hlines, hobj⟩ := Prod.mk.inj hw
  exact ⟨w, hex, hlines, hobj⟩

end Slopmud.Broker
