import Mathlib.Data.List.DropRight
import Mathlib.Logic.Equiv.List
import Mathlib.Tactic.DeriveEncodable
import Slopmud.Broker.Nearline
import Slopmud.Lib.Machine
import Slopmud.Lib.SegmentRing

/-!
# What the nearline ring keeps

A segment file holds whole lines only. Read from the segment after the current one round to
the current one, the files give the records that were written, in order, except for those of
the segments that were emptied; a stop between two file operations never changes that, since
the next segment is empty before the position moves to it. A segment with more than one
record was below the limit after the last of them.
-/

namespace Slopmud.Broker.Nearline

open Machine

variable {Raw : Type} {M : Codec Raw MetaFile} {J : LineCodec NearlineRecord} {cfg : NearlineConfig}

/-! ## Segments and their records -/

theorem oldestToNewest_eq (cur max : Nat) : oldestToNewest cur max = SegmentRing.walk max cur := rfl

theorem newestToOldest_eq (cur max : Nat) : newestToOldest cur max = (oldestToNewest cur max).reverse := by
  rw [oldestToNewest_eq, SegmentRing.walk_reverse]
  rfl

/-- Whole lines read back as their records. -/
theorem recordsOf_lines (rs : List NearlineRecord) :
    recordsOf J (Lines.unlines 10 (rs.map J.bytes)) = rs := by
  have henc : Lines.unlines 10 (rs.map J.bytes) = Utf8.encode (Lines.unlines '\n' (rs.map J.print)) := by
    induction rs with
    | nil => rfl
    | cons r rs ih =>
      have hnl : Utf8.encode (J.print r ++ ['\n']) = J.bytes r ++ [10] := by
        rw [Utf8.encode_append]
        rfl
      have hcons : ∀ {α : Type} (nl : α) (l : List α) (ls : List (List α)),
          Lines.unlines nl (l :: ls) = l ++ [nl] ++ Lines.unlines nl ls := fun _ _ _ => rfl
      rw [List.map_cons, List.map_cons, hcons, hcons, Utf8.encode_append, hnl, ih]
  have hlines : ∀ l ∈ rs.map J.print, Lines.IsLine '\n' '\r' l := by
    intro l hl
    obtain ⟨r, -, rfl⟩ := List.mem_map.mp hl
    exact J.print_isLine r
  rw [recordsOf, segmentLines, henc, Utf8.decodeLossy_encode, Lines.lines_unlines hlines,
    List.filterMap_map]
  have hparse : J.parse ∘ J.print = some := funext fun r => J.parse_print r
  rw [hparse, List.filterMap_some]

/-- A segment file holds whole lines, and is not too long unless it holds just one. -/
def SegmentOk (J : LineCodec NearlineRecord) (cfg : NearlineConfig) (bytes : Bytes) : Prop :=
  ∃ rs : List NearlineRecord, bytes = Lines.unlines 10 (rs.map J.bytes) ∧ (rs.length ≤ 1 ∨ bytes.length ≤ cfg.segMax)

namespace SegmentOk

theorem nil : SegmentOk J cfg [] := ⟨[], rfl, .inl (Nat.zero_le 1)⟩

theorem append_line {bytes : Bytes} {rec : NearlineRecord} (h : SegmentOk J cfg bytes)
    (hlen : bytes.length = 0 ∨ (bytes ++ line J rec).length ≤ cfg.segMax) :
    SegmentOk J cfg (bytes ++ line J rec) := by
  obtain ⟨rs, rfl, -⟩ := h
  refine ⟨rs ++ [rec], by simp [line], ?_⟩
  rcases hlen with hempty | hle
  · left
    cases rs with
    | nil => simp
    | cons r rs => simp [Lines.unlines] at hempty
  · exact .inr hle

theorem records_append {bytes : Bytes} (rec : NearlineRecord) (h : SegmentOk J cfg bytes) :
    recordsOf J (bytes ++ line J rec) = recordsOf J bytes ++ [rec] := by
  obtain ⟨rs, rfl, -⟩ := h
  have hwhole : Lines.unlines 10 (rs.map J.bytes) ++ line J rec
      = Lines.unlines 10 ((rs ++ [rec]).map J.bytes) := by simp [line]
  rw [hwhole, recordsOf_lines, recordsOf_lines]

theorem short {bytes : Bytes} (h : SegmentOk J cfg bytes) (hmany : 1 < (recordsOf J bytes).length) :
    bytes.length ≤ cfg.segMax := by
  obtain ⟨rs, rfl, hlen⟩ := h
  rw [recordsOf_lines] at hmany
  exact hlen.resolve_left (by omega)

end SegmentOk

/-! ## The directory -/

namespace Dir

variable {dir : Dir Raw}

theorem segment_setSegment (seg : Nat) (bytes : Bytes) :
    (dir.setSegment seg bytes).segment = Function.update dir.segment seg bytes := by
  funext k
  rw [segment, setSegment, Table.lookup_insert_eq, Function.update_apply]
  split <;> rfl

@[simp] theorem readMeta_setSegment (seg : Nat) (bytes : Bytes) :
    (dir.setSegment seg bytes).readMeta M = dir.readMeta M := rfl

theorem renameTmp_of_print {m : MetaFile} (h : dir.tmpFile = some (M.print m)) :
    dir.renameTmp.readMeta M = m ∧ dir.renameTmp.segment = dir.segment := by
  rw [renameTmp, h]
  exact ⟨by simp [readMeta], rfl⟩

end Dir

/-- What the segments hold. -/
def held (J : LineCodec NearlineRecord) (dir : Dir Raw) (seg : Nat) : List NearlineRecord :=
  recordsOf J (dir.segment seg)

theorem readAll_eq (dir : Dir Raw) :
    readAll M J cfg dir = SegmentRing.read cfg.segments (dir.readMeta M).curSeg (held J dir) := rfl

theorem held_setSegment (dir : Dir Raw) (seg : Nat) (bytes : Bytes) :
    held J (dir.setSegment seg bytes) = Function.update (held J dir) seg (recordsOf J bytes) := by
  funext k
  rw [held, Dir.segment_setSegment, Function.update_apply, Function.update_apply]
  split <;> rfl

/-! ## The invariant -/

/-- What the writer knows of the files in each phase. -/
def PhaseOk (M : Codec Raw MetaFile) (J : LineCodec NearlineRecord) (cfg : NearlineConfig)
    (dir : Dir Raw) : Phase → Prop
  | .down => True
  | .startTmp m | .startOpen m | .startLen m => m.curSeg = (dir.readMeta M).curSeg
  | .startRename m => m.curSeg = (dir.readMeta M).curSeg ∧ dir.tmpFile = some (M.print m)
  | .ready w => w.curSeg = (dir.readMeta M).curSeg ∧ w.curBytes = (dir.segment w.curSeg).length
  | .truncate w _ => w.curSeg = SegmentRing.next cfg.segments (dir.readMeta M).curSeg
  | .rotateTmp w _ =>
    w.curSeg = SegmentRing.next cfg.segments (dir.readMeta M).curSeg ∧ w.metaFile.curSeg = w.curSeg
      ∧ w.curBytes = 0 ∧ dir.segment w.curSeg = []
  | .rotateRename w _ =>
    (w.curSeg = SegmentRing.next cfg.segments (dir.readMeta M).curSeg ∧ w.metaFile.curSeg = w.curSeg
      ∧ w.curBytes = 0 ∧ dir.segment w.curSeg = []) ∧ dir.tmpFile = some (M.print w.metaFile)
  | .write w rec =>
    w.curSeg = (dir.readMeta M).curSeg ∧ w.curBytes = (dir.segment w.curSeg).length
      ∧ (w.curBytes = 0 ∨ Word.satAdd64 w.curBytes (line J rec).length ≤ cfg.segMax)

structure RingOk (M : Codec Raw MetaFile) (J : LineCodec NearlineRecord) (cfg : NearlineConfig)
    (s : NearlineRing Raw) : Prop where
  cur : (s.dir.readMeta M).curSeg < cfg.segments
  segment : ∀ seg, SegmentOk J cfg (s.dir.segment seg)
  reading : s.lost.flatMap (recordsOf J) ++ readAll M J cfg s.dir = s.written
  phase : PhaseOk M J cfg s.dir s.phase

namespace RingOk

theorem init : RingOk M J cfg (.init : NearlineRing Raw) := by
  refine ⟨?_, fun _ => SegmentOk.nil, ?_, trivial⟩
  · have hpos : 0 < cfg.segments := Nat.lt_of_lt_of_le Nat.one_pos (Nat.le_max_right _ _)
    exact hpos
  · have hempty : ∀ l : List Nat, l.flatMap (fun _ => recordsOf J []) = [] := by
      intro l
      rw [List.flatMap_eq_nil_iff]
      exact fun _ _ => recordsOf_lines []
    exact hempty _

variable {s s' : NearlineRing Raw}

/-- The files stay as they are, as far as a reader can tell. -/
theorem same (h : RingOk M J cfg s) {dir : Dir Raw} {p : Phase}
    (hmeta : (dir.readMeta M).curSeg = (s.dir.readMeta M).curSeg)
    (hseg : dir.segment = s.dir.segment) (hp : PhaseOk M J cfg dir p) :
    RingOk M J cfg { s with dir, phase := p } := by
  refine ⟨?_, ?_, ?_, hp⟩
  · exact hmeta ▸ h.cur
  · exact hseg ▸ h.segment
  · have hread : readAll M J cfg dir = readAll M J cfg s.dir := by
      have hheld : held J dir = held J s.dir := by
        funext k
        rw [held, hseg, held]
      rw [readAll_eq, readAll_eq, hmeta, hheld]
    rw [hread]
    exact h.reading

/-- The segment after the current one is emptied. -/
theorem truncated (h : RingOk M J cfg s) {w : Writer} {rec : NearlineRecord}
    (hphase : s.phase = .truncate w rec) (hs : s.fileStep M J = some s') : RingOk M J cfg s' := by
  have hw := h.phase
  rw [hphase] at hw
  rw [NearlineRing.fileStep, hphase, Option.some.injEq] at hs
  have hcur : w.curSeg = SegmentRing.next cfg.segments (s.dir.readMeta M).curSeg := hw
  subst hs
  refine ⟨h.cur, ?_, ?_, ?_⟩
  · intro seg
    rw [Dir.segment_setSegment, Function.update_apply]
    split
    · exact SegmentOk.nil
    · exact h.segment seg
  · have hclear := SegmentRing.read_clear h.cur (held J s.dir)
    have hnil : recordsOf J [] = [] := recordsOf_lines []
    have hreading := h.reading
    rw [readAll_eq, ← hclear] at hreading
    rw [readAll_eq, held_setSegment, hnil, Dir.readMeta_setSegment, List.flatMap_append,
      List.flatMap_singleton, List.append_assoc, hcur]
    exact hreading
  · refine ⟨hcur, rfl, rfl, ?_⟩
    rw [Dir.segment_setSegment, Function.update_self]

/-- The position moves to the empty segment. -/
theorem turned (h : RingOk M J cfg s) {w : Writer} {rec : NearlineRecord}
    (hphase : s.phase = .rotateRename w rec) (hs : s.fileStep M J = some s') : RingOk M J cfg s' := by
  have hw := h.phase
  rw [hphase] at hw
  obtain ⟨⟨hcur, hmeta, hbytes, hempty⟩, htmp⟩ := hw
  rw [NearlineRing.fileStep, hphase, Option.some.injEq] at hs
  obtain ⟨hread, hsegs⟩ := Dir.renameTmp_of_print htmp
  subst hs
  refine ⟨?_, ?_, ?_, ?_⟩
  · rw [hread, hmeta, hcur]
    exact SegmentRing.next_lt h.cur
  · rw [hsegs]
    exact h.segment
  · have hheld : held J s.dir.renameTmp = held J s.dir := by
      funext k
      rw [held, hsegs, held]
    have hnext : held J s.dir (SegmentRing.next cfg.segments (s.dir.readMeta M).curSeg) = [] := by
      rw [held, ← hcur, hempty]
      exact recordsOf_lines []
    rw [readAll_eq, hheld, hread, hmeta, hcur, SegmentRing.read_turn h.cur hnext]
    exact h.reading
  · refine ⟨?_, ?_, .inl hbytes⟩
    · rw [hread, hmeta]
    · rw [hsegs, hempty, hbytes]
      rfl

/-- A record is written into the current segment. -/
theorem wrote (h : RingOk M J cfg s) {w : Writer} {rec : NearlineRecord}
    (hphase : s.phase = .write w rec) (hs : s.fileStep M J = some s') : RingOk M J cfg s' := by
  have hw := h.phase
  rw [hphase] at hw
  obtain ⟨hcur, hbytes, hroom⟩ := hw
  rw [NearlineRing.fileStep, hphase] at hs
  dsimp only at hs
  split at hs
  · next hgrown =>
    rw [Option.some.injEq] at hs
    have hsum : Word.satAdd64 w.curBytes (line J rec).length
        = (s.dir.segment w.curSeg ++ line J rec).length := by
      rw [List.length_append] at hgrown ⊢
      rw [Word.satAdd64_of_lt (by rw [hbytes]; exact hgrown), hbytes]
    have hok : SegmentOk J cfg (s.dir.segment w.curSeg ++ line J rec) := by
      refine (h.segment w.curSeg).append_line ?_
      rw [← hbytes, ← hsum]
      exact hroom
    subst hs
    refine ⟨h.cur, ?_, ?_, ?_⟩
    · intro seg
      rw [Dir.segment_setSegment, Function.update_apply]
      split
      · exact hok
      · exact h.segment seg
    · have happend := SegmentRing.read_append h.cur (held J s.dir) [rec]
      rw [readAll_eq, held_setSegment, Dir.readMeta_setSegment, (h.segment w.curSeg).records_append,
        hcur]
      have hheld : recordsOf J (s.dir.segment (s.dir.readMeta M).curSeg) ++ [rec]
          = held J s.dir (s.dir.readMeta M).curSeg ++ [rec] := rfl
      rw [hheld, happend, ← List.append_assoc, ← readAll_eq, h.reading]
    · refine ⟨hcur, ?_⟩
      rw [Dir.segment_setSegment, Function.update_self]
      exact hsum
  · cases hs

theorem file (h : RingOk M J cfg s) (hs : s.fileStep M J = some s') : RingOk M J cfg s' := by
  have hw := h.phase
  cases hphase : s.phase with
  | down =>
    rw [NearlineRing.fileStep, hphase] at hs
    cases hs
  | startTmp m =>
    rw [hphase] at hw
    rw [NearlineRing.fileStep, hphase, Option.some.injEq] at hs
    subst hs
    exact h.same rfl rfl ⟨hw, rfl⟩
  | startRename m =>
    rw [hphase] at hw
    obtain ⟨hcur, htmp⟩ := hw
    obtain ⟨hread, hsegs⟩ := Dir.renameTmp_of_print htmp
    rw [NearlineRing.fileStep, hphase, Option.some.injEq] at hs
    subst hs
    refine h.same (by rw [hread, hcur]) hsegs ?_
    rw [PhaseOk, hread]
  | startOpen m =>
    rw [hphase] at hw
    rw [NearlineRing.fileStep, hphase, Option.some.injEq] at hs
    subst hs
    refine h.same rfl ?_ hw
    rw [Dir.segment_setSegment, Function.update_eq_self]
  | startLen m =>
    rw [hphase] at hw
    rw [NearlineRing.fileStep, hphase, Option.some.injEq] at hs
    subst hs
    exact h.same rfl rfl ⟨hw, rfl⟩
  | ready w =>
    rw [NearlineRing.fileStep, hphase] at hs
    cases hs
  | truncate w rec => exact h.truncated hphase hs
  | rotateTmp w rec =>
    rw [hphase] at hw
    rw [NearlineRing.fileStep, hphase, Option.some.injEq] at hs
    subst hs
    exact h.same rfl rfl ⟨hw, rfl⟩
  | rotateRename w rec => exact h.turned hphase hs
  | write w rec => exact h.wrote hphase hs

theorem start (h : RingOk M J cfg s) :
    RingOk M J cfg { s with phase := .startTmp (NearlineRing.startMeta M cfg s.dir) } := by
  refine h.same rfl rfl ?_
  rw [PhaseOk, NearlineRing.startMeta, if_neg (Nat.not_le.mpr h.cur)]

theorem recv (h : RingOk M J cfg s) {w : Writer} (hphase : s.phase = .ready w) (rec : NearlineRecord) :
    RingOk M J cfg { s with phase := NearlineRing.recv J cfg w rec } := by
  have hw := h.phase
  rw [hphase] at hw
  obtain ⟨hcur, hbytes⟩ := hw
  refine h.same rfl rfl ?_
  rw [NearlineRing.recv]
  split
  · have hnext : (w.curSeg + 1) % cfg.segments
        = SegmentRing.next cfg.segments (s.dir.readMeta M).curSeg := by
      rw [hcur, SegmentRing.next]
    exact hnext
  · next hfull => exact ⟨hcur, hbytes, by omega⟩

theorem step {a : Move} (h : RingOk M J cfg s) (hs : s.step M J cfg a = some s') : RingOk M J cfg s' := by
  cases a with
  | start =>
    rw [NearlineRing.step] at hs
    split at hs
    · rw [Option.some.injEq] at hs
      subst hs
      exact h.start
    · cases hs
  | file => exact h.file hs
  | recv rec =>
    rw [NearlineRing.step] at hs
    split at hs
    · next w hphase =>
      rw [Option.some.injEq] at hs
      subst hs
      exact h.recv hphase rec
    · cases hs
  | stop =>
    rw [NearlineRing.step, Option.some.injEq] at hs
    subst hs
    exact h.same rfl rfl trivial

end RingOk

/-! ## The last records of a name -/

/-- The records of one name. -/
def ofName (name : Text) (rs : List NearlineRecord) : List NearlineRecord := rs.filter fun r => r.name = name

/-- The lines of a segment add what they have, until there is enough. -/
theorem lastLines_eq (name : Text) {n : Nat} (ls : List Text) {out : List NearlineRecord}
    (hout : out.length < n) : lastLines J name n ls out
      = ((out ++ ofName name (ls.filterMap J.parse)).take n,
        decide (n ≤ (out ++ ofName name (ls.filterMap J.parse)).length)) := by
  induction ls generalizing out with
  | nil =>
    have hle : ¬ n ≤ out.length := by omega
    simp [lastLines, ofName, hle, List.take_of_length_le (Nat.le_of_lt hout)]
  | cons l ls ih =>
    rw [lastLines]
    cases hparse : J.parse l with
    | none => simp only [List.filterMap_cons, hparse, ih hout]
    | some r =>
      by_cases hname : r.name = name
      · by_cases hfull : n ≤ (out ++ [r]).length
        · have hlen : (out ++ [r]).length = n := by
            rw [List.length_append, List.length_singleton] at hfull ⊢
            omega
          have hcat : out ++ ofName name (r :: ls.filterMap J.parse)
              = out ++ [r] ++ ofName name (ls.filterMap J.parse) := by simp [ofName, hname]
          have hmore : n ≤ (out ++ [r] ++ ofName name (ls.filterMap J.parse)).length := by
            rw [List.length_append]
            omega
          simp only [List.filterMap_cons, hparse, hname, ne_eq, not_true_eq_false, if_false, hfull,
            if_true, hcat, hmore, decide_true]
          rw [List.take_append_of_le_length (Nat.le_of_eq hlen.symm), List.take_of_length_le]
          exact Nat.le_of_eq hlen
        · simp only [List.filterMap_cons, hparse, hname, ne_eq, not_true_eq_false, if_false, hfull,
            ih (Nat.lt_of_not_le hfull)]
          simp [ofName, hname]
      · simp only [List.filterMap_cons, hparse, hname, ne_eq, not_false_eq_true, if_true, ih hout]
        simp [ofName, hname]

/-- The segments in any order, each read from its end. -/
theorem lastSegs_eq (dir : Dir Raw) (name : Text) {n : Nat} (segs : List Nat)
    {out : List NearlineRecord} (hout : out.length < n) : lastSegs J dir name n segs out
      = ((out ++ ofName name (segs.flatMap fun seg => (held J dir seg).reverse)).take n).reverse := by
  induction segs generalizing out with
  | nil => simp [lastSegs, ofName, List.take_of_length_le (Nat.le_of_lt hout)]
  | cons seg segs ih =>
    have hcat : ofName name ((seg :: segs).flatMap fun seg => (held J dir seg).reverse)
        = ofName name (held J dir seg).reverse
          ++ ofName name (segs.flatMap fun seg => (held J dir seg).reverse) := by
      rw [List.flatMap_cons, ofName, List.filter_append]
      rfl
    rw [lastSegs, hcat]
    cases hfile : dir.segs.lookup seg with
    | none =>
      have hnone : held J dir seg = [] := by
        rw [held, Dir.segment, hfile]
        exact recordsOf_lines []
      rw [hnone, ih hout]
      rfl
    | some bytes =>
      have hheld : ofName name (held J dir seg).reverse
          = ofName name ((segmentLines bytes).reverse.filterMap J.parse) := by
        rw [held, Dir.segment, hfile, Option.getD_some, recordsOf, List.filterMap_reverse]
      dsimp only
      rw [lastLines_eq name _ hout, ← hheld, ← List.append_assoc]
      by_cases hfull : n ≤ (out ++ ofName name (held J dir seg).reverse).length
      · rw [decide_eq_true hfull, List.take_append_of_le_length hfull]
      · rw [decide_eq_false hfull]
        dsimp only
        rw [List.take_of_length_le (Nat.le_of_not_le hfull), ih (Nat.lt_of_not_le hfull)]

/-- `last_n` gives the last records of the trimmed name. -/
theorem lastN_eq (dir : Dir Raw) (name : Text) (n : Nat) : lastN M J cfg dir name n
    = if Text.trim name = [] then [] else (ofName (Text.trim name) (readAll M J cfg dir)).rtake n := by
  have hrev : (newestToOldest (dir.readMeta M).curSeg cfg.segments).flatMap
      (fun seg => (held J dir seg).reverse) = (readAll M J cfg dir).reverse := by
    rw [newestToOldest_eq, readAll_eq, SegmentRing.read, List.reverse_flatMap]
    rfl
  rw [lastN]
  by_cases hn : n = 0
  · simp [hn, List.rtake]
  · rw [if_neg hn]
    by_cases hblank : Text.trim name = []
    · simp [hblank]
    · have hne : (Text.trim name).isEmpty = false := by simpa using hblank
      dsimp only
      rw [hne, if_neg Bool.false_ne_true, if_neg hblank, lastSegs_eq _ _ _ (by simp; omega), hrev,
        List.nil_append, List.rtake_eq_reverse_take_reverse, ofName, List.filter_reverse, ofName]

/-- **The nearline ring loses only its oldest segments.** In every run of the writer, stopped and
started again between any two file operations: what the segments give, oldest to newest, is all
that was written but for the records of the segments that were emptied, which came before; a
segment with more than one record is within the limit; and `last_n` gives the last records of
the trimmed name among those still there. -/
theorem ring_loses_oldest (M : Codec Raw MetaFile) (J : LineCodec NearlineRecord) (cfg : NearlineConfig)
    {as : List Move} {s : NearlineRing Raw}
    (hrun : exec (NearlineRing.step M J cfg) .init as = some s) :
    s.lost.flatMap (recordsOf J) ++ readAll M J cfg s.dir = s.written ∧
    (∀ seg bytes, s.dir.segs.lookup seg = some bytes → 1 < (recordsOf J bytes).length →
      bytes.length ≤ max cfg.segmentMaxBytes 256) ∧
    ∀ name n, lastN M J cfg s.dir name n = if Text.trim name = [] then []
      else ((readAll M J cfg s.dir).filter fun r => r.name = Text.trim name).rtake n := by
  have h : RingOk M J cfg s := exec_preserves (fun h hs => h.step hs) RingOk.init hrun
  refine ⟨h.reading, ?_, fun name n => lastN_eq s.dir name n⟩
  intro seg bytes hfile hmany
  have hok := h.segment seg
  rw [Dir.segment, hfile, Option.getD_some] at hok
  exact hok.short hmany

/-! ## A ring with a few records -/

deriving instance Encodable for NearlineRecord

/-- A record under a name with a blank before it. -/
def sampleRecord : NearlineRecord :=
  ⟨1, "a".toList, 5, "output".toList, "s".toList, " bob".toList, "::1".toList, "hi".toList⟩

/-- What Bob and Ann were shown, by the number of the line, which is below ten. -/
def bobRecord (n : Nat) : NearlineRecord :=
  ⟨1, List.replicate 12 '0' ++ Nat.toDigits 10 n, 5, "output".toList, "s".toList, "Bob".toList,
    "::1".toList, "hi ann".toList⟩

def annRecord (n : Nat) : NearlineRecord :=
  ⟨1, List.replicate 12 '0' ++ Nat.toDigits 10 n, 5, "output".toList, "t".toList, "Ann".toList,
    "::1".toList, "hi bob".toList⟩

/-- A record whose texts need no escapes as JSON. -/
def recordJson (r : NearlineRecord) : Text :=
  ["\x7b\"v\":".toList, Nat.toDigits 10 r.v, ",\"id\":\"".toList, r.id,
    "\",\"ts_unix_ms\":".toList, Nat.toDigits 10 r.tsUnixMs, ",\"kind\":\"".toList, r.kind,
    "\",\"session\":\"".toList, r.session, "\",\"name\":\"".toList, r.name,
    "\",\"ip\":\"".toList, r.ip, "\",\"text\":\"".toList, r.text, "\"\x7d".toList].flatten

theorem mem_recordJson (r : NearlineRecord) : 'v' ∈ recordJson r :=
  List.mem_flatten.mpr ⟨_, List.mem_cons_self, by decide⟩

/-- A codec that prints the records here as JSON. -/
def sampleCodec : LineCodec NearlineRecord :=
  (LineCodec.strokes _).withSamples recordJson
    [sampleRecord, bobRecord 1, annRecord 2, bobRecord 3, annRecord 4, annRecord 5, bobRecord 6]
    (by decide +kernel) (fun r _ => LineCodec.strokes_ne (mem_recordJson r) (by decide))
    (by decide +kernel) (by decide +kernel) (by decide +kernel)

/-- A start, and one record. -/
def sampleRun : List Move := [.start, .file, .file, .file, .file, .recv sampleRecord, .file]

def sampleConfig : NearlineConfig := ⟨12, 2000000⟩

theorem sampleRun_ends : ∃ s, exec (NearlineRing.step (Codec.direct MetaFile) sampleCodec sampleConfig)
    .init sampleRun = some s ∧ s.written = [sampleRecord] ∧ s.lost = [] := by
  have hsome : (exec (NearlineRing.step (Codec.direct MetaFile) sampleCodec sampleConfig) .init
      sampleRun).map (fun s => (s.written, s.lost)) = some ([sampleRecord], []) := by
    decide +kernel
  obtain ⟨s, hs, heq⟩ := Option.map_eq_some_iff.mp hsome
  exact ⟨s, hs, congrArg Prod.fst heq, congrArg Prod.snd heq⟩

/-- Two segments with room for two records each. -/
def ringConfig : NearlineConfig := ⟨2, 256⟩

/-- Both segments are filled. The fifth record empties the first, and the process stops before the
new position is in its file; after the restart another record empties that segment again. -/
def ringRun : List Move :=
  [.start, .file, .file, .file, .file,
    .recv (bobRecord 1), .file, .recv (annRecord 2), .file,
    .recv (bobRecord 3), .file, .file, .file, .file, .recv (annRecord 4), .file,
    .recv (annRecord 5), .file, .stop,
    .start, .file, .file, .file, .file, .recv (bobRecord 6), .file, .file, .file, .file]

theorem ring_loses_oldest_bob :
    ∃ s, exec (NearlineRing.step (Codec.direct MetaFile) sampleCodec ringConfig) .init ringRun = some s
      ∧ s.written = [bobRecord 1, annRecord 2, bobRecord 3, annRecord 4, bobRecord 6]
      ∧ readAll (Codec.direct MetaFile) sampleCodec ringConfig s.dir
        = [bobRecord 3, annRecord 4, bobRecord 6]
      ∧ lastN (Codec.direct MetaFile) sampleCodec ringConfig s.dir "Bob".toList 2
        = [bobRecord 3, bobRecord 6] := by
  have hrun : (exec (NearlineRing.step (Codec.direct MetaFile) sampleCodec ringConfig) .init ringRun).map
      (fun s => (s.written, s.lost.flatMap (recordsOf sampleCodec)))
      = some ([bobRecord 1, annRecord 2, bobRecord 3, annRecord 4, bobRecord 6],
        [bobRecord 1, annRecord 2]) := by
    decide +kernel
  obtain ⟨s, hs, hout⟩ := Option.map_eq_some_iff.mp hrun
  simp only [Prod.mk.injEq] at hout
  obtain ⟨hwritten, hlost⟩ := hout
  obtain ⟨hread, -, hlast⟩ := ring_loses_oldest (Codec.direct MetaFile) sampleCodec ringConfig hs
  rw [hwritten, hlost] at hread
  have hall : readAll (Codec.direct MetaFile) sampleCodec ringConfig s.dir
      = [bobRecord 3, annRecord 4, bobRecord 6] :=
    (List.append_right_inj [bobRecord 1, annRecord 2]).mp hread
  refine ⟨s, hs, hwritten, hall, ?_⟩
  rw [hlast, hall]
  decide +kernel

/-- The record is there under its name, and asking for that name does not find it. -/
theorem blank_before_name :
    ∃ s, exec (NearlineRing.step (Codec.direct MetaFile) sampleCodec sampleConfig) .init sampleRun = some s
      ∧ ((readAll (Codec.direct MetaFile) sampleCodec sampleConfig s.dir).filter
          fun r => r.name = " bob".toList).rtake 1 = [sampleRecord]
      ∧ lastN (Codec.direct MetaFile) sampleCodec sampleConfig s.dir " bob".toList 1 = [] := by
  obtain ⟨s, hs, hwritten, hlost⟩ := sampleRun_ends
  have hok : RingOk (Codec.direct MetaFile) sampleCodec sampleConfig s :=
    exec_preserves (fun h hs => h.step hs) RingOk.init hs
  have hread := hok.reading
  rw [hwritten, hlost] at hread
  have hall : readAll (Codec.direct MetaFile) sampleCodec sampleConfig s.dir = [sampleRecord] := hread
  refine ⟨s, hs, ?_, ?_⟩
  · rw [hall]
    decide +kernel
  · rw [lastN_eq, hall]
    decide +kernel

end Slopmud.Broker.Nearline
