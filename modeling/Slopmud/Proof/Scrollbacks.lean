import Slopmud.Broker.Scrollback
import Slopmud.Proof.LineIds
import Slopmud.Proof.Nearline

/-!
# The two scrollbacks

A report looks for its line in memory first, and then in the nearline ring. The one takes a window of
a list; the other passes over the records, keeps the last few it has seen, and after the line counts
how many are still to come. It returns when the count is done, so a line with too few lines after it
is found and not returned.
-/

namespace Slopmud.Broker

/-! ## What a report shows of a line -/

def ScrollLine.shown (l : ScrollLine) : Text × Nat × Text := (l.lineId.encode, l.tsUnixMs, l.text)

def Nearline.NearlineRecord.shown (r : NearlineRecord) : Text × Nat × Text := (r.id, r.tsUnixMs, r.text)

/-- The line and its context. -/
def shownFind {α : Type} (shown : α → Text × Nat × Text) (found : α × List α) :
    (Text × Nat × Text) × List (Text × Nat × Text) := (shown found.1, found.2.map shown)

/-! ## In memory -/

namespace Scrollback

theorem window_eq (start stop i : Nat) (ls : List ScrollLine) :
    window start stop i ls = (ls.take (stop + 1 - i)).drop (start - i) := by
  induction ls generalizing i with
  | nil => simp [window]
  | cons l ls ih =>
    rw [window]
    by_cases hstart : i < start
    · have hdrop : start - i = start - (i + 1) + 1 := by omega
      rw [if_pos hstart, ih, hdrop]
      by_cases hstop : stop < i
      · have hnow : stop + 1 - i = 0 := by omega
        have hnext : stop + 1 - (i + 1) = 0 := by omega
        rw [hnow, hnext, List.take_zero, List.take_zero, List.drop_nil, List.drop_nil]
      · have htake : stop + 1 - i = stop + 1 - (i + 1) + 1 := by omega
        rw [htake, List.take_succ_cons, List.drop_succ_cons]
    · rw [if_neg hstart, Nat.sub_eq_zero_of_le (by omega : start ≤ i), List.drop_zero]
      by_cases hstop : stop < i
      · rw [if_pos hstop, Nat.sub_eq_zero_of_le (by omega), List.take_zero]
      · have htake : stop + 1 - i = stop + 1 - (i + 1) + 1 := by omega
        rw [if_neg hstop, ih, htake, List.take_succ_cons, Nat.sub_eq_zero_of_le (by omega : start ≤ i + 1),
          List.drop_zero]

/-- **A line that is there**, with what is before it and after it. -/
theorem findWithContext_at {sb : Scrollback} {before after : List ScrollLine} {l : ScrollLine}
    (h : sb.lines = before ++ l :: after) (hfirst : ∀ b ∈ before, b.lineId ≠ l.lineId) (ctx : Nat) :
    sb.findWithContext l.lineId ctx
      = some (l, before.drop (before.length - ctx) ++ l :: after.take ctx) := by
  have hno : ∀ b ∈ before, decide (b.lineId = l.lineId) = false := fun b hb => decide_eq_false (hfirst b hb)
  have hidx : sb.lines.findIdx? (fun b => b.lineId = l.lineId) = some before.length := by
    rw [h, List.findIdx?_append, List.findIdx?_eq_none_iff.mpr hno, Option.none_or, List.findIdx?_cons]
    simp
  have hwindow : window (before.length - ctx) (min (before.length + ctx) (sb.lines.length - 1)) 0 sb.lines
      = before.drop (before.length - ctx) ++ l :: after.take ctx := by
    have htake : min (before.length + ctx) (sb.lines.length - 1) + 1
        = before.length + (min ctx after.length + 1) := by
      rw [h, List.length_append, List.length_cons]
      omega
    rw [window_eq, Nat.sub_zero, Nat.sub_zero, htake, h, List.take_length_add_append, List.take_succ_cons,
      List.drop_append_of_le_length (Nat.sub_le _ _)]
    congr 2
    exact List.take_eq_take_min.symm
  have hfind : (before.drop (before.length - ctx) ++ l :: after.take ctx).find?
      (fun b => b.lineId = l.lineId) = some l := by
    have hnone : (before.drop (before.length - ctx)).find? (fun b => b.lineId = l.lineId) = none :=
      List.find?_eq_none.mpr fun b hb => by simpa using hfirst b (List.mem_of_mem_drop hb)
    rw [List.find?_append, hnone, Option.none_or, List.find?_cons_of_pos (by simp)]
  simp only [findWithContext, hidx, Option.bind_eq_bind, Option.bind_some, hwindow, hfind, Option.some_or]
  rfl

theorem findWithContext_absent {sb : Scrollback} {lineId : LineId} (h : ∀ l ∈ sb.lines, l.lineId ≠ lineId)
    (ctx : Nat) : sb.findWithContext lineId ctx = none := by
  have hidx : sb.lines.findIdx? (fun b => b.lineId = lineId) = none :=
    List.findIdx?_eq_none_iff.mpr fun b hb => decide_eq_false (h b hb)
  rw [findWithContext, hidx]
  rfl

end Scrollback

/-! ## On disk -/

namespace Nearline

/-- The loop over the records of the name. -/
def findRecords (id : Text) (ctx : Nat) :
    List NearlineRecord → Finder → (NearlineRecord × List NearlineRecord) ⊕ Finder
  | [], s => .inr s
  | r :: rs, s =>
    match findRecord id ctx s r with
    | .inl out => .inl out
    | .inr s => findRecords id ctx rs s

variable {Raw : Type} {M : Codec Raw MetaFile} {J : LineCodec NearlineRecord} {cfg : NearlineConfig}

theorem findRecords_append (id : Text) (ctx : Nat) (rs rs' : List NearlineRecord) (s : Finder) :
    findRecords id ctx (rs ++ rs') s =
      match findRecords id ctx rs s with
      | .inl out => .inl out
      | .inr s => findRecords id ctx rs' s := by
  induction rs generalizing s with
  | nil => rfl
  | cons r rs ih =>
    rw [List.cons_append, findRecords, findRecords]
    cases findRecord id ctx s r with
    | inl out => rfl
    | inr s => exact ih s

theorem findLines_eq (name id : Text) (ctx : Nat) (ls : List Text) (s : Finder) :
    findLines J name id ctx ls s = findRecords id ctx (ofName name (ls.filterMap J.parse)) s := by
  induction ls generalizing s with
  | nil => rfl
  | cons line ls ih =>
    rw [findLines, List.filterMap_cons]
    cases J.parse line with
    | none => exact ih s
    | some r =>
      by_cases hname : r.name = name
      · have hmine : ofName name (r :: ls.filterMap J.parse) = r :: ofName name (ls.filterMap J.parse) :=
          List.filter_cons_of_pos (by simpa using hname)
        simp only [hname, ne_eq, not_true_eq_false, if_false, hmine, findRecords]
        cases findRecord id ctx s r with
        | inl out => rfl
        | inr s => exact ih s
      · have hother : ofName name (r :: ls.filterMap J.parse) = ofName name (ls.filterMap J.parse) :=
          List.filter_cons_of_neg (by simpa using hname)
        simp only [hname, ne_eq, not_false_eq_true, if_true, hother]
        exact ih s

theorem findSegs_eq (dir : Dir Raw) (name id : Text) (ctx : Nat) (segs : List Nat) (s : Finder) :
    findSegs J dir name id ctx segs s =
      (findRecords id ctx (ofName name (segs.flatMap fun seg => recordsOf J (dir.segment seg))) s).getLeft? := by
  induction segs generalizing s with
  | nil => rfl
  | cons seg segs ih =>
    have hsplit : ofName name ((seg :: segs).flatMap fun seg => recordsOf J (dir.segment seg))
        = ofName name (recordsOf J (dir.segment seg))
          ++ ofName name (segs.flatMap fun seg => recordsOf J (dir.segment seg)) := by
      rw [List.flatMap_cons, ofName, List.filter_append]
      rfl
    rw [findSegs, hsplit, findRecords_append]
    cases hfile : dir.segs.lookup seg with
    | none =>
      -- a file that cannot be read has no records
      have hnone : ofName name (recordsOf J (dir.segment seg)) = [] := by
        rw [Dir.segment, hfile]
        rfl
      rw [hnone]
      exact ih s
    | some bytes =>
      have hbytes : dir.segment seg = bytes := by rw [Dir.segment, hfile, Option.getD_some]
      simp only [findLines_eq, hbytes, recordsOf]
      cases findRecords id ctx (ofName name ((segmentLines bytes).filterMap J.parse)) s with
      | inl out => rfl
      | inr s => exact ih s

/-- Before the line: the last `ctx` records are kept. -/
theorem findRecords_before {id : Text} {ctx : Nat} {rs prev : List NearlineRecord}
    (h : ∀ r ∈ rs, r.id ≠ id) (hprev : prev.length ≤ ctx) :
    findRecords id ctx rs ⟨prev, none, [], 0⟩
      = .inr ⟨(prev ++ rs).drop ((prev ++ rs).length - ctx), none, [], 0⟩ := by
  induction rs generalizing prev with
  | nil =>
    rw [findRecords, List.append_nil, Nat.sub_eq_zero_of_le hprev, List.drop_zero]
  | cons r rs ih =>
    have hr : r.id ≠ id := h r List.mem_cons_self
    have hrest := fun r' hr' => h r' (List.mem_cons_of_mem r hr')
    rw [findRecords, findRecord]
    simp only [if_neg hr]
    by_cases hctx : 0 < ctx
    · simp only [if_pos hctx]
      have hshort : ((prev ++ [r]).drop ((prev ++ [r]).length - ctx)).length ≤ ctx := by
        rw [List.length_drop]
        omega
      rw [ih hrest hshort, List.append_cons prev r rs]
      -- what is dropped now, and what with the next records
      have hnow : (prev ++ [r]).length - ctx ≤ (prev ++ [r]).length := Nat.sub_le _ _
      have hall : (prev ++ [r]).length - ctx + ((prev ++ [r] ++ rs).length - ((prev ++ [r]).length - ctx) - ctx)
          = (prev ++ [r] ++ rs).length - ctx := by
        have hlen : (prev ++ [r] ++ rs).length = (prev ++ [r]).length + rs.length := List.length_append
        omega
      rw [← List.drop_append_of_le_length hnow, List.drop_drop, List.length_drop, hall]
    · simp only [if_neg hctx]
      have hzero : ctx = 0 := by omega
      subst hzero
      rw [ih hrest hprev, Nat.sub_zero, Nat.sub_zero, List.drop_length, List.drop_length]

/-- After the line: `k` more records are taken, if there are so many. -/
theorem findRecords_after {id : Text} {ctx k : Nat} {rs prev context : List NearlineRecord}
    {target : NearlineRecord} (hk : 0 < k) :
    (findRecords id ctx rs ⟨prev, some target, context, k⟩).getLeft?
      = if k ≤ rs.length then some (target, context ++ rs.take k) else none := by
  induction rs generalizing k context with
  | nil =>
    rw [List.length_nil, if_neg (by omega)]
    rfl
  | cons r rs ih =>
    rw [findRecords, findRecord]
    simp only [if_pos hk, List.length_cons]
    by_cases hlast : k - 1 = 0
    · have hone : k = 1 := by omega
      subst hone
      rw [if_pos rfl, if_pos (by omega)]
      rfl
    · obtain ⟨k, rfl⟩ : ∃ j, k = j + 1 := ⟨k - 1, by omega⟩
      simp only [if_neg hlast]
      rw [Nat.add_sub_cancel, ih (by omega), List.append_assoc, List.take_succ_cons]
      simp only [Nat.add_le_add_iff_right, List.singleton_append]

/-- **A line that is there is returned if enough lines follow it.** -/
theorem findWithContext_at {dir : Dir Raw} {name : Text} {before after : List NearlineRecord}
    {r : NearlineRecord} (hname : Text.trim name ≠ []) (hid : Text.trim r.id = r.id) (hne : r.id ≠ [])
    (h : ofName (Text.trim name) (readAll M J cfg dir) = before ++ r :: after)
    (hfirst : ∀ b ∈ before, b.id ≠ r.id) (ctx : Nat) :
    findWithContext M J cfg dir name r.id ctx = if ctx ≤ after.length then
      some (r, before.drop (before.length - ctx) ++ r :: after.take ctx) else none := by
  have hid' : r.id.isEmpty = false := List.isEmpty_eq_false_iff.mpr hne
  have hname' : (Text.trim name).isEmpty = false := List.isEmpty_eq_false_iff.mpr hname
  rw [findWithContext]
  simp only [hid, hid', hname', Bool.false_eq_true, if_false]
  rw [findSegs_eq, ← readAll, h, findRecords_append, Finder.init,
    findRecords_before hfirst (Nat.zero_le ctx), List.nil_append]
  simp only [findRecords, findRecord, if_true, List.nil_append]
  by_cases hctx : ctx = 0
  · subst hctx
    rw [if_pos rfl, if_pos (Nat.zero_le _), List.take_zero]
    rfl
  · rw [if_neg hctx]
    simp only
    rw [findRecords_after (by omega), List.append_assoc]
    rfl

theorem findWithContext_absent {dir : Dir Raw} {name id : Text}
    (h : ∀ r ∈ ofName (Text.trim name) (readAll M J cfg dir), r.id ≠ Text.trim id) (ctx : Nat) :
    findWithContext M J cfg dir name id ctx = none := by
  dsimp only [findWithContext]
  split
  · rfl
  · split
    · rfl
    · rw [findSegs_eq, ← readAll, Finder.init, findRecords_before h (Nat.zero_le ctx)]
      rfl

end Nearline

/-! ## Both -/

open Nearline

/-- The lines of a session are those of its character in the ring, among the records of others. The
name of a character is not blank, and has no white space around it. -/
structure HeldInBoth {Raw : Type} (M : Codec Raw MetaFile) (J : LineCodec NearlineRecord) (cfg : NearlineConfig)
    (dir : Dir Raw) (name : Text) (sb : Scrollback) : Prop where
  named : name ≠ [] ∧ Text.trim name = name
  distinct : (sb.lines.map ScrollLine.lineId).Nodup
  same : ((readAll M J cfg dir).filter fun r => r.name = name).map NearlineRecord.shown
    = sb.lines.map ScrollLine.shown

theorem LineId.trim_encode (lineId : LineId) : Text.trim lineId.encode = lineId.encode ∧ lineId.encode ≠ [] := by
  rw [encode_eq]
  refine ⟨Text.trim_of_noWhitespace fun c hc => ?_, fun h => digits_ne_nil lineId (List.map_eq_nil_iff.mp h)⟩
  obtain ⟨d, hd, rfl⟩ := List.mem_map.mp hc
  exact (alph_spec d (digits_lt hd)).2.1

namespace HeldInBoth

variable {Raw : Type} {M : Codec Raw MetaFile} {J : LineCodec NearlineRecord} {cfg : NearlineConfig}
  {dir : Dir Raw} {name : Text} {sb : Scrollback}

/-- The records of the name are the lines, also those before and after one of them. -/
theorem split (h : HeldInBoth M J cfg dir name sb) {before after : List ScrollLine} {l : ScrollLine}
    (hl : sb.lines = before ++ l :: after) :
    ∃ before' r after', ofName (Text.trim name) (readAll M J cfg dir) = before' ++ r :: after'
      ∧ before'.map NearlineRecord.shown = before.map ScrollLine.shown ∧ r.shown = l.shown
      ∧ after'.map NearlineRecord.shown = after.map ScrollLine.shown := by
  have hsame := h.same
  rw [hl, List.map_append, List.map_cons, List.map_eq_append_iff] at hsame
  obtain ⟨before', rest, hrs, hbefore, hrest⟩ := hsame
  obtain ⟨r, after', rfl, hr, hafter⟩ := List.map_eq_cons_iff.mp hrest
  exact ⟨before', r, after', by rw [ofName, h.named.2, hrs], hbefore, hr, hafter⟩

/-- **A line in both** is returned by the ring if enough lines follow it. -/
theorem find_at (h : HeldInBoth M J cfg dir name sb) {before after : List ScrollLine} {l : ScrollLine}
    (hl : sb.lines = before ++ l :: after) (ctx : Nat) :
    (sb.findWithContext l.lineId ctx).map (shownFind ScrollLine.shown)
        = some (l.shown, (before.drop (before.length - ctx) ++ l :: after.take ctx).map ScrollLine.shown)
      ∧ (findWithContext M J cfg dir name l.lineId.encode ctx).map (shownFind NearlineRecord.shown)
        = if ctx ≤ after.length then
            some (l.shown, (before.drop (before.length - ctx) ++ l :: after.take ctx).map ScrollLine.shown)
          else none := by
  have hfirst : ∀ b ∈ before, b.lineId ≠ l.lineId := by
    intro b hb heq
    have hdist := h.distinct
    rw [hl, List.map_append, List.map_cons, List.nodup_append] at hdist
    exact hdist.2.2 _ (List.mem_map_of_mem hb) _ List.mem_cons_self heq
  obtain ⟨before', r, after', hrs, hbefore, hr, hafter⟩ := h.split hl
  have hid : r.id = l.lineId.encode := congrArg Prod.fst hr
  have hfirst' : ∀ b ∈ before', b.id ≠ r.id := by
    intro b hb heq
    obtain ⟨b', hb', hshown⟩ := List.mem_map.mp (hbefore ▸ List.mem_map_of_mem hb)
    have hidb : b'.lineId.encode = b.id := congrArg Prod.fst hshown
    exact hfirst b' hb' (LineId.encode_inj (hidb.trans (heq.trans hid)))
  have hlen : before'.length = before.length ∧ after'.length = after.length := by
    constructor
    · simpa using congrArg List.length hbefore
    · simpa using congrArg List.length hafter
  have hname : Text.trim name ≠ [] := by
    rw [h.named.2]
    exact h.named.1
  obtain ⟨htrim, hne⟩ := LineId.trim_encode l.lineId
  constructor
  · rw [Scrollback.findWithContext_at hl hfirst]
    rfl
  · rw [← hid] at htrim hne ⊢
    rw [findWithContext_at hname htrim hne hrs hfirst', hlen.1, hlen.2]
    split
    · simp only [Option.map_some, shownFind, List.map_append, List.map_cons, List.map_drop, List.map_take,
        hbefore, hr, hafter]
    · rfl

end HeldInBoth

/-- **The two scrollbacks agree on a line exactly if enough lines follow it**, or it is in neither. -/
theorem scrollbacks_agree_iff {Raw : Type} (M : Codec Raw MetaFile) (J : LineCodec NearlineRecord)
    (cfg : NearlineConfig) (dir : Dir Raw) (name : Text) (sb : Scrollback) (lineId : LineId) (ctx : Nat)
    (h : HeldInBoth M J cfg dir name sb) :
    (findWithContext M J cfg dir name lineId.encode ctx).map (shownFind NearlineRecord.shown)
        = (sb.findWithContext lineId ctx).map (shownFind ScrollLine.shown)
      ↔ ∀ before l after, sb.lines = before ++ l :: after → l.lineId = lineId → ctx ≤ after.length := by
  constructor
  · rintro hagree before l after hl rfl
    obtain ⟨hhot, hnear⟩ := h.find_at hl ctx
    rw [hhot, hnear] at hagree
    by_contra hfew
    rw [if_neg hfew] at hagree
    cases hagree
  · intro hmany
    by_cases hthere : ∃ l ∈ sb.lines, l.lineId = lineId
    · obtain ⟨l, hmem, rfl⟩ := hthere
      obtain ⟨before, after, hl⟩ := List.append_of_mem hmem
      obtain ⟨hhot, hnear⟩ := h.find_at hl ctx
      rw [hhot, hnear, if_pos (hmany before l after hl rfl)]
    · have habsent : ∀ l ∈ sb.lines, l.lineId ≠ lineId := fun l hl hid => hthere ⟨l, hl, hid⟩
      have habsent' : ∀ r ∈ ofName (Text.trim name) (readAll M J cfg dir), r.id ≠ Text.trim lineId.encode := by
        intro r hr hid
        rw [(LineId.trim_encode lineId).1] at hid
        rw [ofName, h.named.2] at hr
        obtain ⟨l, hl, hshown⟩ := List.mem_map.mp (h.same ▸ List.mem_map_of_mem hr)
        have hidl : l.lineId.encode = r.id := congrArg Prod.fst hshown
        exact habsent l hl (LineId.encode_inj (hidl.trans hid))
      rw [Scrollback.findWithContext_absent habsent, Nearline.findWithContext_absent habsent']
      rfl

/-! ## Bob's lines among Ann's -/

def bobLines : Scrollback :=
  [1, 3, 6].foldl (fun sb n => sb.pushLine ⟨n⟩ 5 "hi ann".toList) (Scrollback.new 1000)

/-- The same lines in two segments, of which segment 0 is the newer. -/
def bobDir : Dir (Option MetaFile) :=
  let older := [bobRecord 1, annRecord 2, bobRecord 3]
  let newer := [annRecord 4, annRecord 5, bobRecord 6]
  (Dir.empty.setSegment 1 (Lines.unlines 10 (older.map sampleCodec.bytes))).setSegment 0
    (Lines.unlines 10 (newer.map sampleCodec.bytes))

theorem bobLines_held :
    HeldInBoth (Codec.direct MetaFile) sampleCodec ⟨2, 512⟩ bobDir "Bob".toList bobLines where
  named := by decide
  distinct := by decide
  same := by decide +kernel

/-- One line of context is there on both sides of line 3. -/
theorem scrollbacks_agree_alone :
    (findWithContext (Codec.direct MetaFile) sampleCodec ⟨2, 512⟩ bobDir "Bob".toList
          (LineId.encode ⟨3⟩) 1).map (shownFind NearlineRecord.shown)
        = (bobLines.findWithContext ⟨3⟩ 1).map (shownFind ScrollLine.shown)
      ∧ (bobLines.findWithContext ⟨3⟩ 1).map (fun found => found.2.map ScrollLine.lineId)
        = some [⟨1⟩, ⟨3⟩, ⟨6⟩] := by
  refine ⟨?_, by decide +kernel⟩
  refine (scrollbacks_agree_iff (Codec.direct MetaFile) sampleCodec ⟨2, 512⟩ bobDir "Bob".toList
    bobLines ⟨3⟩ 1 bobLines_held).mpr ?_
  intro before l after hl hid
  cases after with
  | cons _ _ => exact Nat.succ_pos _
  | nil =>
    -- then it is the last line, which has another id
    have hlast : bobLines.lines.getLast? = some l := by rw [hl, List.getLast?_concat]
    have hsix : bobLines.lines.getLast?.map ScrollLine.lineId = some ⟨6⟩ := by decide
    rw [hlast, Option.map_some, hid] at hsix
    exact absurd hsix (by decide)

/-- With three lines of context the last line is returned from memory, and not from the ring. -/
theorem last_line_not_in_ring :
    HeldInBoth (Codec.direct MetaFile) sampleCodec ⟨2, 512⟩ bobDir "Bob".toList bobLines
    ∧ (bobLines.findWithContext ⟨6⟩ 3).isSome = true
    ∧ findWithContext (Codec.direct MetaFile) sampleCodec ⟨2, 512⟩ bobDir "Bob".toList
        (LineId.encode ⟨6⟩) 3 = none := by
  have hlines : bobLines.lines = [⟨⟨1⟩, 5, "hi ann".toList⟩, ⟨⟨3⟩, 5, "hi ann".toList⟩]
      ++ ⟨⟨6⟩, 5, "hi ann".toList⟩ :: [] := rfl
  obtain ⟨hhot, hnear⟩ := bobLines_held.find_at hlines 3
  refine ⟨bobLines_held, ?_, Option.map_eq_none_iff.mp hnear⟩
  rw [← Option.isSome_map (f := shownFind ScrollLine.shown)]
  exact Option.isSome_of_eq_some hhot

end Slopmud.Broker
