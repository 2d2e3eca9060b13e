import Slopmud.Proof.Redact
import Slopmud.Proof.Standing
import Slopmud.Shard.AdventureText

/-!
# Exits lead somewhere

The reader of adventures makes the same cuts on characters as on bytes: every cut is next to ASCII.
The rooms it reads have ids of one form, and keep them; of an id only the first room stays, and the
exits that stay lead to an id that was read, so to a room of the plan. An instance renames the rooms
and the exits alike.
-/

namespace Slopmud.Shard

namespace ProtoAdventure

open Broker (strSlice strSlice_mid byteLen_append byteLen_of_user)
open Proto (encode_length)

/-! ## The cuts -/

theorem splitOnce_one {c : Char} {s a b : Text} (h : Text.splitOnce [c] s = some (a, b)) :
    s = a ++ c :: b := by
  induction s generalizing a with
  | nil => cases h
  | cons d s ih =>
    rw [Text.splitOnce] at h
    by_cases hd : c = d
    · subst hd
      simp only [Text.stripPrefix, if_true, Option.some.injEq, Prod.mk.injEq] at h
      obtain ⟨rfl, rfl⟩ := h
      rfl
    · simp only [Text.stripPrefix, if_neg hd, Option.map_eq_some_iff, Prod.mk.injEq] at h
      obtain ⟨⟨a', b'⟩, hs, rfl, rfl⟩ := h
      rw [ih hs, List.cons_append]

theorem splitOnce_prefix {tok s a b : Text} (h : Text.splitOnce tok s = some (a, b)) : ∃ z, s = a ++ z := by
  induction s generalizing a with
  | nil =>
    rw [Text.splitOnce] at h
    split at h
    · cases h
      exact ⟨[], rfl⟩
    · cases h
  | cons d s ih =>
    rw [Text.splitOnce] at h
    split at h
    · cases h
      exact ⟨d :: s, rfl⟩
    · obtain ⟨⟨a', b'⟩, hs, heq⟩ := Option.map_eq_some_iff.mp h
      cases heq
      obtain ⟨z, rfl⟩ := ih hs
      exact ⟨z, rfl⟩

/-- **What is between two ASCII characters** is cut out without a panic. -/
theorem cutBetween_eq {c : Char} (hc : Text.utf8Len c = 1) (cls s : Text) :
    cutBetween [c] cls s = some (((Text.splitOnce [c] s).bind fun q => Text.splitOnce cls q.2).map Prod.fst) := by
  rw [cutBetween, strFind]
  cases hs : Text.splitOnce [c] s with
  | none => rfl
  | some q =>
    obtain ⟨a, b⟩ := q
    have hone : Text.byteLen [c] = 1 := by simp [Text.byteLen, hc]
    have hsplit : s = (a ++ [c]) ++ b := by
      rw [splitOnce_one hs]
      simp
    have hfrom : Text.byteLen (a ++ [c]) = Text.byteLen a + 1 := by rw [byteLen_append, hone]
    have hafter : strSlice s (Text.byteLen a + 1) (Text.byteLen s) = some b := by
      have hmid := strSlice_mid (a ++ [c]) b []
      rw [List.append_nil, ← hsplit, hfrom, ← hfrom, ← byteLen_append, ← hsplit, hfrom] at hmid
      exact hmid
    simp only [Option.map_some, Option.bind_eq_bind, Option.bind_some, hafter, strFind]
    cases hb : Text.splitOnce cls b with
    | none => rfl
    | some q' =>
      obtain ⟨inside, rest⟩ := q'
      obtain ⟨z, rfl⟩ := splitOnce_prefix hb
      have hmid := strSlice_mid (a ++ [c]) inside z
      rw [List.append_assoc, ← hsplit, hfrom] at hmid
      simp only [Option.map_some, hmid]

/-! ## Room ids -/

theorem isAscii_of_isIdByte (b : UInt8) (h : isIdByte b = true) : Utf8.isAscii b = true := by
  rw [isIdByte, Bool.or_eq_true, beq_iff_eq] at h
  rcases h with h | rfl
  · exact Broker.isAscii_of_isUser b (by rw [Broker.isUser, h, Bool.true_or])
  · decide

theorem charPass_isIdByte : ∀ n < 128, Utf8.charPass isIdByte (Char.ofNat n) = isIdChar (Char.ofNat n) := by
  decide

theorem isIdChar_lt {c : Char} (h : isIdChar c = true) : c.toNat < 128 := by
  have hle : ∀ {d : Char}, c ≤ d → d.toNat < 128 → c.toNat < 128 := fun hcd hd =>
    Nat.lt_of_le_of_lt (UInt32.le_iff_toNat_le.mp hcd) hd
  simp only [isIdChar, Text.isAsciiAlphanumeric, Text.isAsciiDigit, Text.isAsciiLowercase, Text.isAsciiUppercase,
    Bool.or_eq_true, Bool.and_eq_true, decide_eq_true_eq, beq_iff_eq] at h
  rcases h with ((⟨-, h⟩ | ⟨-, h⟩) | ⟨-, h⟩) | rfl
  · exact hle h (by decide)
  · exact hle h (by decide)
  · exact hle h (by decide)
  · decide

/-- The bytes of ids are those of the characters of ids. -/
theorem charPass_eq_isIdChar (c : Char) : Utf8.charPass isIdByte c = isIdChar c :=
  Utf8.charPass_eq charPass_isIdByte (fun _ => isIdChar_lt) c

/-- Rounds that find no `R_` only move on. -/
theorem roomIdLoop_skip {h : Text} {bs : Bytes} {i : Nat} (k : Nat)
    (hno : ∀ m < k, ¬ (bs[i + m]? = some 82 ∧ bs[i + m + 1]? = some 95)) :
    roomIdLoop h bs (bs.length - 1 - i) i = roomIdLoop h bs (bs.length - 1 - (i + k)) (i + k) := by
  induction k with
  | zero => rfl
  | succ k ih =>
    rw [ih fun m hm => hno m (by omega)]
    by_cases hend : bs.length - 1 ≤ i + k
    · have hzero : bs.length - 1 - (i + k) = 0 := by omega
      have hzero' : bs.length - 1 - (i + (k + 1)) = 0 := by omega
      rw [hzero, hzero', roomIdLoop, roomIdLoop]
    · have hsucc : bs.length - 1 - (i + k) = bs.length - 1 - (i + (k + 1)) + 1 := by omega
      rw [hsucc, roomIdLoop, if_neg (hno k (Nat.lt_succ_self k))]
      rfl

theorem extractRoomId_skip {c : Char} {rest : Text} (h : ¬ (c = 'R' ∧ ∃ rest', rest = '_' :: rest')) :
    extractRoomId (c :: rest) = extractRoomId rest := by
  rw [extractRoomId.eq_2]
  rintro rest' rfl rfl
  exact h ⟨rfl, rest', rfl⟩

/-- **The loop over the bytes** finds the id of the characters from here on. -/
theorem roomIdLoop_eq (pre post : Text) :
    roomIdLoop (pre ++ post) (Utf8.encode (pre ++ post))
        ((Utf8.encode (pre ++ post)).length - 1 - Text.byteLen pre) (Text.byteLen pre)
      = some (extractRoomId post) := by
  induction post generalizing pre with
  | nil =>
    have hend : (Utf8.encode (pre ++ [])).length - 1 - Text.byteLen pre = 0 := by
      rw [List.append_nil, encode_length]
      omega
    rw [hend, roomIdLoop, extractRoomId]
  | cons c rest ih =>
    have hnext := ih (pre ++ [c])
    rw [List.append_assoc, List.singleton_append] at hnext
    have hbytes : ∀ m, (Utf8.encode (pre ++ c :: rest))[Text.byteLen pre + m]? = (Utf8.encode (c :: rest))[m]? := by
      intro m
      rw [Utf8.encode_append, ← encode_length, List.getElem?_append_right (by omega), Nat.add_sub_cancel_left]
    have hlen : Text.byteLen (pre ++ [c]) = Text.byteLen pre + (Utf8.encodeChar c).length := by
      rw [byteLen_append, ← encode_length [c], Utf8.encode_cons]
      simp [Utf8.encode]
    by_cases hR : c = 'R' ∧ ∃ rest', rest = '_' :: rest'
    · obtain ⟨rfl, rest', rfl⟩ := hR
      have hstart : Utf8.encode ('R' :: '_' :: rest') = 82 :: 95 :: Utf8.encode rest' := rfl
      have hone : Text.byteLen (pre ++ ['R']) = Text.byteLen pre + 1 := hlen
      have hsucc : (Utf8.encode (pre ++ 'R' :: '_' :: rest')).length - 1 - Text.byteLen pre
          = (Utf8.encode (pre ++ 'R' :: '_' :: rest')).length - 1 - (Text.byteLen pre + 1) + 1 := by
        rw [Utf8.encode_append, hstart, ← encode_length pre, List.length_append, List.length_cons, List.length_cons]
        omega
      have hend : idEnd (Utf8.encode (pre ++ 'R' :: '_' :: rest')) (Text.byteLen pre + 2)
          = Text.byteLen pre + 2 + (rest'.takeWhile isIdChar).length := by
        rw [idEnd, Utf8.encode_append, hstart, ← encode_length pre, ← List.drop_drop, List.drop_left,
          List.drop_succ_cons, List.drop_succ_cons, List.drop_zero, Utf8.takeWhile_encode isAscii_of_isIdByte,
          funext charPass_eq_isIdChar]
      have hzero := hbytes 0
      have hnext1 := hbytes 1
      rw [hstart] at hzero hnext1
      rw [Nat.add_zero] at hzero
      rw [hsucc, roomIdLoop, if_pos ⟨hzero, hnext1⟩, hend, extractRoomId]
      cases hrun : rest'.takeWhile isIdChar with
      | nil =>
        have hunder : extractRoomId ('_' :: rest') = extractRoomId rest' :=
          extractRoomId_skip fun h => absurd h.1 (by decide)
        rw [hone, hunder] at hnext
        simpa using hnext
      | cons d run =>
        -- the id is what is taken
        have hall : ∀ c ∈ 'R' :: '_' :: d :: run, Utf8.charPass isIdByte c = true := by
          intro c hc
          rw [charPass_eq_isIdChar]
          rcases List.mem_cons.mp hc with rfl | hc
          · decide
          · rcases List.mem_cons.mp hc with rfl | hc
            · decide
            · exact List.mem_takeWhile_imp (hrun ▸ hc)
        have hbyte : Text.byteLen ('R' :: '_' :: d :: run) = 2 + (d :: run).length := by
          rw [← encode_length, Utf8.encode_length_of_all hall]
          simp only [List.length_cons]
          omega
        have hmid := strSlice_mid pre ('R' :: '_' :: d :: run) (rest'.dropWhile isIdChar)
        have htext : pre ++ 'R' :: '_' :: d :: run ++ rest'.dropWhile isIdChar = pre ++ 'R' :: '_' :: rest' := by
          rw [← hrun, List.append_assoc, List.cons_append, List.cons_append, List.takeWhile_append_dropWhile]
        rw [htext, hbyte, ← Nat.add_assoc] at hmid
        rw [if_pos (by rw [List.length_cons]; omega), hmid]
        rfl
    · rw [extractRoomId_skip hR, ← hnext, hlen]
      refine roomIdLoop_skip (Utf8.encodeChar c).length fun m hm => ?_
      rintro ⟨hm1, hm2⟩
      rw [hbytes, Utf8.encode_cons, List.getElem?_append_left hm] at hm1
      obtain ⟨hlt, hc⟩ := Utf8.encodeChar_of_mem (by decide) (List.mem_of_getElem? hm1)
      have hchar : c = 'R' := by
        rw [← Utf8.charOfNat_toNat c]
        have htoNat := congrArg UInt8.toNat hc
        rw [Utf8.toNat_ofNat _ (by omega)] at htoNat
        rw [← htoNat]
        rfl
      subst hchar
      have hm0 : m = 0 := Nat.lt_one_iff.mp hm
      subst hm0
      rw [Nat.add_zero, hbytes 1, Utf8.encode_cons] at hm2
      obtain ⟨pre', d, post', hrest, hpre', -, hlt', hd⟩ := Utf8.split_of_ascii (t := rest) (k := 0) (b := 95) (by decide) hm2
      have hempty : pre' = [] := by
        rw [encode_length] at hpre'
        exact List.length_eq_zero_iff.mp (Nat.le_zero.mp (hpre' ▸ Broker.length_le_byteLen pre'))
      have hdchar : d = '_' := by
        rw [← Utf8.charOfNat_toNat d]
        have htoNat := congrArg UInt8.toNat hd
        rw [Utf8.toNat_ofNat _ (by omega)] at htoNat
        rw [← htoNat]
        rfl
      exact hR ⟨rfl, post', by rw [hrest, hempty, hdchar, List.nil_append]⟩

theorem extractRoomIdCut_eq (h : Text) : extractRoomIdCut h = some (extractRoomId h) := roomIdLoop_eq [] h

/-! ## The reader never panics -/

theorem headingLabel_eq (h : Text) : headingLabel h = (((Text.splitOnce "(".toList h).bind
    fun q => Text.splitOnce ")".toList q.2).map Prod.fst).bind shortLabel := by
  rw [headingLabel]
  cases Text.splitOnce "(".toList h with
  | none => rfl
  | some q =>
    obtain ⟨before, after⟩ := q
    simp only [Option.bind_eq_bind, Option.bind_some]
    cases Text.splitOnce ")".toList after <;> rfl

theorem parseRoomHeadingCut_eq (h : Text) : parseRoomHeadingCut h = some (parseRoomHeading h) := by
  rw [parseRoomHeadingCut, extractRoomIdCut_eq, parseRoomHeading]
  cases extractRoomId h with
  | none => rfl
  | some id =>
    have hcut : cutBetween "(".toList ")".toList h = _ := cutBetween_eq (by decide) ")".toList h
    simp only [Option.bind_eq_bind, Option.bind_some, hcut]
    rw [Option.map_some, headingLabel_eq]
    rfl

theorem parseExitCut_eq (part : Text) : parseExitCut part = some (parseExit part) := by
  rw [parseExitCut, parseExit]
  dsimp only
  split
  · rfl
  · cases Text.splitOnce "->".toList (Text.trim part) with
    | none => rfl
    | some q =>
      obtain ⟨dir, rhs⟩ := q
      have hcut : cutBetween "`".toList "`".toList (Text.trim rhs) = _ :=
        cutBetween_eq (by decide) "`".toList (Text.trim rhs)
      simp only [Option.bind_eq_bind, Option.bind_some, hcut]
      rfl

theorem parseExitsCut_eq (rest : Text) : parseExitsCut rest = some (parseExits rest) := by
  have hmap : (rest.splitOnP (· == ',')).mapM parseExitCut = some ((rest.splitOnP (· == ',')).map parseExit) := by
    rw [funext parseExitCut_eq]
    exact List.mapM_pure
  rw [parseExitsCut, hmap, parseExits, Option.map_some, List.reduceOption, List.filterMap_map]
  rfl

theorem roomLineCut_eq (s : Reader) (r : RoomPlan) (t : Text) : roomLineCut s r t = some (roomLine s r t) := by
  rw [roomLineCut, roomLine]
  cases Text.stripPrefix "- exits:".toList t with
  | some rest => simp only [parseExitsCut_eq, Option.map_some]
  | none =>
    dsimp only
    cases (if s.inExitsBlock then Text.stripPrefix "- ".toList t else none).filter
        (Text.contains "->".toList) with
    | some rest => simp only [parseExitsCut_eq, Option.map_some]
    | none => rfl

theorem readLineCut_eq (s : Reader) (raw : Text) : readLineCut s raw = some (readLine s raw) := by
  rw [readLineCut, readLine]
  cases Text.stripPrefix "### ".toList (Text.trimEnd raw) with
  | some h =>
    simp only [parseRoomHeadingCut_eq, Option.bind_eq_bind, Option.bind_some]
    cases parseRoomHeading h <;> rfl
  | none =>
    cases s.cur with
    | none => rfl
    | some r => exact roomLineCut_eq s r _

/-- **Every text is read**: all cuts are between characters. -/
theorem parseCut_eq (adventureId md : Text) : parseCut adventureId md = some (parse adventureId md) := by
  have hfold : (Lines.lines '\n' '\r' md).foldlM readLineCut ⟨none, false, []⟩
      = some ((Lines.lines '\n' '\r' md).foldl readLine ⟨none, false, []⟩) := by
    have hpure : readLineCut = fun s raw => pure (readLine s raw) :=
      funext fun s => funext fun raw => readLineCut_eq s raw
    rw [hpure]
    exact List.foldlM_pure
  rw [parseCut, hfold]
  rfl

/-! ## The rooms that are read -/

/-- `R_` followed by letters, digits and underscores. -/
def IsRoomId (id : Text) : Prop :=
  ∃ run, id = 'R' :: '_' :: run ∧ run ≠ [] ∧ ∀ c ∈ run, isIdChar c = true

/-- An exit that is neither sealed nor gated. -/
def IsExit (e : ExitDef) : Prop := e.dir ≠ [] ∧ e.isSealed = false ∧ e.gate = none

structure PlanOk (r : RoomPlan) : Prop where
  roomId : IsRoomId r.id
  exits : ∀ e ∈ r.exits, IsExit e

/-- The rooms so far. -/
structure Reader.Ok (s : Reader) : Prop where
  cur : ∀ r ∈ s.cur, PlanOk r
  out : ∀ r ∈ s.out, PlanOk r

theorem isRoomId_of_extract {h id : Text} (hid : extractRoomId h = some id) : IsRoomId id := by
  induction h with
  | nil => cases hid
  | cons c rest ih =>
    by_cases hR : c = 'R' ∧ ∃ rest', rest = '_' :: rest'
    · obtain ⟨rfl, rest', rfl⟩ := hR
      rw [extractRoomId] at hid
      split at hid
      · exact ih ((extractRoomId_skip fun h => absurd h.1 (by decide)).trans hid)
      · next hrun =>
        cases hid
        exact ⟨_, rfl, by simpa using hrun, fun c hc => List.mem_takeWhile_imp hc⟩
    · exact ih ((extractRoomId_skip hR).symm.trans hid)

theorem isExit_of_parseExit {part : Text} {e : ExitDef} (h : parseExit part = some e) : IsExit e := by
  rw [parseExit] at h
  simp only [Option.bind_eq_bind, Option.ite_none_left_eq_some, Option.bind_eq_some_iff, Option.some.injEq] at h
  obtain ⟨-, ⟨dir, rhs⟩, -, hne, rfl⟩ := h
  refine ⟨?_, rfl, rfl⟩
  rw [Bool.or_eq_true, not_or] at hne
  simpa using hne.1

theorem PlanOk.addExits {r : RoomPlan} (h : PlanOk r) (rest : Text) :
    PlanOk { r with exits := r.exits ++ parseExits rest } where
  roomId := h.roomId
  exits e he := by
    rcases List.mem_append.mp he with he | he
    · exact h.exits e he
    · obtain ⟨part, -, hpart⟩ := List.mem_filterMap.mp he
      exact isExit_of_parseExit hpart

theorem Reader.Ok.withCur {s : Reader} (h : s.Ok) {r : RoomPlan} (hr : PlanOk r) (inExitsBlock : Bool) :
    Reader.Ok { s with cur := some r, inExitsBlock } :=
  ⟨fun _ hr' => Option.mem_some_iff.mp hr' ▸ hr, h.out⟩

theorem Reader.Ok.roomLine {s : Reader} (h : s.Ok) {r : RoomPlan} (hr : PlanOk r) (t : Text) :
    (roomLine s r t).Ok := by
  rw [ProtoAdventure.roomLine]
  split
  · exact h.withCur (hr.addExits _) true
  · dsimp only
    split
    · exact h.withCur (hr.addExits _) _
    · have hblock : (if s.inExitsBlock && t.head? == some '-' then { s with inExitsBlock := false } else s).Ok := by
        split
        · exact ⟨h.cur, h.out⟩
        · exact h
      split
      · next k rest hdesc =>
        have hdescribed : PlanOk { r with description := pushDescLine r.description k rest } := ⟨hr.roomId, hr.exits⟩
        exact hblock.withCur hdescribed _
      · exact hblock

theorem Reader.Ok.readLine {s : Reader} (h : s.Ok) (raw : Text) : (readLine s raw).Ok := by
  rw [ProtoAdventure.readLine]
  split
  · split
    · next id label hhead =>
      refine ⟨fun r hr => ?_, fun r hr => ?_⟩
      · obtain ⟨id', hid, heq⟩ := Option.map_eq_some_iff.mp hhead
        cases heq
        cases hr
        exact ⟨isRoomId_of_extract hid, fun e he => absurd he List.not_mem_nil⟩
      · rcases List.mem_append.mp hr with hr | hr
        · exact h.out r hr
        · exact h.cur r (Option.mem_toList.mp hr)
    · exact h
  · split
    · exact h
    · next r hr => exact h.roomLine (h.cur r hr) _

theorem readRooms_ok (md : Text) : ∀ r ∈ readRooms md, PlanOk r := by
  have hstart : Reader.Ok ⟨none, false, []⟩ :=
    ⟨fun r hr => absurd hr (by simp), fun r hr => absurd hr List.not_mem_nil⟩
  have hall : ∀ (ls : List Text) (s : Reader), s.Ok → (ls.foldl ProtoAdventure.readLine s).Ok := by
    intro ls
    induction ls with
    | nil => exact fun s h => h
    | cons l ls ih => exact fun s h => ih _ (h.readLine l)
  intro r hr
  have hread := hall (Lines.lines '\n' '\r' md) _ hstart
  rcases List.mem_append.mp hr with hr | hr
  · exact hread.out r hr
  · exact hread.cur r (Option.mem_toList.mp hr)

/-! ## The plan -/

theorem dedupRooms_subset (seen : List Text) (rs : List RoomPlan) : ∀ r ∈ dedupRooms seen rs, r ∈ rs := by
  induction rs generalizing seen with
  | nil => exact fun r hr => hr
  | cons r rs ih =>
    intro r' hr'
    rw [dedupRooms] at hr'
    split at hr'
    · exact List.mem_cons_of_mem _ (ih _ r' hr')
    · rcases List.mem_cons.mp hr' with rfl | hr'
      · exact List.mem_cons_self
      · exact List.mem_cons_of_mem _ (ih _ r' hr')

/-- Every id that was not seen before stays, once. -/
theorem dedupRooms_ids (seen : List Text) (rs : List RoomPlan) :
    ((dedupRooms seen rs).map RoomPlan.id).Nodup
      ∧ ∀ i, i ∈ (dedupRooms seen rs).map RoomPlan.id ↔ i ∈ rs.map RoomPlan.id ∧ i ∉ seen := by
  induction rs generalizing seen with
  | nil => simp [dedupRooms]
  | cons r rs ih =>
    rw [dedupRooms]
    split
    · next hseen =>
      refine ⟨(ih seen).1, fun i => ?_⟩
      rw [(ih seen).2, List.map_cons, List.mem_cons]
      constructor
      · exact fun h => ⟨.inr h.1, h.2⟩
      · rintro ⟨rfl | hi, hno⟩
        · exact absurd hseen hno
        · exact ⟨hi, hno⟩
    · next hseen =>
      obtain ⟨hnodup, hmem⟩ := ih (r.id :: seen)
      refine ⟨?_, fun i => ?_⟩
      · rw [List.map_cons, List.nodup_cons]
        exact ⟨fun h => ((hmem _).mp h).2 List.mem_cons_self, hnodup⟩
      · rw [List.map_cons, List.map_cons, List.mem_cons, List.mem_cons, hmem, List.mem_cons]
        by_cases hi : i = r.id
        · rw [hi]
          exact ⟨fun _ => ⟨.inl rfl, hseen⟩, fun _ => .inl rfl⟩
        · constructor
          · rintro (h | ⟨h, hno⟩)
            · exact absurd h hi
            · exact ⟨.inr h, fun hs => hno (.inr hs)⟩
          · rintro ⟨h | h, hno⟩
            · exact absurd h hi
            · exact .inr ⟨h, fun hs => hs.elim hi hno⟩

/-- What holds of the rooms of a plan. -/
structure Connected (plan : BuildPlan) : Prop where
  distinct : (plan.rooms.map RoomPlan.id).Nodup
  ids : ∀ r ∈ plan.rooms, IsRoomId r.id
  dests : ∀ r ∈ plan.rooms, ∀ e ∈ r.exits, e.dest ∈ plan.rooms.map RoomPlan.id
  exits : ∀ r ∈ plan.rooms, ∀ e ∈ r.exits, IsExit e
  start : ∀ r ∈ plan.rooms.head?, plan.startRoom = r.id

/-- **The exits of a plan lead to its rooms.** -/
theorem connected_parse (adventureId md : Text) : Connected (parse adventureId md) := by
  have hids : ∀ known : List Text, ((readRooms md).map fun r => { r with
      exits := r.exits.filter fun e => e.dest ∈ known }).map RoomPlan.id = (readRooms md).map RoomPlan.id := by
    intro known
    rw [List.map_map]
    rfl
  have hroom : ∀ r ∈ (parse adventureId md).rooms, ∃ r₀ ∈ readRooms md, r = { r₀ with
      exits := r₀.exits.filter fun e => e.dest ∈ (readRooms md).map RoomPlan.id } := by
    intro r hr
    obtain ⟨r₀, hr₀, heq⟩ := List.mem_map.mp (dedupRooms_subset _ _ r hr)
    exact ⟨r₀, hr₀, heq.symm⟩
  obtain ⟨hnodup, hmem⟩ := dedupRooms_ids [] ((readRooms md).map fun r => { r with
    exits := r.exits.filter fun e => e.dest ∈ (readRooms md).map RoomPlan.id })
  refine ⟨hnodup, fun r hr => ?_, fun r hr e he => ?_, fun r hr e he => ?_, fun r hr => ?_⟩
  · obtain ⟨r₀, hr₀, rfl⟩ := hroom r hr
    exact (readRooms_ok md r₀ hr₀).roomId
  · obtain ⟨r₀, hr₀, rfl⟩ := hroom r hr
    refine (hmem e.dest).mpr ⟨?_, List.not_mem_nil⟩
    rw [hids]
    simpa using (List.mem_filter.mp he).2
  · obtain ⟨r₀, hr₀, rfl⟩ := hroom r hr
    exact (readRooms_ok md r₀ hr₀).exits e (List.mem_filter.mp he).1
  · have hstart : (parse adventureId md).startRoom
        = ((parse adventureId md).rooms.head?.map RoomPlan.id).getD "R_START".toList := rfl
    rw [hstart, hr]
    rfl

/-! ## Instances -/

theorem lookup_renaming (pre : Text) (rooms : List RoomPlan) (m : Table Text Text) (id : Text) :
    (rooms.foldl (fun m r => m.insert r.id (instanceId pre r.id)) m).lookup id
      = if id ∈ rooms.map RoomPlan.id then some (instanceId pre id) else m.lookup id := by
  induction rooms generalizing m with
  | nil => simp
  | cons r rooms ih =>
    rw [List.foldl_cons, ih, Table.lookup_insert_eq, List.map_cons]
    by_cases hid : id = r.id
    · simp [hid]
    · simp [hid]

/-- The exit in an instance. -/
def renameExit (pre : Text) (e : ExitDef) : ExitDef := { e with dest := instanceId pre e.dest }

/-- **An instance has the rooms and the exits of the plan**, renamed. -/
theorem instantiateRoomsCut_eq {plan : BuildPlan} (h : Connected plan) (pre : Text) :
    instantiateRoomsCut pre plan = some (instantiateRooms pre plan)
      ∧ (instantiateRooms pre plan).map (fun r => (r.1, r.2.exits))
        = plan.rooms.map fun r => (instanceId pre r.id, r.exits.map (renameExit pre)) := by
  have hlookup : ∀ id ∈ plan.rooms.map RoomPlan.id, (plan.rooms.foldl
      (fun m r => m.insert r.id (instanceId pre r.id)) (∅ : Table Text Text)).lookup id = some (instanceId pre id) := by
    intro id hid
    rw [lookup_renaming, if_pos hid]
  constructor
  · rw [instantiateRoomsCut, instantiateRooms]
    have hmapM : ∀ (f : RoomPlan → Option (Text × RoomDef)) (g : RoomPlan → Text × RoomDef) (rs : List RoomPlan),
        (∀ r ∈ rs, f r = some (g r)) → rs.mapM f = some (rs.map g) := by
      intro f g rs hfg
      induction rs with
      | nil => rfl
      | cons r rs ih =>
        rw [List.mapM_cons, hfg r List.mem_cons_self, ih fun r' hr' => hfg r' (List.mem_cons_of_mem _ hr')]
        rfl
    refine hmapM _ _ _ fun r hr => ?_
    rw [hlookup r.id (List.mem_map_of_mem hr)]
    rfl
  · rw [instantiateRooms, List.map_map]
    refine List.map_congr_left fun r hr => ?_
    refine Prod.ext rfl ?_
    have hexit : ∀ e ∈ r.exits, ((plan.rooms.foldl (fun m r => m.insert r.id (instanceId pre r.id))
        (∅ : Table Text Text)).lookup e.dest).map (fun dest => (⟨e.dir, dest, false, none⟩ : ExitDef))
          = some (renameExit pre e) := by
      intro e he
      obtain ⟨-, hsealed, hgate⟩ := h.exits r hr e he
      rw [hlookup e.dest (h.dests r hr e he), Option.map_some, renameExit, hsealed, hgate]
    have hall : ∀ es : List ExitDef, (∀ e ∈ es, e ∈ r.exits) → es.filterMap (fun e => ((plan.rooms.foldl
        (fun m r => m.insert r.id (instanceId pre r.id)) (∅ : Table Text Text)).lookup e.dest).map
          (fun dest => (⟨e.dir, dest, false, none⟩ : ExitDef))) = es.map (renameExit pre) := by
      intro es hes
      induction es with
      | nil => rfl
      | cons e es ih =>
        rw [List.filterMap_cons, hexit e (hes e List.mem_cons_self), ih fun e' he' => hes e' (List.mem_cons_of_mem _ he')]
        rfl
    exact hall r.exits fun e he => he

theorem instanceId_injective (pre : Text) : Function.Injective (instanceId pre) := by
  intro id id' h
  have htail := List.append_cancel_left h
  exact (List.cons.inj htail).2

/-- **Exits always lead somewhere.** Every text is read as a plan without a panic; the ids of its rooms
are distinct and of the form `R_…`, its exits have a direction and lead to its rooms, and it starts in
the first. An instance of it has a room for each, with the same exits under the new names. -/
theorem exits_lead_somewhere (adventureId md : Text) :
    ∃ plan, parseCut adventureId md = some plan
      ∧ (plan.rooms.map RoomPlan.id).Nodup
      ∧ (∀ r ∈ plan.rooms, IsRoomId r.id ∧ ∀ e ∈ r.exits, e.dir ≠ [] ∧ e.dest ∈ plan.rooms.map RoomPlan.id)
      ∧ (∀ r ∈ plan.rooms.head?, plan.startRoom = r.id)
      ∧ ∀ pre, ∃ rooms, instantiateRoomsCut pre plan = some rooms
        ∧ (rooms.map Prod.fst).Nodup
        ∧ rooms.map (fun r => (r.1, r.2.exits))
          = plan.rooms.map fun r => (instanceId pre r.id, r.exits.map (renameExit pre)) := by
  have h := connected_parse adventureId md
  refine ⟨_, parseCut_eq adventureId md, h.distinct,
    fun r hr => ⟨h.ids r hr, fun e he => ⟨(h.exits r hr e he).1, h.dests r hr e he⟩⟩, h.start, fun pre => ?_⟩
  obtain ⟨hcut, hsame⟩ := instantiateRoomsCut_eq h pre
  refine ⟨_, hcut, ?_, hsame⟩
  have hids : (instantiateRooms pre (parse adventureId md)).map Prod.fst
      = ((parse adventureId md).rooms.map RoomPlan.id).map (instanceId pre) := by
    have hfst := congrArg (List.map Prod.fst) hsame
    rw [List.map_map, List.map_map] at hfst
    rw [List.map_map]
    exact hfst
  rw [hids]
  exact h.distinct.map (instanceId_injective pre)

end ProtoAdventure

end Slopmud.Shard
