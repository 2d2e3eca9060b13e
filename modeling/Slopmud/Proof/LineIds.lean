import Slopmud.Broker.LineId
import Slopmud.Lib.Trim

/-!
# Line ids read back, and grow

A printed id is read in base 32 only if it has a letter: thirteen digits are taken for a decimal
number, which is another one as soon as it is 10 or more. The ids of one generator grow whatever
its clock does: time never goes back, and within a millisecond the sequence number grows, or wraps
and takes time with it.
-/

namespace Slopmud.Broker

namespace LineId

/-! ## Printing -/

def alph (d : Nat) : Char := ALPH.getD d '0'

/-- The base-32 digits of an id. -/
def digits (id : LineId) : List Nat := Radix.numeral 32 13 id.val.toNat

theorem encodeLoop_eq (n : Nat) (v : UInt64) (out : Text) :
    encodeLoop n v out = (Radix.numeral 32 n v.toNat).map alph ++ out := by
  induction n generalizing v out with
  | zero => rfl
  | succ n ih =>
    have hshift : (v >>> 5).toNat = v.toNat / 32 := by
      rw [UInt64.toNat_shiftRight, Nat.shiftRight_eq_div_pow]
      rfl
    have hlow : (v &&& 31).toNat = v.toNat % 32 := by
      rw [UInt64.toNat_and]
      exact Nat.and_two_pow_sub_one_eq_mod v.toNat 5
    rw [encodeLoop, ih, hshift, hlow, Radix.numeral, List.map_append, List.append_assoc]
    rfl

theorem encode_eq (id : LineId) : id.encode = id.digits.map alph := by
  rw [encode, encodeLoop_eq, List.append_nil, digits]

theorem value_digits (id : LineId) : Radix.value 32 id.digits = id.val.toNat :=
  Radix.value_numeral (Nat.lt_of_lt_of_le id.val.toNat_lt (by decide))

theorem digits_lt {id : LineId} {d : Nat} (h : d ∈ id.digits) : d < 32 :=
  Radix.lt_of_mem_numeral (by decide) h

theorem digits_ne_nil (id : LineId) : id.digits ≠ [] := by
  intro h
  have hlen := Radix.numeral_length 32 13 id.val.toNat
  rw [← digits, h] at hlen
  cases hlen

/-- What a character of the alphabet is. -/
theorem alph_spec : ∀ d < 32, digitVal (alph d) = some d ∧ Text.isWhitespace (alph d) = false
    ∧ alph d ≠ '@' ∧ Text.isAsciiDigit (alph d) = decide (d < 10)
    ∧ (d < 10 → (alph d).toNat - '0'.toNat = d) := by
  decide

theorem map_digitVal_encode (id : LineId) : id.encode.map digitVal = id.digits.map some := by
  rw [encode_eq, List.map_map]
  exact List.map_congr_left fun d hd => (alph_spec d (digits_lt hd)).1

/-- **Two ids never print alike.** -/
theorem encode_inj {id id' : LineId} (h : id.encode = id'.encode) : id = id' := by
  have hdigits : id.digits = id'.digits := by
    have hval := map_digitVal_encode id
    rw [h, map_digitVal_encode] at hval
    exact (List.map_injective_iff.mpr (Option.some_injective _) hval).symm
  have hval := value_digits id
  rw [hdigits, value_digits] at hval
  obtain ⟨v⟩ := id
  obtain ⟨v'⟩ := id'
  exact congrArg LineId.mk (UInt64.toNat_inj.mp hval.symm)

/-! ## Reading -/

/-- What a player may type for an id: white space around it, `@` signs before it, and capitals in it. -/
def Types (id : LineId) (s : Text) : Prop :=
  ∃ before ats body after, s = before ++ ats ++ body ++ after
    ∧ (∀ c ∈ before, Text.isWhitespace c = true) ∧ (∀ c ∈ ats, c = '@')
    ∧ Text.toAsciiLowercase body = id.encode ∧ (∀ c ∈ after, Text.isWhitespace c = true)

theorem lowerChar_at : Text.lowerChar '@' = '@' := by decide

theorem isAsciiDigit_lowerChar (c : Char) :
    Text.isAsciiDigit (Text.lowerChar c) = Text.isAsciiDigit c := by
  cases hup : Text.isAsciiUppercase c with
  | false => rw [Text.lowerChar_of_not_upper hup]
  | true =>
    -- a capital is no digit, and neither is its small letter
    obtain ⟨hlo, hhi⟩ := Text.isAsciiUppercase_iff.mp hup
    have hletters : ∀ k < 26, Text.isAsciiDigit (Char.ofNat (65 + k)) = false
        ∧ Text.isAsciiDigit (Char.ofNat (65 + k + 32)) = false := by decide
    obtain ⟨hcap, hsmall⟩ := hletters (c.toNat - 65) (by omega)
    rw [show 65 + (c.toNat - 65) = c.toNat by omega, Char.ofNat_toNat] at hcap
    rw [show 65 + (c.toNat - 65) = c.toNat by omega] at hsmall
    rw [Text.lowerChar, if_pos hup, hcap, hsmall]

theorem lowerChar_of_digit {c : Char} (h : Text.isAsciiDigit c = true) : Text.lowerChar c = c := by
  refine Text.lowerChar_of_not_upper ?_
  cases hup : Text.isAsciiUppercase c with
  | false => rfl
  | true =>
    obtain ⟨hlo, -⟩ := Text.isAsciiUppercase_iff.mp hup
    have hhi : c.toNat ≤ 57 := by
      simp only [Text.isAsciiDigit, Bool.and_eq_true, decide_eq_true_eq, Char.le_def,
        UInt32.le_iff_toNat_le] at h
      exact h.2
    omega

section

variable {id : LineId} {body : Text} (h : Text.toAsciiLowercase body = id.encode)

include h

/-- Every character of a typed id is one of the alphabet, or its capital. -/
theorem exists_digit {c : Char} (hc : c ∈ body) : ∃ d ∈ id.digits, Text.lowerChar c = alph d := by
  have hlow : Text.lowerChar c ∈ id.encode := h ▸ List.mem_map_of_mem hc
  rw [encode_eq] at hlow
  obtain ⟨d, hd, hcd⟩ := List.mem_map.mp hlow
  exact ⟨d, hd, hcd.symm⟩

theorem body_ne_nil : body ≠ [] := by
  rintro rfl
  have hlen := congrArg List.length h
  rw [encode_eq, List.length_map] at hlen
  exact digits_ne_nil id (List.length_eq_zero_iff.mp hlen.symm)

theorem body_noWhitespace : Text.NoWhitespace body := by
  intro c hc
  obtain ⟨d, hd, hcd⟩ := exists_digit h hc
  rw [← Text.isWhitespace_lowerChar, hcd]
  exact (alph_spec d (digits_lt hd)).2.1

theorem at_notMem_body : '@' ∉ body := by
  intro hat
  obtain ⟨d, hd, hcd⟩ := exists_digit h hat
  rw [lowerChar_at] at hcd
  exact (alph_spec d (digits_lt hd)).2.2.1 hcd.symm

theorem all_isAsciiDigit_body : body.all Text.isAsciiDigit = true ↔ ∀ d ∈ id.digits, d < 10 := by
  have hall : body.all Text.isAsciiDigit = id.encode.all Text.isAsciiDigit := by
    rw [← h, Text.toAsciiLowercase, List.all_map]
    exact congrArg _ (funext fun c => (isAsciiDigit_lowerChar c).symm)
  rw [hall, encode_eq, List.all_map, List.all_eq_true]
  refine forall₂_congr fun d hd => ?_
  rw [Function.comp_apply, (alph_spec d (digits_lt hd)).2.2.2.1, decide_eq_true_eq]

end

/-- White space, `@` signs and capitals do not change what is read. -/
theorem trim_typed {before ats body after : Text} {id : LineId}
    (hbefore : ∀ c ∈ before, Text.isWhitespace c = true) (hats : ∀ c ∈ ats, c = '@')
    (h : Text.toAsciiLowercase body = id.encode) (hafter : ∀ c ∈ after, Text.isWhitespace c = true) :
    (Text.trim (before ++ ats ++ body ++ after)).dropWhile (· == '@') = body := by
  have hws : Text.NoWhitespace (ats ++ body) := by
    intro c hc
    rcases List.mem_append.mp hc with hc | hc
    · rw [hats c hc]
      rfl
    · exact body_noWhitespace h c hc
  rw [List.append_assoc before, Text.trim_pad hbefore hws hafter, List.dropWhile_append_of_pos]
  · cases body with
    | nil => rfl
    | cons c body =>
      have hc : c ≠ '@' := fun heq => at_notMem_body h (heq ▸ List.mem_cons_self)
      exact List.dropWhile_cons_of_neg (by simpa using hc)
  · intro c hc
    rw [hats c hc]
    rfl

/-- Thirteen digits are read in base 10. -/
theorem decode_digits {id : LineId} {body : Text} (h : Text.toAsciiLowercase body = id.encode)
    (hdigits : ∀ d ∈ id.digits, d < 10) :
    ofDigits 10 (body.map fun c => c.toNat - '0'.toNat) = some id ↔ id.val.toNat < 10 := by
  have hall := List.all_eq_true.mp ((all_isAsciiDigit_body h).mpr hdigits)
  have hbody : body = id.encode := by
    rw [← h, Text.toAsciiLowercase]
    have hlow : body.map Text.lowerChar = body.map fun c => c :=
      List.map_congr_left fun c hc => lowerChar_of_digit (hall c hc)
    rw [hlow, List.map_id']
  have hmap : (body.map fun c => c.toNat - '0'.toNat) = id.digits := by
    rw [hbody, encode_eq, List.map_map]
    refine (List.map_congr_left fun d hd => ?_).trans (List.map_id _)
    exact (alph_spec d (digits_lt hd)).2.2.2.2 (hdigits d hd)
  have hle : Radix.value 10 id.digits ≤ id.val.toNat := by
    rw [← value_digits id]
    exact Radix.value_mono (by decide) _
  have hlt := id.val.toNat_lt
  have hmax : Radix.value 10 id.digits ≤ Word.maxU64 := hle.trans (Nat.le_sub_one_of_lt hlt)
  rw [hmap, ofDigits, Radix.checked_of_le (by decide) hmax,
    ← value_digits id, ← Radix.value_eq_value_iff (by decide) hdigits (by decide), value_digits]
  constructor
  · intro hid
    have hval : UInt64.ofNat (Radix.value 10 id.digits) = id.val :=
      congrArg LineId.val (Option.some.inj hid)
    rw [← hval, UInt64.toNat_ofNat_of_lt' (hle.trans_lt hlt)]
  · intro hval
    rw [hval, Option.map_some, UInt64.ofNat_toNat]

theorem mapM_of_map {A B : Type} {f : A → Option B} {l : List A} {m : List B}
    (h : l.map f = m.map some) : l.mapM f = some m := by
  induction l generalizing m with
  | nil =>
    cases m with
    | nil => rfl
    | cons b m => cases h
  | cons a l ih =>
    cases m with
    | nil => cases h
    | cons b m =>
      obtain ⟨ha, hl⟩ := List.cons.inj h
      rw [List.mapM_cons, ha, ih hl]
      rfl

/-- A text with a letter is read in base 32. -/
theorem decode_letters {id : LineId} {body : Text} (h : Text.toAsciiLowercase body = id.encode) :
    (body.mapM fun c => digitVal (Text.lowerChar c)).bind (ofDigits 32) = some id := by
  have hmap : (body.mapM fun c => digitVal (Text.lowerChar c)) = some id.digits := by
    refine mapM_of_map ?_
    rw [← map_digitVal_encode, ← h, Text.toAsciiLowercase, List.map_map]
    rfl
  have hle : Radix.value 32 id.digits ≤ Word.maxU64 := by
    rw [value_digits]
    exact Nat.le_sub_one_of_lt id.val.toNat_lt
  rw [hmap, Option.bind_some, ofDigits, Radix.checked_of_le (by decide) hle, value_digits,
    Option.map_some, UInt64.ofNat_toNat]

/-- **Ids read back** exactly when one of their base-32 digits is a letter, or they are less than
10; and no two of them print alike. -/
theorem line_ids_survive_iff (id : LineId) :
    (∀ s, id.Types s →
      (decode s = some id ↔ (∃ i < 13, 10 ≤ id.val.toNat / 32 ^ i % 32) ∨ id.val.toNat < 10))
      ∧ ∀ id' : LineId, id ≠ id' → id.encode ≠ id'.encode := by
  refine ⟨?_, fun id' hne henc => hne (encode_inj henc)⟩
  rintro _ ⟨before, ats, body, after, rfl, hbefore, hats, h, hafter⟩
  have hne : body.isEmpty = false := by
    rw [List.isEmpty_eq_false_iff]
    exact body_ne_nil h
  have hletter : (∃ i < 13, 10 ≤ id.val.toNat / 32 ^ i % 32) ↔ ∃ d ∈ id.digits, 10 ≤ d := by
    constructor
    · rintro ⟨i, hi, hd⟩
      exact ⟨_, Radix.mem_numeral.mpr ⟨i, hi, rfl⟩, hd⟩
    · rintro ⟨d, hd, h10⟩
      obtain ⟨i, hi, rfl⟩ := Radix.mem_numeral.mp hd
      exact ⟨i, hi, h10⟩
  simp only [decode, trim_typed hbefore hats h hafter, hne, Bool.false_eq_true, if_false, hletter]
  by_cases hdigits : ∀ d ∈ id.digits, d < 10
  · rw [if_pos ((all_isAsciiDigit_body h).mpr hdigits), decode_digits h hdigits]
    constructor
    · exact Or.inr
    · rintro (⟨d, hd, h10⟩ | hlt)
      · exact absurd (hdigits d hd) (by omega)
      · exact hlt
  · rw [if_neg (mt (all_isAsciiDigit_body h).mp hdigits), decode_letters h]
    push Not at hdigits
    exact iff_of_true rfl (Or.inl hdigits)

theorem line_ids_survive_aa : decode " @@00000000000Aa\t".toList = some ⟨330⟩ := by
  have hats : ∀ c ∈ "@@".toList, c = '@' := by
    have hall : "@@".toList.all (· == '@') = true := by decide
    exact fun c hc => beq_iff_eq.mp (List.all_eq_true.mp hall c hc)
  exact ((line_ids_survive_iff ⟨330⟩).1 _
    ⟨" ".toList, "@@".toList, "00000000000Aa".toList, "\t".toList, by decide,
      List.all_eq_true.mp (by decide), hats, by decide,
      List.all_eq_true.mp (by decide)⟩).mpr
      (Or.inl ⟨0, by decide⟩)

/-- Thirty-two is printed as thirteen digits, and those are read as ten. -/
theorem thirty_two_reads_as_ten :
    decode (encode ⟨32⟩) = some ⟨10⟩ ∧ decode (encode ⟨32⟩) ≠ some ⟨32⟩ := by
  decide

end LineId

/-! ## Making ids -/

namespace LineIdGen

/-- The fields that an id is packed from do not overlap. -/
theorem toNat_idAt {g : LineIdGen} (h : g.lastTsMs < LINEID_EPOCH_UNIX_MS + 2 ^ 42) :
    g.idAt.val.toNat = (g.lastTsMs - LINEID_EPOCH_UNIX_MS) * 2 ^ 22 + g.nodeBits % 2 ^ 10 * 2 ^ 12
      + g.seq % 2 ^ 12 := by
  have hnode : g.nodeBits &&& 0x03ff = g.nodeBits % 2 ^ 10 := Nat.and_two_pow_sub_one_eq_mod _ 10
  have hseq : g.seq &&& 0x0fff = g.seq % 2 ^ 12 := Nat.and_two_pow_sub_one_eq_mod _ 12
  have hs : g.seq % 2 ^ 12 < 2 ^ 12 := Nat.mod_lt _ (by decide)
  have hlow := Nat.shiftLeft_add_eq_or_of_lt hs (g.nodeBits % 2 ^ 10)
  have hlt : (g.nodeBits % 2 ^ 10) <<< 12 + g.seq % 2 ^ 12 < 2 ^ 22 := by
    rw [Nat.shiftLeft_eq]
    omega
  have hval : (g.lastTsMs - LINEID_EPOCH_UNIX_MS) <<< 22 ||| (g.nodeBits % 2 ^ 10) <<< 12 |||
      g.seq % 2 ^ 12 = (g.lastTsMs - LINEID_EPOCH_UNIX_MS) * 2 ^ 22 + g.nodeBits % 2 ^ 10 * 2 ^ 12
        + g.seq % 2 ^ 12 := by
    rw [Nat.or_assoc, ← hlow, ← Nat.shiftLeft_add_eq_or_of_lt hlt, Nat.shiftLeft_eq, Nat.shiftLeft_eq,
      Nat.add_assoc]
  rw [idAt, hnode, hseq, hval, UInt64.toNat_ofNat_of_lt']
  simp only [UInt64.size]
  omega

/-- A generator that has made an id, within the range of its time field. -/
structure Started (g : LineIdGen) : Prop where
  epoch : LINEID_EPOCH_UNIX_MS ≤ g.lastTsMs
  inRange : g.lastTsMs < LINEID_EPOCH_UNIX_MS + 2 ^ 42
  seq : g.seq < 2 ^ 12

/-- The time field is the time. -/
theorem Started.timestamp {g : LineIdGen} (h : g.Started) :
    g.idAt.timestampUnixMs = some g.lastTsMs := by
  have hshift : (g.idAt.val >>> 22).toNat = g.lastTsMs - LINEID_EPOCH_UNIX_MS := by
    rw [UInt64.toNat_shiftRight, toNat_idAt h.inRange, show (22 : UInt64).toNat % 64 = 22 from rfl,
      Nat.shiftRight_eq_div_pow]
    have hrange := h.inRange
    omega
  have hle := h.inRange
  have hepoch := h.epoch
  rw [LineId.timestampUnixMs, hshift, Word.satAdd64_of_lt]
  · exact congrArg some (by omega)
  · simp only [Word.maxU64, LINEID_EPOCH_UNIX_MS] at hle hepoch ⊢
    omega

/-- **What one call does** to the time and the sequence number. -/
theorem advance_spec {g : LineIdGen} {now : Nat} (hseq : g.seq < 2 ^ 12)
    (h : (g.advance now).lastTsMs < LINEID_EPOCH_UNIX_MS + 2 ^ 42) :
    (g.advance now).nodeBits = g.nodeBits ∧ (g.advance now).seq < 2 ^ 12
      ∧ now ≤ (g.advance now).lastTsMs
      ∧ (g.lastTsMs < (g.advance now).lastTsMs
        ∨ g.lastTsMs = (g.advance now).lastTsMs ∧ g.seq < (g.advance now).seq) := by
  have hmask : (g.seq + 1) &&& 0x0fff = (g.seq + 1) % 2 ^ 12 := Nat.and_two_pow_sub_one_eq_mod _ 12
  by_cases hsame : max now g.lastTsMs = g.lastTsMs
  · by_cases hwrap : (g.seq + 1) % 2 ^ 12 = 0
    · have hadv : g.advance now = ⟨g.nodeBits, Word.satAdd64 (max now g.lastTsMs) 1, 0⟩ := by
        simp only [advance, hmask, if_pos hsame, hwrap, if_true]
      rw [hadv] at h ⊢
      simp only [Word.satAdd64, Word.maxU64, LINEID_EPOCH_UNIX_MS, true_and] at h ⊢
      omega
    · have hadv : g.advance now = ⟨g.nodeBits, max now g.lastTsMs, (g.seq + 1) % 2 ^ 12⟩ := by
        simp only [advance, hmask, if_pos hsame, if_neg hwrap]
      rw [hadv]
      simp only [true_and]
      omega
  · have hadv : g.advance now = ⟨g.nodeBits, max now g.lastTsMs, 0⟩ := by
      simp only [advance, if_neg hsame]
    rw [hadv]
    simp only [true_and]
    omega

/-- The next id is greater, and its time no earlier. -/
theorem Started.next {g : LineIdGen} {now : Nat} (hg : g.Started)
    (h : (g.advance now).lastTsMs < LINEID_EPOCH_UNIX_MS + 2 ^ 42) :
    (g.advance now).Started ∧ g.lastTsMs ≤ (g.advance now).lastTsMs
      ∧ g.idAt.val < (g.advance now).idAt.val := by
  obtain ⟨hnode, hseq, -, hgrows⟩ := advance_spec hg.seq h
  have hepoch := hg.epoch
  have hseq' := hg.seq
  refine ⟨⟨by omega, h, hseq⟩, by omega, ?_⟩
  rw [UInt64.lt_iff_toNat_lt, toNat_idAt hg.inRange, toNat_idAt h, hnode]
  omega

theorem Started.first {g : LineIdGen} {now : Nat} (hseq : g.seq < 2 ^ 12)
    (hnow : LINEID_EPOCH_UNIX_MS ≤ now)
    (h : (g.advance now).lastTsMs < LINEID_EPOCH_UNIX_MS + 2 ^ 42) : (g.advance now).Started := by
  obtain ⟨-, hseq', hle, -⟩ := advance_spec hseq h
  exact ⟨hnow.trans hle, h, hseq'⟩

/-- Every id of a run is later than where the run started. -/
theorem Started.ids_after {g : LineIdGen} {clock : List Nat} (hg : g.Started)
    (h : ∀ t ∈ g.timestamps clock, t < LINEID_EPOCH_UNIX_MS + 2 ^ 42) :
    ∀ id ∈ g.ids clock, g.idAt.val < id.val := by
  induction clock generalizing g with
  | nil => simp [ids]
  | cons now clock ih =>
    obtain ⟨hnext, -, hlt⟩ := hg.next (h _ List.mem_cons_self)
    intro id hid
    rcases List.mem_cons.mp hid with rfl | hid
    · exact hlt
    · exact UInt64.lt_trans hlt (ih hnext (fun t ht => h t (List.mem_cons_of_mem _ ht)) id hid)

/-- **A run of calls**, from any state of the generator. -/
theorem ids_grow {g : LineIdGen} {clock : List Nat} (hseq : g.seq < 2 ^ 12)
    (hclock : ∀ now ∈ clock, LINEID_EPOCH_UNIX_MS ≤ now)
    (h : ∀ t ∈ g.timestamps clock, t < LINEID_EPOCH_UNIX_MS + 2 ^ 42) :
    (g.ids clock).Pairwise (fun a b => a.val < b.val) := by
  induction clock generalizing g with
  | nil => exact List.Pairwise.nil
  | cons now clock ih =>
    have hstart := Started.first hseq (hclock now List.mem_cons_self) (h _ List.mem_cons_self)
    have hrest : ∀ t ∈ (g.advance now).timestamps clock, t < LINEID_EPOCH_UNIX_MS + 2 ^ 42 :=
      fun t ht => h t (List.mem_cons_of_mem _ ht)
    refine List.pairwise_cons.mpr ⟨hstart.ids_after hrest, ?_⟩
    exact ih hstart.seq (fun t ht => hclock t (List.mem_cons_of_mem _ ht)) hrest

/-- The time of an id is no earlier than any reading before it. -/
theorem Started.timestamps_after {g : LineIdGen} {clock : List Nat} (hg : g.Started)
    (h : ∀ t ∈ g.timestamps clock, t < LINEID_EPOCH_UNIX_MS + 2 ^ 42) {i : Nat} {id : LineId}
    (hid : (g.ids clock)[i]? = some id) :
    ∃ t, id.timestampUnixMs = some t ∧ g.lastTsMs ≤ t ∧ ∀ now ∈ clock.take (i + 1), now ≤ t := by
  induction clock generalizing g i with
  | nil => simp [ids] at hid
  | cons now clock ih =>
    obtain ⟨hnext, hle, -⟩ := hg.next (h _ List.mem_cons_self)
    obtain ⟨-, -, hnow, -⟩ := advance_spec hg.seq hnext.inRange
    cases i with
    | zero =>
      cases hid
      refine ⟨_, hnext.timestamp, hle, ?_⟩
      intro now' hnow'
      rw [List.take_succ_cons, List.take_zero, List.mem_singleton] at hnow'
      exact hnow' ▸ hnow
    | succ i =>
      obtain ⟨t, ht, hlast, hall⟩ := ih hnext (fun t ht => h t (List.mem_cons_of_mem _ ht)) hid
      refine ⟨t, ht, hle.trans hlast, ?_⟩
      intro now' hnow'
      rw [List.take_succ_cons] at hnow'
      rcases List.mem_cons.mp hnow' with rfl | hnow'
      · exact hnow.trans hlast
      · exact hall now' hnow'

/-- **Line ids are unique and ordered**: whatever the clock does after the epoch, the ids of one
generator grow, and the time in each is no earlier than any clock reading so far. -/
theorem line_ids_unique_and_ordered (hash : Text → Nat) (random : Nat) (nodeId : Option Text)
    (clock : List Nat) (hclock : ∀ now ∈ clock, LINEID_EPOCH_UNIX_MS ≤ now)
    (hrange : ∀ t ∈ (new hash random nodeId).timestamps clock, t < LINEID_EPOCH_UNIX_MS + 2 ^ 42) :
    ((new hash random nodeId).ids clock).Pairwise (fun a b => a.val < b.val)
      ∧ ∀ (i : Nat) (id : LineId), ((new hash random nodeId).ids clock)[i]? = some id →
        ∃ t, id.timestampUnixMs = some t ∧ ∀ now ∈ clock.take (i + 1), now ≤ t := by
  have hseq : (new hash random nodeId).seq < 2 ^ 12 := Nat.two_pow_pos 12
  refine ⟨ids_grow hseq hclock hrange, fun i id hid => ?_⟩
  cases clock with
  | nil => simp [ids] at hid
  | cons now clock =>
    have hfirst := hrange _ List.mem_cons_self
    have hstart := Started.first hseq (hclock now List.mem_cons_self) hfirst
    obtain ⟨-, -, hnow, -⟩ := advance_spec hseq hfirst
    have hrest : ∀ t ∈ ((new hash random nodeId).advance now).timestamps clock,
        t < LINEID_EPOCH_UNIX_MS + 2 ^ 42 := fun t ht => hrange t (List.mem_cons_of_mem _ ht)
    cases i with
    | zero =>
      cases hid
      exact ⟨_, hstart.timestamp, by simpa using hnow⟩
    | succ i =>
      obtain ⟨t, ht, hlast, hall⟩ := hstart.timestamps_after hrest hid
      refine ⟨t, ht, fun now' hnow' => ?_⟩
      rw [List.take_succ_cons] at hnow'
      rcases List.mem_cons.mp hnow' with rfl | hnow'
      · exact hnow.trans hlast
      · exact hall now' hnow'

/-- Two lines in one millisecond, and one after the clock was set back. -/
theorem line_ids_unique_and_ordered_setBack :
    ((new (fun _ => 0) 0 (some "5".toList)).ids [LINEID_EPOCH_UNIX_MS + 7, LINEID_EPOCH_UNIX_MS + 7,
      LINEID_EPOCH_UNIX_MS]).Pairwise (fun a b => a.val < b.val) :=
  (line_ids_unique_and_ordered (fun _ => 0) 0 (some "5".toList) _ (by decide) (by decide)).1

end LineIdGen

end Slopmud.Broker
