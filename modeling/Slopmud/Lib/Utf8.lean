import Mathlib.Data.List.Basic
import Slopmud.Lib.Text

/-!
# UTF-8

Encoding, and decoding as `String::from_utf8_lossy` does it: every maximal invalid
part becomes one U+FFFD. Besides the round trip the development needs one fact:
a byte below 128 always starts a character, so text can be cut in front of it.
-/

abbrev Bytes := List UInt8

namespace Utf8

def encodeChar (c : Char) : Bytes :=
  let n := c.toNat
  if n < 0x80 then [.ofNat n]
  else if n < 0x800 then [.ofNat (0xC0 + n / 0x40), .ofNat (0x80 + n % 0x40)]
  else if n < 0x10000 then
    [.ofNat (0xE0 + n / 0x1000), .ofNat (0x80 + n / 0x40 % 0x40), .ofNat (0x80 + n % 0x40)]
  else
    [.ofNat (0xF0 + n / 0x40000), .ofNat (0x80 + n / 0x1000 % 0x40), .ofNat (0x80 + n / 0x40 % 0x40),
      .ofNat (0x80 + n % 0x40)]

/-- `str::as_bytes` -/
def encode (t : Text) : Bytes := t.flatMap encodeChar

@[simp] theorem encode_append (s t : Text) : encode (s ++ t) = encode s ++ encode t :=
  List.flatMap_append

def replacement : Char := Char.ofNat 0xFFFD

/-- A byte between the two, included. -/
def within (lo hi : Nat) (b : UInt8) : Bool := lo ≤ b.toNat && b.toNat ≤ hi

def isCont (b : UInt8) : Bool := within 0x80 0xBF b

/-- The second bytes that may follow a lead byte of three or four. -/
def secondOk (lead : Nat) (b : UInt8) : Bool :=
  if lead = 0xE0 then within 0xA0 0xBF b
  else if lead = 0xED then within 0x80 0x9F b
  else if lead = 0xF0 then within 0x90 0xBF b
  else if lead = 0xF4 then within 0x80 0x8F b
  else isCont b

/-- The low six bits. -/
def low (b : UInt8) : Nat := b.toNat - 0x80

/-- The character of a lead byte `n` of two, and how many bytes it takes after the lead. -/
def decodeTwo (n : Nat) : Bytes → Char × Nat
  | c :: _ => if isCont c then (Char.ofNat ((n - 0xC0) * 0x40 + low c), 1) else (replacement, 0)
  | [] => (replacement, 0)

/-- Of a lead byte of three, after the second. -/
def decodeThird (n : Nat) (c : UInt8) : Bytes → Char × Nat
  | d :: _ =>
    if isCont d then (Char.ofNat ((n - 0xE0) * 0x1000 + low c * 0x40 + low d), 2) else (replacement, 1)
  | [] => (replacement, 1)

def decodeThree (n : Nat) : Bytes → Char × Nat
  | c :: rest => if secondOk n c then decodeThird n c rest else (replacement, 0)
  | [] => (replacement, 0)

/-- Of a lead byte of four, after the third. -/
def decodeFourth (n : Nat) (c d : UInt8) : Bytes → Char × Nat
  | e :: _ =>
    if isCont e then
      (Char.ofNat ((n - 0xF0) * 0x40000 + low c * 0x1000 + low d * 0x40 + low e), 3)
    else (replacement, 2)
  | [] => (replacement, 2)

def decodeThirdOfFour (n : Nat) (c : UInt8) : Bytes → Char × Nat
  | d :: rest => if isCont d then decodeFourth n c d rest else (replacement, 1)
  | [] => (replacement, 1)

def decodeFour (n : Nat) : Bytes → Char × Nat
  | c :: rest => if secondOk n c then decodeThirdOfFour n c rest else (replacement, 0)
  | [] => (replacement, 0)

/-- The first character, and how many bytes it takes after the first. -/
def decodeHead (b : UInt8) (rest : Bytes) : Char × Nat :=
  let n := b.toNat
  if n < 0x80 then (Char.ofNat n, 0)
  else if 0xC2 ≤ n ∧ n ≤ 0xDF then decodeTwo n rest
  else if 0xE0 ≤ n ∧ n ≤ 0xEF then decodeThree n rest
  else if 0xF0 ≤ n ∧ n ≤ 0xF4 then decodeFour n rest
  else (replacement, 0)

/-- The characters, at most `fuel` of them. -/
def decodeAux : Nat → Bytes → Text
  | 0, _ => []
  | _, [] => []
  | fuel + 1, b :: rest =>
    let (c, extra) := decodeHead b rest
    c :: decodeAux fuel (rest.drop extra)

/-- `String::from_utf8_lossy` -/
def decodeLossy (bs : Bytes) : Text := decodeAux bs.length bs

/-! ## Round trip -/

theorem toNat_ofNat (n : Nat) (h : n < 256) : (UInt8.ofNat n).toNat = n := by
  rw [UInt8.toNat_ofNat']
  exact Nat.mod_eq_of_lt h

theorem charOfNat_toNat (c : Char) : Char.ofNat c.toNat = c := Char.ofNat_toNat c

theorem toNat_valid (c : Char) : c.toNat < 0xD800 ∨ 0xDFFF < c.toNat ∧ c.toNat < 0x110000 := by
  have hvalid := c.valid
  rw [UInt32.isValidChar, Nat.isValidChar] at hvalid
  exact hvalid

theorem toNat_lt (c : Char) : c.toNat < 0x110000 := by
  have hvalid := toNat_valid c
  omega

theorem toNat_not_surrogate (c : Char) : c.toNat < 0xD800 ∨ 0xDFFF < c.toNat := by
  have hvalid := toNat_valid c
  omega

theorem isCont_ofNat {n : Nat} (h : 0x80 ≤ n) (h' : n ≤ 0xBF) : isCont (UInt8.ofNat n) = true := by
  simp only [isCont, within, toNat_ofNat n (by omega), Bool.and_eq_true, decide_eq_true_eq]
  exact ⟨h, h'⟩

theorem low_ofNat {n : Nat} (h : n < 0x40) : low (UInt8.ofNat (0x80 + n)) = n := by
  have hval : (UInt8.ofNat (0x80 + n)).toNat = 0x80 + n := toNat_ofNat _ (by omega)
  unfold low
  omega

/-- Six bits as a continuation byte. -/
theorem isCont_cont {n : Nat} (h : n < 0x40) : isCont (UInt8.ofNat (0x80 + n)) = true :=
  isCont_ofNat (by omega) (by omega)

theorem mod_lt_64 (n : Nat) : n % 0x40 < 0x40 := Nat.mod_lt _ (by decide)

theorem decodeHead_two {n : Nat} (h1 : ¬ n < 0x80) (h2 : n < 0x800) (rest : Bytes) :
    decodeHead (.ofNat (0xC0 + n / 0x40)) (.ofNat (0x80 + n % 0x40) :: rest) = (Char.ofNat n, 1) := by
  have hval : (0xC0 + n / 0x40 - 0xC0) * 0x40 + n % 0x40 = n := by omega
  rw [decodeHead, toNat_ofNat _ (by omega), if_neg (by omega), if_pos (by omega), decodeTwo,
    if_pos (isCont_cont (mod_lt_64 n)), low_ofNat (mod_lt_64 n), hval]

theorem decodeHead_three {n : Nat} (h2 : ¬ n < 0x800) (h3 : n < 0x10000)
    (hsur : n < 0xD800 ∨ 0xDFFF < n) (rest : Bytes) :
    decodeHead (.ofNat (0xE0 + n / 0x1000))
      (.ofNat (0x80 + n / 0x40 % 0x40) :: .ofNat (0x80 + n % 0x40) :: rest) = (Char.ofNat n, 2) := by
  have hsecond : secondOk (0xE0 + n / 0x1000) (.ofNat (0x80 + n / 0x40 % 0x40)) = true := by
    simp only [secondOk, isCont, within, toNat_ofNat (0x80 + n / 0x40 % 0x40) (by omega)]
    split_ifs <;> simp only [Bool.and_eq_true, decide_eq_true_eq] <;> omega
  have hval : (0xE0 + n / 0x1000 - 0xE0) * 0x1000 + n / 0x40 % 0x40 * 0x40 + n % 0x40 = n := by omega
  rw [decodeHead, toNat_ofNat _ (by omega), if_neg (by omega), if_neg (by omega), if_pos (by omega),
    decodeThree, if_pos hsecond, decodeThird, if_pos (isCont_cont (mod_lt_64 n)),
    low_ofNat (mod_lt_64 _), low_ofNat (mod_lt_64 n), hval]

theorem decodeHead_four {n : Nat} (h3 : ¬ n < 0x10000) (hlt : n < 0x110000) (rest : Bytes) :
    decodeHead (.ofNat (0xF0 + n / 0x40000)) (.ofNat (0x80 + n / 0x1000 % 0x40) ::
      .ofNat (0x80 + n / 0x40 % 0x40) :: .ofNat (0x80 + n % 0x40) :: rest) = (Char.ofNat n, 3) := by
  have hsecond : secondOk (0xF0 + n / 0x40000) (.ofNat (0x80 + n / 0x1000 % 0x40)) = true := by
    simp only [secondOk, isCont, within, toNat_ofNat (0x80 + n / 0x1000 % 0x40) (by omega)]
    split_ifs <;> simp only [Bool.and_eq_true, decide_eq_true_eq] <;> omega
  have hval : (0xF0 + n / 0x40000 - 0xF0) * 0x40000 + n / 0x1000 % 0x40 * 0x1000
      + n / 0x40 % 0x40 * 0x40 + n % 0x40 = n := by omega
  rw [decodeHead, toNat_ofNat _ (by omega), if_neg (by omega), if_neg (by omega), if_neg (by omega),
    if_pos (by omega), decodeFour, if_pos hsecond, decodeThirdOfFour,
    if_pos (isCont_cont (mod_lt_64 _)), decodeFourth, if_pos (isCont_cont (mod_lt_64 n)),
    low_ofNat (mod_lt_64 _), low_ofNat (mod_lt_64 _), low_ofNat (mod_lt_64 n), hval]

/-- **A character reads back from its bytes**, whatever follows them. -/
theorem decodeHead_encodeChar (c : Char) (rest : Bytes) : ∃ b bs, encodeChar c = b :: bs ∧
    decodeHead b (bs ++ rest) = (c, bs.length) := by
  have hc : Char.ofNat c.toNat = c := charOfNat_toNat c
  unfold encodeChar
  by_cases h1 : c.toNat < 0x80
  · refine ⟨_, [], if_pos h1, ?_⟩
    rw [decodeHead, toNat_ofNat _ (by omega), if_pos h1, hc]
    rfl
  by_cases h2 : c.toNat < 0x800
  · refine ⟨_, [_], (if_neg h1).trans (if_pos h2), ?_⟩
    rw [List.singleton_append, decodeHead_two h1 h2, hc]
    rfl
  by_cases h3 : c.toNat < 0x10000
  · refine ⟨_, [_, _], (if_neg h1).trans ((if_neg h2).trans (if_pos h3)), ?_⟩
    rw [List.cons_append, List.singleton_append, decodeHead_three h2 h3 (toNat_not_surrogate c), hc]
    rfl
  · refine ⟨_, [_, _, _], (if_neg h1).trans ((if_neg h2).trans (if_neg h3)), ?_⟩
    rw [List.cons_append, List.cons_append, List.singleton_append, decodeHead_four h3 (toNat_lt c), hc]
    rfl

theorem encodeChar_length_pos (c : Char) : 0 < (encodeChar c).length := by
  obtain ⟨b, bs, h, -⟩ := decodeHead_encodeChar c []
  rw [h]
  exact Nat.succ_pos _

theorem decodeAux_cons (fuel : Nat) (b : UInt8) (rest : Bytes) :
    decodeAux (fuel + 1) (b :: rest)
      = (decodeHead b rest).1 :: decodeAux fuel (rest.drop (decodeHead b rest).2) := rfl

theorem decodeAux_nil (fuel : Nat) : decodeAux fuel [] = [] := by cases fuel <;> rfl

theorem decodeAux_encodeChar (fuel : Nat) (c : Char) (rest : Bytes) :
    decodeAux (fuel + 1) (encodeChar c ++ rest) = c :: decodeAux fuel rest := by
  obtain ⟨b, bs, hb, hhead⟩ := decodeHead_encodeChar c rest
  rw [hb, List.cons_append, decodeAux_cons, hhead]
  simp

/-- More fuel than bytes makes no difference. -/
theorem decodeAux_fuel : ∀ (fuel : Nat) (bs : Bytes), bs.length ≤ fuel →
    decodeAux fuel bs = decodeLossy bs := by
  suffices h : ∀ (n fuel fuel' : Nat) (bs : Bytes), bs.length ≤ n → bs.length ≤ fuel →
      bs.length ≤ fuel' → decodeAux fuel bs = decodeAux fuel' bs from
    fun fuel bs hf => h bs.length fuel bs.length bs (Nat.le_refl _) hf (Nat.le_refl _)
  intro n
  induction n with
  | zero =>
    intro fuel fuel' bs hn _ _
    rw [List.length_eq_zero_iff.mp (Nat.le_zero.mp hn), decodeAux_nil, decodeAux_nil]
  | succ n ih =>
    intro fuel fuel' bs hn hf hf'
    cases bs with
    | nil => rw [decodeAux_nil, decodeAux_nil]
    | cons b bs =>
      simp only [List.length_cons] at hn hf hf'
      obtain ⟨f, rfl⟩ : ∃ f, fuel = f + 1 := ⟨fuel - 1, by omega⟩
      obtain ⟨f', rfl⟩ : ∃ f', fuel' = f' + 1 := ⟨fuel' - 1, by omega⟩
      have hdrop : (bs.drop (decodeHead b bs).2).length ≤ bs.length := List.length_drop ▸ Nat.sub_le _ _
      rw [decodeAux_cons, decodeAux_cons, ih f f' _ (by omega) (by omega) (by omega)]

theorem decodeLossy_cons (b : UInt8) (bs : Bytes) :
    decodeLossy (b :: bs) = (decodeHead b bs).1 :: decodeLossy (bs.drop (decodeHead b bs).2) := by
  have hdrop : (bs.drop (decodeHead b bs).2).length ≤ bs.length := List.length_drop ▸ Nat.sub_le _ _
  rw [← decodeAux_fuel bs.length _ hdrop]
  rfl

@[simp] theorem decodeLossy_nil : decodeLossy [] = [] := rfl

/-- **Text reads back from its bytes.** -/
theorem decodeLossy_encode_append (t : Text) (rest : Bytes) :
    decodeLossy (encode t ++ rest) = t ++ decodeLossy rest := by
  induction t with
  | nil => rfl
  | cons c t ih =>
    have hcons : encode (c :: t) ++ rest = encodeChar c ++ (encode t ++ rest) := by simp [encode]
    have hpos := encodeChar_length_pos c
    rw [hcons, ← decodeAux_fuel ((encode t ++ rest).length + (encodeChar c).length) _
      (by simp only [List.length_append]; omega)]
    obtain ⟨k, hk⟩ : ∃ k, (encode t ++ rest).length + (encodeChar c).length = k + 1 :=
      ⟨(encode t ++ rest).length + (encodeChar c).length - 1, by omega⟩
    rw [hk, decodeAux_encodeChar, decodeAux_fuel k _ (by omega), ih]
    rfl

theorem decodeLossy_encode (t : Text) : decodeLossy (encode t) = t := by
  have h := decodeLossy_encode_append t []
  rwa [List.append_nil, decodeLossy_nil, List.append_nil] at h

/-! ## Cutting before an ASCII byte -/

def isAscii (b : UInt8) : Bool := b.toNat < 0x80

theorem isCont_of_isAscii {b : UInt8} (h : isAscii b = true) : isCont b = false := by
  have hb : b.toNat < 0x80 := by simpa [isAscii] using h
  simp only [isCont, within, Bool.and_eq_false_iff, decide_eq_false_iff_not]
  omega

theorem secondOk_of_isAscii {b : UInt8} (h : isAscii b = true) (n : Nat) : secondOk n b = false := by
  have hb : b.toNat < 0x80 := by simpa [isAscii] using h
  simp only [secondOk, isCont, within]
  split_ifs <;> simp only [Bool.and_eq_false_iff, decide_eq_false_iff_not] <;> omega

/-- An ASCII byte does not continue a character, so what follows it does not matter. -/
theorem decodeHead_append_ascii {s : UInt8} (hs : isAscii s = true) (b : UInt8) (rest suf : Bytes) :
    decodeHead b (rest ++ s :: suf) = decodeHead b rest := by
  have hcont := isCont_of_isAscii hs
  have htwo : ∀ n, decodeTwo n (rest ++ s :: suf) = decodeTwo n rest := by
    intro n
    cases rest with
    | nil => simp [decodeTwo, hcont]
    | cons c rest => rfl
  have hthree : ∀ n, decodeThree n (rest ++ s :: suf) = decodeThree n rest := by
    intro n
    cases rest with
    | nil => simp [decodeThree, secondOk_of_isAscii hs]
    | cons c rest =>
      cases rest with
      | nil => simp [decodeThree, decodeThird, hcont]
      | cons d rest => rfl
  have hfour : ∀ n, decodeFour n (rest ++ s :: suf) = decodeFour n rest := by
    intro n
    cases rest with
    | nil => simp [decodeFour, secondOk_of_isAscii hs]
    | cons c rest =>
      cases rest with
      | nil => simp [decodeFour, decodeThirdOfFour, hcont]
      | cons d rest =>
        cases rest with
        | nil => simp [decodeFour, decodeThirdOfFour, decodeFourth, hcont]
        | cons e rest => rfl
  simp only [decodeHead, htwo, hthree, hfour]

/-- The bytes of a character after the first are no ASCII bytes. -/
theorem decodeHead_takes (b : UInt8) (rest : Bytes) : (decodeHead b rest).2 ≤ rest.length ∧
    ∀ c ∈ rest.take (decodeHead b rest).2, isAscii c = false := by
  have hcont : ∀ {c : UInt8}, isCont c = true → isAscii c = false := by
    intro c hc
    by_contra h
    rw [isCont_of_isAscii (by simpa using h)] at hc
    cases hc
  have hsecond : ∀ {c : UInt8} {n : Nat}, secondOk n c = true → isAscii c = false := by
    intro c n hc
    by_contra h
    rw [secondOk_of_isAscii (by simpa using h)] at hc
    cases hc
  have htwo : ∀ n, (decodeTwo n rest).2 ≤ rest.length ∧
      ∀ c ∈ rest.take (decodeTwo n rest).2, isAscii c = false := by
    intro n
    cases rest with
    | nil => simp [decodeTwo]
    | cons c rest =>
      by_cases hc : isCont c = true
      · simp [decodeTwo, hc, hcont hc]
      · simp [decodeTwo, hc]
  have hthree : ∀ n, (decodeThree n rest).2 ≤ rest.length ∧
      ∀ c ∈ rest.take (decodeThree n rest).2, isAscii c = false := by
    intro n
    cases rest with
    | nil => simp [decodeThree]
    | cons c rest =>
      by_cases hc : secondOk n c = true
      · cases rest with
        | nil => simp [decodeThree, decodeThird, hc, hsecond hc]
        | cons d rest =>
          by_cases hd : isCont d = true
          · simp [decodeThree, decodeThird, hc, hd, hsecond hc, hcont hd]
          · simp [decodeThree, decodeThird, hc, hd, hsecond hc]
      · simp [decodeThree, hc]
  have hfour : ∀ n, (decodeFour n rest).2 ≤ rest.length ∧
      ∀ c ∈ rest.take (decodeFour n rest).2, isAscii c = false := by
    intro n
    cases rest with
    | nil => simp [decodeFour]
    | cons c rest =>
      by_cases hc : secondOk n c = true
      · cases rest with
        | nil => simp [decodeFour, decodeThirdOfFour, hc, hsecond hc]
        | cons d rest =>
          by_cases hd : isCont d = true
          · cases rest with
            | nil => simp [decodeFour, decodeThirdOfFour, decodeFourth, hc, hd, hsecond hc, hcont hd]
            | cons e rest =>
              by_cases he : isCont e = true
              · simp [decodeFour, decodeThirdOfFour, decodeFourth, hc, hd, he, hsecond hc, hcont hd,
                  hcont he]
              · simp [decodeFour, decodeThirdOfFour, decodeFourth, hc, hd, he, hsecond hc, hcont hd]
          · simp [decodeFour, decodeThirdOfFour, hc, hd, hsecond hc]
      · simp [decodeFour, hc]
  simp only [decodeHead]
  split_ifs
  · simp
  · exact htwo _
  · exact hthree _
  · exact hfour _
  · simp

/-- **Text can be cut before an ASCII byte.** -/
theorem decodeLossy_append_ascii {s : UInt8} (hs : isAscii s = true) (pre suf : Bytes) :
    decodeLossy (pre ++ s :: suf) = decodeLossy pre ++ decodeLossy (s :: suf) := by
  suffices h : ∀ n (pre : Bytes), pre.length ≤ n →
      decodeLossy (pre ++ s :: suf) = decodeLossy pre ++ decodeLossy (s :: suf) from h _ pre (Nat.le_refl _)
  intro n
  induction n with
  | zero =>
    intro pre hn
    rw [List.length_eq_zero_iff.mp (Nat.le_zero.mp hn)]
    rfl
  | succ n ih =>
    intro pre hn
    cases pre with
    | nil => rfl
    | cons b pre =>
      have htakes := (decodeHead_takes b pre).1
      rw [List.cons_append, decodeLossy_cons, decodeLossy_cons, decodeHead_append_ascii hs,
        List.drop_append_of_le_length htakes, ih _ (by
          simp only [List.length_cons] at hn
          rw [List.length_drop]
          omega), List.cons_append]

/-- **Every ASCII byte is a character of the text.** -/
theorem mem_decodeLossy_of_isAscii {b : UInt8} (hb : isAscii b = true) {bs : Bytes} (h : b ∈ bs) :
    Char.ofNat b.toNat ∈ decodeLossy bs := by
  obtain ⟨pre, suf, rfl⟩ := List.append_of_mem h
  rw [decodeLossy_append_ascii hb, decodeLossy_cons]
  have hlt : b.toNat < 0x80 := by simpa [isAscii] using hb
  refine List.mem_append_right _ ?_
  simp [decodeHead, hlt]

end Utf8
