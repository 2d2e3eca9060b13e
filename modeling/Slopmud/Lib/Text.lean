import Mathlib

/-!
# Text

Strings as lists of characters, with the operations of the Rust string type that
case folding and trimming need: `trim` cuts Unicode white space at both ends,
`toAsciiLowercase` folds the twenty-six ASCII capitals and nothing else.
-/

/-- A string, as the list of its characters. -/
abbrev Text := List Char

instance : LawfulBEq Text := inferInstanceAs (LawfulBEq (List Char))

namespace Text

/-- The characters of the Unicode property `White_Space`. -/
def isWhitespace (c : Char) : Bool :=
  let n := c.toNat
  (9 ≤ n && n ≤ 13) || n == 0x20 || n == 0x85 || n == 0xA0 || n == 0x1680
    || (0x2000 ≤ n && n ≤ 0x200A) || n == 0x2028 || n == 0x2029 || n == 0x202F
    || n == 0x205F || n == 0x3000

def isAsciiDigit (c : Char) : Bool := '0' ≤ c && c ≤ '9'

def isAsciiLowercase (c : Char) : Bool := 'a' ≤ c && c ≤ 'z'

def isAsciiUppercase (c : Char) : Bool := 'A' ≤ c && c ≤ 'Z'

def isAsciiAlphanumeric (c : Char) : Bool :=
  isAsciiDigit c || isAsciiLowercase c || isAsciiUppercase c

/-- `char::to_ascii_lowercase`. -/
def lowerChar (c : Char) : Char :=
  if isAsciiUppercase c then Char.ofNat (c.toNat + 32) else c

/-- `str::to_ascii_lowercase`. -/
def toAsciiLowercase (s : Text) : Text := s.map lowerChar

/-- `str::eq_ignore_ascii_case`. -/
def eqIgnoreAsciiCase (s t : Text) : Bool := toAsciiLowercase s == toAsciiLowercase t

def trimStart (s : Text) : Text := s.dropWhile isWhitespace

def trimEnd (s : Text) : Text := (s.reverse.dropWhile isWhitespace).reverse

/-- `str::trim`. -/
def trim (s : Text) : Text := trimEnd (trimStart s)

/-- `str::strip_prefix`. -/
def stripPrefix (pre : Text) : Text → Option Text :=
  match pre with
  | [] => some
  | p :: ps => fun
    | [] => none
    | c :: cs => if p = c then stripPrefix ps cs else none

/-- `str::split_whitespace`. -/
def splitWhitespace (s : Text) : List Text := (s.splitOnP isWhitespace).filter fun w => !w.isEmpty

/-- The length of the UTF-8 encoding of a character. -/
def utf8Len (c : Char) : Nat := c.utf8Size

/-- `str::len`, in bytes. -/
def byteLen (s : Text) : Nat := (s.map utf8Len).sum

/-! ## Trimming -/

/-- No white space in it. -/
def NoWhitespace (s : Text) : Prop := ∀ c ∈ s, isWhitespace c = false

theorem dropWhile_eq_self {p : Char → Bool} {s : Text} (h : ∀ c ∈ s, p c = false) :
    s.dropWhile p = s := by
  cases s with
  | nil => rfl
  | cons c cs => simp [List.dropWhile, h c (by simp)]

/-- Text without white space has nothing to trim. -/
theorem trim_of_noWhitespace {s : Text} (h : NoWhitespace s) : trim s = s := by
  have hr : ∀ c ∈ s.reverse, isWhitespace c = false := fun c hc => h c (List.mem_reverse.mp hc)
  rw [trim, trimStart, dropWhile_eq_self h, trimEnd, dropWhile_eq_self hr, List.reverse_reverse]

theorem dropWhile_idem (p : Char → Bool) (s : Text) : (s.dropWhile p).dropWhile p = s.dropWhile p := by
  induction s with
  | nil => rfl
  | cons c s ih =>
    by_cases h : p c = true
    · rw [List.dropWhile_cons_of_pos h, ih]
    · rw [List.dropWhile_cons_of_neg h, List.dropWhile_cons_of_neg h]

@[simp] theorem trimEnd_trimEnd (s : Text) : trimEnd (trimEnd s) = trimEnd s := by
  rw [trimEnd, trimEnd, List.reverse_reverse, dropWhile_idem]

/-- What is cut off at the end begins no differently. -/
theorem trimEnd_cons {c : Char} (h : isWhitespace c = false) (s : Text) :
    trimEnd (c :: s) = c :: trimEnd s := by
  have hrev : ∀ t : Text, (t ++ [c]).dropWhile isWhitespace = t.dropWhile isWhitespace ++ [c] := by
    intro t
    induction t with
    | nil => simp [List.dropWhile, h]
    | cons d t ih =>
      by_cases hd : isWhitespace d = true
      · rw [List.cons_append, List.dropWhile_cons_of_pos hd, List.dropWhile_cons_of_pos hd, ih]
      · rw [List.cons_append, List.dropWhile_cons_of_neg hd, List.dropWhile_cons_of_neg hd,
          List.cons_append]
  rw [trimEnd, List.reverse_cons, hrev, List.reverse_append]
  rfl

/-- What begins with something else than white space is not blank. -/
theorem trim_cons_ne_nil {c : Char} (h : isWhitespace c = false) (s : Text) : trim (c :: s) ≠ [] := by
  have hstart : trimStart (c :: s) = c :: s := by
    rw [trimStart, List.dropWhile_cons_of_neg (by rw [h]; exact Bool.false_ne_true)]
  rw [trim, hstart, trimEnd_cons h]
  exact List.cons_ne_nil _ _

@[simp] theorem trim_trim (s : Text) : trim (trim s) = trim s := by
  have hstart : trimStart (trimEnd (trimStart s)) = trimEnd (trimStart s) := by
    have hidem : (trimStart s).dropWhile isWhitespace = trimStart s := dropWhile_idem _ s
    cases h : trimStart s with
    | nil => rfl
    | cons c t =>
      have hc : isWhitespace c = false := by
        cases hc : isWhitespace c with
        | false => rfl
        | true =>
          rw [h, List.dropWhile_cons_of_pos hc] at hidem
          have hle : (t.dropWhile isWhitespace).length ≤ t.length :=
            (List.dropWhile_sublist isWhitespace).length_le
          rw [hidem, List.length_cons] at hle
          omega
      rw [trimEnd_cons hc, trimStart, List.dropWhile_cons_of_neg (by simp [hc])]
  rw [trim, trim, hstart, trimEnd_trimEnd]

/-! ## Case folding -/

theorem lowerChar_of_not_upper {c : Char} (h : isAsciiUppercase c = false) : lowerChar c = c := by
  simp [lowerChar, h]

theorem not_upper_add_32 : ∀ n : Nat, 65 ≤ n → n ≤ 90 →
    isAsciiUppercase (Char.ofNat (n + 32)) = false := by
  intro n h1 h2
  obtain ⟨k, rfl⟩ : ∃ k, n = 65 + k := ⟨n - 65, by omega⟩
  have hk : k < 26 := by omega
  clear h1 h2
  revert k
  decide

theorem isAsciiUppercase_iff {c : Char} :
    isAsciiUppercase c = true ↔ 65 ≤ c.toNat ∧ c.toNat ≤ 90 := by
  simp only [isAsciiUppercase, Bool.and_eq_true, decide_eq_true_eq, Char.le_def, UInt32.le_iff_toNat_le]
  rfl

theorem lowerChar_not_upper (c : Char) : isAsciiUppercase (lowerChar c) = false := by
  unfold lowerChar
  split
  · rename_i h
    obtain ⟨h1, h2⟩ := isAsciiUppercase_iff.mp h
    exact not_upper_add_32 _ h1 h2
  · rename_i h
    simpa using h

@[simp] theorem lowerChar_lowerChar (c : Char) : lowerChar (lowerChar c) = lowerChar c :=
  lowerChar_of_not_upper (lowerChar_not_upper c)

@[simp] theorem toAsciiLowercase_idem (s : Text) :
    toAsciiLowercase (toAsciiLowercase s) = toAsciiLowercase s := by
  simp [toAsciiLowercase]

theorem toAsciiLowercase_eq_nil {s : Text} : toAsciiLowercase s = [] ↔ s = [] := by
  simp [toAsciiLowercase]

theorem capital_not_whitespace : ∀ n : Nat, 65 ≤ n → n ≤ 90 →
    isWhitespace (Char.ofNat (n + 32)) = false ∧ isWhitespace (Char.ofNat n) = false := by
  intro n h1 h2
  obtain ⟨k, rfl⟩ : ∃ k, n = 65 + k := ⟨n - 65, by omega⟩
  have hk : k < 26 := by omega
  clear h1 h2
  revert k
  decide

theorem isWhitespace_lowerChar (c : Char) : isWhitespace (lowerChar c) = isWhitespace c := by
  unfold lowerChar
  split
  · rename_i h
    obtain ⟨h1, h2⟩ := isAsciiUppercase_iff.mp h
    obtain ⟨hlower, hupper⟩ := capital_not_whitespace c.toNat h1 h2
    rw [Char.ofNat_toNat] at hupper
    rw [hlower, hupper]
  · rfl

theorem dropWhile_toAsciiLowercase (s : Text) :
    (toAsciiLowercase s).dropWhile isWhitespace = toAsciiLowercase (s.dropWhile isWhitespace) := by
  rw [toAsciiLowercase, List.dropWhile_map, toAsciiLowercase]
  congr 2
  funext c
  exact isWhitespace_lowerChar c

theorem trim_toAsciiLowercase (s : Text) : trim (toAsciiLowercase s) = toAsciiLowercase (trim s) := by
  have hreverse : ∀ t : Text, (toAsciiLowercase t).reverse = toAsciiLowercase t.reverse :=
    fun t => (List.map_reverse ..).symm
  rw [trim, trimStart, dropWhile_toAsciiLowercase, trimEnd, hreverse, dropWhile_toAsciiLowercase,
    hreverse]
  rfl

/-- `trim().to_ascii_lowercase()` once is enough. -/
@[simp] theorem lower_trim_idem (s : Text) :
    toAsciiLowercase (trim (toAsciiLowercase (trim s))) = toAsciiLowercase (trim s) := by
  rw [trim_toAsciiLowercase, trim_trim, toAsciiLowercase_idem]

theorem eqIgnoreAsciiCase_iff {s t : Text} :
    eqIgnoreAsciiCase s t = true ↔ toAsciiLowercase s = toAsciiLowercase t := by
  simp [eqIgnoreAsciiCase]

/-! ## Separators -/

theorem takeWhile_ne {d : Char} {a : Text} (ha : d ∉ a) (b : Text) :
    (a ++ d :: b).takeWhile (· != d) = a := by
  rw [List.takeWhile_append_of_pos, List.takeWhile_cons_of_neg (by simp), List.append_nil]
  intro c hc
  rw [bne_iff_ne]
  exact fun h => ha (h ▸ hc)

/-- A text is cut in one way at the first of its separators. -/
theorem first_inj {d : Char} {a a' b b' : Text} (ha : d ∉ a) (ha' : d ∉ a')
    (h : a ++ d :: b = a' ++ d :: b') : a = a' ∧ b = b' := by
  have heq : a = a' := by rw [← takeWhile_ne ha b, h, takeWhile_ne ha']
  subst heq
  exact ⟨rfl, (List.cons.inj (List.append_cancel_left h)).2⟩

/-- And in one way at the last. -/
theorem last_inj {d : Char} {a a' b b' : Text} (hb : d ∉ b) (hb' : d ∉ b')
    (h : a ++ d :: b = a' ++ d :: b') : a = a' ∧ b = b' := by
  have hrev : b.reverse ++ d :: a.reverse = b'.reverse ++ d :: a'.reverse := by
    simpa using congrArg List.reverse h
  obtain ⟨hbb, haa⟩ := first_inj (by simpa using hb) (by simpa using hb') hrev
  exact ⟨List.reverse_injective haa, List.reverse_injective hbb⟩

theorem notMem_toDigits {c : Char} (hc : c.isDigit = false) (n : Nat) : c ∉ Nat.toDigits 10 n := by
  intro h
  rw [Nat.isDigit_of_mem_toDigits (by decide) (by decide) h] at hc
  cases hc

/-- What is left of a text is what follows the prefix. -/
theorem eq_append_of_stripPrefix {pre s rest : Text} (h : stripPrefix pre s = some rest) :
    s = pre ++ rest := by
  induction pre generalizing s with
  | nil => exact Option.some.inj h
  | cons c pre ih =>
    cases s with
    | nil => cases h
    | cons d s =>
      simp only [stripPrefix, Option.ite_none_right_eq_some] at h
      rw [← h.1, ih h.2, List.cons_append]

end Text
