import Slopmud.Broker.Redact
import Slopmud.Lib.AsciiScan
import Slopmud.Proof.Frames

/-!
# Redaction on every text

Which cuts of `redact_emails` and `redact_phones` can be refused. All of them are next to ASCII
bytes, hence between characters. What can go wrong is the order: the user part of an address can
begin before the end of the domain of the address before it, if the two share what is between their
`@`s. Then, and only then, the loop cuts backwards.
-/

namespace Slopmud.Broker

open Proto (IsCharBoundary strTo_eq_some encode_length)

/-! ## Cuts -/

theorem byteLen_append (s t : Text) : Text.byteLen (s ++ t) = Text.byteLen s + Text.byteLen t := by
  simp [Text.byteLen]

theorem strSlice_mid (a m z : Text) :
    strSlice (a ++ m ++ z) (Text.byteLen a) (Text.byteLen a + Text.byteLen m) = some m := by
  have hto : Proto.strTo (a ++ m ++ z) (Text.byteLen a + Text.byteLen m) = some (a ++ m) :=
    strTo_eq_some.mpr ⟨byteLen_append a m, z, rfl⟩
  have hfrom : Proto.strTo (a ++ m ++ z) (Text.byteLen a) = some a :=
    strTo_eq_some.mpr ⟨rfl, m ++ z, List.append_assoc a m z⟩
  rw [strSlice, if_pos (Nat.le_add_right _ _), hto, hfrom]
  simp

theorem strSlice_isSome {s : Text} {i j : Nat} (hi : IsCharBoundary s i) (hj : IsCharBoundary s j) :
    (strSlice s i j).isSome = true ↔ i ≤ j := by
  obtain ⟨pre, hpre⟩ := Proto.strTo_isSome.mpr hi
  obtain ⟨upTo, hupTo⟩ := Proto.strTo_isSome.mpr hj
  rw [strSlice, hpre, hupTo]
  split <;> simp [*]

theorem boundary_zero (s : Text) : IsCharBoundary s 0 := ⟨[], s, rfl, rfl⟩

theorem boundary_length (s : Text) : IsCharBoundary s (Utf8.encode s).length :=
  ⟨s, [], (List.append_nil s).symm, (encode_length s).symm⟩

/-- The text can be cut before and after an ASCII byte. -/
theorem boundary_of_ascii {s : Text} {k : Nat} {b : UInt8} (hb : Utf8.isAscii b = true)
    (h : (Utf8.encode s)[k]? = some b) : IsCharBoundary s k ∧ IsCharBoundary s (k + 1) := by
  obtain ⟨pre, c, post, rfl, hlen, hone, -⟩ := Utf8.split_of_ascii hb h
  rw [encode_length] at hlen
  refine ⟨⟨pre, c :: post, rfl, hlen⟩, ⟨pre ++ [c], post, by simp, ?_⟩⟩
  have hc : Text.byteLen [c] = 1 := by
    rw [← encode_length, Utf8.encode_cons, hone]
    rfl
  rw [byteLen_append, hc, hlen]

/-! ## Addresses -/

def isUserChar (c : Char) : Bool := Utf8.charPass isUser c

def isDomainChar (c : Char) : Bool := Utf8.charPass isDomain c

/-- What the loop takes for the user of an `@` after `pre`: the run of user characters before it -/
def userOf (pre : Text) : Text := (pre.reverse.takeWhile isUserChar).reverse

/-- The domain of an `@` before `post` -/
def domainOf (post : Text) : Text := post.takeWhile isDomainChar

/-- The `@` between the two is that of an address. -/
def Address (pre post : Text) : Prop :=
  userOf pre ≠ [] ∧ domainOf post ≠ [] ∧ validUser (userOf pre) = true ∧
    validDomain (domainOf post) = true

instance (pre post : Text) : Decidable (Address pre post) :=
  inferInstanceAs (Decidable (userOf pre ≠ [] ∧ domainOf post ≠ [] ∧ _ ∧ _))

theorem isAscii_of_isUser (b : UInt8) : isUser b = true → Utf8.isAscii b = true := by
  simp only [isUser, isAsciiAlphanumericByte, isAsciiDigitByte, Utf8.isAscii, Bool.or_eq_true,
    Bool.and_eq_true, decide_eq_true_eq, List.contains_eq_mem, List.mem_cons, List.not_mem_nil,
    UInt8.le_iff_toNat_le, or_false]
  rintro (((h | h) | h) | rfl | rfl | rfl | rfl | rfl)
  all_goals first | decide | exact Nat.lt_of_le_of_lt h.2 (by decide)

theorem isUser_of_isDomain (b : UInt8) : isDomain b = true → isUser b = true := by
  simp only [isUser, isDomain, Bool.or_eq_true, List.contains_eq_mem, decide_eq_true_eq,
    List.mem_cons, List.not_mem_nil, or_false]
  tauto

theorem isAscii_of_isDomain (b : UInt8) (h : isDomain b = true) : Utf8.isAscii b = true :=
  isAscii_of_isUser b (isUser_of_isDomain b h)

theorem isUserChar_of_isDomainChar {c : Char} (h : isDomainChar c = true) : isUserChar c = true := by
  simp only [isDomainChar, isUserChar, Utf8.charPass, Bool.and_eq_true] at h ⊢
  exact ⟨h.1, isUser_of_isDomain _ h.2⟩

theorem byteLen_of_user {t : Text} (h : ∀ c ∈ t, isUserChar c = true) : Text.byteLen t = t.length := by
  rw [← encode_length]
  exact Utf8.encode_length_of_all h

theorem userOf_all (pre : Text) : ∀ c ∈ userOf pre, isUserChar c = true := by
  intro c hc
  exact List.mem_takeWhile_imp (List.mem_reverse.mp hc)

theorem domainOf_all (post : Text) : ∀ c ∈ domainOf post, isUserChar c = true := by
  intro c hc
  exact isUserChar_of_isDomainChar (List.mem_takeWhile_imp hc)

theorem userOf_suffix (pre : Text) : ∃ before, pre = before ++ userOf pre := by
  refine ⟨(pre.reverse.dropWhile isUserChar).reverse, ?_⟩
  have h := congrArg List.reverse (List.takeWhile_append_dropWhile (p := isUserChar) (l := pre.reverse))
  rw [List.reverse_append, List.reverse_reverse] at h
  exact h.symm

theorem domainOf_prefix (post : Text) : ∃ after, post = domainOf post ++ after :=
  ⟨post.dropWhile isDomainChar, List.takeWhile_append_dropWhile.symm⟩

/-- **The body of the loop at an `@`** finds the address of the characters around it, and never
panics. -/
theorem emailAt_eq (pre post : Text) :
    emailAt (pre ++ '@' :: post) (Utf8.encode (pre ++ '@' :: post)) (Text.byteLen pre) =
      some (if Address pre post then
        some (Text.byteLen pre - (userOf pre).length, Text.byteLen pre + 1 + (domainOf post).length)
      else none) := by
  have hat : Utf8.encode ('@' :: post) = AT :: Utf8.encode post := rfl
  have hl : userStart (Utf8.encode (pre ++ '@' :: post)) (Text.byteLen pre) =
      Text.byteLen pre - (userOf pre).length := by
    rw [userStart, Utf8.encode_append, ← encode_length, List.take_left,
      Utf8.takeWhile_reverse_encode isAscii_of_isUser, userOf, List.length_reverse]
    rfl
  have hr : domainEnd (Utf8.encode (pre ++ '@' :: post)) (Text.byteLen pre + 1) =
      Text.byteLen pre + 1 + (domainOf post).length := by
    rw [domainEnd, Utf8.encode_append, hat, ← encode_length, ← List.drop_drop, List.drop_left,
      List.drop_one, List.tail_cons, Utf8.takeWhile_encode isAscii_of_isDomain]
    rfl
  obtain ⟨before, hbefore⟩ := userOf_suffix pre
  obtain ⟨after, hafter⟩ := domainOf_prefix post
  have hulen := byteLen_of_user (userOf_all pre)
  have hdlen := byteLen_of_user (domainOf_all post)
  have hpre : Text.byteLen pre = Text.byteLen before + (userOf pre).length := by
    rw [← hulen, ← byteLen_append, ← hbefore]
  have huser : strSlice (pre ++ '@' :: post) (Text.byteLen pre - (userOf pre).length)
      (Text.byteLen pre) = some (userOf pre) := by
    have h := strSlice_mid before (userOf pre) ('@' :: post)
    rw [← hbefore, hulen, ← hpre] at h
    rwa [hpre, Nat.add_sub_cancel, ← hpre]
  have hdomain : strSlice (pre ++ '@' :: post) (Text.byteLen pre + 1)
      (Text.byteLen pre + 1 + (domainOf post).length) = some (domainOf post) := by
    have h := strSlice_mid (pre ++ ['@']) (domainOf post) after
    have hsplit : pre ++ ['@'] ++ domainOf post ++ after = pre ++ '@' :: post := by
      rw [List.append_assoc, List.append_assoc, ← hafter]
      rfl
    rw [hsplit, byteLen_append, hdlen] at h
    exact h
  rw [emailAt, hl, hr]
  have hle : (userOf pre).length ≤ Text.byteLen pre := by omega
  by_cases hempty : userOf pre = [] ∨ domainOf post = []
  · have hnot : ¬ Address pre post := fun h => hempty.elim h.1 h.2.1
    rw [if_pos, if_neg hnot]
    rcases hempty with h | h
    · left
      simp [h]
    · right
      simp [h]
  · rw [not_or] at hempty
    have hu := List.length_pos_of_ne_nil hempty.1
    have hd := List.length_pos_of_ne_nil hempty.2
    rw [if_neg (by omega), huser, hdomain]
    simp [Address, hempty]

/-! ## The loop over the `@`s -/

/-- Two addresses with nothing but user characters between their `@`s: what stands between them is
the domain of one, or begins with it, and the user of the other. -/
def Entangled (s : Text) : Prop :=
  ∃ pre mid post, s = pre ++ '@' :: mid ++ '@' :: post ∧ (∀ c ∈ mid, isUserChar c = true) ∧
    Address pre (mid ++ '@' :: post) ∧ Address (pre ++ '@' :: mid) post

theorem at_not_user : isUserChar '@' = false := by decide

theorem at_not_domain : isDomainChar '@' = false := by decide

theorem userOf_append_at (pre mid : Text) : userOf (pre ++ '@' :: mid) = userOf mid := by
  have hstop : ∀ z : Text, (z ++ '@' :: pre.reverse).takeWhile isUserChar = z.takeWhile isUserChar := by
    intro z
    induction z with
    | nil => simp [at_not_user]
    | cons c z ih => simp [List.takeWhile_cons, ih]
  simp [userOf, hstop]

theorem domainOf_append_at (mid post : Text) : domainOf (mid ++ '@' :: post) = domainOf mid := by
  induction mid with
  | nil => simp [domainOf, at_not_domain]
  | cons c mid ih =>
    simp only [domainOf, List.cons_append, List.takeWhile_cons] at ih ⊢
    rw [ih]

theorem userOf_of_all {mid : Text} (h : ∀ c ∈ mid, isUserChar c = true) : userOf mid = mid := by
  rw [userOf, List.takeWhile_eq_self_iff.mpr (fun c hc => h c (List.mem_reverse.mp hc)),
    List.reverse_reverse]

/-- What two neighbours take of the text between them overlaps only if all of it is of the user. -/
theorem taken_between (mid : Text) (h : ¬ ∀ c ∈ mid, isUserChar c = true) :
    (domainOf mid).length + (userOf mid).length ≤ mid.length := by
  induction mid with
  | nil => exact absurd (fun c hc => nomatch hc) h
  | cons c mid ih =>
    obtain ⟨before, hbefore⟩ := userOf_suffix (c :: mid)
    by_cases hmid : ∀ d ∈ mid, isUserChar d = true
    · -- only the first character is not of the user, so the domain is empty
      have hc : isDomainChar c = false := by
        by_contra hc
        have hc := isUserChar_of_isDomainChar (by simpa using hc : isDomainChar c = true)
        exact h fun d hd => (List.mem_cons.mp hd).elim (fun hd => hd ▸ hc) (hmid d)
      have hempty : domainOf (c :: mid) = [] := by simp [domainOf, hc]
      have hlen := congrArg List.length hbefore
      rw [List.length_append] at hlen
      rw [hempty, List.length_nil]
      omega
    · have hsame : userOf (c :: mid) = userOf mid := by
        have hne : (mid.reverse.takeWhile isUserChar).length ≠ mid.reverse.length := by
          intro heq
          have hall := (List.takeWhile_prefix (l := mid.reverse) isUserChar).eq_of_length heq
          have hself := List.takeWhile_eq_self_iff.mp hall
          exact hmid fun d hd => hself d (List.mem_reverse.mpr hd)
        rw [userOf, userOf, List.reverse_cons, List.takeWhile_append, if_neg hne]
      have hdom : (domainOf (c :: mid)).length ≤ (domainOf mid).length + 1 := by
        simp only [domainOf, List.takeWhile_cons]
        split <;> simp
      have := ih hmid
      rw [hsame, List.length_cons]
      omega

theorem byteLen_at (pre mid : Text) :
    Text.byteLen (pre ++ '@' :: mid) = Text.byteLen pre + 1 + Text.byteLen mid := by
  have hat : Text.byteLen ['@'] = 1 := rfl
  rw [List.append_cons, byteLen_append, byteLen_append, hat]

theorem length_le_byteLen (t : Text) : t.length ≤ Text.byteLen t := by
  induction t with
  | nil => exact Nat.le_refl _
  | cons c t ih =>
    have hpos := Proto.utf8Len_pos c
    simp only [Text.byteLen, List.map_cons, List.sum_cons, List.length_cons] at ih ⊢
    omega

/-- Two places of a text where an `@` stands -/
theorem between {pre post pre' post' : Text} (h : pre ++ '@' :: post = pre' ++ '@' :: post') :
    (pre = pre' ∧ post = post') ∨
      (∃ mid, pre' = pre ++ '@' :: mid ∧ post = mid ++ '@' :: post') ∨
      (∃ mid, pre = pre' ++ '@' :: mid ∧ post' = mid ++ '@' :: post) := by
  rcases List.append_eq_append_iff.mp h with ⟨z, hz, hz'⟩ | ⟨z, hz, hz'⟩
  · cases z with
    | nil =>
      left
      simp_all
    | cons c mid =>
      obtain ⟨rfl, hpost⟩ := List.cons.inj hz'
      exact Or.inr (Or.inl ⟨mid, hz, hpost⟩)
  · cases z with
    | nil =>
      left
      simp_all
    | cons c mid =>
      obtain ⟨rfl, hpost⟩ := List.cons.inj hz'
      exact Or.inr (Or.inr ⟨mid, hz, hpost⟩)

/-- The address at this `@` and one before it share what is between. -/
def EntangledAt (pre post : Text) : Prop :=
  ∃ pre' mid, pre = pre' ++ '@' :: mid ∧ (∀ c ∈ mid, isUserChar c = true) ∧
    Address pre' (mid ++ '@' :: post)

theorem entangled_iff (s : Text) : Entangled s ↔
    ∃ pre post, s = pre ++ '@' :: post ∧ Address pre post ∧ EntangledAt pre post := by
  constructor
  · rintro ⟨pre, mid, post, hs, hmid, hfirst, hsecond⟩
    exact ⟨pre ++ '@' :: mid, post, hs, hsecond, pre, mid, rfl, hmid, hfirst⟩
  · rintro ⟨_, post, hs, hsecond, pre, mid, rfl, hmid, hfirst⟩
    exact ⟨pre, mid, post, hs, hmid, hfirst, hsecond⟩

/-- Where the loop is at byte `i`: the copied part ends where the last address before `i` does. -/
def Copied (s : Text) (i last : Nat) : Prop :=
  (last = 0 ∧ ∀ pre post, s = pre ++ '@' :: post → Text.byteLen pre < i → ¬ Address pre post) ∨
    ∃ pre post, s = pre ++ '@' :: post ∧ Address pre post ∧
      last = Text.byteLen pre + 1 + (domainOf post).length ∧ last ≤ i ∧
      ∀ pre' post', s = pre' ++ '@' :: post' → Text.byteLen pre < Text.byteLen pre' →
        Text.byteLen pre' < i → ¬ Address pre' post'

theorem Copied.boundary {s : Text} {i last : Nat} (h : Copied s i last) : IsCharBoundary s last := by
  rcases h with ⟨rfl, -⟩ | ⟨pre, post, rfl, -, rfl, -⟩
  · exact boundary_zero s
  · obtain ⟨after, hafter⟩ := domainOf_prefix post
    refine ⟨pre ++ '@' :: domainOf post, after, ?_, ?_⟩
    · rw [List.append_assoc, List.cons_append, ← hafter]
    · rw [byteLen_at, byteLen_of_user (domainOf_all post)]

theorem Copied.le {s : Text} {i last : Nat} (h : Copied s i last) : last ≤ i := by
  rcases h with ⟨rfl, -⟩ | ⟨pre, post, -, -, -, hle, -⟩
  · exact Nat.zero_le i
  · exact hle

/-- No address at `i`: the loop goes on. -/
theorem Copied.skip {s : Text} {i last : Nat} (h : Copied s i last)
    (hno : ∀ pre post, s = pre ++ '@' :: post → Text.byteLen pre = i → ¬ Address pre post) :
    Copied s (i + 1) last := by
  rcases h with ⟨hlast, hbefore⟩ | ⟨pre, post, hs, haddr, hlast, hle, hbetween⟩
  · refine Or.inl ⟨hlast, fun pre post hs hlt => ?_⟩
    rcases Nat.lt_succ_iff_lt_or_eq.mp hlt with hlt | heq
    · exact hbefore pre post hs hlt
    · exact hno pre post hs heq
  · refine Or.inr ⟨pre, post, hs, haddr, hlast, Nat.le_succ_of_le hle, fun pre' post' hs' hlo hlt => ?_⟩
    rcases Nat.lt_succ_iff_lt_or_eq.mp hlt with hlt | heq
    · exact hbetween pre' post' hs' hlo hlt
    · exact hno pre' post' hs' heq

/-- Between an address's `@` and the end of its domain there is no other `@`. -/
theorem end_le_next {pre post pre' post' : Text} (h : pre ++ '@' :: post = pre' ++ '@' :: post')
    (hlt : Text.byteLen pre < Text.byteLen pre') :
    Text.byteLen pre + 1 + (domainOf post).length ≤ Text.byteLen pre' := by
  rcases between h with ⟨rfl, -⟩ | ⟨mid, rfl, rfl⟩ | ⟨mid, rfl, -⟩
  · omega
  · have hdom : (domainOf mid).length ≤ mid.length := (List.takeWhile_prefix _).length_le
    have hmid := length_le_byteLen mid
    rw [byteLen_at, domainOf_append_at]
    omega
  · rw [byteLen_at] at hlt
    omega

theorem Copied.next {pre post : Text} (haddr : Address pre post) :
    Copied (pre ++ '@' :: post) (Text.byteLen pre + 1 + (domainOf post).length)
      (Text.byteLen pre + 1 + (domainOf post).length) := by
  refine Or.inr ⟨pre, post, rfl, haddr, rfl, Nat.le_refl _, fun pre' post' hs' hlo hlt => ?_⟩
  have := end_le_next hs' hlo
  omega

/-- **The cut at an address** is refused if and only if the address before it shares its user. -/
theorem Copied.cut_iff {pre post : Text} {last : Nat} (haddr : Address pre post)
    (h : Copied (pre ++ '@' :: post) (Text.byteLen pre) last) :
    last ≤ Text.byteLen pre - (userOf pre).length ↔ ¬ EntangledAt pre post := by
  rcases h with ⟨rfl, hbefore⟩ | ⟨pre₁, post₁, hs, haddr₁, rfl, hle, hbetween⟩
  · refine ⟨fun _ => ?_, fun _ => Nat.zero_le _⟩
    rintro ⟨pre', mid, rfl, -, haddr'⟩
    refine hbefore pre' (mid ++ '@' :: post) (by simp) ?_ haddr'
    rw [byteLen_at]
    omega
  · have hmid : ∃ mid, pre = pre₁ ++ '@' :: mid ∧ post₁ = mid ++ '@' :: post := by
      rcases between hs with ⟨rfl, -⟩ | ⟨mid, rfl, -⟩ | hmid
      · omega
      · rw [byteLen_at] at hle
        omega
      · exact hmid
    obtain ⟨mid, rfl, rfl⟩ := hmid
    have hlen := length_le_byteLen mid
    rw [byteLen_at, userOf_append_at, domainOf_append_at]
    by_cases hall : ∀ c ∈ mid, isUserChar c = true
    · -- the whole of `mid` is of the user, and the domain takes at least one byte of it
      have hdom : 0 < (domainOf mid).length := by
        have hne := haddr₁.2.1
        rw [domainOf_append_at] at hne
        exact List.length_pos_of_ne_nil hne
      have hbytes := byteLen_of_user hall
      have hent : EntangledAt (pre₁ ++ '@' :: mid) post := ⟨pre₁, mid, rfl, hall, haddr₁⟩
      rw [userOf_of_all hall]
      exact ⟨fun hcut => absurd hcut (by omega), fun hnot => absurd hent hnot⟩
    · have htaken := taken_between mid hall
      refine ⟨fun _ => ?_, fun _ => by omega⟩
      rintro ⟨pre', mid', heq, hall', haddr'⟩
      rcases between heq with ⟨-, rfl⟩ | ⟨mid₂, rfl, rfl⟩ | ⟨mid₂, rfl, rfl⟩
      · exact hall hall'
      · -- the other address is after the last one
        refine hbetween _ (mid' ++ '@' :: post) (by simp) ?_ ?_ haddr'
        · rw [byteLen_at]
          omega
        · rw [byteLen_at, byteLen_at, byteLen_at]
          omega
      · have hat : isUserChar '@' = true := hall' '@' (by simp)
        rw [at_not_user] at hat
        exact Bool.false_ne_true hat

theorem finish_isSome {s : Text} {last : Nat} (hb : IsCharBoundary s last)
    (hle : last ≤ (Utf8.encode s).length) (out : Text) :
    (finish s (Utf8.encode s) last out).isSome = true := by
  rw [finish]
  split
  · rfl
  · rw [Option.isSome_map]
    exact (strSlice_isSome hb (boundary_length s)).mpr hle

/-- The byte at the place of an `@`, and back. -/
theorem encode_at (pre post : Text) :
    (Utf8.encode (pre ++ '@' :: post))[Text.byteLen pre]? = some AT := by
  have hat : Utf8.encode ('@' :: post) = AT :: Utf8.encode post := rfl
  rw [Utf8.encode_append, hat, ← encode_length, List.getElem?_append_right (Nat.le_refl _),
    Nat.sub_self, List.getElem?_cons_zero]

theorem split_at {s : Text} {i : Nat} (h : (Utf8.encode s)[i]? = some AT) :
    ∃ pre post, s = pre ++ '@' :: post ∧ Text.byteLen pre = i := by
  obtain ⟨pre, c, post, hs, hlen, -, hlt, hc⟩ := Utf8.split_of_ascii (by decide) h
  have hat : c.toNat = 64 := by
    have htoNat := congrArg UInt8.toNat hc
    rw [Utf8.toNat_ofNat _ (by omega)] at htoNat
    exact htoNat.symm
  have hchar : c = '@' := by
    rw [← Utf8.charOfNat_toNat c, hat]
  subst hchar
  exact ⟨pre, post, hs, (encode_length pre).symm.trans hlen⟩

theorem byteLen_lt_length {s pre post : Text} (hs : s = pre ++ '@' :: post) :
    Text.byteLen pre < (Utf8.encode s).length := by
  rw [hs, encode_length, byteLen_at]
  omega

/-- No entangled address from `i` on -/
def ClearFrom (s : Text) (i : Nat) : Prop :=
  ∀ pre post, s = pre ++ '@' :: post → i ≤ Text.byteLen pre → Address pre post → ¬ EntangledAt pre post

theorem clearFrom_succ {s : Text} {i : Nat}
    (hno : ∀ pre post, s = pre ++ '@' :: post → Text.byteLen pre = i → ¬ Address pre post) :
    ClearFrom s (i + 1) ↔ ClearFrom s i := by
  refine ⟨fun h pre post hs hle haddr => ?_, fun h pre post hs hle => h pre post hs (by omega)⟩
  rcases Nat.lt_or_eq_of_le hle with hlt | heq
  · exact h pre post hs hlt haddr
  · exact absurd haddr (hno pre post hs heq.symm)

theorem clearFrom_at {pre post : Text} (haddr : Address pre post) :
    ClearFrom (pre ++ '@' :: post) (Text.byteLen pre) ↔ ¬ EntangledAt pre post ∧
      ClearFrom (pre ++ '@' :: post) (Text.byteLen pre + 1 + (domainOf post).length) := by
  refine ⟨fun h => ⟨h pre post rfl (Nat.le_refl _) haddr, fun pre' post' hs' hle =>
    h pre' post' hs' (by omega)⟩, fun ⟨hclear, h⟩ pre' post' hs' hle haddr' => ?_⟩
  rcases Nat.lt_or_eq_of_le hle with hlt | heq
  · exact h pre' post' hs' (end_le_next hs' hlt) haddr'
  · rcases between hs' with ⟨rfl, rfl⟩ | ⟨mid, rfl, -⟩ | ⟨mid, rfl, -⟩
    · exact hclear
    · rw [byteLen_at] at heq
      omega
    · rw [byteLen_at] at heq
      omega

/-- **The loop of `redact_emails`** panics if and only if an address from here on is entangled. -/
theorem redactEmailsLoop_isSome (s : Text) (fuel i last : Nat) (out : Text)
    (hfuel : (Utf8.encode s).length < i + fuel) (hi : i ≤ (Utf8.encode s).length)
    (h : Copied s i last) :
    (redactEmailsLoop s (Utf8.encode s) fuel i last out).isSome = true ↔ ClearFrom s i := by
  induction fuel generalizing i last out with
  | zero => omega
  | succ fuel ih =>
    rw [redactEmailsLoop]
    cases hbyte : (Utf8.encode s)[i]? with
    | none =>
      have hend := List.getElem?_eq_none_iff.mp hbyte
      refine ⟨fun _ pre post hs hle => ?_, fun _ => finish_isSome h.boundary (h.le.trans hi) out⟩
      have := byteLen_lt_length hs
      omega
    | some c =>
      have hlt : i < (Utf8.encode s).length := by
        obtain ⟨hlt, -⟩ := List.getElem?_eq_some_iff.mp hbyte
        exact hlt
      -- a byte that is not the `@` of an address only moves the loop on
      have hskip : (∀ pre post, s = pre ++ '@' :: post → Text.byteLen pre = i → ¬ Address pre post) →
          ((redactEmailsLoop s (Utf8.encode s) fuel (i + 1) last out).isSome = true ↔
            ClearFrom s i) := fun hno =>
        (ih (i + 1) last out (by omega) hlt (h.skip hno)).trans (clearFrom_succ hno)
      by_cases hc : c = AT
      · subst hc
        obtain ⟨pre, post, rfl, rfl⟩ := split_at hbyte
        simp only [ne_eq, not_true_eq_false, if_false, emailAt_eq]
        by_cases haddr : Address pre post
        · have hcut := h.cut_iff haddr
          have hstart : IsCharBoundary (pre ++ '@' :: post) (Text.byteLen pre - (userOf pre).length) := by
            obtain ⟨before, hbefore⟩ := userOf_suffix pre
            have hpre := congrArg Text.byteLen hbefore
            rw [byteLen_append, byteLen_of_user (userOf_all pre)] at hpre
            refine ⟨before, userOf pre ++ '@' :: post, ?_, by omega⟩
            rw [← List.append_assoc, ← hbefore]
          have hslice := strSlice_isSome h.boundary hstart
          rw [clearFrom_at haddr, ← hcut, ← hslice]
          simp only [if_pos haddr, Option.bind_eq_bind, Option.bind_some]
          cases strSlice (pre ++ '@' :: post) last (Text.byteLen pre - (userOf pre).length) with
          | none => simp
          | some before =>
            have hend : Text.byteLen pre + 1 + (domainOf post).length ≤
                (Utf8.encode (pre ++ '@' :: post)).length := by
              have hdom : (domainOf post).length ≤ post.length := (List.takeWhile_prefix _).length_le
              have hpost := length_le_byteLen post
              rw [encode_length, byteLen_at]
              omega
            simpa using ih _ _ (out ++ before ++ "[email]".toList) (by omega) hend (Copied.next haddr)
        · simp only [if_neg haddr, Option.bind_eq_bind, Option.bind_some]
          refine hskip fun pre' post' hs' hlen => ?_
          rcases between hs' with ⟨rfl, rfl⟩ | ⟨mid, rfl, -⟩ | ⟨mid, rfl, -⟩
          · exact haddr
          · rw [byteLen_at] at hlen
            omega
          · rw [byteLen_at] at hlen
            omega
      · simp only [ne_eq, hc, not_false_eq_true, if_true]
        refine hskip fun pre post hs hlen _ => ?_
        subst hs hlen
        rw [encode_at] at hbyte
        exact hc (Option.some.inj hbyte).symm

theorem redactEmails_isSome (s : Text) : (redactEmails s).isSome = true ↔ ¬ Entangled s := by
  have hstart : Copied s 0 0 := Or.inl ⟨rfl, fun _ _ _ h => absurd h (Nat.not_lt_zero _)⟩
  rw [redactEmails, redactEmailsLoop_isSome s _ 0 0 [] (by omega) (Nat.zero_le _) hstart, entangled_iff]
  constructor
  · rintro h ⟨pre, post, hs, haddr, hent⟩
    exact h pre post hs (Nat.zero_le _) haddr hent
  · intro h pre post hs _ haddr hent
    exact h ⟨pre, post, hs, haddr, hent⟩

/-! ## Phone numbers -/

theorem isAscii_of_digit {b : UInt8} (h : isAsciiDigitByte b = true) : Utf8.isAscii b = true := by
  refine isAscii_of_isUser b ?_
  simp [isUser, isAsciiAlphanumericByte, h]

/-- Where the inner loop stops, and that a digit ends where it says. -/
theorem phoneScan_spec (b : Bytes) (start j digits lastDigitEnd : Nat) :
    let r := phoneScan start (b.drop j) j digits lastDigitEnd
    (j ≤ b.length → j ≤ r.1 ∧ r.1 ≤ b.length) ∧
      ((r.2.1 = digits ∧ r.2.2 = lastDigitEnd) ∨
        ∃ k c, j ≤ k ∧ r.2.2 = k + 1 ∧ b[k]? = some c ∧ isAsciiDigitByte c = true) := by
  induction h : b.drop j generalizing j digits lastDigitEnd with
  | nil => simp [phoneScan]
  | cons c cs ih =>
    have hc : b[j]? = some c := by
      rw [← List.head?_drop, h]
      rfl
    have hj : j < b.length := (List.getElem?_eq_some_iff.mp hc).1
    have hcs : b.drop (j + 1) = cs := by
      rw [← List.tail_drop, h]
      rfl
    -- one byte further with the same count, or with one digit more
    have step : ∀ d e, (d = digits ∧ e = lastDigitEnd) ∨ (e = j + 1 ∧ isAsciiDigitByte c = true) →
        let r := phoneScan start cs (j + 1) d e
        (j ≤ b.length → j ≤ r.1 ∧ r.1 ≤ b.length) ∧
          ((r.2.1 = digits ∧ r.2.2 = lastDigitEnd) ∨
            ∃ k c, j ≤ k ∧ r.2.2 = k + 1 ∧ b[k]? = some c ∧ isAsciiDigitByte c = true) := by
      intro d e hde
      obtain ⟨hrange, hend⟩ := ih (j + 1) d e hcs
      refine ⟨fun _ => ⟨by have := (hrange hj).1; omega, (hrange hj).2⟩, ?_⟩
      rcases hend with ⟨hd, he⟩ | ⟨k, c', hk, he, hc', hdigit⟩
      · rcases hde with ⟨rfl, rfl⟩ | ⟨rfl, hdigit⟩
        · exact Or.inl ⟨hd, he⟩
        · exact Or.inr ⟨j, c, Nat.le_refl _, he, hc, hdigit⟩
      · exact Or.inr ⟨k, c', by omega, he, hc', hdigit⟩
    rw [phoneScan]
    split
    · next hdigit => exact step _ _ (Or.inr ⟨rfl, hdigit⟩)
    · split
      · exact step _ _ (Or.inl ⟨rfl, rfl⟩)
      · split
        · exact step _ _ (Or.inl ⟨rfl, rfl⟩)
        · exact ⟨fun hle => ⟨Nat.le_refl _, hle⟩, Or.inl ⟨rfl, rfl⟩⟩

/-- **The loop of `redact_phones`** always returns: it only cuts forwards, next to ASCII. -/
theorem redactPhonesLoop_isSome (s : Text) (fuel i last : Nat) (out : Text)
    (hfuel : (Utf8.encode s).length < i + fuel) (hi : i ≤ (Utf8.encode s).length)
    (hb : IsCharBoundary s last) (hle : last ≤ i) :
    (redactPhonesLoop s (Utf8.encode s) fuel i last out).isSome = true := by
  induction fuel generalizing i last out with
  | zero => omega
  | succ fuel ih =>
    rw [redactPhonesLoop]
    cases hbyte : (Utf8.encode s)[i]? with
    | none => exact finish_isSome hb (hle.trans hi) out
    | some c =>
      have hlt : i < (Utf8.encode s).length := (List.getElem?_eq_some_iff.mp hbyte).1
      dsimp only
      split
      · exact ih (i + 1) last out (by omega) hlt hb (by omega)
      · next hc =>
        have hascii : Utf8.isAscii c = true := by
          rw [Bool.not_eq_true, Bool.and_eq_false_iff] at hc
          rcases hc with hc | hc
          · exact isAscii_of_digit (by simpa using hc)
          · have hplus : c = PLUS := by simpa using hc
            subst hplus
            decide
        obtain ⟨hrange, hend⟩ := phoneScan_spec (Utf8.encode s) i i 0 i
        obtain ⟨hj, hj'⟩ := hrange hi
        generalize phoneScan i ((Utf8.encode s).drop i) i 0 i = r at hend hj hj'
        obtain ⟨j, digits, lastDigitEnd⟩ := r
        dsimp only at hend hj hj' ⊢
        split
        · next hdigits =>
          rcases hend with ⟨hzero, -⟩ | ⟨k, d, hk, rfl, hd, hdigit⟩
          · omega
          · obtain ⟨before, hbefore⟩ := Option.isSome_iff_exists.mp
              ((strSlice_isSome hb (boundary_of_ascii hascii hbyte).1).mpr hle)
            have hklt : k < (Utf8.encode s).length := (List.getElem?_eq_some_iff.mp hd).1
            rw [hbefore]
            exact ih _ _ _ (by omega) hklt (boundary_of_ascii (isAscii_of_digit hdigit) hd).2
              (Nat.le_refl _)
        · exact ih _ last out (by omega) (by omega) hb (by omega)

theorem redactPhones_isSome (s : Text) : (redactPhones s).isSome = true :=
  redactPhonesLoop_isSome s _ 0 0 [] (by omega) (Nat.zero_le _) (boundary_zero s) (Nat.le_refl _)

theorem redactPii_isSome (s : Text) : (redactPii s).isSome = true ↔ ¬ Entangled s := by
  rw [← redactEmails_isSome, redactPii]
  cases redactEmails s with
  | none => simp
  | some t => simpa using redactPhones_isSome t

/-! ## The output of a held session -/

theorem storedTexts_isSome (text : Text) : (storedTexts true text).isSome = true ↔
    ¬ Entangled (clampChars text SCROLLBACK_MAX_LINE_CHARS) ∧ ¬ Entangled text := by
  rw [← redactPii_isSome, ← redactPii_isSome, storedTexts]
  dsimp only
  rw [if_pos rfl]
  cases redactPii (clampChars text SCROLLBACK_MAX_LINE_CHARS) with
  | none => simp
  | some disk =>
    simp only [Option.bind_eq_bind, Option.bind_some, Option.isSome_some, true_and]
    cases redactPii text <;> simp

theorem mapM_isSome {A B : Type} (f : A → Option B) (l : List A) :
    (l.mapM f).isSome = true ↔ ∀ a ∈ l, (f a).isSome = true := by
  induction l with
  | nil => simp
  | cons a l ih =>
    rw [List.mapM_cons, List.forall_mem_cons, ← ih]
    cases f a with
    | none => simp
    | some b => cases l.mapM f <;> simp

/-- **Redaction panics exactly on entangled addresses.** The phone loop never panics; the email loop
does if and only if two addresses share what is between their `@`s; and so does the broker's task,
on the output of a held session, if and only if one of its lines (or the clamped line) has two such
addresses. -/
theorem redaction_returns_iff (s : Text) (line : Bytes) :
    ((redactEmails s).isSome = true ↔ ¬ Entangled s)
      ∧ (redactPhones s).isSome = true
      ∧ ((redactPii s).isSome = true ↔ ¬ Entangled s)
      ∧ ((routeRespTexts true line).isSome = true ↔ ∀ text ∈ extractOutputLines line,
        ¬ Entangled (clampChars text SCROLLBACK_MAX_LINE_CHARS) ∧ ¬ Entangled text)
      ∧ (routeRespTexts false line).isSome = true := by
  refine ⟨redactEmails_isSome s, redactPhones_isSome s, redactPii_isSome s, ?_, ?_⟩
  · rw [routeRespTexts, mapM_isSome]
    exact forall₂_congr fun text _ => storedTexts_isSome text
  · rw [routeRespTexts, mapM_isSome]
    intro text _
    rfl

/-- Two addresses share `bb.cc`: the second begins before the end of the first. -/
theorem shared_address_panics :
    redactEmails "a@bb.cc@dd.ee".toList = none ∧ redactPii "a@bb.cc@dd.ee".toList = none ∧
      routeRespTexts true (Utf8.encode "bob says: a@bb.cc@dd.ee\r\n> ".toList) = none := by
  decide +kernel

end Slopmud.Broker
