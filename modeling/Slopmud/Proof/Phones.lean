import Slopmud.Lib.Separator
import Slopmud.Proof.Redact

/-!
# What is taken for a phone number

`redact_phones` at the level of characters. A text falls into runs of digits and of what may stand
between digits, and other characters. A run with ten digits or more has one number, from its first
digit, or from a `+` right before the run, to its last digit; the rest is kept as it is.
-/

namespace Slopmud.Broker

open Proto (encode_length)

/-! ## Runs -/

/-- Digits, and what may stand between them: ` -.()` -/
def isPhoneChar (c : Char) : Bool := Text.isAsciiDigit c || " -.()".toList.contains c

def digitCount (t : Text) : Nat := t.countP Text.isAsciiDigit

/-- No run has ten digits. -/
def NoLongRun (t : Text) : Prop :=
  ∀ run, run <:+: t → (∀ c ∈ run, isPhoneChar c = true) → digitCount run < 10

/-- The character `c`, between `a` and `z`, is a digit of a run of ten digits or more, or the `+` before
such a run. -/
def InPhone (a : Text) (c : Char) (z : Text) : Prop :=
  (Text.isAsciiDigit c = true ∧
      10 ≤ digitCount (a.rtakeWhile isPhoneChar) + digitCount ((c :: z).takeWhile isPhoneChar))
    ∨ (c = '+' ∧ 10 ≤ digitCount (z.takeWhile isPhoneChar))

instance (a : Text) (c : Char) (z : Text) : Decidable (InPhone a c z) :=
  inferInstanceAs (Decidable (_ ∨ _))

/-- No run goes on into the text. -/
def Stops (t : Text) : Prop := ∀ c ∈ t.head?, isPhoneChar c = false

/-- What may stand between digits -/
def IsPunct (t : Text) : Prop := ∀ c ∈ t, isPhoneChar c = true ∧ Text.isAsciiDigit c = false

/-- A number: digits and what is between them, ten digits at least, perhaps with a `+` before. -/
structure IsNumber (sign body : Text) : Prop where
  sign : (sign = [] ∧ ∃ c ∈ body.head?, Text.isAsciiDigit c = true) ∨ sign = ['+']
  run : ∀ c ∈ body, isPhoneChar c = true
  digits : 10 ≤ digitCount body
  last : ∃ c ∈ body.getLast?, Text.isAsciiDigit c = true

/-- What `redact_phones` makes of a text. -/
inductive PhonesMasked : Text → Text → Prop
  | nil : PhonesMasked [] []
  | other {c : Char} {g w : Text} (hc : isPhoneChar c = false) (hplus : c ≠ '+') (h : PhonesMasked g w) :
      PhonesMasked (c :: g) (c :: w)
  | short {x sign run g w : Text} (hx : IsPunct x) (hsign : sign = [] ∨ sign = ['+'])
      (hrun : ∀ c ∈ run, isPhoneChar c = true) (hshort : digitCount run < 10) (hstops : Stops g)
      (h : PhonesMasked g w) : PhonesMasked (x ++ sign ++ run ++ g) (x ++ sign ++ run ++ w)
  | phone {x sign body t g w : Text} (hx : IsPunct x) (hnumber : IsNumber sign body) (ht : IsPunct t)
      (hstops : Stops g) (h : PhonesMasked g w) :
      PhonesMasked (x ++ sign ++ body ++ t ++ g) (x ++ "[phone]".toList ++ t ++ w)

/-! ## Bytes and characters -/

theorem isAsciiDigit_lt (c : Char) (h : Text.isAsciiDigit c = true) : c.toNat < 128 := by
  simp only [Text.isAsciiDigit, Bool.and_eq_true, decide_eq_true_eq] at h
  exact Nat.lt_of_le_of_lt (UInt32.le_iff_toNat_le.mp h.2) (by decide)

theorem charPass_digit (c : Char) : Utf8.charPass isAsciiDigitByte c = Text.isAsciiDigit c := by
  refine Utf8.charPass_eq ?_ isAsciiDigit_lt c
  decide

theorem isPhonePunct_lt (c : Char) (h : " -.()".toList.contains c = true) : c.toNat < 128 := by
  simp only [List.contains_eq_mem, decide_eq_true_eq] at h
  have hall : " -.()".toList.all (fun c => decide (c.toNat < 128)) = true := by decide
  exact of_decide_eq_true (List.all_eq_true.mp hall c h)

theorem charPass_punct (c : Char) : Utf8.charPass isPhonePunct c = " -.()".toList.contains c := by
  refine Utf8.charPass_eq ?_ isPhonePunct_lt c
  decide

theorem charPass_plus (c : Char) : Utf8.charPass (· == PLUS) c = (c == '+') := by
  refine Utf8.charPass_eq (Q := fun c => c == '+') ?_ (fun c hc => ?_) c
  · decide
  · rw [beq_iff_eq.mp hc]
    decide

theorem isAscii_of_punct (b : UInt8) (h : isPhonePunct b = true) : Utf8.isAscii b = true := by
  simp only [isPhonePunct, List.contains_eq_mem, decide_eq_true_eq] at h
  have hall : ([32, 45, 46, 40, 41] : Bytes).all Utf8.isAscii = true := by decide
  exact List.all_eq_true.mp hall b h

theorem isAscii_of_plus (b : UInt8) (h : (b == PLUS) = true) : Utf8.isAscii b = true := by
  rw [beq_iff_eq.mp h]
  decide

/-- The byte of a character of a run. -/
theorem encode_phone {c : Char} (h : isPhoneChar c = true) (t : Text) :
    Utf8.encode (c :: t) = .ofNat c.toNat :: Utf8.encode t ∧
      isAsciiDigitByte (.ofNat c.toNat) = Text.isAsciiDigit c ∧
      (Text.isAsciiDigit c = false → isPhonePunct (.ofNat c.toNat) = true) := by
  have hlt : c.toNat < 0x80 := by
    rcases Bool.or_eq_true .. ▸ h with h | h
    · exact isAsciiDigit_lt c h
    · exact isPhonePunct_lt c h
  have hdigit := charPass_digit c
  have hpunct := charPass_punct c
  simp only [Utf8.charPass, hlt, decide_true, Bool.true_and] at hdigit hpunct
  refine ⟨by rw [Utf8.encode_cons, Utf8.encodeChar_of_lt hlt]; rfl, hdigit, fun hno => ?_⟩
  rw [hpunct]
  simpa [isPhoneChar, hno] using h

theorem byteLen_of_phone {t : Text} (h : ∀ c ∈ t, isPhoneChar c = true) : Text.byteLen t = t.length := by
  induction t with
  | nil => rfl
  | cons c t ih =>
    obtain ⟨henc, -⟩ := encode_phone (h c List.mem_cons_self) t
    have hlen := congrArg List.length henc
    have hrest := ih fun d hd => h d (List.mem_cons_of_mem c hd)
    rw [encode_length, List.length_cons, encode_length, hrest] at hlen
    rw [hlen, List.length_cons]

/-- A byte of a character that neither is a digit nor a `+` -/
theorem byte_of_other {c : Char} (hdigit : Text.isAsciiDigit c = false) (hplus : c ≠ '+') {b : UInt8}
    (hb : b ∈ Utf8.encodeChar c) : isAsciiDigitByte b = false ∧ b ≠ PLUS := by
  have hno : Utf8.charPass (· == PLUS) c = false := by
    rw [charPass_plus]
    simpa using hplus
  refine ⟨Utf8.not_pass_of_mem (fun _ => isAscii_of_digit) ((charPass_digit c).trans hdigit) hb, ?_⟩
  simpa using Utf8.not_pass_of_mem isAscii_of_plus hno hb

/-- A loop over the bytes passes over the characters whose bytes it only counts. -/
theorem loop_pass {s pre x post r : Text} (loop : Nat → Nat → Option Text) {fuel : Nat}
    (hs : s = pre ++ x ++ post)
    (hstep : ∀ fuel i b c, (Utf8.encode s)[i]? = some b → c ∈ x → b ∈ Utf8.encodeChar c →
      loop (fuel + 1) i = loop fuel (i + 1))
    (hfuel : Text.byteLen s < Text.byteLen pre + fuel) (hr : loop fuel (Text.byteLen pre) = some r) :
    ∃ fuel', Text.byteLen s < Text.byteLen (pre ++ x) + fuel'
      ∧ loop fuel' (Text.byteLen (pre ++ x)) = some r := by
  have hlen : Text.byteLen s = Text.byteLen pre + Text.byteLen x + Text.byteLen post := by
    rw [hs, byteLen_append, byteLen_append]
  have hpass : ∀ n ≤ Text.byteLen x, loop (fuel - n) (Text.byteLen pre + n) = some r := by
    intro n
    induction n with
    | zero => exact fun _ => hr
    | succ n ih =>
      intro hn
      rw [← encode_length] at hn
      have hbyte : (Utf8.encode s)[Text.byteLen pre + n]? = some (Utf8.encode x)[n] := by
        rw [hs, Utf8.encode_append, Utf8.encode_append, List.append_assoc, ← encode_length,
          List.getElem?_append_right (by omega), Nat.add_sub_cancel_left, List.getElem?_append_left hn,
          List.getElem?_eq_getElem hn]
      obtain ⟨c, hc, hb⟩ := List.mem_flatMap.mp (List.getElem_mem hn)
      have hone := hstep (fuel - (n + 1)) _ _ c hbyte hc hb
      rw [encode_length] at hn
      rw [show fuel - (n + 1) + 1 = fuel - n by omega, ih (by omega)] at hone
      exact hone.symm
  refine ⟨fuel - Text.byteLen x, by rw [byteLen_append]; omega, ?_⟩
  rw [byteLen_append]
  exact hpass _ (Nat.le_refl _)

/-! ## The inner loop -/

theorem phoneScan_append {start : Nat} {run : Text} (hrun : ∀ c ∈ run, isPhoneChar c = true) (z : Text)
    (j digits e : Nat) : ∃ e', phoneScan start (Utf8.encode (run ++ z)) j digits e
        = phoneScan start (Utf8.encode z) (j + run.length) (digits + digitCount run) e'
      ∧ (digitCount run = 0 → e' = e)
      ∧ ∀ body t, run = body ++ t → (∃ c ∈ body.getLast?, Text.isAsciiDigit c = true) →
          digitCount t = 0 → e' = j + body.length := by
  induction run generalizing j digits e with
  | nil => exact ⟨e, rfl, fun _ => rfl, by simp⟩
  | cons c run ih =>
    have hrest := ih fun d hd => hrun d (List.mem_cons_of_mem c hd)
    obtain ⟨henc, hdigit, hpunct⟩ := encode_phone (hrun c List.mem_cons_self) (run ++ z)
    have hcount : digitCount (c :: run) = digitCount run + if Text.isAsciiDigit c then 1 else 0 :=
      List.countP_cons
    -- one character on, with the end `e₁` of the last digit up to there
    have hone : ∃ d₁ e₁, phoneScan start (Utf8.encode (c :: run ++ z)) j digits e
        = phoneScan start (Utf8.encode (run ++ z)) (j + 1) d₁ e₁
          ∧ d₁ + digitCount run = digits + digitCount (c :: run)
          ∧ (Text.isAsciiDigit c = true → e₁ = j + 1) ∧ (Text.isAsciiDigit c = false → e₁ = e) := by
      rw [List.cons_append, henc, phoneScan, hdigit, hcount]
      cases hc : Text.isAsciiDigit c with
      | true => exact ⟨digits + 1, j + 1, rfl, by simp; omega, fun _ => rfl, by simp⟩
      | false => exact ⟨digits, e, by simp [hpunct hc], by simp, by simp, fun _ => rfl⟩
    obtain ⟨d₁, e₁, hstep, hsum, hyes, hno⟩ := hone
    obtain ⟨e', heq, hsame, hlast⟩ := hrest (j + 1) d₁ e₁
    refine ⟨e', ?_, fun hzero => ?_, fun body t hsplit hend ht => ?_⟩
    · rw [hstep, heq, hsum, List.length_cons, Nat.add_assoc, Nat.add_comm 1]
    · rw [hcount] at hzero
      cases hc : Text.isAsciiDigit c with
      | true => simp [hc] at hzero
      | false => exact (hsame (by omega)).trans (hno hc)
    · cases body with
      | nil => simp at hend
      | cons c' body =>
        obtain ⟨rfl, rfl⟩ := List.cons.inj hsplit
        cases body with
        | nil => exact (hsame ht).trans (hyes (by simpa using hend))
        | cons d body =>
          rw [hlast (d :: body) t rfl (by simpa using hend) ht, List.length_cons (a := c)]
          omega

theorem phoneScan_stops {start j : Nat} {z : Text} (hz : Stops z) (hplus : '+' ∈ z.head? → j ≠ start)
    (digits e : Nat) : phoneScan start (Utf8.encode z) j digits e = (j, digits, e) := by
  cases z with
  | nil => rfl
  | cons c z =>
    have hc : isPhoneChar c = false := hz c rfl
    rw [isPhoneChar, Bool.or_eq_false_iff] at hc
    obtain ⟨b, bs, henc⟩ := List.exists_cons_of_length_pos (Utf8.encodeChar_length_pos c)
    have hb : b ∈ Utf8.encodeChar c := henc ▸ List.mem_cons_self
    have hdigit := Utf8.not_pass_of_mem (fun _ => isAscii_of_digit) ((charPass_digit c).trans hc.1) hb
    have hpunct := Utf8.not_pass_of_mem isAscii_of_punct ((charPass_punct c).trans hc.2) hb
    have hnot : ¬ (b = PLUS ∧ j = start) := by
      rintro ⟨rfl, hj⟩
      have hchar : c = '+' := by
        by_contra hne
        exact (byte_of_other hc.1 hne hb).2 rfl
      exact hplus (by simp [hchar]) hj
    rw [Utf8.encode_cons, henc, List.cons_append, phoneScan, hdigit, hpunct]
    simp [hnot]

/-- Where the inner loop stops when it starts at a number or at a short run, and what it counts. -/
theorem phoneScan_run {i : Nat} {sign run g : Text} (hsign : sign = [] ∨ sign = ['+'])
    (hne : sign ++ run ≠ []) (hrun : ∀ c ∈ run, isPhoneChar c = true) (hstops : Stops g) :
    ∃ e, phoneScan i (Utf8.encode (sign ++ run ++ g)) i 0 i = (i + (sign ++ run).length, digitCount run, e)
      ∧ ∀ body t, run = body ++ t → (∃ c ∈ body.getLast?, Text.isAsciiDigit c = true) →
          digitCount t = 0 → e = i + (sign ++ body).length := by
  have hsigned : phoneScan i (Utf8.encode (sign ++ run ++ g)) i 0 i
      = phoneScan i (Utf8.encode (run ++ g)) (i + sign.length) 0 i := by
    rcases hsign with rfl | rfl
    · rfl
    · have henc : Utf8.encode (['+'] ++ run ++ g) = PLUS :: Utf8.encode (run ++ g) := rfl
      rw [henc, phoneScan]
      simp [show isAsciiDigitByte PLUS = false by decide, show isPhonePunct PLUS = false by decide]
  obtain ⟨e, heq, -, hlast⟩ := @phoneScan_append i run hrun g (i + sign.length) 0 i
  have hpos := List.length_pos_of_ne_nil hne
  rw [List.length_append] at hpos
  refine ⟨e, ?_, fun body t hsplit hend ht => ?_⟩
  · rw [hsigned, heq, phoneScan_stops hstops (fun _ => by omega), List.length_append, Nat.zero_add,
      Nat.add_assoc]
  · rw [hlast body t hsplit hend ht, List.length_append, Nat.add_assoc]

/-! ## The outer loop -/

/-- A round that starts at a `+` or at a digit: the number is cut out, or the run is passed over. -/
theorem redactPhonesLoop_at {pre sign run g : Text} {fuel last : Nat} {out : Text}
    (hsign : (sign = [] ∧ ∃ c ∈ run.head?, Text.isAsciiDigit c = true) ∨ sign = ['+'])
    (hrun : ∀ c ∈ run, isPhoneChar c = true) (hstops : Stops g) {s : Text}
    (hs : s = pre ++ (sign ++ run ++ g)) :
    ∃ e, redactPhonesLoop s (Utf8.encode s) (fuel + 1) (Text.byteLen pre) last out
        = (if 10 ≤ digitCount run then do
            let before ← strSlice s last (Text.byteLen pre)
            redactPhonesLoop s (Utf8.encode s) fuel e e (out ++ before ++ "[phone]".toList)
          else redactPhonesLoop s (Utf8.encode s) fuel (Text.byteLen (pre ++ sign ++ run)) last out)
      ∧ ∀ body t, run = body ++ t → (∃ c ∈ body.getLast?, Text.isAsciiDigit c = true) →
          digitCount t = 0 → e = Text.byteLen (pre ++ sign ++ body) := by
  have hsign' : sign = [] ∨ sign = ['+'] := hsign.imp_left And.left
  have hbytes : ∀ x, (∀ c ∈ x, isPhoneChar c = true) →
      Text.byteLen (pre ++ sign ++ x) = Text.byteLen pre + (sign ++ x).length := by
    intro x hx
    rw [byteLen_append, byteLen_append, byteLen_of_phone hx, List.length_append, Nat.add_assoc]
    rcases hsign' with rfl | rfl
    · rfl
    · rfl
  -- the byte at which the round starts
  have hfirst : ∃ b bs, Utf8.encode (sign ++ run ++ g) = b :: bs ∧ (isAsciiDigitByte b = true ∨ b = PLUS)
      ∧ sign ++ run ≠ [] := by
    rcases hsign with ⟨rfl, c, hc, hdigit⟩ | rfl
    · cases run with
      | nil => simp at hc
      | cons d run =>
        obtain rfl : d = c := by simpa using hc
        obtain ⟨henc, hbyte, -⟩ := encode_phone (hrun d List.mem_cons_self) (run ++ g)
        exact ⟨_, _, henc, .inl (hbyte.trans hdigit), by simp⟩
    · exact ⟨PLUS, Utf8.encode (run ++ g), rfl, .inr rfl, by simp⟩
  obtain ⟨b, bs, henc, hstart, hne⟩ := hfirst
  have hdrop : (Utf8.encode s).drop (Text.byteLen pre) = Utf8.encode (sign ++ run ++ g) := by
    rw [hs, Utf8.encode_append, ← encode_length, List.drop_left]
  have hbyte : (Utf8.encode s)[Text.byteLen pre]? = some b := by
    rw [← List.head?_drop, hdrop, henc]
    rfl
  obtain ⟨e, hscan, hend⟩ := phoneScan_run (i := Text.byteLen pre) hsign' hne hrun hstops
  refine ⟨e, ?_, fun body t hsplit hlast ht => ?_⟩
  · rw [redactPhonesLoop, hbyte]
    have hnot : (!isAsciiDigitByte b && b != PLUS) = false := by
      rcases hstart with h | rfl
      · simp [h]
      · simp
    have hpos := List.length_pos_of_ne_nil hne
    simp only [hnot, Bool.false_eq_true, if_false, hdrop, hscan, hbytes run hrun]
    rw [Nat.max_eq_left (by omega)]
  · rw [hbytes body fun c hc => hrun c (by simp [hsplit, hc])]
    exact hend body t hsplit hlast ht

theorem byteLen_eq_zero {t : Text} (h : Text.byteLen t = 0) : t = [] := by
  have hlen := length_le_byteLen t
  exact List.eq_nil_of_length_eq_zero (by omega)

/-- What is left is copied. -/
theorem finish_eq {done pend out : Text} (hout : done = [] → out = []) :
    finish (done ++ pend) (Utf8.encode (done ++ pend)) (Text.byteLen done) out = some (out ++ pend) := by
  rw [finish]
  split
  · next hzero =>
    have hnil := byteLen_eq_zero hzero
    rw [hout hnil, hnil]
  · have hmid := strSlice_mid done pend []
    rw [List.append_nil, ← byteLen_append] at hmid
    rw [encode_length, hmid]
    rfl

theorem stops_dropWhile (t : Text) : Stops (t.dropWhile isPhoneChar) := by
  intro d hd
  have hnot := List.head?_dropWhile_not isPhoneChar t
  rw [Option.mem_def.mp hd] at hnot
  simpa using hnot

/-- The first run of a text, from its first digit or from its sign on. -/
theorem exists_run {post : Text} (h : ∃ c ∈ post.head?, isPhoneChar c = true ∨ c = '+') :
    ∃ x sign run g, post = x ++ sign ++ run ++ g ∧ IsPunct x ∧ (∀ c ∈ run, isPhoneChar c = true) ∧ Stops g
      ∧ x ++ sign ++ run ≠ []
      ∧ ((sign = [] ∧ ∃ c ∈ run.head?, Text.isAsciiDigit c = true) ∨ sign = ['+']
        ∨ (sign = [] ∧ run = [])) := by
  cases post with
  | nil => simp at h
  | cons c post =>
    obtain ⟨d, hd, hc⟩ := h
    obtain rfl : c = d := by simpa using hd
    by_cases hplus : c = '+'
    · subst hplus
      refine ⟨[], ['+'], post.takeWhile isPhoneChar, post.dropWhile isPhoneChar, ?_, nofun,
        fun d hd => List.mem_takeWhile_imp hd, stops_dropWhile post, by simp, .inr (.inl rfl)⟩
      rw [List.append_assoc, List.takeWhile_append_dropWhile]
      rfl
    · -- the run is cut before its first digit
      have hrun : isPhoneChar c = true := hc.resolve_right hplus
      generalize hr : (c :: post).takeWhile isPhoneChar = run
      have hall : ∀ d ∈ run, isPhoneChar d = true := fun d hd => List.mem_takeWhile_imp (hr ▸ hd)
      have hsplit : run.takeWhile (!Text.isAsciiDigit ·) ++ run.dropWhile (!Text.isAsciiDigit ·) = run :=
        List.takeWhile_append_dropWhile
      refine ⟨run.takeWhile (!Text.isAsciiDigit ·), [], run.dropWhile (!Text.isAsciiDigit ·),
        (c :: post).dropWhile isPhoneChar, ?_, fun d hd => ⟨?_, ?_⟩, fun d hd => ?_, stops_dropWhile _, ?_, ?_⟩
      · rw [List.append_nil, hsplit, ← hr, List.takeWhile_append_dropWhile]
      · exact hall d (List.takeWhile_prefix _ |>.subset hd)
      · simpa using List.mem_takeWhile_imp hd
      · exact hall d (List.dropWhile_suffix _ |>.subset hd)
      · rw [List.append_nil, hsplit, ← hr]
        simp [hrun]
      · cases hd : run.dropWhile (!Text.isAsciiDigit ·) with
        | nil => exact .inr (.inr ⟨rfl, rfl⟩)
        | cons d rest =>
          refine .inl ⟨rfl, d, rfl, ?_⟩
          have hnot := List.head?_dropWhile_not (!Text.isAsciiDigit ·) run
          rw [hd] at hnot
          simpa using hnot

/-- A run with digits up to the last of them. -/
theorem exists_last {run : Text} (h : digitCount run ≠ 0) : ∃ body t, run = body ++ t
    ∧ (∃ c ∈ body.getLast?, Text.isAsciiDigit c = true) ∧ (∀ c ∈ t, Text.isAsciiDigit c = false) := by
  induction run with
  | nil => exact absurd rfl h
  | cons c run ih =>
    by_cases hrest : digitCount run = 0
    · have hnone : ∀ d ∈ run, Text.isAsciiDigit d = false := by
        simpa [digitCount, List.countP_eq_zero] using hrest
      have hc : Text.isAsciiDigit c = true := by
        by_contra hno
        refine h ?_
        rw [digitCount, List.countP_cons_of_neg hno]
        exact hrest
      exact ⟨[c], run, rfl, ⟨c, rfl, hc⟩, hnone⟩
    · obtain ⟨body, t, rfl, ⟨d, hd, hdigit⟩, ht⟩ := ih hrest
      refine ⟨c :: body, t, rfl, ⟨d, ?_, hdigit⟩, ht⟩
      rw [List.getLast?_cons, Option.mem_def.mp hd]
      rfl

theorem ne_plus_of_phone {c : Char} (h : isPhoneChar c = true) : c ≠ '+' := by
  rintro rfl
  exact absurd h (by decide)

/-- A text without digits and `+` is passed over. -/
theorem redactPhonesLoop_pass {s pre x post out r : Text} {fuel last : Nat} (hs : s = pre ++ x ++ post)
    (hx : ∀ c ∈ x, Text.isAsciiDigit c = false ∧ c ≠ '+')
    (hfuel : Text.byteLen s < Text.byteLen pre + fuel)
    (hr : redactPhonesLoop s (Utf8.encode s) fuel (Text.byteLen pre) last out = some r) :
    ∃ fuel', Text.byteLen s < Text.byteLen (pre ++ x) + fuel'
      ∧ redactPhonesLoop s (Utf8.encode s) fuel' (Text.byteLen (pre ++ x)) last out = some r := by
  refine loop_pass (fun fuel i => redactPhonesLoop s (Utf8.encode s) fuel i last out) hs ?_ hfuel hr
  intro fuel i b c hb hc hmem
  obtain ⟨hdigit, hplus⟩ := byte_of_other (hx c hc).1 (hx c hc).2 hmem
  rw [redactPhonesLoop, hb]
  simp [hdigit, hplus]

/-- **The loop of `redact_phones`** masks what is left of the text. -/
theorem redactPhonesLoop_masked {s : Text} (n : Nat) {done pend post out r : Text} {fuel : Nat}
    (hn : post.length < n) (hs : s = done ++ pend ++ post)
    (hfuel : Text.byteLen s < Text.byteLen (done ++ pend) + fuel) (hout : done = [] → out = [])
    (hr : redactPhonesLoop s (Utf8.encode s) fuel (Text.byteLen (done ++ pend)) (Text.byteLen done) out
      = some r) :
    ∃ w, PhonesMasked post w ∧ r = out ++ pend ++ w := by
  induction n generalizing post done pend out fuel with
  | zero => exact absurd hn (Nat.not_lt_zero _)
  | succ n ih =>
    by_cases hrun : ∃ c ∈ post.head?, isPhoneChar c = true ∨ c = '+'
    · obtain ⟨x, sign, run, g, rfl, hx, hall, hstops, hne, hsign⟩ := exists_run hrun
      have hg : g.length < n := by
        have hpos := List.length_pos_of_ne_nil hne
        rw [List.length_append] at hn
        omega
      have hs₁ : s = done ++ pend ++ x ++ (sign ++ run ++ g) := by simp [hs]
      obtain ⟨fuel₁, hfuel₁, hr₁⟩ := redactPhonesLoop_pass hs₁
        (fun c hc => ⟨(hx c hc).2, ne_plus_of_phone (hx c hc).1⟩) hfuel hr
      rw [← or_assoc] at hsign
      rcases hsign with hsign | ⟨rfl, rfl⟩
      · obtain ⟨f, rfl⟩ : ∃ f, fuel₁ = f + 1 := by
          refine ⟨fuel₁ - 1, ?_⟩
          rw [hs₁, byteLen_append] at hfuel₁
          omega
        obtain ⟨e, hloop, hend⟩ := redactPhonesLoop_at hsign hall hstops hs₁
        rw [hloop] at hr₁
        split at hr₁
        · next hlong =>
          -- the number is cut out, and what follows it in the run is passed over
          obtain ⟨body, t, rfl, hlast, ht⟩ := exists_last (show digitCount run ≠ 0 by omega)
          have ht' : IsPunct t := fun c hc => ⟨hall c (by simp [hc]), ht c hc⟩
          have htzero : digitCount t = 0 := by
            rw [digitCount, List.countP_eq_zero]
            simpa using ht
          have hbody : body ≠ [] := by
            rintro rfl
            simp at hlast
          have hslice : strSlice s (Text.byteLen done) (Text.byteLen (done ++ pend ++ x))
              = some (pend ++ x) := by
            have hmid := strSlice_mid done (pend ++ x) (sign ++ (body ++ t) ++ g)
            rw [← byteLen_append, ← List.append_assoc done pend x, ← hs₁] at hmid
            exact hmid
          rw [hslice, hend body t rfl hlast htzero] at hr₁
          simp only [Option.bind_eq_bind, Option.bind_some] at hr₁
          have hs₂ : s = done ++ pend ++ x ++ sign ++ body ++ t ++ g := by simp [hs]
          obtain ⟨fuel₂, hfuel₂, hr₂⟩ := redactPhonesLoop_pass hs₂
            (fun c hc => ⟨ht c hc, ne_plus_of_phone (ht' c hc).1⟩) (by
              have hlen := length_le_byteLen body
              have hpos := List.length_pos_of_ne_nil hbody
              rw [byteLen_append (done ++ pend ++ x ++ sign), byteLen_append (done ++ pend ++ x)]
              omega) hr₁
          have hnumber : IsNumber sign body := by
            refine ⟨?_, fun c hc => hall c (by simp [hc]), ?_, hlast⟩
            · rw [List.head?_append_of_ne_nil _ hbody] at hsign
              exact hsign
            · rw [digitCount, List.countP_append, ← digitCount, ← digitCount, htzero] at hlong
              exact hlong
          have hcut : done ++ pend ++ x ++ sign ++ body = [] →
              out ++ (pend ++ x) ++ "[phone]".toList = [] := by
            intro hnil
            exact absurd (List.append_eq_nil_iff.mp hnil).2 hbody
          obtain ⟨w, hw, rfl⟩ := ih hg hs₂ hfuel₂ hcut hr₂
          refine ⟨x ++ "[phone]".toList ++ t ++ w, ?_, by simp⟩
          have hmasked := PhonesMasked.phone hx hnumber ht' hstops hw
          simpa using hmasked
        · next hshort =>
          have hp : done ++ pend ++ x ++ sign ++ run = done ++ (pend ++ x ++ sign ++ run) := by simp
          have hstart : sign ++ run ≠ [] := by
            rcases hsign with ⟨-, c, hc, -⟩ | rfl
            · rintro hnil
              simp [(List.append_eq_nil_iff.mp hnil).2] at hc
            · simp
          have hpos := List.length_pos_of_ne_nil hstart
          have hlen := length_le_byteLen (sign ++ run)
          have hsum := byteLen_append (done ++ pend ++ x) (sign ++ run)
          rw [← List.append_assoc] at hsum
          rw [hp] at hr₁ hsum
          obtain ⟨w, hw, rfl⟩ := ih hg (by simp [hs]) (by omega) hout hr₁
          exact ⟨_, .short hx (hsign.imp_left And.left) hall (by omega) hstops hw, by simp⟩
      · have hp : done ++ pend ++ x = done ++ (pend ++ x) := by simp
        rw [hp] at hr₁ hfuel₁
        obtain ⟨w, hw, rfl⟩ := ih hg (by simp [hs]) hfuel₁ hout hr₁
        exact ⟨_, .short hx (.inl rfl) hall (by decide) hstops hw, by simp⟩
    · cases post with
      | nil =>
        refine ⟨[], .nil, ?_⟩
        obtain ⟨f, rfl⟩ : ∃ f, fuel = f + 1 := by
          refine ⟨fuel - 1, ?_⟩
          rw [hs, byteLen_append (done ++ pend)] at hfuel
          omega
        rw [List.append_nil] at hs
        rw [redactPhonesLoop, hs, ← encode_length, List.getElem?_length] at hr
        have hfinish : finish (done ++ pend) (Utf8.encode (done ++ pend)) (Text.byteLen done) out
            = some (out ++ pend) := finish_eq hout
        rw [hfinish] at hr
        simpa using hr.symm
      | cons c post =>
        have hc : isPhoneChar c = false ∧ c ≠ '+' := by simpa [not_or] using hrun
        have hdigit : Text.isAsciiDigit c = false := (Bool.or_eq_false_iff.mp hc.1).1
        have hs₁ : s = done ++ pend ++ [c] ++ post := by simp [hs]
        obtain ⟨fuel₁, hfuel₁, hr₁⟩ :=
          redactPhonesLoop_pass hs₁ (by simpa using ⟨hdigit, hc.2⟩) hfuel hr
        have hp : done ++ pend ++ [c] = done ++ (pend ++ [c]) := by simp
        rw [hp] at hr₁ hfuel₁
        obtain ⟨w, hw, rfl⟩ := ih (by simpa using hn) (by simp [hs]) hfuel₁ hout hr₁
        exact ⟨c :: w, .other hc.1 hc.2 hw, by simp⟩

theorem redactPhones_masked {s r : Text} (h : redactPhones s = some r) : PhonesMasked s r := by
  rw [redactPhones] at h
  have hfuel : Text.byteLen s < 0 + ((Utf8.encode s).length + 1) := by
    rw [encode_length]
    omega
  obtain ⟨w, hw, rfl⟩ := redactPhonesLoop_masked (s.length + 1) (Nat.lt_succ_self _)
    (show s = [] ++ [] ++ s from rfl) hfuel (fun _ => rfl) h
  exact hw

end Slopmud.Broker
