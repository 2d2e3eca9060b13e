import Slopmud.Proof.Phones

/-!
# What is left of a text in `redact_phones`

No run with ten digits. And what stands at the end of the output, or at its beginning, without a
mark stood there in the text, and is of no number.
-/

namespace Slopmud.Broker

/-! ## No long run -/

theorem not_mem_run {s : Char} {run : Text} (hs : isPhoneChar s = false)
    (hrun : ∀ c ∈ run, isPhoneChar c = true) : s ∉ run := by
  intro hmem
  rw [hrun s hmem] at hs
  exact Bool.noConfusion hs

theorem noLongRun_of_count {r : Text} (h : digitCount r < 10) : NoLongRun r := by
  intro run hrun _
  exact Nat.lt_of_le_of_lt hrun.sublist.countP_le h

theorem noLongRun_around {s : Char} (hs : isPhoneChar s = false) {x y : Text} :
    NoLongRun (x ++ s :: y) ↔ NoLongRun x ∧ NoLongRun y := by
  constructor
  · intro h
    refine ⟨fun run hin hrun => h run ?_ hrun, fun run hin hrun => h run ?_ hrun⟩
    · exact (Separator.infix_iff (not_mem_run hs hrun)).mpr (.inl hin)
    · exact (Separator.infix_iff (not_mem_run hs hrun)).mpr (.inr hin)
  · rintro ⟨hx, hy⟩ run hin hrun
    rcases (Separator.infix_iff (not_mem_run hs hrun)).mp hin with hin | hin
    · exact hx run hin hrun
    · exact hy run hin hrun

/-- A run with few digits before a text that does not go on with it. -/
theorem NoLongRun.before {r w : Text} (h : NoLongRun w) (hr : digitCount r < 10) (hstops : Stops w) :
    NoLongRun (r ++ w) := by
  cases w with
  | nil =>
    rw [List.append_nil]
    exact noLongRun_of_count hr
  | cons c w =>
    have hc : isPhoneChar c = false := hstops c rfl
    rw [noLongRun_around hc]
    exact ⟨noLongRun_of_count hr, ((noLongRun_around (x := []) hc).mp h).2⟩

theorem digitCount_append (x y : Text) : digitCount (x ++ y) = digitCount x + digitCount y :=
  List.countP_append

theorem IsPunct.digitCount {x : Text} (h : IsPunct x) : digitCount x = 0 := by
  rw [Broker.digitCount, List.countP_eq_zero]
  intro c hc
  simp [(h c hc).2]

theorem stops_of_append {x g : Text} (hx : ∀ c ∈ x, isPhoneChar c = true) (h : Stops (x ++ g)) :
    x = [] := by
  cases x with
  | nil => rfl
  | cons c x =>
    have hc := hx c List.mem_cons_self
    rw [h c rfl] at hc
    exact Bool.noConfusion hc

theorem PhonesMasked.stops {g w : Text} (h : PhonesMasked g w) (hg : Stops g) : Stops w := by
  induction h with
  | nil => exact hg
  | other hc hplus h ih => exact hg
  | @short x sign run g w hx hsign hrun hshort hstops h ih =>
    rw [List.append_assoc, List.append_assoc] at hg
    obtain rfl := stops_of_append (fun c hc => (hx c hc).1) hg
    rcases hsign with rfl | rfl
    · obtain rfl := stops_of_append hrun hg
      exact ih hstops
    · exact hg
  | @phone x sign body t g w hx hnumber ht hstops h ih =>
    rw [List.append_assoc, List.append_assoc, List.append_assoc] at hg
    obtain rfl := stops_of_append (fun c hc => (hx c hc).1) hg
    intro c hc
    obtain rfl : '[' = c := by simpa using hc
    decide

/-- **No run with ten digits is left.** -/
theorem PhonesMasked.noLongRun {g w : Text} (h : PhonesMasked g w) : NoLongRun w := by
  induction h with
  | nil => exact noLongRun_of_count (by decide)
  | other hc hplus h ih => exact (noLongRun_around (x := []) hc).mpr ⟨noLongRun_of_count (by decide), ih⟩
  | @short x sign run g w hx hsign hrun hshort hstops h ih =>
    have hzero := hx.digitCount
    have hw := h.stops hstops
    rcases hsign with rfl | rfl
    · rw [List.append_nil]
      exact ih.before (by rw [digitCount_append]; omega) hw
    · have hsplit : x ++ ['+'] ++ run ++ w = x ++ '+' :: (run ++ w) := by simp
      rw [hsplit, noLongRun_around (by decide)]
      exact ⟨noLongRun_of_count (by omega), ih.before hshort hw⟩
  | @phone x sign body t g w hx hnumber ht hstops h ih =>
    have hzero := hx.digitCount
    have hzero' := ht.digitCount
    have hsplit : x ++ "[phone]".toList ++ t ++ w = x ++ '[' :: ("phone".toList ++ ']' :: (t ++ w)) := by simp
    rw [hsplit, noLongRun_around (by decide), noLongRun_around (by decide)]
    refine ⟨noLongRun_of_count (by omega), noLongRun_of_count (by decide), ?_⟩
    exact ih.before (by omega) (h.stops hstops)

/-! ## Parts of a text -/

/-- What is masked on both sides of a character that is of no run. -/
theorem PhonesMasked.split {s : Char} {x y g w : Text} (h : PhonesMasked g w) (hs : isPhoneChar s = false)
    (hplus : s ≠ '+') (hg : g = x ++ s :: y) :
    ∃ w₁ w₂, w = w₁ ++ s :: w₂ ∧ PhonesMasked x w₁ ∧ PhonesMasked y w₂ := by
  -- a prefix of run characters and signs lies before `s`
  have hpast : ∀ {p g' x' : Text}, (∀ c ∈ p, isPhoneChar c = true ∨ c = '+') →
      p ++ g' = x' ++ s :: y → ∃ x₁, x' = p ++ x₁ ∧ g' = x₁ ++ s :: y := by
    intro p g' x' hp heq
    rcases List.append_eq_append_iff.mp heq with ⟨m, rfl, hm⟩ | ⟨m, rfl, hm⟩
    · exact ⟨m, rfl, hm⟩
    · cases m with
      | nil => exact ⟨[], by simp, hm.symm⟩
      | cons c m =>
        obtain rfl : s = c := (List.cons.inj hm).1
        rcases hp s (by simp) with h | h
        · rw [hs] at h
          exact Bool.noConfusion h
        · exact absurd h hplus
  have hstop : ∀ {x₁ : Text}, Stops (x₁ ++ s :: y) → Stops x₁ := by
    intro x₁ h c hc
    refine h c ?_
    cases x₁ with
    | nil => simp at hc
    | cons d x₁ => exact hc
  induction h generalizing x with
  | nil => simp at hg
  | @other c g w hc hne h ih =>
    cases x with
    | nil =>
      obtain ⟨rfl, rfl⟩ := List.cons.inj hg
      exact ⟨[], w, rfl, .nil, h⟩
    | cons d x =>
      obtain ⟨rfl, rfl⟩ := List.cons.inj hg
      obtain ⟨w₁, w₂, rfl, hx, hy⟩ := ih rfl
      exact ⟨c :: w₁, w₂, rfl, .other hc hne hx, hy⟩
  | @short p sign run g w hp hsign hrun hshort hstops h ih =>
    have hpassed : ∀ c ∈ p ++ sign ++ run, isPhoneChar c = true ∨ c = '+' := by
      intro c hc
      rw [List.append_assoc, List.mem_append, List.mem_append] at hc
      rcases hc with hc | hc | hc
      · exact .inl (hp c hc).1
      · rcases hsign with rfl | rfl
        · simp at hc
        · exact .inr (by simpa using hc)
      · exact .inl (hrun c hc)
    obtain ⟨x₁, rfl, rfl⟩ := hpast hpassed hg
    obtain ⟨w₁, w₂, rfl, hx, hy⟩ := ih rfl
    exact ⟨_, w₂, by simp, .short hp hsign hrun hshort (hstop hstops) hx, hy⟩
  | @phone p sign body t g w hp hnumber ht hstops h ih =>
    have hpassed : ∀ c ∈ p ++ sign ++ body ++ t, isPhoneChar c = true ∨ c = '+' := by
      intro c hc
      rw [List.append_assoc, List.append_assoc, List.mem_append, List.mem_append, List.mem_append] at hc
      rcases hc with hc | hc | hc | hc
      · exact .inl (hp c hc).1
      · rcases hnumber.sign with ⟨rfl, -⟩ | rfl
        · simp at hc
        · exact .inr (by simpa using hc)
      · exact .inl (hnumber.run c hc)
      · exact .inl (ht c hc).1
    obtain ⟨x₁, rfl, rfl⟩ := hpast hpassed hg
    obtain ⟨w₁, w₂, rfl, hx, hy⟩ := ih rfl
    exact ⟨_, w₂, by simp, .phone hp hnumber ht (hstop hstops) hx, hy⟩

/-- No `@` comes into a text. -/
theorem PhonesMasked.at_not_mem {g w : Text} (h : PhonesMasked g w) (hg : '@' ∉ g) : '@' ∉ w := by
  induction h with
  | nil => exact hg
  | other hc hplus h ih => simp_all
  | short hx hsign hrun hshort hstops h ih => simp_all
  | phone hx hnumber ht hstops h ih => simp_all

/-! ## Characters of no number -/

/-- No character of `e`, between `a` and `z`, is of a number. -/
def Clear (a e z : Text) : Prop :=
  ∀ e₁ c e₂, e = e₁ ++ c :: e₂ → ¬ InPhone (a ++ e₁) c (e₂ ++ z)

theorem clear_nil (a z : Text) : Clear a [] z := by
  intro e₁ c e₂ h
  simp at h

theorem clear_append {a e f z : Text} : Clear a (e ++ f) z ↔ Clear a e (f ++ z) ∧ Clear (a ++ e) f z := by
  constructor
  · intro h
    refine ⟨fun e₁ c e₂ heq => ?_, fun e₁ c e₂ heq => ?_⟩
    · have hno := h e₁ c (e₂ ++ f) (by simp [heq])
      rwa [List.append_assoc] at hno
    · have hno := h (e ++ e₁) c e₂ (by simp [heq])
      rwa [← List.append_assoc] at hno
  · rintro ⟨he, hf⟩ e₁ c e₂ heq
    rcases List.append_eq_append_iff.mp heq with ⟨m, rfl, hm⟩ | ⟨m, rfl, hm⟩
    · have hno := hf m c e₂ hm
      rwa [List.append_assoc] at hno
    · cases m with
      | nil =>
        have hno := hf [] c e₂ hm.symm
        simpa using hno
      | cons d m =>
        obtain ⟨rfl, rfl⟩ := List.cons.inj hm
        have hno := he e₁ c m rfl
        rwa [← List.append_assoc] at hno

theorem clear_of_forall {a e z : Text} (h : ∀ c ∈ e, Text.isAsciiDigit c = false ∧ c ≠ '+') :
    Clear a e z := by
  rintro e₁ c e₂ rfl (⟨hdigit, -⟩ | ⟨hplus, -⟩)
  · rw [(h c (by simp)).1] at hdigit
    exact Bool.noConfusion hdigit
  · exact (h c (by simp)).2 hplus

theorem IsPunct.clear {x : Text} (h : IsPunct x) (a z : Text) : Clear a x z :=
  clear_of_forall fun c hc => ⟨(h c hc).2, ne_plus_of_phone (h c hc).1⟩

theorem rtakeWhile_cons {s : Char} (hs : isPhoneChar s = false) (a : Text) :
    (s :: a).rtakeWhile isPhoneChar = a.rtakeWhile isPhoneChar :=
  Separator.rtakeWhile_append (x := []) hs

/-- What stands before a character of no run does not matter. -/
theorem rtakeWhile_past {s : Char} (hs : isPhoneChar s = false) (b a : Text) :
    (b ++ s :: a).rtakeWhile isPhoneChar = (s :: a).rtakeWhile isPhoneChar := by
  rw [rtakeWhile_cons hs, Separator.rtakeWhile_append hs]

theorem inPhone_after {b a z : Text} {c : Char} (h : Stops (a ++ c :: z)) :
    InPhone (b ++ a) c z ↔ InPhone a c z := by
  cases a with
  | nil =>
    have hc : isPhoneChar c = false := h c rfl
    have hdigit : Text.isAsciiDigit c = false := (Bool.or_eq_false_iff.mp hc).1
    simp [InPhone, hdigit]
  | cons d a => rw [InPhone, InPhone, rtakeWhile_past (h d rfl)]

theorem clear_after {b a e z : Text} (h : Stops (a ++ e ++ z)) : Clear (b ++ a) e z ↔ Clear a e z := by
  refine forall₃_congr fun e₁ c e₂ => forall_congr' fun heq => not_congr ?_
  rw [List.append_assoc]
  refine inPhone_after ?_
  simpa [heq] using h

/-- The rest of a text, after a run that ends there -/
theorem clear_rest {b e z : Text} (h : Stops (e ++ z)) : Clear b e z ↔ Clear [] e z := by
  have hafter : Clear (b ++ []) e z ↔ Clear [] e z := clear_after h
  rwa [List.append_nil] at hafter

theorem inPhone_cons {s : Char} (hs : isPhoneChar s = false) {a z : Text} {c : Char} :
    InPhone (s :: a) c z ↔ InPhone a c z := by
  rw [InPhone, InPhone, rtakeWhile_cons hs]

theorem clear_cons {s : Char} (hs : isPhoneChar s = false) {a e z : Text} :
    Clear (s :: a) e z ↔ Clear a e z :=
  forall₃_congr fun _ _ _ => forall_congr' fun _ => not_congr (inPhone_cons hs)

theorem clear_other {c : Char} (hc : isPhoneChar c = false) (hplus : c ≠ '+') {e z : Text}
    (h : Clear [] e z) : Clear [] (c :: e) z := by
  have hdigit : Text.isAsciiDigit c = false := (Bool.or_eq_false_iff.mp hc).1
  have hone : Clear [] [c] (e ++ z) := clear_of_forall (by simpa using ⟨hdigit, hplus⟩)
  have hboth : Clear [] ([c] ++ e) z := clear_append.mpr ⟨hone, (clear_cons hc).mpr h⟩
  exact hboth

/-! ## The ends of a text -/

theorem digitCount_takeWhile {r : Text} (z : Text) (hr : ∀ c ∈ r, isPhoneChar c = true) :
    digitCount r ≤ digitCount ((r ++ z).takeWhile isPhoneChar) := by
  rw [List.takeWhile_append_of_pos hr, digitCount_append]
  exact Nat.le_add_right _ _

theorem digitCount_rtakeWhile {r : Text} (u : Text) (hr : ∀ c ∈ r, isPhoneChar c = true) :
    digitCount r ≤ digitCount ((u ++ r).rtakeWhile isPhoneChar) := by
  have hrev : ∀ t : Text, digitCount t.reverse = digitCount t := fun t => List.countP_reverse
  rw [List.rtakeWhile, List.reverse_append, hrev, ← hrev r]
  exact digitCount_takeWhile _ (by simpa using hr)

theorem takeWhile_stops {r z : Text} (hr : ∀ c ∈ r, isPhoneChar c = true) (hz : Stops z) :
    (r ++ z).takeWhile isPhoneChar = r := by
  rw [List.takeWhile_append_of_pos hr]
  cases z with
  | nil => simp
  | cons c z => simp [hz c rfl]

/-- A short run is of no number. -/
theorem clear_short {x sign run g : Text} (hx : IsPunct x) (hsign : sign = [] ∨ sign = ['+'])
    (hrun : ∀ c ∈ run, isPhoneChar c = true) (hshort : digitCount run < 10) (hstops : Stops g) :
    Clear [] (x ++ sign ++ run) g := by
  have hplus : Clear x sign (run ++ g) := by
    rcases hsign with rfl | rfl
    · exact clear_nil _ _
    · rintro e₁ c e₂ heq hin
      obtain ⟨rfl, rfl, rfl⟩ : e₁ = [] ∧ c = '+' ∧ e₂ = [] := by
        rcases List.append_eq_singleton_iff.mp heq.symm with ⟨rfl, h⟩ | ⟨-, h⟩
        · simpa using h
        · simp at h
      rcases hin with ⟨hdigit, -⟩ | ⟨-, hlong⟩
      · exact absurd hdigit (by decide)
      · rw [List.nil_append, takeWhile_stops hrun hstops] at hlong
        omega
  have hdigits : Clear (x ++ sign) run g := by
    rintro e₁ c e₂ rfl (⟨-, hlong⟩ | ⟨hc, -⟩)
    · have hafter := takeWhile_stops (fun d hd => hrun d (List.mem_append_right e₁ hd)) hstops
      have hbefore : digitCount ((x ++ sign ++ e₁).rtakeWhile isPhoneChar) ≤ digitCount e₁ := by
        rcases hsign with rfl | rfl
        · have hle : digitCount ((x ++ e₁).rtakeWhile isPhoneChar) ≤ digitCount (x ++ e₁) :=
            (List.rtakeWhile_suffix isPhoneChar (x ++ e₁)).sublist.countP_le
          rw [digitCount_append, hx.digitCount] at hle
          rw [List.append_nil]
          omega
        · rw [List.append_assoc]
          have hplus : isPhoneChar '+' = false := by decide
          rw [List.singleton_append, Separator.rtakeWhile_append hplus]
          exact (List.rtakeWhile_suffix isPhoneChar e₁).sublist.countP_le
      rw [List.cons_append] at hafter
      rw [hafter] at hlong
      rw [digitCount_append] at hshort
      omega
    · exact ne_plus_of_phone (hrun c (by simp)) hc
  rw [clear_append, clear_append]
  exact ⟨⟨hx.clear _ _, hplus⟩, hdigits⟩

/-- The last character of a number, and the first. -/
theorem IsNumber.inPhone_last {sign body : Text} (h : IsNumber sign body) (x z : Text) :
    ∃ y c, x ++ sign ++ body = y ++ [c] ∧ InPhone y c z := by
  obtain ⟨c, hc, hdigit⟩ := h.last
  obtain ⟨b, rfl⟩ := List.getLast?_eq_some_iff.mp hc
  refine ⟨x ++ sign ++ b, c, by simp, .inl ⟨hdigit, ?_⟩⟩
  have hdigits := h.digits
  have hbefore := digitCount_rtakeWhile (x ++ sign) fun d hd => h.run d (List.mem_append_left [c] hd)
  have hafter := digitCount_takeWhile z fun d hd => h.run d (List.mem_append_right b hd)
  rw [digitCount_append] at hdigits
  rw [List.singleton_append] at hafter
  omega

theorem IsNumber.inPhone_first {sign body : Text} (h : IsNumber sign body) (x z : Text) :
    ∃ c y, sign ++ body = c :: y ∧ InPhone x c (y ++ z) := by
  have hdigits := h.digits
  have hafter := digitCount_takeWhile z h.run
  rcases h.sign with ⟨rfl, c, hc, hdigit⟩ | rfl
  · obtain ⟨y, rfl⟩ := List.head?_eq_some_iff.mp hc
    refine ⟨c, y, rfl, .inl ⟨hdigit, ?_⟩⟩
    rw [List.cons_append] at hafter
    omega
  · exact ⟨'+', body, rfl, .inr ⟨rfl, by omega⟩⟩

/-- What the output ends with, and where the last mark in it came from. -/
theorem PhonesMasked.last {g w : Text} (h : PhonesMasked g w) :
    ∃ y k v, g = y ++ k ∧ w = v ++ k ∧ Clear y k [] ∧
      ((y = [] ∧ v = []) ∨ ∃ y₁ c v₁, y = y₁ ++ [c] ∧ InPhone y₁ c k ∧ v = v₁ ++ [']']) := by
  -- a run before the rest, if there is a mark in the rest
  have hlift : ∀ {b b' g w : Text}, Stops g →
      (∃ y k v, g = y ++ k ∧ w = v ++ k ∧ Clear y k [] ∧
        ∃ y₁ c v₁, y = y₁ ++ [c] ∧ InPhone y₁ c k ∧ v = v₁ ++ [']']) →
      ∃ y k v, b ++ g = y ++ k ∧ b' ++ w = v ++ k ∧ Clear y k [] ∧
        ((y = [] ∧ v = []) ∨ ∃ y₁ c v₁, y = y₁ ++ [c] ∧ InPhone y₁ c k ∧ v = v₁ ++ [']']) := by
    rintro b b' g w hstops ⟨y, k, v, rfl, rfl, hclear, y₁, c, v₁, rfl, hin, rfl⟩
    refine ⟨b ++ (y₁ ++ [c]), k, b' ++ (v₁ ++ [']']), by simp, by simp, ?_, .inr ?_⟩
    · exact (clear_after (by simpa using hstops)).mpr hclear
    · exact ⟨b ++ y₁, c, b' ++ v₁, by simp, (inPhone_after (by simpa using hstops)).mpr hin, by simp⟩
  induction h with
  | nil => exact ⟨[], [], [], rfl, rfl, clear_nil _ _, .inl ⟨rfl, rfl⟩⟩
  | @other c g w hc hplus h ih =>
    obtain ⟨y, k, v, rfl, rfl, hclear, ⟨rfl, rfl⟩ | ⟨y₁, d, v₁, rfl, hin, rfl⟩⟩ := ih
    · refine ⟨[], c :: k, [], rfl, rfl, ?_, .inl ⟨rfl, rfl⟩⟩
      exact clear_other hc hplus hclear
    · refine ⟨c :: (y₁ ++ [d]), k, c :: (v₁ ++ [']']), rfl, rfl, (clear_cons hc).mpr hclear, .inr ?_⟩
      exact ⟨c :: y₁, d, c :: v₁, rfl, (inPhone_cons hc).mpr hin, rfl⟩
  | @short x sign run g w hx hsign hrun hshort hstops h ih =>
    obtain ⟨y, k, v, rfl, rfl, hclear, ⟨rfl, rfl⟩ | hmark⟩ := ih
    · refine ⟨[], x ++ sign ++ run ++ k, [], rfl, rfl, ?_, .inl ⟨rfl, rfl⟩⟩
      have hstops' : Stops (k ++ []) := by simpa using hstops
      exact clear_append.mpr ⟨clear_short hx hsign hrun hshort hstops', (clear_rest hstops').mpr hclear⟩
    · exact hlift hstops ⟨y, k, v, rfl, rfl, hclear, hmark⟩
  | @phone x sign body t g w hx hnumber ht hstops h ih =>
    obtain ⟨y, k, v, rfl, rfl, hclear, ⟨rfl, rfl⟩ | hmark⟩ := ih
    · obtain ⟨y₁, c, hlast, hin⟩ := hnumber.inPhone_last x (t ++ k)
      refine ⟨x ++ sign ++ body, t ++ k, x ++ "[phone]".toList, by simp, by simp, ?_, .inr ?_⟩
      · have hstops' : Stops (k ++ []) := by simpa using hstops
        exact clear_append.mpr ⟨ht.clear _ _, (clear_rest hstops').mpr hclear⟩
      · exact ⟨y₁, c, x ++ "[phone".toList, hlast, hin, by simp⟩
    · exact hlift hstops ⟨y, k, v, rfl, rfl, hclear, hmark⟩

/-- What the output begins with, and where the first mark in it came from. -/
theorem PhonesMasked.first {g w : Text} (h : PhonesMasked g w) :
    ∃ k y v, g = k ++ y ∧ w = k ++ v ∧ Clear [] k y ∧
      ((y = [] ∧ v = []) ∨ ∃ c y₁ v₁, y = c :: y₁ ∧ InPhone k c y₁ ∧ v = '[' :: v₁) := by
  induction h with
  | nil => exact ⟨[], [], [], rfl, rfl, clear_nil _ _, .inl ⟨rfl, rfl⟩⟩
  | @other c g w hc hplus h ih =>
    obtain ⟨k, y, v, rfl, rfl, hclear, hend⟩ := ih
    refine ⟨c :: k, y, v, rfl, rfl, clear_other hc hplus hclear, ?_⟩
    refine hend.imp_right ?_
    rintro ⟨d, y₁, v₁, rfl, hin, rfl⟩
    exact ⟨d, y₁, v₁, rfl, (inPhone_cons hc).mpr hin, rfl⟩
  | @short x sign run g w hx hsign hrun hshort hstops h ih =>
    obtain ⟨k, y, v, rfl, rfl, hclear, hend⟩ := ih
    refine ⟨x ++ sign ++ run ++ k, y, v, by simp, by simp, ?_, ?_⟩
    · exact clear_append.mpr ⟨clear_short hx hsign hrun hshort hstops, (clear_rest hstops).mpr hclear⟩
    · refine hend.imp_right ?_
      rintro ⟨d, y₁, v₁, rfl, hin, rfl⟩
      exact ⟨d, y₁, v₁, rfl, (inPhone_after hstops).mpr hin, rfl⟩
  | @phone x sign body t g w hx hnumber ht hstops h ih =>
    obtain ⟨c, y, hfirst, hin⟩ := hnumber.inPhone_first x (t ++ g)
    refine ⟨x, sign ++ body ++ (t ++ g), "[phone]".toList ++ (t ++ w), by simp, by simp, ?_, .inr ?_⟩
    · exact hx.clear _ _
    · exact ⟨c, y ++ (t ++ g), "phone]".toList ++ (t ++ w), by rw [hfirst]; rfl, hin, rfl⟩

/-- **What the output ends with** and is no mark stood at the end of the text, clear of numbers. -/
theorem PhonesMasked.suffix_iff {g w l : Text} (h : PhonesMasked g w) (hl : ']' ∉ l) :
    l <:+ w ↔ ∃ a, g = a ++ l ∧ Clear a l [] := by
  obtain ⟨y, k, v, rfl, rfl, hclear, hmark⟩ := h.last
  constructor
  · intro hsuffix
    have hk : l <:+ k := by
      rcases hmark with ⟨-, rfl⟩ | ⟨-, -, v₁, -, -, rfl⟩
      · exact hsuffix
      · rw [List.append_assoc] at hsuffix
        exact (Separator.suffix_iff hl).mp hsuffix
    obtain ⟨a, rfl⟩ := hk
    exact ⟨y ++ a, by simp, (clear_append.mp hclear).2⟩
  · rintro ⟨a, heq, hl'⟩
    rcases List.append_eq_append_iff.mp heq with ⟨m, rfl, rfl⟩ | ⟨m, rfl, rfl⟩
    · exact (List.suffix_append m l).trans (List.suffix_append v _)
    · rcases hmark with ⟨hnil, rfl⟩ | ⟨y₁, c, v₁, hlast, hin, rfl⟩
      · obtain ⟨-, rfl⟩ := List.append_eq_nil_iff.mp hnil
        exact List.suffix_refl _
      · rcases List.eq_nil_or_concat m with rfl | ⟨m, d, rfl⟩
        · exact List.suffix_append _ _
        · -- the last character of a number would be of `l`
          obtain ⟨rfl, rfl⟩ : a ++ m = y₁ ∧ d = c := by simpa [← List.append_assoc] using hlast
          refine absurd hin ?_
          simpa using hl' m d k (by simp)

/-- **What it begins with** and is no mark stood at the beginning. -/
theorem PhonesMasked.prefix_iff {g w d : Text} (h : PhonesMasked g w) (hd : '[' ∉ d) :
    d <+: w ↔ ∃ z, g = d ++ z ∧ Clear [] d z := by
  obtain ⟨k, y, v, rfl, rfl, hclear, hmark⟩ := h.first
  constructor
  · intro hprefix
    have hk : d <+: k := by
      rcases hmark with ⟨-, rfl⟩ | ⟨-, -, v₁, -, -, rfl⟩
      · simpa using hprefix
      · exact (Separator.prefix_iff hd).mp hprefix
    obtain ⟨z, rfl⟩ := hk
    exact ⟨z ++ y, by simp, (clear_append.mp hclear).1⟩
  · rintro ⟨z, heq, hd'⟩
    rcases List.append_eq_append_iff.mp heq with ⟨m, rfl, rfl⟩ | ⟨m, rfl, rfl⟩
    · rcases hmark with ⟨hnil, rfl⟩ | ⟨c, y₁, v₁, hfirst, hin, rfl⟩
      · obtain ⟨rfl, -⟩ := List.append_eq_nil_iff.mp hnil
        simp
      · cases m with
        | nil => simp
        | cons b m =>
          -- the first character of a number would be of `d`
          obtain ⟨rfl, rfl⟩ := List.cons.inj hfirst
          exact absurd hin (hd' k b m rfl)
    · rw [List.append_assoc]
      exact List.prefix_append d _

end Slopmud.Broker
