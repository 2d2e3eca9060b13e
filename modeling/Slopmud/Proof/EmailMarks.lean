import Slopmud.Broker.Login
import Slopmud.Proof.PhoneMarks

/-!
# Which addresses outlive redaction

An `@` is an end of the search: what the loop of `redact_emails` keeps between two `@`s is what the
addresses on both sides leave of it. So an address that accounts may have is in the output if and only
if there is an `@` in the text that is of no address of the scanner, with the local part kept before it
and the domain kept after it, and no character of either is of a phone number.
-/

namespace Slopmud.Broker

open Proto (encode_length)

/-! ## The loop -/

/-- What `redact_emails` makes of the text after `pre`. -/
inductive EmailsMasked : Text → Text → Text → Prop
  | last {pre f : Text} (hf : '@' ∉ f) : EmailsMasked pre f f
  | pass {pre f post w : Text} (hf : '@' ∉ f) (hno : ¬ Address (pre ++ f) post)
      (h : EmailsMasked (pre ++ f ++ ['@']) post w) : EmailsMasked pre (f ++ '@' :: post) (f ++ '@' :: w)
  | cut {pre x user domain post w : Text} (hx : '@' ∉ x)
      (haddr : Address (pre ++ x ++ user) (domain ++ post))
      (huser : userOf (pre ++ x ++ user) = user) (hdomain : domainOf (domain ++ post) = domain)
      (h : EmailsMasked (pre ++ x ++ user ++ '@' :: domain) post w) :
      EmailsMasked pre (x ++ user ++ '@' :: (domain ++ post)) (x ++ "[email]".toList ++ w)

theorem byte_ne_at {c : Char} (hc : c ≠ '@') {b : UInt8} (hb : b ∈ Utf8.encodeChar c) : b ≠ AT := by
  have hpass : Utf8.charPass (· == AT) c = (c == '@') := by
    refine Utf8.charPass_eq (Q := fun c => c == '@') ?_ (fun c hc => ?_) c
    · decide
    · rw [beq_iff_eq.mp hc]
      decide
  have hascii : ∀ b : UInt8, (b == AT) = true → Utf8.isAscii b = true := by
    intro b hb
    rw [beq_iff_eq.mp hb]
    decide
  have hno : Utf8.charPass (· == AT) c = false := by
    rw [hpass]
    simpa using hc
  simpa using Utf8.not_pass_of_mem hascii hno hb

/-- A text without `@` is passed over. -/
theorem redactEmailsLoop_pass {s pre x post out r : Text} {fuel last : Nat} (hs : s = pre ++ x ++ post)
    (hx : '@' ∉ x) (hfuel : Text.byteLen s < Text.byteLen pre + fuel)
    (hr : redactEmailsLoop s (Utf8.encode s) fuel (Text.byteLen pre) last out = some r) :
    ∃ fuel', Text.byteLen s < Text.byteLen (pre ++ x) + fuel'
      ∧ redactEmailsLoop s (Utf8.encode s) fuel' (Text.byteLen (pre ++ x)) last out = some r := by
  refine loop_pass (fun fuel i => redactEmailsLoop s (Utf8.encode s) fuel i last out) hs ?_ hfuel hr
  intro fuel i b c hb hc hmem
  have hne : c ≠ '@' := fun heq => hx (heq ▸ hc)
  rw [redactEmailsLoop, hb]
  simp [byte_ne_at hne hmem]

theorem strSlice_le {s t : Text} {i j : Nat} (h : strSlice s i j = some t) : i ≤ j := by
  rw [strSlice] at h
  split at h
  · assumption
  · simp at h

/-- The user of an `@` that may be cut out is of the text since the `@` or the address before. -/
theorem user_of_le {done pend f : Text} (hpend : pend = [] ∨ ∃ p, pend = p ++ ['@'])
    (hle : Text.byteLen done ≤ Text.byteLen (done ++ pend ++ f) - (userOf (done ++ pend ++ f)).length) :
    ∃ x, f = x ++ userOf (done ++ pend ++ f) := by
  rcases hpend with rfl | ⟨p, rfl⟩
  · rw [List.append_nil] at hle ⊢
    obtain ⟨before, hbefore⟩ := userOf_suffix (done ++ f)
    have hlen := congrArg Text.byteLen hbefore
    rw [byteLen_append, byteLen_append, byteLen_of_user (userOf_all _)] at hlen
    rcases List.append_eq_append_iff.mp hbefore with ⟨m, -, hm⟩ | ⟨m, hdone, hm⟩
    · exact ⟨m, hm⟩
    · -- the user would begin before the end of the address before it
      have hsum := congrArg Text.byteLen hdone
      rw [byteLen_append] at hsum
      rw [byteLen_append] at hle
      have hnil : m = [] := byteLen_eq_zero (by omega)
      rw [hnil] at hm
      exact ⟨[], hm.symm⟩
  · have hfield : done ++ (p ++ ['@']) ++ f = done ++ p ++ '@' :: f := by simp
    rw [hfield, userOf_append_at]
    exact userOf_suffix f

/-- **The loop of `redact_emails`** masks what is left of the text. -/
theorem redactEmailsLoop_masked {s : Text} (n : Nat) {done pend post out r : Text} {fuel : Nat}
    (hn : post.length < n) (hs : s = done ++ pend ++ post) (hpend : pend = [] ∨ ∃ p, pend = p ++ ['@'])
    (hfuel : Text.byteLen s < Text.byteLen (done ++ pend) + fuel) (hout : done = [] → out = [])
    (hr : redactEmailsLoop s (Utf8.encode s) fuel (Text.byteLen (done ++ pend)) (Text.byteLen done) out
      = some r) :
    ∃ w, EmailsMasked (done ++ pend) post w ∧ r = out ++ pend ++ w := by
  induction n generalizing post done pend out fuel with
  | zero => exact absurd hn (Nat.not_lt_zero _)
  | succ n ih =>
    by_cases hat : '@' ∈ post
    · obtain ⟨f, post, rfl, hf⟩ := List.eq_append_cons_of_mem hat
      have hs₁ : s = done ++ pend ++ f ++ '@' :: post := by simp [hs]
      obtain ⟨fuel₁, hfuel₁, hr₁⟩ := redactEmailsLoop_pass hs₁ hf hfuel hr
      have hlen : Text.byteLen s = Text.byteLen (done ++ pend ++ f) + 1 + Text.byteLen post := by
        rw [hs₁, byteLen_at]
      obtain ⟨k, rfl⟩ : ∃ k, fuel₁ = k + 1 := ⟨fuel₁ - 1, by omega⟩
      rw [List.length_append, List.length_cons] at hn
      have hbyte : (Utf8.encode s)[Text.byteLen (done ++ pend ++ f)]? = some AT := by
        rw [hs₁]
        exact encode_at _ _
      have hemail : emailAt s (Utf8.encode s) (Text.byteLen (done ++ pend ++ f)) =
          some (if Address (done ++ pend ++ f) post then
            some (Text.byteLen (done ++ pend ++ f) - (userOf (done ++ pend ++ f)).length,
              Text.byteLen (done ++ pend ++ f) + 1 + (domainOf post).length)
          else none) := by
        rw [hs₁]
        exact emailAt_eq _ _
      rw [redactEmailsLoop, hbyte] at hr₁
      simp only [ne_eq, not_true_eq_false, if_false, hemail, Option.bind_eq_bind, Option.bind_some] at hr₁
      by_cases haddr : Address (done ++ pend ++ f) post
      · rw [if_pos haddr] at hr₁
        simp only at hr₁
        obtain ⟨before, hbefore, hr₂⟩ := Option.bind_eq_some_iff.mp hr₁
        obtain ⟨x, hx⟩ := user_of_le hpend (strSlice_le hbefore)
        obtain ⟨rest, hrest⟩ := domainOf_prefix post
        have hulen := byteLen_of_user (userOf_all (done ++ pend ++ f))
        have hdlen := byteLen_of_user (domainOf_all post)
        generalize huser : userOf (done ++ pend ++ f) = user at hx hbefore hulen
        generalize hdomain : domainOf post = domain at hrest hr₂ hdlen
        subst hx hrest
        -- what is before the user is copied
        have hstart : Text.byteLen (done ++ pend ++ (x ++ user)) - user.length
            = Text.byteLen (done ++ (pend ++ x)) := by
          rw [← List.append_assoc, byteLen_append, hulen, Nat.add_sub_cancel, List.append_assoc]
        have hslice : strSlice s (Text.byteLen done) (Text.byteLen (done ++ (pend ++ x)))
            = some (pend ++ x) := by
          have hmid := strSlice_mid done (pend ++ x) (user ++ '@' :: (domain ++ rest))
          have hsplit : done ++ (pend ++ x) ++ (user ++ '@' :: (domain ++ rest)) = s := by simp [hs₁]
          rw [← byteLen_append, hsplit] at hmid
          exact hmid
        rw [hstart, hslice] at hbefore
        obtain rfl := Option.some.inj hbefore
        have hs₂ : s = (done ++ pend ++ (x ++ user) ++ '@' :: domain) ++ [] ++ rest := by simp [hs₁]
        have hend : Text.byteLen (done ++ pend ++ (x ++ user)) + 1 + domain.length
            = Text.byteLen (done ++ pend ++ (x ++ user) ++ '@' :: domain) := by
          rw [byteLen_at, hdlen]
        rw [hend] at hr₂
        have hcut : done ++ pend ++ (x ++ user) ++ '@' :: domain = [] →
            out ++ (pend ++ x) ++ "[email]".toList = [] := by
          intro hnil
          simp at hnil
        have hshort : rest.length < n := by
          have hsum : (domain ++ rest).length = domain.length + rest.length := List.length_append
          omega
        have hfuel₂ : Text.byteLen s
            < Text.byteLen (done ++ pend ++ (x ++ user) ++ '@' :: domain ++ []) + k := by
          rw [List.append_nil, ← hend]
          omega
        obtain ⟨w, hw, rfl⟩ := ih hshort hs₂ (.inl rfl) hfuel₂ hcut (by rw [List.append_nil]; exact hr₂)
        have hmasked : EmailsMasked (done ++ pend) (x ++ user ++ '@' :: (domain ++ rest))
            (x ++ "[email]".toList ++ w) := by
          refine .cut (fun hmem => hf (List.mem_append_left user hmem)) ?_ ?_ hdomain ?_
          · rw [List.append_assoc (done ++ pend)]
            exact haddr
          · rw [List.append_assoc (done ++ pend)]
            exact huser
          · simpa using hw
        exact ⟨x ++ "[email]".toList ++ w, hmasked, by simp⟩
      · rw [if_neg haddr] at hr₁
        simp only at hr₁
        have hs₂ : s = done ++ (pend ++ f ++ ['@']) ++ post := by simp [hs]
        have hone : Text.byteLen (done ++ (pend ++ f ++ ['@'])) = Text.byteLen (done ++ pend ++ f) + 1 := by
          have hat := byteLen_at (done ++ pend ++ f) []
          rw [← List.append_assoc, ← List.append_assoc, hat]
          rfl
        rw [← hone] at hr₁
        obtain ⟨w, hw, rfl⟩ := ih (by omega) hs₂ (.inr ⟨pend ++ f, rfl⟩) (by omega) hout hr₁
        refine ⟨f ++ '@' :: w, .pass hf haddr ?_, by simp⟩
        simpa using hw
    · refine ⟨post, .last hat, ?_⟩
      have hs₁ : s = done ++ pend ++ post ++ [] := by simp [hs]
      obtain ⟨fuel₁, hfuel₁, hr₁⟩ := redactEmailsLoop_pass hs₁ hat hfuel hr
      rw [← hs] at hfuel₁ hr₁
      obtain ⟨k, rfl⟩ : ∃ k, fuel₁ = k + 1 := ⟨fuel₁ - 1, by omega⟩
      have hfinish : finish (done ++ (pend ++ post)) (Utf8.encode (done ++ (pend ++ post)))
          (Text.byteLen done) out = some (out ++ (pend ++ post)) := finish_eq hout
      rw [← List.append_assoc, ← hs] at hfinish
      rw [redactEmailsLoop, ← encode_length, List.getElem?_length] at hr₁
      simp only [hfinish] at hr₁
      simpa using hr₁.symm

theorem redactEmails_masked {s r : Text} (h : redactEmails s = some r) : EmailsMasked [] s r := by
  rw [redactEmails] at h
  have hfuel : Text.byteLen s < 0 + ((Utf8.encode s).length + 1) := by
    rw [encode_length]
    omega
  obtain ⟨w, hw, rfl⟩ := redactEmailsLoop_masked (s.length + 1) (Nat.lt_succ_self _)
    (show s = [] ++ [] ++ s from rfl) (.inl rfl) hfuel (fun _ => rfl) h
  exact hw

/-! ## What is kept around an `@` -/

def notAt (c : Char) : Bool := c != '@'

/-- What is kept before an `@`, back to the `@` before: without the domain of an address there. -/
def keptBefore (pre : Text) : Text :=
  let field := pre.rtakeWhile notAt
  match pre.reverse.dropWhile notAt with
  | [] => field
  | _ :: before => if Address before.reverse field then field.dropWhile isDomainChar else field

/-- What is kept after it, up to the next: without the user of an address there. -/
def keptAfter (post : Text) : Text :=
  let field := post.takeWhile notAt
  match post.dropWhile notAt with
  | [] => field
  | _ :: after => if Address field after then field.rdropWhile isUserChar else field

/-- The `@` between the two is of no address, and what is kept on both sides of it ends with `l` and
begins with `d`, clear of phone numbers. -/
structure Shown (pre post l d : Text) : Prop where
  scanned : ¬ Address pre post
  before : ∃ a, keptBefore pre = a ++ l ∧ Clear a l []
  after : ∃ z, keptAfter post = d ++ z ∧ Clear [] d z

/-- The address `e` is shown at some `@` of the text. -/
def Exposed (t e : Text) : Prop :=
  ∃ pre post l d, t = pre ++ '@' :: post ∧ e = l ++ '@' :: d ∧ Shown pre post l d

theorem not_at_iff {f : Text} : (∀ c ∈ f, notAt c = true) ↔ '@' ∉ f := by
  simp only [notAt, bne_iff_ne, ne_eq]
  exact ⟨fun h hmem => h '@' hmem rfl, fun h c hc heq => h (heq ▸ hc)⟩

theorem at_stops : notAt '@' = false := by decide

theorem address_before {pre f post : Text} : Address (pre ++ '@' :: f) post ↔ Address f post := by
  rw [Address, Address, userOf_append_at]

theorem address_after {pre f post : Text} : Address pre (f ++ '@' :: post) ↔ Address pre f := by
  rw [Address, Address, domainOf_append_at]

theorem keptBefore_first {f : Text} (hf : '@' ∉ f) : keptBefore f = f := by
  have hall := not_at_iff.mpr hf
  have hfield : f.rtakeWhile notAt = f := List.rtakeWhile_eq_self_iff.mpr hall
  have hnone : f.reverse.dropWhile notAt = [] := List.dropWhile_eq_nil_iff.mpr (by simpa using hall)
  rw [keptBefore, hnone, hfield]

theorem keptBefore_at {pre f : Text} (hf : '@' ∉ f) :
    keptBefore (pre ++ '@' :: f) = if Address pre f then f.dropWhile isDomainChar else f := by
  have hall := not_at_iff.mpr hf
  have hfield : (pre ++ '@' :: f).rtakeWhile notAt = f := by
    rw [Separator.rtakeWhile_append at_stops]
    exact List.rtakeWhile_eq_self_iff.mpr hall
  rw [keptBefore, hfield, Separator.reverse_dropWhile_append at_stops hall]
  simp only [List.reverse_reverse]

theorem keptAfter_last {f : Text} (hf : '@' ∉ f) : keptAfter f = f := by
  have hall := not_at_iff.mpr hf
  rw [keptAfter, List.takeWhile_eq_self_iff.mpr hall, List.dropWhile_eq_nil_iff.mpr hall]

theorem keptAfter_at {f post : Text} (hf : '@' ∉ f) :
    keptAfter (f ++ '@' :: post) = if Address f post then f.rdropWhile isUserChar else f := by
  have hall := not_at_iff.mpr hf
  have hfield : (f ++ '@' :: post).takeWhile notAt = f := by
    rw [Separator.takeWhile_append at_stops, List.takeWhile_eq_self_iff.mpr hall]
  have hrest : (f ++ '@' :: post).dropWhile notAt = '@' :: post := by
    rw [List.dropWhile_append_of_pos hall, List.dropWhile_cons_of_neg (by simp [at_stops])]
  rw [keptAfter, hfield, hrest]

theorem at_not_mem_user {f : Text} (h : ∀ c ∈ f, isUserChar c = true) : '@' ∉ f := by
  intro hmem
  have hat := h '@' hmem
  rw [at_not_user] at hat
  exact Bool.noConfusion hat

/-- The text starts where nothing of it is cut for an address before. -/
def Starts (pre post : Text) : Prop :=
  ∀ f post', post = f ++ '@' :: post' → '@' ∉ f → keptBefore (pre ++ f) = f

theorem starts_nil (post : Text) : Starts [] post := fun _ _ _ hf => keptBefore_first hf

theorem starts_pass {pre post : Text} (hno : ¬ Address pre post) : Starts (pre ++ ['@']) post := by
  rintro f post' rfl hf
  rw [address_after] at hno
  rw [List.append_assoc, List.singleton_append, keptBefore_at hf, if_neg hno]

theorem starts_cut {pre domain post : Text} (haddr : Address pre (domain ++ post))
    (hdomain : domainOf (domain ++ post) = domain) (hd : '@' ∉ domain) :
    Starts (pre ++ '@' :: domain) post := by
  rintro f post' rfl hf
  rw [← List.append_assoc, address_after] at haddr
  rw [← List.append_assoc, domainOf_append_at] at hdomain
  have hkept : domain ++ (domain ++ f).dropWhile isDomainChar = domain ++ f := by
    have hparts : domainOf (domain ++ f) ++ (domain ++ f).dropWhile isDomainChar = domain ++ f :=
      List.takeWhile_append_dropWhile
    rwa [hdomain] at hparts
  rw [List.append_assoc, List.cons_append, keptBefore_at (by simp [hd, hf]), if_pos haddr]
  exact List.append_cancel_left hkept

/-! ## Exposed addresses -/

/-- What the output begins with after an `@` -/
theorem EmailsMasked.prefix_iff {p pre post r w d : Text} (h : EmailsMasked pre post r)
    (hpre : pre = p ++ ['@']) (hw : PhonesMasked r w) (hat : '@' ∉ d) (hopen : '[' ∉ d) :
    d <+: w ↔ ∃ z, keptAfter post = d ++ z ∧ Clear [] d z := by
  subst hpre
  cases h with
  | last hf => rw [keptAfter_last hf, hw.prefix_iff hopen]
  | @pass _ f post w' hf hno h =>
    obtain ⟨w₁, w₂, rfl, hw₁, -⟩ := hw.split (by decide) (by decide) rfl
    rw [List.append_assoc, List.singleton_append, address_before] at hno
    rw [Separator.prefix_iff hat, keptAfter_at hf, if_neg hno, hw₁.prefix_iff hopen]
  | @cut _ x user domain post w' hx haddr huser hdomain h =>
    have hmark : x ++ "[email]".toList ++ w' = x ++ '[' :: ("email]".toList ++ w') := by simp
    obtain ⟨w₁, w₂, rfl, hw₁, -⟩ := hw.split (by decide) (by decide) hmark
    have hfield : p ++ ['@'] ++ x ++ user = p ++ '@' :: (x ++ user) := by simp
    rw [hfield, address_before] at haddr
    rw [hfield, userOf_append_at] at huser
    have hat' : '@' ∉ x ++ user := by
      have huser' := at_not_mem_user (huser ▸ userOf_all (x ++ user))
      simp [hx, huser']
    have hkept : (x ++ user).rdropWhile isUserChar = x := by
      have hparts : (x ++ user).rdropWhile isUserChar ++ userOf (x ++ user) = x ++ user :=
        List.rdropWhile_append_rtakeWhile
      rw [huser] at hparts
      exact List.append_cancel_right hparts
    rw [Separator.prefix_iff hopen, keptAfter_at hat', if_pos haddr, hkept, hw₁.prefix_iff hopen]

/-- **An address in the output** was shown at an `@` of the text. -/
theorem EmailsMasked.infix_iff {pre post r w l d : Text} (h : EmailsMasked pre post r)
    (hstarts : Starts pre post) (hw : PhonesMasked r w) (hl : '@' ∉ l ∧ '[' ∉ l ∧ ']' ∉ l)
    (hd : '@' ∉ d ∧ '[' ∉ d ∧ ']' ∉ d) :
    l ++ '@' :: d <:+: w ↔ ∃ p q, post = p ++ '@' :: q ∧ Shown (pre ++ p) q l d := by
  induction h generalizing w with
  | @last pre f hf =>
    constructor
    · intro hin
      exact absurd (hin.subset (by simp)) (hw.at_not_mem hf)
    · rintro ⟨p, q, rfl, -⟩
      simp at hf
  | @pass pre f post r hf hno h ih =>
    obtain ⟨w₁, w₂, rfl, hw₁, hw₂⟩ := hw.split (by decide) (by decide) rfl
    have hnext := ih (starts_pass hno) hw₂
    have hkept := hstarts f post rfl hf
    have hshown : Shown (pre ++ f) post l d ↔ l <:+ w₁ ∧ d <+: w₂ := by
      rw [hw₁.suffix_iff hl.2.2, h.prefix_iff rfl hw₂ hd.1 hd.2.1]
      refine ⟨fun hs => ⟨hkept ▸ hs.before, hs.after⟩, fun hs => ⟨hno, hkept.symm ▸ hs.1, hs.2⟩⟩
    rw [Separator.infix_around_iff hl.1 (hw₁.at_not_mem hf), ← hshown, hnext]
    constructor
    · rintro (hs | ⟨p, q, rfl, hs⟩)
      · exact ⟨f, post, rfl, hs⟩
      · exact ⟨f ++ '@' :: p, q, by simp, by simpa using hs⟩
    · rintro ⟨p, q, heq, hs⟩
      rcases between heq with ⟨rfl, rfl⟩ | ⟨mid, rfl, rfl⟩ | ⟨mid, rfl, -⟩
      · exact .inl hs
      · exact .inr ⟨mid, q, rfl, by simpa using hs⟩
      · simp at hf
  | @cut pre x user domain post r hx haddr huser hdomain h ih =>
    have hmark : x ++ "[email]".toList ++ r = x ++ "[email".toList ++ ']' :: r := by simp
    obtain ⟨w₁, w₂, rfl, hw₁, hw₂⟩ := hw.split (by decide) (by decide) hmark
    have hdat : '@' ∉ domain := at_not_mem_user (hdomain ▸ domainOf_all (domain ++ post))
    have huat : '@' ∉ user := at_not_mem_user (huser ▸ userOf_all (pre ++ x ++ user))
    have hnone : ¬ l ++ '@' :: d <:+: w₁ := by
      intro hin
      refine hw₁.at_not_mem ?_ (hin.subset (by simp))
      simp [hx]
    have hclose : ']' ∉ l ++ '@' :: d := by simp [hl.2.2, hd.2.2]
    rw [Separator.infix_iff hclose, or_iff_right hnone, ih (starts_cut haddr hdomain hdat) hw₂]
    constructor
    · rintro ⟨p, q, rfl, hs⟩
      exact ⟨x ++ user ++ '@' :: (domain ++ p), q, by simp, by simpa using hs⟩
    · rintro ⟨p, q, heq, hs⟩
      rcases between heq with ⟨rfl, rfl⟩ | ⟨mid, rfl, hmid⟩ | ⟨mid, hmid, -⟩
      · rw [← List.append_assoc] at hs
        exact absurd haddr hs.scanned
      · rcases List.append_eq_append_iff.mp hmid with ⟨m, rfl, rfl⟩ | ⟨m, rfl, hm⟩
        · exact ⟨m, q, rfl, by simpa using hs⟩
        · cases m with
          | nil => exact ⟨[], q, hm.symm, by simpa using hs⟩
          | cons c m =>
            obtain ⟨rfl, -⟩ := List.cons.inj hm
            simp at hdat
      · have hmem : '@' ∈ x ++ user := by simp [hmid]
        simp [hx, huat] at hmem

/-! ## The addresses of accounts -/

/-- An accepted address is a local part and a domain, without the brackets of the marks. -/
theorem email_parts {e : Text} (h : (normalizeEmail e).isSome = true) (htrim : Text.trim e = e) :
    ∃ l d, e = l ++ '@' :: d ∧ ('@' ∉ l ∧ '[' ∉ l ∧ ']' ∉ l) ∧ ('@' ∉ d ∧ '[' ∉ d ∧ ']' ∉ d) := by
  simp only [normalizeEmail, htrim] at h
  split at h
  · simp at h
  · split at h
    · next l d hsplit =>
      obtain ⟨rfl, hl, hd⟩ := Separator.splitOn_eq_pair hsplit
      split at h
      · simp at h
      · next hlocal =>
        split at h
        · simp at h
        · next hdomain =>
          simp only [Bool.or_eq_true, not_or, Bool.not_eq_true', Bool.not_eq_false] at hlocal hdomain
          have hchar : ∀ c ∈ l, isLocalChar c = true := List.all_eq_true.mp hlocal.2
          have hlabels : ∀ label ∈ d.splitOn '.', isDomainLabel label = true :=
            List.all_eq_true.mp hdomain.2
          have hbracket : ∀ c ∈ d, c ≠ '.' → (Text.isAsciiAlphanumeric c || c == '-') = true := by
            intro c hc hdot
            obtain ⟨label, hlabel, hmem⟩ := Separator.exists_mem_splitOn hc hdot
            have hok := hlabels label hlabel
            rw [isDomainLabel, Bool.and_eq_true] at hok
            exact List.all_eq_true.mp hok.2 c hmem
          refine ⟨l, d, rfl, ⟨hl, fun hmem => ?_, fun hmem => ?_⟩, hd, fun hmem => ?_, fun hmem => ?_⟩
          · exact absurd (hchar '[' hmem) (by decide)
          · exact absurd (hchar ']' hmem) (by decide)
          · exact absurd (hbracket '[' hmem (by decide)) (by decide)
          · exact absurd (hbracket ']' hmem (by decide)) (by decide)
    · simp at h

/-- **What redaction removes.** An address that accounts may have is not in the output if and only if the
redactor panics on the text, or shows the address at no `@` of it. And no run of ten digits is left of
any text by `redact_phones`. -/
theorem redaction_removes_iff (pre e post : Text) (hemail : (normalizeEmail e).isSome = true)
    (htrim : Text.trim e = e) :
    ((∀ out, redactPii (pre ++ e ++ post) = some out → ¬ e <:+: out) ↔
        Entangled (pre ++ e ++ post) ∨ ¬ Exposed (pre ++ e ++ post) e)
      ∧ ∀ s out, redactPhones s = some out → NoLongRun out := by
  refine ⟨?_, fun s out h => (redactPhones_masked h).noLongRun⟩
  obtain ⟨l, d, rfl, hl, hd⟩ := email_parts hemail htrim
  generalize pre ++ (l ++ '@' :: d) ++ post = t
  have hshown : Exposed t (l ++ '@' :: d) ↔ ∃ p q, t = p ++ '@' :: q ∧ Shown p q l d := by
    constructor
    · rintro ⟨p, q, l', d', ht, he, hs⟩
      rcases between he with ⟨rfl, rfl⟩ | ⟨mid, -, rfl⟩ | ⟨mid, rfl, -⟩
      · exact ⟨p, q, ht, hs⟩
      · simp at hd
      · simp at hl
    · rintro ⟨p, q, ht, hs⟩
      exact ⟨p, q, l, d, ht, rfl, hs⟩
  have hout : ∀ out, redactPii t = some out → (l ++ '@' :: d <:+: out ↔ Exposed t (l ++ '@' :: d)) := by
    intro out h
    rw [redactPii] at h
    obtain ⟨r, hr, hw⟩ := Option.bind_eq_some_iff.mp h
    rw [(redactEmails_masked hr).infix_iff (starts_nil t) (redactPhones_masked hw) hl hd, hshown]
    rfl
  constructor
  · intro hclean
    by_cases hpanic : Entangled t
    · exact .inl hpanic
    · obtain ⟨out, h⟩ := Option.isSome_iff_exists.mp ((redactPii_isSome t).mpr hpanic)
      exact .inr fun hexposed => hclean out h ((hout out h).mpr hexposed)
  · rintro (hpanic | hhidden) out h hin
    · exact (redactPii_isSome t).mp (by rw [h]; rfl) hpanic
    · exact hhidden ((hout out h).mp hin)

theorem sentence_end_leaks :
    (normalizeEmail "alice@example.com".toList).isSome = true
      ∧ Text.trim "alice@example.com".toList = "alice@example.com".toList
      ∧ redactPii ("write to ".toList ++ "alice@example.com".toList ++ ".".toList)
        = some "write to alice@example.com.".toList
      ∧ "alice@example.com".toList <:+: "write to alice@example.com.".toList := by
  refine ⟨?_, ?_, ?_, ?_⟩
  · decide +kernel
  · decide +kernel
  · decide +kernel
  · decide +kernel

theorem redaction_removes_in_sentence : Entangled "write alice@example.com, please".toList
    ∨ ¬ Exposed "write alice@example.com, please".toList "alice@example.com".toList := by
  refine (redaction_removes_iff "write ".toList "alice@example.com".toList ", please".toList
    (by decide +kernel) (by decide +kernel)).1.mp ?_
  intro out h
  have hout : redactPii ("write ".toList ++ "alice@example.com".toList ++ ", please".toList)
      = some "write [email], please".toList := by decide +kernel
  obtain rfl : out = "write [email], please".toList := Option.some.inj (h.symm.trans hout)
  decide +kernel

end Slopmud.Broker
