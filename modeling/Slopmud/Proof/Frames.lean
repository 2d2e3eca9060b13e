import Slopmud.Proto.Shard

/-!
# What the shard reads is what was written

Every read of `parse_req` and `parse_resp` is inside the frame, for any bytes at
all; and a frame that the broker or the gateway built parses to what went into it.
The one thing that fails is on the writing side: the gateway cuts a long field as
a string, at byte 255, which panics when that byte is inside a character.
-/

namespace Slopmud.Proto

open Checked

/-! ## Parsing does not panic -/

theorem returns_require (p : Bytes) (need : Nat) :
    Returns (require p need) (fun _ => need ≤ p.length) := by
  unfold require
  split
  · exact returns_throw
  · exact returns_pure (by omega)

theorem returns_parseHead (p : Bytes) : Returns (parseHead p) (fun _ => 17 ≤ p.length) := by
  refine (returns_require p 17).bind fun _ hlen => ?_
  refine (returns_byteAt (by omega)).bind fun t _ => ?_
  exact (returns_slice (by omega) hlen).bind fun sid _ => returns_pure hlen

theorem returns_parseAuth {p : Bytes} {i : Nat} (hasAuth : Bool) (hi : i ≤ p.length) :
    Returns (parseAuth p hasAuth i) (fun r => r.2 ≤ p.length) := by
  unfold parseAuth
  split
  · refine (returns_require p (i + 2)).bind fun _ hlen => ?_
    refine (returns_byteAt (by omega)).bind fun hi _ => ?_
    refine (returns_byteAt (by omega)).bind fun lo _ => ?_
    refine (returns_require p _).bind fun _ hlen' => ?_
    exact (returns_slice (by omega) hlen').bind fun a _ => returns_pure hlen'
  · exact returns_pure hi

theorem returns_parseField {p : Bytes} {i : Nat} (more : Nat) (hi : i < p.length) :
    Returns (parseField p i more) (fun r => r.2 + more ≤ p.length) := by
  refine (returns_byteAt hi).bind fun len _ => ?_
  refine (returns_require p _).bind fun _ hlen => ?_
  exact (returns_slice (by omega) (by omega)).bind fun field _ => returns_pure hlen

theorem returns_parseAttach (p : Bytes) (session : SessionId) :
    Returns (parseAttach p session) (fun _ => True) := by
  refine (returns_require p 18).bind fun _ hlen => ?_
  refine (returns_byteAt (by omega)).bind fun flags _ => ?_
  refine (returns_parseAuth _ hlen).bind fun r hi => ?_
  obtain ⟨auth, i⟩ := r
  simp only
  split
  · refine (returns_require p (i + 1)).bind fun _ hlen' => ?_
    refine (returns_parseField 1 (by omega)).bind fun race hrace => ?_
    refine (returns_parseField 1 (by omega)).bind fun cls hcls => ?_
    refine (returns_parseField 1 (by omega)).bind fun sex hsex => ?_
    refine (returns_parseField 0 (by omega)).bind fun pronouns hpronouns => ?_
    exact (returns_slice (by omega) (Nat.le_refl _)).bind fun name _ => returns_pure trivial
  · exact (returns_slice hi (Nat.le_refl _)).bind fun name _ => returns_pure trivial

theorem returns_parseReq (p : Bytes) : Returns (parseReq p) (fun _ => True) := by
  refine (returns_parseHead p).bind fun r hlen => ?_
  obtain ⟨t, session⟩ := r
  simp only
  split
  · exact returns_parseAttach p session
  · split
    · split
      · exact returns_throw
      · exact returns_pure trivial
    · split
      · exact (returns_slice hlen (Nat.le_refl _)).bind fun line _ => returns_pure trivial
      · exact returns_throw

theorem returns_parseResp (p : Bytes) : Returns (parseResp p) (fun _ => True) := by
  refine (returns_parseHead p).bind fun r hlen => ?_
  obtain ⟨t, session⟩ := r
  simp only
  split
  · exact (returns_slice hlen (Nat.le_refl _)).bind fun line _ => returns_pure trivial
  · split
    · exact (returns_slice hlen (Nat.le_refl _)).bind fun msg _ => returns_pure trivial
    · exact returns_throw

/-! ## Reading back what was written -/

theorem require_eq {p : Bytes} {need : Nat} (h : need ≤ p.length) : require p need = pure () :=
  if_neg (by omega)

theorem sessionId_roundtrip (s : SessionId) : SessionId.fromBeBytes s.toBeBytes = s := by
  rw [SessionId.fromBeBytes, SessionId.toBeBytes, Wire.ofBe_toBe s.isLt, BitVec.ofNat_toNat,
    BitVec.setWidth_eq]

theorem toBeBytes_length (s : SessionId) : s.toBeBytes.length = 16 := Wire.toBe_length 16 _

theorem parseHead_writeReq (t : UInt8) (session : SessionId) (body : Bytes) :
    parseHead (writeReq t session body) = pure (t, session) := by
  have hlen := toBeBytes_length session
  rw [parseHead, require_eq (by simp [writeReq, hlen]), pure_bind,
    @byteAt_append _ (writeReq t session body) 0 [] t (session.toBeBytes ++ body) rfl rfl, pure_bind,
    @slice_append _ (writeReq t session body) 1 _ [t] session.toBeBytes body (by simp [writeReq]) rfl
      (by omega),
    pure_bind, sessionId_roundtrip]

/-- One length byte, and the bytes of a field that fits. -/
def sized (f : Bytes) : Bytes := .ofNat f.length :: f

theorem pushClipped_eq (f : Bytes) : pushClipped f = sized (f.take 255) := by
  have hlen : (f.take 255).length = min f.length 255 := by rw [List.length_take, Nat.min_comm]
  have htake : f.take (min f.length 255) = f.take 255 := by
    rw [← hlen, List.length_take, ← List.take_take, List.take_length]
  rw [pushClipped, sized, hlen, htake]

theorem parseField_eq {p : Bytes} {i more : Nat} (pre f suf : Bytes) (hp : p = pre ++ sized f ++ suf)
    (hi : pre.length = i) (hf : f.length ≤ 255) (hmore : more ≤ suf.length) :
    parseField p i more = pure (f, i + 1 + f.length) := by
  have hbyte : (UInt8.ofNat f.length).toNat = f.length := Utf8.toNat_ofNat _ (by omega)
  have hlen : p.length = i + (1 + f.length) + suf.length := by
    rw [hp, ← hi]
    simp only [sized, List.length_append, List.length_cons]
    omega
  rw [parseField, byteAt_append pre (.ofNat f.length) (f ++ suf)
    (by rw [hp]; simp [sized]) hi, pure_bind, hbyte]
  dsimp only
  rw [require_eq (by omega), pure_bind,
    slice_append (pre ++ [UInt8.ofNat f.length]) f suf
      (by rw [hp]; simp [sized]) (by simp [hi]) rfl, pure_bind]

/-- How a blob is written. -/
def authBytes : Option Bytes → Bytes
  | none => []
  | some a => Wire.toBe 2 a.length ++ a

theorem parseAuth_eq {p : Bytes} {auth : Option Bytes} {i : Nat} (pre suf : Bytes)
    (hp : p = pre ++ authBytes auth ++ suf) (hi : pre.length = i)
    (hauth : ∀ a ∈ auth, a.length ≤ 65535) :
    parseAuth p auth.isSome i = pure (auth, i + (authBytes auth).length) := by
  cases auth with
  | none => rfl
  | some a =>
      have ha : a.length ≤ 65535 := hauth a rfl
      obtain ⟨hi', lo, hbe⟩ : ∃ hi lo, Wire.toBe 2 a.length = [hi, lo] :=
        List.length_eq_two.mp (Wire.toBe_length 2 _)
      have hlen : p.length = i + (2 + a.length) + suf.length := by
        rw [hp, ← hi]
        simp only [authBytes, hbe, List.length_append, List.length_cons, List.length_nil]
      have hend : i + (authBytes (some a)).length = i + 2 + a.length := by
        simp only [authBytes, hbe, List.length_append, List.length_cons, List.length_nil]
        omega
      rw [authBytes, hbe] at hp
      rw [parseAuth, Option.isSome_some, if_pos rfl, require_eq (by omega), pure_bind,
        byteAt_append pre hi' (lo :: a ++ suf) (by rw [hp]; simp) hi, pure_bind,
        byteAt_append (pre ++ [hi']) lo (a ++ suf) (by rw [hp]; simp)
          (by simp [hi]),
        pure_bind, ← hbe, Wire.ofBe_toBe (by omega), hend]
      dsimp only
      rw [require_eq (by omega), pure_bind,
        slice_append (pre ++ [hi', lo]) a suf (by rw [hp]; simp)
          (by simp [hi]) rfl,
        pure_bind]

theorem slice_rest {p : Bytes} {i : Nat} (pre rest : Bytes) (hp : p = pre ++ rest) (hi : pre.length = i) :
    (slice p i p.length : Checked ProtoError Bytes) = pure rest :=
  slice_append pre rest [] (by rw [hp, List.append_nil]) hi (by rw [hp, List.length_append, hi])

/-- An attach frame with a build block. -/
theorem parseAttach_build {p : Bytes} {flags : UInt8} {race cls sex pronouns name : Bytes}
    (head : Bytes) (auth : Option Bytes) (session : SessionId)
    (hp : p = head ++ [flags] ++ authBytes auth ++ sized race ++ sized cls ++ sized sex
      ++ sized pronouns ++ name)
    (hhead : head.length = 17) (hflag : (flags &&& 0x02 != 0) = auth.isSome)
    (hbuild : (flags &&& 0x04 != 0) = true) (hauth : ∀ a ∈ auth, a.length ≤ 65535)
    (hrace : race.length ≤ 255) (hcls : cls.length ≤ 255) (hsex : sex.length ≤ 255)
    (hpronouns : pronouns.length ≤ 255) :
    parseAttach p session = pure (.attach session (flags &&& 0x01 != 0) auth (some race) (some cls)
      (some sex) (some pronouns) name) := by
  have hlen : p.length = 18 + (authBytes auth).length + (1 + race.length) + (1 + cls.length)
      + (1 + sex.length) + (1 + pronouns.length) + name.length := by
    rw [hp]
    simp only [sized, List.length_append, List.length_cons, List.length_nil, hhead]
    omega
  rw [parseAttach, require_eq (by omega), pure_bind,
    byteAt_append head flags (authBytes auth ++ sized race ++ sized cls
      ++ sized sex ++ sized pronouns ++ name) (by rw [hp]; simp) hhead, pure_bind]
  dsimp only
  rw [hflag, parseAuth_eq (head ++ [flags]) (sized race ++ sized cls ++ sized sex
    ++ sized pronouns ++ name) (by rw [hp]; simp) (by simp [hhead]) hauth, pure_bind]
  dsimp only
  rw [if_pos hbuild, require_eq (by omega), pure_bind,
    parseField_eq (head ++ [flags] ++ authBytes auth) race
      (sized cls ++ sized sex ++ sized pronouns ++ name) (by rw [hp]; simp)
      (by simp [hhead]; omega) hrace (by simp [sized]), pure_bind]
  dsimp only
  rw [parseField_eq (head ++ [flags] ++ authBytes auth ++ sized race) cls
      (sized sex ++ sized pronouns ++ name) (by rw [hp]; simp)
      (by simp [hhead, sized]; omega) hcls (by simp [sized]), pure_bind]
  dsimp only
  rw [parseField_eq (head ++ [flags] ++ authBytes auth ++ sized race ++ sized cls) sex
      (sized pronouns ++ name) (by rw [hp]; simp)
      (by simp [hhead, sized]; omega) hsex (by simp [sized]), pure_bind]
  dsimp only
  rw [parseField_eq (head ++ [flags] ++ authBytes auth ++ sized race ++ sized cls ++ sized sex)
      pronouns name (by rw [hp]) (by simp [hhead, sized]; omega) hpronouns
      (Nat.zero_le _), pure_bind]
  dsimp only
  rw [slice_rest _ name hp (by simp [hhead, sized]; omega), pure_bind]

/-- An attach frame without one. -/
theorem parseAttach_plain {p : Bytes} {flags : UInt8} (head name : Bytes) (session : SessionId)
    (hp : p = head ++ [flags] ++ name) (hhead : head.length = 17)
    (hflag : (flags &&& 0x02 != 0) = false) (hbuild : (flags &&& 0x04 != 0) = false) :
    parseAttach p session
      = pure (.attach session (flags &&& 0x01 != 0) none none none none none name) := by
  have hlen : p.length = 18 + name.length := by
    rw [hp]
    simp only [List.length_append, List.length_cons, List.length_nil, hhead]
  rw [parseAttach, require_eq (by omega), pure_bind,
    byteAt_append head flags name (by rw [hp]; simp) hhead, pure_bind]
  dsimp only
  rw [hflag, hbuild, parseAuth, if_neg Bool.false_ne_true, pure_bind]
  dsimp only
  rw [if_neg Bool.false_ne_true, slice_rest _ name hp (by simp [hhead]), pure_bind]

theorem parseReq_attach (session : SessionId) (body : Bytes) :
    parseReq (writeReq reqAttach session body)
      = parseAttach (writeReq reqAttach session body) session := by
  rw [parseReq, parseHead_writeReq, pure_bind]
  exact if_pos rfl

theorem writeReq_length (t : UInt8) (session : SessionId) (body : Bytes) :
    (writeReq t session body).length = 17 + body.length := by
  rw [writeReq, List.length_append, List.length_cons, toBeBytes_length]

theorem parseReq_detach (session : SessionId) :
    parseReq (writeReq reqDetach session []) = pure (.detach session) := by
  rw [parseReq, parseHead_writeReq, pure_bind]
  dsimp only
  rw [if_neg (by decide), if_pos rfl, writeReq_length]
  rfl

theorem parseReq_input (session : SessionId) (line : Bytes) :
    parseReq (writeReq reqInput session line) = pure (.input session line) := by
  rw [parseReq, parseHead_writeReq, pure_bind]
  dsimp only
  rw [if_neg (by decide), if_neg (by decide), if_pos rfl,
    @slice_rest (writeReq reqInput session line) _ (reqInput :: session.toBeBytes) line
      (by simp [writeReq]) (by simp [toBeBytes_length]), pure_bind]

/-! ## The broker's encoder -/

/-- A blob that is too long to encode is dropped. -/
def encodable (auth : Option Bytes) : Option Bytes := auth.filter fun a => a.length ≤ 65535

/-- The first 255 bytes of a field. -/
def cut (t : Text) : Bytes := (Utf8.encode t).take 255

theorem cut_length (t : Text) : (cut t).length ≤ 255 := by
  rw [cut, List.length_take]
  omega

/-- The flags of the broker's attach: a dropped blob clears its bit again. -/
def brokerFlags (isBot : Bool) (auth : Option Bytes) : UInt8 :=
  (if isBot then 0x01 else 0) ||| (if auth.isSome then 0x02 else 0) ||| 0x04

theorem encodable_some (a : Bytes) :
    encodable (some a) = if a.length ≤ 65535 then some a else none := by
  simp [encodable, Option.filter_some]

theorem attachBody_eq (isBot : Bool) (auth : Option Bytes) (race cls sex pronouns : Text)
    (name : Bytes) : attachBody isBot auth race cls sex pronouns name =
      [brokerFlags isBot (encodable auth)] ++ authBytes (encodable auth) ++ sized (cut race)
        ++ sized (cut cls) ++ sized (cut sex) ++ sized (cut pronouns) ++ name := by
  simp only [attachBody, pushClipped_eq, cut]
  cases auth with
  | none =>
      have hflags : ((if isBot then 0x01 else 0) ||| 0x04 : UInt8) = brokerFlags isBot none := by
        cases isBot <;> decide
      simp [encodable, authBytes, hflags]
  | some a =>
      rw [encodable_some]
      by_cases ha : a.length ≤ 65535
      · have hflags : ((if isBot then 0x01 else 0) ||| 0x02 ||| 0x04 : UInt8)
            = brokerFlags isBot (some a) := by
          rw [brokerFlags, Option.isSome_some]
          cases isBot <;> decide
        simp [ha, authBytes, hflags]
      · -- the bit that was set for the blob is cleared again
        have hflags : (((if isBot then 0x01 else 0) ||| 0x02 ||| 0x04) &&& ~~~0x02 : UInt8)
            = brokerFlags isBot none := by
          cases isBot <;> decide
        simp [ha, authBytes, hflags]

/-- **What the broker sends of an attach.** -/
theorem broker_roundtrip (session : SessionId) (isBot : Bool) (auth : Option Bytes)
    (race cls sex pronouns : Text) (name : Bytes) :
    parseReq (writeReq reqAttach session (attachBody isBot auth race cls sex pronouns name))
      = pure (.attach session isBot (encodable auth) (some (cut race)) (some (cut cls))
          (some (cut sex)) (some (cut pronouns)) name) := by
  have hbits : (brokerFlags isBot (encodable auth) &&& 0x02 != 0) = (encodable auth).isSome ∧
      (brokerFlags isBot (encodable auth) &&& 0x04 != 0) = true ∧
      (brokerFlags isBot (encodable auth) &&& 0x01 != 0) = isBot := by
    rw [brokerFlags]
    cases (encodable auth).isSome <;> cases isBot <;> decide
  have hfits : ∀ a ∈ encodable auth, a.length ≤ 65535 := by
    intro a ha
    simpa using (Option.mem_filter_iff.mp ha).2
  rw [parseReq_attach, parseAttach_build (reqAttach :: session.toBeBytes) (encodable auth) session ?_
    (by simp [toBeBytes_length]) hbits.1 hbits.2.1 hfits (cut_length _) (cut_length _) (cut_length _)
    (cut_length _), hbits.2.2]
  rw [writeReq, attachBody_eq]
  simp

/-! ## The gateway's encoder -/

theorem encodeChar_length (c : Char) : (Utf8.encodeChar c).length = Text.utf8Len c := by
  have h1 : c.val ≤ 0x7F ↔ c.toNat < 0x80 := UInt32.le_iff_toNat_le.trans Nat.lt_succ_iff.symm
  have h2 : c.val ≤ 0x7FF ↔ c.toNat < 0x800 := UInt32.le_iff_toNat_le.trans Nat.lt_succ_iff.symm
  have h3 : c.val ≤ 0xFFFF ↔ c.toNat < 0x10000 := UInt32.le_iff_toNat_le.trans Nat.lt_succ_iff.symm
  have hlen : Text.utf8Len c = if c.val ≤ 0x7F then 1 else if c.val ≤ 0x7FF then 2
      else if c.val ≤ 0xFFFF then 3 else 4 := rfl
  simp only [hlen, h1, h2, h3, Utf8.encodeChar]
  split
  · rfl
  · split
    · rfl
    · split <;> rfl

theorem encode_length (t : Text) : (Utf8.encode t).length = Text.byteLen t := by
  induction t with
  | nil => rfl
  | cons c t ih =>
      rw [Utf8.encode, List.flatMap_cons, List.length_append, encodeChar_length, ← Utf8.encode, ih]
      rfl

/-- The string can be cut there. -/
def IsCharBoundary (t : Text) (n : Nat) : Prop := ∃ pre suf, t = pre ++ suf ∧ Text.byteLen pre = n

theorem utf8Len_pos (c : Char) : 0 < Text.utf8Len c := c.utf8Size_pos

/-- **Slicing a string** gives the part before the boundary, and panics when there is none. -/
theorem strTo_eq_some {t pre : Text} {n : Nat} :
    strTo t n = some pre ↔ Text.byteLen pre = n ∧ ∃ suf, t = pre ++ suf := by
  induction t generalizing n pre with
  | nil =>
      cases n with
      | zero =>
          constructor
          · rintro ⟨⟩
            exact ⟨rfl, [], rfl⟩
          · rintro ⟨-, suf, h⟩
            rw [(List.append_eq_nil_iff.mp h.symm).1]
            rfl
      | succ n =>
          simp only [strTo, false_iff, reduceCtorEq]
          rintro ⟨hlen, suf, h⟩
          rw [(List.append_eq_nil_iff.mp h.symm).1] at hlen
          cases hlen
  | cons c t ih =>
      have hpos := utf8Len_pos c
      cases n with
      | zero =>
          constructor
          · rintro ⟨⟩
            exact ⟨rfl, c :: t, rfl⟩
          · rintro ⟨hlen, suf, h⟩
            cases pre with
            | nil => rfl
            | cons d pre =>
                obtain ⟨rfl, -⟩ := List.cons.inj h
                simp only [Text.byteLen, List.map_cons, List.sum_cons] at hlen
                omega
      | succ n =>
          rw [strTo]
          constructor
          · intro h
            split at h
            · obtain ⟨pre', hpre', rfl⟩ := Option.map_eq_some_iff.mp h
              obtain ⟨hlen, suf, rfl⟩ := ih.mp hpre'
              refine ⟨?_, suf, rfl⟩
              simp only [Text.byteLen, List.map_cons, List.sum_cons] at hlen ⊢
              omega
            · cases h
          · rintro ⟨hlen, suf, h⟩
            cases pre with
            | nil => cases hlen
            | cons d pre =>
                obtain ⟨rfl, rfl⟩ := List.cons.inj h
                simp only [Text.byteLen, List.map_cons, List.sum_cons] at hlen
                rw [if_pos (by omega), ih.mpr ⟨by simp only [Text.byteLen]; omega, suf, rfl⟩]
                rfl

theorem strTo_isSome {t : Text} {n : Nat} : (∃ pre, strTo t n = some pre) ↔ IsCharBoundary t n := by
  constructor
  · rintro ⟨pre, h⟩
    obtain ⟨hlen, suf, hsuf⟩ := strTo_eq_some.mp h
    exact ⟨pre, suf, hsuf, hlen⟩
  · rintro ⟨pre, suf, hsuf, hlen⟩
    exact ⟨pre, strTo_eq_some.mpr ⟨hlen, suf, hsuf⟩⟩

theorem encode_strTo {t pre : Text} {n : Nat} (h : strTo t n = some pre) :
    Utf8.encode pre = (Utf8.encode t).take n := by
  obtain ⟨hlen, suf, rfl⟩ := strTo_eq_some.mp h
  have happend : Utf8.encode (pre ++ suf) = Utf8.encode pre ++ Utf8.encode suf :=
    List.flatMap_append
  rw [happend, ← hlen, ← encode_length, List.take_left]

/-- What a field of the gateway is: trimmed, and empty when it is absent. -/
def gatewayField (s : Option Text) : Text := Text.trim (s.getD [])

/-- The field does not have to be cut, or can be cut at byte 255. -/
def Cuttable (s : Option Text) : Prop :=
  255 < Text.byteLen (gatewayField s) → IsCharBoundary (gatewayField s) 255

/-- **A field of the gateway** is written as the broker writes it, or panics. -/
theorem pushField_eq {s : Option Text} (h : Cuttable s) :
    pushField s = some (sized (cut (gatewayField s))) := by
  have hcut : ∀ u : Text, Utf8.encode u = cut (gatewayField s) →
      (.ofNat (Text.byteLen u) :: Utf8.encode u : Bytes) = sized (cut (gatewayField s)) := by
    intro u hu
    rw [sized, ← hu, encode_length]
  rw [pushField]
  simp only [gt_iff_lt]
  by_cases hlong : 255 < Text.byteLen (gatewayField s)
  · obtain ⟨pre, hpre⟩ := strTo_isSome.mpr (h hlong)
    rw [gatewayField] at hlong hpre
    rw [if_pos hlong, hpre]
    exact congrArg some (hcut pre (encode_strTo hpre))
  · rw [gatewayField] at hlong
    rw [if_neg hlong]
    refine congrArg some (hcut _ ?_)
    rw [cut, List.take_of_length_le (by rw [encode_length, gatewayField]; omega), gatewayField]

theorem cuttable_of_pushField {s : Option Text} {b : Bytes} (h : pushField s = some b) : Cuttable s := by
  intro hlong
  rw [gatewayField] at hlong ⊢
  rw [pushField] at h
  simp only [gt_iff_lt, if_pos hlong] at h
  obtain ⟨pre, hpre, -⟩ := Option.bind_eq_some_iff.mp h
  exact strTo_isSome.mp ⟨pre, hpre⟩

theorem cuttable_none : Cuttable none := by
  intro h
  have : Text.byteLen (gatewayField none) = 0 := rfl
  omega

/-- The build block is there when one of its fields is. -/
def hasBuild (race cls sex pronouns : Option Text) : Bool :=
  race.isSome || cls.isSome || sex.isSome || pronouns.isSome

theorem none_of_no_build {race cls sex pronouns : Option Text}
    (h : hasBuild race cls sex pronouns = false) :
    race = none ∧ cls = none ∧ sex = none ∧ pronouns = none := by
  cases race <;> cases cls <;> cases sex <;> cases pronouns <;> simp_all [hasBuild]

/-- What the shard reads of a field of the gateway. -/
def gatewaySent (build : Bool) (s : Option Text) : Option Bytes :=
  if build then some (cut (gatewayField s)) else none

/-- **What the gateway sends of an attach.** -/
theorem gateway_roundtrip (session : SessionId) (isBot : Bool) (name : Text)
    {race cls sex pronouns : Option Text}
    (hcut : ∀ f ∈ [race, cls, sex, pronouns], Cuttable f) :
    ∃ body, shardAttachBodyWithBuild isBot name race cls sex pronouns = some body ∧
      parseReq (writeReq reqAttach session body) = pure (.attach session isBot none
        (gatewaySent (hasBuild race cls sex pronouns) race)
        (gatewaySent (hasBuild race cls sex pronouns) cls)
        (gatewaySent (hasBuild race cls sex pronouns) sex)
        (gatewaySent (hasBuild race cls sex pronouns) pronouns) (Utf8.encode name)) := by
  have hhead : (reqAttach :: session.toBeBytes).length = 17 := by simp [toBeBytes_length]
  cases hbuild : hasBuild race cls sex pronouns with
  | true =>
      have hbits : (((if isBot then 0x01 else 0) ||| 0x04 : UInt8) &&& 0x02 != 0) = false ∧
          (((if isBot then 0x01 else 0) ||| 0x04 : UInt8) &&& 0x04 != 0) = true ∧
          (((if isBot then 0x01 else 0) ||| 0x04 : UInt8) &&& 0x01 != 0) = isBot := by
        cases isBot <;> decide
      refine ⟨((if isBot then 0x01 else 0) ||| 0x04) :: sized (cut (gatewayField race))
        ++ sized (cut (gatewayField cls)) ++ sized (cut (gatewayField sex))
        ++ sized (cut (gatewayField pronouns)) ++ Utf8.encode name, ?_, ?_⟩
      · rw [hasBuild] at hbuild
        rw [shardAttachBodyWithBuild]
        simp only [hbuild, if_true, pushField_eq (hcut race (by simp)),
          pushField_eq (hcut cls (by simp)), pushField_eq (hcut sex (by simp)),
          pushField_eq (hcut pronouns (by simp))]
        rfl
      · rw [parseReq_attach, parseAttach_build (reqAttach :: session.toBeBytes) none
          session ?_ hhead hbits.1 hbits.2.1 (by simp) (cut_length _) (cut_length _) (cut_length _)
          (cut_length _), hbits.2.2]
        · rfl
        · simp [writeReq, authBytes]
  | false =>
      have hbits : (((if isBot then 0x01 else 0) : UInt8) &&& 0x02 != 0) = false ∧
          (((if isBot then 0x01 else 0) : UInt8) &&& 0x04 != 0) = false ∧
          (((if isBot then 0x01 else 0) : UInt8) &&& 0x01 != 0) = isBot := by
        cases isBot <;> decide
      refine ⟨(if isBot then 0x01 else 0) :: Utf8.encode name, ?_, ?_⟩
      · rw [hasBuild] at hbuild
        rw [shardAttachBodyWithBuild]
        simp only [hbuild, Bool.false_eq_true, if_false]
      · rw [parseReq_attach, parseAttach_plain (reqAttach :: session.toBeBytes)
          (Utf8.encode name) session ?_ hhead hbits.1 hbits.2.1, hbits.2.2]
        · rfl
        · simp [writeReq]

/-- The gateway panics on a field it cannot cut. -/
theorem cuttable_of_body {isBot : Bool} {name : Text} {race cls sex pronouns : Option Text}
    {body : Bytes} (h : shardAttachBodyWithBuild isBot name race cls sex pronouns = some body) :
    ∀ f ∈ [race, cls, sex, pronouns], Cuttable f := by
  cases hbuild : hasBuild race cls sex pronouns with
  | true =>
      rw [hasBuild] at hbuild
      rw [shardAttachBodyWithBuild] at h
      simp only [hbuild, if_true] at h
      obtain ⟨r, hr, h⟩ := Option.bind_eq_some_iff.mp h
      obtain ⟨c, hc, h⟩ := Option.bind_eq_some_iff.mp h
      obtain ⟨sx, hsx, h⟩ := Option.bind_eq_some_iff.mp h
      obtain ⟨pr, hpr, -⟩ := Option.bind_eq_some_iff.mp h
      simp only [List.mem_cons, List.not_mem_nil, or_false, forall_eq_or_imp, forall_eq]
      exact ⟨cuttable_of_pushField hr, cuttable_of_pushField hc, cuttable_of_pushField hsx,
        cuttable_of_pushField hpr⟩
  | false =>
      obtain ⟨rfl, rfl, rfl, rfl⟩ := none_of_no_build hbuild
      simp only [List.mem_cons, List.not_mem_nil, or_false, forall_eq_or_imp, forall_eq]
      exact ⟨cuttable_none, cuttable_none, cuttable_none, cuttable_none⟩

/-! ## Frames round-trip -/

/-- The fields of an attach, as the broker has them. -/
structure BrokerAttach where
  isBot : Bool
  auth : Option Bytes
  race : Text
  cls : Text
  sex : Text
  pronouns : Text
  name : Bytes

/-- The fields of an attach, as the gateway has them. -/
structure GatewayAttach where
  isBot : Bool
  name : Text
  race : Option Text
  cls : Option Text
  sex : Option Text
  pronouns : Option Text

def BrokerAttach.RoundTrips (a : BrokerAttach) (session : SessionId) : Prop :=
  parseReq (writeReq reqAttach session
      (attachBody a.isBot a.auth a.race a.cls a.sex a.pronouns a.name))
    = pure (.attach session a.isBot (encodable a.auth) (some (cut a.race)) (some (cut a.cls))
        (some (cut a.sex)) (some (cut a.pronouns)) a.name)

def GatewayAttach.fields (a : GatewayAttach) : List (Option Text) := [a.race, a.cls, a.sex, a.pronouns]

def GatewayAttach.sent (a : GatewayAttach) (field : Option Text) : Option Bytes :=
  gatewaySent (hasBuild a.race a.cls a.sex a.pronouns) field

/-- The body is built, without a panic, and parses to the fields. -/
def GatewayAttach.RoundTrips (a : GatewayAttach) (session : SessionId) : Prop :=
  ∃ body, shardAttachBodyWithBuild a.isBot a.name a.race a.cls a.sex a.pronouns = some body ∧
    parseReq (writeReq reqAttach session body) = pure (.attach session a.isBot none (a.sent a.race)
      (a.sent a.cls) (a.sent a.sex) (a.sent a.pronouns) (Utf8.encode a.name))

def OthersRoundTrip (session : SessionId) (line : Bytes) : Prop :=
  parseReq (writeReq reqDetach session []) = pure (.detach session) ∧
    parseReq (writeReq reqInput session line) = pure (.input session line)

/-- Neither parser reads outside the frame. -/
def ParsersReturn (p : Bytes) : Prop := (parseReq p).run.isSome = true ∧ (parseResp p).run.isSome = true

/-- **Frames decode to what was encoded** exactly when the gateway has no field to cut inside a
character; everything else holds of every input. -/
theorem frames_roundtrip_iff (session : SessionId) (b : BrokerAttach) (g : GatewayAttach)
    (line p : Bytes) :
    (b.RoundTrips session ∧ g.RoundTrips session ∧ OthersRoundTrip session line ∧ ParsersReturn p)
      ↔ ∀ f ∈ g.fields, Cuttable f := by
  constructor
  · rintro ⟨-, ⟨body, hbody, -⟩, -⟩
    exact cuttable_of_body hbody
  · intro hcut
    exact ⟨broker_roundtrip session b.isBot b.auth b.race b.cls b.sex b.pronouns b.name,
      gateway_roundtrip session g.isBot g.name hcut,
      ⟨parseReq_detach session, parseReq_input session line⟩,
      (returns_parseReq p).isSome, (returns_parseResp p).isSome⟩

/-- A race of 254 letters and one that takes two bytes. -/
def longRace : Text := List.replicate 254 'a' ++ ['é']

/-- **The gateway panics on it**, since byte 255 is inside the last letter; the frame is never
built. -/
theorem gateway_panics_inside_char :
    shardAttachBodyWithBuild false "ann".toList (some longRace) none none none = none ∧
    ¬ (GatewayAttach.mk false "ann".toList (some longRace) none none none).RoundTrips 0 := by
  have hpanic : shardAttachBodyWithBuild false "ann".toList (some longRace) none none none = none := by
    decide +kernel
  refine ⟨hpanic, ?_⟩
  rintro ⟨body, hbody, -⟩
  rw [hpanic] at hbody
  cases hbody

end Slopmud.Proto
