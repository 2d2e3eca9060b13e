import Mathlib.Logic.Encodable.Basic
import Slopmud.Lib.Codec
import Slopmud.Lib.Lines
import Slopmud.Lib.Text
import Slopmud.Lib.Utf8

/-!
# Codecs that print on a line

A file of records, one on a line: what is printed is not blank, has no line feed in it and
nothing to trim, so a whole line reads back as the record that was written. Of a line that
was not written whole nothing is known except that it is not blank either.
-/

/-- A printed form of one line. -/
structure LineCodec (α : Type) extends Codec Text α where
  oneLine : ∀ a, '\n' ∉ print a
  trimmed : ∀ a, Text.trim (print a) = print a
  notBlank : ∀ a, print a ≠ []

namespace Text

/-- Text with nothing to trim does not begin with white space. -/
theorem head_of_trim {c : Char} {s : Text} (h : trim (c :: s) = c :: s) : isWhitespace c = false := by
  cases hc : isWhitespace c with
  | false => rfl
  | true =>
    have hstart : trimStart (c :: s) = s.dropWhile isWhitespace := List.dropWhile_cons_of_pos hc
    have hdrop : (s.dropWhile isWhitespace).length ≤ s.length :=
      (List.dropWhile_sublist isWhitespace).length_le
    have hend : (trimEnd (s.dropWhile isWhitespace)).length ≤ (s.dropWhile isWhitespace).length := by
      rw [trimEnd, List.length_reverse]
      exact (List.dropWhile_sublist isWhitespace).length_le.trans (by simp)
    have hlen := congrArg List.length h
    rw [trim, hstart, List.length_cons] at hlen
    omega

/-- Text with nothing to trim does not end with white space. -/
theorem last_of_trim {c : Char} {s : Text} (h : trim (s ++ [c]) = s ++ [c]) :
    isWhitespace c = false := by
  cases hc : isWhitespace c with
  | false => rfl
  | true =>
    have hcut : ∀ t : Text, trimEnd (t ++ [c]) = trimEnd t := by
      intro t
      rw [trimEnd, List.reverse_append, List.reverse_singleton, List.singleton_append,
        List.dropWhile_cons_of_pos hc, trimEnd]
    have hshort : ∀ t : Text, (trimEnd t).length ≤ t.length := by
      intro t
      rw [trimEnd, List.length_reverse]
      exact (List.dropWhile_sublist isWhitespace).length_le.trans (by simp)
    have hlen := congrArg List.length h
    have hstart : trimStart (s ++ [c]) = if (trimStart s).isEmpty then trimStart [c]
        else trimStart s ++ [c] := List.dropWhile_append
    rw [trim, hstart] at hlen
    split at hlen
    · have hnil : trimStart [c] = [] := by simp [trimStart, hc]
      rw [hnil] at hlen
      simp [trimEnd] at hlen
    · have hle : (trimStart s).length ≤ s.length := (List.dropWhile_sublist isWhitespace).length_le
      have hle' := hshort (trimStart s)
      rw [hcut, List.length_append, List.length_singleton] at hlen
      omega

end Text

namespace Utf8

/-- `str::from_utf8` -/
def fromUtf8 (bs : Bytes) : Option Text :=
  if encode (decodeLossy bs) = bs then some (decodeLossy bs) else none

@[simp] theorem fromUtf8_encode (t : Text) : fromUtf8 (encode t) = some t := by
  simp [fromUtf8, decodeLossy_encode]

theorem encode_of_fromUtf8 {bs : Bytes} {t : Text} (h : fromUtf8 bs = some t) : encode t = bs := by
  unfold fromUtf8 at h
  split at h
  · next heq => cases h; exact heq
  · cases h

theorem encode_ne_nil {t : Text} (h : t ≠ []) : encode t ≠ [] := by
  cases t with
  | nil => exact absurd rfl h
  | cons c t =>
    intro hnil
    have hpos := encodeChar_length_pos c
    have hchar : encodeChar c = [] := (List.append_eq_nil_iff.mp hnil).1
    rw [hchar] at hpos
    exact absurd hpos (Nat.lt_irrefl 0)

/-- The first character is read from the first bytes, whatever follows. -/
theorem head_eq_of_prefix {c d : Char} {s t : Text} (h : encode (c :: s) <+: encode (d :: t)) :
    c = d := by
  obtain ⟨rest, hrest⟩ := h
  have hc : encodeChar c ++ (encode s ++ rest) = encodeChar d ++ encode t := by
    rw [← List.append_assoc]
    exact hrest
  have hdc := decodeLossy_encode_append [c] (encode s ++ rest)
  have hdd := decodeLossy_encode_append [d] (encode t)
  have hsing : ∀ x : Char, encode [x] = encodeChar x := fun x => List.append_nil _
  rw [hsing] at hdc hdd
  rw [hc, hdd] at hdc
  exact (List.cons.inj hdc).1.symm

theorem lineFeed_of_mem {t : Text} (h : (10 : UInt8) ∈ encode t) : '\n' ∈ t := by
  have hmem := mem_decodeLossy_of_isAscii (b := 10) (by decide) h
  rw [decodeLossy_encode] at hmem
  exact hmem

/-- A character whose last byte is a carriage return is one. -/
theorem last_encodeChar {c : Char} (h : (encodeChar c).getLast? = some 13) : c = '\r' := by
  have hmem : (13 : UInt8) ∈ encode [c] := by
    have hc : encode [c] = encodeChar c := List.append_nil _
    rw [hc]
    exact List.mem_of_getLast? h
  have hdec := mem_decodeLossy_of_isAscii (b := 13) (by decide) hmem
  rw [decodeLossy_encode] at hdec
  exact (List.mem_singleton.mp hdec).symm

end Utf8

namespace LineCodec

variable {α : Type} (J : LineCodec α)

/-- The bytes of a printed line. -/
def bytes (a : α) : Bytes := Utf8.encode (J.print a)

theorem bytes_ne_nil (a : α) : J.bytes a ≠ [] := Utf8.encode_ne_nil (J.notBlank a)

/-- A printed line is a line. -/
theorem print_isLine (a : α) : Lines.IsLine '\n' '\r' (J.print a) := by
  refine ⟨J.oneLine a, fun h => ?_⟩
  have htrim := J.trimmed a
  rcases List.eq_nil_or_concat (J.print a) with hnil | ⟨s, c, hs⟩
  · exact J.notBlank a hnil
  · rw [List.concat_eq_append] at hs
    rw [hs] at htrim h
    rw [List.getLast?_concat, Option.some.injEq] at h
    have hc := Text.last_of_trim htrim
    rw [h] at hc
    exact absurd hc (by decide)

/-- The bytes of a printed line are a line. -/
theorem bytes_isLine (a : α) : Lines.IsLine 10 13 (J.bytes a) := by
  refine ⟨fun h => J.oneLine a (Utf8.lineFeed_of_mem h), fun h => ?_⟩
  have htrim := J.trimmed a
  rcases List.eq_nil_or_concat (J.print a) with hnil | ⟨s, c, hs⟩
  · exact J.notBlank a hnil
  · rw [List.concat_eq_append] at hs
    rw [hs] at htrim
    have hc := Text.last_of_trim htrim
    have hlast : J.bytes a = Utf8.encode s ++ Utf8.encodeChar c := by
      rw [bytes, hs, Utf8.encode_append]
      exact congrArg (Utf8.encode s ++ ·) (List.append_nil _)
    rw [hlast, List.getLast?_append] at h
    have hne : (Utf8.encodeChar c).getLast? ≠ none := by
      rw [ne_eq, List.getLast?_eq_none_iff]
      intro hnil
      have hpos := Utf8.encodeChar_length_pos c
      rw [hnil] at hpos
      exact absurd hpos (Nat.lt_irrefl 0)
    obtain ⟨b, hb⟩ := Option.ne_none_iff_exists'.mp hne
    rw [hb, Option.some_or, ← hb] at h
    rw [Utf8.last_encodeChar h] at hc
    exact absurd hc (by decide)

/-- The beginning of a printed line is not blank, if it is text at all. -/
theorem notBlank_of_prefix {a : α} {bs : Bytes} {t : Text} (hpre : bs <+: J.bytes a)
    (hne : bs ≠ []) (ht : Utf8.fromUtf8 bs = some t) : Text.trim t ≠ [] := by
  have henc : Utf8.encode t = bs := Utf8.encode_of_fromUtf8 ht
  cases t with
  | nil => exact absurd henc.symm hne
  | cons c s =>
    cases hp : J.print a with
    | nil => exact absurd hp (J.notBlank a)
    | cons d s' =>
      have htrim := J.trimmed a
      rw [hp] at htrim
      rw [← henc, bytes, hp] at hpre
      rw [Utf8.head_eq_of_prefix hpre]
      exact Text.trim_cons_ne_nil (Text.head_of_trim htrim) s

/-! ## Codecs to run a model with -/

/-- Characters by their numbers. -/
instance encodableChar : Encodable Char := Encodable.ofLeftInverse Char.toNat Char.ofNat Char.ofNat_toNat

/-- Everything encodable prints as a line of strokes. -/
def strokes (α : Type) [Encodable α] : LineCodec α where
  print a := List.replicate (Encodable.encode a + 1) '|'
  parse t := Encodable.decode (t.length - 1)
  parse_print a := by simp
  oneLine a h := by
    have hc := List.eq_of_mem_replicate h
    revert hc
    decide
  trimmed a := by
    refine Text.trim_of_noWhitespace fun c hc => ?_
    rw [List.eq_of_mem_replicate hc]
    rfl
  notBlank a := by simp

/-- The same codec, but that the samples are printed as given. -/
def withSamples [DecidableEq α] (J : LineCodec α) (printed : α → Text) (samples : List α)
    (hinj : ∀ a ∈ samples, ∀ b ∈ samples, printed a = printed b → a = b)
    (hnew : ∀ a ∈ samples, ∀ b, J.print b ≠ printed a) (hline : ∀ a ∈ samples, '\n' ∉ printed a)
    (htrim : ∀ a ∈ samples, Text.trim (printed a) = printed a) (hne : ∀ a ∈ samples, printed a ≠ []) :
    LineCodec α where
  print a := if a ∈ samples then printed a else J.print a
  parse t := (samples.find? fun a => printed a = t).or (J.parse t)
  parse_print a := by
    by_cases h : a ∈ samples
    · rw [if_pos h]
      cases hfind : samples.find? fun b => printed b = printed a with
      | none => exact absurd (decide_eq_true rfl) (List.find?_eq_none.mp hfind a h)
      | some b =>
        have heq : printed b = printed a := by simpa using List.find?_some hfind
        rw [hinj b (List.mem_of_find?_eq_some hfind) a h heq, Option.some_or]
    · have hfind : samples.find? (fun b => printed b = J.print a) = none := by
        refine List.find?_eq_none.mpr fun b hb heq => ?_
        exact hnew b hb a (of_decide_eq_true heq).symm
      rw [if_neg h, hfind, Option.none_or, J.parse_print]
  oneLine a := by
    split
    · next h => exact hline a h
    · exact J.oneLine a
  trimmed a := by
    split
    · next h => exact htrim a h
    · exact J.trimmed a
  notBlank a := by
    split
    · next h => exact hne a h
    · exact J.notBlank a

/-- A line of strokes is nothing else. -/
theorem strokes_ne [Encodable α] {t : Text} {c : Char} (hc : c ∈ t) (hne : c ≠ '|') (a : α) :
    (strokes α).print a ≠ t := by
  intro h
  rw [← h] at hc
  exact hne (List.eq_of_mem_replicate hc)

end LineCodec
