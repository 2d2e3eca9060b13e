import Slopmud.Shard.Link
import Slopmud.Slopio.Reader

/-!
# Frames arrive as they were written

The decoder of frames gives an answer that what follows does not change, so the cuts of the stream
and the calls that are given up do not matter. What is left is the whole stream: frames that were
written read back one by one, and nothing but whole frames ends without an error.
-/

namespace Slopmud.Slopio

open Incremental

variable {maxFrameLen : Nat}

theorem frameReader_stable (maxFrameLen : Nat) : Decoder.Stable (frameReader maxFrameLen) where
  item {p q payload rest} h := by
    obtain ⟨hhead, hmax, hlen, rfl, rfl⟩ := takeFrame_item h
    have htake : (p ++ q).take 4 = p.take 4 := List.take_append_of_le_length hhead
    show takeFrame maxFrameLen (p ++ q) = _
    unfold takeFrame
    rw [if_pos (by rw [List.length_append]; omega)]
    dsimp only
    rw [htake, if_neg (Nat.not_lt.mpr hmax), if_pos (by rw [List.length_append]; omega),
      List.drop_append_of_le_length hhead, List.drop_append_of_le_length hlen,
      List.take_append_of_le_length (by rw [List.length_drop]; omega)]
  error {p q e} h := by
    change takeFrame maxFrameLen p = _ at h
    show takeFrame maxFrameLen (p ++ q) = _
    unfold takeFrame at h ⊢
    split at h
    · next hhead =>
      have htake : (p ++ q).take 4 = p.take 4 := List.take_append_of_le_length hhead
      rw [if_pos (by rw [List.length_append]; omega)]
      dsimp only at h ⊢
      split at h
      · next hlarge => rw [htake, if_pos hlarge, h]
      · split at h <;> cases h
    · cases h

/-- The bytes of a frame. -/
def frame (payload : Bytes) : Bytes := Wire.toBe 4 payload.length ++ payload

theorem frame_length (payload : Bytes) : (frame payload).length = 4 + payload.length := by
  rw [frame, List.length_append, Wire.toBe_length]

theorem flatten_filter_nonempty (parts : List Bytes) :
    (parts.filter fun p => !p.isEmpty).flatten = parts.flatten := by
  induction parts with
  | nil => rfl
  | cons p parts ih => cases p <;> simp [ih]

/-- **A written frame**: the parts one after the other, behind their common length. -/
theorem writeFrameParts_ok {parts : List Bytes} (h : (parts.map List.length).sum < 2 ^ 32) :
    ∃ written, writeFrameParts parts = .ok written ∧ written.flatten = frame parts.flatten := by
  refine ⟨_, if_pos h, ?_⟩
  rw [List.flatten_cons, flatten_filter_nonempty, frame, List.length_flatten]

/-- A frame at the front of the buffer is taken whole. -/
theorem takeFrame_frame {payload : Bytes} (hmax : payload.length ≤ maxFrameLen)
    (hfit : payload.length < 2 ^ 32) (rest : Bytes) :
    takeFrame maxFrameLen (frame payload ++ rest) = .item payload rest := by
  have hhead : (Wire.toBe 4 payload.length).length = 4 := Wire.toBe_length 4 _
  have htake : (frame payload ++ rest).take 4 = Wire.toBe 4 payload.length := by
    rw [frame, List.append_assoc]
    exact List.take_left' hhead
  have hdrop : (frame payload ++ rest).drop 4 = payload ++ rest := by
    rw [frame, List.append_assoc]
    exact List.drop_left' hhead
  have hlen : Wire.ofBe (Wire.toBe 4 payload.length) = payload.length := Wire.ofBe_toBe hfit
  have hall : (frame payload ++ rest).length = 4 + payload.length + rest.length := by
    rw [List.length_append, frame_length]
  unfold takeFrame
  rw [if_pos (by omega)]
  dsimp only
  rw [htake, hlen, if_neg (Nat.not_lt.mpr hmax), if_pos (by omega), ← List.drop_drop, hdrop,
    List.take_left, List.drop_left]

/-- A frame that is taken was one. -/
theorem takeFrame_inv {buf payload rest : Bytes} (h : takeFrame maxFrameLen buf = .item payload rest) :
    payload.length ≤ maxFrameLen ∧ payload.length < 2 ^ 32 ∧ buf = frame payload ++ rest := by
  obtain ⟨hhead, hmax, hlen, rfl, rfl⟩ := takeFrame_item h
  have hfour : (buf.take 4).length = 4 := by rw [List.length_take]; omega
  have hpay : ((buf.drop 4).take (Wire.ofBe (buf.take 4))).length = Wire.ofBe (buf.take 4) := by
    rw [List.length_take, List.length_drop]
    omega
  have hprefix : Wire.toBe 4 (Wire.ofBe (buf.take 4)) = buf.take 4 := by
    have htoBe := Wire.toBe_ofBe (buf.take 4)
    rwa [hfour] at htoBe
  have hfit := Wire.ofBe_lt (buf.take 4)
  rw [hfour] at hfit
  refine ⟨by rw [hpay]; exact hmax, by rw [hpay]; exact hfit, ?_⟩
  rw [frame, hpay, hprefix, List.append_assoc, ← List.drop_drop, List.take_append_drop,
    List.take_append_drop]

/-! ## The whole stream -/

/-- Written frames read back, up to the end of the stream. -/
theorem results_frames {payloads : List Bytes}
    (h : ∀ p ∈ payloads, p.length ≤ maxFrameLen ∧ p.length < 2 ^ 32) :
    (frameReader maxFrameLen).results (payloads.flatMap frame) []
      = payloads.map .item ++ [.done] := by
  induction payloads with
  | nil => exact Decoder.results_end rfl
  | cons p payloads ih =>
    have hp := h p List.mem_cons_self
    rw [List.flatMap_cons, Decoder.results_item (takeFrame_frame hp.1 hp.2 _),
      ih fun p' hp' => h p' (List.mem_cons_of_mem _ hp')]
    rfl

/-- **What any stream reads as**: the payloads of frames, and then the end, if that is all there
is, or an error. -/
theorem results_spec (maxFrameLen : Nat) (s : Bytes) : ∃ (payloads : List Bytes) (last : Returned Bytes IoError),
    (frameReader maxFrameLen).results s [] = payloads.map .item ++ [last]
      ∧ (∀ p ∈ payloads, p.length ≤ maxFrameLen ∧ p.length < 2 ^ 32)
      ∧ (last = .done ∧ s = payloads.flatMap frame ∨ ∃ e, last = .error e) := by
  induction hn : s.length using Nat.strongRecOn generalizing s with
  | ind n ih =>
    cases hs : (frameReader maxFrameLen).decode s with
    | more =>
      refine ⟨[], _, Decoder.results_end hs, by simp, ?_⟩
      cases hempty : s.isEmpty with
      | true => exact .inl ⟨rfl, List.isEmpty_iff.mp hempty⟩
      | false => exact .inr ⟨_, rfl⟩
    | error e => exact ⟨[], .error e, Decoder.results_error hs _, by simp, .inr ⟨e, rfl⟩⟩
    | item p rest =>
      obtain ⟨hmax, hfit, rfl⟩ := takeFrame_inv hs
      obtain ⟨payloads, last, hres, hsmall, hlast⟩ :=
        ih rest.length (hn ▸ (frameReader maxFrameLen).shrinks hs) rest rfl
      refine ⟨p :: payloads, last, by rw [Decoder.results_item hs, hres]; rfl, ?_, ?_⟩
      · exact List.forall_mem_cons.mpr ⟨⟨hmax, hfit⟩, hsmall⟩
      · rcases hlast with ⟨hdone, rfl⟩ | herr
        · exact .inl ⟨hdone, rfl⟩
        · exact .inr herr

/-- The stream is whole frames that the reader takes. -/
def Framed (maxFrameLen : Nat) (s : Bytes) : Prop :=
  ∃ payloads : List Bytes, (∀ p ∈ payloads, p.length ≤ maxFrameLen ∧ p.length < 2 ^ 32)
    ∧ s = payloads.flatMap frame

/-- Several frames are written one after the other. -/
theorem mapM_writeFrameParts {payloads : List (List Bytes)}
    (h : ∀ parts ∈ payloads, (parts.map List.length).sum < 2 ^ 32) :
    ∃ written, payloads.mapM writeFrameParts = .ok written
      ∧ written.flatten.flatten = (payloads.map List.flatten).flatMap frame := by
  induction payloads with
  | nil => exact ⟨[], rfl, rfl⟩
  | cons parts payloads ih =>
    obtain ⟨w, hw, hbytes⟩ := writeFrameParts_ok (h parts List.mem_cons_self)
    obtain ⟨ws, hws, hrest⟩ := ih fun p hp => h p (List.mem_cons_of_mem _ hp)
    refine ⟨w :: ws, ?_, ?_⟩
    · rw [List.mapM_cons, hw, hws]
      rfl
    · rw [List.flatten_cons, List.flatten_append, hbytes, hrest, List.map_cons, List.flatMap_cons]

theorem results_eq_whole (maxFrameLen : Nat) (as : List (Arrival UInt8)) :
    (frameReader maxFrameLen).results [] as = (frameReader maxFrameLen).results (bytes as) [] :=
  ((frameReader_stable maxFrameLen).steady (bytes as)).results_eq rfl

/-- The broker link of the shard takes its frames the same way. -/
theorem takeFrame_link (buf : Bytes) : takeFrame Shard.maxFrameLen buf =
    match Shard.takeFrame buf with
    | .more => .more
    | .tooLarge => .error frameTooLarge
    | .frame payload rest => .item payload rest := by
  unfold takeFrame Shard.takeFrame
  by_cases hhead : 4 ≤ buf.length
  · rw [if_pos hhead, if_neg (Nat.not_lt.mpr hhead)]
    dsimp only
    by_cases hlarge : Shard.maxFrameLen < Wire.ofBe (buf.take 4)
    · rw [if_pos hlarge, if_pos hlarge]
    · rw [if_neg hlarge, if_neg hlarge]
      by_cases hlen : 4 + Wire.ofBe (buf.take 4) ≤ buf.length
      · rw [if_pos hlen, if_neg (Nat.not_lt.mpr hlen)]
      · rw [if_neg hlen, if_pos (Nat.not_le.mp hlen)]
  · rw [if_neg hhead, if_pos (Nat.not_le.mp hhead)]

/-- **Framing is transparent**: what was written is what is read, however it arrives, and no stream
but one of whole frames ends without an error. -/
theorem framing_transparent (maxFrameLen : Nat) :
    (∀ payloads : List (List Bytes),
      (∀ parts ∈ payloads, (parts.map List.length).sum ≤ maxFrameLen
        ∧ (parts.map List.length).sum < 2 ^ 32) →
      ∃ written, payloads.mapM writeFrameParts = .ok written
        ∧ ∀ as : List (Arrival UInt8), bytes as = written.flatten.flatten →
          (frameReader maxFrameLen).results [] as
            = (payloads.map fun parts => .item parts.flatten) ++ [.done])
      ∧ ∀ as : List (Arrival UInt8), ∃ (payloads : List Bytes) (last : Returned Bytes IoError),
        (frameReader maxFrameLen).results [] as = payloads.map .item ++ [last]
          ∧ (∀ p ∈ payloads, p.length ≤ maxFrameLen)
          ∧ (Framed maxFrameLen (bytes as) → last = .done ∧ bytes as = payloads.flatMap frame)
          ∧ (¬ Framed maxFrameLen (bytes as) → ∃ e, last = .error e) := by
  constructor
  · intro payloads hpayloads
    obtain ⟨written, hwritten, hframes⟩ := mapM_writeFrameParts fun parts hp => (hpayloads parts hp).2
    refine ⟨written, hwritten, fun as hbytes => ?_⟩
    have hsmall : ∀ p ∈ payloads.map List.flatten, p.length ≤ maxFrameLen ∧ p.length < 2 ^ 32 := by
      intro p hp
      obtain ⟨parts, hparts, rfl⟩ := List.mem_map.mp hp
      rw [List.length_flatten]
      exact hpayloads parts hparts
    rw [results_eq_whole, hbytes, hframes, results_frames hsmall, List.map_map]
    rfl
  · intro as
    obtain ⟨payloads, last, hres, hsmall, hlast⟩ := results_spec maxFrameLen (bytes as)
    refine ⟨payloads, last, (results_eq_whole maxFrameLen as).trans hres, fun p hp => (hsmall p hp).1,
      ?_, fun hnot => ?_⟩
    · rintro ⟨payloads', hsmall', hs⟩
      -- the stream of these frames ends well, and reads in one way only
      have hres' := results_frames hsmall'
      rw [← hs, hres] at hres'
      have hsame := List.append_inj' hres' rfl
      have hpay : payloads = payloads' :=
        List.map_injective_iff.mpr (fun _ _ h => Returned.item.inj h) hsame.1
      exact ⟨List.singleton_inj.mp hsame.2, hpay ▸ hs⟩
    · rcases hlast with ⟨-, hs⟩ | herr
      · exact absurd ⟨payloads, hsmall, hs⟩ hnot
      · exact herr

/-- Two frames, one of them empty, in reads that cut a length and a payload, with a call given up
in between. -/
theorem framing_transparent_hello :
    (frameReader 64).results []
        [.data 0 [0], .abandoned, .data 0 [5, 104, 101], .data 108 [108, 111, 0, 0, 0, 0]]
      = [.item [104, 101, 108, 108, 111], .item [], .done] := by
  obtain ⟨written, hwritten, hreads⟩ :=
    (framing_transparent 64).1 [[[104, 101], [], [108, 108, 111]], []] (by decide)
  cases hwritten
  exact hreads _ (by decide)

end Slopmud.Slopio
