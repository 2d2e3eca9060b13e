import Mathlib

/-!
# Points for whole intervals

A meter below its limit gets a point for each whole interval since its stamp. A poll that gives
points moves the stamp to the time of the poll, and so cuts off what has passed of the next interval;
a poll that gives none leaves the stamp. Polling more often gives as much as polling once exactly
when less than an interval is lost that way, or when the limit is reached all the same.
-/

namespace Refill

structure Meter where
  value : Int
  stamp : Nat
deriving DecidableEq, Repr

/-- At the limit, only the stamp moves. -/
def poll (every : Nat) (limit : Int) (m : Meter) (now : Nat) : Meter :=
  if 0 < limit ∧ m.value < limit then
    if 0 < (now - m.stamp) / every then
      ⟨min (m.value + ((now - m.stamp) / every : Nat)) limit, now⟩
    else m
  else { m with stamp := now }

/-- The points that the polls at `ts` and then at `t` give while there is room for them. -/
def granted (every t : Nat) : Nat → List Nat → Nat
  | stamp, [] => (t - stamp) / every
  | stamp, now :: ts =>
    if 0 < (now - stamp) / every then (now - stamp) / every + granted every t now ts
    else granted every t stamp ts

/-- The time up to `t` for which they give none. -/
def cutOff (every t : Nat) : Nat → List Nat → Nat
  | stamp, [] => (t - stamp) % every
  | stamp, now :: ts =>
    if 0 < (now - stamp) / every then (now - stamp) % every + cutOff every t now ts
    else cutOff every t stamp ts

/-- The meter is not below its limit; or less than an interval is lost; or it reaches the limit. -/
def Uncut (every : Nat) (limit : Int) (m : Meter) (ts : List Nat) (t : Nat) : Prop :=
  0 < limit → m.value < limit → cutOff every t m.stamp ts < every
    ∨ limit ≤ m.value + ((t - m.stamp - cutOff every t m.stamp ts) / every : Nat)

instance (every : Nat) (limit : Int) (m : Meter) (ts : List Nat) (t : Nat) :
    Decidable (Uncut every limit m ts t) :=
  inferInstanceAs (Decidable (_ → _ → _ ∨ _))

variable {every t stamp : Nat} {ts : List Nat} {limit : Int} {m : Meter}

theorem stamp_lt_of_grant {now : Nat} (h : 0 < (now - stamp) / every) : stamp < now := by
  by_contra hle
  rw [Nat.sub_eq_zero_of_le (Nat.not_lt.mp hle), Nat.zero_div] at h
  exact Nat.lt_irrefl 0 h

/-- Whatever gives no points is cut off. -/
theorem granted_add_cutOff (hle : stamp ≤ t) (hts : ∀ now ∈ ts, now ≤ t) :
    every * granted every t stamp ts + cutOff every t stamp ts = t - stamp := by
  induction ts generalizing stamp with
  | nil => exact Nat.div_add_mod _ _
  | cons now ts ih =>
    have hrest := fun n hn => hts n (List.mem_cons_of_mem _ hn)
    simp only [granted, cutOff]
    split
    · next hgrant =>
      have hstamp : stamp < now := stamp_lt_of_grant hgrant
      have hnow : now ≤ t := hts now List.mem_cons_self
      have hmore := ih hnow hrest
      have hthis := Nat.div_add_mod (now - stamp) every
      rw [Nat.mul_add]
      omega
    · exact ih hle hrest

/-- A stamp in the future gives nothing and cuts off nothing. -/
theorem granted_of_lt (hlt : t < stamp) (hts : ∀ now ∈ ts, now ≤ t) :
    granted every t stamp ts = 0 ∧ cutOff every t stamp ts = 0 := by
  induction ts with
  | nil => simp [granted, cutOff, Nat.sub_eq_zero_of_le (Nat.le_of_lt hlt)]
  | cons now ts ih =>
    have hnone : ¬ 0 < (now - stamp) / every := by
      intro hgrant
      have hstamp := stamp_lt_of_grant hgrant
      have hnow := hts now List.mem_cons_self
      omega
    simp only [granted, cutOff, if_neg hnone]
    exact ih fun n hn => hts n (List.mem_cons_of_mem _ hn)

theorem granted_eq (hevery : 0 < every) (hts : ∀ now ∈ ts, now ≤ t) :
    granted every t stamp ts = (t - stamp - cutOff every t stamp ts) / every := by
  rcases Nat.lt_or_ge t stamp with hlt | hle
  · have hnone : granted every t stamp ts = 0 ∧ cutOff every t stamp ts = 0 := granted_of_lt hlt hts
    rw [hnone.1, hnone.2, Nat.sub_eq_zero_of_le (Nat.le_of_lt hlt), Nat.sub_zero, Nat.zero_div]
  · rw [← granted_add_cutOff hle hts, Nat.add_sub_cancel, Nat.mul_div_cancel_left _ hevery]

/-- More polls never give more. -/
theorem granted_le (hevery : 0 < every) (hts : ∀ now ∈ ts, now ≤ t) :
    granted every t stamp ts ≤ (t - stamp) / every := by
  rw [granted_eq hevery hts]
  exact Nat.div_le_div_right (Nat.sub_le _ _)

theorem granted_eq_iff (hevery : 0 < every) (hts : ∀ now ∈ ts, now ≤ t) :
    granted every t stamp ts = (t - stamp) / every ↔ cutOff every t stamp ts < every := by
  rcases Nat.lt_or_ge t stamp with hlt | hle
  · have hnone : granted every t stamp ts = 0 ∧ cutOff every t stamp ts = 0 := granted_of_lt hlt hts
    simp [hnone.1, hnone.2, hevery, Nat.sub_eq_zero_of_le (Nat.le_of_lt hlt)]
  · have hsum : every * granted every t stamp ts + cutOff every t stamp ts = t - stamp :=
      granted_add_cutOff hle hts
    rw [← hsum, Nat.mul_add_div hevery]
    have hzero : cutOff every t stamp ts / every = 0 ↔ cutOff every t stamp ts < every :=
      Nat.div_eq_zero_iff_lt hevery
    omega

theorem poll_full (h : ¬ (0 < limit ∧ m.value < limit)) (now : Nat) :
    (poll every limit m now).value = m.value := by
  rw [poll, if_neg h]

theorem polls_full (h : ¬ (0 < limit ∧ m.value < limit)) (ts : List Nat) :
    (ts.foldl (poll every limit) m).value = m.value := by
  induction ts generalizing m with
  | nil => rfl
  | cons now ts ih =>
    have hsame : (poll every limit m now).value = m.value := poll_full h now
    rw [List.foldl_cons, ih (by rwa [hsame]), hsame]

/-- **What polls give**, up to the limit. -/
theorem polls_value (hlimit : 0 < limit) (hlow : m.value < limit) :
    (poll every limit (ts.foldl (poll every limit) m) t).value
      = min (m.value + granted every t m.stamp ts) limit := by
  have hpoll : ∀ now, poll every limit m now = if 0 < (now - m.stamp) / every then
      ⟨min (m.value + ((now - m.stamp) / every : Nat)) limit, now⟩ else m :=
    fun now => if_pos ⟨hlimit, hlow⟩
  induction ts generalizing m with
  | nil =>
    rw [List.foldl_nil, hpoll, granted]
    split
    · rfl
    · next hnone =>
      generalize (t - m.stamp) / every = n at hnone ⊢
      omega
  | cons now ts ih =>
    rw [List.foldl_cons, hpoll, granted]
    split
    · next hgrant =>
      by_cases hroom : m.value + ((now - m.stamp) / every : Nat) < limit
      · have hbelow : min (m.value + ((now - m.stamp) / every : Nat)) limit
            = m.value + ((now - m.stamp) / every : Nat) := by omega
        rw [hbelow, ih hroom fun _ => if_pos ⟨hlimit, hroom⟩]
        dsimp only
        omega
      · have hfull : min (m.value + ((now - m.stamp) / every : Nat)) limit = limit := by omega
        have hstop : ¬ (0 < limit ∧ limit < limit) := fun h => Int.lt_irrefl _ h.2
        rw [hfull, poll_full (by rw [polls_full hstop]; exact hstop), polls_full hstop]
        dsimp only
        omega
    · exact ih hlow hpoll

/-- **When polling more often changes nothing.** -/
theorem polls_eq_once_iff (hevery : 0 < every) (hts : ∀ now ∈ ts, now ≤ t) :
    (poll every limit (ts.foldl (poll every limit) m) t).value = (poll every limit m t).value
      ↔ Uncut every limit m ts t := by
  by_cases hlow : 0 < limit ∧ m.value < limit
  · have honce : (poll every limit m t).value = min (m.value + ((t - m.stamp) / every : Nat)) limit :=
      @polls_value every t [] limit m hlow.1 hlow.2
    have hle : granted every t m.stamp ts ≤ (t - m.stamp) / every := granted_le hevery hts
    have hiff : granted every t m.stamp ts = (t - m.stamp) / every ↔ cutOff every t m.stamp ts < every :=
      granted_eq_iff hevery hts
    rw [polls_value hlow.1 hlow.2, honce, Uncut, ← granted_eq hevery hts, ← hiff]
    constructor
    · intro heq _ _
      by_cases hreach : limit ≤ m.value + (granted every t m.stamp ts : Nat)
      · exact .inr hreach
      · left
        omega
    · intro h
      rcases h hlow.1 hlow.2 with heq | hreach
      · rw [heq]
      · omega
  · have hkept : (ts.foldl (poll every limit) m).value = m.value := polls_full hlow ts
    rw [poll_full (by rwa [hkept]), hkept, poll_full hlow]
    exact ⟨fun _ hpos hless => absurd ⟨hpos, hless⟩ hlow, fun _ => rfl⟩

end Refill
