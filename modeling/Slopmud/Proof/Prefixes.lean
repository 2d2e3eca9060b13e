import Slopmud.Broker.Bans
import Slopmud.Lib.PrefixMask

/-!
# Prefixes as sets of addresses

A prefix that `IpPrefix::new` built has no host bits, so it is the set of the addresses that mask
to it. The comparisons of prefixes are those of the sets: a longer prefix has fewer addresses, and
two prefixes with the same addresses are the same.
-/

namespace Slopmud.Sbc

/-! ## Prefixes and addresses -/

theorem v4Mask_eq (n : Nat) : v4Mask n = PrefixMask.mask 32 n := by
  unfold v4Mask
  split
  · next h => rw [h, PrefixMask.mask_zero]
  · rfl

theorem v6Mask_eq (n : Nat) : v6Mask n = PrefixMask.mask 128 n := by
  unfold v6Mask
  split
  · next h => rw [h, PrefixMask.mask_zero]
  · rfl

namespace IpPrefix

/-- `contains_ip` as agreement on the leading bits, within one address family. -/
theorem containsIp_iff {p : IpPrefix} {ip : IpAddr} : p.containsIp ip = true ↔
    (∃ a b, p.addr = .v4 a ∧ ip = .v4 b ∧ PrefixMask.Agree p.prefixLen a b)
    ∨ ∃ a b, p.addr = .v6 a ∧ ip = .v6 b ∧ PrefixMask.Agree p.prefixLen a b := by
  obtain ⟨addr, n⟩ := p
  cases addr <;> cases ip <;> simp [containsIp, PrefixMask.Agree, v4Mask_eq, v6Mask_eq]

theorem containsIp_self (p : IpPrefix) : p.containsIp p.addr = true := by
  obtain ⟨addr, n⟩ := p
  cases addr <;> simp [containsIp]

/-- Of two prefixes with an address in common the longer one lies in the shorter one. -/
theorem containsIp_addr {p q : IpPrefix} {ip : IpAddr} (hlen : p.prefixLen ≤ q.prefixLen)
    (hp : p.containsIp ip = true) (hq : q.containsIp ip = true) : p.containsIp q.addr = true := by
  rw [containsIp_iff] at hp hq ⊢
  rcases hp with ⟨a, b, ha, rfl, hab⟩ | ⟨a, b, ha, rfl, hab⟩
  · rcases hq with ⟨c, d, hc, hd, hcd⟩ | ⟨c, d, hc, hd, hcd⟩
    · cases hd
      exact Or.inl ⟨a, c, ha, hc, hab.trans (hcd.shorten hlen).symm⟩
    · cases hd
  · rcases hq with ⟨c, d, hc, hd, hcd⟩ | ⟨c, d, hc, hd, hcd⟩
    · cases hd
    · cases hd
      exact Or.inr ⟨a, c, ha, hc, hab.trans (hcd.shorten hlen).symm⟩

theorem isV4_of_containsIp {p : IpPrefix} {ip : IpAddr} (h : p.containsIp ip = true) :
    p.addr.isV4 = ip.isV4 := by
  rcases containsIp_iff.mp h with ⟨a, b, ha, rfl, -⟩ | ⟨a, b, ha, rfl, -⟩ <;> rw [ha] <;> rfl

theorem containsPrefix_of_containsIp {p q : IpPrefix} (hlen : p.prefixLen ≤ q.prefixLen)
    (h : p.containsIp q.addr = true) : p.containsPrefix q = true := by
  simp [containsPrefix, isV4_of_containsIp h, Nat.not_lt.mpr hlen, h]

end IpPrefix

/-! ## Prefixes without host bits -/

namespace IpPrefix

variable {p q : IpPrefix}

/-- What `IpPrefix::new` returns. -/
def Masked (p : IpPrefix) : Prop := IpPrefix.new p.addr p.prefixLen = some p

theorem masked_of_new {ip : IpAddr} {n : Nat} (h : IpPrefix.new ip n = some p) : p.Masked :=
  (Broker.new_of_new h).2

theorem Masked.v4 {a : BitVec 32} {n : Nat} (h : Masked ⟨.v4 a, n⟩) : ¬ n > 32 ∧ a &&& v4Mask n = a := by
  simpa only [Masked, IpPrefix.new, Option.ite_none_left_eq_some, Option.some.injEq, mk.injEq,
    IpAddr.v4.injEq, and_true] using h

theorem Masked.v6 {a : BitVec 128} {n : Nat} (h : Masked ⟨.v6 a, n⟩) : ¬ n > 128 ∧ a &&& v6Mask n = a := by
  simpa only [Masked, IpPrefix.new, Option.ite_none_left_eq_some, Option.some.injEq, mk.injEq,
    IpAddr.v6.injEq, and_true] using h

/-- **An address is in a prefix if it masks to it.** -/
theorem Masked.containsIp_iff_new (h : p.Masked) (ip : IpAddr) :
    p.containsIp ip = true ↔ IpPrefix.new ip p.prefixLen = some p := by
  obtain ⟨addr, n⟩ := p
  cases addr with
  | v4 a =>
    obtain ⟨hn, ha⟩ := h.v4
    cases ip with
    | v4 b =>
      simp only [IpPrefix.new, if_neg hn, Option.some.injEq, mk.injEq, IpAddr.v4.injEq, and_true]
      show (a &&& v4Mask n == b &&& v4Mask n) = true ↔ _
      rw [beq_iff_eq, ha, eq_comm]
    | v6 b => simp [containsIp, IpPrefix.new]
  | v6 a =>
    obtain ⟨hn, ha⟩ := h.v6
    cases ip with
    | v4 b => simp [containsIp, IpPrefix.new]
    | v6 b =>
      simp only [IpPrefix.new, if_neg hn, Option.some.injEq, mk.injEq, IpAddr.v6.injEq, and_true]
      show (a &&& v6Mask n == b &&& v6Mask n) = true ↔ _
      rw [beq_iff_eq, ha, eq_comm]

/-- A prefix has all the addresses of a longer one whose first address it has. -/
theorem containsIp_of_addr {ip : IpAddr} (hlen : p.prefixLen ≤ q.prefixLen)
    (hp : p.containsIp q.addr = true) (hq : q.containsIp ip = true) : p.containsIp ip = true := by
  rw [containsIp_iff] at hp hq ⊢
  rcases hp with ⟨a, b, ha, hb, hab⟩ | ⟨a, b, ha, hb, hab⟩
  · rcases hq with ⟨c, d, hc, rfl, hcd⟩ | ⟨c, d, hc, rfl, hcd⟩
    · cases hb.symm.trans hc
      exact Or.inl ⟨a, d, ha, rfl, hab.trans (hcd.shorten hlen)⟩
    · cases hb.symm.trans hc
  · rcases hq with ⟨c, d, hc, rfl, hcd⟩ | ⟨c, d, hc, rfl, hcd⟩
    · cases hb.symm.trans hc
    · cases hb.symm.trans hc
      exact Or.inr ⟨a, d, ha, rfl, hab.trans (hcd.shorten hlen)⟩

/-- A longer prefix lacks an address of a shorter one. -/
theorem Masked.exists_not_containsIp (h : p.Masked) (hlen : q.prefixLen < p.prefixLen)
    (hp : p.containsIp q.addr = true) : ∃ ip, q.containsIp ip = true ∧ p.containsIp ip = false := by
  obtain ⟨addr, n⟩ := p
  obtain ⟨addr', n'⟩ := q
  rcases containsIp_iff.mp hp with ⟨a, b, rfl, rfl, hab⟩ | ⟨a, b, rfl, rfl, hab⟩
  · obtain ⟨c, hagree, hnot⟩ := PrefixMask.exists_agree_not_agree hlen (Nat.not_lt.mp h.v4.1) b
    refine ⟨.v4 c, containsIp_iff.mpr (.inl ⟨b, c, rfl, rfl, hagree⟩), Bool.eq_false_iff.mpr fun hc => ?_⟩
    rcases containsIp_iff.mp hc with ⟨x, y, hx, hy, hxy⟩ | ⟨x, y, hx, hy, hxy⟩
    · cases hx
      cases hy
      exact hnot (hab.symm.trans hxy)
    · cases hy
  · obtain ⟨c, hagree, hnot⟩ := PrefixMask.exists_agree_not_agree hlen (Nat.not_lt.mp h.v6.1) b
    refine ⟨.v6 c, containsIp_iff.mpr (.inr ⟨b, c, rfl, rfl, hagree⟩), Bool.eq_false_iff.mpr fun hc => ?_⟩
    rcases containsIp_iff.mp hc with ⟨x, y, hx, hy, hxy⟩ | ⟨x, y, hx, hy, hxy⟩
    · cases hy
    · cases hx
      cases hy
      exact hnot (hab.symm.trans hxy)

/-- **Containment of prefixes is inclusion of their addresses.** -/
theorem Masked.containsPrefix_iff (h : p.Masked) :
    p.containsPrefix q = true ↔ ∀ ip, q.containsIp ip = true → p.containsIp ip = true := by
  constructor
  · intro hpq ip hip
    simp only [containsPrefix, Bool.if_false_left, Bool.and_eq_true, Bool.not_eq_true',
      decide_eq_false_iff_not, Nat.not_lt] at hpq
    exact containsIp_of_addr hpq.2.1 hpq.2.2 hip
  · intro hsub
    have hp := hsub q.addr q.containsIp_self
    refine containsPrefix_of_containsIp ?_ hp
    by_contra hlt
    obtain ⟨ip, hq, hnot⟩ := h.exists_not_containsIp (Nat.not_le.mp hlt) hp
    rw [hsub ip hq] at hnot
    cases hnot

/-- **Prefixes with the same addresses are the same.** -/
theorem Masked.eq_of_containsIp (hp : p.Masked) (hq : q.Masked)
    (h : ∀ ip, p.containsIp ip = q.containsIp ip) : p = q := by
  have hself : p.containsIp q.addr = true := (h q.addr).trans q.containsIp_self
  have hself' : q.containsIp p.addr = true := (h p.addr).symm.trans p.containsIp_self
  have hlen : p.prefixLen = q.prefixLen := by
    rcases Nat.lt_trichotomy p.prefixLen q.prefixLen with hlt | heq | hlt
    · obtain ⟨ip, hin, hnot⟩ := hq.exists_not_containsIp hlt hself'
      rw [h ip, hnot] at hin
      cases hin
    · exact heq
    · obtain ⟨ip, hin, hnot⟩ := hp.exists_not_containsIp hlt hself
      rw [← h ip, hnot] at hin
      cases hin
  have hnew := (hp.containsIp_iff_new q.addr).mp hself
  rw [hlen, hq] at hnew
  exact (Option.some.inj hnew).symm

end IpPrefix

/-- **Prefix containment is set inclusion.** -/
theorem prefix_containment {p q : IpPrefix} {a b : IpAddr} {n m : Nat}
    (hp : IpPrefix.new a n = some p) (hq : IpPrefix.new b m = some q) :
    (p.containsPrefix q = true ↔ ∀ ip, q.containsIp ip = true → p.containsIp ip = true)
      ∧ ((∀ ip, p.containsIp ip = q.containsIp ip) ↔ p = q)
      ∧ ∀ ip, p.containsIp ip = true ↔ IpPrefix.new ip p.prefixLen = some p := by
  have hmp := IpPrefix.masked_of_new hp
  have hmq := IpPrefix.masked_of_new hq
  refine ⟨hmp.containsPrefix_iff, ⟨hmp.eq_of_containsIp hmq, ?_⟩, hmp.containsIp_iff_new⟩
  rintro rfl
  exact fun _ => rfl

/-- A `/8` and a `/24` in it. -/
theorem prefix_containment_ten :
    IpPrefix.new (.v4 0x0a010203#32) 8 = some ⟨.v4 0x0a000000#32, 8⟩
      ∧ IpPrefix.new (.v4 0x0a010203#32) 24 = some ⟨.v4 0x0a010200#32, 24⟩
      ∧ (∀ ip, (⟨.v4 0x0a010200#32, 24⟩ : IpPrefix).containsIp ip = true →
        (⟨.v4 0x0a000000#32, 8⟩ : IpPrefix).containsIp ip = true)
      ∧ ¬ ∀ ip, (⟨.v4 0x0a000000#32, 8⟩ : IpPrefix).containsIp ip
        = (⟨.v4 0x0a010200#32, 24⟩ : IpPrefix).containsIp ip := by
  have hwide : IpPrefix.new (.v4 0x0a010203#32) 8 = some ⟨.v4 0x0a000000#32, 8⟩ := by decide
  have hlong : IpPrefix.new (.v4 0x0a010203#32) 24 = some ⟨.v4 0x0a010200#32, 24⟩ := by decide
  have hten := prefix_containment hwide hlong
  exact ⟨hwide, hlong, hten.1.mp (by decide), fun h => absurd (hten.2.1.mp h) (by decide)⟩

end Slopmud.Sbc
