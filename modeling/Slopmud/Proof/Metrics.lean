import Slopmud.Broker.Bans
import Slopmud.Lib.Machine
import Slopmud.Lib.TableSum
import Slopmud.Sbc.IpText
import Slopmud.Sbc.Metricsd

/-!
# Block metrics

The counters of a block are the sums of the counters of the sources in it. Two spellings of one
address are two sources of one block. The block is credited after the source, in the same lock
section, and a line that stops after the source has not changed a counter.
-/

namespace Slopmud.Sbc

open Machine

variable {T : IpText}

/-! ## Blocks -/

def IpAddr.block : IpAddr → IpPrefix
  | .v4 a => v4_18Prefix a
  | .v6 a => v6_48Prefix a

/-- The table with the block of this address -/
def Agg.blocks (a : Agg) : IpAddr → Table Text Counters
  | .v4 _ => a.byV4_18
  | .v6 _ => a.byV6_48

/-- What is recorded for the block of the address. An entry that is not there counts for nothing. -/
def Agg.recorded (T : IpText) (a : Agg) (ip : IpAddr) (f : Metric) : Nat :=
  (((a.blocks ip).lookup (ip.block.toCidrString T)).getD {}).get f

/-- The counter of a source, if it is an address in the prefix. -/
def counted (T : IpText) (p : IpPrefix) (f : Metric) (src : Text) (c : Counters) : Nat :=
  if (T.parse src).any p.containsIp then c.get f else 0

structure Agg.BlockSums (T : IpText) (a : Agg) : Prop where
  /-- A block has the sum of the sources in it. -/
  sums : ∀ ip f, a.recorded T ip f = Table.totalOn (counted T ip.block f) a.bySrc
  /-- A source that is an address and has counted something has its block. -/
  present : ∀ src c ip, a.bySrc.lookup src = some c → T.parse src = some ip → (∃ f, c.get f ≠ 0) →
    ((a.blocks ip).lookup (ip.block.toCidrString T)).isSome
  /-- There are no other entries. -/
  v4_18 : ∀ k ∈ a.byV4_18, ∃ v4, k = v4_18Key T v4
  v6_48 : ∀ k ∈ a.byV6_48, ∃ v6, k = v6_48Key T v6

/-- An address is in the block of its kind that is its own. -/
theorem containsIp_block (ip ip' : IpAddr) : ip.block.containsIp ip' = true ↔ ip.block = ip'.block := by
  cases ip with
  | v4 a =>
    cases ip' with
    | v4 b =>
      show ((a &&& v4Mask 18) &&& v4Mask 18 == b &&& v4Mask 18) = true
        ↔ IpPrefix.mk (.v4 (a &&& v4Mask 18)) 18 = IpPrefix.mk (.v4 (b &&& v4Mask 18)) 18
      simp [Broker.and_v4Mask_idem]
    | v6 b => exact ⟨nofun, nofun⟩
  | v6 a =>
    cases ip' with
    | v4 b => exact ⟨nofun, nofun⟩
    | v6 b =>
      show ((a &&& v6Mask 48) &&& v6Mask 48 == b &&& v6Mask 48) = true
        ↔ IpPrefix.mk (.v6 (a &&& v6Mask 48)) 48 = IpPrefix.mk (.v6 (b &&& v6Mask 48)) 48
      simp [Broker.and_v6Mask_idem]

/-! ## Counters -/

@[simp] theorem Counters.get_default (f : Metric) : ({} : Counters).get f = 0 := by cases f <;> rfl

theorem Counters.get_add (c : Counters) (f g : Metric) (val : Int) :
    (c.add f val).get g = if g = f then Word.satAdd64 (c.get f) val.toNat else c.get g := by
  cases f <;> cases g <;> rfl

/-- The addition stays below `2^64`. -/
def Adds (m : Table Text Counters) (k : Text) (f : Metric) (val : Int) : Prop :=
  ((m.lookup k).getD {}).get f + val.toNat < 2 ^ 64

instance (m : Table Text Counters) (k : Text) (f : Metric) (val : Int) : Decidable (Adds m k f val) :=
  inferInstanceAs (Decidable (_ < _))

/-- What an addition is worth to a counter -/
theorem get_addTo {m : Table Text Counters} {k : Text} {f : Metric} {val : Int} (h : Adds m k f val)
    (k' : Text) (g : Metric) : (((addTo m k f val).lookup k').getD {}).get g
      = ((m.lookup k').getD {}).get g + if k' = k ∧ g = f then val.toNat else 0 := by
  rw [addTo, Table.lookup_insert_eq]
  by_cases hk : k' = k
  · subst hk
    simp only [if_true, Option.getD_some, true_and, Counters.get_add]
    by_cases hg : g = f
    · subst hg
      simp only [if_true]
      rw [Word.satAdd64_of_lt (by unfold Word.maxU64; exact Nat.le_sub_one_of_lt h)]
    · simp [hg]
  · simp [hk]

/-- And to the sum over the sources of a prefix -/
theorem totalOn_addTo {m : Table Text Counters} {src : Text} {f : Metric} {val : Int} (h : Adds m src f val)
    (p : IpPrefix) (g : Metric) : Table.totalOn (counted T p g) (addTo m src f val)
      = Table.totalOn (counted T p g) m
        + if (T.parse src).any p.containsIp = true ∧ g = f then val.toNat else 0 := by
  have hzero : counted T p g src {} = 0 := by simp [counted]
  have hsum := Table.totalOn_upsert hzero m (((m.lookup src).getD {}).add f val)
  have hget := get_addTo h src g
  simp only [addTo, Table.lookup_insert_eq, if_true, Option.getD_some, true_and] at hget
  rw [addTo]
  by_cases hin : (T.parse src).any p.containsIp = true
  · simp only [counted, hin, if_true, true_and] at hsum ⊢
    rw [hget] at hsum
    omega
  · simp only [counted, hin, if_false, Bool.false_eq_true, false_and] at hsum ⊢
    omega

namespace Agg

theorem bySrc_addBlock (a : Agg) (src : Text) (f : Metric) (val : Int) :
    (a.addBlock T src f val).bySrc = a.bySrc := by
  unfold addBlock
  split <;> rfl

theorem blocks_addBlock {src : Text} {ip : IpAddr} (hip : T.parse src = some ip) (a : Agg) (f : Metric)
    (val : Int) (ip' : IpAddr) : (a.addBlock T src f val).blocks ip'
      = if ip'.isV4 = ip.isV4 then addTo (a.blocks ip') (ip.block.toCidrString T) f val else a.blocks ip' := by
  cases ip <;> cases ip' <;> simp only [addBlock, hip] <;> rfl

/-- Blocks of the two kinds differ. -/
theorem isV4_of_block {ip ip' : IpAddr} (h : ip.block = ip'.block) : ip.isV4 = ip'.isV4 := by
  cases ip <;> cases ip' <;> first | rfl | cases h

theorem recorded_addBlock {src : Text} {ip : IpAddr} (hip : T.parse src = some ip) {a : Agg} {f : Metric}
    {val : Int} (h : Adds (a.blocks ip) (ip.block.toCidrString T) f val) (ip' : IpAddr) (g : Metric) :
    (a.addBlock T src f val).recorded T ip' g
      = a.recorded T ip' g + if ip'.block = ip.block ∧ g = f then val.toNat else 0 := by
  rw [recorded, blocks_addBlock hip, recorded]
  by_cases hkind : ip'.isV4 = ip.isV4
  · have hsame : a.blocks ip' = a.blocks ip := by cases ip <;> cases ip' <;> first | rfl | cases hkind
    have hkey : ip'.block.toCidrString T = ip.block.toCidrString T ↔ ip'.block = ip.block :=
      ⟨Broker.toCidrString_inj, fun heq => by rw [heq]⟩
    rw [if_pos hkind, hsame, get_addTo h]
    simp only [hkey]
  · have hne : ip'.block ≠ ip.block := fun heq => hkind (isV4_of_block heq)
    simp [hkind, hne]

theorem blockSums_empty : Agg.empty.BlockSums T where
  sums := by
    intro ip f
    cases ip <;> cases f <;> rfl
  present := by
    intro src c ip hc
    cases hc
  v4_18 := nofun
  v6_48 := nofun

/-- The entry of the source comes into being. It counts nothing. -/
theorem BlockSums.touch {a : Agg} (h : a.BlockSums T) (src : Text) :
    Agg.BlockSums T { a with bySrc := a.bySrc.insert src ((a.bySrc.lookup src).getD {}) } where
  sums := by
    intro ip f
    have hsum := Table.totalOn_upsert (by simp [counted] : counted T ip.block f src {} = 0) a.bySrc
      ((a.bySrc.lookup src).getD {})
    have hold := h.sums ip f
    show a.recorded T ip f = Table.totalOn (counted T ip.block f) (a.bySrc.insert src _)
    omega
  present := by
    intro src' c ip hc hip hne
    rw [Table.lookup_insert_eq] at hc
    split at hc
    · next heq =>
      subst heq
      cases hsrc : a.bySrc.lookup src' with
      | none =>
        rw [hsrc] at hc
        cases hc
        obtain ⟨f, hf⟩ := hne
        exact absurd (Counters.get_default f) hf
      | some c' =>
        rw [hsrc] at hc
        cases hc
        exact h.present src' c' ip hsrc hip hne
    · exact h.present src' c ip hc hip hne
  v4_18 := h.v4_18
  v6_48 := h.v6_48

/-- **The source and its block are credited alike.** -/
theorem BlockSums.credit {a : Agg} (h : a.BlockSums T) {src : Text} {f : Metric} {val : Int}
    (hsrc : Adds a.bySrc src f val)
    (hblock : ∀ ip ∈ T.parse src, Adds (a.blocks ip) (ip.block.toCidrString T) f val) :
    Agg.BlockSums T ({ a with bySrc := addTo a.bySrc src f val }.addBlock T src f val) := by
  cases hip : T.parse src with
  | none =>
    have hstop : { a with bySrc := addTo a.bySrc src f val }.addBlock T src f val
        = { a with bySrc := addTo a.bySrc src f val } := by simp only [addBlock, hip]
    rw [hstop]
    refine ⟨?_, ?_, h.v4_18, h.v6_48⟩
    · intro ip g
      rw [totalOn_addTo hsrc, ← h.sums, hip]
      simp [recorded, blocks]
    · intro src' c ip hc hip' hne
      have hdiff : src' ≠ src := by
        rintro rfl
        rw [hip] at hip'
        cases hip'
      rw [addTo, Table.lookup_insert_eq, if_neg hdiff] at hc
      exact h.present src' c ip hc hip' hne
  | some ip =>
    have hadds : Adds (blocks { a with bySrc := addTo a.bySrc src f val } ip) (ip.block.toCidrString T) f
        val := by
      have := hblock ip hip
      cases ip <;> exact this
    refine ⟨?_, ?_, ?_, ?_⟩
    · intro ip' g
      have hin : (T.parse src).any ip'.block.containsIp = true ↔ ip'.block = ip.block := by
        rw [hip, Option.any_some]
        exact containsIp_block ip' ip
      rw [bySrc_addBlock, recorded_addBlock hip hadds, totalOn_addTo hsrc, ← h.sums]
      simp only [hin]
      cases ip' <;> rfl
    · intro src' c ip' hc hip' hne
      rw [bySrc_addBlock, addTo, Table.lookup_insert_eq] at hc
      rw [blocks_addBlock hip]
      by_cases hsame : src' = src
      · subst hsame
        rw [hip] at hip'
        cases hip'
        simp [addTo]
      · rw [if_neg hsame] at hc
        have hold := h.present src' c ip' hc hip' hne
        split
        · rw [addTo, Table.lookup_insert_eq]
          split
          · rfl
          · cases ip' <;> exact hold
        · cases ip' <;> exact hold
    · intro k hk
      cases ip with
      | v4 v4 =>
        simp only [addBlock, hip, addTo, AList.mem_insert] at hk
        rcases hk with rfl | hk
        · exact ⟨v4, rfl⟩
        · exact h.v4_18 k hk
      | v6 v6 =>
        simp only [addBlock, hip] at hk
        exact h.v4_18 k hk
    · intro k hk
      cases ip with
      | v4 v4 =>
        simp only [addBlock, hip] at hk
        exact h.v6_48 k hk
      | v6 v6 =>
        simp only [addBlock, hip, addTo, AList.mem_insert] at hk
        rcases hk with rfl | hk
        · exact ⟨v6, rfl⟩
        · exact h.v6_48 k hk

/-- The line takes no counter to `2^64`. -/
def Fits (T : IpText) (a : Agg) (rawLine : Text) : Prop :=
  ∀ l ∈ parseStatsdLine rawLine, l.typ = ['c'] →
    ∀ src ∈ l.tags.lookup "src".toList, ∀ f ∈ Metric.ofName l.name, Adds a.bySrc src f l.val
      ∧ ∀ ip ∈ T.parse src, Adds (a.blocks ip) (ip.block.toCidrString T) f l.val

instance (T : IpText) (a : Agg) (rawLine : Text) : Decidable (a.Fits T rawLine) :=
  inferInstanceAs (Decidable (∀ l ∈ parseStatsdLine rawLine, l.typ = ['c'] →
    ∀ src ∈ l.tags.lookup "src".toList, ∀ f ∈ Metric.ofName l.name, Adds a.bySrc src f l.val
      ∧ ∀ ip ∈ T.parse src, Adds (a.blocks ip) (ip.block.toCidrString T) f l.val))

theorem BlockSums.readLine {a : Agg} (h : a.BlockSums T) {rawLine : Text} (hfits : a.Fits T rawLine) :
    (a.readLine T rawLine).BlockSums T := by
  unfold Agg.readLine
  cases hl : parseStatsdLine rawLine with
  | none => exact h
  | some l =>
    dsimp only
    split
    · exact h
    · next htyp =>
      cases hsrc : l.tags.lookup "src".toList with
      | none => exact h
      | some src =>
        cases hf : Metric.ofName l.name with
        | none => exact h.touch src
        | some f =>
          obtain ⟨hadds, hblock⟩ := hfits l hl (not_not.mp htyp) src hsrc f hf
          exact h.credit hadds hblock

end Agg

/-! ## Runs -/

/-- No counter reaches `2^64`. -/
def Statsd.Fits (T : IpText) (w : Statsd) : StatsdMove → Prop
  | .line => ∀ rawLine ∈ w.lines.head?, w.agg.Fits T rawLine
  | .recv _ => True

instance (T : IpText) (w : Statsd) : ∀ m, Decidable (w.Fits T m)
  | .line => inferInstanceAs (Decidable (∀ rawLine ∈ w.lines.head?, w.agg.Fits T rawLine))
  | .recv _ => .isTrue trivial

theorem blockSums_step {w w' : Statsd} {m : StatsdMove} (h : w.agg.BlockSums T) (hfits : w.Fits T m)
    (hs : w.step T m = some w') : w'.agg.BlockSums T := by
  cases m with
  | recv datagram =>
    simp only [Statsd.step] at hs
    split at hs
    · cases hs
      exact h
    · cases hs
  | line =>
    simp only [Statsd.step] at hs
    cases hlines : w.lines with
    | nil => simp [hlines] at hs
    | cons rawLine rest =>
      simp only [hlines, Option.some.injEq] at hs
      subst hs
      exact h.readLine (hfits rawLine (by rw [hlines]; rfl))

/-- **Blocks have the sums of their sources**, after each line of each datagram. -/
theorem block_sums {ms : List StatsdMove} {w : Statsd} (hex : exec (Statsd.step T) .init ms = some w)
    (hfits : Along (Statsd.step T) (Statsd.Fits T) .init ms) : w.agg.BlockSums T :=
  exec_invariant (I := fun w => w.agg.BlockSums T) blockSums_step Agg.blockSums_empty hfits hex

/-- Two sources of one block -/
def twoSources : List StatsdMove :=
  [.recv (Utf8.encode "sbc.bytes_in:100|c|#src=10.0.0.1\nsbc.bytes_in:50|c|#dev=eth0,src=10.0.1.1".toList),
    .line, .line]

theorem block_sums_two_sources : ∃ w, exec (Statsd.step IpText.plain) .init twoSources = some w
    ∧ w.agg.recorded IpText.plain (.v4 0x0A000001#32) .bytesIn = 150 ∧ w.agg.BlockSums IpText.plain := by
  have hrun : (exec (Statsd.step IpText.plain) .init twoSources).map
      (fun w => w.agg.recorded IpText.plain (.v4 0x0A000001#32) .bytesIn) = some 150 := by
    decide +kernel
  obtain ⟨w, hex, hsum⟩ := Option.map_eq_some_iff.mp hrun
  have hfits : Along (Statsd.step IpText.plain) (Statsd.Fits IpText.plain) .init twoSources := by
    decide +kernel
  exact ⟨w, hex, hsum, block_sums hex hfits⟩

end Slopmud.Sbc
