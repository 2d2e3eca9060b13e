import Slopmud.Lib.Machine
import Slopmud.Proof.Prefixes
import Slopmud.Proof.Stores

/-!
# What the ban list means

The list is changed and saved, and read again from the file after a restart. Names are stored
folded, prefixes masked, and either is printed as text and parsed back; still the list bans
exactly what it was told to, and each prefix once.
-/

namespace Slopmud.Broker

open Slopmud.Sbc

/-! ## What a ban is of -/

/-- The addresses have their first `n` bits in common. -/
def SameLeading (n : Nat) : IpAddr → IpAddr → Prop
  | .v4 a, .v4 b => PrefixMask.Agree n a b
  | .v6 a, .v6 b => PrefixMask.Agree n a b
  | _, _ => False

/-- What the text of a prefix covers: an address and a length, or a plain address. -/
def Covers (T : IpText) (s : Text) (a : IpAddr) : Prop :=
  if '/' ∈ Text.trim s then
    ∃ ipS lenS ip n, splitOnce '/' (Text.trim s) = some (ipS, lenS) ∧ T.parse (Text.trim ipS) = some ip
      ∧ parseU8 (Text.trim lenS) = some n ∧ SameLeading n ip a
  else T.parse (Text.trim s) = some a

/-- The operation bans the name, but for case and white space around it. -/
def BanOp.bansName (n : Text) : BanOp → Prop
  | .upsertChar name _ _ _ => Text.toAsciiLowercase (Text.trim name) = Text.toAsciiLowercase (Text.trim n)
  | .upsertIp _ _ _ _ => False

/-- The operation bans the address. -/
def BanOp.bansAddr (T : IpText) (a : IpAddr) : BanOp → Prop
  | .upsertChar _ _ _ _ => False
  | .upsertIp cidr _ _ _ => Covers T cidr a

theorem agree_full {w : Nat} {a b : BitVec w} : PrefixMask.Agree w a b ↔ a = b := by
  rw [PrefixMask.agree_iff]
  constructor
  · intro h
    exact BitVec.eq_of_getLsbD_eq fun i hi => h i hi (by omega)
  · rintro rfl i _ _
    rfl

/-- A prefix contains what agrees with its address on its length. -/
theorem containsIp_new {ip a : IpAddr} {n : Nat} {p : IpPrefix} (h : IpPrefix.new ip n = some p) :
    p.containsIp a = true ↔ SameLeading n ip a := by
  cases ip with
  | v4 x =>
    simp only [IpPrefix.new, Option.ite_none_left_eq_some, Option.some.injEq] at h
    obtain ⟨-, rfl⟩ := h
    cases a with
    | v4 y =>
      simp only [IpPrefix.containsIp, beq_iff_eq, SameLeading, PrefixMask.Agree, v4Mask_eq, BitVec.and_assoc,
        BitVec.and_self]
    | v6 y => simp [IpPrefix.containsIp, SameLeading]
  | v6 x =>
    simp only [IpPrefix.new, Option.ite_none_left_eq_some, Option.some.injEq] at h
    obtain ⟨-, rfl⟩ := h
    cases a with
    | v4 y => simp [IpPrefix.containsIp, SameLeading]
    | v6 y =>
      simp only [IpPrefix.containsIp, beq_iff_eq, SameLeading, PrefixMask.Agree, v6Mask_eq, BitVec.and_assoc,
        BitVec.and_self]

theorem sameLeading_full {ip a : IpAddr} : SameLeading (if ip.isV4 then 32 else 128) ip a ↔ ip = a := by
  cases ip <;> cases a <;> simp [SameLeading, IpAddr.isV4, agree_full]

/-- **A prefix that was read contains what its text covers.** -/
theorem containsIp_iff_covers {T : IpText} {s : Text} {p : IpPrefix} (h : readCidr T s = some p)
    (a : IpAddr) : p.containsIp a = true ↔ Covers T s a := by
  have hparse := readCidr_eq_some h
  unfold parseIpPrefix at hparse
  unfold Covers
  split at hparse
  · next hslash =>
    rw [if_pos hslash]
    simp only [IpPrefix.parseCidr, Text.trim_trim, Option.bind_eq_bind, Option.bind_eq_some_iff] at hparse
    obtain ⟨⟨ipS, lenS⟩, hsplit, ip, hip, n, hn, hnew⟩ := hparse
    rw [containsIp_new hnew]
    constructor
    · intro hsame
      exact ⟨ipS, lenS, ip, n, hsplit, hip, hn, hsame⟩
    · rintro ⟨ipS', lenS', ip', n', hsplit', hip', hn', hsame⟩
      cases hsplit.symm.trans hsplit'
      cases hip.symm.trans hip'
      cases hn.symm.trans hn'
      exact hsame
  · next hslash =>
    rw [if_neg hslash]
    obtain ⟨ip, hip, hnew⟩ := Option.bind_eq_some_iff.mp hparse
    rw [containsIp_new hnew, sameLeading_full, hip, Option.some.injEq]

/-! ## Runs -/

variable {Raw : Type} (J : Codec Raw BanListFile) (T : IpText)

/-- The list in memory, and its file. -/
structure BanBook (Raw : Type) (T : IpText) where
  bans : BanState T
  file : Option Raw

inductive BanMove where
  /-- A call that returns `Ok`: the list is changed and saved. -/
  | ban (o : BanOp)
  /-- `BanState::load` -/
  | restart

namespace BanBook

/-- The first start finds no file. -/
def start : BanBook Raw T := ⟨BanState.load J true none, none⟩

variable {T} in
def step (s : BanBook Raw T) : BanMove → Option (BanBook Raw T)
  | .ban o => (o.apply T s.bans).map fun bans => ⟨bans, some (bans.print J)⟩
  | .restart => some ⟨BanState.load J true s.file, s.file⟩

end BanBook

/-! ## Reading the list back -/

namespace BanState

variable {T}

/-- The name of every ban is folded and not blank. -/
def NamesFolded (st : BanState T) : Prop :=
  ∀ k b, st.chars.lookup k = some b → Text.trim k ≠ []

/-- Two lists that ban the same. -/
structure Alike (st st' : BanState T) : Prop where
  chars : ∀ k, st.chars.lookup k = st'.chars.lookup k
  ips : st.ips.Perm st'.ips

theorem foldl_loadChar_eq {v : List CharacterBan} (h : ∀ b ∈ v, Text.trim b.nameLc ≠ [])
    (m : Table Text CharacterBan) : v.foldl loadChar m = Table.fileAll CharacterBan.nameLc m v := by
  induction v generalizing m with
  | nil => rfl
  | cons b v ih =>
    have hb : (Text.trim b.nameLc).isEmpty = false := by
      rw [List.isEmpty_eq_false_iff]
      exact h b List.mem_cons_self
    rw [List.foldl_cons, ih (fun b' hb' => h b' (List.mem_cons_of_mem _ hb')), loadChar, hb]
    rfl

/-- The entries of a list are read back from their own texts. -/
theorem loadIps_self (st : BanState T) : loadIps T (st.ips.map Prod.snd) = st.ips := by
  have hall : ∀ l : List (IpPrefix × IpBan), (∀ e ∈ l, readCidr T e.2.cidr = some e.1) →
      loadIps T (l.map Prod.snd) = l := by
    intro l hl
    induction l with
    | nil => rfl
    | cons e l ih =>
      have he := hl e List.mem_cons_self
      have hrest := ih fun e' he' => hl e' (List.mem_cons_of_mem _ he')
      rw [loadIps] at hrest
      rw [List.map_cons, loadIps, List.filterMap_cons, he, Option.map_some, hrest]
  exact hall st.ips st.parsed

/-- **A restart reads the list back**, in another order. -/
theorem ofFile_snapshotFile {st : BanState T} (h : st.NamesFolded) :
    (ofFile T st.snapshotFile).Alike st where
  chars k := by
    have hmem : ∀ b, b ∈ st.snapshotFile.characterBans ↔ ∃ k, st.chars.lookup k = some b := by
      intro b
      rw [snapshotFile, List.mem_mergeSort, Table.mem_values]
    have hown : ∀ b ∈ st.snapshotFile.characterBans, st.chars.lookup b.nameLc = some b := by
      intro b hb
      obtain ⟨k, hk⟩ := (hmem b).mp hb
      rwa [st.named k b hk]
    have hblank : ∀ b ∈ st.snapshotFile.characterBans, Text.trim b.nameLc ≠ [] :=
      fun b hb => h _ b (hown b hb)
    have hload : (ofFile T st.snapshotFile).chars.lookup k
        = if k ∈ st.snapshotFile.characterBans.map CharacterBan.nameLc then st.chars.lookup k else none := by
      simp only [ofFile, foldl_loadChar_eq hblank, Table.lookup_fileAll hown, AList.lookup_empty]
      congr
    rw [hload]
    split
    · rfl
    · next hnot =>
      cases hk : st.chars.lookup k with
      | none => rfl
      | some b =>
        have hname := st.named k b hk
        exact absurd (List.mem_map.mpr ⟨b, (hmem b).mpr ⟨k, hk⟩, hname⟩) hnot
  ips := by
    have hperm : st.snapshotFile.ipBans.Perm (st.ips.map Prod.snd) := List.mergeSort_perm _ _
    have hload := hperm.filterMap fun b => (readCidr T b.cidr).map fun pfx => (pfx, b)
    rwa [← loadIps, ← loadIps, loadIps_self] at hload

end BanState

/-! ## The meaning of the list -/

/-- What the list says, by the bans that went into it. -/
structure Means (T : IpText) (os : List BanOp) (st : BanState T) : Prop where
  chars : ∀ k, (st.chars.lookup k).isSome = true ↔
    ∃ name t who why, .upsertChar name t who why ∈ os ∧ Text.toAsciiLowercase (Text.trim name) = k
  names : st.NamesFolded
  ips : ∀ p, p ∈ st.ips.map Prod.fst ↔
    ∃ cidr t who why, .upsertIp cidr t who why ∈ os ∧ readCidr T cidr = some p
  once : (st.ips.map Prod.fst).Nodup
  /-- Every ban of an address could be read. -/
  read : ∀ cidr t who why, .upsertIp cidr t who why ∈ os → ∃ p, readCidr T cidr = some p

namespace Means

variable {T} {os : List BanOp} {st st' : BanState T}

theorem empty : Means T [] BanState.empty := by
  refine ⟨fun k => ?_, ?_, fun p => ?_, List.nodup_nil, ?_⟩
  · simp [BanState.empty]
  · simp [BanState.NamesFolded, BanState.empty]
  · simp [BanState.empty]
  · simp

theorem alike (h : Means T os st) (hst : st'.Alike st) : Means T os st' where
  chars k := by
    rw [hst.chars]
    exact h.chars k
  names k b hk := h.names k b (by rwa [← hst.chars])
  ips p := by
    rw [(hst.ips.map Prod.fst).mem_iff]
    exact h.ips p
  once := (hst.ips.map Prod.fst).nodup_iff.mpr h.once
  read := h.read

theorem upsertChar (h : Means T os st) {name : Text} {t : Nat} {who why : Text}
    (hs : st.upsertCharBan name t who why = some st') :
    Means T (os ++ [.upsertChar name t who why]) st' := by
  obtain ⟨hchars, hips, -⟩ := BanState.upsertCharBan_some hs
  have hne : Text.toAsciiLowercase (Text.trim name) ≠ [] := by
    intro hnil
    simp [BanState.upsertCharBan, hnil] at hs
  refine ⟨fun k => ?_, fun k b hk => ?_, fun p => ?_, by rw [hips]; exact h.once, ?_⟩
  · rw [hchars, Table.lookup_insert_eq]
    constructor
    · intro hk
      split at hk
      · next heq => exact ⟨name, t, who, why, by simp, heq.symm⟩
      · obtain ⟨name', t', who', why', ho, hfold⟩ := (h.chars k).mp hk
        exact ⟨name', t', who', why', List.mem_append_left _ ho, hfold⟩
    · rintro ⟨name', t', who', why', ho, hfold⟩
      split
      · rfl
      · next hkn =>
        refine (h.chars k).mpr ⟨name', t', who', why', ?_, hfold⟩
        rcases List.mem_append.mp ho with ho | ho
        · exact ho
        · cases List.mem_singleton.mp ho
          exact absurd hfold.symm hkn
  · rw [hchars, Table.lookup_insert_eq] at hk
    split at hk
    · next heq =>
      -- a folded name is trimmed already
      rw [heq, Text.trim_toAsciiLowercase, Text.trim_trim]
      exact hne
    · exact h.names k b hk
  · rw [hips, h.ips p]
    simp
  · intro cidr t' who' why' ho
    exact h.read cidr t' who' why' (by simpa using ho)

theorem upsertIp (h : Means T os st) {cidr : Text} {t : Nat} {who why : Text}
    (hs : st.upsertIpBan cidr t who why = some st') :
    Means T (os ++ [.upsertIp cidr t who why]) st' := by
  obtain ⟨pfx, hread, hchars, hips, -⟩ := BanState.upsertIpBan_some hs
  have hfst : st'.ips.map Prod.fst = (st.ips.map Prod.fst).filter (· ≠ pfx) ++ [pfx] := by
    rw [hips, List.map_append, List.filter_map]
    rfl
  refine ⟨fun k => ?_, ?_, fun p => ?_, ?_, ?_⟩
  · rw [hchars, h.chars k]
    simp
  · intro k b hk
    exact h.names k b (by rwa [← hchars])
  · rw [hfst, List.mem_append, List.mem_filter, List.mem_singleton, h.ips p]
    constructor
    · rintro (⟨⟨cidr', t', who', why', ho, hp⟩, -⟩ | rfl)
      · exact ⟨cidr', t', who', why', List.mem_append_left _ ho, hp⟩
      · exact ⟨cidr, t, who, why, by simp, hread⟩
    · rintro ⟨cidr', t', who', why', ho, hp⟩
      by_cases hpfx : p = pfx
      · exact Or.inr hpfx
      · refine Or.inl ⟨⟨cidr', t', who', why', ?_, hp⟩, by simpa using hpfx⟩
        rcases List.mem_append.mp ho with ho | ho
        · exact ho
        · cases List.mem_singleton.mp ho
          cases hread.symm.trans hp
          exact absurd rfl hpfx
  · rw [hfst, List.nodup_append]
    refine ⟨h.once.filter _, List.nodup_singleton _, ?_⟩
    intro a ha b hb
    rw [List.mem_singleton.mp hb]
    simpa using (List.mem_filter.mp ha).2
  · intro cidr' t' who' why' ho
    rcases List.mem_append.mp ho with ho | ho
    · exact h.read cidr' t' who' why' ho
    · cases List.mem_singleton.mp ho
      exact ⟨pfx, hread⟩

theorem apply (h : Means T os st) {o : BanOp} (hs : o.apply T st = some st') :
    Means T (os ++ [o]) st' := by
  cases o with
  | upsertChar name t who why => exact h.upsertChar hs
  | upsertIp cidr t who why => exact h.upsertIp hs

theorem isCharBanned_isSome (h : Means T os st) (n : Text) :
    (st.isCharBanned n).isSome = true ↔ ∃ o ∈ os, o.bansName n := by
  have hkey : (st.isCharBanned n).isSome = true ↔
      (st.chars.lookup (Text.toAsciiLowercase (Text.trim n))).isSome = true := by
    rw [BanState.isCharBanned]
    split
    · next hempty =>
      -- nothing is stored under the empty name
      rw [List.isEmpty_iff.mp hempty]
      cases hnil : st.chars.lookup [] with
      | none => rfl
      | some b => exact absurd rfl (h.names [] b hnil)
    · rfl
  rw [hkey, h.chars]
  constructor
  · rintro ⟨name, t, who, why, ho, hfold⟩
    exact ⟨_, ho, hfold⟩
  · rintro ⟨o, ho, hn⟩
    cases o with
    | upsertChar name t who why => exact ⟨name, t, who, why, ho, hn⟩
    | upsertIp cidr t who why => exact hn.elim

theorem isIpBanned_isSome (h : Means T os st) (a : IpAddr) :
    (st.isIpBanned a).isSome = true ↔ ∃ o ∈ os, o.bansAddr T a := by
  have hfind : (st.isIpBanned a).isSome = true ↔ ∃ p ∈ st.ips.map Prod.fst, p.containsIp a = true := by
    rw [BanState.isIpBanned, Option.isSome_map, List.find?_isSome]
    simp
  rw [hfind]
  constructor
  · rintro ⟨p, hp, hcontains⟩
    obtain ⟨cidr, t, who, why, ho, hread⟩ := (h.ips p).mp hp
    exact ⟨_, ho, (containsIp_iff_covers hread a).mp hcontains⟩
  · rintro ⟨o, ho, ha⟩
    cases o with
    | upsertChar name t who why => exact ha.elim
    | upsertIp cidr t who why =>
      obtain ⟨p, hread⟩ := h.read cidr t who why ho
      exact ⟨p, (h.ips p).mpr ⟨cidr, t, who, why, ho, hread⟩, (containsIp_iff_covers hread a).mpr ha⟩

end Means

/-! ## Runs of the list -/

/-- The bans of a run. -/
def BanMove.op? : BanMove → Option BanOp
  | .ban o => some o
  | .restart => none

/-- The list means what was banned, and a restart would read it back. -/
structure InBook (J : Codec Raw BanListFile) {T : IpText} (os : List BanOp) (s : BanBook Raw T) : Prop where
  means : Means T os s.bans
  saved : (BanState.load J true s.file).Alike s.bans

variable {J T}

theorem InBook.start : InBook J [] (BanBook.start J T) :=
  ⟨Means.empty, fun _ => rfl, List.Perm.refl _⟩

theorem InBook.step {os : List BanOp} {s s' : BanBook Raw T} {m : BanMove} (h : InBook J os s)
    (hs : s.step J m = some s') : InBook J (os ++ m.op?.toList) s' := by
  cases m with
  | ban o =>
    obtain ⟨bans, hbans, rfl⟩ := Option.map_eq_some_iff.mp hs
    have hmeans := h.means.apply hbans
    refine ⟨hmeans, ?_⟩
    have hload : BanState.load J true (some (bans.print J)) = BanState.ofFile T bans.snapshotFile := by
      simp [BanState.load, BanState.reload, BanState.print]
    rw [hload]
    exact BanState.ofFile_snapshotFile hmeans.names
  | restart =>
    cases hs
    rw [BanMove.op?, Option.toList_none, List.append_nil]
    exact ⟨h.means.alike h.saved, fun _ => rfl, List.Perm.refl _⟩

theorem InBook.run {os : List BanOp} {s s' : BanBook Raw T} {ms : List BanMove} (h : InBook J os s)
    (hex : Machine.exec (BanBook.step J) s ms = some s') : InBook J (os ++ ms.filterMap BanMove.op?) s' := by
  induction ms generalizing s os with
  | nil =>
    cases hex
    rwa [List.filterMap_nil, List.append_nil]
  | cons m ms ih =>
    obtain ⟨s₁, h₁, h₂⟩ := Machine.exec_cons.mp hex
    have hrest := ih (h.step h₁) h₂
    cases m with
    | ban o =>
      rw [List.append_assoc] at hrest
      exact hrest
    | restart =>
      rw [BanMove.op?, Option.toList_none, List.append_nil] at hrest
      exact hrest

/-- **The ban list means what was banned**, over any bans and restarts: a name is banned if one that
equals it, but for case and white space around it, was banned; an address is banned if a prefix that
covers it was banned; and no prefix is in the list twice. -/
theorem bans_mean_what_was_banned (J : Codec Raw BanListFile) (T : IpText) (ms : List BanMove)
    (s : BanBook Raw T) (hex : Machine.exec (BanBook.step J) (BanBook.start J T) ms = some s) :
    (∀ n, (s.bans.isCharBanned n).isSome = true ↔ ∃ o, .ban o ∈ ms ∧ o.bansName n)
      ∧ (∀ a, (s.bans.isIpBanned a).isSome = true ↔ ∃ o, .ban o ∈ ms ∧ o.bansAddr T a)
      ∧ (s.bans.ips.map Prod.fst).Nodup := by
  have h := InBook.start.run hex
  rw [List.nil_append] at h
  have hmem : ∀ o, o ∈ ms.filterMap BanMove.op? ↔ .ban o ∈ ms := by
    intro o
    rw [List.mem_filterMap]
    constructor
    · rintro ⟨m, hm, ho⟩
      cases m with
      | ban o' => cases ho; exact hm
      | restart => cases ho
    · exact fun ho => ⟨_, ho, rfl⟩
  refine ⟨fun n => ?_, fun a => ?_, h.means.once⟩
  · rw [h.means.isCharBanned_isSome]
    simp only [hmem]
  · rw [h.means.isIpBanned_isSome]
    simp only [hmem]

def banRun : List BanMove :=
  [.ban (.upsertChar "Bob".toList 1 "admin".toList []), .ban (.upsertIp "10.1.2.3/8".toList 2 "admin".toList []),
    .restart]

/-- After the restart BOB is banned, and an address of the prefix. -/
theorem bans_mean_what_was_banned_restarted :
    ∃ s, Machine.exec (BanBook.step (Codec.direct BanListFile)) (BanBook.start (Codec.direct BanListFile) IpText.plain)
        banRun = some s
      ∧ (s.bans.isCharBanned " BOB".toList).isSome = true
      ∧ (s.bans.isIpBanned (.v4 0x0A090909#32)).isSome = true := by
  have hex : (Machine.exec (BanBook.step (Codec.direct BanListFile))
      (BanBook.start (Codec.direct BanListFile) IpText.plain) banRun).isSome = true := by decide +kernel
  obtain ⟨s, hs⟩ := Option.isSome_iff_exists.mp hex
  obtain ⟨hchars, hips, -⟩ := bans_mean_what_was_banned (Codec.direct BanListFile) IpText.plain banRun s hs
  refine ⟨s, hs, (hchars _).mpr ⟨_, List.mem_cons_self, ?_⟩,
    (hips _).mpr ⟨_, List.mem_cons_of_mem _ List.mem_cons_self, ?_⟩⟩
  · show Text.toAsciiLowercase (Text.trim "Bob".toList) = Text.toAsciiLowercase (Text.trim " BOB".toList)
    decide
  · show Covers IpText.plain "10.1.2.3/8".toList (.v4 0x0A090909#32)
    rw [Covers, if_pos (by decide)]
    exact ⟨"10.1.2.3".toList, "8".toList, .v4 0x0A010203#32, 8, by decide, by decide, by decide,
      (by decide : 0x0A010203#32 &&& PrefixMask.mask 32 8 = 0x0A090909#32 &&& PrefixMask.mask 32 8)⟩

end Slopmud.Broker
