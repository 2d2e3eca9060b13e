import Slopmud.Broker.Books
import Slopmud.Broker.Caps
import Slopmud.Proof.LoginBlobs

/-!
# Granted capabilities at the shard

A grant puts a capability on the list of its account, where it stays. Only a login by password puts
that list in the blob. A login by an identity brings what came with the identity, and a sign-in with a
code nothing.
-/

namespace Slopmud.Broker

open Slopmud.Sbc Slopmud.Shard

variable {Raw Auth : Type} {cfg : BrokerConfig Raw Auth} {k : ConnId}

/-! ## Lists that grow -/

/-- A capability that the loop passes is taken, or there is no room. -/
theorem mem_foldl_normalizeCap {l out : List Text} {raw : Text} (hraw : raw ∈ l) (hcap : IsCap (blobCap raw)) :
    blobCap raw ∈ l.foldl normalizeCap out ∨ 32 ≤ (l.foldl normalizeCap out).length := by
  induction l generalizing out with
  | nil => cases hraw
  | cons x l ih =>
    rw [List.foldl_cons]
    rcases List.mem_cons.mp hraw with rfl | hraw
    · have hstep : blobCap raw ∈ normalizeCap out raw ∨ 32 ≤ (normalizeCap out raw).length := by
        have hchars := hcap.chars
        have hshort := hcap.short
        have hne : ¬ (blobCap raw).isEmpty = true := fun h => hcap.nonempty (List.isEmpty_iff.mp h)
        unfold normalizeCap
        dsimp only
        rw [← blobCap]
        split
        · next h =>
          rcases h with h | h | h | h | h
          · exact .inr h
          · exact absurd h hne
          · omega
          · rw [hchars] at h
            cases h
          · exact .inl h
        · exact .inl (List.mem_append_right _ List.mem_cons_self)
      obtain ⟨new, hfold, -⟩ := foldl_normalizeCap_spec l (normalizeCap out raw)
      rw [hfold, List.length_append]
      rcases hstep with hmem | hlen
      · exact .inl (List.mem_append_left _ hmem)
      · right
        omega
    · exact ih hraw

theorem mem_normalizeCapsList_iff {l : List Text} {t : Text} :
    t ∈ normalizeCapsList l ↔ t ∈ l.foldl normalizeCap [] :=
  (List.mergeSort_perm _ _).mem_iff

theorem length_normalizeCapsList (l : List Text) :
    (normalizeCapsList l).length = (l.foldl normalizeCap []).length :=
  (List.mergeSort_perm _ _).length_eq

/-- What is on a list in normal form stays on it. -/
theorem NormalCaps.mem_append {c add : List Text} (h : NormalCaps c) {t : Text} (ht : t ∈ c) :
    t ∈ normalizeCapsList (c ++ add) := by
  obtain ⟨new, hfold, -⟩ := foldl_normalizeCap_spec add c
  rw [mem_normalizeCapsList_iff, List.foldl_append, h.foldl_eq, hfold]
  exact List.mem_append_left _ ht

/-- What a grant names is on the list then, or the list is full. -/
theorem mem_merged_or_full {c raws : List Text} {raw : Text} (hraw : raw ∈ raws) (hcap : IsCap (blobCap raw)) :
    blobCap raw ∈ normalizeCapsList (c ++ normalizeCapsList raws)
      ∨ (normalizeCapsList (c ++ normalizeCapsList raws)).length = 32 := by
  have hadd := normalCaps_normalizeCapsList raws
  have hmerged := normalCaps_normalizeCapsList (c ++ normalizeCapsList raws)
  have hfits : ∀ t ∈ normalizeCapsList raws, t ∈ normalizeCapsList (c ++ normalizeCapsList raws)
      ∨ 32 ≤ (normalizeCapsList (c ++ normalizeCapsList raws)).length := by
    intro t ht
    have hself : blobCap t = t := (hadd.caps t ht).folded
    rw [mem_normalizeCapsList_iff, length_normalizeCapsList, ← hself]
    exact mem_foldl_normalizeCap (List.mem_append_right _ ht) (hself.symm ▸ hadd.caps t ht)
  by_cases hfull : 32 ≤ (normalizeCapsList (c ++ normalizeCapsList raws)).length
  · exact .inr (Nat.le_antisymm hmerged.short hfull)
  · left
    have hsub : normalizeCapsList raws ⊆ normalizeCapsList (c ++ normalizeCapsList raws) :=
      fun t ht => (hfits t ht).resolve_right hfull
    have hlen := (hadd.nodup.subperm hsub).length_le
    have hmem : blobCap raw ∈ normalizeCapsList raws ∨ 32 ≤ (normalizeCapsList raws).length := by
      rw [mem_normalizeCapsList_iff, length_normalizeCapsList]
      exact mem_foldl_normalizeCap hraw hcap
    exact hsub (hmem.resolve_right (by omega))

/-! ## Capabilities that the shard knows -/

theorem parse_blobCap (raw : Text) : Capability.parse (blobCap raw) = Capability.parse raw := by
  rw [Capability.parse, parseToken, parseToken, blobCap, Text.lower_trim_idem]

instance (t : Text) : Decidable (IsCap t) :=
  decidable_of_iff (t ≠ [] ∧ Text.byteLen t ≤ 64 ∧ t.all isCapChar = true
      ∧ Text.toAsciiLowercase (Text.trim t) = t)
    ⟨fun ⟨hne, hshort, hchars, hfolded⟩ => ⟨hne, hshort, hchars, hfolded⟩,
      fun h => ⟨h.nonempty, h.short, h.chars, h.folded⟩⟩

/-- The names of capabilities may stand on a list. -/
theorem isCap_of_parse {raw : Text} {cap : Capability} (h : Capability.parse raw = some cap) :
    IsCap (blobCap raw) := by
  obtain ⟨e, he, -⟩ := Option.map_eq_some_iff.mp h
  have hname : e.1.toList = blobCap raw := by
    have := List.find?_some he
    exact of_decide_eq_true this
  rw [← hname]
  refine (?_ : ∀ e ∈ _, IsCap e.1.toList) e (List.mem_of_find?_eq_some he)
  decide

/-! ## Grants -/

namespace Accounts

/-- The accounts after an operation, whether or not it could be saved. -/
def step (a : Accounts) (op : AccountOp) : Accounts :=
  match a.apply op with
  | .save a' _ _ => a'
  | .answer _ => a

def after (a : Accounts) (ops : List AccountOp) : Accounts := ops.foldl step a

/-- The list of an account. -/
def capsOf (a : Accounts) (n : Text) : List Text := ((a.get n).bind AccountRec.caps).getD []

/-- The operation grants `cap` to the account `n`: it names the capability, and so does the list in its
answer. -/
def Grants (a : Accounts) (n : Text) (cap : Capability) : AccountOp → Prop
  | .grantAccountCaps name raws => sanitizeName name = n ∧ ∃ raw ∈ raws, Capability.parse raw = some cap
    ∧ ∃ a' has caps, a.grantAccountCaps name raws = .save a' (.admin (.okAccount n has caps)) .error
      ∧ ∃ t ∈ caps, Capability.parse t = some cap
  | _ => False

/-- Some operation of the history granted `cap` to the account `n`. -/
def Granted (n : Text) (cap : Capability) : Accounts → List AccountOp → Prop
  | _, [] => False
  | a, op :: ops => a.Grants n cap op ∨ Granted n cap (a.step op) ops

theorem capsOf_insert (a : Accounts) (r : AccountRec) (n : Text) :
    (a.insert r).capsOf n = if n = r.name then r.caps.getD [] else a.capsOf n := by
  rw [capsOf, get_insert]
  split
  · rfl
  · rfl

theorem capsOf_of_get {a : Accounts} {n : Text} {r : AccountRec} (h : a.get n = some r) :
    a.capsOf n = r.caps.getD [] := by
  rw [capsOf, h, Option.bind_some]

/-- An empty list is not stored. -/
theorem getD_listed (l : List Text) : (if l.isEmpty then none else some l).getD [] = l := by
  cases l <;> rfl

/-- **What a save stores**: a new record, or one with the list it had, or with a list that was added to. -/
theorem apply_save {a a' : Accounts} {op : AccountOp} {ok failed : Answer}
    (h : a.apply op = .save a' ok failed) : ∃ r', a' = a.insert r' ∧
      (a.get r'.name = none ∨ op = .insertNew r' ∨ ∃ r, a.get r'.name = some r
        ∧ (r'.caps.getD [] = r.caps.getD [] ∨ ∃ add, r'.caps.getD [] = normalizeCapsList (r.caps.getD [] ++ add))) := by
  cases op with
  | emailSet name raw =>
    dsimp only [apply, emailSet] at h
    split at h
    · cases h
    · split at h
      · cases h
      · next r hr =>
        split at h
        · cases h
        · cases h
          exact ⟨_, rfl, .inr (.inr ⟨r, (get_name hr).symm ▸ hr, .inl rfl⟩)⟩
  | emailClear name =>
    dsimp only [apply, emailClear] at h
    split at h
    · cases h
    · next r hr =>
      split at h
      · cases h
      · cases h
        exact ⟨_, rfl, .inr (.inr ⟨r, (get_name hr).symm ▸ hr, .inl rfl⟩)⟩
  | createAccountPassword name password caps hash nowUnix =>
    dsimp only [apply, createAccountPassword, withPassword] at h
    split at h
    · cases h
    · split at h
      · cases h
      · split at h
        · cases h
        · split at h
          · cases h
          · next hr =>
            cases h
            exact ⟨_, rfl, .inl hr⟩
  | setAccountPassword name password hash =>
    dsimp only [apply, setAccountPassword, withPassword] at h
    split at h
    · cases h
    · split at h
      · cases h
      · split at h
        · cases h
        · split at h
          · cases h
          · next r hr =>
            cases h
            exact ⟨_, rfl, .inr (.inr ⟨r, (get_name hr).symm ▸ hr, .inl rfl⟩)⟩
  | grantAccountCaps name caps =>
    dsimp only [apply, grantAccountCaps] at h
    split at h
    · cases h
    · split at h
      · cases h
      · split at h
        · cases h
        · next r hr =>
          cases h
          exact ⟨_, rfl, .inr (.inr ⟨r, (get_name hr).symm ▸ hr, .inr ⟨normalizeCapsList caps, getD_listed _⟩⟩)⟩
  | insertNew r =>
    cases h
    exact ⟨r, rfl, .inr (.inl rfl)⟩
  | bindGoogle r =>
    dsimp only [apply, bindGoogle] at h
    split at h
    · split at h
      · cases h
      · cases h
    · next hr =>
      cases h
      exact ⟨r, rfl, .inl hr⟩
  | lookup n => cases h

/-- The list of an account that was there stays, or is added to. -/
theorem capsOf_step {a : Accounts} {n : Text} {r₀ : AccountRec} (hr₀ : a.get n = some r₀) {op : AccountOp}
    (hop : ∀ r, op = .insertNew r → r.name ≠ n) :
    (a.step op).capsOf n = a.capsOf n
      ∨ ∃ add, (a.step op).capsOf n = normalizeCapsList (a.capsOf n ++ add) := by
  rw [step]
  split
  · next a' ok failed h =>
    obtain ⟨r', rfl, hcase⟩ := apply_save h
    rw [capsOf_insert]
    split
    · next hn =>
      subst hn
      rw [capsOf_of_get hr₀]
      rcases hcase with hnone | rfl | ⟨r, hr, hcaps⟩
      · rw [hnone] at hr₀
        cases hr₀
      · exact (hop r' rfl rfl).elim
      · cases hr.symm.trans hr₀
        exact hcaps
    · exact .inl rfl
  · exact .inl rfl

theorem get_step {a : Accounts} {n : Text} {r : AccountRec} (hr : a.get n = some r) (op : AccountOp) :
    ∃ r', (a.step op).get n = some r' := by
  rw [step]
  split
  · next a' ok failed h =>
    obtain ⟨r', rfl, -⟩ := apply_save h
    rw [get_insert]
    split
    · exact ⟨r', rfl⟩
    · exact ⟨r, hr⟩
  · exact ⟨r, hr⟩

/-- The account has a list in normal form, with this capability on it. -/
structure Lists (a : Accounts) (n t : Text) : Prop where
  there : ∃ r, a.get n = some r
  normal : NormalCaps (a.capsOf n)
  listed : t ∈ a.capsOf n

/-- **A listed capability stays listed.** -/
theorem Lists.step {a : Accounts} {n t : Text} (h : a.Lists n t) {op : AccountOp}
    (hop : ∀ r, op = .insertNew r → r.name ≠ n) : (a.step op).Lists n t := by
  obtain ⟨r, hr⟩ := h.there
  refine ⟨get_step hr op, ?_, ?_⟩
  · rcases capsOf_step hr hop with hsame | ⟨add, hadd⟩
    · rw [hsame]
      exact h.normal
    · rw [hadd]
      exact normalCaps_normalizeCapsList _
  · rcases capsOf_step hr hop with hsame | ⟨add, hadd⟩
    · rw [hsame]
      exact h.listed
    · rw [hadd]
      exact h.normal.mem_append h.listed

theorem Lists.after {a : Accounts} {n t : Text} (h : a.Lists n t) {ops : List AccountOp}
    (hops : ∀ r, AccountOp.insertNew r ∈ ops → r.name ≠ n) : (a.after ops).Lists n t := by
  induction ops generalizing a with
  | nil => exact h
  | cons op ops ih =>
    have hstep := h.step fun r hr => hops r (hr ▸ List.mem_cons_self)
    exact ih hstep fun r hr => hops r (List.mem_cons_of_mem _ hr)

/-- A grant lists what it grants. -/
theorem Grants.lists {a : Accounts} {n : Text} {cap : Capability} {op : AccountOp} (h : a.Grants n cap op) :
    ∃ t, (a.step op).Lists n t ∧ Capability.parse t = some cap := by
  cases op with
  | grantAccountCaps name raws =>
    obtain ⟨rfl, -, -, -, a', has, caps, hsave, t, hcaps, hparse⟩ := h
    refine ⟨t, ?_, hparse⟩
    have hstep : a.step (.grantAccountCaps name raws) = a' := by
      rw [step, apply, hsave]
    rw [hstep]
    dsimp only [grantAccountCaps] at hsave
    split at hsave
    · cases hsave
    · split at hsave
      · cases hsave
      · split at hsave
        · cases hsave
        · next r hr =>
          let r' : AccountRec := { r with
            caps := if (merged r (normalizeCapsList raws)).isEmpty then none
              else some (merged r (normalizeCapsList raws)) }
          have hget : (a.insert r').get (sanitizeName name) = some r' := by
            rw [get_insert, if_pos (get_name hr).symm]
          have hcapsOf : (a.insert r').capsOf (sanitizeName name) = merged r (normalizeCapsList raws) := by
            rw [capsOf_of_get hget]
            exact getD_listed _
          cases hsave
          refine ⟨⟨r', hget⟩, ?_, ?_⟩
          · rw [hcapsOf]
            exact normalCaps_normalizeCapsList _
          · rw [hcapsOf]
            exact hcaps
  | _ => exact h.elim

/-- A request that is answered grants what it names, or its list is full. -/
theorem grants_or_full {a a' : Accounts} {name : Text} {raws caps : List Text} {has : Bool}
    (hsave : a.grantAccountCaps name raws = .save a' (.admin (.okAccount (sanitizeName name) has caps)) .error)
    {raw : Text} (hraw : raw ∈ raws) {cap : Capability} (hparse : Capability.parse raw = some cap) :
    a.Grants (sanitizeName name) cap (.grantAccountCaps name raws) ∨ caps.length = 32 := by
  have hcaps : ∃ r : AccountRec, caps = merged r (normalizeCapsList raws) := by
    dsimp only [grantAccountCaps] at hsave
    split at hsave
    · cases hsave
    · split at hsave
      · cases hsave
      · split at hsave
        · cases hsave
        · next r hr =>
          cases hsave
          exact ⟨r, rfl⟩
  obtain ⟨r, rfl⟩ := hcaps
  rcases mem_merged_or_full (c := r.caps.getD []) hraw (isCap_of_parse hparse) with hmem | hfull
  · exact .inl ⟨rfl, raw, hraw, hparse, a', has, _, hsave, blobCap raw, hmem, (parse_blobCap raw).trans hparse⟩
  · exact .inr hfull

/-- **A granted capability is on the list**, whatever was done after the grant. -/
theorem Granted.lists {a : Accounts} {n : Text} {cap : Capability} {ops : List AccountOp}
    (h : Granted n cap a ops) (hops : ∀ r, AccountOp.insertNew r ∈ ops → r.name ≠ n) :
    ∃ t, (a.after ops).Lists n t ∧ Capability.parse t = some cap := by
  induction ops generalizing a with
  | nil => exact h.elim
  | cons op ops ih =>
    have hrest : ∀ r, AccountOp.insertNew r ∈ ops → r.name ≠ n := fun r hr => hops r (List.mem_cons_of_mem _ hr)
    rcases h with hgrant | hlater
    · obtain ⟨t, hlists, hparse⟩ := hgrant.lists
      exact ⟨t, hlists.after hrest, hparse⟩
    · exact ih hlater hrest

end Accounts

/-! ## Reaching the shard -/

/-- A list in normal form goes into the blob as it is. -/
theorem blobCaps_normal {c : List Text} (h : NormalCaps c) (hne : c ≠ []) : blobCaps (some c) = some c := by
  have hmap : c.map blobCap = c := by
    conv_rhs => rw [← List.map_id c]
    exact List.map_congr_left fun t ht => (h.caps t ht).folded
  have hfilter : c.filter (fun s => !s.isEmpty && decide (Text.byteLen s ≤ 64)) = c := by
    rw [List.filter_eq_self]
    intro t ht
    have hcap := h.caps t ht
    have hnil : t.isEmpty = false := List.isEmpty_eq_false_iff.mpr hcap.nonempty
    simp [hnil, hcap.short]
  have hc : c.isEmpty = false := List.isEmpty_eq_false_iff.mpr hne
  rw [blobCaps, Option.map_some, hmap, hfilter, List.take_of_length_le h.short]
  exact Option.filter_some_pos (by simp [hc])

/-- What the shard reads of a blob. -/
theorem capsFromAttach_print (blob : AuthBlob) :
    capsFromAttach cfg.auth (some (cfg.auth.print blob)) = (blob.caps.getD []).filterMap Capability.parse := by
  rw [capsFromAttach, Option.bind_some, cfg.auth.parse_print, Option.bind_some]

/-- Every one of these capabilities comes with the login: from the account, or by itself. -/
def CapsSource.Brings (G : Capability → Prop) : CapsSource → Prop
  | .account => True
  | .own caps => ∀ cap, G cap → ∃ t ∈ (blobCaps caps).getD [], Capability.parse t = some cap

theorem login?_eq_some {flow : Flow Auth} {c : Conn Auth} (h : flow.login? = some c) : c.LoggedIn := by
  cases flow with
  | next c' =>
    rw [Flow.login?] at h
    split at h
    · next hc =>
      cases h
      exact hc
    · cases h
  | leave c' => cases h
  | fail => cases h

theorem Conn.LoggedIn.past {c : Conn Auth} {blob : Option Auth} (h : c.LoggedIn) (hblob : c.authBlob = blob) :
    c.Past blob := by
  refine ⟨hblob, fun hin => ?_⟩
  rcases h with hstate | hstate
  · simp [LoggingIn, hstate] at hin
  · simp [LoggingIn, hstate] at hin

/-- **Granted capabilities reach the shard** with every login by password, and with other logins just
when they come with these. -/
theorem granted_caps_reach_shard_iff {a : Accounts} {n : Text} {ops : List AccountOp}
    (hops : ∀ r, AccountOp.insertNew r ∈ ops → r.name ≠ n) {s s' : Shared cfg.ip Raw Auth}
    (hs : s.acct.store = a.after ops) {line : List Byte} {c c' c'' : Conn Auth} {es : List Env}
    {flow : Flow Auth} (hc : c.LoggingIn)
    (hrun : (Handler.handleLine cfg k line c).run (Shared.effect cfg) es s = some (flow, s'))
    (hlogin : flow.login? = some c') (hn : c'.name = some n) (hlater : c'.Later cfg k c'')
    {info : SessionInfo Auth} {blob : Auth} (hinfo : c''.Enters cfg info)
    (hsent : (attachBody cfg.authLen k info).auth = some blob) :
    (∀ cap, Accounts.Granted n cap a ops → cap ∈ capsFromAttach cfg.auth (some blob))
      ↔ (c.capsSource cfg line).Brings fun cap => Accounts.Granted n cap a ops := by
  by_cases hany : ∃ cap, Accounts.Granted n cap a ops
  · obtain ⟨cap₀, hgranted₀⟩ := hany
    obtain ⟨t₀, hlists₀, -⟩ := hgranted₀.lists hops
    obtain ⟨r, hr⟩ := hlists₀.there
    obtain ⟨b, hb, hcaps⟩ := login_carries hc hrun c' hlogin n r hn (hs ▸ hr)
    -- the blob that is sent is the one of the login
    have hpast := ((login?_eq_some hlogin).past hb).later hlater
    have hauth := hinfo.auth hpast.blob
    have hblob : blob = cfg.auth.print b := by
      rw [attachBody, hauth, Option.filter_eq_some_iff] at hsent
      exact (Option.some.inj hsent.1).symm
    rw [hblob, capsFromAttach_print, hcaps]
    cases hsrc : c.capsSource cfg line with
    | account =>
      refine ⟨fun _ => trivial, fun _ cap hgranted => ?_⟩
      obtain ⟨t, hlists, hparse⟩ := hgranted.lists hops
      have hlisted := hlists.listed
      have hnormal := hlists.normal
      rw [Accounts.capsOf_of_get hr] at hlisted hnormal
      cases hrcaps : r.caps with
      | none =>
        rw [hrcaps] at hlisted
        cases hlisted
      | some l =>
        rw [hrcaps, Option.getD_some] at hlisted hnormal
        rw [CapsSource.caps, hrcaps, blobCaps_normal hnormal (List.ne_nil_of_mem hlisted), Option.getD_some]
        exact List.mem_filterMap.mpr ⟨t, hlisted, hparse⟩
    | own caps =>
      dsimp only [CapsSource.caps, CapsSource.Brings]
      constructor
      · intro hall cap hgranted
        exact List.mem_filterMap.mp (hall cap hgranted)
      · intro hall cap hgranted
        exact List.mem_filterMap.mpr (hall cap hgranted)
  · have hnone : ∀ cap, ¬ Accounts.Granted n cap a ops := fun cap h => hany ⟨cap, h⟩
    constructor
    · intro _
      cases c.capsSource cfg line with
      | account => trivial
      | own caps => exact fun cap h => (hnone cap h).elim
    · exact fun _ cap h => (hnone cap h).elim

/-! ## Alice is promoted -/

def aliceRec : AccountRec :=
  { AccountRec.withPassword "alice".toList (plainHash 7 (Utf8.encode "correct horse".toList)) none 0 with
    googleSub := some "g1".toList }

def alicePromoted : List AccountOp := [.grantAccountCaps "alice".toList ["admin.all".toList]]

/-- The accounts before that. -/
def aliceBefore : Accounts := Accounts.empty.insert aliceRec

/-- Alice as an admin. -/
def aliceAdmin : AccountRec := { aliceRec with caps := some ["admin.all".toList] }

theorem alice_grant : aliceBefore.grantAccountCaps "alice".toList ["admin.all".toList]
    = .save (aliceBefore.insert aliceAdmin) (.admin (.okAccount "alice".toList true ["admin.all".toList])) .error := by
  have hname : sanitizeName "alice".toList = "alice".toList := by decide
  have hfold : ["admin.all".toList].foldl normalizeCap [] = ["admin.all".toList] := by decide
  have hnorm : normalizeCapsList ["admin.all".toList] = ["admin.all".toList] := by
    rw [normalizeCapsList, hfold, List.mergeSort_singleton]
  have hget : aliceBefore.get "alice".toList = some aliceRec :=
    (Accounts.get_insert _ _ _).trans (if_pos rfl)
  have hmerged : Accounts.merged aliceRec ["admin.all".toList] = ["admin.all".toList] := hnorm
  dsimp only [Accounts.grantAccountCaps]
  rw [hname, if_neg (by decide), hnorm, if_neg (by decide), hget]
  dsimp only
  rw [hmerged, if_neg (by decide)]
  rfl

theorem alice_granted : Accounts.Granted "alice".toList .adminAll aliceBefore alicePromoted :=
  .inl ⟨by decide, "admin.all".toList, List.mem_cons_self, by decide, _, _, _, alice_grant,
    "admin.all".toList, List.mem_cons_self, by decide⟩

theorem alice_get : (aliceBefore.after alicePromoted).get "alice".toList = some aliceAdmin := by
  have hstep : aliceBefore.after alicePromoted = aliceBefore.insert aliceAdmin := by
    dsimp only [Accounts.after, alicePromoted, List.foldl, Accounts.step, Accounts.apply]
    rw [alice_grant]
  rw [hstep, Accounts.get_insert]
  exact if_pos rfl

/-- She types her password, and is an admin in the world. -/
theorem granted_caps_reach_shard_alice : ∃ (c : Conn (Option AuthBlob)) (blob : Option AuthBlob),
    c.name = some "alice".toList
      ∧ (attachBody BrokerConfig.plain.authLen 0 (c.createdSession BrokerConfig.plain)).auth = some blob
      ∧ Capability.adminAll ∈ capsFromAttach BrokerConfig.plain.auth (some blob) := by
  let s := Shared.idle (aliceBefore.after alicePromoted)
  let c : Conn (Option AuthBlob) :=
    { Conn.new (.v4 0) 0 with name := some "alice".toList, state := .needPasswordLogin }
  let line := tagged .client (Utf8.encode "correct horse".toList)
  have hverify : BrokerConfig.plain.verifyPassword (trimAsciiWs (values line))
      (plainHash 7 (Utf8.encode "correct horse".toList)) = true := by decide
  obtain ⟨es, flow, s', hes, hrun⟩ := @Handler.needPasswordLogin_runs _ _ .plain 0 s line c _ _ alice_get rfl hverify
  rcases Handler.needPasswordLogin_spec rfl hrun with ⟨r, hash, c', hr, -, -, hlogin, hname, hblob⟩ | ⟨-, hno⟩
  · have hsent : (attachBody BrokerConfig.plain.authLen 0 (c'.createdSession BrokerConfig.plain)).auth
        = some (BrokerConfig.plain.auth.print (passwordBlob "alice".toList r.caps)) := by
      dsimp only [attachBody, Conn.createdSession]
      rw [hblob]
      rfl
    have hops : ∀ r, AccountOp.insertNew r ∈ alicePromoted → r.name ≠ "alice".toList := by
      simp [alicePromoted]
    have hstore : s.acct.store = aliceBefore.after alicePromoted := rfl
    have hline : (Handler.handleLine .plain 0 line c).run (Shared.effect .plain) es s = some (flow, s') := hrun
    have hreach := granted_caps_reach_shard_iff hops hstore (.inr (.inr (.inr (.inr rfl)))) hline hlogin hname
      .refl .created hsent
    exact ⟨c', _, hname, hsent, hreach.mpr trivial _ alice_granted⟩
  · rw [hno hes _ _ alice_get rfl] at hverify
    cases hverify

/-- She signs in with Google by telnet, and is nobody special. -/
theorem granted_caps_lost : ∃ (s s' : Shared BrokerConfig.plain.ip (Option (List PlayerSnapshot)) (Option AuthBlob))
    (line : List Byte) (es : List Env) (c c' : Conn (Option AuthBlob)) (blob : Option AuthBlob),
    s.acct.store = aliceBefore.after alicePromoted
      ∧ Accounts.Granted "alice".toList .adminAll aliceBefore alicePromoted
      ∧ c.LoggingIn ∧ (Handler.handleLine .plain 0 line c).run (Shared.effect .plain) es s = some (.next c', s')
      ∧ c'.LoggedIn ∧ c'.name = some "alice".toList
      ∧ (attachBody BrokerConfig.plain.authLen 0 (c'.createdSession .plain)).auth = some blob
      ∧ Capability.adminAll ∉ capsFromAttach BrokerConfig.plain.auth (some blob) := by
  let code : Text := "code".toList
  let idle := Shared.idle (aliceBefore.after alicePromoted)
  let signedIn : GoogleOAuthPending := ⟨code, "ok".toList, 0, some "g1".toList, none, none⟩
  let s : Shared BrokerConfig.plain.ip (Option (List PlayerSnapshot)) (Option AuthBlob) :=
    { idle with io := { idle.io with oauth := idle.io.oauth.insert code signedIn } }
  let s₁ : Shared BrokerConfig.plain.ip (Option (List PlayerSnapshot)) (Option AuthBlob) :=
    { s with io := { s.io with oauth := s.io.oauth.erase code } }
  let c : Conn (Option AuthBlob) :=
    { Conn.new (.v4 0) 0 with
      name := some "alice".toList, state := .needGoogleWait, googleOauthCode := some code }
  let line := tagged .client (Utf8.encode "check".toList)
  let blob := providerBlob .google "alice".toList "g1".toList none none
  let c₁ : Conn (Option AuthBlob) := { c.setIdentity .google "g1".toList none with
    authBlob := some (some blob), googleOauthCode := none }
  obtain ⟨es, flow, s', hquiet, hrun⟩ := @Handler.enterOrCreate_runs _ _ .plain 0 "\r\n" c₁ s₁
  obtain ⟨-, ⟨c', rfl, hlogged, hname, hblob⟩ | ⟨-, e, he, hlog⟩⟩ := Handler.enterOrCreate_spec hrun
  swap
  · rw [(hquiet e he).2] at hlog
    cases hlog
  have hsignedIn : (Handler.googleSignedIn .plain 0 code "g1".toList none 0 c).run (Shared.effect .plain)
      ([Handler.quiet] ++ ([Handler.quiet] ++ es)) s = some (.next c', s') := by
    refine Program.run_bind.mpr ⟨_, _, .bound true, s, rfl, Program.run_op.mpr ⟨Handler.quiet, rfl, ?_⟩, ?_⟩
    · have heffect : s.acct.effect Handler.quiet
          (.bindGoogle (.linked .google "alice".toList "g1".toList none 0)) = (.bound true, s.acct) := by
        have hget : s.acct.store.get "alice".toList = some aliceAdmin := alice_get
        simp only [AcctState.effect, AccountRec.linked, hget]
        exact if_neg (by decide)
      exact congrArg (fun x => some (x.1, { s with acct := x.2 })) heffect
    · exact Program.run_bind.mpr ⟨_, _, (), s₁, rfl, rfl, hrun⟩
  have hcheck : (Handler.handleLine .plain 0 line c).run (Shared.effect .plain)
      ([Handler.quiet] ++ ([Handler.quiet] ++ ([Handler.quiet] ++ ([Handler.quiet] ++ es)))) s = some (.next c', s') := by
    have hprog : Handler.handleLine .plain 0 line c = Handler.checkGoogle .plain 0 code c := by
      rfl
    rw [hprog]
    refine Program.run_bind.mpr ⟨[Handler.quiet], _, .found signedIn, s, rfl, rfl, ?_⟩
    refine Program.run_bind.mpr ⟨[Handler.quiet], _, 0, s, rfl, rfl, ?_⟩
    exact hsignedIn
  refine ⟨s, s', line, _, c, c', some blob, rfl, alice_granted, .inr (.inr (.inl rfl)), hcheck, hlogged, hname, ?_, ?_⟩
  · dsimp only [attachBody, Conn.createdSession]
    rw [hblob]
    rfl
  · decide

end Slopmud.Broker
