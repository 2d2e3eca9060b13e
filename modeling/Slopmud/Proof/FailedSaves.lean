import Slopmud.Broker.Books
import Slopmud.Broker.Caps
import Slopmud.Sbc.IpText

/-!
# Saves that fail

Every operation on the accounts and the bans changes memory first, so a failed
save leaves no trace only when the change was none: when what would be written is
what is there. Three of the operations look for that before they do anything, and
those never fail without a trace.
-/

namespace Slopmud.Broker

open Slopmud.Sbc

variable {Raw : Type}

/-! ## Accounts -/

namespace Accounts

theorem same_insert_iff {a : Accounts} {r : AccountRec} :
    Same (a.insert r) a ↔ a.get r.name = some r := by
  constructor
  · intro h
    have hr := h r.name
    rw [get_insert, if_pos rfl] at hr
    exact hr.symm
  · intro h n
    rw [get_insert]
    split
    · next heq => rw [heq, h]
    · rfl

/-- What an operation answers depends on the records under their names. -/
theorem told_congr {a a' : Accounts} (h : Same a' a) (o : AccountOp) :
    (a'.apply o).told = (a.apply o).told := by
  cases o with
  | emailSet name raw =>
    simp only [apply, emailSet, h name]
    repeat' split
    all_goals rfl
  | emailClear name =>
    simp only [apply, emailClear, h name]
    repeat' split
    all_goals rfl
  | createAccountPassword name password caps hash nowUnix =>
    simp only [apply, createAccountPassword, withPassword, h (sanitizeName name)]
    repeat' split
    all_goals rfl
  | setAccountPassword name password hash =>
    simp only [apply, setAccountPassword, withPassword, h (sanitizeName name)]
    repeat' split
    all_goals rfl
  | grantAccountCaps name caps =>
    simp only [apply, grantAccountCaps, h (sanitizeName name)]
    repeat' split
    all_goals rfl
  | insertNew r => rfl
  | bindGoogle r =>
    simp only [apply, bindGoogle, h r.name]
    repeat' split
    all_goals rfl
  | lookup n =>
    simp only [apply, h n]

end Accounts

/-- `Accounts` with its file: `fs::write`, `fs::rename`. -/
def accountsBook (J : Codec Raw (List AccountRec)) : WriteThrough Raw Accounts AccountOp Answer where
  steps := [.write]
  steps_safe := by simp
  load := Accounts.load J true
  print := Accounts.print J
  apply := Accounts.apply
  Same := Accounts.Same
  told_congr := Accounts.told_congr
  Agree := Accounts.Same
  agree_congr h hs n := (h n).trans (hs n).symm

/-- The operation would write what is there. -/
def AccountOp.AlreadyThere (a : Accounts) : AccountOp → Prop
  | .setAccountPassword name _ hash => ∃ r, a.get (sanitizeName name) = some r ∧ r.pwHash = hash
  | .grantAccountCaps name caps => ∃ r c, a.get (sanitizeName name) = some r ∧ r.caps = some c
    ∧ NormalCaps c ∧ ∀ t ∈ normalizeCapsList caps, t ∈ c ∨ 32 ≤ c.length
  | .insertNew r => a.get r.name = some r
  | _ => False

namespace Accounts

/-- A changed record is the same only if it was not changed. -/
theorem same_change_iff {a : Accounts} {r r' : AccountRec} {n : Text} (hr : a.get n = some r)
    (hname : r'.name = r.name) : Same (a.insert r') a ↔ r' = r := by
  rw [same_insert_iff, hname, get_name hr, hr, Option.some.injEq, eq_comm]

theorem merged_ne_nil {r : AccountRec} {caps : List Text} (h : (normalizeCapsList caps).isEmpty = false) :
    merged r (normalizeCapsList caps) ≠ [] := by
  intro hnil
  obtain ⟨t, ht⟩ := List.exists_mem_of_ne_nil _ (List.isEmpty_eq_false_iff.mp h)
  have hfold : (r.caps.getD [] ++ normalizeCapsList caps).foldl normalizeCap [] = [] := by
    have hperm := List.mergeSort_perm ((r.caps.getD [] ++ normalizeCapsList caps).foldl normalizeCap [])
      fun a b => decide (a ≤ b)
    rw [← normalizeCapsList, ← merged, hnil] at hperm
    exact hperm.symm.eq_nil
  rw [List.foldl_append] at hfold
  obtain ⟨new, hnew, -⟩ := foldl_normalizeCap_spec (r.caps.getD []) []
  obtain ⟨new', hnew', -⟩ := foldl_normalizeCap_spec (normalizeCapsList caps) ([] ++ new)
  rw [hnew, hnew', List.append_eq_nil_iff] at hfold
  rw [hfold.1, hfold.2] at hnew'
  have hthere := (foldl_normalizeCap_eq_self_iff
    (normalCaps_normalizeCapsList caps).caps).mp hnew' t ht
  simp at hthere

/-- When a grant leaves the capabilities of an account as they were. -/
theorem granted_iff {a : Accounts} {name : Text} {caps : List Text} {r : AccountRec}
    (hr : a.get (sanitizeName name) = some r) :
    r.caps = some (merged r (normalizeCapsList caps))
      ↔ (AccountOp.grantAccountCaps name caps).AlreadyThere a := by
  have hadd := (normalCaps_normalizeCapsList caps).caps
  constructor
  · intro hcaps
    have hnormal : NormalCaps (merged r (normalizeCapsList caps)) := normalCaps_normalizeCapsList _
    generalize hc : merged r (normalizeCapsList caps) = c at hcaps hnormal
    rw [merged, hcaps, Option.getD_some] at hc
    exact ⟨r, c, hr, hcaps, hnormal, (hnormal.append_eq_iff hadd).mp hc⟩
  · rintro ⟨r', c, hr', hc, hnormal, hthere⟩
    rw [hr] at hr'
    cases hr'
    rw [merged, hc, Option.getD_some, (hnormal.append_eq_iff hadd).mpr hthere]

/-- **When an operation changes nothing** by what it saves. -/
theorem same_save_iff {a : Accounts} {o : AccountOp} {s : Accounts} {ok failed : Answer}
    (h : a.apply o = .save s ok failed) : Same s a ↔ o.AlreadyThere a := by
  cases o with
  | emailSet name raw =>
    simp only [apply, emailSet] at h
    split at h
    · cases h
    · split at h
      · cases h
      · next r hr =>
        split at h
        · cases h
        · next hne =>
          cases h
          rw [same_change_iff hr]
          · refine ⟨fun heq => hne ?_, False.elim⟩
            rw [← heq]
          · rfl
  | emailClear name =>
    simp only [apply, emailClear] at h
    split at h
    · cases h
    · next r hr =>
      split at h
      · cases h
      · next hne =>
        cases h
        rw [same_change_iff hr]
        · refine ⟨fun heq => hne ?_, False.elim⟩
          rw [← heq]
        · rfl
  | createAccountPassword name password caps hash nowUnix =>
    simp only [apply, createAccountPassword, withPassword] at h
    split at h
    · cases h
    · split at h
      · cases h
      · split at h
        · cases h
        · split at h
          · cases h
          · next hnone =>
            cases h
            rw [same_insert_iff]
            refine ⟨fun hsome => ?_, False.elim⟩
            cases hnone.symm.trans hsome
  | setAccountPassword name password hash =>
    simp only [apply, setAccountPassword, withPassword] at h
    split at h
    · cases h
    · split at h
      · cases h
      · split at h
        · cases h
        · split at h
          · cases h
          · next hash' _ r hr =>
            cases h
            rw [same_change_iff hr]
            · constructor
              · intro heq
                exact ⟨r, hr, by rw [← heq]⟩
              · rintro ⟨r', hr', hpw⟩
                rw [hr] at hr'
                cases hr'
                rw [← hpw]
            · rfl
  | grantAccountCaps name caps =>
    simp only [apply, grantAccountCaps] at h
    split at h
    · cases h
    · split at h
      · cases h
      · next hadd =>
        split at h
        · cases h
        · next r hr =>
          have hne := merged_ne_nil (r := r) ((Bool.not_eq_true _).mp hadd)
          rw [if_neg (by rw [List.isEmpty_iff]; exact hne)] at h
          cases h
          rw [same_change_iff hr]
          · rw [← granted_iff hr]
            constructor
            · intro heq
              exact (congrArg AccountRec.caps heq).symm
            · intro hcaps
              rw [← hcaps]
          · rfl
  | insertNew r =>
    cases h
    exact same_insert_iff
  | bindGoogle r =>
    simp only [apply, bindGoogle] at h
    split at h
    · split at h
      · cases h
      · cases h
    · next hnone =>
      cases h
      rw [same_insert_iff]
      refine ⟨fun hsome => ?_, False.elim⟩
      cases hnone.symm.trans hsome
  | lookup n => cases h

end Accounts

/-! ## Bans -/

namespace BanState

variable {T : IpText}

theorem told_congr {st st' : BanState T} (h : Same st' st) (o : BanRequest) :
    (st'.apply o).told = (st.apply o).told := by
  cases o with
  | banCharacter name createdBy reason nowUnix =>
    simp only [apply, banCharacter, upsertCharBan]
    cases (sanitizeName name).isEmpty with
    | true => rfl
    | false => cases (Text.toAsciiLowercase (Text.trim (sanitizeName name))).isEmpty <;> rfl
  | banIpPrefix cidr createdBy reason nowUnix =>
    simp only [apply, banIpPrefix]
    cases hread : readCidr T cidr with
    | none =>
      have hnone : ∀ st : BanState T, st.upsertIpBan cidr nowUnix createdBy reason = none := by
        intro st
        by_contra hsome
        obtain ⟨st₁, hst₁⟩ := Option.ne_none_iff_exists'.mp hsome
        obtain ⟨pfx, hpfx, -⟩ := upsertIpBan_some hst₁
        rw [hread] at hpfx
        cases hpfx
      rw [hnone, hnone]
    | some pfx =>
      obtain ⟨st₁, hst₁⟩ := exists_upsertIpBan st hread nowUnix createdBy reason
      obtain ⟨st₂, hst₂⟩ := exists_upsertIpBan st' hread nowUnix createdBy reason
      rw [hst₁, hst₂]
      rfl
  | isCharBanned n =>
    simp only [apply, isCharBanned, h.chars _]
  | isIpBanned ip =>
    simp only [apply, isIpBanned, h.ips]

end BanState

/-- `BanState` with its file: `create_dir_all`, `fs::write`, `fs::rename`. -/
def bansBook (J : Codec Raw BanListFile) (T : IpText) :
    WriteThrough Raw (BanState T) BanRequest Answer where
  steps := [.createDir, .write]
  steps_safe := by simp
  load := BanState.load J true
  print := BanState.print J
  apply := BanState.apply
  Same := BanState.Same
  told_congr := BanState.told_congr
  Agree := BanState.SameBans
  agree_congr h hs :=
    { chars := fun n => (h.chars n).trans (hs.chars n).symm
      ips := fun e => by rw [hs.ips]; exact h.ips e
      updatedUnix := h.updatedUnix.trans hs.updatedUnix.symm }

/-- The request would write what is there: the ban is in the list as it was asked for, and a ban of
addresses is the last one. -/
def BanRequest.AlreadyThere {T : IpText} (st : BanState T) : BanRequest → Prop
  | .banCharacter name createdBy reason nowUnix =>
    let nameLc := Text.toAsciiLowercase (Text.trim (sanitizeName name))
    st.chars.lookup nameLc = some ⟨nameLc, nowUnix, createdBy, reason⟩ ∧ nowUnix ≤ st.updatedUnix
  | .banIpPrefix cidr createdBy reason nowUnix =>
    ∃ pfx front, readCidr T cidr = some pfx
      ∧ st.ips = front ++ [(pfx, ⟨pfx.toCidrString T, nowUnix, createdBy, reason⟩)]
      ∧ (∀ e ∈ front, e.1 ≠ pfx) ∧ nowUnix ≤ st.updatedUnix
  | _ => False

namespace BanState

variable {T : IpText}

/-- **When a request changes nothing** by what it saves. -/
theorem same_save_iff {st s : BanState T} {o : BanRequest} {ok failed : Answer}
    (h : st.apply o = .save s ok failed) : Same s st ↔ o.AlreadyThere st := by
  cases o with
  | banCharacter name createdBy reason nowUnix =>
    simp only [apply, banCharacter] at h
    split at h
    · cases h
    · split at h
      · cases h
      · next st' hst' =>
        cases h
        obtain ⟨hchars, hips, hunix⟩ := upsertCharBan_some hst'
        constructor
        · intro hsame
          have hlook := hsame.chars (Text.toAsciiLowercase (Text.trim (sanitizeName name)))
          rw [hchars, Table.lookup_insert_eq, if_pos rfl] at hlook
          have hmax := hsame.updatedUnix
          rw [hunix] at hmax
          exact ⟨hlook.symm, by omega⟩
        · rintro ⟨hlook, hle⟩
          refine ⟨fun n => ?_, hips, ?_⟩
          · rw [hchars, Table.lookup_insert_eq]
            split
            · next heq => rw [heq, hlook]
            · rfl
          · rw [hunix]
            exact max_eq_right hle
  | banIpPrefix cidr createdBy reason nowUnix =>
    simp only [apply, banIpPrefix] at h
    split at h
    · cases h
    · next st' hst' =>
      cases h
      obtain ⟨pfx, hread, hchars, hips, hunix⟩ := upsertIpBan_some hst'
      constructor
      · intro hsame
        have hmax := hsame.updatedUnix
        rw [hunix] at hmax
        refine ⟨pfx, _, hread, hsame.ips.symm.trans hips, ?_, by omega⟩
        intro e he
        simpa using (List.mem_filter.mp he).2
      · rintro ⟨pfx', front, hread', hfront, hother, hle⟩
        rw [hread] at hread'
        cases hread'
        refine ⟨fun n => by rw [hchars], ?_, ?_⟩
        · have hkeep : front.filter (fun e => e.1 ≠ pfx) = front :=
            List.filter_eq_self.mpr fun e he => by simpa using hother e he
          rw [hips, hfront, List.filter_append, hkeep]
          simp
        · rw [hunix]
          exact max_eq_right hle
  | isCharBanned n => cases h
  | isIpBanned ip => cases h

end BanState

/-! ## Both -/

/-- **A failed save leaves no trace exactly when there was nothing to write.** Whatever the state
in which memory and file agree, whichever operation, and at whichever step its save fails. -/
theorem failed_save_no_trace_iff {RawA RawB : Type} (JA : Codec RawA (List AccountRec))
    (JB : Codec RawB BanListFile) (T : IpText) :
    (∀ (x : WriteThrough.State RawA Accounts) (o : AccountOp) (fault : Option (Fault RawA)),
      (accountsBook JA).Consistent x → ((accountsBook JA).run x o fault).failed = true →
      ((accountsBook JA).NoTrace x ((accountsBook JA).run x o fault).state ↔ o.AlreadyThere x.mem)) ∧
    (∀ (x : WriteThrough.State RawB (BanState T)) (o : BanRequest) (fault : Option (Fault RawB)),
      (bansBook JB T).Consistent x → ((bansBook JB T).run x o fault).failed = true →
      ((bansBook JB T).NoTrace x ((bansBook JB T).run x o fault).state ↔ o.AlreadyThere x.mem)) := by
  constructor
  · intro x o fault hx hfailed
    obtain ⟨s, ok, failed, hs⟩ := (accountsBook JA).saves_of_failed hfailed
    rw [WriteThrough.noTrace_iff _ hx hs hfailed]
    exact Accounts.same_save_iff hs
  · intro x o fault hx hfailed
    obtain ⟨s, ok, failed, hs⟩ := (bansBook JB T).saves_of_failed hfailed
    rw [WriteThrough.noTrace_iff _ hx hs hfailed]
    exact BanState.same_save_iff hs

/-! ## One account -/

def alice : AccountRec := .withPassword "Alice".toList "hash".toList none 0

/-- The accounts as they are loaded from a file with one record. -/
def aliceOnly : WriteThrough.State (Option (List AccountRec)) Accounts :=
  let file := some (some [alice])
  ⟨Accounts.load (Codec.direct _) true file, ⟨true, none, file⟩⟩

/-- A login that inserts the record already there leaves no trace when the rename fails. -/
theorem failed_save_no_trace_alice :
    let A := accountsBook (Codec.direct (List AccountRec))
    let o : AccountOp := .insertNew alice
    A.Consistent aliceOnly ∧ (A.run aliceOnly o (some ⟨.rename, none⟩)).failed = true
      ∧ A.NoTrace aliceOnly (A.run aliceOnly o (some ⟨.rename, none⟩)).state := by
  have hsame : (accountsBook (Codec.direct (List AccountRec))).Consistent aliceOnly := fun _ => rfl
  refine ⟨hsame, rfl, ?_⟩
  exact ((failed_save_no_trace_iff (Codec.direct _) (Codec.direct _) IpText.plain).1 aliceOnly
    (.insertNew alice) (some ⟨.rename, none⟩) hsame rfl).mpr rfl

def aliceMail : Text := "alice@example.com".toList

/-- **The address that could not be saved is there all the same**: the player is told so when it is
set again, and after a restart it is gone. -/
theorem unsaved_email_stays :
    let A := accountsBook (Codec.direct (List AccountRec))
    let o : AccountOp := .emailSet "Alice".toList aliceMail
    let y := A.run aliceOnly o (some ⟨.write, none⟩)
    A.Consistent aliceOnly ∧ y.failed = true
      ∧ y.answer = prompted "account email: failed to save".toList
      ∧ (y.state.mem.get "Alice".toList).bind AccountRec.email = some aliceMail
      ∧ (A.run y.state o none).answer = prompted ("ok: email already set to ".toList ++ aliceMail)
      ∧ ((A.load y.state.disk.file).get "Alice".toList).bind AccountRec.email = none
      ∧ ¬ A.NoTrace aliceOnly y.state := by
  refine ⟨fun _ => rfl, rfl, rfl, rfl, rfl, rfl, ?_⟩
  intro h
  have hmail := congrArg (fun r => r.bind AccountRec.email) (h.memory "Alice".toList)
  revert hmail
  decide +kernel

end Slopmud.Broker
