import Slopmud.Web.AccessKeys

/-!
# An access key opens one session, if calls do not overlap

Each call writes back the list it has read, so a call that saves over a change it
has not seen undoes it: a key is used twice, or lost. What is proved here is that
nothing else goes wrong. As long as a call that saves has seen every key put in and
every key used up, each issued key is returned at most once and in time, and is in
the file until it is used or expires.

The invariant counts: an issued key is in the file or has been returned.
-/

namespace Slopmud.Web

open Machine

/-! ## One list of keys -/

/-- What a list of keys has to do with what was issued and returned. -/
structure Balanced (issued returned : List KeyRec) (latest : Nat) (keys : List KeyRec) : Prop where
  /-- No key is there that was returned, unless it was issued once more. -/
  atMost : ∀ r, returned.count r + keys.count r ≤ issued.count r
  /-- Every key is there until it is returned or expires. -/
  atLeast : ∀ r, r.usedUnix = none → latest ≤ r.expiresUnix →
    issued.count r ≤ returned.count r + keys.count r

variable {issued returned keys : List KeyRec} {latest now : Nat}

theorem kept_of_unexpired {r : KeyRec} (hunused : r.usedUnix = none) (hnow : now ≤ r.expiresUnix)
    (hlt : now < Word.maxU64) : r.kept now = true := by
  have hsat : Word.satAdd64 r.expiresUnix 3600 > now := by
    unfold Word.satAdd64
    omega
  simp [KeyRec.kept, hunused, hsat]

theorem count_filter_kept {r : KeyRec} (h : r.kept now = true) :
    (keys.filter (·.kept now)).count r = keys.count r := List.count_filter h

/-- **Pruning** leaves the balance. -/
theorem balanced_prune (h : Balanced issued returned latest keys) (hlt : now < Word.maxU64) :
    Balanced issued returned (max latest now) (keys.filter (·.kept now)) where
  atMost := by
    intro r
    have := h.atMost r
    have : (keys.filter (·.kept now)).count r ≤ keys.count r :=
      List.Sublist.count_le r List.filter_sublist
    omega
  atLeast := by
    intro r hunused hle
    rw [count_filter_kept (kept_of_unexpired hunused (by omega) hlt)]
    exact h.atLeast r hunused (by omega)

theorem balanced_mono {latest' : Nat} (h : Balanced issued returned latest keys)
    (hle : latest ≤ latest') : Balanced issued returned latest' keys where
  atMost := h.atMost
  atLeast := fun r hunused hexp => h.atLeast r hunused (by omega)

/-- **Issuing** a key adds it on both sides. -/
theorem balanced_issue (h : Balanced issued returned latest keys) (rec : KeyRec) :
    Balanced (issued ++ [rec]) returned latest (keys ++ [rec]) where
  atMost := by
    intro r
    have := h.atMost r
    simp only [List.count_append]
    omega
  atLeast := by
    intro r hunused hle
    have := h.atLeast r hunused hle
    simp only [List.count_append]
    omega

/-- What the loop does when it finds the key: it was there, unused and in time, and one of its
occurrences is now marked. -/
theorem markLoop_found {hash : Text} {r : KeyRec} {keys' : List KeyRec}
    (h : markLoop hash now keys = .found r keys') :
    r.usedUnix = some now ∧ now ≤ r.expiresUnix ∧ r.asIssued ∈ keys ∧
    ∀ k, keys'.count k + (if k = r.asIssued then 1 else 0)
      = keys.count k + (if k = r then 1 else 0) := by
  induction keys generalizing keys' with
  | nil => cases h
  | cons k ks ih =>
      rw [markLoop] at h
      split at h
      · split at h
        · cases h
        · split at h
          · cases h
          · rename_i hused hexp
            simp only [MarkResult.found.injEq] at h
            obtain ⟨rfl, rfl⟩ := h
            have hnone : k.usedUnix = none := by simpa using hused
            have hissued : ({ k with usedUnix := some now } : KeyRec).asIssued = k := by
              obtain ⟨h₁, h₂, h₃, h₄, h₅⟩ := k
              simp only at hnone
              rw [hnone]
              rfl
            refine ⟨rfl, by simp only; omega, by rw [hissued]; exact List.mem_cons_self, ?_⟩
            intro k'
            rw [hissued, List.count_cons, List.count_cons]
            simp only [beq_iff_eq, eq_comm (a := k')]
            omega
      · cases hrest : markLoop hash now ks with
        | missing => rw [hrest] at h; cases h
        | refused => rw [hrest] at h; cases h
        | found r' ks' =>
            rw [hrest] at h
            simp only [MarkResult.found.injEq] at h
            obtain ⟨rfl, rfl⟩ := h
            obtain ⟨hused, hle, hmem, hcount⟩ := ih hrest
            refine ⟨hused, hle, List.mem_cons_of_mem _ hmem, ?_⟩
            intro k'
            have := hcount k'
            rw [List.count_cons, List.count_cons]
            omega

/-- **Using up** a key moves it from the file to what was returned. -/
theorem balanced_mark {hash : Text} {r : KeyRec} {keys' : List KeyRec}
    (h : Balanced issued returned latest keys) (hlt : now < Word.maxU64)
    (hfound : markLoop hash now keys = .found r keys') :
    Balanced issued (returned ++ [r.asIssued]) (max latest now) (keys'.filter (·.kept now)) := by
  obtain ⟨hused, hle, hmem, hcount⟩ := markLoop_found hfound
  have hgone : r.kept now = false := by simp [KeyRec.kept, hused]
  -- what is kept of the marked list is what is kept of the list without the key
  have hkept : ∀ k, k.kept now = true → keys'.count k + (if k = r.asIssued then 1 else 0)
      = keys.count k := by
    intro k hk
    have := hcount k
    rw [if_neg (c := k = r) (by intro heq; rw [heq, hgone] at hk; cases hk)] at this
    exact this
  constructor
  · intro k
    have hmost := h.atMost k
    rw [List.count_append, List.count_singleton]
    simp only [beq_iff_eq, eq_comm (a := r.asIssued)]
    by_cases hk : k.kept now = true
    · rw [count_filter_kept hk]
      have := hkept k hk
      omega
    · have hzero : (keys'.filter (·.kept now)).count k = 0 :=
        List.count_eq_zero.mpr fun hin => hk (List.mem_filter.mp hin).2
      rw [hzero]
      have : k = r.asIssued → 0 < keys.count k := by
        rintro rfl
        exact List.count_pos_iff.mpr hmem
      split
      · have := this ‹_›
        omega
      · omega
  · intro k hunused hexp
    have hk : k.kept now = true := kept_of_unexpired hunused (by omega) hlt
    have := h.atLeast k hunused (by omega)
    have := hkept k hk
    rw [count_filter_kept hk, List.count_append, List.count_singleton]
    simp only [beq_iff_eq, eq_comm (a := r.asIssued)]
    omega

/-! ## The file and the calls -/

/-- The keys of a file that was read. -/
def keysOf (db : Option KeyDb) : List KeyRec := (db.map KeyDb.keys).getD []

/-- The records returned, as they were issued. -/
def KeyFile.returnedKeys (s : KeyFile) : List KeyRec := s.returned.map fun p => p.1.asIssued

/-- The invariant of runs in which calls do not save over changes they have not seen. -/
structure KeyInv (s : KeyFile) : Prop where
  file : Balanced s.issued s.returnedKeys s.latest s.keys
  /-- A call that has seen every change has read a file as good as the one that is there. -/
  loaded : ∀ t call db, s.phase t = .loaded call db s.changes →
    Balanced s.issued s.returnedKeys s.latest (keysOf db)
  seenLe : ∀ t call db seen, s.phase t = .loaded call db seen → seen ≤ s.changes
  inTime : ∀ p ∈ s.returned, p.2 ≤ p.1.expiresUnix

theorem keyInv_start (file : Option KeyDb) : KeyInv (.start file) where
  file := ⟨fun r => by simp [KeyFile.start, KeyFile.returnedKeys, KeyFile.keys],
    fun r _ _ => by simp [KeyFile.start, KeyFile.returnedKeys, KeyFile.keys]⟩
  loaded := by intro t call db h; cases h
  seenLe := by intro t call db seen h; cases h
  inTime := by simp [KeyFile.start]

/-- Whether the second half of a call saves the file. -/
def KeyCall.saves (call : KeyCall) (now : Nat) (db : Option KeyDb) : Prop :=
  (call.finish now db).2 ≠ none

/-- A call saves only when no key was put in or used up since it read the file, and the clock has
not reached its end. -/
def Undisturbed (s : KeyFile) : KeyMove → Prop
  | .load _ _ => True
  | .finish t now => now < Word.maxU64 ∧
      ∀ call db seen, s.phase t = .loaded call db seen → call.saves now db → seen = s.changes

/-- A finished call leaves the others where they were. -/
theorem phase_finish {phase : Nat → CallPhase} {t t' : Nat} {call : KeyCall} {db : Option KeyDb}
    {seen : Nat} (h : Function.update phase t .done t' = .loaded call db seen) :
    phase t' = .loaded call db seen := by
  by_cases htt : t' = t
  · subst htt
    simp at h
  · rwa [Function.update_of_ne htt] at h

/-- A call that changes nothing but prunes, or does not save at all. -/
theorem keyInv_quiet {s : KeyFile} (h : KeyInv s) {t now : Nat} {file : Option KeyDb}
    (hfile : Balanced s.issued s.returnedKeys (max s.latest now) (keysOf file)) :
    KeyInv { s with
      file := file
      phase := Function.update s.phase t .done
      latest := max s.latest now } where
  file := hfile
  loaded := by
    intro t' call db ht'
    exact balanced_mono (h.loaded t' call db (phase_finish ht')) (Nat.le_max_left _ _)
  seenLe := fun t' call db seen ht' => h.seenLe t' call db seen (phase_finish ht')
  inTime := h.inTime

theorem keyInv_upsert {s : KeyFile} (h : KeyInv s) {t now : Nat} {rec : KeyRec} {db : Option KeyDb}
    (hdb : Balanced s.issued s.returnedKeys s.latest (keysOf db)) (hlt : now < Word.maxU64) :
    KeyInv { s with
      file := some (upsertKeyRec db now rec)
      phase := Function.update s.phase t .done
      latest := max s.latest now
      issued := s.issued ++ [rec]
      changes := s.changes + 1 } where
  file := by
    have hkeys : (upsertKeyRec db now rec).keys = (keysOf db).filter (·.kept now) ++ [rec] := by
      cases db <;> rfl
    simp only [KeyFile.keys, Option.map_some, Option.getD_some, hkeys]
    exact balanced_issue (balanced_prune hdb hlt) rec
  loaded := by
    intro t' call db' ht'
    exact absurd (h.seenLe t' call db' _ (phase_finish ht')) (Nat.not_succ_le_self _)
  seenLe := by
    intro t' call db' seen ht'
    exact Nat.le_succ_of_le (h.seenLe t' call db' seen (phase_finish ht'))
  inTime := h.inTime

theorem keyInv_mark {s : KeyFile} (h : KeyInv s) {t now : Nat} {hash : Text} {db : KeyDb}
    {r : KeyRec} {keys : List KeyRec}
    (hdb : Balanced s.issued s.returnedKeys s.latest db.keys) (hlt : now < Word.maxU64)
    (hfound : markLoop hash now db.keys = .found r keys) :
    KeyInv { s with
      file := some ({ db with keys }.prune now)
      phase := Function.update s.phase t .done
      latest := max s.latest now
      returned := s.returned ++ [(r, now)]
      changes := s.changes + 1 } where
  file := by
    have hret : (s.returned ++ [(r, now)]).map (fun p => p.1.asIssued)
        = s.returnedKeys ++ [r.asIssued] := List.map_append ..
    simp only [KeyFile.keys, KeyFile.returnedKeys, hret]
    exact balanced_mark hdb hlt hfound
  loaded := by
    intro t' call db' ht'
    exact absurd (h.seenLe t' call db' _ (phase_finish ht')) (Nat.not_succ_le_self _)
  seenLe := by
    intro t' call db' seen ht'
    exact Nat.le_succ_of_le (h.seenLe t' call db' seen (phase_finish ht'))
  inTime := by
    intro p hp
    rcases List.mem_append.mp hp with hp | hp
    · exact h.inTime p hp
    · rw [List.mem_singleton.mp hp]
      exact (markLoop_found hfound).2.1

/-- **Every allowed step keeps the balance.** -/
theorem keyInv_step {s s' : KeyFile} {m : KeyMove} (h : KeyInv s) (hok : Undisturbed s m)
    (hs : s.step m = some s') : KeyInv s' := by
  cases m with
  | load t call =>
      simp only [KeyFile.step] at hs
      split at hs
      · cases hs
        refine ⟨h.file, ?_, ?_, h.inTime⟩
        · intro t' call' db ht'
          by_cases htt : t' = t
          · subst htt
            simp only [Function.update_self, CallPhase.loaded.injEq] at ht'
            rw [← ht'.2.1]
            exact h.file
          · simp only [Function.update_of_ne htt] at ht'
            exact h.loaded t' call' db ht'
        · intro t' call' db seen ht'
          by_cases htt : t' = t
          · subst htt
            simp only [Function.update_self, CallPhase.loaded.injEq] at ht'
            exact Nat.le_of_eq ht'.2.2.symm
          · simp only [Function.update_of_ne htt] at ht'
            exact h.seenLe t' call' db seen ht'
      · cases hs
  | finish t now =>
      obtain ⟨hlt, hseen⟩ := hok
      have hstay : Balanced s.issued s.returnedKeys (max s.latest now) (keysOf s.file) :=
        balanced_mono h.file (Nat.le_max_left _ _)
      simp only [KeyFile.step] at hs
      split at hs
      · rename_i call db seen hphase
        have hdb : call.saves now db → Balanced s.issued s.returnedKeys s.latest (keysOf db) := by
          intro hsave
          have heq := hseen call db seen hphase hsave
          exact h.loaded t call db (heq ▸ hphase)
        cases call with
        | upsert rec =>
            cases hs
            exact keyInv_upsert h (hdb (by simp [KeyCall.saves, KeyCall.finish])) hlt
        | find hash =>
            cases hs
            exact keyInv_quiet h hstay
        | mark hash =>
            cases db with
            | none =>
                cases hs
                exact keyInv_quiet h hstay
            | some db =>
                cases hmark : markLoop hash now db.keys with
                | refused =>
                    simp only [KeyCall.finish, markKeyUsed, hmark] at hs
                    cases hs
                    exact keyInv_quiet h hstay
                | missing =>
                    have hbal := hdb (by simp [KeyCall.saves, KeyCall.finish, markKeyUsed, hmark])
                    simp only [KeyCall.finish, markKeyUsed, hmark] at hs
                    cases hs
                    exact keyInv_quiet h (balanced_prune hbal hlt)
                | found r keys =>
                    have hbal := hdb (by simp [KeyCall.saves, KeyCall.finish, markKeyUsed, hmark])
                    simp only [KeyCall.finish, markKeyUsed, hmark] at hs
                    cases hs
                    exact keyInv_mark h hbal hlt hmark
      · cases hs

/-! ## One session for each key -/

/-- What is to hold of the key file. A key counts as expired once a call has read a later time. -/
structure OneSession (s : KeyFile) : Prop where
  /-- Each issued key is returned at most once. -/
  once : ∀ r, s.returnedKeys.count r ≤ s.issued.count r
  /-- It is not returned after its expiry. -/
  inTime : ∀ p ∈ s.returned, p.2 ≤ p.1.expiresUnix
  /-- A key neither used nor expired is in the file when all calls have finished. -/
  kept : (∀ t call db seen, s.phase t ≠ .loaded call db seen) → ∀ r ∈ s.issued,
    r.usedUnix = none → r ∉ s.returnedKeys → s.latest ≤ r.expiresUnix → r ∈ s.keys

theorem oneSession_of_keyInv {s : KeyFile} (h : KeyInv s) : OneSession s where
  once := by
    intro r
    have := h.file.atMost r
    omega
  inTime := h.inTime
  kept := by
    intro _ r hissued hunused hnot hle
    have hleast := h.file.atLeast r hunused hle
    have hzero : s.returnedKeys.count r = 0 := List.count_eq_zero.mpr hnot
    have hpos : 0 < s.issued.count r := List.count_pos_iff.mpr hissued
    exact List.count_pos_iff.mp (by omega)

/-- **Each key opens one session**, in every run in which no call saves over a change of the keys
that it has not seen. -/
theorem keys_open_one_session (file : Option KeyDb) (ms : List KeyMove) (s : KeyFile)
    (hex : exec KeyFile.step (.start file) ms = some s)
    (hal : Along KeyFile.step Undisturbed (.start file) ms) : OneSession s :=
  oneSession_of_keyInv (exec_invariant (I := KeyInv) keyInv_step (keyInv_start file) hal hex)

def someKey : KeyRec := .issue "5e88".toList "a@b.gov".toList 1000

def otherKey : KeyRec := .issue "9f14".toList "c@d.gov".toList 1000

/-- A key is issued and then used. -/
def usedRun : List KeyMove :=
  [.load 0 (.upsert someKey), .finish 0 1000, .load 1 (.mark "5e88".toList), .finish 1 1005]

theorem keys_open_one_session_used :
    ∃ s, exec KeyFile.step (.start none) usedRun = some s ∧ OneSession s := by
  obtain ⟨s, hex⟩ : ∃ s, exec KeyFile.step (.start none) usedRun = some s := ⟨_, rfl⟩
  refine ⟨s, hex, keys_open_one_session none usedRun s hex ?_⟩
  refine (along_cons rfl).mpr ⟨trivial, (along_cons rfl).mpr ⟨⟨by decide, ?_⟩,
    (along_cons rfl).mpr ⟨trivial, ⟨by decide, ?_⟩, fun _ _ => trivial⟩⟩⟩
  · intro call db seen hphase _
    cases hphase
    rfl
  · intro call db seen hphase _
    cases hphase
    rfl

/-- Two confirmations of one key that both read the file before either saves it. -/
def twiceRun : List KeyMove :=
  [.load 0 (.mark "5e88".toList), .load 1 (.mark "5e88".toList), .finish 0 1005, .finish 1 1006]

/-- **Overlapping calls break it**: the key is returned to both. -/
theorem overlapping_calls_break : ∃ s,
    exec KeyFile.step (.start (some ⟨1, [someKey]⟩)) twiceRun = some s ∧
    s.returnedKeys = [someKey, someKey] ∧ ¬ OneSession s := by
  have hrun : (exec KeyFile.step (.start (some ⟨1, [someKey]⟩)) twiceRun).map
      (fun s => (s.returnedKeys, s.issued)) = some ([someKey, someKey], [someKey]) := by
    decide +kernel
  obtain ⟨s, hex, hout⟩ := Option.map_eq_some_iff.mp hrun
  simp only [Prod.mk.injEq] at hout
  refine ⟨s, hex, hout.1, ?_⟩
  intro h
  have hone := h.once someKey
  rw [hout.1, hout.2] at hone
  revert hone
  decide

/-- Two requests that both read the file before either saves it: the first key is lost. -/
example : (exec KeyFile.step (.start none) [.load 0 (.upsert someKey), .load 1 (.upsert otherKey),
    .finish 0 1000, .finish 1 1000]).map KeyFile.keys = some [otherKey] := by decide +kernel

end Slopmud.Web
