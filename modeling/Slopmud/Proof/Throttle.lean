import Slopmud.Broker.Throttle

/-!
# What the login throttle keeps out

An entry of the throttle says at least as much as the failures on record since the last
success, creation, clearing of its table or pause of `LOGIN_BACKOFF_RESET_AFTER`. So an attempt
that the throttle lets pass is late enough for those. What is noted between the check of an
attempt and its verification is not among them, and an attempt through `WEB_AUTH` is not checked.
-/

namespace Slopmud.Broker.Throttle

open Machine
open Slopmud.Sbc (IpAddr)

/-! ## The record of an address or a name -/

/-- What is throttled. -/
inductive Key where
  | ip (a : IpAddr)
  | name (n : Text)
deriving DecidableEq, Repr

/-- The address or the name of an attempt. -/
def Key.Of (ip : IpAddr) (name : Text) : Key → Prop
  | .ip a => a = ip
  | .name n => n = name ∧ n ≠ []

instance (ip : IpAddr) (name : Text) : ∀ key, Decidable (Key.Of ip name key)
  | .ip a => inferInstanceAs (Decidable (a = ip))
  | .name n => inferInstanceAs (Decidable (n = name ∧ n ≠ []))

/-- The number of failures and the time of the last one. -/
abbrev Tally := Option (Nat × Nat)

/-- One more failure; when it is noted after a pause, counting starts again. -/
def Tally.fail (r : Tally) (now time : Nat) : Tally :=
  match r with
  | none => some (1, now)
  | some (k, last) => if last + resetAfter < time then some (1, now) else some (k + 1, now)

def tallyStep (key : Key) (r : Tally) : Event → Tally
  | .failure ip name now time => if Key.Of ip name key then r.fail now time else r
  | .login ip name | .created ip name => if Key.Of ip name key then none else r
  | .clearedNames =>
    match key with
    | .ip _ => r
    | .name _ => none
  | .clearedIps =>
    match key with
    | .ip _ => none
    | .name _ => r

/-- The failures since the last success, creation, clearing or pause. -/
def tally (key : Key) (events : List Event) : Tally := events.foldl (tallyStep key) none

/-- Time `t` is late enough. -/
def LateEnough (r : Tally) (t : Nat) : Prop :=
  ∀ k last, r = some (k, last) → last + backoffDelay k ≤ t ∨ last + resetAfter < t

theorem tally_concat (key : Key) (es : List Event) (e : Event) :
    tally key (es ++ [e]) = tallyStep key (tally key es) e := by
  rw [tally, List.foldl_append]
  rfl

theorem LateEnough.mono {r : Tally} {t t' : Nat} (h : LateEnough r t) (ht : t ≤ t') : LateEnough r t' := by
  intro k last hr
  have hlate := h k last hr
  omega

/-! ## Delays -/

theorem backoffDelay_mono {k f : Nat} (h : k ≤ f) : backoffDelay k ≤ backoffDelay f := by
  have hpow : min (k - 1) 16 ≤ min (f - 1) 16 := by omega
  have hle : backoffBase * 2 ^ min (k - 1) 16 ≤ backoffBase * 2 ^ min (f - 1) 16 :=
    Nat.mul_le_mul_left _ (Nat.pow_le_pow_right (by decide) hpow)
  unfold backoffDelay
  dsimp only
  omega

/-- A count that has reached its maximum delays as much as any. -/
theorem backoffDelay_saturated (k : Nat) : backoffDelay (min k Word.maxU32) = backoffDelay k := by
  have hpow : min (min k Word.maxU32 - 1) 16 = min (k - 1) 16 := by
    unfold Word.maxU32
    omega
  rw [backoffDelay, hpow, backoffDelay]

/-! ## Entries -/

def LoginThrottle.entry (t : LoginThrottle) : Key → Option ThrottleEntry
  | .ip a => t.byIp.lookup a
  | .name n => t.byName.lookup n

/-- The table of this key is cleared in a prune. -/
def cleared (t : LoginThrottle) (now : Nat) : Key → Bool
  | .ip _ => (t.retainFresh now).tooManyIps
  | .name _ => (t.retainFresh now).tooManyNames

theorem entry_prune (t : LoginThrottle) (now : Nat) (key : Key) :
    (t.prune now).entry key
      = if cleared t now key then none else (t.entry key).filter (fresh now) := by
  have hips : ∀ t' : LoginThrottle, (if t'.tooManyNames then { t' with byName := ∅ } else t').tooManyIps
      = t'.tooManyIps := by
    intro t'
    split <;> rfl
  cases key with
  | ip a =>
    have hbyIp : ∀ t' : LoginThrottle, (if t'.tooManyNames then { t' with byName := ∅ } else t').byIp
        = t'.byIp := by
      intro t'
      split <;> rfl
    have hcleared : cleared t now (.ip a) = (t.retainFresh now).tooManyIps := rfl
    rw [LoginThrottle.prune, hcleared]
    simp only [hips, LoginThrottle.entry]
    by_cases hmany : (t.retainFresh now).tooManyIps = true
    · rw [if_pos hmany, if_pos hmany]
      exact AList.lookup_empty a
    · rw [if_neg hmany, if_neg hmany, hbyIp]
      exact Table.lookup_retain _ _ _
  | name n =>
    have hbyName : ∀ (t' : LoginThrottle) (b : Bool),
        (if b then { t' with byIp := ∅ } else t').byName = t'.byName := by
      intro t' b
      split <;> rfl
    have hcleared : cleared t now (.name n) = (t.retainFresh now).tooManyNames := rfl
    rw [LoginThrottle.prune, hcleared]
    simp only [LoginThrottle.entry, hbyName]
    by_cases hmany : (t.retainFresh now).tooManyNames = true
    · rw [if_pos hmany, if_pos hmany]
      exact AList.lookup_empty n
    · rw [if_neg hmany, if_neg hmany]
      exact Table.lookup_retain _ _ _

/-- The record goes along with the safety caps. -/
theorem tally_clearings (t : LoginThrottle) (now : Nat) (key : Key) (es : List Event) :
    tally key (es ++ World.clearings t now) = if cleared t now key then none else tally key es := by
  unfold World.clearings
  dsimp only
  rw [tally, List.foldl_append, ← tally]
  cases hnames : (t.retainFresh now).tooManyNames <;> cases hips : (t.retainFresh now).tooManyIps <;>
    cases key <;> simp [cleared, hnames, hips, tallyStep]

/-- What a key's entry has to say of its record. -/
def Agree (clock : Nat) (r : Tally) (e : Option ThrottleEntry) : Prop :=
  ∀ k last, r = some (k, last) → last + resetAfter < clock ∨
    ∃ en, e = some en ∧ en.lastFailure = last ∧ min k Word.maxU32 ≤ en.failures
      ∧ en.nextAllowed = last + backoffDelay en.failures

theorem Agree.mono {clock clock' : Nat} {r : Tally} {e : Option ThrottleEntry} (h : Agree clock r e)
    (hle : clock ≤ clock') : Agree clock' r e :=
  fun k last hr => (h k last hr).imp_left fun hold => Nat.lt_of_lt_of_le hold hle

/-- An entry is pruned when it is too old, or with its whole table. -/
theorem Agree.prune {clock now : Nat} {t : LoginThrottle} {key : Key} {es : List Event}
    (h : Agree clock (tally key es) (t.entry key)) (hnow : now ≤ clock) :
    Agree clock (tally key (es ++ World.clearings t now)) ((t.prune now).entry key) := by
  rw [tally_clearings, entry_prune]
  intro k last hr
  split at hr
  · cases hr
  · next hkept =>
    rcases h k last hr with hold | ⟨en, hen, hlast, hfailures, hnext⟩
    · exact .inl hold
    · by_cases hold : last + resetAfter < clock
      · exact .inl hold
      · refine .inr ⟨en, ?_, hlast, hfailures, hnext⟩
        have hfresh : fresh now en = true := by
          rw [fresh, hlast, decide_eq_true_eq]
          omega
        rw [if_neg hkept, hen, Option.filter_some_pos hfresh]

/-- One more failure. -/
theorem Agree.fail {clock now : Nat} {r : Tally} {e : Option ThrottleEntry} (h : Agree clock r e) :
    Agree clock (r.fail now clock) (some (ThrottleEntry.fail e now)) := by
  have hone : 1 ≤ Word.satAdd32 ((e.map ThrottleEntry.failures).getD 0) 1 := by
    unfold Word.satAdd32 Word.maxU32
    omega
  intro k last hr
  refine .inr ⟨_, rfl, ?_⟩
  cases r with
  | none =>
    cases hr
    refine ⟨rfl, ?_, rfl⟩
    unfold Word.maxU32
    exact hone
  | some p =>
    obtain ⟨k₀, last₀⟩ := p
    rw [Tally.fail] at hr
    split at hr
    · cases hr
      refine ⟨rfl, ?_, rfl⟩
      unfold Word.maxU32
      exact hone
    · next hrecent =>
      cases hr
      obtain ⟨en, rfl, -, hfailures, -⟩ := (h k₀ last₀ rfl).resolve_left hrecent
      refine ⟨rfl, ?_, rfl⟩
      have hcount : (ThrottleEntry.fail (some en) now).failures = min (en.failures + 1) Word.maxU32 := rfl
      rw [hcount]
      omega

/-- An attempt that need not wait is late enough. -/
theorem Agree.lateEnough {clock now : Nat} {r : Tally} {e : Option ThrottleEntry} (h : Agree clock r e)
    (hnow : now ≤ clock) (hwait : waitFor now e = 0) : LateEnough r clock := by
  intro k last hr
  rcases h k last hr with hold | ⟨en, rfl, hlast, hfailures, hnext⟩
  · exact .inr hold
  · left
    have hdelay : backoffDelay k ≤ backoffDelay en.failures := by
      rw [← backoffDelay_saturated k]
      exact backoffDelay_mono hfailures
    have hpassed : en.nextAllowed ≤ now := by
      rw [waitFor] at hwait
      split at hwait <;> omega
    omega

theorem waitFor_of_waitTime {t : LoginThrottle} {ip : IpAddr} {name : Text} {now : Nat}
    (h : t.waitTime ip name now = 0) {key : Key} (hkey : key.Of ip name) : waitFor now (t.entry key) = 0 := by
  unfold LoginThrottle.waitTime at h
  dsimp only at h
  cases key with
  | ip a =>
    cases hkey
    split at h
    · exact h
    · exact (Nat.max_eq_zero_iff.mp h).1
  | name n =>
    obtain ⟨rfl, hne⟩ := hkey
    rw [if_neg (by simpa using hne)] at h
    exact (Nat.max_eq_zero_iff.mp h).2

/-! ## What is noted -/

theorem entry_noteSuccess (t : LoginThrottle) (ip : IpAddr) (name : Text) (key : Key) :
    (t.noteSuccess ip name).entry key = if key.Of ip name then none else t.entry key := by
  cases key with
  | ip a =>
    have hbyIp : (t.noteSuccess ip name).byIp = t.byIp.erase ip := by
      unfold LoginThrottle.noteSuccess
      dsimp only
      split <;> rfl
    rw [LoginThrottle.entry, hbyIp, Table.lookup_erase_eq]
    by_cases ha : a = ip
    · rw [if_pos ha, if_pos (show Key.Of ip name (.ip a) from ha)]
    · rw [if_neg ha, if_neg (show ¬ Key.Of ip name (.ip a) from ha)]
      rfl
  | name n =>
    by_cases hname : name = []
    · have hnot : ¬ Key.Of ip name (.name n) := fun h => h.2 (h.1.trans hname)
      rw [if_neg hnot]
      simp [LoginThrottle.noteSuccess, hname, LoginThrottle.entry]
    · have hbyName : (t.noteSuccess ip name).byName = t.byName.erase name := by
        simp [LoginThrottle.noteSuccess, hname]
      rw [LoginThrottle.entry, hbyName, Table.lookup_erase_eq]
      by_cases hn : n = name
      · rw [if_pos hn, if_pos (show Key.Of ip name (.name n) from ⟨hn, fun h => hname (hn ▸ h)⟩)]
      · rw [if_neg hn, if_neg (show ¬ Key.Of ip name (.name n) from fun h => hn h.1)]
        rfl

theorem entry_noteFailure (t : LoginThrottle) (ip : IpAddr) (name : Text) (now : Nat) (key : Key) :
    (t.noteFailure ip name now).2.entry key
      = if key.Of ip name then some (ThrottleEntry.fail ((t.prune now).entry key) now)
        else (t.prune now).entry key := by
  cases key with
  | ip a =>
    have hbyIp : (t.noteFailure ip name now).2.byIp
        = (t.prune now).byIp.insert ip (ThrottleEntry.fail ((t.prune now).byIp.lookup ip) now) := by
      unfold LoginThrottle.noteFailure
      dsimp only
      split <;> rfl
    rw [LoginThrottle.entry, hbyIp, Table.lookup_insert_eq]
    by_cases ha : a = ip
    · rw [if_pos ha, if_pos (show Key.Of ip name (.ip a) from ha), ha]
      rfl
    · rw [if_neg ha, if_neg (show ¬ Key.Of ip name (.ip a) from ha)]
      rfl
  | name n =>
    by_cases hname : name = []
    · have hnot : ¬ Key.Of ip name (.name n) := fun h => h.2 (h.1.trans hname)
      rw [if_neg hnot]
      simp [LoginThrottle.noteFailure, hname, LoginThrottle.entry]
    · have hbyName : (t.noteFailure ip name now).2.byName
          = (t.prune now).byName.insert name (ThrottleEntry.fail ((t.prune now).byName.lookup name) now) := by
        simp [LoginThrottle.noteFailure, hname]
      rw [LoginThrottle.entry, hbyName, Table.lookup_insert_eq]
      by_cases hn : n = name
      · rw [if_pos hn, if_pos (show Key.Of ip name (.name n) from ⟨hn, fun h => hname (hn ▸ h)⟩), hn]
        rfl
      · rw [if_neg hn, if_neg (show ¬ Key.Of ip name (.name n) from fun h => hn h.1)]
        rfl

/-! ## Runs -/

/-- What an attempt knows in each phase. -/
def PhaseOk (w : World) (a : Attempt) : Prop :=
  match a.phase with
  | .idle | .done => True
  | .asking now | .verifying now => now ≤ w.clock
  | .passed now seen => now ≤ w.clock ∧ seen ≤ w.events.length ∧
      ∀ key, key.Of a.ip a.name → LateEnough (tally key (w.events.take seen)) w.clock

/-- A verification at the prompt came late enough for what was on record at its check. -/
def StartOk (events : List Event) (s : Start) : Prop :=
  s.seen ≤ events.length ∧
  (s.door = .login → ∀ key, key.Of s.ip s.name → LateEnough (tally key (events.take s.seen)) s.time)

structure Throttled (w : World) : Prop where
  agree : ∀ key, Agree w.clock (tally key w.events) (w.throttle.entry key)
  phases : ∀ c, PhaseOk w (w.attempts c)
  starts : ∀ s ∈ w.starts, StartOk w.events s

namespace Throttled

theorem init : Throttled .init where
  agree _ k last h := by cases h
  phases _ := trivial
  starts _ h := by cases h

variable {w w' : World}

theorem StartOk.mono {es es' : List Event} {s : Start} (h : StartOk es s) (hes : es <+: es') : StartOk es' s := by
  obtain ⟨new, rfl⟩ := hes
  refine ⟨h.1.trans (by simp), ?_⟩
  rw [List.take_append_of_le_length h.1]
  exact h.2

/-- Time goes on, and more events are on record. -/
theorem PhaseOk.mono {a : Attempt} (h : PhaseOk w a) (hclock : w.clock ≤ w'.clock)
    (hevents : w.events <+: w'.events) : PhaseOk w' a := by
  obtain ⟨new, hnew⟩ := hevents
  unfold PhaseOk at h ⊢
  split
  · trivial
  · trivial
  · next now hphase =>
    rw [hphase] at h
    exact Nat.le_trans h hclock
  · next now hphase =>
    rw [hphase] at h
    exact Nat.le_trans h hclock
  · next now seen hphase =>
    rw [hphase] at h
    obtain ⟨hnow, hseen, hlate⟩ := h
    refine ⟨hnow.trans hclock, ?_, ?_⟩
    · rw [← hnew, List.length_append]
      omega
    · intro key hkey
      rw [← hnew, List.take_append_of_le_length hseen]
      exact (hlate key hkey).mono hclock

/-- One attempt goes on; the record may grow. -/
theorem advance (h : Throttled w) {c : Nat} {a : Attempt} (hclock : w'.clock = w.clock)
    (hevents : w.events <+: w'.events) (hattempts : w'.attempts = Function.update w.attempts c a)
    (hstarts : ∀ s ∈ w'.starts, s ∈ w.starts ∨ StartOk w'.events s)
    (hagree : ∀ key, Agree w'.clock (tally key w'.events) (w'.throttle.entry key))
    (ha : PhaseOk w' a) : Throttled w' where
  agree := hagree
  phases c' := by
    rw [hattempts]
    by_cases hc : c' = c
    · rw [hc, Function.update_self]
      exact ha
    · rw [Function.update_of_ne hc]
      exact PhaseOk.mono (h.phases c') hclock.ge hevents
  starts s hs := by
    rcases hstarts s hs with hold | hnew
    · exact StartOk.mono (h.starts s hold) hevents
    · exact hnew

theorem check (h : Throttled w) {c : Nat} (hs : w.step (.check c) = some w') : Throttled w' := by
  have hasking : ∀ now, (w.attempts c).phase = .asking now →
      some (({ w with
          throttle := (w.throttle.wait (w.attempts c).ip (w.attempts c).name now).2
          events := w.events ++ World.clearings w.throttle now } : World).setPhase c
        (if (w.throttle.wait (w.attempts c).ip (w.attempts c).name now).1 = 0
          then .passed now (w.events ++ World.clearings w.throttle now).length else .done)) = some w' →
      Throttled w' := by
    intro now hphase hs
    cases hs
    have hnow : now ≤ w.clock := by
      have hold := h.phases c
      rwa [PhaseOk, hphase] at hold
    have hagree : ∀ key, Agree w.clock (tally key (w.events ++ World.clearings w.throttle now))
        ((w.throttle.prune now).entry key) := fun key => (h.agree key).prune hnow
    refine h.advance rfl (List.prefix_append _ _) rfl (fun s hs => .inl hs) hagree ?_
    unfold PhaseOk
    dsimp only
    by_cases hwait : (w.throttle.wait (w.attempts c).ip (w.attempts c).name now).1 = 0
    · rw [if_pos hwait]
      refine ⟨hnow, Nat.le_refl _, fun key hkey => ?_⟩
      change LateEnough (tally key ((w.events ++ World.clearings w.throttle now).take _)) w.clock
      rw [List.take_length]
      exact (hagree key).lateEnough hnow (waitFor_of_waitTime hwait hkey)
    · rw [if_neg hwait]
      trivial
  simp only [World.step] at hs
  split at hs
  · next now hphase _ => exact hasking now hphase hs
  · next now hphase _ => exact hasking now hphase hs
  · cases hs

theorem verify (h : Throttled w) {c : Nat} (hs : w.step (.verify c) = some w') : Throttled w' := by
  have hphaseOk := h.phases c
  simp only [World.step] at hs
  split at hs
  · next now seen hphase _ =>
    cases hs
    rw [PhaseOk, hphase] at hphaseOk
    obtain ⟨hnow, hseen, hlate⟩ := hphaseOk
    refine h.advance rfl (List.prefix_refl _) rfl ?_ h.agree hnow
    intro s hs
    rcases List.mem_append.mp hs with hold | hnew
    · exact .inl hold
    · rw [List.mem_singleton.mp hnew]
      exact .inr ⟨hseen, fun _ => hlate⟩
  · next now hphase _ =>
    cases hs
    rw [PhaseOk, hphase] at hphaseOk
    refine h.advance rfl (List.prefix_refl _) rfl ?_ h.agree hphaseOk
    intro s hs
    rcases List.mem_append.mp hs with hold | hnew
    · exact .inl hold
    · rw [List.mem_singleton.mp hnew]
      exact .inr ⟨Nat.le_refl _, fun hdoor => by cases hdoor⟩
  · cases hs

/-- A failure is noted. -/
theorem failed (h : Throttled w) {c : Nat} {ip : IpAddr} {name : Text} {now : Nat} (hnow : now ≤ w.clock) :
    Throttled ((w.fail ip name now).setPhase c .done) := by
  refine h.advance rfl ?_ rfl (fun s hs => .inl hs) ?_ trivial
  · exact (List.prefix_append _ _).trans (List.prefix_append _ _)
  · intro key
    have hprune := (h.agree key).prune hnow
    change Agree w.clock (tally key (w.events ++ World.clearings w.throttle now ++ [_])) _
    rw [tally_concat, tallyStep]
    change Agree w.clock _ ((w.throttle.noteFailure ip name now).2.entry key)
    rw [entry_noteFailure]
    by_cases hkey : key.Of ip name
    · rw [if_pos hkey, if_pos hkey]
      exact hprune.fail
    · rw [if_neg hkey, if_neg hkey]
      exact hprune

/-- A success is noted. -/
theorem succeeded (h : Throttled w) {c : Nat} {ip : IpAddr} {name : Text} {e : Event}
    (he : ∀ key r, tallyStep key r e = if key.Of ip name then none else r) :
    Throttled ((w.succeed ip name e).setPhase c .done) := by
  refine h.advance rfl (List.prefix_append _ _) rfl (fun s hs => .inl hs) ?_ trivial
  intro key
  change Agree w.clock (tally key (w.events ++ [e])) ((w.throttle.noteSuccess ip name).entry key)
  rw [tally_concat, he, entry_noteSuccess]
  by_cases hkey : key.Of ip name
  · rw [if_pos hkey, if_pos hkey]
    intro k last hr
    cases hr
  · rw [if_neg hkey, if_neg hkey]
    exact h.agree key

theorem step {m : Move} (h : Throttled w) (hs : w.step m = some w') : Throttled w' := by
  cases m with
  | tick d =>
    cases hs
    refine ⟨fun key => (h.agree key).mono (Nat.le_add_right _ _), fun c => ?_, h.starts⟩
    exact PhaseOk.mono (h.phases c) (Nat.le_add_right _ _) (List.prefix_refl _)
  | begin_ c door ip name =>
    simp only [World.step] at hs
    split at hs
    · cases hs
      exact h.advance rfl (List.prefix_refl _) rfl (fun s hs => .inl hs) h.agree (Nat.le_refl _)
    · cases hs
  | check c => exact h.check hs
  | verify c => exact h.verify hs
  | verdict c ok =>
    have hphaseOk := h.phases c
    simp only [World.step] at hs
    split at hs
    · next now hphase _ =>
      rw [PhaseOk, hphase] at hphaseOk
      cases hs
      split
      · exact h.succeeded fun _ _ => rfl
      · exact h.failed hphaseOk
    · cases hs
      exact h.advance rfl (List.prefix_refl _) rfl (fun s hs => .inl hs) h.agree trivial
    · cases hs
  | newPassword c ok =>
    have hphaseOk := h.phases c
    simp only [World.step] at hs
    split at hs
    · next now seen hphase _ =>
      rw [PhaseOk, hphase] at hphaseOk
      cases hs
      split
      · exact h.succeeded fun _ _ => rfl
      · exact h.failed hphaseOk.1
    · cases hs

end Throttled

/-! ## What is put on record -/

/-- The safety caps at work. -/
def Event.isClearing : Event → Bool
  | .clearedNames | .clearedIps => true
  | _ => false

/-- The clock as the attempt read it when it began. -/
def Phase.began? : Phase → Option Nat
  | .asking now | .passed now _ | .verifying now => some now
  | .idle | .done => none

/-- What a move has to note: a refused password at a prompt its failure, an accepted one the login,
and a new password likewise. The failure's time is the clock as the attempt began. -/
def outcome (w : World) : Move → List Event
  | .verdict c ok =>
    let a := w.attempts c
    match a.door, a.phase with
    | .login, .verifying now => [if ok then .login a.ip a.name else .failure a.ip a.name now w.clock]
    | _, _ => []
  | .newPassword c ok =>
    let a := w.attempts c
    match a.door, a.phase with
    | .create, .passed now _ => [if ok then .created a.ip a.name else .failure a.ip a.name now w.clock]
    | _, _ => []
  | _ => []

/-- What the moves of a run have to note, in order. -/
def outcomes : World → List Move → List Event
  | _, [] => []
  | w, m :: ms => outcome w m ++ ((w.step m).map fun w' => outcomes w' ms).getD []

/-- The record without what the safety caps did. -/
def noted (es : List Event) : List Event := es.filter fun e => !e.isClearing

@[simp] theorem noted_append (es es' : List Event) : noted (es ++ es') = noted es ++ noted es' :=
  List.filter_append ..

@[simp] theorem noted_clearings (t : LoginThrottle) (now : Nat) : noted (World.clearings t now) = [] := by
  refine List.filter_eq_nil_iff.mpr fun e he => ?_
  unfold World.clearings at he
  dsimp only at he
  rcases List.mem_append.mp he with he | he
  · rw [List.mem_singleton.mp (List.mem_ite_nil_right.mp he).2]
    decide
  · rw [List.mem_singleton.mp (List.mem_ite_nil_right.mp he).2]
    decide

@[simp] theorem noted_failure (ip : IpAddr) (name : Text) (now time : Nat) :
    noted [.failure ip name now time] = [.failure ip name now time] := rfl

@[simp] theorem noted_login (ip : IpAddr) (name : Text) : noted [.login ip name] = [.login ip name] := rfl

@[simp] theorem noted_created (ip : IpAddr) (name : Text) :
    noted [.created ip name] = [.created ip name] := rfl

/-- A step notes what it has to note, and nothing else but what the safety caps do. -/
theorem step_events {w w' : World} {m : Move} (hs : w.step m = some w') :
    noted w'.events = noted w.events ++ outcome w m := by
  cases m with
  | tick d => cases hs; simp [outcome]
  | begin_ c door ip name =>
    simp only [World.step] at hs
    split at hs
    · cases hs; simp [outcome]
    · cases hs
  | check c =>
    simp only [World.step] at hs
    split at hs
    · cases hs; simp [World.setPhase, outcome]
    · cases hs; simp [World.setPhase, outcome]
    · cases hs
  | verify c =>
    simp only [World.step] at hs
    split at hs
    · cases hs; simp [World.setPhase, outcome]
    · cases hs; simp [World.setPhase, outcome]
    · cases hs
  | verdict c ok =>
    simp only [World.step] at hs
    split at hs
    · next hphase hdoor =>
      cases hs
      cases ok <;> simp [World.setPhase, World.succeed, World.fail, outcome, hphase, hdoor]
    · next hphase hdoor =>
      cases hs
      simp [World.setPhase, outcome, hdoor]
    · cases hs
  | newPassword c ok =>
    simp only [World.step] at hs
    split at hs
    · next hphase hdoor =>
      cases hs
      cases ok <;> simp [World.setPhase, World.succeed, World.fail, outcome, hphase, hdoor]
    · cases hs

/-- **The record of a run is the outcomes at its prompts**, and what the safety caps did. -/
theorem events_of_run {w w' : World} {ms : List Move} (hrun : exec World.step w ms = some w') :
    noted w'.events = noted w.events ++ outcomes w ms := by
  induction ms generalizing w with
  | nil => cases hrun; simp [outcomes]
  | cons m ms ih =>
    obtain ⟨w₁, h₁, h₂⟩ := exec_cons.mp hrun
    rw [ih h₂, step_events h₁, outcomes, h₁, Option.map_some, Option.getD_some, List.append_assoc]

/-- An attempt keeps the clock that it read, once it has begun. -/
theorem step_began {w w' : World} {m : Move} (hs : w.step m = some w') {c now : Nat}
    (hnow : (w'.attempts c).phase.began? = some now) :
    (∃ door ip name, m = .begin_ c door ip name ∧ now = w.clock)
      ∨ (w.attempts c).phase.began? = some now := by
  -- a phase that a step sets is over, or has begun when the one before it had
  have hset : ∀ {c' : Nat} {p : Phase} {a : Attempt}, a = w.attempts c' →
      p.began? = none ∨ p.began? = a.phase.began? →
      (Function.update w.attempts c' { a with phase := p } c).phase.began? = some now →
      (w.attempts c).phase.began? = some now := by
    intro c' p a ha hp hupd
    by_cases hc : c = c'
    · subst hc
      rw [Function.update_self] at hupd
      rcases hp with hp | hp
      · rw [hp] at hupd
        cases hupd
      · rwa [← ha, ← hp]
    · rwa [Function.update_of_ne hc] at hupd
  cases m with
  | tick d => cases hs; exact .inr hnow
  | begin_ c' door ip name =>
    simp only [World.step] at hs
    split at hs
    · cases hs
      have hnow : (Function.update w.attempts c' ⟨door, ip, name, .asking w.clock⟩ c).phase.began?
          = some now := hnow
      by_cases hc : c = c'
      · subst hc
        rw [Function.update_self] at hnow
        exact .inl ⟨door, ip, name, rfl, (Option.some.inj hnow).symm⟩
      · rw [Function.update_of_ne hc] at hnow
        exact .inr hnow
    · cases hs
  | check c' =>
    right
    simp only [World.step] at hs
    split at hs
    · next hphase _ =>
      cases hs
      refine hset rfl ?_ hnow
      split
      · exact .inr (by rw [hphase]; rfl)
      · exact .inl rfl
    · next hphase _ =>
      cases hs
      refine hset rfl ?_ hnow
      split
      · exact .inr (by rw [hphase]; rfl)
      · exact .inl rfl
    · cases hs
  | verify c' =>
    right
    simp only [World.step] at hs
    split at hs
    · next hphase _ => cases hs; exact hset rfl (.inr (by rw [hphase]; rfl)) hnow
    · next hphase _ => cases hs; exact hset rfl (.inr (by rw [hphase]; rfl)) hnow
    · cases hs
  | verdict c' ok =>
    right
    simp only [World.step] at hs
    split at hs
    · cases hs
      cases ok <;> exact hset rfl (.inl rfl) hnow
    · cases hs; exact hset rfl (.inl rfl) hnow
    · cases hs
  | newPassword c' ok =>
    right
    simp only [World.step] at hs
    split at hs
    · cases hs
      cases ok <;> exact hset rfl (.inl rfl) hnow
    · cases hs

/-- **The time of a failure** is what the clock said when its attempt began, before the throttle was
asked and the password was verified. -/
theorem began_of_run {ms : List Move} {w : World} (hrun : exec World.step .init ms = some w) {c now : Nat}
    (hnow : (w.attempts c).phase.began? = some now) :
    ∃ pre door ip name post w₀, ms = pre ++ .begin_ c door ip name :: post
      ∧ exec World.step .init pre = some w₀ ∧ w₀.clock = now := by
  induction ms using List.reverseRecOn generalizing w with
  | nil => cases hrun; cases hnow
  | append_singleton ms m ih =>
    obtain ⟨w₁, h₁, h₂⟩ := exec_append.mp hrun
    obtain ⟨w₂, hs, hnil⟩ := exec_cons.mp h₂
    cases hnil
    -- the last step began the attempt, or it had begun before
    rcases step_began hs hnow with ⟨door, ip, name, rfl, rfl⟩ | hbefore
    · exact ⟨ms, door, ip, name, [], w₁, rfl, h₁, rfl⟩
    · obtain ⟨pre, door, ip, name, post, w₀, rfl, h₀, hclock⟩ := ih h₁ hbefore
      exact ⟨pre, door, ip, name, post ++ [m], w₀, by simp, h₀, hclock⟩

/-- **The login throttle keeps out what it was told of.** In every run of attempts through all
doors: a password verification at the prompt starts late enough after the last failure that was
on record for its address, and for its name, at its throttle check. -/
theorem logins_throttled {ms : List Move} {w : World} (hrun : exec World.step .init ms = some w) :
    ∀ s ∈ w.starts, s.door = .login → ∀ key, key.Of s.ip s.name →
      LateEnough (tally key (w.events.take s.seen)) s.time := by
  have h : Throttled w := exec_preserves (fun h hs => h.step hs) Throttled.init hrun
  exact fun s hs hdoor => (h.starts s hs).2 hdoor

/-! ## What it does not keep out -/

/-- All failures since the last successful login count. -/
def failuresStep (key : Key) (r : Tally) : Event → Tally
  | .failure ip name now _ => if Key.Of ip name key then some ((r.map Prod.fst).getD 0 + 1, now) else r
  | .login ip name => if Key.Of ip name key then none else r
  | .created _ _ | .clearedNames | .clearedIps => r

/-- The number of all failures since the last successful login, and the time of the last one. -/
def failures (key : Key) (events : List Event) : Tally := events.foldl (failuresStep key) none

/-- A verification starts late enough for all failures that are on record when it starts. -/
def NotBypassed (w : World) : Prop :=
  ∀ s ∈ w.starts, ∀ key, Key.Of s.ip s.name key → LateEnough (failures key (w.events.take s.known)) s.time

/-- An attempt at the prompt with a wrong password, from beginning to end. -/
def wrongPassword (c : Nat) : List Move :=
  [.begin_ c .login (.v4 1) "bob".toList, .check c, .verify c, .verdict c false]

/-- A second. -/
def second : Nat := 1000000000

/-- A wrong password, another one after more than ten minutes, and a third a second and a half
later. -/
def pauseRun : List Move :=
  wrongPassword 0 ++ [Move.tick (601 * second)] ++ wrongPassword 1 ++ [Move.tick (second + second / 2)]
    ++ wrongPassword 2

theorem logins_throttled_bob :
    ∃ w, exec World.step .init pauseRun = some w ∧ w.starts.length = 3 ∧
      ∀ s ∈ w.starts, s.door = .login → ∀ key, key.Of s.ip s.name →
        LateEnough (tally key (w.events.take s.seen)) s.time := by
  have hsome : (exec World.step .init pauseRun).map (fun w => w.starts.length) = some 3 := by
    decide +kernel
  obtain ⟨w, hw, hlen⟩ := Option.map_eq_some_iff.mp hsome
  exact ⟨w, hw, hlen, logins_throttled hw⟩

/-- After the pause the failures are counted anew, so that the third password is verified one and
a half seconds after the second failure of two. And a login through `WEB_AUTH` is verified right
after any number of failures. -/
theorem failures_forgotten :
    (∃ w, exec World.step .init pauseRun = some w ∧ ¬ NotBypassed w) ∧
    ∃ w, exec World.step .init (wrongPassword 0
      ++ [Move.begin_ 1 .webAuth (.v4 1) "bob".toList, Move.verify 1]) = some w ∧ ¬ NotBypassed w := by
  have hearly : ∀ (w : World) (s : Start) (k last : Nat), s ∈ w.starts → s.name = "bob".toList →
      failures (.name "bob".toList) (w.events.take s.known) = some (k, last) →
      s.time < last + backoffDelay k → s.time ≤ last + resetAfter → ¬ NotBypassed w := by
    intro w s k last hs hname hfailures htime hreset h
    have hlate := h s hs (.name "bob".toList) ⟨hname.symm, by decide⟩ k last hfailures
    omega
  constructor
  · have hsome : (exec World.step .init pauseRun).map (fun w => w.starts.getLast?.map fun s =>
        (s.name, s.time, failures (.name "bob".toList) (w.events.take s.known)))
        = some (some ("bob".toList, 601 * second + (second + second / 2), some (2, 601 * second))) := by
      decide +kernel
    obtain ⟨w, hw, hstart⟩ := Option.map_eq_some_iff.mp hsome
    obtain ⟨s, hs, heq⟩ := Option.map_eq_some_iff.mp hstart
    simp only [Prod.mk.injEq] at heq
    obtain ⟨hname, htime, hfailures⟩ := heq
    refine ⟨w, hw, hearly w s _ _ (List.mem_of_getLast? hs) hname hfailures ?_ ?_⟩
    · rw [htime]
      decide
    · rw [htime]
      decide
  · have hsome : (exec World.step .init (wrongPassword 0
        ++ [Move.begin_ 1 .webAuth (.v4 1) "bob".toList, Move.verify 1])).map (fun w =>
        w.starts.getLast?.map fun s => (s.name, s.time, failures (.name "bob".toList) (w.events.take s.known)))
        = some (some ("bob".toList, 0, some (1, 0))) := by
      decide +kernel
    obtain ⟨w, hw, hstart⟩ := Option.map_eq_some_iff.mp hsome
    obtain ⟨s, hs, heq⟩ := Option.map_eq_some_iff.mp hstart
    simp only [Prod.mk.injEq] at heq
    obtain ⟨hname, htime, hfailures⟩ := heq
    refine ⟨w, hw, hearly w s _ _ (List.mem_of_getLast? hs) hname hfailures ?_ ?_⟩
    · rw [htime]
      decide
    · rw [htime]
      decide

end Slopmud.Broker.Throttle
