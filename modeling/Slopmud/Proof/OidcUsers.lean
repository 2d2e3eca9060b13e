import Slopmud.Lib.Machine
import Slopmud.Oidc.Server

/-!
# Users of the identity provider

The lock around the user file makes every change one of what is in the file at that time:
`Effect` says what a move does to file, lock and jobs, and from it a job that has loaded the
users still has the users of the file when it saves. User names stay different because a
registration looks for its own. Nothing looks at the subjects, so those stay different exactly
as long as no registered name is the subject of somebody else.
-/

namespace Slopmud.Oidc

open Machine

variable {Raw : Type} {J : Codec Raw UserDb} {L : OidcLib} {cfg : Config}

/-- The users of the file; `none` when it does not parse. -/
def usersOf (J : Codec Raw UserDb) (s : Server Raw) : Option (List UserRec) :=
  (loadUserdb J true s.file).map UserDb.users

/-- What a move does to the file, the lock and the jobs. -/
inductive Effect (J : Codec Raw UserDb) (s : Server Raw) (a : Move) (s' : Server Raw) : Prop where
  | answered (hfile : s'.file = s.file) (hlock : s'.lock = s.lock) (hjobs : s'.jobs = s.jobs)
  | started (id : Nat) (job : Job) (hnew : s.jobs.lookup id = none) (hjob : job.locked = false)
      (hfile : s'.file = s.file) (hlock : s'.lock = s.lock) (hjobs : s'.jobs = s.jobs.insert id job)
  | locked (id : Nat) (f : RegisterForm) (job : Job)
      (hjob : job = .registerLocked f ∨ job = .resetLocked f) (hfree : s.lock = none)
      (hfile : s'.file = s.file) (hlock : s'.lock = some id) (hjobs : s'.jobs = s.jobs.insert id job)
  | finished (id : Nat) (job : Job) (hjob : s.jobs.lookup id = some job) (hfile : s'.file = s.file)
      (hlock : s'.lock = if job.locked then none else s.lock) (hjobs : s'.jobs = s.jobs.erase id)
  | registerLoaded (id : Nat) (f : RegisterForm) (db : UserDb)
      (hjob : s.jobs.lookup id = some (.registerLocked f)) (hdb : loadUserdb J true s.file = some db)
      (hname : Text.trim f.username ∉ db.users.map UserRec.username)
      (hfile : s'.file = s.file) (hlock : s'.lock = s.lock)
      (hjobs : s'.jobs = s.jobs.insert id (.registerLoaded f db))
  | resetLoaded (id : Nat) (f : RegisterForm) (db : UserDb)
      (hjob : s.jobs.lookup id = some (.resetLocked f)) (hdb : loadUserdb J true s.file = some db)
      (hfile : s'.file = s.file) (hlock : s'.lock = s.lock)
      (hjobs : s'.jobs = s.jobs.insert id (.resetLoaded f db))
  | registered (id : Nat) (f : RegisterForm) (db : UserDb) (phc : Text)
      (hmove : a = .save id (some phc) true)
      (hjob : s.jobs.lookup id = some (.registerLoaded f db))
      (hfile : s'.file = some (J.print ⟨db.users ++ [newUser f phc]⟩)) (hlock : s'.lock = s.lock)
      (hjobs : s'.jobs = s.jobs.insert id (.registerSaved f))
  | reset (id : Nat) (f : RegisterForm) (db : UserDb) (phc : Text)
      (hmove : a = .save id (some phc) true)
      (hjob : s.jobs.lookup id = some (.resetLoaded f db))
      (hfile : s'.file = some (J.print ⟨setPassword (Text.trim f.username) phc db.users⟩))
      (hlock : s'.lock = none) (hjobs : s'.jobs = s.jobs.erase id)

namespace Server

variable {s s' : Server Raw}

theorem registerPost_effect (id : Nat) (f : RegisterForm) (hnew : s.jobs.lookup id = none) {a : Move} :
    Effect J s a (s.registerPost cfg id f) := by
  unfold registerPost
  split
  · exact .answered rfl rfl rfl
  · split
    · exact .answered rfl rfl rfl
    · split
      · exact .answered rfl rfl rfl
      · exact .started id _ hnew rfl rfl rfl rfl

theorem resetPost_effect (id : Nat) (f : RegisterForm) (hnew : s.jobs.lookup id = none) {a : Move} :
    Effect J s a (s.resetPost cfg id f) := by
  unfold resetPost
  split
  · exact .answered rfl rfl rfl
  · split
    · exact .answered rfl rfl rfl
    · split
      · exact .answered rfl rfl rfl
      · exact .started id _ hnew rfl rfl rfl rfl

theorem takeLock_effect {id : Nat} {a : Move} (hs : s.takeLock id = some s') : Effect J s a s' := by
  unfold takeLock at hs
  split at hs
  · cases hs
  · next hfree =>
    have hnone : s.lock = none := by simpa using hfree
    split at hs
    · cases hs
      exact .locked id _ _ (.inl rfl) hnone rfl rfl rfl
    · cases hs
      exact .locked id _ _ (.inr rfl) hnone rfl rfl rfl
    · cases hs

theorem loadUserdb_some {readOk : Bool} {file : Option Raw} {db : UserDb}
    (h : loadUserdb J readOk file = some db) : loadUserdb J true file = some db := by
  cases readOk with
  | true => exact h
  | false => cases h

theorem load_effect {id : Nat} {readOk : Bool} {a : Move} (hs : s.load J id readOk = some s') :
    Effect J s a s' := by
  unfold load at hs
  split at hs
  · next f hjob =>
    cases hs
    split
    · exact .finished id _ hjob rfl rfl rfl
    · next db hdb =>
      split
      · exact .finished id _ hjob rfl rfl rfl
      · next hname =>
        refine .registerLoaded id f db hjob (loadUserdb_some hdb) ?_ rfl rfl rfl
        intro hmem
        obtain ⟨u, hu, heq⟩ := List.mem_map.mp hmem
        exact hname (List.any_eq_true.mpr ⟨u, hu, by simp [heq]⟩)
  · next f hjob =>
    cases hs
    split
    · exact .finished id _ hjob rfl rfl rfl
    · next db hdb =>
      split
      · exact .resetLoaded id f db hjob (loadUserdb_some hdb) rfl rfl rfl
      · exact .finished id _ hjob rfl rfl rfl
  · cases hs

theorem save_effect {id : Nat} {phc : Option Text} {saveOk : Bool}
    (hs : s.save J id phc saveOk = some s') : Effect J s (.save id phc saveOk) s' := by
  unfold save at hs
  split at hs
  · next f db hjob =>
    cases hs
    split
    · exact .finished id _ hjob rfl rfl rfl
    · next phc =>
      cases saveOk with
      | false => exact .finished id _ hjob rfl rfl rfl
      | true => exact .registered id f db phc rfl hjob rfl rfl rfl
  · next f db hjob =>
    cases hs
    split
    · exact .finished id _ hjob rfl rfl rfl
    · next phc =>
      cases saveOk with
      | false => exact .finished id _ hjob rfl rfl rfl
      | true => exact .reset id f db phc rfl hjob rfl rfl rfl
  · cases hs

theorem authorizePost_effect (id : Nat) (f : AuthorizeForm) (readOk : Bool)
    (hnew : s.jobs.lookup id = none) {a : Move} :
    Effect J s a (s.authorizePost J L cfg id f readOk) := by
  unfold authorizePost
  split
  · exact .answered rfl rfl rfl
  · split
    · exact .answered rfl rfl rfl
    · split
      · exact .answered rfl rfl rfl
      · split
        · exact .answered rfl rfl rfl
        · exact .started id _ hnew rfl rfl rfl rfl

theorem issue_effect {id : Nat} {code : Option Text} {now : Nat} {a : Move}
    (hs : s.issue L id code now = some s') : Effect J s a s' := by
  unfold issue at hs
  split at hs
  · next f user hjob =>
    cases hs
    split
    · exact .finished id _ hjob rfl rfl rfl
    · exact .finished id _ hjob rfl rfl rfl
  · next f hjob =>
    cases hs
    split
    · exact .finished id _ hjob rfl rfl rfl
    · exact .finished id _ hjob rfl rfl rfl
  · cases hs

theorem token_effect (req : TokenReq) (now : Nat) {a : Move} : Effect J s a (s.token L cfg req now) := by
  have hcode : ∀ client tf, (s.tokenCode L cfg client tf now).file = s.file
      ∧ (s.tokenCode L cfg client tf now).lock = s.lock
      ∧ (s.tokenCode L cfg client tf now).jobs = s.jobs := by
    intro client tf
    unfold tokenCode
    dsimp only
    repeat' split
    all_goals exact ⟨rfl, rfl, rfl⟩
  unfold token
  split
  · exact .answered rfl rfl rfl
  · next cid csec _ =>
    split
    · exact .answered rfl rfl rfl
    · split
      · split
        · exact .answered rfl rfl rfl
        · exact .answered rfl rfl rfl
      · split
        · obtain ⟨hfile, hlock, hjobs⟩ := hcode (cid, csec) req.form
          exact .answered hfile hlock hjobs
        · exact .answered rfl rfl rfl

theorem step_effect {a : Move} (hs : s.step J L cfg a = some s') : Effect J s a s' := by
  cases a with
  | registerPost id f =>
    simp only [step] at hs
    split at hs
    · cases hs
    · next hnew =>
      cases hs
      exact registerPost_effect id f (by simpa using hnew)
  | resetPost id f =>
    simp only [step] at hs
    split at hs
    · cases hs
    · next hnew =>
      cases hs
      exact resetPost_effect id f (by simpa using hnew)
  | lock id => exact takeLock_effect hs
  | load id readOk => exact load_effect hs
  | save id phc saveOk => exact save_effect hs
  | authorizePost id f readOk =>
    simp only [step] at hs
    split at hs
    · cases hs
    · next hnew =>
      cases hs
      exact authorizePost_effect id f readOk (by simpa using hnew)
  | issue id code now => exact issue_effect hs
  | token req now =>
    cases hs
    exact token_effect req now

end Server

/-! ## Passwords -/

/-- A user with a new password. -/
def UserRec.withPassword (u : UserRec) (phc : Text) : UserRec :=
  { u with passwordHash := some phc, password := none }

/-- Where the names are different, the first user of a name is the only one. -/
theorem setPassword_eq_map {name phc : Text} {us : List UserRec} (h : (us.map UserRec.username).Nodup) :
    setPassword name phc us = us.map fun u => if u.username = name then u.withPassword phc else u := by
  induction us with
  | nil => rfl
  | cons u us ih =>
    rw [List.map_cons, List.nodup_cons] at h
    rw [setPassword, List.map_cons]
    by_cases hu : u.username = name
    · have hrest : us.map (fun u => if u.username = name then u.withPassword phc else u) = us.map id := by
        refine List.map_congr_left fun v hv => ?_
        have hne : v.username ≠ name := fun hv' => h.1 (hu.trans hv'.symm ▸ List.mem_map_of_mem hv)
        exact if_neg hne
      rw [if_pos hu, if_pos hu, hrest, List.map_id]
      rfl
    · rw [if_neg hu, if_neg hu, ih h.2]

/-- What does not depend on the password is as it was. -/
theorem setPassword_map {β : Type} (g : UserRec → β) (hg : ∀ u phc, g (u.withPassword phc) = g u)
    (name phc : Text) (us : List UserRec) : (setPassword name phc us).map g = us.map g := by
  induction us with
  | nil => rfl
  | cons u us ih =>
    rw [setPassword]
    split
    · rw [List.map_cons, List.map_cons]
      exact congrArg (· :: us.map g) (hg u phc)
    · rw [List.map_cons, List.map_cons, ih]

/-! ## The lock -/

/-- Whoever changes the file has the lock and knows what is in it. -/
structure Locking (J : Codec Raw UserDb) (s : Server Raw) : Prop where
  holder : ∀ id job, s.jobs.lookup id = some job → job.locked = true → s.lock = some id
  registering : ∀ id f db, s.jobs.lookup id = some (.registerLoaded f db) →
    loadUserdb J true s.file = some db ∧ Text.trim f.username ∉ db.users.map UserRec.username
  resetting : ∀ id f db, s.jobs.lookup id = some (.resetLoaded f db) →
    loadUserdb J true s.file = some db
  names : ∃ us, usersOf J s = some us ∧ (us.map UserRec.username).Nodup

theorem usersOf_congr {s s' : Server Raw} (h : s'.file = s.file) : usersOf J s' = usersOf J s := by
  rw [usersOf, usersOf, h]

theorem usersOf_print {s : Server Raw} {us : List UserRec} (h : s.file = some (J.print ⟨us⟩)) :
    usersOf J s = some us := by
  rw [usersOf, h, loadUserdb, if_neg (by decide)]
  simp

theorem usersOf_of_load {s : Server Raw} {db : UserDb} (h : loadUserdb J true s.file = some db) :
    usersOf J s = some db.users := by
  rw [usersOf, h]
  rfl

namespace Locking

variable {s s' : Server Raw}

/-- Only the holder of the lock has a job that needs it. -/
theorem unique (h : Locking J s) {id id' : Nat} {job job' : Job} (hjob : s.jobs.lookup id = some job)
    (hlocked : job.locked = true) (hjob' : s.jobs.lookup id' = some job')
    (hlocked' : job'.locked = true) : id' = id := by
  have hid := h.holder id job hjob hlocked
  rw [h.holder id' job' hjob' hlocked'] at hid
  exact Option.some.inj hid

/-- A job that comes in while the file stays. -/
theorem insert (h : Locking J s) {id : Nat} {job : Job} (hfile : s'.file = s.file)
    (hjobs : s'.jobs = s.jobs.insert id job)
    (hholder : ∀ id' job', (s.jobs.insert id job).lookup id' = some job' → job'.locked = true →
      s'.lock = some id')
    (hreg : ∀ f db, job = .registerLoaded f db →
      loadUserdb J true s.file = some db ∧ Text.trim f.username ∉ db.users.map UserRec.username)
    (hreset : ∀ f db, job = .resetLoaded f db → loadUserdb J true s.file = some db) :
    Locking J s' := by
  refine ⟨?_, ?_, ?_, ?_⟩
  · intro id' job' hlook
    rw [hjobs] at hlook
    exact hholder id' job' hlook
  · intro id' f db hlook
    rw [hjobs, Table.lookup_insert_eq] at hlook
    rw [hfile]
    split at hlook
    · cases hlook
      exact hreg f db rfl
    · exact h.registering id' f db hlook
  · intro id' f db hlook
    rw [hjobs, Table.lookup_insert_eq] at hlook
    rw [hfile]
    split at hlook
    · cases hlook
      exact hreset f db rfl
    · exact h.resetting id' f db hlook
  · rw [usersOf_congr hfile]
    exact h.names

/-- A job that keeps or does not need the lock. -/
theorem insert_same (h : Locking J s) {id : Nat} {job : Job} (hfile : s'.file = s.file)
    (hlock : s'.lock = s.lock) (hjobs : s'.jobs = s.jobs.insert id job)
    (hjob : job.locked = true → s.lock = some id)
    (hreg : ∀ f db, job = .registerLoaded f db →
      loadUserdb J true s.file = some db ∧ Text.trim f.username ∉ db.users.map UserRec.username)
    (hreset : ∀ f db, job = .resetLoaded f db → loadUserdb J true s.file = some db) :
    Locking J s' := by
  refine h.insert hfile hjobs ?_ hreg hreset
  intro id' job' hlook hlocked
  rw [hlock]
  rw [Table.lookup_insert_eq] at hlook
  split at hlook
  · next heq =>
    cases hlook
    rw [heq]
    exact hjob hlocked
  · exact h.holder id' job' hlook hlocked

/-- The job with the lock has changed the file: no other job knows the file. -/
theorem saved (h : Locking J s) {id : Nat} {job : Job} (hjob : s.jobs.lookup id = some job)
    (hlocked : job.locked = true) {us : List UserRec} (hfile : s'.file = some (J.print ⟨us⟩))
    (hjobs : ∀ id', id' ≠ id → s'.jobs.lookup id' = s.jobs.lookup id')
    (hself : ∀ job', s'.jobs.lookup id = some job' → s'.lock = some id ∧
      (∀ f db, job' ≠ .registerLoaded f db) ∧ ∀ f db, job' ≠ .resetLoaded f db)
    (hnames : (us.map UserRec.username).Nodup) : Locking J s' := by
  have hother : ∀ id' job', id' ≠ id → s'.jobs.lookup id' = some job' → job'.locked = false := by
    intro id' job' hne hlook
    rw [hjobs id' hne] at hlook
    cases hl : job'.locked with
    | false => rfl
    | true => exact absurd (h.unique hjob hlocked hlook hl) hne
  refine ⟨?_, ?_, ?_, ⟨us, usersOf_print hfile, hnames⟩⟩
  · intro id' job' hlook hl
    by_cases hid : id' = id
    · subst hid
      exact (hself job' hlook).1
    · rw [hother id' job' hid hlook] at hl
      cases hl
  · intro id' f db hlook
    by_cases hid : id' = id
    · subst hid
      exact absurd rfl ((hself _ hlook).2.1 f db)
    · have hl := hother id' _ hid hlook
      cases hl
  · intro id' f db hlook
    by_cases hid : id' = id
    · subst hid
      exact absurd rfl ((hself _ hlook).2.2 f db)
    · have hl := hother id' _ hid hlook
      cases hl

theorem finish (h : Locking J s) {id : Nat} {job : Job} (hjob : s.jobs.lookup id = some job)
    (hfile : s'.file = s.file) (hlock : s'.lock = if job.locked then none else s.lock)
    (hjobs : s'.jobs = s.jobs.erase id) : Locking J s' := by
  have hlook : ∀ {id' job'}, s'.jobs.lookup id' = some job' →
      id' ≠ id ∧ s.jobs.lookup id' = some job' := by
    intro id' job' hl
    rw [hjobs, Table.lookup_erase_eq] at hl
    split at hl
    · cases hl
    · next hne => exact ⟨hne, hl⟩
  refine ⟨?_, ?_, ?_, ?_⟩
  · intro id' job' hl hlocked
    obtain ⟨hne, hl⟩ := hlook hl
    rw [hlock]
    split
    · next hmine => exact absurd (h.unique hjob hmine hl hlocked) hne
    · exact h.holder id' job' hl hlocked
  · intro id' f db hl
    rw [hfile]
    exact h.registering id' f db (hlook hl).2
  · intro id' f db hl
    rw [hfile]
    exact h.resetting id' f db (hlook hl).2
  · rw [usersOf_congr hfile]
    exact h.names

theorem effect (h : Locking J s) {a : Move} (he : Effect J s a s') : Locking J s' := by
  cases he with
  | answered hfile hlock hjobs =>
    refine ⟨?_, ?_, ?_, ?_⟩
    · rw [hlock, hjobs]; exact h.holder
    · rw [hfile, hjobs]; exact h.registering
    · rw [hfile, hjobs]; exact h.resetting
    · rw [usersOf_congr hfile]; exact h.names
  | started id job _ hjob hfile hlock hjobs =>
    refine h.insert_same hfile hlock hjobs ?_ ?_ ?_
    · rw [hjob]; intro hcase; cases hcase
    · rintro f db rfl; cases hjob
    · rintro f db rfl; cases hjob
  | locked id f job hjob hfree hfile hlock hjobs =>
    refine h.insert hfile hjobs ?_ ?_ ?_
    · intro id' job' hlook hlocked
      rw [Table.lookup_insert_eq] at hlook
      split at hlook
      · next heq => rw [hlock, heq]
      · have hsome := h.holder id' job' hlook hlocked
        rw [hfree] at hsome
        cases hsome
    · rintro f' db rfl
      rcases hjob with hjob | hjob
      · cases hjob
      · cases hjob
    · rintro f' db rfl
      rcases hjob with hjob | hjob
      · cases hjob
      · cases hjob
  | finished id job hjob hfile hlock hjobs => exact h.finish hjob hfile hlock hjobs
  | registerLoaded id f db hjob hdb hname hfile hlock hjobs =>
    refine h.insert_same hfile hlock hjobs (fun _ => h.holder id _ hjob rfl) ?_ ?_
    · rintro f' db' heq
      cases heq
      exact ⟨hdb, hname⟩
    · rintro f' db' heq
      cases heq
  | resetLoaded id f db hjob hdb hfile hlock hjobs =>
    refine h.insert_same hfile hlock hjobs (fun _ => h.holder id _ hjob rfl) ?_ ?_
    · rintro f' db' heq
      cases heq
    · rintro f' db' heq
      cases heq
      exact hdb
  | registered id f db phc hmove hjob hfile hlock hjobs =>
    obtain ⟨hdb, hname⟩ := h.registering id f db hjob
    obtain ⟨us, hus, hnodup⟩ := h.names
    rw [usersOf_of_load hdb, Option.some.injEq] at hus
    subst hus
    refine h.saved hjob rfl hfile ?_ ?_ ?_
    · intro id' hne
      rw [hjobs, Table.lookup_insert_eq, if_neg hne]
    · intro job' hlook
      rw [hjobs, Table.lookup_insert_eq, if_pos rfl] at hlook
      cases hlook
      refine ⟨hlock.trans (h.holder id _ hjob rfl), ?_, ?_⟩
      · intro f' db' heq
        cases heq
      · intro f' db' heq
        cases heq
    · rw [List.map_append]
      refine List.nodup_append.mpr ⟨hnodup, List.nodup_singleton _, ?_⟩
      intro x hx y hy
      have hy' : y = Text.trim f.username := List.mem_singleton.mp hy
      rintro rfl
      rw [hy'] at hx
      exact hname hx
  | reset id f db phc _ hjob hfile hlock hjobs =>
    have hdb := h.resetting id f db hjob
    obtain ⟨us, hus, hnodup⟩ := h.names
    rw [usersOf_of_load hdb, Option.some.injEq] at hus
    subst hus
    refine h.saved hjob rfl hfile ?_ ?_ ?_
    · intro id' hne
      rw [hjobs, Table.lookup_erase_eq, if_neg hne]
    · intro job' hlook
      rw [hjobs, Table.lookup_erase_eq, if_pos rfl] at hlook
      cases hlook
    · rw [setPassword_map UserRec.username fun _ _ => rfl]
      exact hnodup

theorem of_init {file : Option Raw} {us : List UserRec} (hus : usersOf J (.init file) = some us)
    (hnodup : (us.map UserRec.username).Nodup) : Locking J (.init file) where
  holder id job h := by cases h
  registering id f db h := by cases h
  resetting id f db h := by cases h
  names := ⟨us, hus, hnodup⟩

end Locking

/-! ## Different users -/

/-- The file has users whose names are different, and whose subjects are different. -/
def Distinct (J : Codec Raw UserDb) (s : Server Raw) : Prop :=
  ∃ us, usersOf J s = some us ∧ (us.map UserRec.username).Nodup ∧ (us.map UserRec.subject).Nodup

/-- A user who is saved by a registration has a name that is nobody's subject. -/
def FreshSubject (s : Server Raw) : Move → Prop
  | .save id (some _) true => ∀ f db, s.jobs.lookup id = some (.registerLoaded f db) →
    Text.trim f.username ∉ db.users.map UserRec.subject
  | _ => True

/-- What the users are after a move: a registration that is saved adds the user of its form, a reset
that is saved changes the password of the user that its form names, and no other move changes them. -/
def changedUsers (s : Server Raw) (us : List UserRec) : Move → List UserRec
  | .save id (some phc) true =>
    match s.jobs.lookup id with
    | some (.registerLoaded f _) => us ++ [newUser f phc]
    | some (.resetLoaded f _) =>
      us.map fun u => if u.username = Text.trim f.username then u.withPassword phc else u
    | _ => us
  | _ => us

/-- Every move keeps the users of the file but for what it is meant to change. -/
def KeepsUsers (J : Codec Raw UserDb) (L : OidcLib) (cfg : Config) (s : Server Raw) (a : Move) : Prop :=
  ∀ s', s.step J L cfg a = some s' →
    ∃ us, usersOf J s = some us ∧ usersOf J s' = some (changedUsers s us a)

/-- Only a save can change the file. -/
theorem Effect.file {s s' : Server Raw} {a : Move} (he : Effect J s a s')
    (hnot : ∀ id phc, a ≠ .save id (some phc) true) : s'.file = s.file := by
  cases he with
  | answered hfile => exact hfile
  | started _ _ _ _ hfile => exact hfile
  | locked _ _ _ _ _ hfile => exact hfile
  | finished _ _ _ hfile => exact hfile
  | registerLoaded _ _ _ _ _ _ hfile => exact hfile
  | resetLoaded _ _ _ _ _ hfile => exact hfile
  | registered id _ _ phc hmove => exact absurd hmove (hnot id phc)
  | reset id _ _ phc hmove => exact absurd hmove (hnot id phc)

theorem Locking.keeps {s : Server Raw} (h : Locking J s) (a : Move) : KeepsUsers J L cfg s a := by
  intro s' hs
  obtain ⟨us, hus, hnames⟩ := h.names
  refine ⟨us, hus, ?_⟩
  have hsame : (∀ id phc, a ≠ .save id (some phc) true) → changedUsers s us a = us →
      usersOf J s' = some (changedUsers s us a) := by
    intro hnot hchanged
    rw [usersOf_congr ((Server.step_effect hs).file hnot), hus, hchanged]
  cases a with
  | save id phc saveOk =>
    cases phc with
    | none => exact hsame (by simp) rfl
    | some phc =>
      cases saveOk with
      | false => exact hsame (by simp) rfl
      | true =>
        -- only here the file changes, and the job tells how
        simp only [Server.step, Server.save] at hs
        split at hs
        · next f db hjob =>
          cases hs
          rw [usersOf_of_load (h.registering id f db hjob).1, Option.some.injEq] at hus
          subst hus
          simp only [changedUsers, hjob]
          exact usersOf_print rfl
        · next f db hjob =>
          cases hs
          rw [usersOf_of_load (h.resetting id f db hjob), Option.some.injEq] at hus
          subst hus
          simp only [changedUsers, hjob]
          rw [← setPassword_eq_map hnames]
          exact usersOf_print rfl
        · cases hs
  | registerPost => exact hsame (by simp) rfl
  | resetPost => exact hsame (by simp) rfl
  | lock => exact hsame (by simp) rfl
  | load => exact hsame (by simp) rfl
  | authorizePost => exact hsame (by simp) rfl
  | issue => exact hsame (by simp) rfl
  | token => exact hsame (by simp) rfl

theorem nodup_concat {us : List UserRec} {f : RegisterForm} {phc : Text} :
    ((us ++ [newUser f phc]).map UserRec.subject).Nodup ↔
      (us.map UserRec.subject).Nodup ∧ Text.trim f.username ∉ us.map UserRec.subject := by
  have hsub : [newUser f phc].map UserRec.subject = [Text.trim f.username] := rfl
  rw [List.map_append, hsub, List.nodup_append]
  constructor
  · rintro ⟨hnodup, -, hne⟩
    exact ⟨hnodup, fun hmem => hne _ hmem _ (List.mem_singleton_self _) rfl⟩
  · rintro ⟨hnodup, hnot⟩
    refine ⟨hnodup, List.nodup_singleton _, ?_⟩
    intro x hx y hy
    rw [List.mem_singleton.mp hy]
    rintro rfl
    exact hnot hx

/-- A move that registers no subject of somebody else keeps the users different. -/
theorem Locking.distinct_step {s s' : Server Raw} (h : Locking J s) (hd : Distinct J s) {a : Move}
    (hfresh : FreshSubject s a) (he : Effect J s a s') : Distinct J s' := by
  obtain ⟨us, hus, -, hsubs⟩ := hd
  obtain ⟨us', hus', hnames'⟩ := (h.effect he).names
  have hsame : s'.file = s.file → (us'.map UserRec.subject).Nodup := by
    intro hfile
    rw [usersOf_congr hfile, hus] at hus'
    cases hus'
    exact hsubs
  refine ⟨us', hus', hnames', ?_⟩
  cases he with
  | answered hfile => exact hsame hfile
  | started _ _ _ _ hfile => exact hsame hfile
  | locked _ _ _ _ _ hfile => exact hsame hfile
  | finished _ _ _ hfile => exact hsame hfile
  | registerLoaded _ _ _ _ _ _ hfile => exact hsame hfile
  | resetLoaded _ _ _ _ _ hfile => exact hsame hfile
  | registered id f db phc hmove hjob hfile =>
    rw [usersOf_of_load (h.registering id f db hjob).1] at hus
    rw [usersOf_print hfile] at hus'
    cases hus
    cases hus'
    rw [hmove] at hfresh
    exact nodup_concat.mpr ⟨hsubs, hfresh f db hjob⟩
  | reset id f db phc _ hjob hfile =>
    rw [usersOf_of_load (h.resetting id f db hjob)] at hus
    rw [usersOf_print hfile] at hus'
    cases hus
    cases hus'
    rw [setPassword_map UserRec.subject fun _ _ => rfl]
    exact hsubs

/-- And one that leaves them different has registered none. -/
theorem fresh_of_distinct {s s' : Server Raw} {a : Move} (hs : s.step J L cfg a = some s')
    (hd : Distinct J s') : FreshSubject s a := by
  cases a with
  | save id phc saveOk =>
    cases phc with
    | none => trivial
    | some phc =>
      cases saveOk with
      | false => trivial
      | true =>
        intro f db hjob
        simp only [Server.step, Server.save, hjob] at hs
        cases hs
        obtain ⟨us, hus, -, hsubs⟩ := hd
        rw [usersOf_print rfl] at hus
        cases hus
        exact (nodup_concat.mp hsubs).2
  | _ => trivial

/-- **Different users have different subjects**, in every run of the provider that starts with a
file of which that is true, at every moment, if and only if no registration saves a name that is
the subject of a user in the file. User names stay different in any case, and every move keeps all
other users as they are and changes of the one that is reset only the password. -/
theorem subjects_distinct_iff (J : Codec Raw UserDb) (L : OidcLib) (cfg : Config) {file : Option Raw}
    (hfile : Distinct J (.init file)) {as : List Move} {s : Server Raw}
    (hrun : exec (Server.step J L cfg) (.init file) as = some s) :
    (Throughout (Server.step J L cfg) (Distinct J) (.init file) as
      ↔ Along (Server.step J L cfg) FreshSubject (.init file) as)
    ∧ Throughout (Server.step J L cfg)
      (fun s => ∃ us, usersOf J s = some us ∧ (us.map UserRec.username).Nodup) (.init file) as
    ∧ Along (Server.step J L cfg) (KeepsUsers J L cfg) (.init file) as := by
  have hinit : Locking J (.init file) := by
    obtain ⟨us, hus, hnames, -⟩ := hfile
    exact .of_init hus hnames
  have hlocking : ∀ {s s' : Server Raw} {a : Move}, Locking J s → True →
      Server.step J L cfg s a = some s' → Locking J s' :=
    fun h _ hs => h.effect (Server.step_effect hs)
  have htrue : ∀ pre, Along (Server.step J L cfg) (fun _ _ => True) (.init file) pre :=
    along_of_forall (fun _ _ => trivial) _
  refine ⟨?_, ?_, ?_⟩
  · refine throughout_iff_along (I := fun s => Locking J s ∧ Distinct J s) (fun h => h.2) ?_ ?_
      ⟨hinit, hfile⟩ hrun
    · intro s s' a h hok hs
      have he := Server.step_effect hs
      exact ⟨h.1.effect he, h.1.distinct_step h.2 hok he⟩
    · intro s s' a _ hs hd
      exact fresh_of_distinct hs hd
  · intro pre _ s' hs'
    exact (exec_invariant hlocking hinit (htrue pre) hs').names
  · exact along_of_invariant hlocking
      (fun h _ => h.keeps _) hinit (htrue as)

/-! ## A registration to run -/

def sampleConfig : Config where
  issuer := "http://127.0.0.1:9000".toList
  clientId := "slopmud".toList
  clientSecret := "secret".toList
  tokenTtlS := 3600
  authCodeTtlS := 300
  usersPath := true
  allowedRedirectUris := ["http://localhost/cb".toList]
  allowPlaintextPasswords := true
  allowRegistration := true
  allowPasswordReset := true

/-- The challenge is the one of the verifier `abc`. -/
def sampleChallenge : Text := "ungWv48Bz-pBQUDeXa4iI7ADYaOWF3qctBD_YfIAFa0".toList

def sampleLib : OidcLib where
  verifyPhc phc password := some (phc == "phc:".toList ++ password)
  base64urlSha256 v := if v = "abc".toList then sampleChallenge else v
  encodeJwt c := .ok ("jwt:".toList ++ c.sub)
  urlencode t := t

def sampleForm (username : String) : RegisterForm where
  username := username.toList
  password := "password".toList
  responseType := "code".toList
  clientId := "slopmud".toList
  redirectUri := "http://localhost/cb".toList
  scope := none
  state := none
  codeChallenge := sampleChallenge
  codeChallengeMethod := "S256".toList
  password2 := "password".toList

/-- A user who plays under another subject. -/
def sampleUsers : UserDb := ⟨[⟨"wizard".toList, none, some "password".toList, some "alice".toList, none, none⟩]⟩

def registration (username : String) : List Move :=
  [.registerPost 1 (sampleForm username), .lock 1, .load 1 true, .save 1 (some "phc".toList) true,
    .issue 1 (some "k1".toList) 100]

theorem sampleUsers_distinct :
    Distinct (Codec.direct UserDb) (Server.init (some (some sampleUsers))) :=
  ⟨sampleUsers.users, rfl, by decide +kernel, by decide +kernel⟩

theorem subjects_distinct_bob :
    ∃ s, exec (Server.step (Codec.direct UserDb) sampleLib sampleConfig)
        (Server.init (some (some sampleUsers))) (registration "bob") = some s ∧
      (Throughout (Server.step (Codec.direct UserDb) sampleLib sampleConfig)
          (Distinct (Codec.direct UserDb)) (Server.init (some (some sampleUsers))) (registration "bob")
        ↔ Along (Server.step (Codec.direct UserDb) sampleLib sampleConfig) FreshSubject
          (Server.init (some (some sampleUsers))) (registration "bob")) := by
  have hsome : (exec (Server.step (Codec.direct UserDb) sampleLib sampleConfig)
      (Server.init (some (some sampleUsers))) (registration "bob")).isSome = true := by
    decide +kernel
  obtain ⟨s, hs⟩ := Option.isSome_iff_exists.mp hsome
  exact ⟨s, hs, (subjects_distinct_iff _ _ _ sampleUsers_distinct hs).1⟩

/-- The name `alice` is free and the subject `alice` is not: after the registration there are two
users with that subject. -/
theorem alice_registers_a_subject :
    Distinct (Codec.direct UserDb) (Server.init (some (some sampleUsers))) ∧
    (exec (Server.step (Codec.direct UserDb) sampleLib sampleConfig)
        (Server.init (some (some sampleUsers))) (registration "alice")).map
      (fun s => (usersOf (Codec.direct UserDb) s).map (List.map UserRec.subject))
      = some (some ["alice".toList, "alice".toList]) :=
  ⟨sampleUsers_distinct, by decide +kernel⟩

end Slopmud.Oidc
