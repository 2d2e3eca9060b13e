import Slopmud.Broker.Tasks

/-!
# What a connection leaves behind

The cleanup of a connection stands at the end of `handle_conn`, and `?` and panics
go round it. Up to the world that does no harm, since a connection that has not
entered it is not listed and the shard has not heard of it. In the world the read
can fail, `report` can panic over a text, and every line for the event log over its
file. A connection that ends so stays listed for good: its handler is gone, and
nobody else takes a session off the list. Even the cleanup writes a line, between
the two things that it does.
-/

namespace Slopmud.Broker

open Slopmud.Sbc Slopmud.Shard Machine Program

variable {Raw Auth : Type} {cfg : BrokerConfig Raw Auth}

/-! ## Messages to the shard -/

/-- The messages that were sent to the manager, the first one first. -/
def sends : List (Section Auth) → List (ShardMsg Auth) :=
  List.filterMap fun
    | .shard (.send _ msg) => some msg
    | _ => none

/-- The manager panics, which closes its channel. -/
def Section.closes : Section Auth → Bool
  | .shard .managerPanics => true
  | _ => false

/-- The messages that were queued for the shard, the first one first. -/
def queued (trace : List (Section Auth)) : List (ShardMsg Auth) :=
  sends (trace.takeWhile fun o => !o.closes)

/-- Every `Attach` of the session is followed by a `Detach` of it. -/
def DetachedLast (k : ConnId) (msgs : List (ShardMsg Auth)) : Prop :=
  ∀ pre r post, msgs = pre ++ ShardMsg.attach r :: post → r.session = k → ShardMsg.detach k ∈ post

/-- The shard was not asked to attach the session. -/
def NeverAttached (k : ConnId) (msgs : List (ShardMsg Auth)) : Prop :=
  ∀ r, ShardMsg.attach r ∈ msgs → r.session ≠ k

theorem NeverAttached.detachedLast {k : ConnId} {msgs : List (ShardMsg Auth)}
    (h : NeverAttached k msgs) : DetachedLast k msgs := by
  intro pre r post hmsgs hr
  exact absurd hr (h r (by rw [hmsgs]; exact List.mem_append_right _ List.mem_cons_self))

theorem NeverAttached.append {k : ConnId} {msgs more : List (ShardMsg Auth)}
    (h : NeverAttached k msgs) (hmore : NeverAttached k more) : NeverAttached k (msgs ++ more) := by
  intro r hr
  rcases List.mem_append.mp hr with hr | hr
  · exact h r hr
  · exact hmore r hr

theorem DetachedLast.append {k : ConnId} {msgs more : List (ShardMsg Auth)}
    (h : DetachedLast k msgs) (hmore : NeverAttached k more) : DetachedLast k (msgs ++ more) := by
  intro pre r post hmsgs hr
  rcases List.append_eq_append_iff.mp hmsgs with ⟨mid, rfl, hmid⟩ | ⟨mid, hpre, hmid⟩
  · have hmem : ShardMsg.attach r ∈ more := by
      rw [hmid]
      exact List.mem_append_right _ List.mem_cons_self
    exact absurd hr (hmore r hmem)
  · cases mid with
    | nil =>
      have hmem : ShardMsg.attach r ∈ more := by
        rw [← List.nil_append more, ← hmid]
        exact List.mem_cons_self
      exact absurd hr (hmore r hmem)
    | cons msg mid =>
      obtain ⟨rfl, rfl⟩ := List.cons.inj hmid
      exact List.mem_append_left _ (h pre r mid hpre hr)

theorem detachedLast_detach (k : ConnId) (msgs : List (ShardMsg Auth)) :
    DetachedLast k (msgs ++ [ShardMsg.detach k]) := by
  intro pre r post hmsgs _
  rcases List.append_eq_append_iff.mp hmsgs with ⟨mid, rfl, hmid⟩ | ⟨mid, -, hmid⟩
  · rcases List.singleton_eq_append_iff.mp hmid with ⟨-, hcons⟩ | ⟨-, hcons⟩
    · cases hcons
    · cases hcons
  · cases mid with
    | nil => cases hmid
    | cons msg mid =>
      obtain ⟨-, rfl⟩ := List.cons.inj hmid
      exact List.mem_append_right _ List.mem_cons_self

/-! ## The property -/

variable (w : BrokerPool cfg)

/-- The handler of the connection has returned. -/
def Ended (k : ConnId) : Prop := w.task (.conn k) = some (.ret none)

/-- The handler of the connection has begun and not returned. -/
def Running (k : ConnId) : Prop := ∃ p, w.task (.conn k) = some p ∧ p ≠ .ret none

/-- **Every ended connection is cleaned up.** -/
structure CleanedUp : Prop where
  unlisted : ∀ k, Ended w k → w.shared.state.sess.sessions.lookup k = none
  detached : ∀ k, Ended w k → DetachedLast k (queued w.shared.trace)
  /-- All sessions that would be attached again have a connection. -/
  reattached : ∀ k info, w.shared.state.sess.sessions.lookup k = some info → Running w k

/-- The read of a connection fails. -/
def readFails (e : Env) : Bool := !e.told && e.readError

/-- **What goes round the cleanup**, or is missing from it: a read that fails, a panic, and a `Detach`
that a closed channel does not take. -/
def slips (closed : Bool) (e : Env) : Section Auth → Bool
  | .recv _ => readFails e
  | .ask .log => !e.logOk
  | .ask (.answer _) => e.panics
  | .shard (.send _ (.detach _)) => closed
  | _ => false

/-- There is nothing of the connection to clean up. -/
structure NothingLeft (s : Traced (Shared cfg.ip Raw Auth) (Section Auth)) (k : ConnId) : Prop where
  unlisted : s.state.sess.sessions.lookup k = none
  detached : DetachedLast k (queued s.trace)

/-- **A connection slips only while there is nothing of it to clean up.** -/
def SlipsClean (m : BrokerMove Auth) : Prop :=
  ∀ k e o, m = .run (.conn k) e → w.section? m = some o →
    slips (w.shared.trace.any Section.closes) e o = true → NothingLeft w.shared k

/-! ## What a connection knows of itself -/

inductive Stage where
  /-- It is not in the world. -/
  | outside
  | listed
  | attached
  | removed
  | gone
  /-- It has ended in the world. -/
  | ghost
deriving DecidableEq

instance : Inhabited Stage := ⟨.outside⟩

/-- The handler has nothing more to do. -/
def Stage.over : Stage → Bool
  | .gone | .ghost => true
  | _ => false

/-- The end of a handler that goes round the rest of the cleanup. -/
def Stage.slipped : Stage → Stage
  | .outside => .outside
  | .removed => .gone
  | .gone => .gone
  | _ => .ghost

/-- What the stage of a connection says about the state. -/
def Stage.Holds (s : Traced (Shared cfg.ip Raw Auth) (Section Auth)) (k : ConnId) : Stage → Prop
  | .outside => s.state.sess.sessions.lookup k = none ∧ NeverAttached k (queued s.trace)
  | .listed => s.state.sess.sessions.lookup k ≠ none ∧ NeverAttached k (queued s.trace)
  | .attached => s.state.sess.sessions.lookup k ≠ none
  | .removed => s.state.sess.sessions.lookup k = none
  | .gone => NothingLeft s k
  | .ghost => False

/-- When a connection may name a section. -/
def Stage.Allows (k : ConnId) (g : Stage) : Section Auth → Prop
  | .sess (.insert k' _ _) => k' = k ∧ g = .outside
  | .sess (.remove k') => k' = k ∧ (g = .outside ∨ g = .attached)
  | .shard (.send _ (.attach r)) => r.session = k ∧ g = .listed
  | .shard (.send _ (.detach k')) => k' = k ∧ g = .removed
  | .recv k' => k' = k ∧ (g = .outside ∨ g = .attached)
  | _ => g.over = false

def Stage.after (g : Stage) : (o : Section Auth) → o.R → Stage
  | .sess (.insert _ _ _), _ => .listed
  | .sess (.remove _), some _ => .removed
  | .sess (.remove _), none => .gone
  | .shard (.send _ (.attach _)), _ => .attached
  | .shard (.send _ (.detach _)), _ => .gone
  | .recv _, .error => g.slipped
  | .ask .log, false => g.slipped
  | .ask (.answer _), none => g.slipped
  | _, _ => g

/-- A connection is in the world exactly when its local state says so. -/
def Stage.Fits (g : Stage) (c : Conn Auth) : Prop :=
  (g = .outside ∧ c.state ≠ .inWorld) ∨ (g = .attached ∧ c.state = .inWorld)

def Stage.Ends (g : Stage) : TaskResult Auth → Prop
  | some c => g.Fits c
  | none => g = .outside ∨ g.over = true

/-- What a connection promises, up to what it does at its end. -/
def stages {α : Type} (k : ConnId) (post : Stage → α → Prop) :
    Contract (Section Auth) Section.R Stage α where
  ok := Stage.Allows k
  ans _ _ := True
  note := Stage.after
  post := post

/-- What each task promises. -/
def cleanupContract : TaskId → Contract (Section Auth) Section.R Stage (TaskResult Auth)
  | .conn k => stages k Stage.Ends
  | .other _ => {
      ok := fun _ o => o.ofOthers = true
      ans := fun _ _ => True
      note := fun g _ _ => g
      post := fun _ _ => True }

/-! ## The programs of a connection -/

/-- The sections that no stage depends on. -/
def Section.idle : Section Auth → Bool
  | .sess (.insert _ _ _) => false
  | .sess (.remove _) => false
  | .shard (.send _ (.attach _)) => false
  | .shard (.send _ (.detach _)) => false
  | .recv _ => false
  | .ask .log => false
  | .ask (.answer _) => false
  | _ => true

/-- A section that no stage depends on may be named until the handler is over. -/
theorem Stage.idle_spec {o : Section Auth} (ho : o.idle = true) (k : ConnId) (g : Stage) :
    (g.over = false → g.Allows k o) ∧ ∀ r, g.after o r = g := by
  cases o with
  | sess o =>
    cases o with
    | insert _ _ _ => cases ho
    | remove _ => cases ho
    | _ => exact ⟨id, fun _ => rfl⟩
  | shard o =>
    cases o with
    | send _ msg =>
      cases msg with
      | input _ _ => exact ⟨id, fun _ => rfl⟩
      | _ => cases ho
    | _ => exact ⟨id, fun _ => rfl⟩
  | ask q =>
    cases q with
    | answer _ => cases ho
    | log => cases ho
    | _ => exact ⟨id, fun _ => rfl⟩
  | recv _ => cases ho
  | _ => exact ⟨id, fun _ => rfl⟩

section

variable {α β : Type} {k : ConnId} {g : Stage} {Q : Stage → β → Prop}

theorem safe_op {o : Section Auth} {f : o.R → Task Auth β} (hok : g.Allows k o)
    (h : ∀ r, Safe (stages k Q) (g.after o r) (f r)) : Safe (stages k Q) g (op o >>= f) :=
  ⟨hok, fun r _ => h r⟩

theorem safe_idle {o : Section Auth} {f : o.R → Task Auth β} (hg : g.over = false) (ho : o.idle = true)
    (h : ∀ r, Safe (stages k Q) g (f r)) : Safe (stages k Q) g (op o >>= f) := by
  have hspec := Stage.idle_spec ho k g
  refine safe_op (hspec.1 hg) fun r => ?_
  rw [hspec.2 r]
  exact h r

/-- A line for the event log is written, or it ends the handler. -/
theorem safe_logged {f : Bool → Task Auth β} (hg : g.over = false) (h : Safe (stages k Q) g (f true))
    (hpanic : Safe (stages k Q) g.slipped (f false)) : Safe (stages k Q) g (Handler.logged >>= f) := by
  refine safe_op hg fun ok => ?_
  cases ok with
  | true => exact h
  | false => exact hpanic

/-- The program names only sections that no stage depends on, and its result meets `P`. -/
def Quiet (k : ConnId) (p : Task Auth α) (P : α → Prop) : Prop :=
  ∀ g : Stage, g.over = false → Safe (stages k fun g' a => g' = g ∧ P a) g p

theorem quiet_op {o : Section Auth} (ho : o.idle = true) : Quiet k (op o) fun _ => True := by
  intro g hg
  have hspec := Stage.idle_spec ho k g
  exact ⟨hspec.1 hg, fun r _ => ⟨hspec.2 r, trivial⟩⟩

theorem quiet_pure {a : α} {P : α → Prop} (h : P a) :
    Quiet k (pure a : Task Auth α) P := fun _ _ => ⟨rfl, h⟩

theorem Quiet.bind {p : Task Auth α} {f : α → Task Auth β} {P : α → Prop} {P' : β → Prop}
    (hp : Quiet k p P) (hf : ∀ a, P a → Quiet k (f a) P') : Quiet k (p >>= f) P' := by
  intro g hg
  refine Safe.bind (hp g hg) ?_
  rintro _ a ⟨rfl, ha⟩
  exact hf a ha _ hg

/-- **The rule for a quiet beginning.** -/
theorem Quiet.safe {p : Task Auth α} {f : α → Task Auth β} {P : α → Prop} (hp : Quiet k p P)
    (hg : g.over = false) (hf : ∀ a, P a → Safe (stages k Q) g (f a)) : Safe (stages k Q) g (p >>= f) := by
  refine Safe.bind (hp g hg) ?_
  rintro _ a ⟨rfl, ha⟩
  exact hf a ha

end

/-! ### Before the world -/

/-- What is known when a round ends. -/
def FlowEnds (g : Stage) : Flow Auth → Prop
  | .next c => g.Fits c
  | .leave _ => g = .outside ∨ g = .attached
  | .fail => g = .outside ∨ g = .ghost

/-- A round that begins outside the world. -/
def Outside (k : ConnId) (p : Task Auth (Flow Auth)) : Prop := Safe (stages k FlowEnds) .outside p

section

open Handler

variable {k : ConnId}

theorem Quiet.outside {α : Type} {p : Task Auth α} {f : α → Task Auth (Flow Auth)} {P : α → Prop}
    (hp : Quiet k p P) (hf : ∀ a, P a → Outside k (f a)) : Outside k (p >>= f) :=
  hp.safe (by decide) hf

theorem outside_next {c : Conn Auth} (h : c.state ≠ .inWorld) :
    Outside k (pure (.next c)) := Or.inl ⟨rfl, h⟩

theorem outside_leave (c : Conn Auth) : Outside k (pure (.leave c)) := Or.inl rfl

theorem outside_fail : Outside k (pure (.fail : Flow Auth)) := Or.inl rfl

theorem quiet_say (msg : Text) : Quiet k (say k msg : Task Auth Unit) fun _ => True := quiet_op rfl

theorem quiet_send (msg : Bytes) : Quiet k (send k msg : Task Auth Unit) fun _ => True := quiet_op rfl

theorem outside_answer {c : Conn Auth} (msg : String) (h : c.state ≠ .inWorld) :
    Outside k (answer k msg c) :=
  (quiet_say msg.toList).outside fun _ _ => outside_next h

theorem outside_logged {f : Bool → Task Auth (Flow Auth)} (h : ∀ ok, Outside k (f ok)) :
    Outside k (logged >>= f) :=
  safe_logged rfl (h true) (h false)

theorem outside_banned (c : Conn Auth) : Outside k (banned k c) := by
  refine outside_logged fun ok => ?_
  cases ok with
  | true => exact (quiet_say _).outside fun _ _ => outside_leave c
  | false => exact outside_fail

theorem quiet_waitForSavedPlayer (n : Text) (rounds : Nat) :
    Quiet k (waitForSavedPlayer k n rounds : Task Auth _) fun _ => True := by
  induction rounds with
  | zero => exact quiet_op rfl
  | succ rounds ih =>
    refine (quiet_op rfl).bind fun saved _ => ?_
    cases saved with
    | some saved => exact quiet_pure trivial
    | none =>
      refine (quiet_op rfl).bind fun passed _ => ?_
      split
      · exact quiet_pure trivial
      · exact ih

/-- Entering the world takes a connection from outside it to being attached, or leaves a ghost. -/
theorem safe_enterWorld {info : SessionInfo Auth} {skipped : Bool} :
    Safe (stages k fun g entered => g = if entered then .attached else .ghost) .outside
      (enterWorld cfg k info skipped) := by
  refine safe_idle rfl rfl fun held => ?_
  refine safe_op ⟨rfl, rfl⟩ fun _ => ?_
  refine safe_logged rfl ?_ ?_
  · exact ⟨⟨rfl, rfl⟩, fun _ _ => rfl⟩
  · exact rfl

theorem outside_enterWorld {info : SessionInfo Auth} {skipped : Bool} {c : Conn Auth}
    (h : c.state = .inWorld) :
    Outside k (do if ← enterWorld cfg k info skipped then pure (.next c) else pure .fail) := by
  refine Safe.bind safe_enterWorld ?_
  rintro _ entered rfl
  cases entered with
  | true => exact Or.inr ⟨rfl, h⟩
  | false => exact Or.inr rfl

theorem outside_enterOrCreate (lead : String) (c : Conn Auth) :
    Outside k (enterOrCreate cfg k lead c) := by
  refine (quiet_waitForSavedPlayer _ _).outside fun saved _ => ?_
  cases saved with
  | none => exact outside_answer _ (by simp)
  | some saved => exact outside_enterWorld rfl

theorem quiet_createLinked (p : Provider) (n sub : Text) (email : Option Text)
    (caps : Option (List Text)) (c : Conn Auth) (now : Nat) :
    Quiet k (createLinked cfg k p n sub email caps c now) fun _ => True := by
  refine (quiet_op rfl).bind fun saved _ => ?_
  split
  · exact quiet_pure trivial
  · exact quiet_pure trivial

/-! #### `WEB_AUTH` -/

/-- A refused request leaves the connection outside. -/
def Refused : WebAuth Auth → Prop
  | .refused c => c.state ≠ .inWorld
  | _ => True

theorem quiet_refuse {c : Conn Auth} (msg : String) (h : c.state ≠ .inWorld) :
    Quiet k (refuse k msg c) Refused :=
  (quiet_say msg.toList).bind fun _ _ => quiet_pure h

theorem quiet_createPassword (req : WebAuthReq) (uname : Text) {c : Conn Auth}
    (h : c.state ≠ .inWorld) : Quiet k (createPassword cfg k req uname c) Refused := by
  dsimp only [createPassword]
  split
  · exact quiet_refuse _ h
  · refine (quiet_op rfl).bind fun taken _ => ?_
    split
    · exact quiet_refuse _ h
    · refine (quiet_op rfl).bind fun hash _ => ?_
      cases hash with
      | none => exact quiet_pure trivial
      | some hash =>
        refine (quiet_op rfl).bind fun now _ => ?_
        refine (quiet_op rfl).bind fun saved _ => ?_
        split
        · exact quiet_pure trivial
        · exact quiet_pure trivial

theorem quiet_loginPassword (req : WebAuthReq) (uname : Text) {c : Conn Auth}
    (h : c.state ≠ .inWorld) : Quiet k (loginPassword cfg k req uname c) Refused := by
  refine (quiet_op rfl).bind fun account _ => ?_
  cases account with
  | none => exact quiet_refuse _ h
  | some r =>
    dsimp only
    split
    · exact quiet_refuse _ h
    · split
      · exact quiet_pure trivial
      · exact quiet_refuse _ h

theorem quiet_webAuthIdentity (p : Provider) (create : Bool) (req : WebAuthReq) (uname : Text)
    {c : Conn Auth} (h : c.state ≠ .inWorld) :
    Quiet k (webAuthIdentity cfg k p create req uname c) Refused := by
  dsimp only [webAuthIdentity]
  split
  · exact (quiet_say _).bind fun _ _ => quiet_pure h
  · refine (quiet_op rfl).bind fun now _ => ?_
    refine (quiet_op rfl).bind fun account _ => ?_
    cases create with
    | false =>
      cases account with
      | none => exact quiet_refuse _ h
      | some r =>
        dsimp only
        split
        · exact quiet_pure trivial
        · exact (quiet_say _).bind fun _ _ => quiet_pure h
    | true =>
      cases account with
      | some r => exact quiet_refuse _ h
      | none =>
        refine (quiet_createLinked p uname _ _ _ c now).bind fun c' _ => ?_
        cases c' with
        | none => exact quiet_pure trivial
        | some c' => exact quiet_pure trivial

theorem quiet_webAuthAs (action method : Text) (req : WebAuthReq) (uname : Text) {c : Conn Auth}
    (h : c.state ≠ .inWorld) : Quiet k (webAuthAs cfg k action method req uname c) Refused := by
  dsimp only [webAuthAs]
  split
  · split
    · exact quiet_createPassword req uname h
    · split
      · exact quiet_loginPassword req uname h
      · exact quiet_refuse _ h
  · split
    · split
      · exact quiet_webAuthIdentity _ _ req uname h
      · exact quiet_refuse _ h
    · exact quiet_refuse _ h

theorem outside_webAuthNamed (action method : Text) (req : WebAuthReq) (uname : Text) {c : Conn Auth}
    (h : c.state ≠ .inWorld) : Outside k (webAuthNamed cfg k action method req uname c) := by
  unfold webAuthNamed
  split
  · exact outside_answer _ h
  · refine (quiet_op rfl).outside fun ban _ => ?_
    cases ban with
    | some ban => exact outside_banned c
    | none =>
      refine (quiet_webAuthAs action method req uname h).outside fun result hresult => ?_
      cases result with
      | refused c' => exact outside_next hresult
      | failed => exact outside_fail
      | accepted c' => exact outside_enterOrCreate _ c'

theorem quiet_resolveAuto (p : Provider) (req : WebAuthReq) {c : Conn Auth} (h : c.state ≠ .inWorld) :
    Quiet k (resolveAuto k p req c) fun r => r.1.state ≠ .inWorld := by
  dsimp only [resolveAuto]
  split
  · exact (quiet_say _).bind fun _ _ => quiet_pure h
  · refine (quiet_op rfl).bind fun names _ => ?_
    split
    · split
      · exact quiet_pure h
      · refine (quiet_op rfl).bind fun account _ => ?_
        cases account with
        | none => exact quiet_pure h
        | some r =>
          dsimp only
          split
          · exact quiet_pure h
          · exact (quiet_say _).bind fun _ _ => quiet_pure (by simp)
    · exact quiet_pure h
    · exact (quiet_say _).bind fun _ _ => quiet_pure h

theorem outside_webAuth (line : List Byte) (rest : Text) {c : Conn Auth} (h : c.state ≠ .inWorld) :
    Outside k (webAuth cfg k line rest c) := by
  unfold webAuth
  split
  · exact outside_answer _ h
  · refine (quiet_op rfl).outside fun _ _ => ?_
    dsimp only
    split
    · refine (quiet_resolveAuto _ _ h).outside fun r hr => ?_
      obtain ⟨c', resolved⟩ := r
      cases resolved with
      | none => exact outside_next hr
      | some resolved => exact outside_webAuthNamed _ _ _ _ hr
    · exact outside_webAuthNamed _ _ _ _ h

/-! #### The name prompt -/

theorem outside_pendingLogin (pending : PendingAutoWebAuth) (n : Text) {c : Conn Auth}
    (h : c.state ≠ .inWorld) : Outside k (pendingLogin cfg k pending n c) := by
  refine (quiet_op rfl).outside fun account _ => ?_
  cases account with
  | some r =>
    dsimp only
    split
    · exact outside_enterOrCreate _ _
    · exact outside_answer _ h
  | none =>
    refine (quiet_op rfl).outside fun now _ => ?_
    refine (quiet_createLinked _ n _ _ _ c now).outside fun c' _ => ?_
    cases c' with
    | none => exact outside_fail
    | some c' => exact outside_enterOrCreate _ _

theorem outside_chooseName (line : Text) {c : Conn Auth} (h : c.state ≠ .inWorld) :
    Outside k (chooseName cfg k line c) := by
  dsimp only [chooseName]
  split
  · exact outside_answer _ h
  · refine (quiet_op rfl).outside fun ban _ => ?_
    cases ban with
    | some ban => exact outside_banned c
    | none =>
      dsimp only
      split
      · exact outside_pendingLogin _ _ h
      · exact outside_answer _ (by simp)

theorem outside_nameLine (lineBytes : List Byte) (line : Text) {c : Conn Auth}
    (h : c.state ≠ .inWorld) : Outside k (nameLine cfg k lineBytes line c) := by
  unfold nameLine
  split
  · exact outside_webAuth _ _ h
  · exact outside_chooseName _ h

theorem outside_needName (lineBytes : List Byte) {c : Conn Auth} (h : c.state ≠ .inWorld) :
    Outside k (needName cfg k lineBytes c) := by
  dsimp only [needName]
  split
  · exact outside_next h
  · split
    · refine outside_logged fun ok => ?_
      cases ok with
      | false => exact outside_fail
      | true =>
        refine (quiet_op rfl).outside fun ban _ => ?_
        cases ban with
        | some ban => exact outside_banned _
        | none => exact outside_next h
    · split
      · exact outside_nameLine _ _ h
      · refine (quiet_op rfl).outside fun ban _ => ?_
        cases ban with
        | some ban => exact outside_banned _
        | none => exact outside_nameLine _ _ h

/-! #### The way to an account -/

theorem quiet_echoOn (c : Conn Auth) : Quiet k (echoOn k c) fun c' => c'.state = c.state := by
  unfold echoOn
  split
  · exact (quiet_send _).bind fun _ _ => quiet_pure rfl
  · exact quiet_pure rfl

theorem outside_choosePassword (account : Option AccountRec) {c : Conn Auth}
    (h : c.state ≠ .inWorld) : Outside k (choosePassword cfg k account c) := by
  dsimp only [choosePassword]
  split
  · exact (quiet_send _).outside fun _ _ => outside_next (by simp)
  · split
    · split
      · exact outside_answer _ h
      · exact outside_answer _ h
    · exact (quiet_send _).outside fun _ _ => outside_next (by simp)

theorem outside_chooseGoogle (account : Option AccountRec) {c : Conn Auth}
    (h : c.state ≠ .inWorld) : Outside k (chooseGoogle cfg k account c) := by
  dsimp only [chooseGoogle]
  split
  · exact outside_answer _ h
  · refine (quiet_op rfl).outside fun code _ => ?_
    cases code with
    | none => exact outside_fail
    | some code => exact (quiet_say _).outside fun _ _ => outside_next (by simp)

theorem outside_needAuthMethod (lineBytes : List Byte) {c : Conn Auth} (h : c.state ≠ .inWorld) :
    Outside k (needAuthMethod cfg k lineBytes c) := by
  dsimp only [needAuthMethod]
  split
  · exact outside_next (by simp)
  · split
    · exact outside_next h
    · refine (quiet_op rfl).outside fun account _ => ?_
      split
      · exact outside_choosePassword account h
      · split
        · exact outside_chooseGoogle account h
        · split
          · split
            · exact outside_answer _ h
            · exact outside_answer _ h
          · exact outside_answer _ h

theorem outside_giveUpGoogle (code msg : Text) (c : Conn Auth) :
    Outside k (giveUpGoogle k code msg c) := by
  refine (quiet_op rfl).outside fun _ _ => ?_
  exact (quiet_say msg).outside fun _ _ => outside_next (by simp)

theorem outside_googleSignedIn (code sub : Text) (email : Option Text) (now : Nat) (c : Conn Auth) :
    Outside k (googleSignedIn cfg k code sub email now c) := by
  refine (quiet_op rfl).outside fun bound _ => ?_
  match bound with
  | .taken => exact (quiet_say _).outside fun _ _ => outside_leave _
  | .bound false => exact outside_fail
  | .bound true => exact (quiet_op rfl).outside fun _ _ => outside_enterOrCreate _ _

theorem outside_checkGoogle (code : Text) {c : Conn Auth} (h : c.state ≠ .inWorld) :
    Outside k (checkGoogle cfg k code c) := by
  refine (quiet_op rfl).outside fun found _ => ?_
  cases found with
  | missing => exact outside_answer _ h
  | corrupted => exact outside_answer _ h
  | found pending =>
    refine (quiet_op rfl).outside fun now _ => ?_
    split
    · exact outside_giveUpGoogle _ _ c
    · split
      · exact outside_answer _ h
      · split
        · exact outside_giveUpGoogle _ _ c
        · split
          · exact outside_answer _ h
          · split
            · exact outside_answer _ h
            · exact outside_googleSignedIn _ _ _ _ c

theorem outside_needGoogleWait (lineBytes : List Byte) {c : Conn Auth} (h : c.state ≠ .inWorld) :
    Outside k (needGoogleWait cfg k lineBytes c) := by
  dsimp only [needGoogleWait]
  split
  · exact outside_next h
  · split
    · exact outside_answer _ (by simp)
    · split
      · exact outside_giveUpGoogle _ _ c
      · split
        · exact outside_checkGoogle _ h
        · exact outside_answer _ h

theorem outside_tooSoon (wait : Nat) (prompt : String) {c : Conn Auth} (h : c.state ≠ .inWorld) :
    Outside k (tooSoon k wait prompt c) :=
  (quiet_send _).outside fun _ _ => outside_next h

theorem outside_badPassword (n : Text) (what prompt : String) {c : Conn Auth}
    (h : c.state ≠ .inWorld) : Outside k (badPassword k n what prompt c) := by
  refine (quiet_op rfl).outside fun delay _ => ?_
  exact (quiet_send _).outside fun _ _ => outside_next h

theorem outside_needPasswordCreate (lineBytes : List Byte) {c : Conn Auth} (h : c.state ≠ .inWorld) :
    Outside k (needPasswordCreate cfg k lineBytes c) := by
  refine (quiet_op rfl).outside fun wait _ => ?_
  dsimp only
  split
  · exact outside_tooSoon _ _ h
  · refine (quiet_echoOn c).outside fun c' hc' => ?_
    split
    · exact outside_badPassword _ _ _ (hc' ▸ h)
    · refine (quiet_say _).outside fun _ _ => ?_
      refine (quiet_op rfl).outside fun hash _ => ?_
      cases hash with
      | none => exact outside_fail
      | some hash =>
        refine (quiet_op rfl).outside fun now _ => ?_
        refine (quiet_op rfl).outside fun saved _ => ?_
        split
        · exact (quiet_op rfl).outside fun _ _ => outside_enterOrCreate _ _
        · exact outside_fail

theorem outside_needPasswordLogin (lineBytes : List Byte) {c : Conn Auth} (h : c.state ≠ .inWorld) :
    Outside k (needPasswordLogin cfg k lineBytes c) := by
  refine (quiet_op rfl).outside fun wait _ => ?_
  dsimp only
  split
  · exact outside_tooSoon _ _ h
  · refine (quiet_op rfl).outside fun account _ => ?_
    split
    · refine (quiet_echoOn c).outside fun c' _ => ?_
      exact (quiet_say _).outside fun _ _ => outside_leave _
    · refine (quiet_echoOn c).outside fun c' hc' => ?_
      split
      · refine (quiet_say _).outside fun _ _ => ?_
        exact (quiet_op rfl).outside fun _ _ => outside_enterOrCreate _ _
      · exact outside_badPassword _ _ _ (hc' ▸ h)

/-! #### Character creation -/

theorem outside_needBotDisclosure (lineBytes : List Byte) {c : Conn Auth} (h : c.state ≠ .inWorld) :
    Outside k (needBotDisclosure k lineBytes c) := by
  dsimp only [needBotDisclosure]
  split
  · exact outside_next h
  · split
    · exact outside_answer _ (by simp)
    · split
      · exact outside_answer _ (by simp)
      · exact outside_answer _ h

theorem outside_needAgreement {state : ConnState} (prompt : String) (lineBytes : List Byte)
    {c : Conn Auth} (h : c.state ≠ .inWorld) (hstate : state ≠ .inWorld) :
    Outside k (needAgreement k state prompt lineBytes c) := by
  dsimp only [needAgreement]
  split
  · exact outside_next h
  · split
    · exact outside_answer _ h
    · exact outside_answer _ hstate

theorem outside_needToken (kind plural sample : String) (tokens : List Text)
    {accept : Text → Task Auth (Flow Auth)} (lineBytes : List Byte) {c : Conn Auth}
    (h : c.state ≠ .inWorld) (haccept : ∀ token, Outside k (accept token)) :
    Outside k (needToken k kind plural sample tokens accept lineBytes c) := by
  dsimp only [needToken]
  split
  · exact outside_next h
  · split
    · exact (quiet_say _).outside fun _ _ => outside_next h
    · split
      · exact haccept _
      · exact outside_answer _ h

theorem quiet_handleAccountCommand (name line : Text) :
    Quiet k (handleAccountCommand k name line : Task Auth Text) fun _ => True := by
  have hemail : ∀ {f : Option (Option Bool) → Task Auth Text} (email : Option Text),
      (∀ changed, Quiet k (f changed) fun _ => True) →
      Quiet k (op (.acct (.setEmail name email)) >>= f) fun _ => True :=
    fun email hf => (quiet_op rfl).bind fun changed _ => hf changed
  dsimp only [handleAccountCommand]
  split
  · exact quiet_pure trivial
  · split
    · exact quiet_pure trivial
    · split
      · exact (quiet_op rfl).bind fun _ _ => quiet_pure trivial
      · split
        · split
          · exact quiet_pure trivial
          · refine hemail _ fun changed => ?_
            split <;> exact quiet_pure trivial
        · split
          · refine hemail _ fun changed => ?_
            split <;> exact quiet_pure trivial
          · exact quiet_pure trivial

theorem quiet_printUptime : Quiet k (printUptime k : Task Auth Unit) fun _ => True :=
  (quiet_op rfl).bind fun _ _ => quiet_send _

/-- Where a connection can be between two rounds. -/
def Stage.Settled (g : Stage) : Prop := g = .outside ∨ g = .attached

theorem Stage.Settled.not_over {g : Stage} (h : g.Settled) : g.over = false := by
  rcases h with rfl | rfl
  · rfl
  · rfl

/-- To slip leaves nothing behind outside the world; in the world it leaves a ghost. -/
theorem Stage.Settled.slipped {g : Stage} (h : g.Settled) :
    g.slipped = .outside ∨ g.slipped = .ghost := by
  rcases h with rfl | rfl
  · exact Or.inl rfl
  · exact Or.inr rfl

theorem Stage.Fits.settled {g : Stage} {c : Conn Auth} (h : g.Fits c) : g.Settled :=
  h.imp And.left And.left

theorem safe_printAnswer (line : Text) {g : Stage} {c : Conn Auth} (h : g.Fits c) :
    Safe (stages k FlowEnds) g (printAnswer k line c) := by
  have hg := h.settled.not_over
  refine safe_op hg fun out => ?_
  cases out with
  | none => exact h.settled.slipped
  | some out => exact (quiet_send _).safe hg fun _ _ => h

theorem safe_command (name line : Text) {g : Stage} {c : Conn Auth} (h : g.Fits c) :
    Safe (stages k FlowEnds) g (command k name line c) := by
  have hg := h.settled.not_over
  dsimp only [command]
  split
  · exact (quiet_say _).safe hg fun _ _ => h.settled
  · split
    · refine quiet_printUptime.safe hg fun _ _ => ?_
      exact (quiet_op rfl).safe hg fun _ _ => h
    · split
      · exact quiet_printUptime.safe hg fun _ _ => h
      · split
        · exact safe_printAnswer _ h
        · split
          · refine (quiet_handleAccountCommand _ _).safe hg fun _ _ => ?_
            exact (quiet_say _).safe hg fun _ _ => h
          · exact (quiet_op rfl).safe hg fun _ _ => h

/-- A line in the world is served wherever the connection is. -/
theorem safe_inWorld (lineBytes : List Byte) {g : Stage} {c : Conn Auth} (h : g.Fits c) :
    Safe (stages k FlowEnds) g (inWorld k lineBytes c) := by
  dsimp only [inWorld]
  split
  · exact h
  · exact h
  · exact safe_logged h.settled.not_over (safe_command _ _ h) h.settled.slipped

theorem outside_afterQuestions (lineBytes : List Byte) {c : Conn Auth} (h : c.state ≠ .inWorld) :
    Outside k (afterQuestions cfg k lineBytes c) := by
  unfold afterQuestions
  split
  · exact outside_enterWorld rfl
  · exact safe_inWorld lineBytes (Or.inl ⟨rfl, h⟩)

theorem outside_needSex (lineBytes : List Byte) {c : Conn Auth} (h : c.state ≠ .inWorld) :
    Outside k (needSex cfg k lineBytes c) := by
  dsimp only [needSex]
  split
  · exact outside_next h
  · split
    · exact outside_afterQuestions _ h
    · split
      · exact outside_afterQuestions _ h
      · split
        · exact outside_afterQuestions _ h
        · split
          · exact outside_answer _ (by simp)
          · exact outside_answer _ h

theorem outside_needPronouns (lineBytes : List Byte) {c : Conn Auth} (h : c.state ≠ .inWorld) :
    Outside k (needPronouns cfg k lineBytes c) := by
  unfold needPronouns
  split
  · exact outside_answer _ h
  · exact outside_afterQuestions _ h

/-! ### The loops -/

theorem safe_handleLine (lineBytes : List Byte) {g : Stage} {c : Conn Auth} (h : g.Fits c) :
    Safe (stages k FlowEnds) g (handleLine cfg k lineBytes c) := by
  rcases h with ⟨rfl, hstate⟩ | ⟨rfl, hstate⟩
  · unfold handleLine
    cases hc : c.state with
    | needName => exact outside_needName lineBytes hstate
    | needAuthMethod => exact outside_needAuthMethod lineBytes hstate
    | needGoogleWait => exact outside_needGoogleWait lineBytes hstate
    | needPasswordCreate => exact outside_needPasswordCreate lineBytes hstate
    | needPasswordLogin => exact outside_needPasswordLogin lineBytes hstate
    | needBotDisclosure => exact outside_needBotDisclosure lineBytes hstate
    | needPublicAck => exact outside_needAgreement _ lineBytes hstate (by decide)
    | needCocAck => exact outside_needAgreement _ lineBytes hstate (by decide)
    | needRace =>
      exact outside_needToken _ _ _ _ lineBytes hstate fun _ => outside_answer _ (by simp)
    | needClass =>
      exact outside_needToken _ _ _ _ lineBytes hstate fun _ => outside_answer _ (by simp)
    | needSex => exact outside_needSex lineBytes hstate
    | needPronouns => exact outside_needPronouns lineBytes hstate
    | inWorld => exact absurd hc hstate
  · unfold handleLine
    rw [hstate]
    exact safe_inWorld lineBytes (Or.inr ⟨rfl, hstate⟩)

theorem safe_readMore {g : Stage} {c : Conn Auth} (h : g.Fits c) :
    Safe (stages k FlowEnds) g (readMore k c) := by
  refine safe_op ⟨rfl, h.settled⟩ fun got => ?_
  cases got with
  | error => exact h.settled.slipped
  | eof => exact h.settled
  | told => exact h.settled
  | data chunk =>
    dsimp only
    split
    · exact h
    · exact (quiet_send _).safe h.settled.not_over fun _ _ => h

theorem safe_turn {g : Stage} {c : Conn Auth} (h : g.Fits c) :
    Safe (stages k FlowEnds) g (turn cfg k c) := by
  unfold turn
  split
  · exact safe_readMore h
  · exact h
  · exact safe_handleLine _ h

/-- **The cleanup** undoes the entry into the world, wherever it begins. -/
theorem safe_cleanup {g : Stage} (hg : g.Settled) (c : Conn Auth) :
    Safe (stages k fun g' _ => g' = .gone) g (cleanup k c) := by
  refine (quiet_echoOn c).safe hg.not_over fun _ _ => ?_
  refine safe_op ⟨rfl, hg⟩ fun info => ?_
  cases info with
  | none => rfl
  | some info =>
    refine safe_logged rfl ?_ ?_
    · exact ⟨⟨rfl, rfl⟩, fun _ _ => rfl⟩
    · exact rfl

theorem safe_round {g : Stage} {c : Conn Auth} (h : g.Fits c) :
    Safe (stages k Stage.Ends) g (round cfg k c) := by
  refine Safe.bind (safe_turn h) ?_
  intro g' flow hflow
  cases flow with
  | next c' => exact hflow
  | leave c' =>
    refine Safe.bind (safe_cleanup hflow c') ?_
    rintro _ _ rfl
    exact Or.inr rfl
  | fail =>
    refine hflow.imp id ?_
    rintro rfl
    rfl

theorem safe_greet : Safe (stages k Stage.Ends) .outside (greet k : Task Auth (TaskResult Auth)) := by
  refine safe_idle rfl rfl fun peer => ?_
  refine safe_logged rfl ?_ ?_
  · refine (quiet_say _).safe rfl fun _ _ => ?_
    exact Or.inl ⟨rfl, by simp [Conn.new]⟩
  · exact Or.inl rfl

end

/-! ## The pool -/

section

variable {s s' : Traced (Shared cfg.ip Raw Auth) (Section Auth)} {o : Section Auth} {e : Env} {r : o.R}

theorem sends_append (xs ys : List (Section Auth)) : sends (xs ++ ys) = sends xs ++ sends ys :=
  List.filterMap_append

/-- What the channel takes of a section that comes after others. -/
def taken (trace : List (Section Auth)) (o : Section Auth) : List (ShardMsg Auth) :=
  if trace.any Section.closes then [] else sends [o]

theorem sends_closes (h : o.closes = true) : sends [o] = [] := by
  cases o with
  | shard o =>
    cases o with
    | managerPanics => rfl
    | _ => cases h
  | _ => cases h

theorem queued_concat (trace : List (Section Auth)) (o : Section Auth) :
    queued (trace ++ [o]) = queued trace ++ taken trace o := by
  unfold queued taken
  induction trace with
  | nil =>
    by_cases hclosed : o.closes = true
    · have hsends := sends_closes hclosed
      simpa [hclosed] using hsends
    · simp [hclosed, sends]
  | cons o' trace ih =>
    by_cases hclosed : o'.closes = true
    · simp [hclosed]
    · have hcons : ∀ tr, sends (o' :: tr) = sends [o'] ++ sends tr := fun tr => sends_append [o'] tr
      simp only [List.cons_append, List.takeWhile_cons, hclosed, Bool.not_false, if_true, List.any_cons,
        Bool.false_or]
      rw [hcons (List.takeWhile _ (trace ++ [o])), ih, hcons (List.takeWhile _ trace), List.append_assoc]

theorem NeverAttached.taken {k : ConnId} (h : NeverAttached k (sends [o])) (trace : List (Section Auth)) :
    NeverAttached k (taken trace o) := by
  unfold Broker.taken
  split
  · intro a ha
    cases ha
  · exact h

/-- A section that no stage depends on attaches nobody. -/
theorem neverAttached_idle (ho : o.idle = true) (k : ConnId) : NeverAttached k (sends [o]) := by
  intro a ha
  cases o with
  | shard o =>
    cases o with
    | send k' msg =>
      cases msg with
      | input _ _ => cases List.mem_singleton.mp ha
      | _ => cases ho
    | _ => cases ha
  | _ => cases ha

/-- A read changes nothing but what is left to read. -/
theorem recv_spec {x x' : Shared cfg.ip Raw Auth} {k : ConnId} {got : Recv}
    (h : x.recvEffect cfg e k = some (got, x')) :
    x'.sess = x.sess ∧ (got = .error ↔ readFails e = true) := by
  unfold Shared.recvEffect at h
  unfold readFails
  split at h
  · next htold =>
    split at h
    · cases h
      simp [htold]
    · cases h
  · next htold =>
    split at h
    · next herror =>
      cases h
      simp [htold, herror]
    · next herror =>
      split at h
      · cases h
      · dsimp only at h
        split at h
        · cases h
          simp [herror]
        · cases h
          simp [herror]

/-- The two sections that change who is listed. -/
def Section.relists : Section Auth → Bool
  | .sess (.insert _ _ _) => true
  | .sess (.remove _) => true
  | _ => false

theorem sessions_effect (ho : o.relists = false)
    (heff : (tasks cfg).traced.effect o e s = some (r, s')) :
    s'.state.sess.sessions = s.state.sess.sessions := by
  obtain ⟨heff, -⟩ := Tasks.traced_effect heff
  obtain ⟨x', trace⟩ := s'
  cases o with
  | sess o =>
    cases o with
    | insert k info skipped => cases ho
    | remove k => cases ho
    | _ => cases heff; rfl
  | shard o =>
    obtain ⟨y, -, hy⟩ := Option.map_eq_some_iff.mp heff
    cases hy
    rfl
  | io o =>
    obtain ⟨y, -, hy⟩ := Option.map_eq_some_iff.mp heff
    cases hy
    rfl
  | recv k =>
    dsimp only
    rw [(recv_spec heff).1]
  | reattach =>
    obtain ⟨-, heq⟩ := Option.ite_none_left_eq_some.mp heff
    cases heq
    rfl
  | _ => cases heff; rfl

theorem queued_effect (heff : (tasks cfg).traced.effect o e s = some (r, s')) :
    queued s'.trace = queued s.trace ++ taken s.trace o := by
  rw [(Tasks.traced_effect heff).2, queued_concat]

/-- What a stage says does not depend on what others do. -/
theorem Stage.Holds.frame {g : Stage} {k : ConnId} (h : g.Holds s k)
    (hlookup : s'.state.sess.sessions.lookup k = s.state.sess.sessions.lookup k)
    (hnever : NeverAttached k (sends [o])) (heff : (tasks cfg).traced.effect o e s = some (r, s')) :
    g.Holds s' k := by
  have hqueued := queued_effect heff
  have hmore := hnever.taken s.trace
  cases g with
  | outside => exact ⟨hlookup.trans h.1, hqueued ▸ h.2.append hmore⟩
  | listed => exact ⟨fun hnone => h.1 (hlookup.symm.trans hnone), hqueued ▸ h.2.append hmore⟩
  | attached => exact fun hnone => h (hlookup.symm.trans hnone)
  | removed => exact hlookup.trans h
  | gone => exact ⟨hlookup.trans h.unlisted, hqueued ▸ h.detached.append hmore⟩
  | ghost => exact h

theorem Section.relists_idle (ho : o.idle = true) : o.relists = false := by
  cases o with
  | sess o =>
    cases o with
    | insert _ _ _ => cases ho
    | remove _ => cases ho
    | _ => rfl
  | _ => rfl

/-- A section that no stage depends on keeps what every stage says. -/
theorem Stage.Holds.idle {g : Stage} {k : ConnId} (h : g.Holds s k) (ho : o.idle = true)
    (heff : (tasks cfg).traced.effect o e s = some (r, s')) : g.Holds s' k := by
  refine h.frame ?_ (neverAttached_idle ho k) heff
  rw [sessions_effect (Section.relists_idle ho) heff]

/-- What was not sent anywhere attaches nobody. -/
theorem neverAttached_nil {k : ConnId} (h : sends [o] = []) : NeverAttached k (sends [o]) := by
  rw [h]
  intro a ha
  cases ha

/-- What a connection does keeps what the stages of the others say. -/
theorem Stage.Holds.neighbour {g g' : Stage} {k k' : ConnId} (h : g'.Holds s k') (hne : k' ≠ k)
    (hok : g.Allows k o) (heff : (tasks cfg).traced.effect o e s = some (r, s')) :
    g'.Holds s' k' := by
  have hsame : o.relists = false →
      s'.state.sess.sessions.lookup k' = s.state.sess.sessions.lookup k' :=
    fun ho => by rw [sessions_effect ho heff]
  by_cases hidle : o.idle = true
  · exact h.idle hidle heff
  cases o with
  | sess o =>
    obtain ⟨x', trace⟩ := s'
    have hstate := (Tasks.traced_effect heff).1
    cases o with
    | insert k₁ info skipped =>
      obtain ⟨rfl, -⟩ := hok
      refine h.frame ?_ (neverAttached_nil rfl) heff
      cases hstate
      exact (Table.lookup_insert_eq _ _ _ _).trans (if_neg hne)
    | remove k₁ =>
      obtain ⟨rfl, -⟩ := hok
      refine h.frame ?_ (neverAttached_nil rfl) heff
      cases hstate
      exact (Table.lookup_erase_eq _ _ _).trans (if_neg hne)
    | _ => exact absurd rfl hidle
  | shard o =>
    cases o with
    | send k₁ msg =>
      refine h.frame (hsame rfl) ?_ heff
      intro a ha
      cases msg with
      | attach a' =>
        cases List.mem_singleton.mp ha
        exact fun hcontra => hne (hcontra.symm.trans hok.1)
      | _ => cases List.mem_singleton.mp ha
    | _ => exact absurd rfl hidle
  | ask q => exact h.frame (hsame rfl) (neverAttached_nil rfl) heff
  | recv k₁ => exact h.frame (hsame rfl) (neverAttached_nil rfl) heff
  | _ => exact absurd rfl hidle

/-! ### Slipping past the cleanup -/

theorem taken_nil (h : sends [o] = []) (trace : List (Section Auth)) : taken trace o = [] := by
  unfold taken
  split
  · rfl
  · exact h

/-- To slip changes neither who is listed nor what is queued. -/
theorem slips_frame (hslips : slips (s.trace.any Section.closes) e o = true)
    (heff : (tasks cfg).traced.effect o e s = some (r, s')) :
    s'.state.sess.sessions = s.state.sess.sessions ∧ queued s'.trace = queued s.trace := by
  have hframe : o.relists = false → taken s.trace o = [] →
      s'.state.sess.sessions = s.state.sess.sessions ∧ queued s'.trace = queued s.trace :=
    fun hrelists htaken =>
      ⟨sessions_effect hrelists heff, by rw [queued_effect heff, htaken, List.append_nil]⟩
  cases o with
  | recv k => exact hframe rfl (taken_nil rfl _)
  | ask q => exact hframe rfl (taken_nil rfl _)
  | shard o =>
    cases o with
    | send k msg =>
      cases msg with
      | detach k' => exact hframe rfl (if_pos hslips)
      | _ => cases hslips
    | _ => cases hslips
  | _ => cases hslips

/-- **A connection with nothing left to clean up may slip.** -/
theorem Stage.Holds.slipped {g : Stage} {k : ConnId} (h : g.Holds s k) (hleft : NothingLeft s k)
    (hsessions : s'.state.sess.sessions = s.state.sess.sessions)
    (hqueued : queued s'.trace = queued s.trace) : g.slipped.Holds s' k := by
  have hgone : NothingLeft s' k := ⟨hsessions ▸ hleft.unlisted, hqueued ▸ hleft.detached⟩
  cases g with
  | outside => exact ⟨hgone.unlisted, hqueued ▸ h.2⟩
  | listed => exact absurd hleft.unlisted h.1
  | attached => exact absurd hleft.unlisted h
  | removed => exact hgone
  | gone => exact hgone
  | ghost => exact h

theorem Stage.over_slipped {g : Stage} (h : g ≠ .outside) : g.slipped.over = true := by
  cases g with
  | outside => exact absurd rfl h
  | _ => rfl

/-- **The handler is over once it has slipped in the world.** -/
theorem Stage.over_after {g : Stage} {k : ConnId} (hok : g.Allows k o) (hin : g ≠ .outside)
    (hslips : slips (s.trace.any Section.closes) e o = true)
    (heff : (tasks cfg).traced.effect o e s = some (r, s')) : (g.after o r).over = true := by
  have hstate := (Tasks.traced_effect heff).1
  cases o with
  | recv k₁ =>
    obtain rfl : r = .error := (recv_spec hstate).2.mpr hslips
    exact Stage.over_slipped hin
  | ask q =>
    cases q with
    | log =>
      obtain rfl : r = false := by
        have hlogOk : e.logOk = r := congrArg Prod.fst (Option.some.inj hstate)
        rw [← hlogOk]
        exact (Bool.not_eq_true' _).mp hslips
      exact Stage.over_slipped hin
    | answer line =>
      obtain rfl : r = none := by
        have hout : (if e.panics then none else some e.bytes) = r :=
          congrArg Prod.fst (Option.some.inj hstate)
        rw [← hout]
        exact if_pos hslips
      exact Stage.over_slipped hin
    | _ => cases hslips
  | shard o =>
    cases o with
    | send k₁ msg =>
      cases msg with
      | detach k₂ => rfl
      | _ => cases hslips
    | _ => cases hslips
  | _ => cases hslips

/-- **What a connection does takes it from one stage to the next**, if it slips only while there is
nothing of it to clean up. -/
theorem Stage.Holds.after {g : Stage} {k : ConnId} (h : g.Holds s k) (hok : g.Allows k o)
    (heff : (tasks cfg).traced.effect o e s = some (r, s'))
    (hclean : slips (s.trace.any Section.closes) e o = true → NothingLeft s k) :
    (g.after o r).Holds s' k := by
  have hqueued := queued_effect heff
  have hsame : o.relists = false → s'.state.sess.sessions = s.state.sess.sessions :=
    fun ho => sessions_effect ho heff
  have hslipped (hslips : slips (s.trace.any Section.closes) e o = true) : g.slipped.Holds s' k :=
    h.slipped (hclean hslips) (slips_frame hslips heff).1 (slips_frame hslips heff).2
  by_cases hidle : o.idle = true
  · rw [(Stage.idle_spec hidle k g).2 r]
    exact h.idle hidle heff
  cases o with
  | sess o =>
    obtain ⟨x', trace⟩ := s'
    have hstate := (Tasks.traced_effect heff).1
    cases o with
    | insert k₁ info skipped =>
      obtain ⟨rfl, rfl⟩ := hok
      cases hstate
      refine ⟨?_, ?_⟩
      · intro hnone
        have hsome := (Table.lookup_insert_eq s.state.sess.sessions k₁ k₁ info).trans (if_pos rfl)
        exact Option.some_ne_none info (hsome.symm.trans hnone)
      · rw [hqueued]
        exact h.2.append ((neverAttached_nil rfl).taken _)
    | remove k₁ =>
      obtain ⟨rfl, hg⟩ := hok
      have hr : r = s.state.sess.sessions.lookup k₁ := by
        cases hstate
        rfl
      have hnone : x'.sess.sessions.lookup k₁ = none := by
        cases hstate
        exact (Table.lookup_erase_eq _ _ _).trans (if_pos rfl)
      cases r with
      | some info => exact hnone
      | none =>
        rcases hg with rfl | rfl
        · refine ⟨hnone, ?_⟩
          rw [hqueued]
          exact (h.2.append ((neverAttached_nil rfl).taken _)).detachedLast
        · exact absurd hr.symm h
    | _ => exact absurd rfl hidle
  | shard o =>
    cases o with
    | send k₁ msg =>
      cases msg with
      | attach a =>
        obtain ⟨-, rfl⟩ := hok
        exact fun hnone => h.1 (hsame rfl ▸ hnone)
      | input _ _ => exact absurd rfl hidle
      | detach k₂ =>
        obtain ⟨rfl, rfl⟩ := hok
        refine ⟨hsame rfl ▸ h, ?_⟩
        -- a closed channel takes no `Detach`, and then there must be none missing
        rw [hqueued, taken]
        split
        · next hclosed =>
          rw [List.append_nil]
          exact (hclean hclosed).detached
        · exact detachedLast_detach _ _
    | _ => exact absurd rfl hidle
  | recv k₁ =>
    cases r with
    | error =>
      exact hslipped ((recv_spec (Tasks.traced_effect heff).1).2.mp rfl)
    | _ => exact h.frame (by rw [hsame rfl]) (neverAttached_nil rfl) heff
  | ask q =>
    have hstate := (Tasks.traced_effect heff).1
    have hframe : g.Holds s' k := h.frame (by rw [hsame rfl]) (neverAttached_nil rfl) heff
    cases q with
    | log =>
      cases r with
      | true => exact hframe
      | false =>
        have hfails : e.logOk = false := congrArg Prod.fst (Option.some.inj hstate)
        exact hslipped ((Bool.not_eq_true' _).mpr hfails)
    | answer line =>
      cases r with
      | some out => exact hframe
      | none =>
        have hout : (if e.panics then none else some e.bytes) = none :=
          congrArg Prod.fst (Option.some.inj hstate)
        have hpanics : e.panics = true := by simpa using hout
        exact hslipped hpanics
    | _ => exact absurd rfl hidle
  | _ => exact absurd rfl hidle

end

/-- Every connection is at the stage it believes to be at. -/
def AllHold (s : Traced (Shared cfg.ip Raw Auth) (Section Auth)) (know : TaskId → Stage) : Prop :=
  ∀ k, (know (.conn k)).Holds s k

/-- The other tasks neither list a session nor send a message. -/
theorem silent_ofOthers {o : Section Auth} (h : o.ofOthers = true) :
    o.relists = false ∧ sends [o] = [] := by
  cases o with
  | sess o =>
    cases o with
    | insert _ _ _ => cases h
    | remove _ => cases h
    | _ => exact ⟨rfl, rfl⟩
  | shard o =>
    cases o with
    | send _ _ => cases h
    | _ => exact ⟨rfl, rfl⟩
  | _ => exact ⟨rfl, rfl⟩

/-- What a call starts is safe from where the task is. -/
theorem start_safe {w : BrokerPool cfg} {know : TaskId → Stage} {t : TaskId} {c : Call Auth}
    {p : Task Auth (TaskResult Auth)} (h : Pool.Sound cleanupContract AllHold w know)
    (hstart : (tasks cfg).traced.start t c (w.task t) = some p) :
    p.Safe (cleanupContract t) (know t) := by
  cases t with
  | conn k =>
    cases c with
    | once o => cases hstart
    | go =>
      cases ht : w.task (.conn k) with
      | none =>
        rw [ht] at hstart
        cases hstart
        rw [h.fresh _ ht]
        exact safe_greet
      | some q =>
        rw [ht] at hstart
        match q, ht with
        | .act _ _, _ => cases hstart
        | .ret none, _ => cases hstart
        | .ret (some c), ht =>
          cases hstart
          exact safe_round (h.safe _ _ ht)
  | other i =>
    cases c with
    | go => cases hstart
    | once o =>
      have hp : o.ofOthers = true ∧ Program.act o (fun _ => .ret none) = p := by
        cases ht : w.task (.other i) with
        | none =>
          rw [ht] at hstart
          exact (Option.ite_none_right_eq_some.mp hstart).imp id Option.some.inj
        | some q =>
          rw [ht] at hstart
          match q with
          | .act _ _ => cases hstart
          | .ret _ => exact (Option.ite_none_right_eq_some.mp hstart).imp id Option.some.inj
      obtain ⟨ho, rfl⟩ := hp
      exact ⟨ho, fun _ _ => trivial⟩

theorem cleanup_keeps : Pool.Keeps (tasks cfg).traced cleanupContract AllHold SlipsClean where
  start := by
    intro w know t c p h _ hstart
    refine ⟨know t, ?_, start_safe h hstart⟩
    rw [Function.update_eq_self]
    exact h.shared
  effect := by
    intro w know t e o r s' h hclean hsec hok heff
    refine ⟨by cases t <;> trivial, ?_⟩
    intro k'
    cases t with
    | other i =>
      rw [Function.update_of_ne (by simp)]
      obtain ⟨hrelists, hsends⟩ := silent_ofOthers hok
      refine (h.shared k').frame ?_ (neverAttached_nil hsends) heff
      rw [sessions_effect hrelists heff]
    | conn k =>
      by_cases hk : k' = k
      · subst hk
        rw [Function.update_self]
        exact (h.shared k').after hok heff fun hslips => hclean k' e o rfl hsec hslips
      · rw [Function.update_of_ne (by simp [hk])]
        exact (h.shared k').neighbour hk hok heff

/-- The invariant of the broker. -/
def CleanupInv (w : BrokerPool cfg) : Prop := ∃ know, Pool.Sound cleanupContract AllHold w know

theorem cleanupInv_init {x : Shared cfg.ip Raw Auth} (hx : x.sess.sessions = ∅) :
    CleanupInv (BrokerPool.init cfg x) := by
  refine ⟨fun _ => .outside, fun k => ⟨?_, ?_⟩, fun t p hp => ?_, fun _ _ => rfl⟩
  · have hsess : (BrokerPool.init cfg x).shared.state.sess.sessions = ∅ := hx
    rw [hsess]
    rfl
  · intro r hr
    cases hr
  · cases hp

/-- An ended connection has left nothing behind. -/
theorem Stage.Holds.nothingLeft {s : Traced (Shared cfg.ip Raw Auth) (Section Auth)} {g : Stage}
    {k : ConnId} (h : g.Holds s k) (hends : g.Ends (none : TaskResult Auth)) : NothingLeft s k := by
  rcases hends with rfl | hover
  · exact ⟨h.1, h.2.detachedLast⟩
  · cases g with
    | gone => exact h
    | ghost => cases h
    | _ => cases hover

theorem CleanupInv.cleanedUp {w : BrokerPool cfg} (h : CleanupInv w) : CleanedUp w := by
  obtain ⟨know, h⟩ := h
  have hends : ∀ k, Ended w k → NothingLeft w.shared k := fun k hk =>
    (h.shared k).nothingLeft (h.safe _ _ hk)
  refine ⟨fun k hk => (hends k hk).unlisted, fun k hk => (hends k hk).detached, fun k info hk => ?_⟩
  cases ht : w.task (.conn k) with
  | none =>
    have hhold := h.shared k
    rw [h.fresh _ ht] at hhold
    exact absurd (hk.symm.trans hhold.1) (by simp)
  | some p =>
    refine ⟨p, ht, ?_⟩
    rintro rfl
    exact absurd (hk.symm.trans (hends k ht).unlisted) (by simp)

theorem Stage.not_allows_over {g : Stage} (hg : g.over = true) {k : ConnId} {o : Section Auth}
    (h : g.Allows k o) : False := by
  unfold Stage.Allows at h
  split at h
  · rw [h.2] at hg
    cases hg
  · rcases h.2 with rfl | rfl
    · cases hg
    · cases hg
  · rw [h.2] at hg
    cases hg
  · rw [h.2] at hg
    cases hg
  · rcases h.2 with rfl | rfl
    · cases hg
    · cases hg
  · rw [h] at hg
    cases hg

/-- A handler that is over does nothing more. -/
theorem safe_over {g : Stage} (hg : g.over = true) {k : ConnId} {p : Task Auth (TaskResult Auth)}
    (h : Safe (stages k Stage.Ends) g p) : p = .ret none := by
  match p with
  | .act o next => exact (Stage.not_allows_over hg h.1).elim
  | .ret none => rfl
  | .ret (some c) =>
    rcases h with ⟨rfl, -⟩ | ⟨rfl, -⟩
    · cases hg
    · cases hg

/-- A step after which everything is cleaned up was none by which a connection slipped too early. -/
theorem CleanupInv.slipsClean {w w' : BrokerPool cfg} {m : BrokerMove Auth} (h : CleanupInv w)
    (hs : brokerStep cfg w m = some w') (hclean : CleanedUp w') : SlipsClean w m := by
  obtain ⟨know, h⟩ := h
  intro k e o hm hsec hslips
  rcases Pool.step_cases hs with ⟨t', c, p, rfl, -⟩ | ⟨t', e', o', next, r, s', rfl, ht, ho, heff, rfl⟩
  · cases hm
  · cases hm
    obtain rfl : o' = o := Option.some.inj (ho.symm.trans hsec)
    have hsafe := h.safe _ _ ht
    have hhold := h.shared k
    by_cases hout : know (.conn k) = .outside
    · rw [hout] at hhold
      exact ⟨hhold.1, hhold.2.detachedLast⟩
    · -- the handler returns at once, and what is left now was left before
      have hover := Stage.over_after hsafe.1 hout hslips heff
      have hended : Function.update w.task (.conn k) (some (next r)) (.conn k) = some (.ret none) :=
        (Function.update_self _ _ _).trans (congrArg some (safe_over hover (hsafe.2 r trivial)))
      obtain ⟨hsessions, hqueued⟩ := slips_frame hslips heff
      exact ⟨hsessions ▸ hclean.unlisted k hended, hqueued ▸ hclean.detached k hended⟩

/-- **Every ended connection is cleaned up, at every time, exactly when a connection slips past its
cleanup only while there is nothing of it to clean up.** -/
theorem cleaned_up_iff {x : Shared cfg.ip Raw Auth} (hx : x.sess.sessions = ∅)
    {ms : List (BrokerMove Auth)} {w : BrokerPool cfg}
    (hrun : exec (brokerStep cfg) (BrokerPool.init cfg x) ms = some w) :
    Throughout (brokerStep cfg) CleanedUp (BrokerPool.init cfg x) ms
      ↔ Along (brokerStep cfg) SlipsClean (BrokerPool.init cfg x) ms :=
  throughout_iff_along CleanupInv.cleanedUp
    (fun ⟨_, hi⟩ hok hs => Pool.sound_step cleanup_keeps hi hok hs)
    (fun h hs hclean => h.slipsClean hs hclean) (cleanupInv_init hx) hrun

/-! ## One player -/

abbrev PlainMove := BrokerMove (Option AuthBlob)

/-- One section of a task that is no connection. -/
def once (o : Section (Option AuthBlob)) : List PlainMove :=
  [.call (.other 0) (.once o), .run (.other 0) {}]

/-- One round of a connection. -/
def oneRound (k : ConnId) (es : List Env) : List PlainMove :=
  .call (.conn k) .go :: es.map (Move.run (TaskId.conn k))

/-- The player that Alice was. -/
def aliceSaved : Option PlayerSnapshot :=
  let world : World (Option (List PlayerSnapshot)) := World.new (.direct _) true ⟨[], []⟩ none
  PlayerSnapshot.fromCharacter (world.newCharacter 0 "acct:alice".toList []
    { name := "Alice".toList, isBot := false, race := .human, cls := .fighter, sex := .female
      pronouns := .she })

/-- A broker without accounts, and a shard with one saved player. -/
def aliceAway : Shared IpText.plain (Option (List PlayerSnapshot)) (Option AuthBlob) where
  acct := ⟨Accounts.empty, [], []⟩
  ban := ⟨BanState.empty, ∅, ∅⟩
  sess := ⟨∅, [], []⟩
  shard :=
    { queue := [], wire := [], linked := true, managerGone := false, sent := [], looked := ∅, served := []
      world := World.new (.direct _) true ⟨[], []⟩ (some (some aliceSaved.toList)) }
  io :=
    { sockets := ∅, closed := [], oauth := ∅, webSessions := ∅, pendingTcpInputs := ∅
      webIdentities := ∅, exchanged := [], built := [], acted := [] }

/-- She connects, sets a password and is in the world. -/
def aliceEnters : List PlainMove :=
  once (.io (.dial 7 (.v4 0x01020304) 4000))
    ++ once (.io (.clientWrite 7 (Utf8.encode "Alice\npassword\nsecret pw\n".toList)))
    ++ oneRound 7 [{}, {}, {}] ++ oneRound 7 [{ count := 100 }]
    ++ oneRound 7 [{}, {}, {}] ++ oneRound 7 [{}, {}]
    ++ oneRound 7 [{}, {}, {}, {}, {}, {}, {}, {}, {}, {}, {}, {}]

/-- The end of her stream. -/
def aliceLeaves : List PlainMove := aliceEnters ++ oneRound 7 [{}, {}, {}, {}]

/-- The handler of a connection has returned, as a test. -/
def hasEnded (w : BrokerPool cfg) (k : ConnId) : Bool :=
  match w.task (.conn k) with
  | some (.ret none) => true
  | _ => false

theorem ended_of_hasEnded {w : BrokerPool cfg} {k : ConnId} (h : hasEnded w k = true) : Ended w k := by
  unfold hasEnded at h
  split at h
  · assumption
  · cases h

/-- No read fails, and nothing panics. -/
def calm : BrokerMove Auth → Bool
  | .run _ e => !readFails e && !e.panics
  | .call _ _ => true

/-- Only a panic closes the channel to the manager. -/
theorem open_step {w w' : BrokerPool cfg} {m : BrokerMove Auth} (hcalm : calm m = true)
    (hopen : w.shared.trace.any Section.closes = false) (hs : brokerStep cfg w m = some w') :
    w'.shared.trace.any Section.closes = false := by
  rcases Pool.step_cases hs with ⟨t, c, p, rfl, -, -, rfl⟩ | ⟨t, e, o, next, r, s', rfl, -, -, heff, rfl⟩
  · exact hopen
  · obtain ⟨heff, htrace⟩ := Tasks.traced_effect heff
    -- the manager closes its channel by a panic only
    have hcloses : o.closes = false := by
      cases o with
      | shard o =>
        cases o with
        | managerPanics =>
          obtain ⟨y, hy, -⟩ := Option.map_eq_some_iff.mp heff
          obtain ⟨hpanics, -⟩ := Option.ite_none_right_eq_some.mp hy
          simp only [calm, Bool.and_eq_true, Bool.not_eq_true'] at hcalm hpanics
          rw [hcalm.2] at hpanics
          cases hpanics.2
        | _ => rfl
      | _ => rfl
    rw [htrace, List.any_append, hopen]
    simpa using hcloses

/-- Nobody slips in a calm run. -/
theorem along_calm {x : Shared cfg.ip Raw Auth} {ms : List (BrokerMove Auth)}
    (hcalm : ms.all calm = true) : Along (brokerStep cfg) SlipsClean (BrokerPool.init cfg x) ms := by
  have hall : Along (brokerStep cfg) (fun _ m => calm m = true) (BrokerPool.init cfg x) ms :=
    along_of_forall_mem (fun m hm _ => List.all_eq_true.mp hcalm m hm) _
  refine along_of_invariant (I := fun w => w.shared.trace.any Section.closes = false)
    (fun hopen hm hs => open_step hm hopen hs) ?_ rfl hall
  intro w m hopen hm k e o hmove hsec hslips
  subst hmove
  simp only [calm, Bool.and_eq_true, Bool.not_eq_true'] at hm
  rw [hopen] at hslips
  unfold slips at hslips
  split at hslips
  · rw [hm.1] at hslips
    cases hslips
  · have hlogOk : e.logOk = true := by simpa using (Bool.or_eq_false_iff.mp hm.2).1
    rw [hlogOk] at hslips
    cases hslips
  · rw [hm.2] at hslips
    cases hslips
  · cases hslips
  · cases hslips

/-- The session that a message attaches. -/
def attachedBy : ShardMsg Auth → Option SessionId
  | .attach r => some r.session
  | _ => none

theorem cleaned_up_alice :
    ∃ w, exec (brokerStep .plain) (BrokerPool.init .plain aliceAway) aliceLeaves = some w
      ∧ Ended w 7 ∧ (queued w.shared.trace).map attachedBy = [some 7, none]
      ∧ Throughout (brokerStep .plain) CleanedUp (BrokerPool.init .plain aliceAway) aliceLeaves := by
  have hfacts : (exec (brokerStep .plain) (BrokerPool.init .plain aliceAway) aliceLeaves).map
      (fun w => (hasEnded w 7, (queued w.shared.trace).map attachedBy))
        = some (true, [some 7, none]) := by decide +kernel
  obtain ⟨w, hrun, hw⟩ := Option.map_eq_some_iff.mp hfacts
  simp only [Prod.mk.injEq] at hw
  exact ⟨w, hrun, ended_of_hasEnded hw.1, hw.2, (cleaned_up_iff rfl hrun).mpr (along_calm rfl)⟩

/-- Her connection is reset. -/
def aliceReset : List PlainMove := oneRound 7 [{ readError := true }]

/-- She reports a line, while there is a legal hold on her name. -/
def aliceReports : List PlainMove :=
  let note := "a@bb.cc@dd.ee".toList
  once (.io (.clientWrite 7 (Utf8.encode ("report submit 01hg0q8mfc000 spam ".toList ++ note ++ ['\n']))))
    ++ oneRound 7 [{ count := 100 }] ++ oneRound 7 [{}, { redacted := [note] }]

/-- After that ending her handler is gone, her session is listed, and she is attached again when the
shard comes back. -/
def LeavesGhost (ending : List PlainMove) : Prop :=
  ∃ w, exec (brokerStep .plain) (BrokerPool.init .plain aliceAway)
      (aliceEnters ++ ending ++ once .reattach) = some w
    ∧ Ended w 7
    ∧ (w.shared.state.sess.sessions.lookup 7).isSome = true
    ∧ (queued w.shared.trace).map attachedBy = [some 7]
    ∧ w.shared.state.shard.wire.map attachedBy = [some 7]
    ∧ ¬ CleanedUp w

theorem leavesGhost_of_facts {ending : List PlainMove}
    (hfacts : (exec (brokerStep .plain) (BrokerPool.init .plain aliceAway)
        (aliceEnters ++ ending ++ once .reattach)).map
      (fun w => (hasEnded w 7, (w.shared.state.sess.sessions.lookup 7).isSome,
        (queued w.shared.trace).map attachedBy, w.shared.state.shard.wire.map attachedBy))
        = some (true, true, [some 7], [some 7])) : LeavesGhost ending := by
  obtain ⟨w, hrun, hw⟩ := Option.map_eq_some_iff.mp hfacts
  simp only [Prod.mk.injEq] at hw
  obtain ⟨hended, hlisted, hqueued, hwire⟩ := hw
  refine ⟨w, hrun, ended_of_hasEnded hended, hlisted, hqueued, hwire, fun hclean => ?_⟩
  rw [hclean.unlisted 7 (ended_of_hasEnded hended)] at hlisted
  cases hlisted

/-- **A ghost** stays when the read fails, and when `report` panics. -/
theorem slips_leave_ghost : LeavesGhost aliceReset ∧ LeavesGhost aliceReports :=
  ⟨leavesGhost_of_facts (by decide +kernel), leavesGhost_of_facts (by decide +kernel)⟩

end Slopmud.Broker
