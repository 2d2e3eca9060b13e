import Slopmud.Broker.ShardLink
import Slopmud.Lib.Replay
import Slopmud.Proof.Seats

/-!
# Broker and shard agree on who is attached

What is on its way to the shard is read as a log of writes to one flag for each
session: an attach sets it, a detach clears it. Two things hold whatever breaks.
What waits on the side of the handlers ends, for each session, with what the list
says of it (`waiting`): so it may be thrown away, and it may be read again by a
shard that has been told of the list. And as long as the connection carries what
is written to it, what the shard has and what is on its way to it make up the
list (`flow`). Once nothing is on its way, the shard has the list.
-/

namespace Slopmud.Broker

open Machine Replay Slopmud.Shard

variable {Raw Auth : Type} {cfg : BrokerConfig Raw Auth}

/-! ## Requests as writes -/

/-- Which session a request seats or unseats. -/
def linkWrite : ShardMsg Auth → Option (SessionId × Option Unit)
  | .attach r => if (Text.trim r.name).isEmpty then none else some (r.session, some ())
  | .detach k => some (k, none)
  | .input _ _ => none

/-- Whether a session is attached after these requests, when `b` says whether it was before. -/
def seatedAfter (k : SessionId) (b : Bool) (msgs : List (ShardMsg Auth)) : Bool :=
  presence linkWrite k b msgs

theorem seatedAfter_append (k : SessionId) (b : Bool) (msgs msgs' : List (ShardMsg Auth)) :
    seatedAfter k b (msgs ++ msgs') = seatedAfter k (seatedAfter k b msgs) msgs' :=
  presence_append b

theorem seatedAfter_cons (k : SessionId) (b : Bool) (msg : ShardMsg Auth)
    (msgs : List (ShardMsg Auth)) :
    seatedAfter k b (msg :: msgs) = seatedAfter k (seatedAfter k b [msg]) msgs :=
  seatedAfter_append k b [msg] msgs

theorem seatedAfter_one (k : SessionId) (b : Bool) (msg : ShardMsg Auth) :
    seatedAfter k b [msg] = if (linkWrite msg).map Prod.fst = some k
      then ((linkWrite msg).bind Prod.snd).isSome else b := rfl

/-- A request about another session says nothing of this one. -/
theorem seatedAfter_skip {k : SessionId} {msg : ShardMsg Auth}
    (h : (linkWrite msg).map Prod.fst ≠ some k) (b : Bool) (before after : List (ShardMsg Auth)) :
    seatedAfter k b (before ++ msg :: after) = seatedAfter k b (before ++ after) := by
  rw [seatedAfter_append, seatedAfter_cons, seatedAfter_one, if_neg h, seatedAfter_append]

/-- When the requests end with what was so before, the first of them can be left out. -/
theorem seatedAfter_tail {k : SessionId} {msg : ShardMsg Auth} {b : Bool}
    {msgs : List (ShardMsg Auth)} (h : seatedAfter k b (msg :: msgs) = b) :
    seatedAfter k b msgs = b := by
  by_cases hnil : about linkWrite k msgs = []
  · exact presence_of_about hnil b
  · rw [seatedAfter_cons] at h
    exact (presence_of_ne hnil b _).trans h

theorem linkWrite_attachBody {l : ListedSession Auth} (k : SessionId) (authLen : Auth → Nat) :
    linkWrite (.attach (attachBody authLen k l.info)) = some (k, some ()) := by
  have hne : (Text.trim l.info.name).isEmpty = false := by
    rw [l.named.trim_eq]
    exact List.isEmpty_eq_false_iff.mpr l.named.nonempty
  simp [linkWrite, attachBody, hne]

theorem seatedAfter_concat {k : SessionId} {b : Bool} {msgs : List (ShardMsg Auth)}
    {msg : ShardMsg Auth} {v : Option Unit} (h : linkWrite msg = some (k, v)) :
    seatedAfter k b (msgs ++ [msg]) = v.isSome := by
  rw [seatedAfter_append, seatedAfter_one, h]
  simp

/-! ## What the shard makes of a request -/

theorem handle_attached {saveOk : Bool} {O : SetOrder} {w : World Raw} (h : Seated w)
    (msg : ShardMsg Auth) (k : SessionId) :
    (ShardLink.handle cfg saveOk O w msg).attached k = seatedAfter k (w.attached k) [msg] := by
  rw [seatedAfter_one]
  cases msg with
  | attach r =>
    rw [ShardLink.handle, attach_attached h]
    by_cases hempty : (Text.trim r.name).isEmpty = true
    · simp [linkWrite, hempty]
    · simp only [linkWrite, if_neg hempty, Option.map_some, Option.some.injEq, Option.bind_some,
        Option.isSome_some, eq_comm (a := r.session)]
      by_cases hk : k = r.session
      · rw [if_pos ⟨hk, by simpa using hempty⟩, if_pos hk]
      · rw [if_neg fun h => hk h.1, if_neg hk]
  | detach k' =>
    rw [ShardLink.handle, (detachSession_unseated h k').attached]
    simp [linkWrite, eq_comm]
  | input k' line =>
    rw [ShardLink.handle]
    simp only [linkWrite, Option.map_none, reduceCtorEq, if_false]
    cases hs : shardStep cfg.players cfg.auth w (.input O k' line) with
    | none => rfl
    | some w' => rw [Option.getD_some, World.attached, (input_seated h hs).2]; rfl

theorem handle_seated {saveOk : Bool} {O : SetOrder} {w : World Raw} (h : Seated w)
    (msg : ShardMsg Auth) : Seated (ShardLink.handle cfg saveOk O w msg) := by
  cases msg with
  | attach r => exact attach_seated h r
  | detach k => exact (detachSession_unseated h k).seated h
  | input k line =>
    rw [ShardLink.handle]
    cases hs : shardStep cfg.players cfg.auth w (.input O k line) with
    | none => exact h
    | some w' => exact (input_seated h hs).1

/-- The life of the shard seats nobody. -/
theorem play_seated {w w' : World Raw} (h : Seated w) {m : ShardMove Auth}
    (hplay : ShardSide.isPlay m = true) (hs : shardStep cfg.players cfg.auth w m = some w') :
    Seated w' ∧ ∀ k, w'.attached k = w.attached k := by
  cases m with
  | input O k line =>
    obtain ⟨hw', hsessions⟩ := input_seated h hs
    exact ⟨hw', fun k => by rw [World.attached, hsessions]; rfl⟩
  | drop O k cid =>
    have hnone : w.sessionsDrop O k cid = some w' := hs
    rw [h.drop_none] at hnone
    cases hnone
  | killMob O cid =>
    obtain ⟨hw', hsessions⟩ := killMob_seated h hs
    exact ⟨hw', fun k => by rw [World.attached, hsessions]; rfl⟩
  | game g =>
    cases hs
    exact ⟨game_seated h g, game_attached w g⟩
  | attach saveOk O r => cases hplay
  | detach saveOk O k => cases hplay
  | relink clean saveOk readOk rooms => cases hplay

namespace ShardLink

/-! ## The invariant -/

/-- The session is on the broker's list. -/
def listed (s : ShardLink Raw Auth) (k : SessionId) : Bool := (s.sessions.lookup k).isSome

/-- The session is attached, by the shard that serves the manager's connection. -/
def has (s : ShardLink Raw Auth) (k : SessionId) : Bool := s.accepted && s.world.attached k

structure LinkInv (s : ShardLink Raw Auth) : Prop where
  seated : s.accepted = true → Seated s.world
  /-- Handlers speak for their own sessions. -/
  own : ∀ k, ∀ msg ∈ (s.handler k).owed k, (linkWrite msg).map Prod.fst = some k
  /-- What waits for the manager ends with what the list says. -/
  waiting : ∀ k, seatedAfter k (s.listed k) (s.queue ++ (s.handler k).owed k) = s.listed k
  /-- Nothing is attached before the snapshot. -/
  early : s.manager = .connected → s.socket = [] ∧ ∀ k, s.has k = false
  /-- What the shard has and what is on its way to it make up the list. -/
  flow : s.manager ≠ .offline → s.manager ≠ .connected → s.alive = true →
    ∀ k, seatedAfter k (s.has k) (s.socket ++ (s.manager.owed ++ (s.queue ++ (s.handler k).owed k)))
      = s.listed k

theorem linkInv_start (world : World Raw) : LinkInv (ShardLink.start world : ShardLink Raw Auth) where
  seated h := by cases h
  own k msg h := by cases h
  waiting k := rfl
  early h := by cases h
  flow h := absurd rfl h

/-- The invariant with the messages of one session put into other words. -/
theorem LinkInv.frame {s s' : ShardLink Raw Auth} (h : LinkInv s) (hmanager : s'.manager = s.manager)
    (halive : s'.alive = s.alive) (haccepted : s'.accepted = s.accepted)
    (hsocket : s'.socket = s.socket) (hworld : s'.world = s.world)
    (hown : ∀ k, ∀ msg ∈ (s'.handler k).owed k, (linkWrite msg).map Prod.fst = some k)
    (hsame : ∀ k, s'.listed k = s.listed k ∧ (∀ b before,
        seatedAfter k b (before ++ (s'.queue ++ (s'.handler k).owed k))
          = seatedAfter k b (before ++ (s.queue ++ (s.handler k).owed k)))
      ∨ ∀ b before, seatedAfter k b (before ++ (s'.queue ++ (s'.handler k).owed k)) = s'.listed k) :
    LinkInv s' := by
  have hhas : ∀ k, s'.has k = s.has k := fun k => by rw [has, has, haccepted, hworld]
  refine ⟨?_, hown, ?_, ?_, ?_⟩
  · rw [haccepted, hworld]
    exact h.seated
  · intro k
    rcases hsame k with ⟨hlisted, hq⟩ | hlast
    · have := hq (s'.listed k) []
      rw [List.nil_append, List.nil_append] at this
      rw [this, hlisted]
      exact h.waiting k
    · exact hlast _ []
  · rw [hmanager, hsocket]
    simp only [hhas]
    exact h.early
  · rw [hmanager, halive, hsocket]
    intro hoff hconn hup k
    rw [hhas]
    rcases hsame k with ⟨hlisted, hq⟩ | hlast
    · rw [← List.append_assoc, hq, List.append_assoc, hlisted]
      exact h.flow hoff hconn hup k
    · rw [← List.append_assoc]
      exact hlast _ _

/-! ## The handlers -/

theorem owed_update {s : ShardLink Raw Auth} {k k' : SessionId} {p : Phase Auth} :
    (Function.update s.handler k p k').owed k' = if k' = k then p.owed k else (s.handler k').owed k' := by
  by_cases hk : k' = k
  · subst hk; simp
  · simp [hk]

/-- A handler changes the list, and owes the message that says so. -/
theorem linkInv_list {s : ShardLink Raw Auth} (h : LinkInv s) {k : SessionId} {p : Phase Auth}
    {sessions : Table SessionId (ListedSession Auth)} {msg : ShardMsg Auth} {v : Option Unit}
    (howed : p.owed k = [msg]) (hwrite : linkWrite msg = some (k, v))
    (hsessions : ∀ k', (sessions.lookup k').isSome
      = if k' = k then v.isSome else (s.sessions.lookup k').isSome) :
    LinkInv { s with sessions, handler := Function.update s.handler k p } := by
  refine h.frame rfl rfl rfl rfl rfl ?_ ?_
  · intro k' msg' hmsg
    rw [owed_update] at hmsg
    split at hmsg
    · next hk =>
      rw [howed, List.mem_singleton] at hmsg
      rw [hmsg, hwrite, hk]
      rfl
    · exact h.own k' msg' hmsg
  · intro k'
    simp only [owed_update, listed, hsessions]
    by_cases hk : k' = k
    · right
      intro b before
      rw [if_pos hk, if_pos hk, howed, ← List.append_assoc, hk, seatedAfter_concat hwrite]
    · left
      rw [if_neg hk, if_neg hk]
      exact ⟨rfl, fun b before => rfl⟩

/-- A message that is owed, or says nothing, may be sent. -/
theorem linkInv_enqueue {s s' : ShardLink Raw Auth} (h : LinkInv s) {handler : SessionId → Phase Auth}
    {msg : ShardMsg Auth}
    (howed : ∀ k, (s.handler k).owed k = msg :: (handler k).owed k
      ∨ (linkWrite msg).map Prod.fst ≠ some k ∧ (handler k).owed k = (s.handler k).owed k)
    (hs : enqueue { s with handler } msg = some s') : LinkInv s' := by
  unfold enqueue at hs
  split at hs
  · cases hs
    refine h.frame rfl rfl rfl rfl rfl ?_ ?_
    · intro k msg' hmsg
      refine h.own k msg' ?_
      rcases howed k with heq | ⟨-, heq⟩
      · rw [heq]; exact List.mem_cons_of_mem _ hmsg
      · rw [← heq]; exact hmsg
    · intro k
      refine Or.inl ⟨rfl, fun b before => ?_⟩
      simp only [List.append_assoc, List.singleton_append]
      rcases howed k with heq | ⟨hne, heq⟩
      · rw [heq]
      · rw [heq, ← List.append_assoc, seatedAfter_skip hne, List.append_assoc]
  · cases hs

theorem linkInv_send {s s' : ShardLink Raw Auth} (h : LinkInv s) {k : SessionId} {p : Phase Auth}
    {msg : ShardMsg Auth} (howed : (s.handler k).owed k = [msg]) (hp : p.owed k = [])
    (hs : enqueue { s with handler := Function.update s.handler k p } msg = some s') : LinkInv s' := by
  refine linkInv_enqueue h ?_ hs
  intro k'
  rw [owed_update]
  by_cases hk : k' = k
  · rw [if_pos hk, hp, hk]
    exact Or.inl howed
  · rw [if_neg hk]
    right
    refine ⟨?_, rfl⟩
    rw [h.own k msg (by rw [howed]; exact List.mem_singleton_self _)]
    intro heq
    exact hk (Option.some.inj heq).symm

/-! ## The manager -/

theorem has_eq {s : ShardLink Raw Auth} (h : s.accepted = true) (k : SessionId) :
    s.has k = s.world.attached k := by
  rw [has, h, Bool.true_and]

/-- The attaches of a snapshot are those of the list. -/
theorem seatedAfter_attaches (s : ShardLink Raw Auth) (k : SessionId) :
    seatedAfter k false (s.attaches cfg) = s.listed k := by
  have hloop : ∀ (es : List (Sigma fun _ : SessionId => ListedSession Auth)) (b : Bool),
      seatedAfter k b (es.map fun e => .attach (attachBody cfg.authLen e.1 e.2.info))
        = (b || decide (k ∈ es.map Sigma.fst)) := by
    intro es
    induction es with
    | nil => simp [seatedAfter]
    | cons e es ih =>
      intro b
      have hfirst : seatedAfter k b [.attach (attachBody cfg.authLen e.1 e.2.info)]
          = (b || decide (k = e.1)) := by
        rw [seatedAfter_one, linkWrite_attachBody]
        by_cases hk : k = e.1
        · simp [hk]
        · simp [hk, Ne.symm hk]
      rw [List.map_cons, seatedAfter_cons, hfirst, ih, List.map_cons, Bool.or_assoc,
        ← Bool.decide_or]
      simp only [List.mem_cons]
  rw [attaches, hloop, Bool.false_or, listed]
  by_cases hmem : k ∈ s.sessions.entries.map Sigma.fst
  · rw [decide_eq_true hmem]
    exact (AList.lookup_isSome.mpr hmem).symm
  · rw [decide_eq_false hmem]
    have hnone : ¬ (s.sessions.lookup k).isSome = true := fun h => hmem (AList.lookup_isSome.mp h)
    exact (Bool.not_eq_true _ ▸ hnone).symm

theorem linkInv_snapshot {s : ShardLink Raw Auth} (h : LinkInv s) (hconn : s.manager = .connected) :
    LinkInv { s with manager := .reattaching (s.attaches cfg) } where
  seated := h.seated
  own := h.own
  waiting := h.waiting
  early := fun hcontra => by cases hcontra
  flow := by
    intro _ _ _ k
    obtain ⟨hsocket, hhas⟩ := h.early hconn
    have hk : ({ s with manager := .reattaching (s.attaches cfg) } : ShardLink Raw Auth).has k = false :=
      hhas k
    rw [hk, hsocket, List.nil_append, ManagerPhase.owed, seatedAfter_append, seatedAfter_attaches]
    exact h.waiting k

/-- The first message of the channel may be taken away. -/
theorem LinkInv.waiting_tail {s : ShardLink Raw Auth} (h : LinkInv s) {msg : ShardMsg Auth}
    {queue : List (ShardMsg Auth)} (hqueue : s.queue = msg :: queue) (k : SessionId) :
    seatedAfter k (s.listed k) (queue ++ (s.handler k).owed k) = s.listed k := by
  have hwait := h.waiting k
  rw [hqueue] at hwait
  exact seatedAfter_tail hwait

/-- The manager writes the next message of its own, or one it has taken from the channel. -/
theorem linkInv_write {s : ShardLink Raw Auth} (h : LinkInv s) (manager : ManagerPhase Auth)
    (queue : List (ShardMsg Auth)) {msg : ShardMsg Auth}
    (hoff : s.manager ≠ .offline) (hconn : s.manager ≠ .connected) (hconn' : manager ≠ .connected)
    (hwait : ∀ k, seatedAfter k (s.listed k) (queue ++ (s.handler k).owed k) = s.listed k)
    (hnext : s.manager.owed ++ s.queue = msg :: (manager.owed ++ queue)) :
    LinkInv (write { s with manager, queue } msg) := by
  unfold write
  split
  · next hup =>
    refine ⟨h.seated, h.own, hwait, fun hcontra => absurd hcontra hconn', fun _ _ _ k => ?_⟩
    have hflow := h.flow hoff hconn hup k
    rw [← List.append_assoc s.manager.owed, hnext] at hflow
    simp only [List.append_assoc, List.cons_append, List.nil_append] at hflow ⊢
    exact hflow
  · next hdown =>
    exact ⟨h.seated, h.own, hwait, fun hcontra => absurd hcontra hconn',
      fun _ _ hup => absurd hup hdown⟩

/-! ## The shard -/

theorem linkInv_serve {s : ShardLink Raw Auth} (h : LinkInv s) {saveOk : Bool} {O : SetOrder}
    {msg : ShardMsg Auth} {socket : List (ShardMsg Auth)} (haccepted : s.accepted = true)
    (hsocket : s.socket = msg :: socket) :
    LinkInv { s with socket, world := handle cfg saveOk O s.world msg } where
  seated _ := handle_seated (h.seated haccepted) msg
  own := h.own
  waiting := h.waiting
  early := by
    intro hconn
    have hnil := (h.early hconn).1
    rw [hsocket] at hnil
    cases hnil
  flow := by
    intro hoff hconn hup k
    have hflow := h.flow hoff hconn hup k
    rw [hsocket, List.cons_append, seatedAfter_cons, has_eq haccepted,
      ← @handle_attached _ _ cfg saveOk O _ (h.seated haccepted)] at hflow
    rw [@has_eq _ _ { s with socket, world := handle cfg saveOk O s.world msg } haccepted]
    exact hflow

theorem linkInv_play {s : ShardLink Raw Auth} (h : LinkInv s) {world : World Raw}
    (hworld : Seated s.world → Seated world ∧ ∀ k, world.attached k = s.world.attached k) :
    LinkInv { s with world } := by
  have hhas : ∀ k, ({ s with world } : ShardLink Raw Auth).has k = s.has k := by
    intro k
    simp only [has]
    cases haccepted : s.accepted with
    | false => rfl
    | true => rw [(hworld (h.seated haccepted)).2 k]
  refine ⟨fun haccepted => (hworld (h.seated haccepted)).1, h.own, h.waiting, fun hconn => ?_,
    fun hoff hconn hup k => ?_⟩
  · exact ⟨(h.early hconn).1, fun k => (hhas k).trans ((h.early hconn).2 k)⟩
  · rw [hhas]
    exact h.flow hoff hconn hup k

/-! ## All moves -/

theorem linkInv_step {s s' : ShardLink Raw Auth} {m : LinkMove Raw Auth} (h : LinkInv s)
    (hs : s.step cfg m = some s') : LinkInv s' := by
  cases m with
  | login k l =>
    simp only [step] at hs
    split at hs
    · cases hs
      refine linkInv_list h rfl (linkWrite_attachBody k cfg.authLen) fun k' => ?_
      rw [Table.lookup_insert_eq]
      split <;> rfl
    · cases hs
  | logout k =>
    simp only [step] at hs
    split at hs
    · cases hs
      refine linkInv_list h rfl rfl fun k' => ?_
      rw [Table.lookup_erase_eq]
      split <;> rfl
    · cases hs
  | send k =>
    simp only [step] at hs
    split at hs
    · next hk => exact linkInv_send h (by rw [hk]; rfl) rfl hs
    · next hk => exact linkInv_send h (by rw [hk]; rfl) rfl hs
    · cases hs
  | input k line =>
    simp only [step] at hs
    split at hs
    · exact linkInv_enqueue h (fun k => Or.inr ⟨by simp [linkWrite], rfl⟩) hs
    · cases hs
  | connect =>
    simp only [step] at hs
    split at hs
    · cases hs
      refine ⟨fun hcontra => ?_, h.own, h.waiting, fun _ => ⟨rfl, fun k => rfl⟩,
        fun _ hconn => absurd rfl hconn⟩
      cases hcontra
    · cases hs
  | accept readOk rooms file =>
    simp only [step] at hs
    split at hs
    · cases hs
    · next haccepted =>
      cases hs
      -- the new world has nobody in it, as had the one that did not serve this connection
      have hhas : ∀ k, s.has k = false := by
        intro k
        rw [has, (Bool.not_eq_true _).mp haccepted, Bool.false_and]
      refine ⟨fun _ => seated_new, h.own, h.waiting, fun hconn => ⟨(h.early hconn).1, fun k => rfl⟩,
        fun hoff hconn hup k => ?_⟩
      have hflow := h.flow hoff hconn hup k
      rw [hhas] at hflow
      exact hflow
  | snapshot =>
    simp only [step] at hs
    split at hs
    · next hconn => cases hs; exact linkInv_snapshot h hconn
    · cases hs
  | reattach =>
    simp only [step] at hs
    split at hs
    · next hmanager =>
      cases hs
      refine ⟨h.seated, h.own, h.waiting, nofun, fun _ _ hup k => ?_⟩
      have hflow := h.flow (by rw [hmanager]; nofun) (by rw [hmanager]; nofun) hup k
      rw [hmanager] at hflow
      exact hflow
    · next msg left hmanager =>
      cases hs
      refine linkInv_write h (.reattaching left) s.queue (by rw [hmanager]; nofun)
        (by rw [hmanager]; nofun) nofun h.waiting ?_
      rw [hmanager]
      rfl
    · cases hs
  | forward =>
    simp only [step] at hs
    split at hs
    · next msg queue hmanager hqueue =>
      cases hs
      refine linkInv_write h s.manager queue (by rw [hmanager]; nofun) (by rw [hmanager]; nofun)
        (by rw [hmanager]; nofun) (h.waiting_tail hqueue) ?_
      rw [hqueue, hmanager]
      rfl
    · cases hs
  | drain =>
    simp only [step] at hs
    split at hs
    · next msg queue hmanager hqueue =>
      cases hs
      exact ⟨h.seated, h.own, h.waiting_tail hqueue, h.early, fun hoff => absurd hmanager hoff⟩
    · cases hs
  | lose =>
    cases hs
    exact ⟨h.seated, h.own, h.waiting, h.early, nofun⟩
  | notice =>
    simp only [step] at hs
    split at hs
    · split at hs
      · cases hs
      · cases hs
        exact ⟨h.seated, h.own, h.waiting, nofun, fun hoff => absurd rfl hoff⟩
    · cases hs
  | serve saveOk O =>
    simp only [step] at hs
    split at hs
    · next haccepted =>
      split at hs
      · cases hs
      · next msg socket hsocket => cases hs; exact linkInv_serve h haccepted hsocket
    · cases hs
  | play m =>
    simp only [step] at hs
    split at hs
    · next hplay =>
      obtain ⟨world, hworld, rfl⟩ := Option.map_eq_some_iff.mp hs
      exact linkInv_play h fun hseated => play_seated hseated hplay hworld
    · cases hs

/-! ## Agreement -/

/-- The shard has attached exactly the listed sessions, and each of them has one character. That
character is there, and is the only one the session controls, as long as the shard has not used
up the `u64` ids of its characters. -/
structure Agree (s : ShardLink Raw Auth) : Prop where
  attached : ∀ k, (s.world.sessions.lookup k).isSome = (s.sessions.lookup k).isSome
  one : ∀ k ss, s.world.sessions.lookup k = some ss → ∃ cid, ss.controlled = [cid]
    ∧ (s.world.nextCharId < Word.maxU64 → ∀ cid', s.world.Controls k cid' ↔ cid' = cid)

theorem LinkInv.agree {s : ShardLink Raw Auth} (h : LinkInv s) (hs : s.Settled) : s.Agree := by
  obtain ⟨hmanager, hup, haccepted⟩ := hs.up
  refine ⟨fun k => ?_, fun k ss hk => (h.seated haccepted).controls hk⟩
  have hflow := h.flow (by rw [hmanager]; nofun) (by rw [hmanager]; nofun) hup k
  rw [hs.socket, hs.queue, hs.handlers k, hmanager] at hflow
  exact (has_eq haccepted k).symm.trans hflow

/-- **Once the link has settled, broker and shard agree on who is attached**, whatever was lost
on the way. -/
theorem attached_after_outages (cfg : BrokerConfig Raw Auth) (world : World Raw)
    (ms : List (LinkMove Raw Auth)) (s : ShardLink Raw Auth)
    (hex : exec (step cfg) (start world) ms = some s) (hs : s.Settled) : s.Agree := by
  have hal : Along (step cfg) (fun _ _ => True) (start world) ms :=
    along_of_forall (fun _ _ => trivial) _ _
  have hinv : LinkInv s :=
    exec_invariant (fun h _ hstep => linkInv_step h hstep) (linkInv_start world) hal hex
  exact hinv.agree hs

/-- A session under a name, from this host. -/
def listedAs (n : Text) (h : IsName n) : ListedSession (Option AuthBlob) where
  info :=
    { name := n
      held := false
      isBot := false
      auth := none
      race := "elf".toList
      cls := "bard".toList
      sex := "female".toList
      pronouns := "she".toList
      peerIp := loopback }
  named := h

def alice : ListedSession (Option AuthBlob) :=
  listedAs (sanitizeName "Alice".toList) (isName_sanitizeName rfl)

def bob : ListedSession (Option AuthBlob) :=
  listedAs (sanitizeName "Bob".toList) (isName_sanitizeName rfl)

/-- Alice logs in, the connection breaks, and Bob's attach is lost with it; Alice logs out while
the shard cannot be reached. -/
def outageRun : List (LinkMove (Option (List PlayerSnapshot)) (Option AuthBlob)) :=
  [.connect, .accept true ⟨[], []⟩ none, .snapshot, .reattach, .login 1 alice, .send 1, .forward,
    .serve true someOrder, .lose, .login 2 bob, .send 2, .forward, .notice, .logout 1,
    .connect, .accept true ⟨[], []⟩ none, .snapshot, .send 1, .reattach, .reattach, .forward,
    .serve true someOrder, .serve true someOrder]

theorem attached_after_outages_lost : ∃ s,
    exec (step BrokerConfig.plain) (start (World.new (Codec.direct _) true ⟨[], []⟩ none)) outageRun = some s
      ∧ s.Settled ∧ s.Agree := by
  obtain ⟨s, hex, hset⟩ : ∃ s,
      exec (step BrokerConfig.plain) (start (World.new (Codec.direct _) true ⟨[], []⟩ none)) outageRun
        = some s ∧ s.Settled := by
    refine ⟨_, rfl, ⟨rfl, rfl, rfl⟩, ?_, rfl, rfl⟩
    intro k
    rcases k with _ | _ | _ | k
    · rfl
    · rfl
    · rfl
    · rfl
  exact ⟨s, hex, hset, attached_after_outages _ _ outageRun s hex hset⟩

end ShardLink

end Slopmud.Broker
