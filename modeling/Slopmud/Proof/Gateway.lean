import Mathlib.Tactic.FinCases
import Slopmud.Lib.Machine
import Slopmud.Ws.Gateway

/-!
# Clients of the websocket gateway do not touch each other, if they keep to their ids

The JSON mode draws the session id itself, and forwards requests under the id of
the connection. The binary mode takes the id from each frame: it never compares it
with the session of the connection, nor with the ids of others. So the gateway
isolates its clients as long as each binary frame has the connection's own id.
-/

namespace Slopmud.Ws

open Machine Slopmud.Proto

/-! ## What is to hold -/

/-- Whether, after these requests, a session is attached. -/
def standing (sid : SessionId) (rs : List (UInt8 × SessionId)) : Bool :=
  rs.foldl (fun b r =>
    if r.2 = sid then
      if r.1 = reqAttach then true else if r.1 = reqDetach then false else b
    else b) false

/-- The requests written on behalf of a connection. -/
def writes (k : Nat) (trace : List Event) : List (UInt8 × SessionId) :=
  trace.filterMap fun
    | .write k' t sid => if k' = k then some (t, sid) else none
    | _ => none

/-- The connection has put an entry for the session into `clients`. -/
def Inserted (trace : List Event) (k : Nat) (sid : SessionId) : Prop :=
  ∃ replaced, Event.insert k sid replaced ∈ trace

/-- How often the connection has attached the session: each time it puts an entry into `clients`. -/
def attaches (k : Nat) (sid : SessionId) (trace : List Event) : Nat :=
  trace.countP fun
    | .insert k' sid' _ => k' = k ∧ sid' = sid
    | _ => false

/-- How often these requests detach the session. -/
def detaches (sid : SessionId) (rs : List (UInt8 × SessionId)) : Nat := rs.count (reqDetach, sid)

/-- The connection has attached the session, and no DETACH for it has been written since: more
attaches of its own than detaches. -/
def Holds (trace : List Event) (k : Nat) (sid : SessionId) : Prop :=
  detaches sid (writes k trace) < attaches k sid trace

/-- What is to hold of an event, after those before it. -/
def EventOk (before : List Event) : Event → Prop
  /- No entry of another connection is replaced. -/
  | .insert k _ replaced => ∀ k' ∈ replaced, k' = k
  /- The connection has attached the session, and not detached it; this is asked of an ATTACH too,
  also of one that the manager repeats. Any other request comes while the shard has it attached. -/
  | .write k t sid => Holds before k sid ∧ (t ≠ reqAttach → standing sid (writes k before) = true)
  /- The connection, and no other, has attached the session. -/
  | .deliver k sid => Inserted before k sid ∧ ∀ k', Inserted before k' sid → k' = k

/-- **Isolation**: every event is as it is to be. -/
def Isolated (trace : List Event) : Prop :=
  ∀ before e after, trace = before ++ e :: after → EventOk before e

theorem isolated_concat {trace : List Event} {e : Event} (h : Isolated trace) (he : EventOk trace e) :
    Isolated (trace ++ [e]) := by
  intro before e' after heq
  rcases List.eq_nil_or_concat after with rfl | ⟨after', last, rfl⟩
  · obtain ⟨rfl, hlast⟩ := List.append_inj' heq rfl
    cases hlast
    exact he
  · rw [List.concat_eq_append, ← List.cons_append, ← List.append_assoc] at heq
    exact h before e' after' (List.append_inj' heq rfl).1

/-! ## Requests in order -/

/-- Every request but an attach comes while its session is attached. -/
def Ordered (rs : List (UInt8 × SessionId)) : Prop :=
  ∀ pre t sid suf, rs = pre ++ (t, sid) :: suf → t ≠ reqAttach → standing sid pre = true

theorem standing_concat (sid : SessionId) (rs : List (UInt8 × SessionId)) (t : UInt8) (sid' : SessionId) :
    standing sid (rs ++ [(t, sid')]) =
      if sid' = sid then
        if t = reqAttach then true else if t = reqDetach then false else standing sid rs
      else standing sid rs := by
  simp only [standing, List.foldl_append, List.foldl_cons, List.foldl_nil]

theorem ordered_concat {rs : List (UInt8 × SessionId)} {t : UInt8} {sid : SessionId} (h : Ordered rs)
    (hlast : t ≠ reqAttach → standing sid rs = true) : Ordered (rs ++ [(t, sid)]) := by
  intro pre t' sid' suf heq ht
  rcases List.eq_nil_or_concat suf with rfl | ⟨suf', last, rfl⟩
  · obtain ⟨rfl, hlast'⟩ := List.append_inj' heq rfl
    cases hlast'
    exact hlast ht
  · rw [List.concat_eq_append, ← List.cons_append, ← List.append_assoc] at heq
    exact h pre t' sid' suf' (List.append_inj' heq rfl).1 ht

/-- Writing the same request keeps what is written at least as attached as what was sent. -/
theorem standing_concat_mono {rs rs' : List (UInt8 × SessionId)}
    (h : ∀ sid, standing sid rs = true → standing sid rs' = true) (t : UInt8) (sid : SessionId) :
    ∀ sid', standing sid' (rs ++ [(t, sid)]) = true → standing sid' (rs' ++ [(t, sid)]) = true := by
  intro sid'
  rw [standing_concat, standing_concat]
  split_ifs
  · exact id
  · exact id
  · exact h sid'
  · exact h sid'

/-- One more attach takes nothing away. -/
theorem standing_attach {rs : List (UInt8 × SessionId)} {sid : SessionId} (sid' : SessionId)
    (h : standing sid rs = true) : standing sid (rs ++ [(reqAttach, sid')]) = true := by
  rw [standing_concat, h, if_pos rfl, ite_self]

/-- The requests a connection has sent. -/
def sentBy (k : Nat) (sent : List (Nat × ShardMsg)) : List (UInt8 × SessionId) :=
  sent.filterMap fun m => if m.1 = k then some (m.2.t, m.2.session) else none

/-- The requests a handler is about to send. -/
def toSend (todo : List Section) : List (UInt8 × SessionId) :=
  todo.filterMap fun
    | .send msg => some (msg.t, msg.session)
    | _ => none

theorem sentBy_concat (k k' : Nat) (sent : List (Nat × ShardMsg)) (msg : ShardMsg) :
    sentBy k (sent ++ [(k', msg)])
      = if k' = k then sentBy k sent ++ [(msg.t, msg.session)] else sentBy k sent := by
  unfold sentBy
  rw [List.filterMap_append]
  by_cases hk : k' = k
  · simp [hk]
  · simp [hk]

theorem writes_concat (k k' : Nat) (trace : List Event) (t : UInt8) (sid : SessionId) :
    writes k (trace ++ [Event.write k' t sid])
      = if k' = k then writes k trace ++ [(t, sid)] else writes k trace := by
  unfold writes
  rw [List.filterMap_append]
  by_cases hk : k' = k
  · simp [hk]
  · simp [hk]

theorem writes_other (k : Nat) (trace : List Event) {e : Event} (he : ∀ t sid, e ≠ .write k t sid) :
    writes k (trace ++ [e]) = writes k trace := by
  unfold writes
  rw [List.filterMap_append]
  cases e with
  | write k' t sid =>
      have hk : k' ≠ k := by
        intro heq
        exact he t sid (by rw [heq])
      simp [hk]
  | insert k' sid replaced => simp
  | deliver k' sid => simp

theorem Inserted.concat {trace : List Event} {k : Nat} {sid : SessionId} (h : Inserted trace k sid)
    (e : Event) : Inserted (trace ++ [e]) k sid := by
  obtain ⟨replaced, hmem⟩ := h
  exact ⟨replaced, List.mem_append_left _ hmem⟩

/-- Only an insert is new among the inserts. -/
theorem inserted_concat {trace : List Event} {e : Event} {k : Nat} {sid : SessionId}
    (h : Inserted (trace ++ [e]) k sid) :
    Inserted trace k sid ∨ ∃ replaced, e = .insert k sid replaced := by
  obtain ⟨replaced, hmem⟩ := h
  rcases List.mem_append.mp hmem with hmem | hmem
  · exact Or.inl ⟨replaced, hmem⟩
  · exact Or.inr ⟨replaced, (List.mem_singleton.mp hmem).symm⟩

/-! ## Attaches and detaches are counted -/

theorem attaches_concat (k : Nat) (sid : SessionId) (trace : List Event) (e : Event) :
    attaches k sid trace ≤ attaches k sid (trace ++ [e]) := by
  rw [attaches, attaches, List.countP_append]
  exact Nat.le_add_right _ _

theorem attaches_insert (k : Nat) (sid : SessionId) (trace : List Event) (k' : Nat) (sid' : SessionId)
    (replaced : Option Nat) :
    attaches k sid (trace ++ [Event.insert k' sid' replaced])
      = attaches k sid trace + if k' = k ∧ sid' = sid then 1 else 0 := by
  simp [attaches, List.countP_append, List.countP_singleton]

theorem attaches_other (k : Nat) (sid : SessionId) (trace : List Event) {e : Event}
    (he : ∀ sid' replaced, e ≠ .insert k sid' replaced) :
    attaches k sid (trace ++ [e]) = attaches k sid trace := by
  cases e with
  | insert k' sid' replaced =>
      rw [attaches_insert, if_neg ?_]
      · rfl
      · rintro ⟨rfl, rfl⟩
        exact he sid' replaced rfl
  | write k' t sid' => simp [attaches, List.countP_append]
  | deliver k' sid' => simp [attaches, List.countP_append]

theorem detaches_append (sid : SessionId) (rs rs' : List (UInt8 × SessionId)) :
    detaches sid (rs ++ rs') = detaches sid rs + detaches sid rs' := List.count_append

theorem detaches_concat (sid : SessionId) (rs : List (UInt8 × SessionId)) (t : UInt8) (sid' : SessionId) :
    detaches sid (rs ++ [(t, sid')])
      = detaches sid rs + if t = reqDetach ∧ sid' = sid then 1 else 0 := by
  rw [detaches_append]
  congr 1
  simp [detaches, List.count_singleton]

/-- The manager has taken no more of them than were sent. -/
theorem detaches_taken (k : Nat) (sid : SessionId) (sent : List (Nat × ShardMsg)) (taken : Nat) :
    detaches sid (sentBy k (sent.take taken)) ≤ detaches sid (sentBy k sent) :=
  ((List.take_sublist taken sent).filterMap _).count_le _

/-- A request that is no DETACH of the session does not count. -/
theorem detaches_concat_other {sid : SessionId} {rs : List (UInt8 × SessionId)} {t : UInt8}
    {sid' : SessionId} (h : ¬ (t = reqDetach ∧ sid' = sid)) :
    detaches sid (rs ++ [(t, sid')]) = detaches sid rs := by
  rw [detaches_concat, if_neg h, Nat.add_zero]

theorem inserted_of_attaches {trace : List Event} {k : Nat} {sid : SessionId}
    (hpos : 0 < attaches k sid trace) : Inserted trace k sid := by
  obtain ⟨e, hmem, he⟩ := List.countP_pos_iff.mp hpos
  cases e with
  | insert k' sid' replaced =>
      obtain ⟨rfl, rfl⟩ : k' = k ∧ sid' = sid := by simpa using he
      exact ⟨replaced, hmem⟩
  | write k' t sid' => simp at he
  | deliver k' sid' => simp at he

/-- Only a written DETACH ends the holding of a session. -/
theorem Holds.concat {trace : List Event} {k : Nat} {sid : SessionId} (h : Holds trace k sid)
    {e : Event} (he : ∀ sid', e ≠ .write k reqDetach sid') : Holds (trace ++ [e]) k sid := by
  have hwrites : detaches sid (writes k (trace ++ [e])) = detaches sid (writes k trace) := by
    cases e with
    | write k' t sid' =>
        rw [writes_concat]
        split
        · rename_i hk
          refine detaches_concat_other ?_
          rintro ⟨rfl, -⟩
          exact he sid' (by rw [hk])
        · rfl
    | insert k' sid' replaced => rw [writes_other k trace (by intro t sid'' heq; cases heq)]
    | deliver k' sid' => rw [writes_other k trace (by intro t sid'' heq; cases heq)]
  rw [Holds, hwrites]
  exact Nat.lt_of_lt_of_le h (attaches_concat k sid trace e)

/-- The attaches a handler has still to make. -/
def pending (sid : SessionId) (todo : List Section) : Nat :=
  todo.countP fun
    | .insert sid' _ => sid' = sid
    | _ => false

theorem pending_insert (sid : SessionId) (sid' : SessionId) (ci : ClientInfo) (rest : List Section) :
    pending sid (.insert sid' ci :: rest) = (if sid' = sid then 1 else 0) + pending sid rest := by
  simp only [pending, List.countP_cons, decide_eq_true_eq]
  exact Nat.add_comm _ _

theorem pending_none {sid : SessionId} {todo : List Section}
    (h : ∀ sid' ci, Section.insert sid' ci ∉ todo) : pending sid todo = 0 := by
  unfold pending
  rw [List.countP_eq_zero]
  intro sec hsec
  cases sec with
  | insert sid' ci => exact absurd hsec (h sid' ci)
  | remove sid' => simp
  | send msg => simp
  | reply out => simp

/-! ## The turns of a handler -/

/-- The condition: a frame has the connection's own session id, and does not detach it; a first
attach does not have the id of another. -/
def OwnFrames (s : Gateway) : GatewayMove → Prop
  | .receive k _ (.binary t (some v) _) => v.length = 16 →
    match (s.conns k).session with
    | some sid => SessionId.fromBeBytes v = sid ∧ t ≠ reqDetach
    | none => t = reqAttach → ∀ k', (k', SessionId.fromBeBytes v) ∈ s.claimed → k' = k
  | _ => True

/-- What is assumed of `new_session_id`: it draws no id that some connection has already. -/
def DrawsFresh (s : Gateway) : GatewayMove → Prop
  | .receive k drawn (.text (some (.attach ..))) => (s.conns k).mode = .json →
    (s.conns k).session = none → ∀ k', (k', drawn) ∉ s.claimed
  | _ => True

/-- What a turn of the loop may do, when it meets the conditions. -/
inductive Turn (claimed : List (Nat × SessionId)) (k : Nat) (c c' : WsConn) : Prop where
  | quiet (hsession : c'.session = c.session) (htodo : ∀ sec ∈ c'.todo, ∃ out, sec = .reply out)
  | attach (sid : SessionId) (mode : Mode) (body : Bytes) (replies : List Outbound)
      (hnone : c.session = none) (hsession : c'.session = some sid)
      (htodo : c'.todo = WsConn.attachSections k mode sid body ++ replies.map .reply)
      (hfresh : ∀ k', (k', sid) ∈ claimed → k' = k)
  | request (sid : SessionId) (t : UInt8) (body : Bytes)
      (hsome : c.session = some sid) (hsession : c'.session = some sid)
      (htodo : c'.todo = [.send ⟨t, sid, body⟩]) (ht : t ≠ reqDetach)
  | detach (sid : SessionId)
      (hsome : c.session = some sid) (hsession : c'.session = none)
      (htodo : c'.todo = WsConn.detachSections sid)

theorem receiveJson_turn {s : Gateway} {k : Nat} {drawn : SessionId} {j : JsonIn}
    (hfresh : DrawsFresh s (.receive k drawn (.text (some j)))) (hmode : (s.conns k).mode = .json)
    (htodo : (s.conns k).todo = []) :
    Turn s.claimed k (s.conns k) ((s.conns k).receiveJson k drawn j) := by
  have hquiet : ∀ sec ∈ (s.conns k).todo, ∃ out, sec = Section.reply out := by simp [htodo]
  cases j with
  | attach name isBot race cls sex pronouns =>
      simp only [WsConn.receiveJson]
      cases hsess : (s.conns k).session with
      | some sid => exact .quiet (by simp [hsess]) hquiet
      | none =>
          simp only [Option.isSome_none, Bool.false_eq_true, if_false]
          split
          · exact .quiet (by simp [hsess]) hquiet
          · rename_i body _
            refine .attach drawn .json body [.jsonText (.attached (sidHex drawn))] hsess rfl rfl ?_
            intro k' hk'
            exact absurd hk' (hfresh hmode hsess k')
  | input line =>
      simp only [WsConn.receiveJson]
      split
      · exact .quiet rfl hquiet
      · rename_i sid hsess
        exact .request sid reqInput _ hsess hsess rfl (by decide)
  | detach =>
      simp only [WsConn.receiveJson]
      split
      · exact .quiet rfl hquiet
      · rename_i sid hsess
        exact .detach sid hsess rfl rfl
  | ping => exact .quiet rfl (by simp [WsConn.receiveJson])

theorem receiveFrame_turn {s : Gateway} {k : Nat} {drawn : SessionId} {t : UInt8}
    {session body : Option Bytes} (hown : OwnFrames s (.receive k drawn (.binary t session body)))
    (htodo : (s.conns k).todo = []) :
    Turn s.claimed k (s.conns k) ((s.conns k).receiveFrame k t session body) := by
  have hquiet : ∀ sec ∈ (s.conns k).todo, ∃ out, sec = Section.reply out := by simp [htodo]
  cases session with
  | none => exact .quiet rfl hquiet
  | some v =>
      simp only [WsConn.receiveFrame]
      by_cases hlen : v.length = 16
      · have hown := hown hlen
        rw [if_neg (by omega)]
        cases hsess : (s.conns k).session with
        | none =>
            rw [hsess] at hown
            simp only [Option.isNone_none, if_true]
            by_cases ht : t = reqAttach
            · rw [if_neg (by simp [ht])]
              exact .attach _ .fbs (body.getD []) [] hsess rfl (by simp) (hown ht)
            · rw [if_pos ht]
              exact .quiet (by simp [hsess]) hquiet
        | some sid =>
            rw [hsess] at hown
            obtain ⟨hsid, ht⟩ := hown
            exact .request sid t (body.getD []) hsess (by simp) (by simp [hsid]) ht
      · rw [if_pos hlen]
        exact .quiet rfl hquiet

/-- **Every turn** is one of these. -/
theorem receive_turn {s : Gateway} {k : Nat} {drawn : SessionId} {m : Message}
    (hfresh : DrawsFresh s (.receive k drawn m)) (hown : OwnFrames s (.receive k drawn m))
    (htodo : (s.conns k).todo = []) :
    Turn s.claimed k (s.conns k) ((s.conns k).receive k drawn m) := by
  have hquiet : ∀ sec ∈ (s.conns k).todo, ∃ out, sec = Section.reply out := by simp [htodo]
  cases m with
  | text j =>
      simp only [WsConn.receive]
      by_cases hmode : (s.conns k).mode = .json
      · rw [if_neg (by simp [hmode])]
        cases j with
        | none => exact .quiet rfl (by simp)
        | some j => exact receiveJson_turn hfresh hmode htodo
      · rw [if_pos hmode]
        exact .quiet rfl hquiet
  | binary t session body => exact receiveFrame_turn hown htodo
  | other => exact .quiet rfl hquiet
  | close =>
      simp only [WsConn.receive]
      split
      · exact .quiet rfl hquiet
      · rename_i sid hsess
        exact .detach sid hsess rfl rfl

/-! ## The invariant of a handler -/

/-- What a handler keeps, with the requests `rs` it has sent. What it is about to do counts as
done, so that it says the same in the middle of a turn. -/
structure ConnInv (k : Nat) (claimed : List (Nat × SessionId)) (trace : List Event)
    (rs : List (UInt8 × SessionId)) (c : WsConn) : Prop where
  ordered : Ordered (rs ++ toSend c.todo)
  standing : ∀ sid, standing sid (rs ++ toSend c.todo) = true ↔ c.session = some sid
  /-- Each attach has its detach, but that of its session. -/
  tally : ∀ sid, detaches sid (rs ++ toSend c.todo) + (if c.session = some sid then 1 else 0)
    = attaches k sid trace + pending sid c.todo
  /-- A request is sent while there is an attach without a detach. -/
  sent : ∀ pre t sid suf, rs = pre ++ (t, sid) :: suf → detaches sid pre < attaches k sid trace
  covered : ∀ sid, detaches sid rs ≤ attaches k sid trace
  /-- So it will be with those it is about to send. -/
  ready : ∀ pre msg suf, c.todo = pre ++ .send msg :: suf →
    detaches msg.session (rs ++ toSend pre) < attaches k msg.session trace + pending msg.session pre
  inserts : ∀ sid ci, Section.insert sid ci ∈ c.todo → (k, sid) ∈ claimed ∧ ci.tx = k

variable {k : Nat} {claimed claimed' : List (Nat × SessionId)} {trace trace' : List Event}
  {rs : List (UInt8 × SessionId)} {c c' : WsConn}

theorem ConnInv.mono (h : ConnInv k claimed trace rs c) (hclaimed : ∀ x ∈ claimed, x ∈ claimed')
    (htrace : ∀ sid, attaches k sid trace' = attaches k sid trace) :
    ConnInv k claimed' trace' rs c where
  ordered := h.ordered
  standing := h.standing
  tally := by
    intro sid
    rw [htrace]
    exact h.tally sid
  sent := by
    intro pre t sid suf heq
    rw [htrace]
    exact h.sent pre t sid suf heq
  covered := by
    intro sid
    rw [htrace]
    exact h.covered sid
  ready := by
    intro pre msg suf heq
    rw [htrace]
    exact h.ready pre msg suf heq
  inserts := by
    intro sid ci hmem
    exact ⟨hclaimed _ (h.inserts sid ci hmem).1, (h.inserts sid ci hmem).2⟩

theorem connInv_new (k : Nat) : ConnInv k [] [] [] .new where
  ordered := by
    intro pre t sid suf heq
    simp [toSend, WsConn.new] at heq
  standing := by
    intro sid
    simp [toSend, WsConn.new, Ws.standing]
  tally := by
    intro sid
    simp [toSend, WsConn.new, pending, detaches, attaches]
  sent := by
    intro pre t sid suf heq
    simp at heq
  covered := by
    intro sid
    exact Nat.le_refl _
  ready := by
    intro pre msg suf heq
    have hmem : Section.send msg ∈ WsConn.new.todo := by
      rw [heq]
      simp
    simp [WsConn.new] at hmem
  inserts := by
    intro sid ci hmem
    simp [WsConn.new] at hmem

/-- Sections that only reply send nothing. -/
theorem toSend_replies {todo : List Section} (h : ∀ sec ∈ todo, ∃ out, sec = .reply out) :
    toSend todo = [] := by
  unfold toSend
  rw [List.filterMap_eq_nil_iff]
  intro sec hsec
  obtain ⟨out, rfl⟩ := h sec hsec
  rfl

theorem toSend_attach (mode : Mode) (sid : SessionId) (body : Bytes) (replies : List Outbound) :
    toSend (WsConn.attachSections k mode sid body ++ replies.map .reply) = [(reqAttach, sid)] := by
  have hreplies : toSend (replies.map .reply) = [] := by
    apply toSend_replies
    intro sec hsec
    obtain ⟨out, -, rfl⟩ := List.mem_map.mp hsec
    exact ⟨out, rfl⟩
  unfold toSend at hreplies ⊢
  rw [List.filterMap_append, hreplies]
  rfl

/-- **A turn keeps the invariant**, with what it claims. -/
theorem connInv_turn (hturn : Turn claimed k c c') (htodo : c.todo = [])
    (h : ConnInv k claimed trace rs c) : ConnInv k (claimed ++ Gateway.newClaim k c c') trace rs c' := by
  have hordered : Ordered rs := by
    have := h.ordered
    rwa [htodo, toSend, List.filterMap_nil, List.append_nil] at this
  have hstanding : ∀ sid, Ws.standing sid rs = true ↔ c.session = some sid := by
    intro sid
    have := h.standing sid
    rwa [htodo, toSend, List.filterMap_nil, List.append_nil] at this
  have htally : ∀ sid, detaches sid rs + (if c.session = some sid then 1 else 0) = attaches k sid trace := by
    intro sid
    have := h.tally sid
    rwa [htodo, toSend, List.filterMap_nil, List.append_nil] at this
  -- the session of the connection has an attach without a detach
  have hheld : ∀ sid, c.session = some sid → detaches sid rs < attaches k sid trace := by
    intro sid hsid
    rw [← htally sid, if_pos hsid]
    exact Nat.lt_succ_self _
  cases hturn with
  | quiet hsession hquiet =>
      have hnone : ∀ sid, pending sid c'.todo = 0 := by
        intro sid
        refine pending_none ?_
        intro sid' ci hmem
        obtain ⟨out, hout⟩ := hquiet _ hmem
        cases hout
      exact {
        ordered := by
          rw [toSend_replies hquiet, List.append_nil]
          exact hordered
        standing := by
          intro sid
          rw [toSend_replies hquiet, List.append_nil, hsession]
          exact hstanding sid
        tally := by
          intro sid
          rw [toSend_replies hquiet, List.append_nil, hsession, hnone sid]
          exact htally sid
        sent := h.sent
        covered := h.covered
        ready := by
          intro pre msg suf heq
          obtain ⟨out, hout⟩ := hquiet (.send msg) (by rw [heq]; simp)
          cases hout
        inserts := by
          intro sid ci hmem
          obtain ⟨out, hout⟩ := hquiet _ hmem
          cases hout }
  | attach sid mode body replies hnone hsession htodo' hfresh =>
      have hnew : (k, sid) ∈ claimed ++ Gateway.newClaim k c c' := by
        refine List.mem_append_right _ ?_
        simp [Gateway.newClaim, hnone, hsession]
      have hpending : ∀ sid', pending sid' c'.todo = if sid = sid' then 1 else 0 := by
        intro sid'
        have hrest : pending sid' (.send ⟨reqAttach, sid, body⟩ :: replies.map .reply) = 0 :=
          pending_none (by simp)
        rw [htodo']
        show pending sid' (.insert sid _ :: .send _ :: replies.map .reply) = _
        rw [pending_insert, hrest, Nat.add_zero]
      exact {
        ordered := by
          rw [htodo', toSend_attach]
          exact ordered_concat hordered (fun h => absurd rfl h)
        standing := by
          intro sid'
          rw [htodo', toSend_attach, standing_concat, if_pos rfl, hsession]
          split
          · rename_i heq
            simp [heq]
          · rename_i hne
            rw [hstanding sid', hnone]
            simp [hne]
        tally := by
          intro sid'
          have hdetach : ¬ (reqAttach = reqDetach ∧ sid = sid') := fun h => absurd h.1 (by decide)
          have hbefore := htally sid'
          rw [hnone, if_neg (by simp), Nat.add_zero] at hbefore
          rw [hpending sid', htodo', toSend_attach, detaches_concat_other hdetach, hbefore, hsession]
          simp only [Option.some.injEq]
        sent := h.sent
        covered := h.covered
        ready := by
          intro pre msg suf heq
          -- the only request comes right after the insert
          rw [htodo'] at heq
          cases pre with
          | nil => simp [WsConn.attachSections] at heq
          | cons first pre =>
              simp only [WsConn.attachSections, List.cons_append, List.cons.injEq, List.nil_append] at heq
              obtain ⟨rfl, heq⟩ := heq
              cases pre with
              | nil =>
                  simp only [List.nil_append, List.cons.injEq, Section.send.injEq] at heq
                  obtain ⟨rfl, -⟩ := heq
                  have hbefore := h.covered sid
                  rw [pending_insert, if_pos rfl, toSend, List.filterMap_cons_none rfl,
                    List.filterMap_nil, List.append_nil]
                  show detaches sid rs < attaches k sid trace + (1 + pending sid [])
                  omega
              | cons second pre =>
                  simp only [List.cons_append, List.cons.injEq] at heq
                  have hmem : Section.send msg ∈ replies.map Section.reply := by
                    rw [heq.2]
                    simp
                  simp at hmem
        inserts := by
          intro sid' ci hmem
          rw [htodo'] at hmem
          simp only [WsConn.attachSections, List.cons_append, List.nil_append, List.mem_cons,
            Section.insert.injEq, reduceCtorEq, List.mem_map, and_false, exists_false, or_false] at hmem
          obtain ⟨rfl, rfl⟩ := hmem
          exact ⟨hnew, rfl⟩ }
  | request sid t body hsome hsession htodo' ht =>
      have hsend : toSend c'.todo = [(t, sid)] := by rw [htodo']; rfl
      have hpending : ∀ sid', pending sid' c'.todo = 0 := by
        intro sid'
        rw [htodo']
        exact pending_none (by simp)
      exact {
        ordered := by
          rw [hsend]
          exact ordered_concat hordered (fun _ => (hstanding sid).mpr hsome)
        standing := by
          intro sid'
          rw [hsend, standing_concat, hsession, if_neg ht, ← hsome, ← hstanding sid']
          split
          · rename_i heq
            subst heq
            rw [(hstanding sid).mpr hsome]
            simp
          · rfl
        tally := by
          intro sid'
          rw [hsend, detaches_concat_other (fun h => absurd h.1 ht), hpending sid', hsession, ← hsome]
          exact htally sid'
        sent := h.sent
        covered := h.covered
        ready := by
          intro pre msg suf heq
          rw [htodo'] at heq
          cases pre with
          | nil =>
              simp only [List.nil_append, List.cons.injEq, Section.send.injEq] at heq
              obtain ⟨rfl, -⟩ := heq
              rw [toSend, List.filterMap_nil, List.append_nil]
              exact hheld sid hsome
          | cons first pre => simp at heq
        inserts := by
          intro sid' ci hmem'
          rw [htodo'] at hmem'
          simp at hmem' }
  | detach sid hsome hsession htodo' =>
      have hsend : toSend c'.todo = [(reqDetach, sid)] := by rw [htodo']; rfl
      have hpending : ∀ sid', pending sid' c'.todo = 0 := by
        intro sid'
        rw [htodo']
        exact pending_none (by simp [WsConn.detachSections])
      exact {
        ordered := by
          rw [hsend]
          exact ordered_concat hordered (fun _ => (hstanding sid).mpr hsome)
        standing := by
          intro sid'
          have hdetach : reqDetach ≠ reqAttach := by decide
          rw [hsend, standing_concat, hsession]
          by_cases heq : sid = sid'
          · simp [heq, hdetach]
          · rw [if_neg heq, hstanding sid', hsome]
            simp [heq]
        tally := by
          intro sid'
          have hbefore := htally sid'
          rw [hsome] at hbefore
          rw [hsend, detaches_concat, hpending sid', hsession]
          simpa using hbefore
        sent := h.sent
        covered := h.covered
        ready := by
          intro pre msg suf heq
          rw [htodo'] at heq
          cases pre with
          | nil => simp [WsConn.detachSections] at heq
          | cons first pre =>
              simp only [WsConn.detachSections, List.cons_append, List.cons.injEq] at heq
              obtain ⟨rfl, heq⟩ := heq
              cases pre with
              | nil =>
                  simp only [List.nil_append, List.cons.injEq, Section.send.injEq] at heq
                  obtain ⟨rfl, -⟩ := heq
                  rw [toSend, List.filterMap_cons_none rfl, List.filterMap_nil, List.append_nil]
                  exact Nat.lt_of_lt_of_le (hheld sid hsome) (Nat.le_add_right _ _)
              | cons second pre => simp at heq
        inserts := by
          intro sid' ci hmem'
          rw [htodo'] at hmem'
          simp [WsConn.detachSections] at hmem' }

/-! ## The sections of a handler -/

/-- **A section keeps the invariant**: what it does is no longer to be done. -/
theorem connInv_advance {sec : Section} {rest : List Section} (h : ConnInv k claimed trace rs c)
    (htodo : c.todo = sec :: rest) {rs' : List (UInt8 × SessionId)}
    (hattaches : ∀ sid, attaches k sid trace' = attaches k sid trace + pending sid [sec])
    (hsent : rs' = rs ++ toSend [sec]) : ConnInv k claimed trace' rs' { c with todo := rest } := by
  have hcons : ∀ l, rs' ++ toSend l = rs ++ toSend (sec :: l) := by
    intro l
    rw [hsent, List.append_assoc, toSend, toSend, toSend, ← List.filterMap_append, List.singleton_append]
  have hpending : ∀ sid l, attaches k sid trace' + pending sid l
      = attaches k sid trace + pending sid (sec :: l) := by
    intro sid l
    rw [hattaches, Nat.add_assoc, pending, pending, pending, ← List.countP_append, List.singleton_append]
  -- a request that is sent now was ready
  have hnow : ∀ msg, sec = .send msg → detaches msg.session rs < attaches k msg.session trace := by
    intro msg hsec
    have := h.ready [] msg rest (by rw [htodo, hsec]; rfl)
    rwa [toSend, List.filterMap_nil, List.append_nil] at this
  refine ⟨?_, ?_, ?_, ?_, ?_, ?_, ?_⟩
  · show Ordered (rs' ++ toSend rest)
    rw [hcons, ← htodo]
    exact h.ordered
  · intro sid
    show Ws.standing sid (rs' ++ toSend rest) = true ↔ c.session = some sid
    rw [hcons, ← htodo]
    exact h.standing sid
  · intro sid
    show detaches sid (rs' ++ toSend rest) + _ = attaches k sid trace' + pending sid rest
    rw [hcons, hpending, ← htodo]
    exact h.tally sid
  · intro pre t sid suf heq
    have hold : detaches sid pre < attaches k sid trace := by
      cases sec with
      | send msg =>
          rw [hsent] at heq
          rcases List.eq_nil_or_concat suf with rfl | ⟨suf', last, rfl⟩
          · obtain ⟨rfl, hlast⟩ := List.append_inj' heq rfl
            cases hlast
            exact hnow msg rfl
          · rw [List.concat_eq_append, ← List.cons_append, ← List.append_assoc] at heq
            exact h.sent pre t sid suf' (List.append_inj' heq rfl).1
      | insert sid' ci => exact h.sent pre t sid suf (by rw [← heq, hsent]; exact (List.append_nil _).symm)
      | remove sid' => exact h.sent pre t sid suf (by rw [← heq, hsent]; exact (List.append_nil _).symm)
      | reply out => exact h.sent pre t sid suf (by rw [← heq, hsent]; exact (List.append_nil _).symm)
    rw [hattaches]
    exact Nat.lt_of_lt_of_le hold (Nat.le_add_right _ _)
  · intro sid
    have hold : detaches sid rs' ≤ attaches k sid trace := by
      rw [hsent]
      cases sec with
      | send msg =>
          show detaches sid (rs ++ [(msg.t, msg.session)]) ≤ _
          rw [detaches_concat]
          split
          · rename_i hmsg
            have := hnow msg rfl
            rw [hmsg.2] at this
            exact this
          · exact h.covered sid
      | insert sid' ci => exact (List.append_nil rs).symm ▸ h.covered sid
      | remove sid' => exact (List.append_nil rs).symm ▸ h.covered sid
      | reply out => exact (List.append_nil rs).symm ▸ h.covered sid
    rw [hattaches]
    exact Nat.le_trans hold (Nat.le_add_right _ _)
  · intro pre msg suf heq
    rw [hcons, hpending]
    exact h.ready (sec :: pre) msg suf (by rw [htodo]; exact congrArg (sec :: ·) heq)
  · intro sid ci hmem
    exact h.inserts sid ci (by rw [htodo]; exact List.mem_cons_of_mem _ hmem)

/-! ## The invariant of the gateway -/

/-- Entries that the manager holds are still held, or were inserted. -/
def ManagerOk (trace : List Event) : Manager → Prop
  | .reattaching left => ∀ x ∈ left, Holds trace x.2.tx x.1
  | .delivering tx session _ => Inserted trace tx session
  | _ => True

/-- A DETACH that a handler is about to send comes after its entry has left `clients`. -/
def LetsGo (k : Nat) (clients : Table SessionId ClientInfo) (todo : List Section) : Prop :=
  ∀ pre msg suf, todo = pre ++ .send msg :: suf → msg.t = reqDetach →
    pre = [.remove msg.session] ∨ pre = [] ∧ ∀ ci, clients.lookup msg.session = some ci → ci.tx ≠ k

structure GatewayInv (s : Gateway) : Prop where
  conn : ∀ k, ConnInv k s.claimed s.trace (sentBy k s.sent) (s.conns k)
  /-- A session id is one connection's. -/
  unique : ∀ k k' sid, (k, sid) ∈ s.claimed → (k', sid) ∈ s.claimed → k = k'
  inserted : ∀ k sid, Inserted s.trace k sid → (k, sid) ∈ s.claimed
  /-- What is in `clients` is attached, and no DETACH for it has been sent. -/
  clients : ∀ sid ci, s.clients.lookup sid = some ci →
    detaches sid (sentBy ci.tx s.sent) < attaches ci.tx sid s.trace
  letsGo : ∀ k, LetsGo k s.clients (s.conns k).todo
  manager : ManagerOk s.trace s.manager
  taken : s.taken ≤ s.sent.length
  /-- What is attached by the requests the manager has taken is attached by what it has written. -/
  written : ∀ k sid, standing sid (sentBy k (s.sent.take s.taken)) = true →
    standing sid (writes k s.trace) = true
  /-- The manager adds no DETACH, and drops none. -/
  dropped : ∀ k sid, detaches sid (writes k s.trace) = detaches sid (sentBy k (s.sent.take s.taken))
  isolated : Isolated s.trace

/-- Where no DETACH is to be sent, nothing has to go first. -/
theorem letsGo_none {k : Nat} {clients : Table SessionId ClientInfo} {todo : List Section}
    (h : ∀ msg, Section.send msg ∈ todo → msg.t ≠ reqDetach) : LetsGo k clients todo := by
  intro pre msg suf heq ht
  exact absurd ht (h msg (by rw [heq]; simp))

/-- A turn that ends a session lets go of it first. -/
theorem letsGo_turn {clients : Table SessionId ClientInfo} (hturn : Turn claimed k c c') :
    LetsGo k clients c'.todo := by
  cases hturn with
  | quiet _ hquiet =>
      refine letsGo_none ?_
      intro msg hmem
      obtain ⟨out, hout⟩ := hquiet _ hmem
      cases hout
  | attach sid mode body replies _ _ htodo _ =>
      refine letsGo_none ?_
      intro msg hmem
      rw [htodo] at hmem
      obtain rfl : msg = ⟨reqAttach, sid, body⟩ := by simpa [WsConn.attachSections] using hmem
      have hattach : reqAttach ≠ reqDetach := by decide
      exact hattach
  | request sid t body _ _ htodo ht =>
      refine letsGo_none ?_
      intro msg hmem
      rw [htodo] at hmem
      obtain rfl : msg = ⟨t, sid, body⟩ := by simpa using hmem
      exact ht
  | detach sid _ _ htodo =>
      intro pre msg suf heq _
      rw [htodo] at heq
      cases pre with
      | nil => simp [WsConn.detachSections] at heq
      | cons first pre =>
          simp only [WsConn.detachSections, List.cons_append, List.cons.injEq] at heq
          obtain ⟨rfl, heq⟩ := heq
          cases pre with
          | nil =>
              simp only [List.nil_append, List.cons.injEq, Section.send.injEq] at heq
              obtain ⟨rfl, -⟩ := heq
              exact Or.inl rfl
          | cons second pre => simp at heq

/-- A section that removes nothing is not before a DETACH. -/
theorem LetsGo.tail {clients clients' : Table SessionId ClientInfo} {sec : Section} {rest : List Section}
    (h : LetsGo k clients (sec :: rest))
    (hsec : ∀ sid, sec = .remove sid → clients'.lookup sid = none) : LetsGo k clients' rest := by
  intro pre msg suf heq ht
  rcases h (sec :: pre) msg suf (by rw [heq]; rfl) ht with hpre | ⟨hpre, -⟩
  · obtain ⟨rfl, rfl⟩ := List.cons.inj hpre
    refine Or.inr ⟨rfl, ?_⟩
    intro ci hci
    rw [hsec _ rfl] at hci
    cases hci
  · cases hpre

/-- Only an insert of the same connection is new in `clients`. -/
theorem LetsGo.mono {clients clients' : Table SessionId ClientInfo} {todo : List Section}
    (h : LetsGo k clients todo)
    (hsub : ∀ sid ci, clients'.lookup sid = some ci → ci.tx = k → clients.lookup sid = some ci) :
    LetsGo k clients' todo := by
  intro pre msg suf heq ht
  refine (h pre msg suf heq ht).imp_right ?_
  rintro ⟨hpre, hother⟩
  refine ⟨hpre, ?_⟩
  intro ci hci htx
  exact hother ci (hsub _ ci hci htx) htx

theorem gatewayInv_start : GatewayInv .start where
  conn := connInv_new
  unique := by intro k k' sid h; cases h
  inserted := by
    rintro k sid ⟨replaced, hmem⟩
    cases hmem
  clients := by intro sid ci h; cases h
  letsGo := by
    intro k
    refine letsGo_none ?_
    intro msg hmem
    simp [Gateway.start, WsConn.new] at hmem
  manager := trivial
  taken := Nat.le_refl _
  written := by intro k sid h; cases h
  dropped := by intro k sid; rfl
  isolated := by
    intro before e after heq
    simp [Gateway.start] at heq

theorem ManagerOk.concat {m : Manager} (h : ManagerOk trace m) {e : Event}
    (he : ∀ k sid, e ≠ .write k reqDetach sid) : ManagerOk (trace ++ [e]) m := by
  cases m with
  | down => trivial
  | up => trivial
  | reattaching left => exact fun x hx => (h x hx).concat (fun sid => he x.2.tx sid)
  | delivering tx session out => exact Inserted.concat h e

theorem gatewayInv_receive {s : Gateway} (h : GatewayInv s) {k : Nat} {drawn : SessionId} {m : Message}
    (hfresh : DrawsFresh s (.receive k drawn m)) (hown : OwnFrames s (.receive k drawn m))
    (htodo : (s.conns k).todo = []) :
    GatewayInv { s with
      conns := Function.update s.conns k ((s.conns k).receive k drawn m)
      claimed := s.claimed ++ Gateway.newClaim k (s.conns k) ((s.conns k).receive k drawn m) } := by
  have hturn := receive_turn hfresh hown htodo
  generalize (s.conns k).receive k drawn m = c' at hturn ⊢
  have hclaimed : ∀ x ∈ s.claimed, x ∈ s.claimed ++ Gateway.newClaim k (s.conns k) c' :=
    fun x hx => List.mem_append_left _ hx
  -- a new claim is the receiver's, of an id that no other has
  have hnew : ∀ k' sid, (k', sid) ∈ Gateway.newClaim k (s.conns k) c' →
      k' = k ∧ ∀ k'', (k'', sid) ∈ s.claimed → k'' = k := by
    intro k' sid hmem
    unfold Gateway.newClaim at hmem
    split at hmem
    · rename_i hnone
      obtain ⟨sid', hsid', heq⟩ := Option.map_eq_some_iff.mp (Option.mem_toList.mp hmem)
      obtain ⟨rfl, rfl⟩ := Prod.mk.injEq .. ▸ heq
      cases hturn with
      | quiet hsession _ => simp [← hsession, hsid'] at hnone
      | attach sid'' mode body replies _ hsession _ hfresh' =>
          rw [hsession] at hsid'
          cases hsid'
          exact ⟨rfl, hfresh'⟩
      | request sid'' t body hsome _ _ _ => simp [hsome] at hnone
      | detach sid'' hsome _ _ => simp [hsome] at hnone
    · cases hmem
  exact {
    conn := by
      intro k'
      by_cases hk : k' = k
      · subst hk
        simp only [Function.update_self]
        exact connInv_turn hturn htodo (h.conn k')
      · simp only [Function.update_of_ne hk]
        exact (h.conn k').mono hclaimed (fun _ => rfl)
    unique := by
      intro k₁ k₂ sid h₁ h₂
      rcases List.mem_append.mp h₁ with old₁ | new₁ <;> rcases List.mem_append.mp h₂ with old₂ | new₂
      · exact h.unique k₁ k₂ sid old₁ old₂
      · rw [(hnew k₂ sid new₂).1]
        exact (hnew k₂ sid new₂).2 k₁ old₁
      · rw [(hnew k₁ sid new₁).1]
        exact ((hnew k₁ sid new₁).2 k₂ old₂).symm
      · rw [(hnew k₁ sid new₁).1, (hnew k₂ sid new₂).1]
    inserted := fun k' sid hins => hclaimed _ (h.inserted k' sid hins)
    clients := h.clients
    letsGo := by
      intro k'
      by_cases hk : k' = k
      · subst hk
        simp only [Function.update_self]
        exact letsGo_turn hturn
      · simp only [Function.update_of_ne hk]
        exact h.letsGo k'
    manager := h.manager
    taken := h.taken
    written := h.written
    dropped := h.dropped
    isolated := h.isolated }

/-- Other handlers see at most that the trace grows, by no attach of theirs. -/
theorem conn_other {s : Gateway} {k : Nat} {c : WsConn} {sent : List (Nat × ShardMsg)}
    (h : ∀ k', ConnInv k' s.claimed s.trace (sentBy k' s.sent) (s.conns k'))
    (hattaches : ∀ k', k' ≠ k → ∀ sid, attaches k' sid trace' = attaches k' sid s.trace)
    (hsent : ∀ k', k' ≠ k → sentBy k' sent = sentBy k' s.sent)
    (hself : ConnInv k s.claimed trace' (sentBy k sent) c) (k' : Nat) :
    ConnInv k' s.claimed trace' (sentBy k' sent) (Function.update s.conns k c k') := by
  by_cases hk : k' = k
  · subst hk
    rw [Function.update_self]
    exact hself
  · rw [Function.update_of_ne hk, hsent k' hk]
    exact (h k').mono (fun _ hx => hx) (hattaches k' hk)

/-- What a section of one handler does to `clients` leaves the others what they let go of. -/
theorem letsGo_other {s : Gateway} {k : Nat} {clients : Table SessionId ClientInfo} {sec : Section}
    {rest : List Section} (h : GatewayInv s) (htodo : (s.conns k).todo = sec :: rest)
    (hsub : ∀ k', k' ≠ k → ∀ sid ci, clients.lookup sid = some ci → ci.tx = k' →
      s.clients.lookup sid = some ci)
    (hsec : ∀ sid, sec = .remove sid → clients.lookup sid = none) (k' : Nat) :
    LetsGo k' clients (Function.update s.conns k { s.conns k with todo := rest } k').todo := by
  by_cases hk : k' = k
  · subst hk
    rw [Function.update_self]
    exact LetsGo.tail (htodo ▸ h.letsGo k') hsec
  · rw [Function.update_of_ne hk]
    exact (h.letsGo k').mono (hsub k' hk)

theorem gatewayInv_insert {s : Gateway} (h : GatewayInv s) {k : Nat} {sid : SessionId} {ci : ClientInfo}
    {rest : List Section} (htodo : (s.conns k).todo = .insert sid ci :: rest) :
    GatewayInv { s.perform k (.insert sid ci) with
      conns := Function.update s.conns k { s.conns k with todo := rest } } := by
  obtain ⟨hclaimed, htx⟩ := (h.conn k).inserts sid ci (by rw [htodo]; exact List.mem_cons_self)
  generalize hreplaced : (s.clients.lookup sid).map ClientInfo.tx = replaced
  have hev : EventOk s.trace (.insert k sid replaced) := by
    intro k' hk'
    rw [← hreplaced] at hk'
    obtain ⟨ci', hci', rfl⟩ := Option.map_eq_some_iff.mp hk'
    have hheld := Nat.lt_of_le_of_lt (Nat.zero_le _) (h.clients sid ci' hci')
    exact h.unique _ _ sid (h.inserted _ sid (inserted_of_attaches hheld)) hclaimed
  have hnowrite : ∀ k' t sid', Event.insert k sid replaced ≠ .write k' t sid' := by
    intro k' t sid' heq
    cases heq
  simp only [Gateway.perform, hreplaced]
  exact {
    conn := by
      refine conn_other h.conn ?_ (fun _ _ => rfl) (connInv_advance (h.conn k) htodo ?_ ?_)
      · intro k' hk' sid'
        refine attaches_other k' sid' s.trace ?_
        intro sid'' replaced' heq
        cases heq
        exact hk' rfl
      · intro sid'
        rw [attaches_insert, pending_insert]
        simp [pending]
      · exact (List.append_nil _).symm
    unique := h.unique
    inserted := by
      intro k' sid' hins
      rcases inserted_concat hins with hins | ⟨replaced', heq⟩
      · exact h.inserted k' sid' hins
      · cases heq
        exact hclaimed
    clients := by
      intro sid' ci' hlook
      rw [Table.lookup_insert_eq] at hlook
      split at hlook
      · rename_i heq
        cases hlook
        -- the new entry counts as one attach more
        rw [htx, heq, attaches_insert, if_pos ⟨rfl, rfl⟩]
        exact Nat.lt_succ_of_le ((h.conn k).covered sid)
      · exact Nat.lt_of_lt_of_le (h.clients sid' ci' hlook) (attaches_concat _ _ _ _)
    letsGo := by
      refine letsGo_other h htodo ?_ (by intro sid' heq; cases heq)
      intro k' hk' sid' ci' hlook htx'
      rw [Table.lookup_insert_eq] at hlook
      split at hlook
      · cases hlook
        exact absurd (htx'.symm.trans htx) hk'
      · exact hlook
    manager := h.manager.concat (fun k' sid' => hnowrite k' reqDetach sid')
    taken := h.taken
    written := by
      intro k' sid' hst
      rw [writes_other k' s.trace (fun t sid'' => hnowrite k' t sid'')]
      exact h.written k' sid' hst
    dropped := by
      intro k' sid'
      rw [writes_other k' s.trace (fun t sid'' => hnowrite k' t sid'')]
      exact h.dropped k' sid'
    isolated := isolated_concat h.isolated hev }

theorem gatewayInv_remove {s : Gateway} (h : GatewayInv s) {k : Nat} {sid : SessionId}
    {rest : List Section} (htodo : (s.conns k).todo = .remove sid :: rest) :
    GatewayInv { s.perform k (.remove sid) with
      conns := Function.update s.conns k { s.conns k with todo := rest } } := by
  have hsub : ∀ sid' ci, (s.clients.erase sid).lookup sid' = some ci → s.clients.lookup sid' = some ci := by
    intro sid' ci hlook
    rw [Table.lookup_erase_eq] at hlook
    split at hlook
    · cases hlook
    · exact hlook
  exact {
    conn := conn_other h.conn (fun _ _ _ => rfl) (fun _ _ => rfl)
      (connInv_advance (h.conn k) htodo (fun _ => rfl) (List.append_nil _).symm)
    unique := h.unique
    inserted := h.inserted
    clients := fun sid' ci hlook => h.clients sid' ci (hsub sid' ci hlook)
    letsGo := by
      refine letsGo_other h htodo (fun _ _ sid' ci hlook _ => hsub sid' ci hlook) ?_
      intro sid' heq
      cases heq
      exact (Table.lookup_erase_eq ..).trans (if_pos rfl)
    manager := h.manager
    taken := h.taken
    written := h.written
    dropped := h.dropped
    isolated := h.isolated }

theorem gatewayInv_reply {s : Gateway} (h : GatewayInv s) {k : Nat} {out : Outbound}
    {rest : List Section} (htodo : (s.conns k).todo = .reply out :: rest) :
    GatewayInv { s.perform k (.reply out) with
      conns := Function.update s.conns k { s.conns k with todo := rest } } where
  conn := conn_other h.conn (fun _ _ _ => rfl) (fun _ _ => rfl)
    (connInv_advance (h.conn k) htodo (fun _ => rfl) (List.append_nil _).symm)
  unique := h.unique
  inserted := h.inserted
  clients := h.clients
  letsGo := letsGo_other h htodo (fun _ _ _ _ hlook _ => hlook) (by intro sid heq; cases heq)
  manager := h.manager
  taken := h.taken
  written := h.written
  dropped := h.dropped
  isolated := h.isolated

theorem gatewayInv_send {s : Gateway} (h : GatewayInv s) {k : Nat} {msg : ShardMsg}
    {rest : List Section} (htodo : (s.conns k).todo = .send msg :: rest) :
    GatewayInv { s.perform k (.send msg) with
      conns := Function.update s.conns k { s.conns k with todo := rest } } where
  conn := by
    refine conn_other h.conn (fun _ _ _ => rfl) ?_ (connInv_advance (h.conn k) htodo (fun _ => rfl) ?_)
    · intro k' hk'
      exact (sentBy_concat k' k s.sent msg).trans (if_neg (Ne.symm hk'))
    · exact (sentBy_concat k k s.sent msg).trans (if_pos rfl)
  unique := h.unique
  inserted := h.inserted
  clients := by
    intro sid ci hlook
    have hnow := h.clients sid ci hlook
    simp only [Gateway.perform] at hlook ⊢
    rw [sentBy_concat]
    split
    · rename_i hk
      -- a DETACH is sent when the entry has gone
      rw [detaches_concat_other ?_]
      · exact hnow
      · rintro ⟨ht, hsid⟩
        rcases h.letsGo k [] msg rest htodo ht with hpre | ⟨-, hother⟩
        · cases hpre
        · exact hother ci (hsid ▸ hlook) hk.symm
    · exact hnow
  letsGo := letsGo_other h htodo (fun _ _ _ _ hlook _ => hlook) (by intro sid heq; cases heq)
  manager := h.manager
  taken := Nat.le_trans h.taken (by simp [Gateway.perform])
  written := by
    intro k' sid hst
    simp only [Gateway.perform, List.take_append_of_le_length h.taken] at hst
    exact h.written k' sid hst
  dropped := by
    intro k' sid
    simp only [Gateway.perform, List.take_append_of_le_length h.taken]
    exact h.dropped k' sid
  isolated := h.isolated

/-! ## The manager -/

/-- What the manager does without an event. -/
theorem gatewayInv_manager {s : Gateway} (h : GatewayInv s) {m : Manager} (hm : ManagerOk s.trace m) :
    GatewayInv { s with manager := m } where
  conn := h.conn
  unique := h.unique
  inserted := h.inserted
  clients := h.clients
  letsGo := h.letsGo
  manager := hm
  taken := h.taken
  written := h.written
  dropped := h.dropped
  isolated := h.isolated

/-- What the manager does with an event that is no insert. -/
theorem gatewayInv_event {s : Gateway} (h : GatewayInv s) {e : Event} {m : Manager} {taken : Nat}
    {outbox : Nat → List Outbound} (hm : ManagerOk (s.trace ++ [e]) m) (htaken : taken ≤ s.sent.length)
    (hinsert : ∀ k sid replaced, e ≠ .insert k sid replaced)
    (hwritten : ∀ k sid, standing sid (sentBy k (s.sent.take taken)) = true →
      standing sid (writes k (s.trace ++ [e])) = true)
    (hdropped : ∀ k sid, detaches sid (writes k (s.trace ++ [e]))
      = detaches sid (sentBy k (s.sent.take taken)))
    (he : EventOk s.trace e) :
    GatewayInv { s with manager := m, taken, outbox, trace := s.trace ++ [e] } where
  conn := fun k => (h.conn k).mono (fun _ hx => hx) (fun sid => attaches_other k sid s.trace (hinsert k))
  unique := h.unique
  inserted := by
    intro k sid hins
    rcases inserted_concat hins with hins | ⟨replaced, heq⟩
    · exact h.inserted k sid hins
    · exact absurd heq (hinsert k sid replaced)
  clients := fun sid ci hlook =>
    Nat.lt_of_lt_of_le (h.clients sid ci hlook) (attaches_concat _ _ _ _)
  letsGo := h.letsGo
  manager := hm
  taken := htaken
  written := hwritten
  dropped := hdropped
  isolated := isolated_concat h.isolated he

theorem gatewayInv_reattach {s : Gateway} (h : GatewayInv s) {sid : SessionId} {ci : ClientInfo}
    {left : List (SessionId × ClientInfo)} (hm : s.manager = .reattaching ((sid, ci) :: left)) :
    GatewayInv { s with
      manager := .reattaching left
      trace := s.trace ++ [Event.write ci.tx reqAttach sid] } := by
  have hok := h.manager
  rw [hm] at hok
  have hattach : reqAttach ≠ reqDetach := by decide
  have hnodetach : ∀ k sid', Event.write ci.tx reqAttach sid ≠ .write k reqDetach sid' := by
    intro k sid' heq
    exact hattach (by injection heq)
  refine gatewayInv_event h ?_ h.taken (by intro k sid' replaced heq; cases heq) ?_ ?_
    ⟨hok _ List.mem_cons_self, fun hne => absurd rfl hne⟩
  · exact fun x hx => (hok x (List.mem_cons_of_mem _ hx)).concat (fun sid' => hnodetach _ sid')
  · intro k sid' hst
    rw [writes_concat]
    split
    · exact standing_attach sid (h.written k sid' hst)
    · exact h.written k sid' hst
  · intro k sid'
    rw [writes_concat, ← h.dropped k sid']
    split
    · exact detaches_concat_other (fun hd => hattach hd.1)
    · rfl

theorem gatewayInv_take {s : Gateway} (h : GatewayInv s) {k : Nat} {msg : ShardMsg}
    {rest : List (Nat × ShardMsg)} (hm : s.manager = .up) (hq : s.queue = (k, msg) :: rest) :
    GatewayInv { s with
      taken := s.taken + 1
      trace := s.trace ++ [Event.write k msg.t msg.session] } := by
  have hlt : s.taken < s.sent.length := by
    have hlen := congrArg List.length hq
    simp only [Gateway.queue, List.length_drop, List.length_cons] at hlen
    omega
  have hnext : s.sent.take (s.taken + 1) = s.sent.take s.taken ++ [(k, msg)] := by
    have hget : s.sent[s.taken] = (k, msg) := by
      have hdrop := List.drop_eq_getElem_cons hlt
      rw [← Gateway.queue, hq] at hdrop
      exact (List.cons.inj hdrop).1.symm
    rw [List.take_succ_eq_append_getElem hlt, hget]
  -- what was sent is what was taken, then this message, then the rest of the queue
  have hsplit : sentBy k s.sent
      = sentBy k (s.sent.take s.taken) ++ (msg.t, msg.session) :: sentBy k rest := by
    have hsent : s.sent = s.sent.take s.taken ++ (k, msg) :: rest := by
      rw [← hq, Gateway.queue, List.take_append_drop]
    rw [congrArg (sentBy k) hsent]
    simp [sentBy]
  refine @gatewayInv_event s h _ _ _ s.outbox (by rw [hm]; trivial) hlt
    (by intro k' sid' replaced heq; cases heq) ?_ ?_ ⟨?_, ?_⟩
  · intro k' sid hst
    rw [hnext, sentBy_concat] at hst
    rw [writes_concat]
    split
    · rename_i hk
      rw [if_pos hk] at hst
      exact standing_concat_mono (h.written k') msg.t msg.session sid hst
    · rename_i hk
      rw [if_neg hk] at hst
      exact h.written k' sid hst
  · intro k' sid
    rw [hnext, sentBy_concat, writes_concat]
    split
    · rw [detaches_concat, detaches_concat, h.dropped k' sid]
    · exact h.dropped k' sid
  · rw [Holds, h.dropped k msg.session]
    exact (h.conn k).sent _ msg.t msg.session _ hsplit
  · -- the sender had its session attached, and what it sent before is written
    intro ht
    refine h.written k msg.session ?_
    refine (h.conn k).ordered _ msg.t msg.session (sentBy k rest ++ toSend (s.conns k).todo) ?_ ht
    rw [hsplit, List.append_assoc]
    rfl

theorem gatewayInv_routeResp {s : Gateway} (h : GatewayInv s) (r : ShardResp) :
    GatewayInv (s.routeResp r) := by
  unfold Gateway.routeResp
  split
  · exact h
  · rename_i ci hlook
    have hheld := Nat.lt_of_le_of_lt (Nat.zero_le _) (h.clients _ ci hlook)
    exact gatewayInv_manager h (inserted_of_attaches hheld)

theorem gatewayInv_deliver {s : Gateway} (h : GatewayInv s) {tx : Nat} {session : SessionId}
    {out : Outbound} (hm : s.manager = .delivering tx session out) :
    GatewayInv { s with
      manager := .up
      outbox := Function.update s.outbox tx (s.outbox tx ++ [out])
      trace := s.trace ++ [Event.deliver tx session] } := by
  have hok := h.manager
  rw [hm] at hok
  refine gatewayInv_event h trivial h.taken (by intro k sid replaced heq; cases heq) ?_ ?_ ⟨hok, ?_⟩
  · intro k sid hst
    rw [writes_other k s.trace (by intro t sid' heq; cases heq)]
    exact h.written k sid hst
  · intro k sid
    rw [writes_other k s.trace (by intro t sid' heq; cases heq)]
    exact h.dropped k sid
  · intro k' hk'
    exact h.unique k' tx session (h.inserted k' session hk') (h.inserted tx session hok)

/-! ## Runs -/

/-- **A step that meets the conditions keeps the invariant.** -/
theorem gatewayInv_step {s s' : Gateway} {m : GatewayMove} (h : GatewayInv s)
    (hok : DrawsFresh s m ∧ OwnFrames s m) (hs : s.step m = some s') : GatewayInv s' := by
  cases m with
  | receive k drawn m =>
      simp only [Gateway.step] at hs
      split at hs
      · rename_i hready
        cases hs
        exact gatewayInv_receive h hok.1 hok.2 hready.2
      · cases hs
  | advance k =>
      simp only [Gateway.step] at hs
      split at hs
      · cases hs
      · rename_i sec rest htodo
        cases hs
        cases sec with
        | insert sid ci => exact gatewayInv_insert h htodo
        | remove sid => exact gatewayInv_remove h htodo
        | send msg => exact gatewayInv_send h htodo
        | reply out => exact gatewayInv_reply h htodo
  | connect =>
      simp only [Gateway.step] at hs
      split at hs
      · cases hs
        refine gatewayInv_manager h ?_
        intro x hx
        obtain ⟨⟨sid, ci⟩, hmem, rfl⟩ := List.mem_map.mp hx
        have hheld := h.clients sid ci (Table.lookup_eq_some_iff.mpr hmem)
        -- what is written was sent
        refine Nat.lt_of_le_of_lt ?_ hheld
        rw [h.dropped ci.tx sid]
        exact detaches_taken ci.tx sid s.sent s.taken
      · cases hs
  | reattach =>
      simp only [Gateway.step] at hs
      split at hs
      · cases hs
        exact gatewayInv_manager h trivial
      · rename_i hm
        cases hs
        exact gatewayInv_reattach h hm
      · cases hs
  | take =>
      simp only [Gateway.step] at hs
      split at hs
      · rename_i hm hq
        cases hs
        exact gatewayInv_take h hm hq
      · cases hs
  | resp r =>
      simp only [Gateway.step] at hs
      split at hs
      · cases hs
        exact gatewayInv_routeResp h r
      · cases hs
  | deliver =>
      simp only [Gateway.step] at hs
      split at hs
      · rename_i hm
        cases hs
        exact gatewayInv_deliver h hm
      · cases hs
  | lost =>
      simp only [Gateway.step] at hs
      split at hs
      · cases hs
        exact gatewayInv_manager h trivial
      · cases hs

/-- **The gateway isolates its clients** in every run in which each frame of a binary client keeps
to the client's own session id, whatever the clients send otherwise and in whatever order. -/
theorem clients_isolated (ms : List GatewayMove) (s : Gateway)
    (hex : exec Gateway.step .start ms = some s)
    (hfresh : Along Gateway.step DrawsFresh .start ms) (hown : Along Gateway.step OwnFrames .start ms) :
    Isolated s.trace :=
  (exec_invariant gatewayInv_step gatewayInv_start (along_and hfresh hown) hex).isolated

/-- A frame of a client. -/
def frame (k : Nat) (t : UInt8) (sid : Nat) : GatewayMove :=
  .receive k 0 (.binary t (some (Wire.toBe 16 sid)) (some []))

/-- A client attaches in JSON mode, sends a line, gets an answer and goes. Another has attached in
binary mode; when the link is lost and comes back, it alone is attached again. -/
def quietRun : List GatewayMove :=
  [.advance 0, .receive 0 7 (.text (some (.attach "Al".toList false none none none none))), .advance 1,
    frame 1 reqAttach 9, .advance 0, .advance 0, .advance 0, .advance 1, .advance 1, .connect, .reattach,
    .reattach, .reattach, .take, .take, .receive 0 0 (.text (some (.input "look".toList))), .advance 0,
    .take, .resp (.output 7 [104, 105]), .deliver, .receive 0 0 .close, .advance 0, .advance 0, .take,
    .lost, .connect, .reattach, .reattach]

theorem clients_isolated_quiet : ∃ s,
    exec Gateway.step .start quietRun = some s ∧
    s.trace.drop 8 = [.write 0 reqDetach 7, .write 1 reqAttach 9] ∧ Isolated s.trace := by
  have hrun : (exec Gateway.step .start quietRun).map (List.drop 8 ∘ Gateway.trace)
      = some [.write 0 reqDetach 7, .write 1 reqAttach 9] := by
    decide +kernel
  obtain ⟨s, hex, htrace⟩ := Option.map_eq_some_iff.mp hrun
  refine ⟨s, hex, htrace, clients_isolated quietRun s hex ?_ ?_⟩
  · -- one id is drawn, when there is no other
    refine (along_cons rfl).mpr ⟨trivial, (along_cons rfl).mpr ⟨?_, ?_⟩⟩
    · intro _ _ k' hmem
      cases hmem
    · refine along_of_forall_mem ?_ _
      intro m hm s
      fin_cases hm <;> trivial
  · -- the binary client brings an id that nobody has
    refine (along_cons rfl).mpr ⟨trivial, (along_cons rfl).mpr ⟨trivial, (along_cons rfl).mpr ⟨trivial,
      (along_cons rfl).mpr ⟨?_, ?_⟩⟩⟩⟩
    · intro _ _ k' hmem
      have hother : ∀ x ∈ [((0 : Nat), (7 : SessionId))], x.2 = 9 → x.1 = 1 := by decide
      exact hother (k', _) hmem rfl
    · refine along_of_forall_mem ?_ _
      intro m hm s
      fin_cases hm <;> trivial

/-- One client attaches session 1, and another, which has attached session 2, sends an input for
session 1. -/
def foreignInput : List GatewayMove :=
  [.advance 0, .advance 1, frame 0 reqAttach 1, .advance 0, .advance 0, frame 1 reqAttach 2, .advance 1,
    .advance 1, frame 1 reqInput 1, .advance 1, .connect, .reattach, .reattach, .reattach, .take, .take,
    .take]

/-- **The input is forwarded**, on behalf of a connection that has not attached the session. -/
theorem foreign_input_forwarded : ∃ s,
    exec Gateway.step .start foreignInput = some s ∧
    s.trace.getLast? = some (.write 1 reqInput 1) ∧ ¬ Isolated s.trace := by
  have hrun : (exec Gateway.step .start foreignInput).map Gateway.trace
      = some (([.insert 0 1 none, .insert 1 2 none, .write 1 reqAttach 2, .write 0 reqAttach 1,
        .write 0 reqAttach 1, .write 1 reqAttach 2] : List Event) ++ [Event.write 1 reqInput 1]) := by
    decide +kernel
  obtain ⟨s, hex, htrace⟩ := Option.map_eq_some_iff.mp hrun
  refine ⟨s, hex, by rw [htrace]; rfl, ?_⟩
  intro h
  obtain ⟨hheld, -⟩ := h _ _ [] htrace
  exact absurd hheld (by unfold Holds; decide +kernel)

/-- A second client attaches the session of the first: it takes the place of the first in `clients`,
and gets its output. -/
def takeOver : List GatewayMove :=
  [.advance 0, .advance 1, frame 0 reqAttach 1, .advance 0, .advance 0, frame 1 reqAttach 1, .advance 1,
    .connect, .reattach, .reattach, .resp (.output 1 [104, 105]), .deliver]

example : (exec Gateway.step .start takeOver).map Gateway.trace
    = some [.insert 0 1 none, .insert 1 1 (some 0), .write 1 reqAttach 1, .deliver 1 1] := by
  decide +kernel

end Slopmud.Ws
