import Slopmud.Web.Output

/-!
# Output reaches a websocket in order, if its backlog is flushed first

For each websocket what was queued, what is left of its backlog and what is on its way make
up the output buffered when it was installed and the output received since. Only one step can
break that: live output that is put into the channel while some of the backlog is left. The
websocket is attached before its backlog is flushed, so that step is possible.
-/

namespace Slopmud.Web

open Machine

/-! ## One channel -/

/-- What is queued is what was buffered and then what came, as far as it has got; with `underWay`
on its way nothing is missing from an open channel. -/
def Channel.InOrder (c : Channel) (underWay : Bytes) : Prop :=
  c.output <+: c.buffered ++ c.live ∧
  (c.isOpen = true → c.output ++ c.backlog.flatten ++ underWay = c.buffered ++ c.live)

namespace Channel

variable {c c' : Channel} {data underWay : Bytes}

theorem output_send (m : WsMessage) :
    (c.send m).output = if c.isOpen then c.output ++ messageOutput m else c.output := by
  unfold send
  split
  · simp [output]
  · rfl

namespace InOrder

theorem none : Channel.none.InOrder [] := ⟨List.prefix_refl _, fun h => by cases h⟩

theorem install (buffered : List Bytes) : (Channel.install buffered).InOrder [] := by
  refine ⟨List.nil_prefix, fun _ => ?_⟩
  simp [Channel.install, output]

/-- Output comes for the websocket, and is about to be sent. -/
theorem receive (h : c.InOrder []) (data : Bytes) :
    InOrder { c with live := c.live ++ data } data := by
  have hexpected : c.buffered ++ (c.live ++ data) = c.buffered ++ c.live ++ data :=
    (List.append_assoc _ _ _).symm
  refine ⟨?_, fun hopen => ?_⟩
  · have hmore : c.buffered ++ c.live <+: c.buffered ++ (c.live ++ data) := by
      rw [hexpected]
      exact List.prefix_append _ _
    exact h.1.trans hmore
  · have hall := h.2 hopen
    rw [List.append_nil] at hall
    rw [hexpected, ← hall]
    rfl

/-- Output is sent with nothing, or nothing else, before it in the backlog. -/
theorem sendLive (h : c.InOrder data)
    (hturn : c.isOpen = true → data ++ c.backlog.flatten = c.backlog.flatten ++ data) :
    (c.send (.binary data)).InOrder [] := by
  unfold send
  split
  · next hopen =>
    have hqueue : output { c with queue := c.queue ++ [WsMessage.binary data] } = c.output ++ data := by
      simp [output, messageOutput]
    have hall : c.output ++ data ++ c.backlog.flatten = c.buffered ++ c.live := by
      rw [List.append_assoc, hturn hopen, ← List.append_assoc]
      exact h.2 hopen
    refine ⟨?_, fun _ => ?_⟩
    · rw [hqueue]
      exact ⟨_, hall⟩
    · rw [hqueue, List.append_nil]
      exact hall
  · next hclosed => exact ⟨h.1, fun hopen => absurd hopen hclosed⟩

/-- Sent out of turn, it is out of order. -/
theorem turn_of_sendLive (h : c.InOrder data) (h' : (c.send (.binary data)).InOrder [])
    (hopen : c.isOpen = true) : data ++ c.backlog.flatten = c.backlog.flatten ++ data := by
  rw [send, if_pos hopen] at h'
  have hqueue : output { c with queue := c.queue ++ [WsMessage.binary data] } = c.output ++ data := by
    simp [output, messageOutput]
  have hsent := h'.2 hopen
  rw [hqueue, List.append_nil, List.append_assoc] at hsent
  have hall := h.2 hopen
  rw [List.append_assoc] at hall
  exact List.append_cancel_left (hsent.trans hall.symm)

theorem flush (h : c.InOrder underWay) (hs : c.flush = some c') : c'.InOrder underWay := by
  unfold Channel.flush at hs
  split at hs
  · cases hs
  · next b rest hbacklog =>
    split at hs
    · next hopen =>
      cases hs
      have hqueue : output { c with queue := c.queue ++ [WsMessage.binary b], backlog := rest }
          = c.output ++ b := by simp [output, messageOutput]
      have hall : c.output ++ b ++ rest.flatten ++ underWay = c.buffered ++ c.live := by
        have hall := h.2 hopen
        rwa [hbacklog, List.flatten_cons, ← List.append_assoc] at hall
      refine ⟨?_, fun _ => ?_⟩
      · rw [hqueue]
        refine ⟨rest.flatten ++ underWay, ?_⟩
        rw [← List.append_assoc]
        exact hall
      · rw [hqueue]
        exact hall
    · next hclosed =>
      cases hs
      exact ⟨h.1, fun hopen => absurd hopen hclosed⟩

/-- Other messages. -/
theorem send_other (h : c.InOrder underWay) {m : WsMessage} (hm : messageOutput m = []) :
    (c.send m).InOrder underWay := by
  have hout : (c.send m).output = c.output := by
    rw [output_send, hm, List.append_nil, ite_self]
  have hrest : (c.send m).backlog = c.backlog ∧ (c.send m).buffered = c.buffered ∧
      (c.send m).live = c.live ∧ (c.send m).isOpen = c.isOpen := by
    unfold send
    split <;> exact ⟨rfl, rfl, rfl, rfl⟩
  obtain ⟨hbacklog, hbuffered, hlive, hopen⟩ := hrest
  rw [InOrder, hout, hbacklog, hbuffered, hlive, hopen]
  exact h

theorem hangUp (h : c.InOrder underWay) : InOrder { c with isOpen := false } underWay :=
  ⟨h.1, fun hopen => by cases hopen⟩

end InOrder

end Channel

/-! ## The session -/

/-- `attach` has got as far as a decision. -/
def AttachPhase.Started (p : AttachPhase) : Prop := p ≠ .idle ∧ p ≠ .passed

namespace WebSession

variable {s s' : WebSession} {m : WebMove}

/-- A websocket is installed once. -/
theorem started_of_step (hs : s.step m = some s') {k : Nat} (hk : (s.phase k).Started) :
    (s'.phase k).Started := by
  have hmove : ∀ k' p, s.phase k' = .idle ∨ s.phase k' = .passed →
      ((Function.update s.phase k' p) k).Started := by
    intro k' p hphase
    rw [Function.update_of_ne]
    · exact hk
    · rintro rfl
      exact hphase.elim hk.1 hk.2
  cases m with
  | check k' =>
    simp only [step] at hs
    split at hs
    · next hphase =>
      cases hs
      exact hmove k' _ (.inl hphase)
    · cases hs
  | install k' =>
    simp only [step] at hs
    split at hs
    · next hphase =>
      cases hs
      exact hmove k' _ (.inr hphase)
    · cases hs
  | detach k' now =>
    simp only [step] at hs
    split at hs
    · cases hs
      by_cases hkk : k = k'
      · subst hkk
        simp only [Function.update_self]
        exact ⟨AttachPhase.noConfusion, AttachPhase.noConfusion⟩
      · simp only [Function.update_of_ne hkk]
        exact hk
    · cases hs
  | deliver data => cases hs; exact hk
  | markTcpDead now => cases hs; exact hk
  | shutdown locked =>
    cases hs
    unfold shutdownIf
    split <;> exact hk
  | sweep idleTtl now => cases hs; exact hk
  | sweepRemove locked =>
    simp only [step] at hs
    split at hs
    · cases hs
      split
      · unfold shutdownIf
        split <;> exact hk
      · exact hk
    · cases hs

theorem attached_bufferPush (st : WebSessionState) (b : Bytes) : (st.bufferPush b).attached = st.attached := by
  unfold WebSessionState.bufferPush
  split <;> rfl

/-- Only `install` attaches. -/
theorem attached_of_step (hs : s.step m = some s') {a : AttachedWs} (ha : s'.st.attached = some a) :
    s.st.attached = some a ∨ ∃ k, m = .install k ∧ a.ws = k := by
  cases m with
  | check k =>
    simp only [step] at hs
    split at hs
    · cases hs
      exact .inl ha
    · cases hs
  | install k =>
    simp only [step] at hs
    split at hs
    · cases hs
      cases ha
      exact .inr ⟨k, rfl, rfl⟩
    · cases hs
  | detach k now =>
    simp only [step] at hs
    split at hs
    · cases hs
      simp only [WebSessionState.detachWs] at ha
      split at ha
      · cases ha
      · exact .inl ha
    · cases hs
  | deliver data =>
    cases hs
    exact .inl (attached_bufferPush s.st data ▸ ha)
  | markTcpDead now =>
    cases hs
    simp only [WebSessionState.markTcpDead] at ha
    split at ha
    · exact .inl ha
    · cases ha
  | shutdown locked =>
    cases hs
    unfold shutdownIf at ha
    split at ha
    · cases ha
    · exact .inl ha
  | sweep idleTtl now => cases hs; exact .inl ha
  | sweepRemove locked =>
    simp only [step] at hs
    split at hs
    · cases hs
      split at ha
      · unfold shutdownIf at ha
        split at ha
        · cases ha
        · exact .inl ha
      · exact .inl ha
    · cases hs

/-- The websocket that is installed had passed the check, and its tasks run. -/
theorem phase_install {k : Nat} (hs : s.step (.install k) = some s') :
    s.phase k = .passed ∧ (s'.phase k).Started := by
  simp only [step] at hs
  split at hs
  · next hphase =>
    cases hs
    refine ⟨hphase, ?_⟩
    simp only [Function.update_self]
    exact ⟨AttachPhase.noConfusion, AttachPhase.noConfusion⟩
  · cases hs

end WebSession

/-! ## All channels -/

namespace WebStream

/-- What is on its way to a websocket. -/
def underWay (w : WebStream) (k : Nat) : Bytes :=
  match w.sending with
  | some (k', data) => if k = k' then data else []
  | none => []

/-- Every websocket is sent its output in order. -/
def InOrder (w : WebStream) : Prop := ∀ k, (w.channels k).InOrder (w.underWay k)

/-- Live output is put into an open channel when the backlog has been flushed, or when it makes no
difference which of the two comes first. -/
def InTurn (w : WebStream) : StreamMove → Prop
  | .sendLive => ∀ k data, w.sending = some (k, data) → (w.channels k).isOpen = true →
      data ++ (w.channels k).backlog.flatten = (w.channels k).backlog.flatten ++ data
  | _ => True

structure Streaming (w : WebStream) : Prop where
  inOrder : InOrder w
  attached : ∀ a, w.session.st.attached = some a → (w.session.phase a.ws).Started
  sending : ∀ k data, w.sending = some (k, data) → (w.session.phase k).Started

variable {w w' : WebStream}

theorem streaming_connect (now : Nat) : Streaming (connect now) where
  inOrder _ := Channel.InOrder.none
  attached _ h := by cases h
  sending _ _ h := by cases h

theorem underWay_of_none (h : w.sending = none) (k : Nat) : w.underWay k = [] := by
  rw [underWay, h]

theorem underWay_self {k : Nat} {data : Bytes} (h : w.sending = some (k, data)) : w.underWay k = data := by
  rw [underWay, h]
  exact if_pos rfl

theorem underWay_other {k k' : Nat} {data : Bytes} (h : w.sending = some (k, data)) (hne : k' ≠ k) :
    w.underWay k' = [] := by
  rw [underWay, h]
  exact if_neg hne

/-- A step that changes one channel and leaves the sends alone. -/
theorem inOrder_setChannel (h : InOrder w) {k : Nat} {c : Channel} (hc : c.InOrder (w.underWay k)) :
    InOrder (w.setChannel k c) := by
  intro k'
  have hway : (w.setChannel k c).underWay k' = w.underWay k' := rfl
  rw [hway]
  by_cases hk : k' = k
  · subst hk
    simp only [setChannel, Function.update_self]
    exact hc
  · simp only [setChannel, Function.update_of_ne hk]
    exact h k'

theorem inOrder_sendLive (h : InOrder w) {k : Nat} {data : Bytes} (hsend : w.sending = some (k, data))
    {c : Channel} (hc : c.InOrder []) : InOrder { w.setChannel k c with sending := none } := by
  intro k'
  rw [underWay_of_none rfl]
  by_cases hk : k' = k
  · subst hk
    simp only [setChannel, Function.update_self]
    exact hc
  · have hother := h k'
    rw [underWay_other hsend hk] at hother
    simp only [setChannel, Function.update_of_ne hk]
    exact hother

/-- A lock section and what its task takes from it. -/
theorem streaming_lock (h : Streaming w) {m : WebMove} (hs : w.step (.lock m) = some w') :
    Streaming w' := by
  obtain ⟨session, hsession, hafter⟩ := Option.bind_eq_some_iff.mp hs
  have hattached : ∀ a, session.st.attached = some a → (session.phase a.ws).Started := by
    intro a ha
    rcases WebSession.attached_of_step hsession ha with hold | ⟨k, rfl, hk⟩
    · exact WebSession.started_of_step hsession (h.attached a hold)
    · rw [hk]
      exact (WebSession.phase_install hsession).2
  have hsending : ∀ k data, w.sending = some (k, data) → (session.phase k).Started :=
    fun k data hsend => WebSession.started_of_step hsession (h.sending k data hsend)
  have hplain : Streaming { w with session } := ⟨h.inOrder, hattached, hsending⟩
  unfold afterLock at hafter
  split at hafter
  · next k =>
    -- nothing is on its way to a websocket that was not installed
    cases hafter
    refine ⟨?_, hattached, hsending⟩
    have hway : w.underWay k = [] := by
      cases hsend : w.sending with
      | none => exact underWay_of_none hsend k
      | some p =>
        have hne : k ≠ p.1 := by
          rintro rfl
          exact (h.sending p.1 p.2 hsend).2 (WebSession.phase_install hsession).1
        exact underWay_other hsend hne
    refine inOrder_setChannel (w := w) h.inOrder ?_
    rw [hway]
    exact Channel.InOrder.install _
  · next data =>
    split at hafter
    · cases hafter
    · next hfree =>
      have hnone : w.sending = none := by simpa using hfree
      split at hafter
      · cases hafter
        exact hplain
      · next att hatt =>
        cases hafter
        have hold : w.session.st.attached = some att := by
          have hpush := WebSession.attached_bufferPush w.session.st data
          rw [← hpush]
          exact hatt
        refine ⟨?_, hattached, ?_⟩
        · intro k
          by_cases hk : k = att.ws
          · subst hk
            have hc := h.inOrder att.ws
            rw [underWay_of_none hnone] at hc
            rw [underWay_self rfl]
            simp only [setChannel, Function.update_self]
            exact hc.receive data
          · have hc := h.inOrder k
            rw [underWay_of_none hnone] at hc
            rw [underWay_other rfl hk]
            simp only [setChannel, Function.update_of_ne hk]
            exact hc
        · intro k d hsend
          cases hsend
          exact WebSession.started_of_step hsession (h.attached att hold)
  · split at hafter
    · cases hafter
      exact hplain
    · cases hafter
      exact ⟨h.inOrder, hattached, hsending⟩
  · cases hafter
    exact hplain

theorem streaming_step (h : Streaming w) {m : StreamMove} (hok : InTurn w m) (hs : w.step m = some w') :
    Streaming w' := by
  cases m with
  | lock m => exact streaming_lock h hs
  | sendLive =>
    simp only [step] at hs
    split at hs
    · cases hs
    · next k data hsend =>
      cases hs
      have hc := h.inOrder k
      rw [underWay_self hsend] at hc
      exact ⟨inOrder_sendLive h.inOrder hsend (hc.sendLive (hok k data hsend)), h.attached,
        fun _ _ hnone => by cases hnone⟩
  | flush k =>
    obtain ⟨c, hc, rfl⟩ := Option.map_eq_some_iff.mp hs
    exact ⟨inOrder_setChannel h.inOrder ((h.inOrder k).flush hc), h.attached, h.sending⟩
  | tellDead =>
    simp only [step] at hs
    split at hs
    · cases hs
    · next k _ =>
      cases hs
      exact ⟨inOrder_setChannel h.inOrder ((h.inOrder k).send_other rfl), h.attached, h.sending⟩
  | pong k v =>
    cases hs
    exact ⟨inOrder_setChannel h.inOrder ((h.inOrder k).send_other rfl), h.attached, h.sending⟩
  | hangUp k =>
    cases hs
    exact ⟨inOrder_setChannel h.inOrder (h.inOrder k).hangUp, h.attached, h.sending⟩

/-- A step to a state in order was taken in turn. -/
theorem inTurn_of_inOrder (h : Streaming w) {m : StreamMove} (hs : w.step m = some w')
    (h' : InOrder w') : InTurn w m := by
  cases m with
  | sendLive =>
    intro k data hsend hopen
    simp only [step, hsend] at hs
    cases hs
    have hc := h.inOrder k
    rw [underWay_self hsend] at hc
    have hc' := h' k
    rw [underWay_of_none rfl] at hc'
    simp only [setChannel, Function.update_self] at hc'
    exact hc.turn_of_sendLive hc' hopen
  | _ => trivial

/-- **Resumed output arrives in order.** In every run of a session with any number of websockets,
every moment is one at which each websocket has been sent what was buffered when it was
installed and then what was received while it was attached, as far as that has got, if and only
if live output was never put into a channel before the rest of its backlog. -/
theorem resumed_in_order_iff {now : Nat} {ms : List StreamMove}
    (hrun : exec step (connect now) ms = some w) :
    Throughout step InOrder (connect now) ms ↔ Along step InTurn (connect now) ms :=
  throughout_iff_along (fun h => h.inOrder) (fun h hok hs => streaming_step h hok hs)
    (fun h hs h' => inTurn_of_inOrder h hs h') (streaming_connect now) hrun

/-- `a` is received, a websocket is installed, `b` is received; the backlog is flushed before or
after `b` is sent. -/
def resumedRun (flushFirst : Bool) : List StreamMove :=
  ([.lock (.deliver [97]), .lock (.check 0), .lock (.install 0), .lock (.deliver [98])] : List StreamMove)
    ++ if flushFirst then [StreamMove.flush 0, StreamMove.sendLive]
      else [StreamMove.sendLive, StreamMove.flush 0]

theorem resumed_in_order_flushed :
    Throughout step InOrder (connect 0) (resumedRun true)
      ↔ Along step InTurn (connect 0) (resumedRun true) :=
  resumed_in_order_iff (w := ((exec step (connect 0) (resumedRun true)).get rfl)) (Option.some_get _).symm

/-- The websocket is attached before its backlog is flushed, and what comes in between overtakes
it. -/
theorem live_overtakes_backlog :
    ∃ w, exec step (connect 0) (resumedRun false) = some w
      ∧ (w.channels 0).isOpen = true ∧ (w.channels 0).backlog = [] ∧ w.sending = none
      ∧ (w.channels 0).buffered = [97] ∧ (w.channels 0).live = [98]
      ∧ (w.channels 0).output = [98, 97] ∧ ¬ InOrder w := by
  have hsome : (exec step (connect 0) (resumedRun false)).map (fun w =>
      (w.channels 0, w.sending)) = some (⟨[.binary [98], .binary [97]], true, [], [97], [98]⟩, none) := by
    decide +kernel
  obtain ⟨w, hw, heq⟩ := Option.map_eq_some_iff.mp hsome
  obtain ⟨hchan, hsend⟩ := Prod.mk.inj heq
  refine ⟨w, hw, ?_⟩
  rw [hchan]
  refine ⟨rfl, rfl, hsend, rfl, rfl, rfl, fun h => ?_⟩
  have hpre := (h 0).1
  rw [hchan] at hpre
  revert hpre
  decide

end WebStream

end Slopmud.Web
