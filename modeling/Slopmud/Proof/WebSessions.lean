import Slopmud.Web.Session

/-!
# A web session stays consistent, if it is alive when a websocket is installed

`attach` asks whether the session is alive in one lock section and installs the
websocket in another. When the TCP side dies in between, the websocket is attached
to a dead session, and the sweeper, which removes only what has no websocket,
never removes it. That is the only way to an inconsistent state, apart from 2^64
attachments.
-/

namespace Slopmud.Web

open Machine

/-! ## The buffer -/

/-- `buffer_bytes` counts the buffer, and the buffer is not too long. -/
structure Counted (st : WebSessionState) : Prop where
  bytes : st.bufferBytes = (st.buffer.map List.length).sum
  bounded : st.bufferBytes ≤ bufferMaxBytes

theorem length_flatten_eq (buffer : List Bytes) :
    buffer.flatten.length = (buffer.map List.length).sum := List.length_flatten

/-- **Dropping from the front** keeps the count, comes below the bound, and leaves a suffix. -/
theorem popFronts_spec (buffer : List Bytes) :
    (WebSessionState.popFronts buffer (buffer.map List.length).sum).2
        = ((WebSessionState.popFronts buffer (buffer.map List.length).sum).1.map List.length).sum ∧
    (WebSessionState.popFronts buffer (buffer.map List.length).sum).2 ≤ bufferMaxBytes ∧
    (WebSessionState.popFronts buffer (buffer.map List.length).sum).1.flatten <:+ buffer.flatten := by
  induction buffer with
  | nil => exact ⟨rfl, Nat.zero_le _, List.suffix_refl _⟩
  | cons front rest ih =>
      have hsub : ((front :: rest).map List.length).sum - front.length
          = (rest.map List.length).sum := by
        simp only [List.map_cons, List.sum_cons]
        omega
      rw [WebSessionState.popFronts, hsub]
      split
      · exact ⟨ih.1, ih.2.1, ih.2.2.trans (List.suffix_append _ _)⟩
      · exact ⟨rfl, by omega, List.suffix_refl _⟩

/-- The chunk that is pushed: at most its last `bufferMaxBytes` bytes. -/
theorem clamp_spec (b : Bytes) :
    let c := if b.length > bufferMaxBytes then b.drop (b.length - bufferMaxBytes) else b
    c <:+ b ∧ c.length ≤ bufferMaxBytes ∧ (c = b ∨ c.length = bufferMaxBytes) := by
  intro c
  simp only [c]
  split
  · refine ⟨List.drop_suffix _ _, ?_, Or.inr ?_⟩
    · rw [List.length_drop]
      omega
    · rw [List.length_drop]
      omega
  · exact ⟨List.suffix_refl _, by omega, Or.inl rfl⟩

theorem counted_bufferPush {st : WebSessionState} (h : Counted st) (b : Bytes) :
    Counted (st.bufferPush b) := by
  unfold WebSessionState.bufferPush
  split
  · exact h
  · obtain ⟨-, hc, -⟩ := clamp_spec b
    generalize (if b.length > bufferMaxBytes then b.drop (b.length - bufferMaxBytes) else b) = c at hc
    have hsum : Word.satAdd64 st.bufferBytes c.length = ((st.buffer ++ [c]).map List.length).sum := by
      have := h.bounded
      rw [Word.satAdd64_of_lt (by unfold Word.maxU64; unfold bufferMaxBytes at *; omega), h.bytes]
      simp
    obtain ⟨hbytes, hbound, -⟩ := popFronts_spec (st.buffer ++ [c])
    simp only [hsum]
    exact ⟨hbytes, hbound⟩

/-- **The buffer stays a suffix of what was received.** -/
theorem suffix_bufferPush {st : WebSessionState} {received : Bytes} (h : Counted st)
    (hsuf : st.buffer.flatten <:+ received) (b : Bytes) :
    (st.bufferPush b).buffer.flatten <:+ received ++ b := by
  have hcounted := counted_bufferPush h b
  unfold WebSessionState.bufferPush at hcounted ⊢
  split
  · rename_i hempty
    rw [List.isEmpty_iff.mp hempty, List.append_nil]
    exact hsuf
  · rename_i hempty
    rw [if_neg hempty] at hcounted
    obtain ⟨hcb, hc, hor⟩ := clamp_spec b
    generalize (if b.length > bufferMaxBytes then b.drop (b.length - bufferMaxBytes) else b) = c
      at hcb hc hor hcounted ⊢
    have hsum : Word.satAdd64 st.bufferBytes c.length = ((st.buffer ++ [c]).map List.length).sum := by
      have := h.bounded
      rw [Word.satAdd64_of_lt (by unfold Word.maxU64; unfold bufferMaxBytes at *; omega), h.bytes]
      simp
    obtain ⟨hbytes, hbound, hflat⟩ := popFronts_spec (st.buffer ++ [c])
    simp only [hsum]
    rw [List.flatten_append, List.flatten_singleton] at hflat
    rcases hor with rfl | hfull
    · -- nothing was clamped off, so it all follows what the buffer had
      obtain ⟨pre, hpre⟩ := hsuf
      refine hflat.trans ⟨pre, ?_⟩
      rw [← List.append_assoc, hpre]
    · -- the clamped chunk fills the buffer, so nothing else is left in it
      have hlen : (WebSessionState.popFronts (st.buffer ++ [c])
          ((st.buffer ++ [c]).map List.length).sum).1.flatten.length ≤ c.length := by
        rw [length_flatten_eq, ← hbytes, hfull]
        exact hbound
      have hin := List.suffix_of_suffix_length_le hflat (List.suffix_append _ _) hlen
      exact (hin.trans hcb).trans (List.suffix_append _ _)

/-! ## The invariant -/

/-- What is to hold of a session in every state. -/
structure Consistent (w : WebSession) : Prop where
  /-- A session whose TCP side is dead has no websocket. -/
  dead : w.st.tcpAlive = false → w.st.attached = none
  /-- The attach ids increase. -/
  increasing : w.ids.Pairwise (· < ·)
  /-- `detach_ws` removes nobody else's websocket. -/
  ownRemovals : ∀ r ∈ w.removals, r.1 = r.2
  counted : Counted w.st
  /-- The buffer is the end of the output. -/
  suffix : w.st.buffer.flatten <:+ w.received

/-- What a run keeps besides: the ids are given out one by one, each to one websocket. -/
structure WebInv (w : WebSession) : Prop extends Consistent w where
  seq : w.st.attachSeq = w.ids.length
  ids : w.ids = List.range' 1 w.ids.length
  /-- The attached websocket is one whose tasks run. -/
  attached : ∀ a, w.st.attached = some a → w.phase a.ws = .installed a.id
  issued : ∀ k i, w.phase k = .installed i → i ∈ w.ids
  distinct : ∀ k k' i, w.phase k = .installed i → w.phase k' = .installed i → k = k'

theorem webInv_connect (now : Nat) : WebInv (WebSession.connect now) where
  dead := fun _ => rfl
  increasing := List.Pairwise.nil
  ownRemovals := by simp [WebSession.connect]
  counted := ⟨rfl, Nat.zero_le _⟩
  suffix := List.suffix_refl _
  seq := rfl
  ids := rfl
  attached := by intro a h; cases h
  issued := by intro k i h; cases h
  distinct := by intro k k' i h; cases h

/-- A section that lets go of the websocket, or leaves it, changes nothing else that matters. -/
theorem webInv_release {w : WebSession} (h : WebInv w) {st : WebSessionState}
    (hbuf : st.buffer = w.st.buffer) (hbytes : st.bufferBytes = w.st.bufferBytes)
    (hseq : st.attachSeq = w.st.attachSeq)
    (hatt : st.attached = none ∨ (st.attached = w.st.attached ∧ st.tcpAlive = w.st.tcpAlive)) :
    WebInv { w with st } where
  dead := by
    intro hdead
    rcases hatt with hnone | ⟨hsame, halive⟩
    · exact hnone
    · simp only at hdead ⊢
      rw [hsame]
      exact h.dead (halive ▸ hdead)
  increasing := h.increasing
  ownRemovals := h.ownRemovals
  counted := ⟨by simp only [hbuf, hbytes]; exact h.counted.bytes,
    by simp only [hbytes]; exact h.counted.bounded⟩
  suffix := by simp only [hbuf]; exact h.suffix
  seq := by simp only [hseq]; exact h.seq
  ids := h.ids
  attached := by
    intro a ha
    rcases hatt with hnone | ⟨hsame, -⟩
    · simp only [hnone] at ha
      cases ha
    · exact h.attached a (hsame ▸ ha)
  issued := h.issued
  distinct := h.distinct

theorem webInv_shutdownIf {w : WebSession} (h : WebInv w) (locked : Bool) :
    WebInv (w.shutdownIf locked) := by
  unfold WebSession.shutdownIf
  split
  · exact webInv_release h rfl rfl rfl (Or.inl rfl)
  · exact h

theorem webInv_markTcpDead {w : WebSession} (h : WebInv w) (now : Nat) :
    WebInv { w with st := (w.st.markTcpDead now).2 } := by
  unfold WebSessionState.markTcpDead
  split
  · exact h
  · exact webInv_release h rfl rfl rfl (Or.inl rfl)

theorem webInv_deliver {w : WebSession} (h : WebInv w) (data : Bytes) :
    WebInv { w with st := (w.st.deliverOutput data).2, received := w.received ++ data } := by
  have hframe : (w.st.bufferPush data).attached = w.st.attached ∧
      (w.st.bufferPush data).tcpAlive = w.st.tcpAlive ∧
      (w.st.bufferPush data).attachSeq = w.st.attachSeq := by
    unfold WebSessionState.bufferPush
    split <;> exact ⟨rfl, rfl, rfl⟩
  obtain ⟨hatt, halive, hseq⟩ := hframe
  simp only [WebSessionState.deliverOutput]
  exact {
    dead := by simp only [hatt, halive]; exact h.dead
    increasing := h.increasing
    ownRemovals := h.ownRemovals
    counted := counted_bufferPush h.counted data
    suffix := suffix_bufferPush h.counted h.suffix data
    seq := by simp only [hseq]; exact h.seq
    ids := h.ids
    attached := by simp only [hatt]; exact h.attached
    issued := h.issued
    distinct := h.distinct }

/-- A websocket that is not attached, and does not become so, may move on. -/
theorem webInv_phase {w : WebSession} (h : WebInv w) {k : Nat} {p : AttachPhase}
    (hp : ∀ i, p ≠ .installed i) (hatt : ∀ a, w.st.attached = some a → a.ws ≠ k) :
    WebInv { w with phase := Function.update w.phase k p } where
  toConsistent := { h.toConsistent with }
  seq := h.seq
  ids := h.ids
  attached := by
    intro a ha
    simp only [Function.update_of_ne (hatt a ha)]
    exact h.attached a ha
  issued := by
    intro k' i hk'
    by_cases hkk : k' = k
    · subst hkk
      simp only [Function.update_self] at hk'
      exact absurd hk' (hp i)
    · simp only [Function.update_of_ne hkk] at hk'
      exact h.issued k' i hk'
  distinct := by
    intro k₁ k₂ i h₁ h₂
    by_cases hk₁ : k₁ = k
    · subst hk₁
      simp only [Function.update_self] at h₁
      exact absurd h₁ (hp i)
    · by_cases hk₂ : k₂ = k
      · subst hk₂
        simp only [Function.update_self] at h₂
        exact absurd h₂ (hp i)
      · simp only [Function.update_of_ne hk₁] at h₁
        simp only [Function.update_of_ne hk₂] at h₂
        exact h.distinct k₁ k₂ i h₁ h₂

theorem webInv_detach {w : WebSession} (h : WebInv w) {k attachId : Nat} (now : Nat)
    (hk : w.phase k = .installed attachId) :
    WebInv { w with
      st := w.st.detachWs attachId now
      phase := Function.update w.phase k .done
      removals := w.removals ++ (WebSession.removes w.st attachId).map fun k' => (k, k') } := by
  -- an attachment with this id is the caller's own
  have hown : ∀ a, w.st.attached = some a → a.id = attachId → a.ws = k := by
    intro a ha hid
    have := h.attached a ha
    rw [hid] at this
    exact h.distinct _ _ _ this hk
  have hremovals : ∀ r ∈ w.removals ++ (WebSession.removes w.st attachId).map fun k' => (k, k'),
      r.1 = r.2 := by
    intro r hr
    rcases List.mem_append.mp hr with hr | hr
    · exact h.ownRemovals r hr
    · obtain ⟨k', hk', rfl⟩ := List.mem_map.mp hr
      obtain ⟨a, ha, rfl⟩ := List.mem_map.mp hk'
      obtain ⟨ha, hid⟩ := Option.mem_filter_iff.mp (Option.mem_toList.mp ha)
      exact (hown a ha (by simpa using hid)).symm
  have hnot : ∀ a, (w.st.detachWs attachId now).attached = some a → a.ws ≠ k := by
    intro a ha hws
    unfold WebSessionState.detachWs at ha
    split at ha
    · cases ha
    · rename_i hid
      have hphase := h.attached a ha
      rw [hws, hk] at hphase
      rw [ha] at hid
      simp only [AttachPhase.installed.injEq] at hphase
      simp [hphase] at hid
  have hrel : WebInv { w with st := w.st.detachWs attachId now } := by
    unfold WebSessionState.detachWs
    split
    · exact webInv_release h rfl rfl rfl (Or.inl rfl)
    · exact h
  have hmoved := webInv_phase hrel (p := .done) (by intro i hi; cases hi) hnot
  exact { hmoved with ownRemovals := hremovals }

theorem webInv_install {w : WebSession} (h : WebInv w) {k : Nat} (hk : w.phase k = .passed)
    (halive : w.st.tcpAlive = true) (hleft : w.st.attachSeq < Word.maxU64) :
    WebInv { w with
      st := (w.st.install k).2
      phase := Function.update w.phase k (.installed (w.st.install k).1.1)
      ids := w.ids ++ [(w.st.install k).1.1] } := by
  have hid : Word.satAdd64 w.st.attachSeq 1 = w.ids.length + 1 := by
    rw [Word.satAdd64_of_lt (by omega), h.seq]
  have hids : w.ids ++ [w.ids.length + 1] = List.range' 1 (w.ids.length + 1) := by
    rw [List.range'_concat]
    congr 1
    · exact h.ids
    · simp only [Nat.one_mul, Nat.add_comm]
  have hfresh : w.ids.length + 1 ∉ w.ids := by
    intro hmem
    rw [h.ids] at hmem
    have := (List.mem_range'_1.mp hmem).2
    simp only [List.length_range'] at this
    omega
  simp only [WebSessionState.install, hid]
  exact {
    dead := by intro hdead; simp only [halive] at hdead; cases hdead
    increasing := by
      simp only [hids]
      exact List.pairwise_lt_range'
    ownRemovals := h.ownRemovals
    counted := ⟨h.counted.bytes, h.counted.bounded⟩
    suffix := h.suffix
    seq := by simp
    ids := by simp only [List.length_append, List.length_singleton]; exact hids
    attached := by
      intro a ha
      cases ha
      simp
    issued := by
      intro k' i hk'
      by_cases hkk : k' = k
      · subst hkk
        simp only [Function.update_self, AttachPhase.installed.injEq] at hk'
        simp [hk']
      · simp only [Function.update_of_ne hkk] at hk'
        exact List.mem_append_left _ (h.issued k' i hk')
    distinct := by
      intro k₁ k₂ i h₁ h₂
      by_cases hk₁ : k₁ = k <;> by_cases hk₂ : k₂ = k
      · rw [hk₁, hk₂]
      · -- the other websocket has an older id
        subst hk₁
        simp only [Function.update_self, Function.update_of_ne hk₂, AttachPhase.installed.injEq] at h₁ h₂
        exact absurd (h₁ ▸ h.issued k₂ i h₂) hfresh
      · subst hk₂
        simp only [Function.update_self, Function.update_of_ne hk₁, AttachPhase.installed.injEq] at h₁ h₂
        exact absurd (h₂ ▸ h.issued k₁ i h₁) hfresh
      · simp only [Function.update_of_ne hk₁, Function.update_of_ne hk₂] at h₁ h₂
        exact h.distinct k₁ k₂ i h₁ h₂ }

/-! ## Runs -/

/-- The condition: when a websocket is installed the session is alive, and the ids are not used
up. -/
def InstallsAlive (w : WebSession) : WebMove → Prop
  | .install _ => w.st.tcpAlive = true ∧ w.st.attachSeq < Word.maxU64
  | _ => True

/-- **Every other section, and an install on a live session, keeps the invariant.** -/
theorem webInv_step {w w' : WebSession} {m : WebMove} (h : WebInv w) (hok : InstallsAlive w m)
    (hs : w.step m = some w') : WebInv w' := by
  cases m with
  | check k =>
      simp only [WebSession.step] at hs
      split at hs
      · rename_i hk
        cases hs
        refine webInv_phase h ?_ ?_
        · intro i hi
          split at hi <;> cases hi
        · intro a ha hws
          have := h.attached a ha
          rw [hws, hk] at this
          cases this
      · cases hs
  | install k =>
      simp only [WebSession.step] at hs
      split at hs
      · rename_i hk
        cases hs
        exact webInv_install h hk hok.1 hok.2
      · cases hs
  | detach k now =>
      simp only [WebSession.step] at hs
      split at hs
      · rename_i attachId hk
        cases hs
        exact webInv_detach h now hk
      · cases hs
  | deliver data => cases hs; exact webInv_deliver h data
  | markTcpDead now => cases hs; exact webInv_markTcpDead h now
  | shutdown locked => cases hs; exact webInv_shutdownIf h locked
  | sweep idleTtl now => cases hs; exact { h with }
  | sweepRemove locked =>
      simp only [WebSession.step] at hs
      split at hs
      · cases hs
        split
        · exact webInv_shutdownIf (w := { w with sweeping := false, listed := false }) { h with } locked
        · exact { h with }
      · cases hs

/-- An install that breaks the condition leaves an inconsistent session. -/
theorem installsAlive_of_consistent {w w' : WebSession} {m : WebMove} (h : WebInv w)
    (hs : w.step m = some w') (h' : Consistent w') : InstallsAlive w m := by
  cases m with
  | install k =>
      simp only [WebSession.step] at hs
      split at hs
      · cases hs
        constructor
        · cases halive : w.st.tcpAlive with
          | true => rfl
          | false =>
              have hnone := h'.dead halive
              cases hnone
        · -- otherwise the id saturates, and was given out before
          by_contra hfull
          have hlast : w.ids.length ∈ w.ids := by
            have hseq := h.seq
            have hpos : 0 < Word.maxU64 := by decide
            rw [h.ids, List.mem_range'_1, List.length_range']
            omega
          have hlt := (List.pairwise_append.mp h'.increasing).2.2 _ hlast _ (List.mem_singleton_self _)
          simp only [WebSessionState.install, Word.satAdd64] at hlt
          have hseq := h.seq
          omega
      · cases hs
  | _ => trivial

/-- Every state on the way is consistent. -/
def ConsistentThroughout (w : WebSession) (ms : List WebMove) : Prop :=
  ∀ pre, pre <+: ms → ∀ w', exec WebSession.step w pre = some w' → Consistent w'

/-- **A web session is consistent throughout exactly in the runs that install websockets on a live
session**, whatever the order of its sections. -/
theorem web_session_consistent_iff (now : Nat) (ms : List WebMove) (w : WebSession)
    (hex : exec WebSession.step (.connect now) ms = some w) :
    ConsistentThroughout (.connect now) ms ↔
      Along WebSession.step InstallsAlive (.connect now) ms :=
  throughout_iff_along WebInv.toConsistent webInv_step installsAlive_of_consistent
    (webInv_connect now) hex

/-- A websocket is attached, gets some output, and goes. -/
theorem web_session_consistent_iff_attach : ∃ w,
    exec WebSession.step (.connect 0) [.check 0, .install 0, .deliver [65], .detach 0 5] = some w ∧
    (ConsistentThroughout (.connect 0) [.check 0, .install 0, .deliver [65], .detach 0 5] ↔
      Along WebSession.step InstallsAlive (.connect 0)
        [.check 0, .install 0, .deliver [65], .detach 0 5]) :=
  ⟨_, rfl, web_session_consistent_iff 0 _ _ rfl⟩

/-- The TCP side dies between the two lock sections of `attach`. -/
def diesBetween : List WebMove := [.check 0, .markTcpDead 1, .install 0]

/-- **The dead session has a websocket**, and the sweeper will not remove it. -/
theorem dead_session_attached : ∃ w,
    exec WebSession.step (.connect 0) diesBetween = some w ∧ ¬ Consistent w ∧
    ∀ idleTtl now, w.st.sweepable idleTtl now = false := by
  refine ⟨_, rfl, ?_, fun idleTtl now => rfl⟩
  intro h
  cases h.dead rfl

end Slopmud.Web
