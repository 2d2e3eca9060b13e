import Mathlib.Data.List.Nodup
import Slopmud.Web.Manager

/-!
# Accepted input is delivered once, if the session it meets is ready for it

A line that was accepted is queued, or has been taken by the `get_or_create` call that will
queue it, or waits, and in that order the lines are as they were accepted. Three steps can break
that: a line is sent to a session that was found in the table and is dead, or to one whose
waiting lines have not all been sent; a line is made to wait after the session has taken the
waiting lines; and lines are flushed to a session that died or was removed.
-/

namespace Slopmud.Web

open Machine

namespace Manager

/-- No `logout` since the call with this line looked for the session. -/
def due (w : Manager) (l : InputLine) : Bool := decide (l.epoch = w.logouts)

/-- The lines that are not queued yet, in the order in which they will be. -/
def waiting (w : Manager) : List InputLine := w.taken.map Prod.snd ++ w.pending

/-- A `get_or_create` call has put its session into the table and will take the lines that wait. -/
def AboutToTake (w : Manager) : Prop := ∃ g k, w.gets g = .inserted k

/-- Of the lines accepted since the last `logout` those that were queued to the live session and
those that will be are all, each once and in order; and a line does not wait for another session
when there is one. -/
structure DeliveredOnce (w : Manager) : Prop where
  inOrder : w.accepted.filter w.due = (w.served ++ w.waiting).filter w.due
  notStranded : (∃ l ∈ w.pending, w.due l = true) → w.listed = none ∨ w.AboutToTake

/-- The condition on a step. -/
def Ready (w : Manager) : ManagerMove → Prop
  | .sendOrDefer d =>
    match w.sends d with
    | .found k l => w.due l = true → w.Live k ∧ ∀ l' ∈ w.waiting, w.due l' = false
    | .absent l => w.due l = true → w.listed = none ∨ w.AboutToTake
    | _ => True
  | .get g _ =>
    match w.gets g, w.taken.find? fun p => p.1 = g with
    | .flushing k, some (_, l) =>
      w.due l = true → w.Live k ∧ ∀ p ∈ w.taken.takeWhile fun p => p.1 ≠ g, w.due p.2 = false
    | _, _ => True
  | _ => True

/-! ## The calls of the lines -/

/-- Every line is held once, its call has returned, and none is from a later time. -/
structure Calls (w : Manager) : Prop where
  own : ∀ d l, w.sends d = .absent l ∨ (∃ k, w.sends d = .found k l) → l.call = d ∧ l.epoch ≤ w.logouts
  returned : ∀ l ∈ w.waiting, w.sends l.call = .returned
  nodup : (w.waiting.map InputLine.call).Nodup
  past : ∀ l, l ∈ w.accepted ∨ l ∈ w.served ∨ l ∈ w.waiting → l.epoch ≤ w.logouts

variable {w w' : Manager}

theorem calls_init : Calls init where
  own d l h := by
    rcases h with h | ⟨k, h⟩ <;> cases h
  returned l h := by cases h
  nodup := List.nodup_nil
  past l h := by
    rcases h with h | h | h <;> cases h

/-- No line is added, and no `send_or_defer` call goes on. -/
theorem Calls.frame (h : Calls w) (hsends : w'.sends = w.sends) (hwaiting : w'.waiting.Sublist w.waiting)
    (haccepted : w'.accepted = w.accepted)
    (hserved : ∀ l ∈ w'.served, l ∈ w.served ∨ l ∈ w.waiting) (hlogouts : w.logouts ≤ w'.logouts) :
    Calls w' where
  own d l hl := by
    rw [hsends] at hl
    exact ⟨(h.own d l hl).1, (h.own d l hl).2.trans hlogouts⟩
  returned l hl := by
    rw [hsends]
    exact h.returned l (hwaiting.subset hl)
  nodup := h.nodup.sublist (hwaiting.map _)
  past l hl := by
    refine (h.past l ?_).trans hlogouts
    rcases hl with hl | hl | hl
    · exact .inl (haccepted ▸ hl)
    · exact .inr (hserved l hl)
    · exact .inr (.inr (hwaiting.subset hl))

/-- The lines are as they were. -/
theorem Calls.same (h : Calls w) (hsends : w'.sends = w.sends) (hwaiting : w'.waiting = w.waiting)
    (haccepted : w'.accepted = w.accepted) (hserved : w'.served = w.served)
    (hlogouts : w'.logouts = w.logouts) : Calls w' :=
  h.frame hsends (hwaiting ▸ List.Sublist.refl _) haccepted (fun _ hl => .inl (hserved ▸ hl)) hlogouts.ge

/-- What comes first of one call's lines. -/
theorem find_taken {taken : List (Nat × InputLine)} {g : Nat} {p : Nat × InputLine}
    (h : taken.find? (fun p => p.1 = g) = some p) :
    ∃ pre post, taken = pre ++ p :: post ∧ taken.eraseP (fun p => p.1 = g) = pre ++ post
      ∧ taken.takeWhile (fun p => p.1 ≠ g) = pre := by
  obtain ⟨hp, pre, post, rfl, hpre⟩ := List.find?_eq_some_iff_append.mp h
  have hpre' : ∀ q ∈ pre, ¬ q.1 = g := by
    intro q hq
    simpa using hpre q hq
  have hpg : p.1 = g := by simpa using hp
  refine ⟨pre, post, rfl, ?_, ?_⟩
  · rw [List.eraseP_append_right _ (by simpa using hpre'), List.eraseP_cons_of_pos (by simpa using hpg)]
  · rw [List.takeWhile_append_of_pos (by simpa using hpre')]
    simp [hpg]

/-- The lines that wait are taken. -/
theorem waiting_take (w : Manager) (g : Nat) :
    (w.taken ++ w.pending.map (g, ·)).map Prod.snd ++ [] = w.waiting := by
  simp [waiting, Function.comp_def]

theorem mem_served_queueLine {k : Nat} {l l' : InputLine} (h : l' ∈ (w.queueLine k l).served) :
    l' ∈ w.served ∨ l' = l := by
  unfold queueLine at h
  dsimp only at h
  split at h
  · exact (List.mem_append.mp h).imp_right List.mem_singleton.mp
  · exact .inl h

theorem Calls.getStep {g : Nat} {ok : Bool} (h : Calls w) (hs : w.getStep g ok = some w') : Calls w' := by
  unfold Manager.getStep at hs
  split at hs
  · split at hs <;> cases hs <;> exact h.same rfl rfl rfl rfl rfl
  · cases hs
    exact h.same rfl rfl rfl rfl rfl
  · next k _ =>
    cases hs
    unfold setGet unlist
    split <;> exact h.same rfl rfl rfl rfl rfl
  · split at hs <;> cases hs <;> exact h.same rfl rfl rfl rfl rfl
  · split at hs <;> cases hs <;> exact h.same rfl rfl rfl rfl rfl
  · cases hs
    refine h.same rfl ?_ rfl rfl rfl
    exact waiting_take w g
  · split at hs
    · cases hs
      exact h.same rfl rfl rfl rfl rfl
    · next k _ _ l hfind =>
      cases hs
      refine h.frame rfl ?_ rfl ?_ (Nat.le_refl _)
      · exact (List.Sublist.map _ List.eraseP_sublist).append_right _
      · intro l' hl'
        obtain ⟨pre, post, htaken, -, -⟩ := find_taken hfind
        rcases mem_served_queueLine hl' with hold | rfl
        · exact .inl hold
        · right
          rw [waiting, htaken]
          simp
  · cases hs

/-- A call goes on that has no line among those waiting. -/
theorem Calls.setSend (h : Calls w) {d : Nat} {p : SendPhase} (hd : w.sends d ≠ .returned)
    (hown : ∀ l, p = .absent l ∨ (∃ k, p = .found k l) → l.call = d ∧ l.epoch ≤ w.logouts) :
    Calls (w.setSend d p) where
  own d' l hl := by
    by_cases hdd : d' = d
    · subst hdd
      simp only [Manager.setSend, Function.update_self] at hl
      exact hown l hl
    · simp only [Manager.setSend, Function.update_of_ne hdd] at hl
      exact h.own d' l hl
  returned l hl := by
    have hcall := h.returned l hl
    have hne : l.call ≠ d := by
      rintro rfl
      exact hd hcall
    simp only [Manager.setSend, Function.update_of_ne hne]
    exact hcall
  nodup := h.nodup
  past := h.past

/-- The line of a call that has not returned is a new one. -/
theorem Calls.fresh (h : Calls w) {d : Nat} {l : InputLine} (hd : w.sends d ≠ .returned)
    (hl : l.call = d) : l ∉ w.waiting := by
  intro hmem
  have hcall := h.returned l hmem
  rw [hl] at hcall
  exact hd hcall

theorem Calls.lookFor {d : Nat} {bytes : Bytes} (h : Calls w) (hs : w.step (.lookFor d bytes) = some w') :
    Calls w' := by
  simp only [Manager.step] at hs
  split at hs
  · next hidle =>
    have hd : w.sends d ≠ .returned := by
      rw [hidle]
      exact SendPhase.noConfusion
    split at hs
    · cases hs
      exact h.setSend hd fun l hl => by rcases hl with hl | ⟨k, hl⟩ <;> cases hl
    · split at hs
      · cases hs
        refine h.setSend hd fun l hl => ?_
        rcases hl with hl | ⟨k, hl⟩
        · cases hl
        · cases hl
          exact ⟨rfl, Nat.le_refl _⟩
      · cases hs
        refine h.setSend hd fun l hl => ?_
        rcases hl with hl | ⟨k, hl⟩
        · cases hl
          exact ⟨rfl, Nat.le_refl _⟩
        · cases hl
  · cases hs

/-- The call with line `l` returns, and the line is among the accepted ones. -/
theorem Calls.sendOrDefer {d : Nat} (h : Calls w) (hs : w.step (.sendOrDefer d) = some w') : Calls w' := by
  simp only [Manager.step] at hs
  split at hs
  · next k l hfound =>
    cases hs
    have hd : w.sends d ≠ .returned := by
      rw [hfound]
      exact SendPhase.noConfusion
    have hset := h.setSend (p := .returned) hd fun l hl => by rcases hl with hl | ⟨k, hl⟩ <;> cases hl
    refine ⟨hset.own, hset.returned, hset.nodup, ?_⟩
    rintro l' (hl' | hl' | hl')
    · rcases List.mem_append.mp hl' with hold | hnew
      · exact h.past l' (.inl hold)
      · rw [List.mem_singleton.mp hnew]
        exact (h.own d l (.inr ⟨k, hfound⟩)).2
    · rcases mem_served_queueLine hl' with hold | rfl
      · exact h.past l' (.inr (.inl hold))
      · exact (h.own d l' (.inr ⟨k, hfound⟩)).2
    · exact h.past l' (.inr (.inr hl'))
  · next l habsent =>
    cases hs
    have hd : w.sends d ≠ .returned := by
      rw [habsent]
      exact SendPhase.noConfusion
    obtain ⟨hcall, hepoch⟩ := h.own d l (.inl habsent)
    have hset := h.setSend (p := .returned) hd fun l hl => by rcases hl with hl | ⟨k, hl⟩ <;> cases hl
    have hwait : w.taken.map Prod.snd ++ (w.pending ++ [l]) = w.waiting ++ [l] :=
      (List.append_assoc _ _ _).symm
    refine ⟨hset.own, ?_, ?_, ?_⟩
    · intro l' hl'
      change l' ∈ w.taken.map Prod.snd ++ (w.pending ++ [l]) at hl'
      rw [hwait] at hl'
      rcases List.mem_append.mp hl' with hold | hnew
      · exact hset.returned l' hold
      · rw [List.mem_singleton.mp hnew, hcall]
        exact Function.update_self ..
    · change ((w.taken.map Prod.snd ++ (w.pending ++ [l])).map InputLine.call).Nodup
      rw [hwait, List.map_append, List.map_singleton]
      refine List.nodup_append.mpr ⟨h.nodup, List.nodup_singleton _, ?_⟩
      intro c hc c' hc' heq
      obtain ⟨l', hl', rfl⟩ := List.mem_map.mp hc
      have hcall' := h.returned l' hl'
      rw [heq, List.mem_singleton.mp hc', hcall] at hcall'
      exact hd hcall'
    · intro l' hl'
      change l' ∈ w.accepted ++ [l] ∨ l' ∈ w.served ∨ l' ∈ w.taken.map Prod.snd ++ (w.pending ++ [l]) at hl'
      rw [hwait] at hl'
      have hnew : l' ∈ [l] → l'.epoch ≤ w.logouts := by
        intro hmem
        rw [List.mem_singleton.mp hmem]
        exact hepoch
      rcases hl' with hl' | hl' | hl'
      · exact (List.mem_append.mp hl').elim (fun hold => h.past l' (.inl hold)) hnew
      · exact h.past l' (.inr (.inl hl'))
      · exact (List.mem_append.mp hl').elim (fun hold => h.past l' (.inr (.inr hold))) hnew
  · cases hs

theorem Calls.step {m : ManagerMove} (h : Calls w) (hs : w.step m = some w') : Calls w' := by
  cases m with
  | get g ok => exact h.getStep hs
  | lookFor d bytes => exact h.lookFor hs
  | sendOrDefer d => exact h.sendOrDefer hs
  | tcpDead k =>
    cases hs
    exact h.same rfl rfl rfl rfl rfl
  | writerEnds k =>
    simp only [Manager.step] at hs
    split at hs
    · cases hs
    · cases hs
      exact h.same rfl rfl rfl rfl rfl
  | sweepLook =>
    simp only [Manager.step] at hs
    split at hs
    · cases hs
      exact h.same rfl rfl rfl rfl rfl
    · cases hs
  | sweepDecide remove =>
    simp only [Manager.step] at hs
    split at hs
    · cases hs
      exact h.same rfl rfl rfl rfl rfl
    · cases hs
  | sweepRemove =>
    simp only [Manager.step] at hs
    split at hs
    · cases hs
      unfold unlist
      split <;> exact h.same rfl rfl rfl rfl rfl
    · cases hs
  | logoutPending =>
    cases hs
    exact h.frame rfl ((List.nil_sublist w.pending).append_left _) rfl (fun _ hl => .inl hl) (Nat.le_succ _)
  | logoutSession =>
    simp only [Manager.step] at hs
    split at hs
    · cases hs
    · cases hs
      exact h.frame rfl (List.Sublist.refl _) rfl (fun _ hl => .inl hl) (Nat.le_succ _)

/-! ## Delivery -/

namespace DeliveredOnce

theorem init : DeliveredOnce init := ⟨rfl, fun ⟨_, hl, _⟩ => by cases hl⟩

/-- The lines stay where they are; the session may go, and no call stops being about to take them. -/
theorem frame (h : DeliveredOnce w) (haccepted : w'.accepted = w.accepted) (hserved : w'.served = w.served)
    (htaken : w'.taken = w.taken) (hpending : w'.pending = w.pending) (hlogouts : w'.logouts = w.logouts)
    (hlisted : w.listed = none ∨ w.AboutToTake → w'.listed = none ∨ w'.AboutToTake) :
    DeliveredOnce w' := by
  have hdue : w'.due = w.due := by
    funext l
    rw [due, due, hlogouts]
  have hwaiting : w'.waiting = w.waiting := by rw [waiting, waiting, htaken, hpending]
  refine ⟨?_, ?_⟩
  · rw [haccepted, hdue, hserved, hwaiting]
    exact h.inOrder
  · rw [hpending, hdue]
    exact fun hl => hlisted (h.notStranded hl)

/-- A call moves on that was not about to take the lines. -/
theorem aboutToTake_setGet {g : Nat} {p : GetPhase} (hg : ∀ k, w.gets g ≠ .inserted k)
    (h : w.AboutToTake) : (w.setGet g p).AboutToTake := by
  obtain ⟨g', k, hk⟩ := h
  refine ⟨g', k, ?_⟩
  have hne : g' ≠ g := by
    rintro rfl
    exact hg k hk
  simp only [setGet, Function.update_of_ne hne]
  exact hk

theorem setGet (h : DeliveredOnce w) {g : Nat} {p : GetPhase} (hg : ∀ k, w.gets g ≠ .inserted k) :
    DeliveredOnce (w.setGet g p) :=
  h.frame rfl rfl rfl rfl rfl fun hl => hl.imp_right (aboutToTake_setGet hg)

theorem unlist (h : DeliveredOnce w) (k : Nat) : DeliveredOnce (w.unlist k) := by
  unfold Manager.unlist
  split
  · exact h.frame rfl rfl rfl rfl rfl fun _ => .inl rfl
  · exact h

theorem filter_due_append (w : Manager) (ls : List InputLine) (l : InputLine) :
    (ls ++ [l]).filter w.due = ls.filter w.due ++ if w.due l then [l] else [] := by
  rw [List.filter_append]
  cases hl : w.due l <;> simp [hl]

/-- What the flush of a line does to the lines still to be queued. -/
theorem waiting_flush {pre post : List (Nat × InputLine)} {p : Nat × InputLine}
    (htaken : w.taken = pre ++ p :: post) :
    w.waiting = pre.map Prod.snd ++ p.2 :: (post.map Prod.snd ++ w.pending) := by
  rw [waiting, htaken]
  simp

theorem flush (h : DeliveredOnce w) {g k : Nat} {p : Nat × InputLine}
    (hfind : w.taken.find? (fun p => p.1 = g) = some p)
    (hok : w.due p.2 = true → w.Live k ∧ ∀ q ∈ w.taken.takeWhile fun p => p.1 ≠ g, w.due q.2 = false) :
    DeliveredOnce ({ w with taken := w.taken.eraseP fun p => p.1 = g }.queueLine k p.2) := by
  obtain ⟨pre, post, htaken, herase, hwhile⟩ := find_taken hfind
  refine ⟨?_, h.notStranded⟩
  have hinOrder := h.inOrder
  rw [waiting_flush htaken] at hinOrder
  change w.accepted.filter w.due = ((if w.Live k then w.served ++ [p.2] else w.served)
    ++ ((w.taken.eraseP fun p => p.1 = g).map Prod.snd ++ w.pending)).filter w.due
  rw [herase, hinOrder, List.map_append, List.append_assoc]
  simp only [List.filter_append]
  by_cases hdue : w.due p.2 = true
  · obtain ⟨hlive, hfirst⟩ := hok hdue
    have hpre : (pre.map Prod.snd).filter w.due = [] := by
      rw [List.filter_eq_nil_iff]
      intro l hl
      obtain ⟨q, hq, rfl⟩ := List.mem_map.mp hl
      rw [hfirst q (hwhile ▸ hq)]
      exact Bool.false_ne_true
    rw [if_pos hlive, filter_due_append, hdue, hpre]
    simp [hdue]
  · have hserved : (if w.Live k then w.served ++ [p.2] else w.served).filter w.due
        = w.served.filter w.due := by
      split
      · rw [filter_due_append, if_neg hdue, List.append_nil]
      · rfl
    rw [hserved]
    simp [hdue]

theorem getStep (h : DeliveredOnce w) {g : Nat} {ok : Bool} (hok : w.Ready (.get g ok))
    (hs : w.getStep g ok = some w') : DeliveredOnce w' := by
  have hnot : ∀ {p : GetPhase}, w.gets g = p → (∀ k, p ≠ .inserted k) → ∀ k, w.gets g ≠ .inserted k := by
    rintro p rfl hp
    exact hp
  unfold Manager.getStep at hs
  split at hs
  · next hg =>
    have hg' := hnot hg fun _ => GetPhase.noConfusion
    split at hs <;> cases hs <;> exact h.setGet hg'
  · next hg =>
    cases hs
    exact h.setGet (hnot hg fun _ => GetPhase.noConfusion)
  · next k hg =>
    cases hs
    have hg' := hnot hg fun _ => GetPhase.noConfusion
    have hgets : (w.unlist k).gets = w.gets := by
      unfold Manager.unlist
      split <;> rfl
    exact (h.unlist k).setGet (hgets ▸ hg')
  · next hg =>
    have hg' := hnot hg fun _ => GetPhase.noConfusion
    split at hs
    · cases hs
      exact h.frame rfl rfl rfl rfl rfl fun hl => hl.imp_right (aboutToTake_setGet (w := w) hg')
    · cases hs
      exact h.setGet hg'
  · next k hg =>
    have hg' := hnot hg fun _ => GetPhase.noConfusion
    split at hs
    · cases hs
      exact h.setGet hg'
    · cases hs
      refine h.frame rfl rfl rfl rfl rfl fun _ => .inr ⟨g, k, ?_⟩
      exact Function.update_self ..
  · cases hs
    refine ⟨?_, by rintro ⟨_, hl, _⟩; cases hl⟩
    have hsame : (w.taken ++ w.pending.map (g, ·)).map Prod.snd ++ [] = w.waiting := by
      simp [waiting, Function.comp_def]
    change w.accepted.filter w.due
      = (w.served ++ ((w.taken ++ w.pending.map (g, ·)).map Prod.snd ++ [])).filter w.due
    rw [hsame]
    exact h.inOrder
  · next k hg =>
    simp only [Ready, hg] at hok
    split at hs
    · cases hs
      exact h.setGet (hnot hg fun _ => GetPhase.noConfusion)
    · next g' l hfind =>
      cases hs
      simp only [hfind] at hok
      exact h.flush hfind hok
  · cases hs

theorem sendOrDefer (h : DeliveredOnce w) {d : Nat} (hok : w.Ready (.sendOrDefer d))
    (hs : w.step (.sendOrDefer d) = some w') : DeliveredOnce w' := by
  simp only [Manager.step] at hs
  simp only [Ready] at hok
  split at hs
  · next k l hfound =>
    cases hs
    simp only [hfound] at hok
    refine ⟨?_, h.notStranded⟩
    change (w.accepted ++ [l]).filter w.due
      = ((if w.Live k then w.served ++ [l] else w.served) ++ w.waiting).filter w.due
    rw [filter_due_append, h.inOrder, List.filter_append, List.filter_append]
    by_cases hdue : w.due l = true
    · obtain ⟨hlive, hnone⟩ := hok hdue
      have hwait : w.waiting.filter w.due = [] := by
        rw [List.filter_eq_nil_iff]
        intro l' hl'
        rw [hnone l' hl']
        exact Bool.false_ne_true
      rw [if_pos hlive, hwait, filter_due_append, List.append_nil, List.append_nil]
    · rw [if_neg hdue]
      split
      · rw [filter_due_append, if_neg hdue, List.append_nil, List.append_nil]
      · rw [List.append_nil]
  · next l habsent =>
    cases hs
    simp only [habsent] at hok
    have hwait : w.taken.map Prod.snd ++ (w.pending ++ [l]) = w.waiting ++ [l] :=
      (List.append_assoc _ _ _).symm
    refine ⟨?_, ?_⟩
    · change (w.accepted ++ [l]).filter w.due
        = (w.served ++ (w.taken.map Prod.snd ++ (w.pending ++ [l]))).filter w.due
      rw [hwait, ← List.append_assoc, filter_due_append, filter_due_append, h.inOrder]
    · rintro ⟨l', hl', hdue⟩
      rcases List.mem_append.mp hl' with hold | hnew
      · exact h.notStranded ⟨l', hold, hdue⟩
      · rw [List.mem_singleton.mp hnew] at hdue
        exact hok hdue
  · cases hs

/-- After a lock section of `logout` nothing that was accepted is owed. -/
theorem logout (h : Calls w) {listed : Option Nat} {pending : List InputLine} {leaving : Nat}
    (hpending : pending ⊆ w.pending) :
    DeliveredOnce { w with listed, pending, leaving, logouts := w.logouts + 1 } := by
  have hnone : ∀ l, l ∈ w.accepted ∨ l ∈ w.served ∨ l ∈ w.waiting →
      ¬ due { w with listed, pending, leaving, logouts := w.logouts + 1 } l = true := by
    intro l hl
    have hle := h.past l hl
    simp only [due, decide_eq_true_eq]
    omega
  have hwaiting : ∀ l ∈ w.taken.map Prod.snd ++ pending, l ∈ w.waiting := by
    intro l hl
    rcases List.mem_append.mp hl with htaken | hpend
    · exact List.mem_append_left _ htaken
    · exact List.mem_append_right _ (hpending hpend)
  refine ⟨?_, ?_⟩
  · have hleft := List.filter_eq_nil_iff.mpr fun l hl => hnone l (.inl hl)
    have hright := List.filter_eq_nil_iff.mpr fun l (hl : l ∈ w.served ++ (w.taken.map Prod.snd ++ pending)) =>
      hnone l ((List.mem_append.mp hl).elim (fun hs => .inr (.inl hs)) fun hw => .inr (.inr (hwaiting l hw)))
    exact hleft.trans hright.symm
  · rintro ⟨l, hl, hdue⟩
    exact absurd hdue (hnone l (.inr (.inr (List.mem_append_right _ (hpending hl)))))

theorem step {m : ManagerMove} (h : DeliveredOnce w) (hcalls : Calls w) (hok : w.Ready m)
    (hs : w.step m = some w') : DeliveredOnce w' := by
  cases m with
  | get g ok => exact h.getStep hok hs
  | sendOrDefer d => exact h.sendOrDefer hok hs
  | lookFor d bytes =>
    simp only [Manager.step] at hs
    split at hs
    · split at hs
      · cases hs
        exact h.frame rfl rfl rfl rfl rfl id
      · split at hs <;> cases hs <;> exact h.frame rfl rfl rfl rfl rfl id
    · cases hs
  | tcpDead k =>
    cases hs
    exact h.frame rfl rfl rfl rfl rfl id
  | writerEnds k =>
    simp only [Manager.step] at hs
    split at hs
    · cases hs
    · cases hs
      exact h.frame rfl rfl rfl rfl rfl id
  | sweepLook =>
    simp only [Manager.step] at hs
    split at hs
    · cases hs
      exact h.frame rfl rfl rfl rfl rfl id
    · cases hs
  | sweepDecide remove =>
    simp only [Manager.step] at hs
    split at hs
    · cases hs
      exact h.frame rfl rfl rfl rfl rfl id
    · cases hs
  | sweepRemove =>
    simp only [Manager.step] at hs
    split at hs
    · next k _ =>
      cases hs
      exact (h.unlist k).frame rfl rfl rfl rfl rfl id
    · cases hs
  | logoutPending =>
    cases hs
    exact logout hcalls (List.nil_subset _)
  | logoutSession =>
    simp only [Manager.step] at hs
    split at hs
    · cases hs
    · cases hs
      exact logout hcalls (List.Subset.refl _)

/-! ### A step that keeps delivery was ready -/

theorem eq_nil_of_cons_comm {ls : List InputLine} {l : InputLine} (h : ls ++ [l] = l :: ls) (hl : l ∉ ls) :
    ls = [] := by
  cases ls with
  | nil => rfl
  | cons x xs =>
    rw [List.cons_append, List.cons.injEq] at h
    exact absurd (h.1 ▸ List.mem_cons_self) hl

theorem ready_flush (h : DeliveredOnce w) (hcalls : Calls w) {g k : Nat} {p : Nat × InputLine}
    (hfind : w.taken.find? (fun p => p.1 = g) = some p)
    (h' : DeliveredOnce ({ w with taken := w.taken.eraseP fun p => p.1 = g }.queueLine k p.2))
    (hdue : w.due p.2 = true) :
    w.Live k ∧ ∀ q ∈ w.taken.takeWhile fun p => p.1 ≠ g, w.due q.2 = false := by
  obtain ⟨pre, post, htaken, herase, hwhile⟩ := find_taken hfind
  have hbefore := h.inOrder
  have hafter : w.accepted.filter w.due = ((if w.Live k then w.served ++ [p.2] else w.served)
      ++ ((w.taken.eraseP fun p => p.1 = g).map Prod.snd ++ w.pending)).filter w.due := h'.inOrder
  rw [waiting_flush htaken] at hbefore
  rw [herase, hbefore, List.map_append, List.append_assoc] at hafter
  have hlive : w.Live k := by
    by_contra hdead
    have hlen := congrArg List.length hafter
    rw [if_neg hdead] at hlen
    simp only [List.filter_append, List.filter_cons, hdue, if_true, List.length_append,
      List.length_cons] at hlen
    omega
  refine ⟨hlive, ?_⟩
  rw [if_pos hlive] at hafter
  simp only [List.filter_append, List.filter_cons, hdue, if_true, List.filter_nil] at hafter
  rw [List.append_assoc] at hafter
  have hcomm : (pre.map Prod.snd).filter w.due ++ [p.2]
      ++ ((post.map Prod.snd).filter w.due ++ w.pending.filter w.due)
      = p.2 :: (pre.map Prod.snd).filter w.due
      ++ ((post.map Prod.snd).filter w.due ++ w.pending.filter w.due) := by
    simpa using List.append_cancel_left hafter
  have hcomm' := List.append_cancel_right hcomm
  have hnodup := hcalls.nodup
  rw [waiting_flush htaken, List.map_append, List.map_cons] at hnodup
  have hnotin : p.2 ∉ (pre.map Prod.snd).filter w.due := by
    intro hmem
    have hpre := List.mem_map_of_mem (f := InputLine.call) (List.mem_filter.mp hmem).1
    exact (List.nodup_append.mp hnodup).2.2 _ hpre _ List.mem_cons_self rfl
  have hnil := eq_nil_of_cons_comm hcomm' hnotin
  intro q hq
  rw [hwhile] at hq
  have hq' := List.filter_eq_nil_iff.mp hnil q.2 (List.mem_map_of_mem hq)
  simpa using hq'

theorem ready_of_step (h : DeliveredOnce w) (hcalls : Calls w) {m : ManagerMove}
    (hs : w.step m = some w') (h' : DeliveredOnce w') : w.Ready m := by
  cases m with
  | get g ok =>
    simp only [Ready]
    split
    · next k g' l hg hfind =>
      intro hdue
      simp only [Manager.step, Manager.getStep, hg, hfind] at hs
      cases hs
      exact ready_flush h hcalls hfind h' hdue
    · trivial
  | sendOrDefer d =>
    simp only [Ready]
    split
    · next k l hfound =>
      intro hdue
      simp only [Manager.step, hfound] at hs
      cases hs
      have hd : w.sends d ≠ .returned := by
        rw [hfound]
        exact SendPhase.noConfusion
      have hafter : (w.accepted ++ [l]).filter w.due
          = ((if w.Live k then w.served ++ [l] else w.served) ++ w.waiting).filter w.due := h'.inOrder
      rw [filter_due_append, h.inOrder, List.filter_append, List.filter_append, hdue] at hafter
      have hlive : w.Live k := by
        by_contra hdead
        have hlen := congrArg List.length hafter
        rw [if_neg hdead] at hlen
        simp at hlen
      refine ⟨hlive, ?_⟩
      rw [if_pos hlive, filter_due_append, hdue, if_pos rfl, List.append_assoc, List.append_assoc] at hafter
      have hcomm := List.append_cancel_left hafter
      have hnotin : l ∉ w.waiting.filter w.due := fun hmem =>
        hcalls.fresh hd (hcalls.own d l (.inr ⟨k, hfound⟩)).1 (List.mem_filter.mp hmem).1
      have hnil := eq_nil_of_cons_comm hcomm hnotin
      intro l' hl'
      have hnot := List.filter_eq_nil_iff.mp hnil l' hl'
      simpa using hnot
    · next l habsent =>
      intro hdue
      simp only [Manager.step, habsent] at hs
      cases hs
      exact h'.notStranded ⟨l, List.mem_append_right _ (List.mem_singleton_self l), hdue⟩
    · trivial
  | _ => trivial

end DeliveredOnce

/-- **Accepted web input is delivered once.** In every run of the calls for one token, the sweeper
and the ends of its sessions: every moment is one at which the lines accepted since the last
`logout` are those that were queued to the live session and those that will be, in order and
each once, if and only if every line met a session that was ready for it. -/
theorem input_delivered_iff {ms : List ManagerMove} (hrun : exec step init ms = some w) :
    Throughout step DeliveredOnce init ms ↔ Along step Ready init ms :=
  throughout_iff_along (I := fun w => DeliveredOnce w ∧ Calls w) (fun h => h.1)
    (fun h hok hs => ⟨h.1.step h.2 hok hs, h.2.step hs⟩)
    (fun h hs h' => h.1.ready_of_step h.2 hs h') ⟨DeliveredOnce.init, calls_init⟩ hrun

/-- A line waits; `get_or_create` makes a session and flushes the line to it. -/
def flushedRun : List ManagerMove :=
  [ManagerMove.lookFor 0 [97, 10], ManagerMove.sendOrDefer 0] ++ List.replicate 6 (ManagerMove.get 0 true)

theorem input_delivered_flushed :
    Throughout step DeliveredOnce init flushedRun ↔ Along step Ready init flushedRun :=
  input_delivered_iff (w := ((exec step init flushedRun).get rfl)) (Option.some_get _).symm

/-- The session is dead and still in the table: the line is accepted and lost. A line that is made
to wait after the session has taken those that wait stays behind, with the session alive. -/
theorem accepted_lines_lost :
    (∃ w, exec step init (List.replicate 5 (ManagerMove.get 0 true) ++ [ManagerMove.tcpDead 0,
        ManagerMove.writerEnds 0, ManagerMove.lookFor 0 [97, 10], ManagerMove.sendOrDefer 0]) = some w
      ∧ w.logouts = 0 ∧ w.accepted = [⟨0, 0, [97, 10]⟩] ∧ w.served = [] ∧ w.waiting = []
      ∧ w.queues 0 = [] ∧ ¬ DeliveredOnce w) ∧
    (∃ w, exec step init ([ManagerMove.lookFor 0 [97, 10]] ++ List.replicate 5 (ManagerMove.get 0 true) ++ [ManagerMove.sendOrDefer 0])
        = some w
      ∧ w.logouts = 0 ∧ w.Live 0 ∧ w.gets 0 = .done ∧ w.pending = [⟨0, 0, [97, 10]⟩] ∧ w.queues 0 = []) := by
  constructor
  · have hsome : (exec step init (List.replicate 5 (ManagerMove.get 0 true) ++ [ManagerMove.tcpDead 0,
        ManagerMove.writerEnds 0, ManagerMove.lookFor 0 [97, 10], ManagerMove.sendOrDefer 0])).map
        (fun w => ((w.logouts, w.accepted), (w.served, w.waiting, w.queues 0)))
        = some ((0, [⟨0, 0, [97, 10]⟩]), ([], [], [])) := by decide +kernel
    obtain ⟨w, hw, heq⟩ := Option.map_eq_some_iff.mp hsome
    simp only [Prod.mk.injEq] at heq
    obtain ⟨⟨hlogouts, haccepted⟩, hserved, hwaiting, hqueue⟩ := heq
    refine ⟨w, hw, hlogouts, haccepted, hserved, hwaiting, hqueue, fun h => ?_⟩
    have hlost := h.inOrder
    rw [haccepted, hserved, hwaiting] at hlost
    simp [due, hlogouts] at hlost
  · have hsome : (exec step init ([ManagerMove.lookFor 0 [97, 10]] ++ List.replicate 5 (ManagerMove.get 0 true)
        ++ [ManagerMove.sendOrDefer 0])).map
        (fun w => ((w.logouts, decide (w.Live 0)), (w.gets 0, w.pending, w.queues 0)))
        = some ((0, true), (.done, [⟨0, 0, [97, 10]⟩], [])) := by decide +kernel
    obtain ⟨w, hw, heq⟩ := Option.map_eq_some_iff.mp hsome
    simp only [Prod.mk.injEq, decide_eq_true_eq] at heq
    exact ⟨w, hw, heq.1.1, heq.1.2, heq.2⟩

end Manager

end Slopmud.Web
