import Slopmud.Lib.Program

/-!
# Dialogues

What a task of a pool asked for and what it was answered, over a whole schedule. A
condition on the sections that a program names, given everything that it was
answered before, is proved of the program alone; the rule here gives it for the
task in every schedule of the pool, whatever the other tasks do, together with
what the dialogues say about the shared state.
-/

/-- A section, and what it was answered. -/
abbrev Exchange (Op : Type) (R : Op → Type) : Type := Σ o : Op, R o

/-- A task that remembers everything. `ok` says what it may name, given what it remembers. -/
def Program.Contract.history {Op α : Type} {R : Op → Type} (ok : List (Exchange Op R) → Op → Prop)
    (post : List (Exchange Op R) → α → Prop) : Program.Contract Op R (List (Exchange Op R)) α where
  ok := ok
  ans _ _ := True
  note d o r := d ++ [⟨o, r⟩]
  post := post

namespace Pool

variable {σ Tid Env Call Op α : Type} {R : Op → Type} [DecidableEq Tid]

/-- What task `t` exchanges in a move. -/
def said (T : Tasks σ Tid Env Call Op R α) (t : Tid) (w : Pool σ Tid Op R α) :
    Move Tid Env Call → List (Exchange Op R)
  | .call _ _ => []
  | .run t' e =>
    match w.task t' with
    | some (.act o _) =>
      if t' = t then ((T.effect o e w.shared).map fun x => ⟨o, x.1⟩).toList else []
    | _ => []

/-- What task `t` exchanges over a schedule, the first exchange first. -/
def dialogue (T : Tasks σ Tid Env Call Op R α) (t : Tid) :
    Pool σ Tid Op R α → List (Move Tid Env Call) → List (Exchange Op R)
  | _, [] => []
  | w, m :: ms => said T t w m ++ ((step T w m).map fun w' => dialogue T t w' ms).getD []

variable {T : Tasks σ Tid Env Call Op R α} {w w' : Pool σ Tid Op R α}

theorem dialogue_cons {t : Tid} {m : Move Tid Env Call} {ms : List (Move Tid Env Call)}
    (h : step T w m = some w') : dialogue T t w (m :: ms) = said T t w m ++ dialogue T t w' ms := by
  simp [dialogue, h]

/-- Where the tasks are, given what each has exchanged: they keep their contracts from here on, they
were entitled to all that they named, and the shared state is as `I` says. -/
structure Heard (ok : Tid → List (Exchange Op R) → Op → Prop)
    (post : Tid → List (Exchange Op R) → α → Prop) (I : σ → (Tid → List (Exchange Op R)) → Prop)
    (w : Pool σ Tid Op R α) (d : Tid → List (Exchange Op R)) : Prop where
  shared : I w.shared d
  safe : ∀ t p, w.task t = some p → p.Safe (.history (ok t) (post t)) (d t)
  /-- Of everything that was named, it was the turn. -/
  asked : ∀ t pre x rest, d t = pre ++ x :: rest → ok t pre x.1
  fresh : ∀ t, w.task t = none → d t = []

/-- What a call starts, or resumes, keeps the contract of the task. -/
def StartsSafe (T : Tasks σ Tid Env Call Op R α) (ok : Tid → List (Exchange Op R) → Op → Prop)
    (post : Tid → List (Exchange Op R) → α → Prop) : Prop :=
  ∀ {t : Tid} {c : Call} {old : Option (Program Op R α)} {p : Program Op R α}
    {d : List (Exchange Op R)}, (old = none → d = []) →
    (∀ q, old = some q → q.Safe (.history (ok t) (post t)) d) → T.start t c old = some p →
    p.Safe (.history (ok t) (post t)) d

/-- A section that a task may name keeps what is known of the shared state. -/
def Tells (T : Tasks σ Tid Env Call Op R α) (ok : Tid → List (Exchange Op R) → Op → Prop)
    (I : σ → (Tid → List (Exchange Op R)) → Prop) : Prop :=
  ∀ {d : Tid → List (Exchange Op R)} {t : Tid} {o : Op} {e : Env} {s s' : σ} {r : R o},
    I s d → ok t (d t) o → T.effect o e s = some (r, s') →
    I s' (Function.update d t (d t ++ [⟨o, r⟩]))

variable {ok : Tid → List (Exchange Op R) → Op → Prop} {post : Tid → List (Exchange Op R) → α → Prop}
  {I : σ → (Tid → List (Exchange Op R)) → Prop}

/-- **The step lemma of dialogues.** -/
theorem Heard.step {d : Tid → List (Exchange Op R)} (hstart : StartsSafe T ok post) (htells : Tells T ok I)
    (h : Heard ok post I w d) {m : Move Tid Env Call} (hs : Pool.step T w m = some w') :
    Heard ok post I w' fun t => d t ++ said T t w m := by
  rcases step_cases hs with ⟨t, c, p, rfl, hp, -, rfl⟩ | ⟨t, e, o, next, r, s', rfl, ht, -, he, rfl⟩
  · have hsame : (fun t' => d t' ++ said T t' w (.call t c)) = d := funext fun t' => List.append_nil _
    rw [hsame]
    have hnew : p.Safe (.history (ok t) (post t)) (d t) := hstart (h.fresh t) (h.safe t) hp
    refine ⟨h.shared, fun t' p' hp' => ?_, h.asked, fun t' ht' => h.fresh t' (task_update_none ht').2⟩
    have hsafe := safe_update h.safe hnew t' p' hp'
    rwa [Function.update_eq_self] at hsafe
  · have hself : said T t w (.run t e) = [⟨o, r⟩] := by simp [said, ht, he]
    have hother : ∀ t', t' ≠ t → said T t' w (.run t e) = [] :=
      fun t' hne => by simp [said, ht, Ne.symm hne]
    have hsafe := h.safe t _ ht
    have hd : (fun t' => d t' ++ said T t' w (.run t e))
        = Function.update d t (d t ++ [⟨o, r⟩]) := by
      funext t'
      by_cases htt : t' = t
      · subst htt
        rw [hself, Function.update_self]
      · rw [hother t' htt, Function.update_of_ne htt, List.append_nil]
    rw [hd]
    refine ⟨htells h.shared hsafe.1 he, safe_update h.safe (hsafe.2 r trivial),
      fun t' pre x rest heq => ?_, fun t' ht' => ?_⟩
    · by_cases htt : t' = t
      · subst htt
        rw [Function.update_self] at heq
        -- the exchange in question is the new one, or one of before
        rcases List.eq_nil_or_concat rest with rfl | ⟨rest, y, rfl⟩
        · obtain ⟨rfl, hx⟩ := List.append_inj' heq rfl
          cases hx
          exact hsafe.1
        · have hsplit : d t' ++ [⟨o, r⟩] = (pre ++ x :: rest) ++ [y] := heq.trans (by simp)
          exact h.asked t' pre x rest (List.append_inj' hsplit rfl).1
      · rw [Function.update_of_ne htt] at heq
        exact h.asked t' pre x rest heq
    · obtain ⟨htt, hnone⟩ := task_update_none ht'
      rw [Function.update_of_ne htt]
      exact h.fresh t' hnone

theorem Heard.run {d : Tid → List (Exchange Op R)} (hstart : StartsSafe T ok post) (htells : Tells T ok I)
    (h : Heard ok post I w d) {ms : List (Move Tid Env Call)}
    (hrun : Machine.exec (Pool.step T) w ms = some w') :
    Heard ok post I w' fun t => d t ++ dialogue T t w ms := by
  induction ms generalizing w d with
  | nil =>
    cases hrun
    simpa only [dialogue, List.append_nil] using h
  | cons m ms ih =>
    obtain ⟨w₁, h₁, h₂⟩ := Machine.exec_cons.mp hrun
    have hnext := ih (h.step hstart htells h₁) h₂
    have hassoc : (fun t => d t ++ dialogue T t w (m :: ms))
        = fun t => d t ++ said T t w m ++ dialogue T t w₁ ms :=
      funext fun t => by rw [dialogue_cons h₁, List.append_assoc]
    rwa [hassoc]

/-- **The run rule of dialogues.** In every schedule of a pool that starts without tasks, a task names
only what it is entitled to by what it was answered before. -/
theorem heard_of_run (hstart : StartsSafe T ok post) (htells : Tells T ok I) (hnone : ∀ t, w.task t = none)
    (hinit : I w.shared fun _ => []) {ms : List (Move Tid Env Call)}
    (hrun : Machine.exec (step T) w ms = some w') :
    Heard ok post I w' fun t => dialogue T t w ms := by
  have hinit : Heard ok post I w fun _ => [] := by
    refine ⟨hinit, fun t p hp => ?_, fun t pre x rest heq => ?_, fun _ _ => rfl⟩
    · rw [hnone t] at hp
      cases hp
    · simp at heq
  simpa using hinit.run hstart htells hrun

end Pool
