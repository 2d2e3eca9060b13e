import Slopmud.Lib.Machine

/-!
# Programs made of atomic sections, and pools of them

An async task that shares state under a lock is a tree: it names an atomic
section `o : Op`, gets an answer `r : R o`, and goes on as `next r`. What a
section does to the shared state is said elsewhere, once, by an `effect`; the
program says only which section comes when. Between two sections of one task any
other task of the pool may run.

`Safe` is the proof rule for one program, whatever the other tasks do: each
section it names is one it may name, given that the answers it got are answers
the shared state can give. `note` keeps what the task has learned from them. A
pool all of whose programs are safe keeps its invariant over every schedule
(`pool_invariant`).
-/

/-- A task whose atomic sections are named by `Op`; section `o` answers with an `R o`. -/
inductive Program (Op : Type) (R : Op → Type) (α : Type) where
  | ret (a : α)
  | act (o : Op) (next : R o → Program Op R α)

namespace Program

variable {Op : Type} {R : Op → Type} {α β γ : Type}

/-- First this program, then the one its result selects. -/
def bind : Program Op R α → (α → Program Op R β) → Program Op R β
  | .ret a, f => f a
  | .act o next, f => .act o (fun r => (next r).bind f)

instance : Monad (Program Op R) where
  pure := .ret
  bind := bind

/-- The program of one section. -/
def op (o : Op) : Program Op R (R o) := .act o .ret

@[simp] theorem pure_eq (a : α) : (pure a : Program Op R α) = .ret a := rfl

@[simp] theorem ret_bind (a : α) (f : α → Program Op R β) : (Program.ret a >>= f) = f a := rfl

@[simp] theorem act_bind (o : Op) (next : R o → Program Op R α) (f : α → Program Op R β) :
    (Program.act o next >>= f) = .act o (fun r => next r >>= f) := rfl

@[simp] theorem op_bind (o : Op) (f : R o → Program Op R β) :
    ((op o : Program Op R (R o)) >>= f) = .act o f := rfl

/-- What a task must know (`ok`) to name a section, what answers it may get (`ans`), what it
learns from them (`note`), and what it knows when it is done (`post`). -/
structure Contract (Op : Type) (R : Op → Type) (γ α : Type) where
  ok : γ → Op → Prop
  ans : (o : Op) → R o → Prop
  note : γ → (o : Op) → R o → γ
  post : γ → α → Prop

/-- The same sections, another postcondition. -/
def Contract.withPost (C : Contract Op R γ α) (Q : γ → β → Prop) : Contract Op R γ β where
  ok := C.ok
  ans := C.ans
  note := C.note
  post := Q

/-- The program keeps its contract, whatever answers it gets. -/
def Safe (C : Contract Op R γ α) : γ → Program Op R α → Prop
  | g, .ret a => C.post g a
  | g, .act o next => C.ok g o ∧ ∀ r, C.ans o r → Safe C (C.note g o r) (next r)

variable {C : Contract Op R γ β}

@[simp] theorem safe_ret {g : γ} {a : β} : Safe C g (.ret a) ↔ C.post g a := Iff.rfl

@[simp] theorem safe_act {g : γ} {o : Op} {next : R o → Program Op R β} :
    Safe C g (.act o next) ↔ C.ok g o ∧ ∀ r, C.ans o r → Safe C (C.note g o r) (next r) := Iff.rfl

/-- **The sequencing rule.** -/
theorem Safe.bind {Q : γ → α → Prop} {p : Program Op R α} {f : α → Program Op R β} {g : γ}
    (hp : Safe (C.withPost Q) g p) (hf : ∀ g a, Q g a → Safe C g (f a)) : Safe C g (p >>= f) := by
  induction p generalizing g with
  | ret a => exact hf g a hp
  | act o next ih => exact ⟨hp.1, fun r hr => ih r (hp.2 r hr)⟩

/-- **The consequence rule.** -/
theorem Safe.mono {Q : γ → β → Prop} {p : Program Op R β} {g : γ} (hp : Safe C g p)
    (h : ∀ g a, C.post g a → Q g a) : Safe (C.withPost Q) g p := by
  induction p generalizing g with
  | ret a => exact h g a hp
  | act o next ih => exact ⟨hp.1, fun r hr => ih r (hp.2 r hr)⟩

/-! ## A program by itself -/

variable {σ Env : Type} (effect : (o : Op) → Env → σ → Option (R o × σ))

/-- A run without any other task, with one choice of the environment for each section. -/
def run : Program Op R α → List Env → σ → Option (α × σ)
  | .ret a, [], s => some (a, s)
  | .act o next, e :: es, s => (effect o e s).bind fun x => (next x.1).run es x.2
  | _, _, _ => none

variable {effect}

theorem run_ret {a b : α} {es : List Env} {s s' : σ} :
    run effect (.ret a : Program Op R α) es s = some (b, s') ↔ es = [] ∧ b = a ∧ s' = s := by
  cases es with
  | nil => simp [run, eq_comm]
  | cons e es => simp [run]

theorem run_act {o : Op} {next : R o → Program Op R α} {b : α} {es : List Env} {s s' : σ} :
    run effect (.act o next) es s = some (b, s') ↔
      ∃ e es' r s₁, es = e :: es' ∧ effect o e s = some (r, s₁) ∧ run effect (next r) es' s₁ = some (b, s') := by
  cases es with
  | nil => simp [run]
  | cons e es =>
    simp only [run, Option.bind_eq_some_iff]
    constructor
    · rintro ⟨⟨r, s₁⟩, h, hrest⟩
      exact ⟨e, es, r, s₁, rfl, h, hrest⟩
    · rintro ⟨_, _, r, s₁, heq, h, hrest⟩
      cases heq
      exact ⟨(r, s₁), h, hrest⟩

/-- **A run of a sequence** is a run of the one and then a run of the other. -/
theorem run_bind {p : Program Op R α} {f : α → Program Op R β} {b : β} {es : List Env} {s s' : σ} :
    run effect (p >>= f) es s = some (b, s') ↔ ∃ es₁ es₂ a s₁, es = es₁ ++ es₂ ∧
      run effect p es₁ s = some (a, s₁) ∧ run effect (f a) es₂ s₁ = some (b, s') := by
  induction p generalizing es s with
  | ret a =>
    rw [ret_bind]
    constructor
    · exact fun h => ⟨[], es, a, s, rfl, run_ret.mpr ⟨rfl, rfl, rfl⟩, h⟩
    · rintro ⟨es₁, es₂, a', s₁, rfl, h₁, h₂⟩
      obtain ⟨rfl, rfl, rfl⟩ := run_ret.mp h₁
      exact h₂
  | act o next ih =>
    rw [act_bind, run_act]
    constructor
    · rintro ⟨e, es', r, s₁, rfl, he, hrest⟩
      obtain ⟨es₁, es₂, a, s₂, rfl, h₁, h₂⟩ := (ih r).mp hrest
      exact ⟨e :: es₁, es₂, a, s₂, rfl, run_act.mpr ⟨e, es₁, r, s₁, rfl, he, h₁⟩, h₂⟩
    · rintro ⟨es₁, es₂, a, s₂, rfl, h₁, h₂⟩
      obtain ⟨e, es', r, s₁, rfl, he, hrest⟩ := run_act.mp h₁
      exact ⟨e, es' ++ es₂, r, s₁, rfl, he, (ih r).mpr ⟨es', es₂, a, s₂, rfl, hrest, h₂⟩⟩

theorem run_op {o : Op} {r : R o} {es : List Env} {s s' : σ} :
    run effect (op o : Program Op R (R o)) es s = some (r, s') ↔ ∃ e, es = [e] ∧ effect o e s = some (r, s') := by
  rw [op, run_act]
  constructor
  · rintro ⟨e, es', r', s₁, rfl, he, hret⟩
    obtain ⟨rfl, rfl, rfl⟩ := run_ret.mp hret
    exact ⟨e, rfl, he⟩
  · rintro ⟨e, rfl, he⟩
    exact ⟨e, [], r, s', rfl, he, run_ret.mpr ⟨rfl, rfl, rfl⟩⟩

/-- All sections that the program may name, whatever the answers. -/
def Names (P : Op → Prop) : Program Op R α → Prop
  | .ret _ => True
  | .act o next => P o ∧ ∀ r, Names P (next r)

theorem Names.bind {P : Op → Prop} {p : Program Op R α} {f : α → Program Op R β} (hp : Names P p)
    (hf : ∀ a, Names P (f a)) : Names P (p >>= f) := by
  induction p with
  | ret a => exact hf a
  | act o next ih => exact ⟨hp.1, fun r => ih r (hp.2 r)⟩

/-- Whatever the answers, the result is one of these. -/
def Yields (P : α → Prop) : Program Op R α → Prop
  | .ret a => P a
  | .act _ next => ∀ r, Yields P (next r)

theorem Yields.bind {P : α → Prop} {Q : β → Prop} {p : Program Op R α} {f : α → Program Op R β}
    (hp : Yields P p) (hf : ∀ a, P a → Yields Q (f a)) : Yields Q (p >>= f) := by
  induction p with
  | ret a => exact hf a hp
  | act o next ih => exact fun r => ih r (hp r)

theorem yields_true (p : Program Op R α) : Yields (fun _ => True) p := by
  induction p with
  | ret a => trivial
  | act o next ih => exact ih

theorem Yields.run {P : α → Prop} {p : Program Op R α} (hp : Yields P p) {es : List Env} {s s' : σ} {a : α}
    (h : run effect p es s = some (a, s')) : P a := by
  induction p generalizing es s with
  | ret b =>
    obtain ⟨-, rfl, -⟩ := run_ret.mp h
    exact hp
  | act o next ih =>
    obtain ⟨e, es', r, s₁, -, -, hrest⟩ := run_act.mp h
    exact ih r (hp r) hrest

/-- **What the sections keep, a run keeps.** -/
theorem Names.run_keeps {P : Op → Prop} {I : σ → Prop}
    (hI : ∀ {o e s r s'}, P o → effect o e s = some (r, s') → I s → I s') {p : Program Op R α}
    (hp : Names P p) {es : List Env} {s s' : σ} {a : α} (h : run effect p es s = some (a, s')) (hs : I s) :
    I s' := by
  induction p generalizing es s with
  | ret b =>
    obtain ⟨-, -, rfl⟩ := run_ret.mp h
    exact hs
  | act o next ih =>
    obtain ⟨e, es', r, s₁, rfl, he, hrest⟩ := run_act.mp h
    exact ih r (hp.2 r) hrest (hI hp.1 he hs)

end Program

/-! ## Pools -/

/-- What the sections do, and how a call from outside starts or resumes a task. -/
structure Tasks (σ Tid Env Call Op : Type) (R : Op → Type) (α : Type) where
  /-- One atomic section, under an environment's choice; `none` when it cannot run now. -/
  effect : (o : Op) → Env → σ → Option (R o × σ)
  /-- The program a call to task `t` puts in the place of what the task was before. -/
  start : Tid → Call → Option (Program Op R α) → Option (Program Op R α)

/-- The shared state and the tasks. -/
structure Pool (σ Tid Op : Type) (R : Op → Type) (α : Type) where
  shared : σ
  task : Tid → Option (Program Op R α)

/-- A schedule is a list of these. -/
inductive Move (Tid Env Call : Type) where
  | call (t : Tid) (c : Call)
  | run (t : Tid) (e : Env)
deriving DecidableEq, Repr

namespace Pool

variable {σ Tid Env Call Op α γ : Type} {R : Op → Type} [DecidableEq Tid] [Inhabited γ]

/-- Take one move: start a task, or run the next section of one. -/
def step (T : Tasks σ Tid Env Call Op R α) (w : Pool σ Tid Op R α) :
    Move Tid Env Call → Option (Pool σ Tid Op R α)
  | .call t c => (T.start t c (w.task t)).map fun p =>
      { w with task := Function.update w.task t (some p) }
  | .run t e =>
    match w.task t with
    | some (.act o next) => (T.effect o e w.shared).map fun x =>
        { shared := x.2, task := Function.update w.task t (some (next x.1)) }
    | _ => none

/-- The section a move runs, if it runs one. -/
def section? (w : Pool σ Tid Op R α) : Move Tid Env Call → Option Op
  | .call _ _ => none
  | .run t _ =>
    match w.task t with
    | some (.act o _) => some o
    | _ => none

/-- **Everything a step can do**: it leaves the shared state alone and replaces one task, or it
runs one section of one task. -/
theorem step_cases {T : Tasks σ Tid Env Call Op R α} {w w' : Pool σ Tid Op R α}
    {m : Move Tid Env Call} (h : step T w m = some w') :
    (∃ t c p, m = .call t c ∧ T.start t c (w.task t) = some p ∧ w.section? m = none
      ∧ w' = { w with task := Function.update w.task t (some p) })
    ∨ ∃ t e o next r s', m = .run t e ∧ w.task t = some (.act o next) ∧ w.section? m = some o
      ∧ T.effect o e w.shared = some (r, s')
      ∧ w' = { shared := s', task := Function.update w.task t (some (next r)) } := by
  cases m with
  | call t c =>
    simp only [step, Option.map_eq_some_iff] at h
    obtain ⟨p, hp, rfl⟩ := h
    exact Or.inl ⟨t, c, p, rfl, hp, rfl, rfl⟩
  | run t e =>
    right
    cases ht : w.task t with
    | none => simp [step, ht] at h
    | some p =>
      cases p with
      | ret a => simp [step, ht] at h
      | act o next =>
        simp only [step, ht, Option.map_eq_some_iff] at h
        obtain ⟨⟨r, s'⟩, hr, rfl⟩ := h
        exact ⟨t, e, o, next, r, s', rfl, ht, by simp [section?, ht], hr, rfl⟩

/-- A task that is never called never starts. -/
theorem task_none_of_not_called {T : Tasks σ Tid Env Call Op R α} {w w' : Pool σ Tid Op R α}
    {ms : List (Move Tid Env Call)} {t : Tid} (hex : Machine.exec (step T) w ms = some w')
    (h : ∀ c, Move.call t c ∉ ms) (h0 : w.task t = none) : w'.task t = none := by
  induction ms generalizing w with
  | nil => cases hex; exact h0
  | cons m ms ih =>
    obtain ⟨w₁, h₁, h₂⟩ := Machine.exec_cons.mp hex
    refine ih h₂ (fun c hc => h c (List.mem_cons_of_mem _ hc)) ?_
    rcases step_cases h₁ with ⟨t', c, p, rfl, -, -, rfl⟩ | ⟨t', e, o, next, r, s', rfl, ht', -, -, rfl⟩
    · have hne : t ≠ t' := fun heq => h c (heq ▸ List.mem_cons_self)
      simpa [Function.update_of_ne hne] using h0
    · have hne : t ≠ t' := fun heq => by rw [← heq, h0] at ht'; cases ht'
      simpa [Function.update_of_ne hne] using h0

/-- The invariant of a pool: `I` of the shared state and of what the tasks know, and every task
safe from what it knows. -/
structure Sound (C : Tid → Program.Contract Op R γ α) (I : σ → (Tid → γ) → Prop)
    (w : Pool σ Tid Op R α) (know : Tid → γ) : Prop where
  /-- The shared state is as the tasks believe it to be. -/
  shared : I w.shared know
  /-- Every task keeps its contract from here on. -/
  safe : ∀ t p, w.task t = some p → p.Safe (C t) (know t)
  /-- A task that was never started has learned nothing. -/
  fresh : ∀ t, w.task t = none → know t = default

/-- What the sections and the calls owe the invariant. -/
structure Keeps (T : Tasks σ Tid Env Call Op R α) (C : Tid → Program.Contract Op R γ α)
    (I : σ → (Tid → γ) → Prop) (ok : Pool σ Tid Op R α → Move Tid Env Call → Prop) : Prop where
  /-- A call starts a safe program, and changes nothing the invariant is about. -/
  start : ∀ {w : Pool σ Tid Op R α} {know : Tid → γ} {t : Tid} {c : Call} {p : Program Op R α},
    Sound C I w know → ok w (.call t c) → T.start t c (w.task t) = some p →
    ∃ g, I w.shared (Function.update know t g) ∧ p.Safe (C t) g
  /-- A section that a task may name keeps the invariant and answers as promised. -/
  effect : ∀ {w : Pool σ Tid Op R α} {know : Tid → γ} {t : Tid} {e : Env} {o : Op} {r : R o}
    {s' : σ}, Sound C I w know → ok w (.run t e) → w.section? (.run t e : Move Tid Env Call) = some o →
    (C t).ok (know t) o → T.effect o e w.shared = some (r, s') →
    (C t).ans o r ∧ I s' (Function.update know t ((C t).note (know t) o r))

omit [Inhabited γ] in
/-- Replacing one task by a safe one keeps all of them safe. -/
theorem safe_update {C : Tid → Program.Contract Op R γ α} {task : Tid → Option (Program Op R α)}
    {know : Tid → γ} (h : ∀ t p, task t = some p → p.Safe (C t) (know t))
    {t : Tid} {p : Program Op R α} {g : γ} (hp : p.Safe (C t) g) :
    ∀ t' p', Function.update task t (some p) t' = some p' →
      p'.Safe (C t') (Function.update know t g t') := by
  intro t' p' hp'
  by_cases htt : t' = t
  · subst htt
    simp only [Function.update_self, Option.some.injEq] at hp' ⊢
    exact hp' ▸ hp
  · rw [Function.update_of_ne htt] at hp' ⊢
    exact h t' p' hp'

/-- A task that is not the one just replaced is where it was. -/
theorem task_update_none {task : Tid → Option (Program Op R α)} {t t' : Tid} {p : Program Op R α}
    (h : Function.update task t (some p) t' = none) : t' ≠ t ∧ task t' = none := by
  by_cases htt : t' = t
  · subst htt; simp at h
  · rw [Function.update_of_ne htt] at h
    exact ⟨htt, h⟩

theorem fresh_update {task : Tid → Option (Program Op R α)} {know : Tid → γ}
    (h : ∀ t, task t = none → know t = default) {t : Tid} {p : Program Op R α} {g : γ} :
    ∀ t', Function.update task t (some p) t' = none → Function.update know t g t' = default := by
  intro t' ht'
  obtain ⟨htt, hnone⟩ := task_update_none ht'
  rw [Function.update_of_ne htt]
  exact h t' hnone

/-- **The step lemma of pools.** -/
theorem sound_step {T : Tasks σ Tid Env Call Op R α} {C : Tid → Program.Contract Op R γ α}
    {I : σ → (Tid → γ) → Prop} {ok : Pool σ Tid Op R α → Move Tid Env Call → Prop}
    (hk : Keeps T C I ok) {w w' : Pool σ Tid Op R α} {m : Move Tid Env Call} {know : Tid → γ}
    (h : Sound C I w know) (hok : ok w m) (hs : step T w m = some w') :
    ∃ know', Sound C I w' know' := by
  rcases step_cases hs with ⟨t, c, p, rfl, hp, -, rfl⟩ | ⟨t, e, o, next, r, s', rfl, ht, hsec, he, rfl⟩
  · obtain ⟨g, hI, hsafe⟩ := hk.start h hok hp
    exact ⟨_, hI, safe_update h.safe hsafe, fresh_update h.fresh⟩
  · have hsafe := h.safe t _ ht
    obtain ⟨hans, hI⟩ := hk.effect h hok hsec hsafe.1 he
    exact ⟨_, hI, safe_update h.safe (hsafe.2 r hans), fresh_update h.fresh⟩

/-- **The run rule of pools.** Sections that keep the invariant keep it over every schedule. -/
theorem pool_invariant {T : Tasks σ Tid Env Call Op R α} {C : Tid → Program.Contract Op R γ α}
    {I : σ → (Tid → γ) → Prop} {ok : Pool σ Tid Op R α → Move Tid Env Call → Prop}
    (hk : Keeps T C I ok) {w w' : Pool σ Tid Op R α} {ms : List (Move Tid Env Call)}
    (h : ∃ know, Sound C I w know) (hal : Machine.Along (step T) ok w ms)
    (hex : Machine.exec (step T) w ms = some w') : ∃ know, Sound C I w' know :=
  Machine.exec_invariant (I := fun w => ∃ know, Sound C I w know)
    (fun ⟨_, hi⟩ hok hs => sound_step hk hi hok hs) h hal hex

end Pool

/-! ## Pools that remember -/

/-- A shared state, with the sections that were run on it, the first one first. -/
structure Traced (σ Op : Type) where
  state : σ
  trace : List Op

section Traced

variable {σ Tid Env Call Op α : Type} {R : Op → Type}

/-- The same tasks; what they do is remembered. -/
def Tasks.traced (T : Tasks σ Tid Env Call Op R α) : Tasks (Traced σ Op) Tid Env Call Op R α where
  effect o e s := (T.effect o e s.state).map fun x => (x.1, ⟨x.2, s.trace ++ [o]⟩)
  start := T.start

theorem Tasks.traced_effect {T : Tasks σ Tid Env Call Op R α} {o : Op} {e : Env}
    {s s' : Traced σ Op} {r : R o} (h : T.traced.effect o e s = some (r, s')) :
    T.effect o e s.state = some (r, s'.state) ∧ s'.trace = s.trace ++ [o] := by
  simp only [traced, Option.map_eq_some_iff, Prod.mk.injEq] at h
  obtain ⟨⟨r', s''⟩, heff, rfl, rfl⟩ := h
  exact ⟨heff, rfl⟩

def Pool.forget (w : Pool (Traced σ Op) Tid Op R α) : Pool σ Tid Op R α := ⟨w.shared.state, w.task⟩

/-- **Memory changes nothing**: the steps of the pool that remembers are the steps of the other. -/
theorem Pool.step_forget [DecidableEq Tid] (T : Tasks σ Tid Env Call Op R α)
    (w : Pool (Traced σ Op) Tid Op R α) (m : Move Tid Env Call) :
    (step T.traced w m).map forget = step T w.forget m := by
  cases m with
  | call t c =>
    simp only [step, forget, Tasks.traced, Option.map_map]
    rfl
  | run t e =>
    simp only [step, forget]
    split
    · simp only [Tasks.traced, Option.map_map]
      rfl
    · rfl

end Traced
