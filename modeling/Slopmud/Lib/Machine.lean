import Mathlib

/-!
# Step functions and their runs

A machine here is a partial step function: `step s a = none` says that move `a`
cannot be taken in state `s`. `exec` takes a list of moves one by one and is
`none` as soon as one of them is stuck, so a run is *data* and can be evaluated.

`Along` is a condition on every step of a run, seen from the state in which the
step is taken. The run rules below are the only inductions over runs that the
development needs: give the step, get the run.
-/

namespace Machine

variable {σ α : Type}

/-- Take the moves one by one. -/
def exec (step : σ → α → Option σ) : σ → List α → Option σ
  | s, [] => some s
  | s, a :: as => (step s a).bind (fun s' => exec step s' as)

/-- Every move of the run satisfies `ok` in the state in which it is taken. -/
def Along (step : σ → α → Option σ) (ok : σ → α → Prop) : σ → List α → Prop
  | _, [] => True
  | s, a :: as => ok s a ∧ ∀ s', step s a = some s' → Along step ok s' as

variable {step : σ → α → Option σ} {ok ok' : σ → α → Prop}

instance decidableAlong [∀ s a, Decidable (ok s a)] :
    ∀ (s : σ) (as : List α), Decidable (Along step ok s as)
  | _, [] => .isTrue trivial
  | s, a :: as =>
    have : ∀ s', Decidable (Along step ok s' as) := fun s' => decidableAlong s' as
    inferInstanceAs (Decidable (ok s a ∧ ∀ s' ∈ step s a, Along step ok s' as))

@[simp] theorem exec_nil (s : σ) : exec step s [] = some s := rfl

theorem exec_cons {s t : σ} {a : α} {as : List α} :
    exec step s (a :: as) = some t ↔ ∃ s', step s a = some s' ∧ exec step s' as = some t := by
  simp [exec, Option.bind_eq_some_iff]

theorem exec_append {s t : σ} {as bs : List α} :
    exec step s (as ++ bs) = some t ↔ ∃ s', exec step s as = some s' ∧ exec step s' bs = some t := by
  induction as generalizing s with
  | nil => simp
  | cons a as ih =>
    simp only [List.cons_append, exec_cons, ih]
    constructor
    · rintro ⟨s₁, h₁, s₂, h₂, h₃⟩; exact ⟨s₂, ⟨s₁, h₁, h₂⟩, h₃⟩
    · rintro ⟨s₂, ⟨s₁, h₁, h₂⟩, h₃⟩; exact ⟨s₁, h₁, s₂, h₂, h₃⟩

@[simp] theorem along_nil (s : σ) : Along step ok s [] := trivial

theorem along_cons {s s' : σ} {a : α} {as : List α} (hs : step s a = some s') :
    Along step ok s (a :: as) ↔ ok s a ∧ Along step ok s' as := by
  simp [Along, hs]

theorem along_append {s s' : σ} {as bs : List α} (hs : exec step s as = some s') :
    Along step ok s (as ++ bs) ↔ Along step ok s as ∧ Along step ok s' bs := by
  induction as generalizing s with
  | nil => simp_all
  | cons a as ih =>
    obtain ⟨s₁, h₁, h₂⟩ := exec_cons.mp hs
    rw [List.cons_append, along_cons h₁, along_cons h₁, ih h₂, and_assoc]

theorem Along.mono (h : ∀ s a, ok s a → ok' s a) {s : σ} {as : List α}
    (hal : Along step ok s as) : Along step ok' s as := by
  induction as generalizing s with
  | nil => trivial
  | cons a as ih => exact ⟨h s a hal.1, fun s' hs => ih (hal.2 s' hs)⟩

theorem along_and {s : σ} {as : List α} (h : Along step ok s as) (h' : Along step ok' s as) :
    Along step (fun s a => ok s a ∧ ok' s a) s as := by
  induction as generalizing s with
  | nil => trivial
  | cons a as ih => exact ⟨⟨h.1, h'.1⟩, fun s' hs => ih (h.2 s' hs) (h'.2 s' hs)⟩

/-- A condition that every move of the run meets in any state holds along it. -/
theorem along_of_forall_mem {as : List α} (h : ∀ a ∈ as, ∀ s, ok s a) (s : σ) : Along step ok s as := by
  induction as generalizing s with
  | nil => trivial
  | cons a as ih =>
    exact ⟨h a List.mem_cons_self s, fun s' _ => ih (fun a' ha' => h a' (List.mem_cons_of_mem _ ha')) s'⟩

/-- A condition that every move meets holds along every run. -/
theorem along_of_forall (h : ∀ s a, ok s a) (s : σ) (as : List α) : Along step ok s as :=
  along_of_forall_mem (fun a _ s => h s a) s

/-- **The run rule.** What every allowed step preserves, every allowed run preserves. -/
theorem exec_invariant {I : σ → Prop}
    (hstep : ∀ {s s' : σ} {a : α}, I s → ok s a → step s a = some s' → I s')
    {s t : σ} {as : List α} (h0 : I s) (hal : Along step ok s as)
    (hex : exec step s as = some t) : I t := by
  induction as generalizing s with
  | nil => cases hex; exact h0
  | cons a as ih =>
    obtain ⟨s₁, h₁, h₂⟩ := exec_cons.mp hex
    exact ih (hstep h0 hal.1 h₁) (hal.2 s₁ h₁) h₂

/-- The run rule for what every step preserves. -/
theorem exec_preserves {I : σ → Prop}
    (hstep : ∀ {s s' : σ} {a : α}, I s → step s a = some s' → I s')
    {s t : σ} {as : List α} (h0 : I s) (hex : exec step s as = some t) : I t := by
  have hal : Along step (fun _ _ => True) s as := along_of_forall (fun _ _ => trivial) s as
  exact exec_invariant (fun h _ hs => hstep h hs) h0 hal hex

/-- The run rule for two conditions: an invariant of the runs that meet `ok` gives, along those
runs, whatever it gives for one step. -/
theorem along_of_invariant {I : σ → Prop}
    (hstep : ∀ {s s' : σ} {a : α}, I s → ok s a → step s a = some s' → I s')
    (himp : ∀ {s : σ} {a : α}, I s → ok s a → ok' s a)
    {s : σ} {as : List α} (h0 : I s) (hal : Along step ok s as) : Along step ok' s as := by
  induction as generalizing s with
  | nil => trivial
  | cons a as ih =>
    exact ⟨himp h0 hal.1, fun s₁ h₁ => ih (hstep h0 hal.1 h₁) (hal.2 s₁ h₁)⟩

/-- Every state on the way has the property. -/
def Throughout (step : σ → α → Option σ) (J : σ → Prop) (s : σ) (as : List α) : Prop :=
  ∀ pre, pre <+: as → ∀ s', exec step s pre = some s' → J s'

theorem Throughout.tail {J : σ → Prop} {s s₁ : σ} {a : α} {as : List α}
    (h : Throughout step J s (a :: as)) (h₁ : step s a = some s₁) : Throughout step J s₁ as := by
  intro pre hpre s₂ hs₂
  exact h (a :: pre) (List.cons_prefix_cons.mpr ⟨rfl, hpre⟩) s₂ (exec_cons.mpr ⟨s₁, h₁, hs₂⟩)

theorem Throughout.last {J : σ → Prop} {s t : σ} {as : List α} (h : Throughout step J s as)
    (hex : exec step s as = some t) : J t :=
  h as (List.prefix_refl as) t hex

/-- What holds in every state holds in those in which a step is taken. -/
theorem Throughout.along {J : σ → Prop} {s : σ} {as : List α} (h : Throughout step J s as)
    (himp : ∀ {s : σ} {a : α}, J s → ok s a) : Along step ok s as := by
  induction as generalizing s with
  | nil => trivial
  | cons a as ih =>
    exact ⟨himp (h [] List.nil_prefix s (exec_nil s)), fun s₁ h₁ => ih (h.tail h₁)⟩

theorem Throughout.of_along {J : σ → Prop} {s : σ} {as : List α} (h : Along step (fun s _ => J s) s as)
    (hlast : ∀ t, exec step s as = some t → J t) : Throughout step J s as := by
  rintro pre ⟨suf, rfl⟩ s' hs'
  cases suf with
  | nil => exact hlast s' (by rwa [List.append_nil])
  | cons a suf => exact ((along_append hs').mp h).2.1

/-- **The exact condition for a property of all states of a run.** An invariant that gives the
property, kept by the steps that meet the condition, and a step to a state with the property
meets it. -/
theorem throughout_iff_along {I J : σ → Prop} (hgives : ∀ {s : σ}, I s → J s)
    (hstep : ∀ {s s' : σ} {a : α}, I s → ok s a → step s a = some s' → I s')
    (hback : ∀ {s s' : σ} {a : α}, I s → step s a = some s' → J s' → ok s a)
    {s t : σ} {as : List α} (h0 : I s) (hex : exec step s as = some t) :
    Throughout step J s as ↔ Along step ok s as := by
  constructor
  · intro hall
    induction as generalizing s with
    | nil => trivial
    | cons a as ih =>
      obtain ⟨s₁, h₁, h₂⟩ := exec_cons.mp hex
      have hok : ok s a := hback h0 h₁ (hall [a] ⟨as, rfl⟩ s₁ (exec_cons.mpr ⟨s₁, h₁, exec_nil s₁⟩))
      exact (along_cons h₁).mpr ⟨hok, ih (hstep h0 hok h₁) h₂ (hall.tail h₁)⟩
  · rintro hal pre ⟨suf, rfl⟩ s' hs'
    exact hgives (exec_invariant hstep h0 ((along_append hs').mp hal).1 hs')

/-- A step function that always has a next state is never stuck. -/
theorem exec_total (htotal : ∀ s a, ∃ s', step s a = some s') (s : σ) (as : List α) :
    ∃ t, exec step s as = some t := by
  induction as generalizing s with
  | nil => exact ⟨s, rfl⟩
  | cons a as ih =>
    obtain ⟨s₁, h₁⟩ := htotal s a
    obtain ⟨t, ht⟩ := ih s₁
    exact ⟨t, exec_cons.mpr ⟨s₁, h₁, ht⟩⟩

end Machine
