import Mathlib

/-!
# Change first, save afterwards

A store in memory that every change writes back as a whole. The change is made in
memory, and then the file is replaced in steps: make its directory, write a
temporary file, rename that over it. Any step may fail, and a change that could
not be saved stays where it was made. So the failure leaves no trace exactly when
there was nothing to change.
-/

/-- A step of replacing a file. -/
inductive SaveStep where
  | createDir
  | write
  | rename
deriving DecidableEq, Repr

/-- A file, the temporary file beside it, and the directory they are in. -/
structure Disk (Raw : Type) where
  dir : Bool
  tmp : Option Raw
  file : Option Raw
deriving DecidableEq, Repr

/-- The step that fails, and what the temporary file holds after a write that failed. -/
structure Fault (Raw : Type) where
  step : SaveStep
  left : Option Raw
deriving DecidableEq, Repr

namespace Disk

variable {Raw : Type}

def perform (c : Raw) (d : Disk Raw) : SaveStep → Disk Raw
  | .createDir => { d with dir := true }
  | .write => { d with tmp := some c }
  | .rename => { d with tmp := none, file := d.tmp }

/-- A step that fails. -/
def spoil (d : Disk Raw) (f : Fault Raw) : Disk Raw :=
  match f.step with
  | .write => { d with tmp := f.left }
  | _ => d

/-- The steps one by one, up to the one that fails. -/
def save (c : Raw) (fault : Option (Fault Raw)) : List SaveStep → Disk Raw → Bool × Disk Raw
  | [], d => (true, d)
  | step :: steps, d =>
    match fault with
    | none => save c none steps (d.perform c step)
    | some f =>
      if f.step = step then (false, d.spoil f) else save c (some f) steps (d.perform c step)

theorem spoil_file (d : Disk Raw) (f : Fault Raw) : (d.spoil f).file = d.file := by
  unfold spoil
  split <;> rfl

theorem perform_file {c : Raw} {d : Disk Raw} {step : SaveStep} (h : step ≠ .rename) :
    (d.perform c step).file = d.file := by
  cases step with
  | createDir => rfl
  | write => rfl
  | rename => exact absurd rfl h

/-- **A save that fails leaves the file alone**, when the rename comes last. -/
theorem save_failed {c : Raw} {fault : Option (Fault Raw)} {steps : List SaveStep}
    (hsteps : SaveStep.rename ∉ steps) (d : Disk Raw)
    (h : (save c fault (steps ++ [SaveStep.rename]) d).1 = false) :
    (save c fault (steps ++ [SaveStep.rename]) d).2.file = d.file := by
  induction steps generalizing d with
  | nil =>
    cases fault with
    | none => cases h
    | some f =>
      simp only [List.nil_append, save] at h ⊢
      split at h
      · next heq => rw [if_pos heq]; exact spoil_file d f
      · cases h
  | cons step steps ih =>
    obtain ⟨hne, hrest⟩ : SaveStep.rename ≠ step ∧ SaveStep.rename ∉ steps := by simpa using hsteps
    cases fault with
    | none =>
      simp only [List.cons_append, save] at h ⊢
      rw [ih hrest _ h, perform_file hne.symm]
    | some f =>
      simp only [List.cons_append, save] at h ⊢
      split at h
      · next heq => rw [if_pos heq]; exact spoil_file d f
      · next heq => rw [if_neg heq, ih hrest _ h, perform_file hne.symm]

end Disk

/-- What an operation does to the store: it answers, or it changes the store, and answers when that
is saved, or could not be. -/
inductive Outcome (σ α : Type) where
  | answer (a : α)
  | save (s : σ) (ok failed : α)

/-- The answer of an operation whose save succeeds. -/
def Outcome.told {σ α : Type} : Outcome σ α → α
  | .answer a => a
  | .save _ ok _ => ok

structure WriteThrough (Raw σ Op α : Type) where
  /-- The steps of a save before the rename. -/
  steps : List SaveStep
  steps_safe : SaveStep.rename ∉ steps
  load : Option Raw → σ
  print : σ → Raw
  apply : σ → Op → Outcome σ α
  /-- Two states that are the same but for what nobody can see. -/
  Same : σ → σ → Prop
  told_congr : ∀ {s s'}, Same s' s → ∀ o, (apply s' o).told = (apply s o).told
  /-- What was loaded from the file is what memory has. -/
  Agree : σ → σ → Prop
  agree_congr : ∀ {l s s'}, Agree l s → Same s' s → Agree l s'

namespace WriteThrough

variable {Raw σ Op α : Type} (W : WriteThrough Raw σ Op α)

structure State (Raw σ : Type) where
  mem : σ
  disk : Disk Raw

/-- What came of an operation. -/
structure Result (Raw σ α : Type) where
  answer : α
  /-- It had something to save, and could not. -/
  failed : Bool
  state : State Raw σ

def run (x : State Raw σ) (o : Op) (fault : Option (Fault Raw)) : Result Raw σ α :=
  match W.apply x.mem o with
  | .answer a => ⟨a, false, x⟩
  | .save s ok failed =>
    let saved := x.disk.save (W.print s) fault (W.steps ++ [SaveStep.rename])
    ⟨if saved.1 then ok else failed, !saved.1, ⟨s, saved.2⟩⟩

/-- A restart would find in the file what is in memory. -/
def Consistent (x : State Raw σ) : Prop := W.Agree (W.load x.disk.file) x.mem

/-- **No trace is left of an operation**: memory is what it was, every operation is answered as it
would have been before, and a restart changes nothing. -/
structure NoTrace (x x' : State Raw σ) : Prop where
  memory : W.Same x'.mem x.mem
  retry : ∀ o, (W.apply x'.mem o).told = (W.apply x.mem o).told
  restart : W.Consistent x'

/-- Only an operation that changes the store has something to save. -/
theorem saves_of_failed {x : State Raw σ} {o : Op} {fault : Option (Fault Raw)}
    (h : (W.run x o fault).failed = true) : ∃ s ok failed, W.apply x.mem o = .save s ok failed := by
  unfold run at h
  cases ha : W.apply x.mem o with
  | answer a => rw [ha] at h; cases h
  | save s ok failed => exact ⟨s, ok, failed, rfl⟩

/-- **A failed save leaves no trace exactly when there was nothing to change.** -/
theorem noTrace_iff {x : State Raw σ} (hx : W.Consistent x) {o : Op} {fault : Option (Fault Raw)}
    {s : σ} {ok failed : α} (hs : W.apply x.mem o = .save s ok failed)
    (hfailed : (W.run x o fault).failed = true) :
    W.NoTrace x (W.run x o fault).state ↔ W.Same s x.mem := by
  simp only [run, hs, Bool.not_eq_true'] at hfailed ⊢
  constructor
  · exact fun h => h.memory
  · intro hsame
    refine ⟨hsame, W.told_congr hsame, ?_⟩
    have hfile := Disk.save_failed W.steps_safe x.disk hfailed
    rw [Consistent, hfile]
    exact W.agree_congr hx hsame

end WriteThrough
