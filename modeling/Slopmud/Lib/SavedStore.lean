import Mathlib

/-!
# Stores that are saved as a whole

A store is read once, lives in memory, and every operation that succeeds writes
all of it back. Whether a record of the original file is ever lost by operations
that do not concern it is then decided when the store is loaded: what memory
holds is what every save writes, and what memory does not hold the next save
wipes out.
-/

/-- A store in memory `σ`, whose file has the raw form `Raw` and holds records. -/
structure SavedStore (Raw Rec Op σ : Type) where
  /-- The records in a file, whoever wrote it. -/
  records : Raw → List Rec
  /-- The record is in memory. -/
  holds : σ → Rec → Prop
  print : σ → Raw
  /-- An operation that succeeds; a failed one changes and saves nothing. -/
  apply : σ → Op → Option σ
  /-- The operation changes or removes this record itself. -/
  touches : Op → Rec → Prop
  /-- A save writes what memory holds. -/
  mem_print : ∀ s r, r ∈ records (print s) ↔ holds s r
  /-- An operation keeps the records it does not touch. -/
  keeps : ∀ s o s' r, apply s o = some s' → ¬ touches o r → holds s r → holds s' r
  /-- A record that is not in memory does not come back, and something else can always be saved. -/
  idle : ∀ s r, ¬ holds s r → ∃ o s', ¬ touches o r ∧ apply s o = some s' ∧ ¬ holds s' r

namespace SavedStore

variable {Raw Rec Op σ : Type} (S : SavedStore Raw Rec Op σ)

/-- Memory and file. -/
structure State (Raw σ : Type) where
  mem : σ
  file : Raw

/-- One operation, and whether the save that follows it succeeds. -/
def step (x : State Raw σ) (o : Op × Bool) : State Raw σ :=
  match S.apply x.mem o.1 with
  | none => x
  | some s' => ⟨s', if o.2 then S.print s' else x.file⟩

def run (x : State Raw σ) (os : List (Op × Bool)) : State Raw σ := os.foldl S.step x

/-- However the store is used from here on, a record of the file that no operation touches stays
in the file. -/
def NeverLoses (x : State Raw σ) : Prop :=
  ∀ os : List (Op × Bool), ∀ r ∈ S.records x.file, (∀ o ∈ os, ¬ S.touches o.1 r) →
    r ∈ S.records (S.run x os).file

theorem run_keeps {x : State Raw σ} {os : List (Op × Bool)} {r : Rec}
    (h : S.holds x.mem r ∧ r ∈ S.records x.file) (hos : ∀ o ∈ os, ¬ S.touches o.1 r) :
    S.holds (S.run x os).mem r ∧ r ∈ S.records (S.run x os).file := by
  induction os generalizing x with
  | nil => exact h
  | cons o os ih =>
    refine ih ?_ (fun o' ho' => hos o' (List.mem_cons_of_mem _ ho'))
    unfold step
    cases ha : S.apply x.mem o.1 with
    | none => exact h
    | some s' =>
      have hs' : S.holds s' r := S.keeps _ _ _ _ ha (hos o List.mem_cons_self) h.1
      refine ⟨hs', ?_⟩
      simp only
      split
      · exact (S.mem_print s' r).mpr hs'
      · exact h.2

/-- **A store never loses a record exactly when it loaded all of them.** -/
theorem neverLoses_iff (x : State Raw σ) :
    S.NeverLoses x ↔ ∀ r ∈ S.records x.file, S.holds x.mem r := by
  constructor
  · intro h r hr
    by_contra hnot
    -- one save of something else, and the record is gone
    obtain ⟨o, s', htouch, happly, hs'⟩ := S.idle x.mem r hnot
    have hkept := h [(o, true)] r hr (by simpa using htouch)
    simp only [run, List.foldl_cons, List.foldl_nil, step, happly, if_true] at hkept
    exact hs' ((S.mem_print s' r).mp hkept)
  · intro h os r hr hos
    exact (S.run_keeps ⟨h r hr, hr⟩ hos).2

end SavedStore
