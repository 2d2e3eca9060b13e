import Slopmud.Broker.Login

/-!
# Lists of capabilities

What `normalize_caps_list` makes of a list, and when a list stays as it is under
the capabilities that are added to it.
-/

namespace Slopmud.Broker

/-- A capability as an account stores it. -/
structure IsCap (t : Text) : Prop where
  nonempty : t ≠ []
  short : Text.byteLen t ≤ 64
  chars : t.all isCapChar = true
  folded : Text.toAsciiLowercase (Text.trim t) = t

/-- **What one step of the loop does.** -/
theorem normalizeCap_cases (out : List Text) (raw : Text) :
    (normalizeCap out raw = out
      ∧ (IsCap raw → raw ∈ out ∨ 32 ≤ out.length))
    ∨ ∃ t, IsCap t ∧ t ∉ out ∧ out.length < 32 ∧ normalizeCap out raw = out ++ [t] := by
  unfold normalizeCap
  simp only
  split
  · next h =>
    refine Or.inl ⟨rfl, fun hcap => ?_⟩
    rw [hcap.folded] at h
    rcases h with h | h | h | h | h
    · exact Or.inr h
    · exact absurd (List.isEmpty_iff.mp h) hcap.nonempty
    · exact absurd hcap.short (Nat.not_le.mpr h)
    · rw [hcap.chars] at h; cases h
    · exact Or.inl h
  · next h =>
    simp only [not_or, Nat.not_le, ge_iff_le] at h
    obtain ⟨hlen, hne, hshort, hchars, hnew⟩ := h
    refine Or.inr ⟨_, ⟨?_, ?_, ?_, Text.lower_trim_idem _⟩, hnew, hlen, rfl⟩
    · intro hnil; exact hne (List.isEmpty_iff.mpr hnil)
    · omega
    · simpa using hchars

theorem normalizeCap_eq_self {out : List Text} {raw : Text} (h : raw ∈ out ∨ 32 ≤ out.length)
    (hcap : IsCap raw) : normalizeCap out raw = out := by
  unfold normalizeCap
  simp only [hcap.folded]
  rw [if_pos]
  rcases h with h | h
  · exact Or.inr (Or.inr (Or.inr (Or.inr h)))
  · exact Or.inl h

/-- The loop over a list only adds to what it has. -/
theorem foldl_normalizeCap_spec (l out : List Text) :
    ∃ new, l.foldl normalizeCap out = out ++ new ∧ (∀ t ∈ new, IsCap t)
      ∧ (out.Nodup → (out ++ new).Nodup) ∧ (out.length ≤ 32 → (out ++ new).length ≤ 32) := by
  induction l generalizing out with
  | nil => exact ⟨[], by simp⟩
  | cons raw l ih =>
    rw [List.foldl_cons]
    rcases normalizeCap_cases out raw with ⟨heq, -⟩ | ⟨t, hcap, hnew, hlen, heq⟩
    · rw [heq]; exact ih out
    · rw [heq]
      obtain ⟨new, hfold, hcaps, hnodup, hshort⟩ := ih (out ++ [t])
      refine ⟨t :: new, by rw [hfold, List.append_assoc]; rfl, ?_, ?_, ?_⟩
      · intro t' ht'
        rcases List.mem_cons.mp ht' with rfl | ht'
        · exact hcap
        · exact hcaps t' ht'
      · intro hout
        have h := hnodup (by
          rw [List.nodup_append]
          exact ⟨hout, List.nodup_singleton t, by
            intro a ha b hb
            rw [List.mem_singleton] at hb
            rintro rfl
            exact hnew (hb ▸ ha)⟩)
        simpa using h
      · intro _
        have h := hshort (by simp; omega)
        simpa using h

/-- The loop over capabilities that are not there yet takes all of them. -/
theorem foldl_normalizeCap_eq_append {l out : List Text} (hcaps : ∀ t ∈ l, IsCap t)
    (hnodup : (out ++ l).Nodup) (hlen : (out ++ l).length ≤ 32) :
    l.foldl normalizeCap out = out ++ l := by
  induction l generalizing out with
  | nil => simp
  | cons t l ih =>
    have hcap := hcaps t List.mem_cons_self
    have hstep : normalizeCap out t = out ++ [t] := by
      have hnew : t ∉ out := fun ht =>
        (List.nodup_append.mp hnodup).2.2 t ht t List.mem_cons_self rfl
      have hshort : ¬ 32 ≤ out.length := by simp at hlen; omega
      unfold normalizeCap
      simp only [hcap.folded]
      rw [if_neg]
      simp only [not_or]
      refine ⟨hshort, ?_, ?_, ?_, hnew⟩
      · rw [List.isEmpty_iff]; exact hcap.nonempty
      · exact Nat.not_lt.mpr hcap.short
      · simp [hcap.chars]
    rw [List.foldl_cons, hstep, ih (fun t' ht' => hcaps t' (List.mem_cons_of_mem _ ht'))
      (by simpa using hnodup) (by simpa using hlen), List.append_assoc]
    rfl

/-- It takes none exactly when they are there, or there is no room. -/
theorem foldl_normalizeCap_eq_self_iff {l out : List Text} (hcaps : ∀ t ∈ l, IsCap t) :
    l.foldl normalizeCap out = out ↔ ∀ t ∈ l, t ∈ out ∨ 32 ≤ out.length := by
  induction l with
  | nil => simp
  | cons t l ih =>
    have ih := ih fun t' ht' => hcaps t' (List.mem_cons_of_mem _ ht')
    rw [List.foldl_cons, List.forall_mem_cons]
    rcases normalizeCap_cases out t with ⟨heq, hthere⟩ | ⟨t', -, hnew, hlen, heq⟩
    · rw [heq, ih]
      exact ⟨fun h => ⟨hthere (hcaps t List.mem_cons_self), h⟩, And.right⟩
    · constructor
      · intro h
        obtain ⟨new, hfold, -⟩ := foldl_normalizeCap_spec l (normalizeCap out t)
        rw [hfold, heq, List.append_assoc] at h
        have hl := congrArg List.length h
        simp at hl
      · rintro ⟨hthere, -⟩
        have hself := normalizeCap_eq_self hthere (hcaps t List.mem_cons_self)
        rw [heq] at hself
        have hl := congrArg List.length hself
        simp at hl

theorem text_le_total (a b : Text) : (decide (a ≤ b) || decide (b ≤ a)) = true := by
  rw [Bool.or_eq_true, decide_eq_true_eq, decide_eq_true_eq]
  exact le_total a b

theorem text_le_trans (a b c : Text) :
    decide (a ≤ b) = true → decide (b ≤ c) = true → decide (a ≤ c) = true := by
  simp only [decide_eq_true_eq]
  exact le_trans

/-- A list in normal form: distinct capabilities in order, at most 32 of them. -/
structure NormalCaps (c : List Text) : Prop where
  caps : ∀ t ∈ c, IsCap t
  nodup : c.Nodup
  short : c.length ≤ 32
  sorted : c.Pairwise (· ≤ ·)

theorem normalCaps_normalizeCapsList (l : List Text) : NormalCaps (normalizeCapsList l) := by
  obtain ⟨new, hfold, hcaps, hnodup, hshort⟩ := foldl_normalizeCap_spec l []
  rw [List.nil_append] at hfold hnodup hshort
  have hperm : (normalizeCapsList l).Perm new := by
    rw [normalizeCapsList, hfold]
    exact List.mergeSort_perm _ _
  refine ⟨fun t ht => hcaps t (hperm.mem_iff.mp ht), hperm.nodup_iff.mpr (hnodup List.nodup_nil), ?_, ?_⟩
  · rw [hperm.length_eq]
    exact hshort (Nat.zero_le _)
  · have hsorted := List.pairwise_mergeSort text_le_trans text_le_total (l.foldl normalizeCap [])
    exact hsorted.imp fun h => by simpa using h

namespace NormalCaps

variable {c : List Text} (h : NormalCaps c)

include h

theorem foldl_eq : c.foldl normalizeCap [] = c := by
  have hfold := @foldl_normalizeCap_eq_append c [] h.caps (by simpa using h.nodup)
    (by simpa using h.short)
  rwa [List.nil_append] at hfold

theorem mergeSort_eq : c.mergeSort (fun a b => decide (a ≤ b)) = c :=
  List.mergeSort_of_pairwise (h.sorted.imp fun h => by simpa using h)

/-- **Capabilities added to a list in normal form leave it as it was** exactly when it has them, or
has no room for more. -/
theorem append_eq_iff {add : List Text} (hadd : ∀ t ∈ add, IsCap t) :
    normalizeCapsList (c ++ add) = c ↔ ∀ t ∈ add, t ∈ c ∨ 32 ≤ c.length := by
  rw [← foldl_normalizeCap_eq_self_iff hadd, normalizeCapsList, List.foldl_append, h.foldl_eq]
  constructor
  · intro hsort
    -- nothing can have been added, since sorting adds nothing
    obtain ⟨new, hfold, -⟩ := foldl_normalizeCap_spec add c
    have hlen := (List.mergeSort_perm (add.foldl normalizeCap c) fun a b => decide (a ≤ b)).length_eq
    rw [hsort, hfold, List.length_append] at hlen
    have hnil : new = [] := List.length_eq_zero_iff.mp (by omega)
    rw [hfold, hnil, List.append_nil]
  · intro hfold
    rw [hfold, h.mergeSort_eq]

end NormalCaps

end Slopmud.Broker
