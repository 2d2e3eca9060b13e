import Mathlib

/-!
# Decoding a stream that arrives in pieces

A reader keeps what has arrived in a buffer. It decodes an item from the front of the buffer if it
can, and reads more otherwise. A call that waits for more may be abandoned; the buffer stays, and
the next call goes on from it. What the calls return depends only on the bytes, and not on how they
arrive, as long as the decoder gives the same answer however much of the stream it sees (`Steady`).
-/

namespace Incremental

/-- What a decoder makes of a buffer. -/
inductive Decoded (α β ε : Type) where
  /-- Nothing yet. -/
  | more
  | item (b : β) (rest : List α)
  | error (e : ε)

structure Decoder (α β ε : Type) where
  decode : List α → Decoded α β ε
  /-- The stream ends inside an item. -/
  cut : ε
  /-- An item takes something from the buffer. -/
  shrinks : ∀ {buf b rest}, decode buf = .item b rest → rest.length < buf.length

/-- How one wait for more of the stream goes. -/
inductive Arrival (α : Type) where
  /-- At least one more. -/
  | data (b : α) (bs : List α)
  /-- The call is given up while it waits, and made again. -/
  | abandoned

/-- The stream that arrives. -/
def bytes {α : Type} (as : List (Arrival α)) : List α :=
  as.flatMap fun
    | .data b bs => b :: bs
    | .abandoned => []

inductive Returned (β ε : Type) where
  | item (b : β)
  /-- The stream has ended, and the buffer is empty. -/
  | done
  | error (e : ε)
deriving DecidableEq, Repr

variable {α β ε : Type} (D : Decoder α β ε)

namespace Decoder

/-- One call: what it returns, if it is not abandoned, and the buffer and the reads that are left.
After the last read the stream has ended. -/
def read (buf : List α) (as : List (Arrival α)) :
    Option (Returned β ε) × List α × List (Arrival α) :=
  match D.decode buf with
  | .item b rest => (some (.item b), rest, as)
  | .error e => (some (.error e), buf, as)
  | .more =>
    match as with
    | [] => (some (if buf.isEmpty then .done else .error D.cut), buf, [])
    | .abandoned :: as => (none, buf, as)
    | .data b bs :: as => read (buf ++ b :: bs) as

variable {D}

theorem read_item {buf rest : List α} {b : β} (h : D.decode buf = .item b rest)
    (as : List (Arrival α)) : D.read buf as = (some (.item b), rest, as) := by
  unfold read
  simp only [h]

theorem read_error {buf : List α} {e : ε} (h : D.decode buf = .error e) (as : List (Arrival α)) :
    D.read buf as = (some (.error e), buf, as) := by
  unfold read
  simp only [h]

theorem read_end {buf : List α} (h : D.decode buf = .more) :
    D.read buf [] = (some (if buf.isEmpty then .done else .error D.cut), buf, []) := by
  unfold read
  simp only [h]

theorem read_abandoned {buf : List α} (h : D.decode buf = .more) (as : List (Arrival α)) :
    D.read buf (.abandoned :: as) = (none, buf, as) := by
  unfold read
  simp only [h]

theorem read_data {buf : List α} (h : D.decode buf = .more) (b : α) (bs : List α)
    (as : List (Arrival α)) : D.read buf (.data b bs :: as) = D.read (buf ++ b :: bs) as := by
  rw [read]
  simp only [h]

/-- A call uses up reads, or takes an item from the buffer, unless it is the last. -/
theorem read_progress {buf buf' : List α} {as as' : List (Arrival α)} {o : Option (Returned β ε)}
    (h : D.read buf as = (o, buf', as')) (ho : o = none ∨ ∃ b, o = some (.item b)) :
    as'.length < as.length ∨ as'.length = as.length ∧ buf'.length < buf.length := by
  induction as generalizing buf with
  | nil =>
    cases hd : D.decode buf with
    | item b rest =>
      rw [read_item hd] at h
      cases h
      exact .inr ⟨rfl, D.shrinks hd⟩
    | error e =>
      rw [read_error hd] at h
      cases h
      simp at ho
    | more =>
      rw [read_end hd] at h
      cases h
      split at ho <;> simp at ho
  | cons a as ih =>
    cases hd : D.decode buf with
    | item b rest =>
      rw [read_item hd] at h
      cases h
      exact .inr ⟨rfl, D.shrinks hd⟩
    | error e =>
      rw [read_error hd] at h
      cases h
      simp at ho
    | more =>
      left
      cases a with
      | abandoned =>
        rw [read_abandoned hd] at h
        cases h
        exact Nat.lt_succ_self _
      | data b bs =>
        rw [read_data hd] at h
        rcases ih h with hlt | ⟨heq, -⟩
        · exact Nat.lt_succ_of_lt hlt
        · rw [heq]
          exact Nat.lt_succ_self _

variable (D)

/-- What the calls return, one after the other, up to the end of the stream or the first error. -/
def results (buf : List α) (as : List (Arrival α)) : List (Returned β ε) :=
  match _h : D.read buf as with
  | (none, buf', as') => results buf' as'
  | (some (.item b), buf', as') => .item b :: results buf' as'
  | (some .done, _, _) => [.done]
  | (some (.error e), _, _) => [.error e]
termination_by (as.length, buf.length)
decreasing_by
  · exact Prod.lex_def.mpr (read_progress _h (.inl rfl))
  · exact Prod.lex_def.mpr (read_progress _h (.inr ⟨b, rfl⟩))

variable {D}

theorem results_eq (buf : List α) (as : List (Arrival α)) : D.results buf as =
    match D.read buf as with
    | (none, buf', as') => D.results buf' as'
    | (some (.item b), buf', as') => .item b :: D.results buf' as'
    | (some .done, _, _) => [.done]
    | (some (.error e), _, _) => [.error e] := by
  rw [results]
  split <;> next heq => rw [heq]

theorem results_item {buf rest : List α} {b : β} (h : D.decode buf = .item b rest)
    (as : List (Arrival α)) : D.results buf as = .item b :: D.results rest as := by
  rw [results_eq, read_item h]

theorem results_error {buf : List α} {e : ε} (h : D.decode buf = .error e) (as : List (Arrival α)) :
    D.results buf as = [.error e] := by
  rw [results_eq, read_error h]

theorem results_end {buf : List α} (h : D.decode buf = .more) :
    D.results buf [] = [if buf.isEmpty then .done else .error D.cut] := by
  rw [results_eq, read_end h]
  cases buf.isEmpty <;> rfl

theorem results_abandoned {buf : List α} (h : D.decode buf = .more) (as : List (Arrival α)) :
    D.results buf (.abandoned :: as) = D.results buf as := by
  rw [results_eq, read_abandoned h]

theorem results_data {buf : List α} (h : D.decode buf = .more) (b : α) (bs : List α)
    (as : List (Arrival α)) : D.results buf (.data b bs :: as) = D.results (buf ++ b :: bs) as := by
  rw [results_eq, results_eq, read_data h]

/-! ## However the stream is cut -/

/-- The answer of the decoder does not depend on how much of the stream it sees. -/
inductive Steady (D : Decoder α β ε) : List α → Prop where
  | item {s rest : List α} {b : β} (hs : D.decode s = .item b rest)
      (hpre : ∀ p q, s = p ++ q → D.decode p = .more ∨ ∃ r, D.decode p = .item b r ∧ rest = r ++ q)
      (hrest : Steady D rest) : Steady D s
  | error {s : List α} {e : ε} (hs : D.decode s = .error e)
      (hpre : ∀ p q, s = p ++ q → D.decode p = .more ∨ D.decode p = .error e) : Steady D s
  | more {s : List α} (hpre : ∀ p q, s = p ++ q → D.decode p = .more) : Steady D s

/-- Reads go into the buffer until the decoder has an answer, or there are none left. -/
theorem results_ready (buf : List α) (as : List (Arrival α)) : ∃ buf' as',
    D.results buf as = D.results buf' as' ∧ buf ++ bytes as = buf' ++ bytes as'
      ∧ (D.decode buf' = .more → as' = []) := by
  induction as generalizing buf with
  | nil => exact ⟨buf, [], rfl, rfl, fun _ => rfl⟩
  | cons a as ih =>
    cases hd : D.decode buf with
    | item b rest => exact ⟨buf, a :: as, rfl, rfl, fun h => by rw [hd] at h; cases h⟩
    | error e => exact ⟨buf, a :: as, rfl, rfl, fun h => by rw [hd] at h; cases h⟩
    | more =>
      cases a with
      | data b bs =>
        obtain ⟨buf', as', hres, hbytes, hlast⟩ := ih (buf ++ b :: bs)
        exact ⟨buf', as', (results_data hd b bs as).trans hres, by rw [← hbytes]; simp [bytes], hlast⟩
      | abandoned =>
        obtain ⟨buf', as', hres, hbytes, hlast⟩ := ih buf
        exact ⟨buf', as', (results_abandoned hd as).trans hres, hbytes, hlast⟩

/-- **Only the bytes matter**: the results are those of the whole stream in the buffer. -/
theorem Steady.results_eq {s : List α} (h : Steady D s) {buf : List α} {as : List (Arrival α)}
    (hs : s = buf ++ bytes as) : D.results buf as = D.results s [] := by
  induction h generalizing buf as with
  | @item s rest b hitem hpre _ ih =>
    obtain ⟨buf', as', hres, hbytes, hlast⟩ := results_ready buf as
    rcases hpre buf' _ (hs.trans hbytes) with hmore | ⟨r, hr, hrest⟩
    · rw [hres, hs, hbytes, hlast hmore]
      simp [bytes]
    · rw [hres, results_item hr, results_item hitem, ih hrest]
  | @error s e herror hpre =>
    obtain ⟨buf', as', hres, hbytes, hlast⟩ := results_ready buf as
    rcases hpre buf' _ (hs.trans hbytes) with hmore | herror'
    · rw [hres, hs, hbytes, hlast hmore]
      simp [bytes]
    · rw [hres, results_error herror', results_error herror]
  | @more s hpre =>
    obtain ⟨buf', as', hres, hbytes, hlast⟩ := results_ready buf as
    rw [hres, hs, hbytes, hlast (hpre buf' _ (hs.trans hbytes))]
    simp [bytes]

/-- What follows does not change the answer. -/
structure Stable (D : Decoder α β ε) : Prop where
  item : ∀ {p q b r}, D.decode p = .item b r → D.decode (p ++ q) = .item b (r ++ q)
  error : ∀ {p q e}, D.decode p = .error e → D.decode (p ++ q) = .error e

theorem Stable.steady (h : Stable D) (s : List α) : Steady D s := by
  induction hn : s.length using Nat.strongRecOn generalizing s with
  | ind n ih =>
    cases hs : D.decode s with
    | more =>
      refine .more fun p q hpq => ?_
      cases hp : D.decode p with
      | more => rfl
      | item b r => rw [hpq, h.item hp] at hs; cases hs
      | error e => rw [hpq, h.error hp] at hs; cases hs
    | item b rest =>
      refine .item hs (fun p q hpq => ?_) (ih _ (hn ▸ D.shrinks hs) rest rfl)
      cases hp : D.decode p with
      | more => exact .inl rfl
      | item b' r =>
        rw [hpq, h.item hp] at hs
        cases hs
        exact .inr ⟨r, rfl, rfl⟩
      | error e => rw [hpq, h.error hp] at hs; cases hs
    | error e =>
      refine .error hs fun p q hpq => ?_
      cases hp : D.decode p with
      | more => exact .inl rfl
      | item b r => rw [hpq, h.item hp] at hs; cases hs
      | error e' =>
        rw [hpq, h.error hp] at hs
        cases hs
        exact .inr rfl

end Decoder

end Incremental
