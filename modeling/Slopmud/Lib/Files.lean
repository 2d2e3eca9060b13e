import Slopmud.Lib.Table
import Slopmud.Lib.Text

/-!
# Files and buffered writers

A directory of append-only files, with inodes: a name can be removed while a
handle is open, and what is written through the handle then goes nowhere. A
buffered writer holds back what it is given until its buffer is full or it is
flushed.
-/

/-- The files below one directory. -/
structure Files where
  names : Table Text Nat
  data : Nat → Text
  next : Nat
  /-- One name for each inode. -/
  inj : ∀ {n n' i}, names.lookup n = some i → names.lookup n' = some i → n = n'
  /-- Inodes in use are below the next one. -/
  used : ∀ {n i}, names.lookup n = some i → i < next

namespace Files

def empty : Files := ⟨∅, fun _ => [], 0, by simp, by simp⟩

def exists? (f : Files) (n : Text) : Bool := (f.names.lookup n).isSome

def read (f : Files) (n : Text) : Option Text := (f.names.lookup n).map f.data

/-- Open for appending; the file is created when it is not there. -/
def openAppend (f : Files) (n : Text) : Nat × Files :=
  match f.names.lookup n with
  | some i => (i, f)
  | none => (f.next, {
      names := f.names.insert n f.next
      data := Function.update f.data f.next []
      next := f.next + 1
      inj := by
        intro m m' i h h'
        rw [Table.lookup_insert_eq] at h h'
        split at h
        · cases h
          split at h'
          · simp_all
          · exact absurd (f.used h') (Nat.lt_irrefl _)
        · split at h'
          · cases h'
            exact absurd (f.used h) (Nat.lt_irrefl _)
          · exact f.inj h h'
      used := by
        intro m i h
        rw [Table.lookup_insert_eq] at h
        split at h
        · cases h; exact Nat.lt_succ_self _
        · exact Nat.lt_succ_of_lt (f.used h) })

def append (f : Files) (i : Nat) (t : Text) : Files :=
  { f with data := Function.update f.data i (f.data i ++ t) }

def remove (f : Files) (n : Text) : Files where
  names := f.names.erase n
  data := f.data
  next := f.next
  inj := by
    intro m m' i h h'
    rw [Table.lookup_erase_eq] at h h'
    split at h
    · cases h
    · split at h'
      · cases h'
      · exact f.inj h h'
  used := by
    intro m i h
    rw [Table.lookup_erase_eq] at h
    split at h
    · cases h
    · exact f.used h

@[simp] theorem append_names (f : Files) (i : Nat) (t : Text) : (f.append i t).names = f.names := rfl

@[simp] theorem append_nil (f : Files) (i : Nat) : f.append i [] = f := by
  simp [append]

@[simp] theorem append_data_self (f : Files) (i : Nat) (t : Text) :
    (f.append i t).data i = f.data i ++ t := by simp [append]

theorem append_data_of_ne (f : Files) {i j : Nat} (h : j ≠ i) (t : Text) :
    (f.append i t).data j = f.data j := by simp [append, h]

theorem openAppend_of_some {f : Files} {n : Text} {i : Nat} (h : f.names.lookup n = some i) :
    f.openAppend n = (i, f) := by
  unfold openAppend
  split
  · next j hj => rw [h] at hj; cases hj; rfl
  · next hn => rw [h] at hn; cases hn

/-- What a new file is. -/
theorem openAppend_of_none {f : Files} {n : Text} (h : f.names.lookup n = none) :
    (f.openAppend n).1 = f.next ∧
    (f.openAppend n).2.names = f.names.insert n f.next ∧
    (f.openAppend n).2.data = Function.update f.data f.next [] := by
  unfold openAppend
  split
  · next i hi => rw [h] at hi; cases hi
  · exact ⟨rfl, rfl, rfl⟩

/-- Opening a file does not change what any file holds, and names it by the handle. -/
theorem openAppend_spec (f : Files) (n : Text) :
    (f.openAppend n).2.names.lookup n = some (f.openAppend n).1 ∧
    (f.openAppend n).2.data (f.openAppend n).1 = (f.read n).getD [] ∧
    ∀ m, m ≠ n → (f.openAppend n).2.names.lookup m = f.names.lookup m ∧
      (f.openAppend n).2.read m = f.read m := by
  cases h : f.names.lookup n with
  | some i =>
    rw [openAppend_of_some h]
    exact ⟨h, by simp [read, h], fun m _ => ⟨rfl, rfl⟩⟩
  | none =>
    obtain ⟨hi, hnames, hdata⟩ := openAppend_of_none h
    refine ⟨?_, ?_, fun m hm => ?_⟩
    · rw [hi, hnames, Table.lookup_insert_eq, if_pos rfl]
    · rw [hi, hdata, Function.update_self, read, h]
      rfl
    · have hlook : (f.openAppend n).2.names.lookup m = f.names.lookup m := by
        rw [hnames, Table.lookup_insert_eq, if_neg hm]
      refine ⟨hlook, ?_⟩
      rw [read, read, hlook, hdata]
      cases hj : f.names.lookup m with
      | none => rfl
      | some j =>
        have hne : j ≠ f.next := Nat.ne_of_lt (f.used hj)
        simp [Function.update_of_ne hne]

end Files

/-- A buffered writer on an open file. -/
structure BufWriter where
  ino : Nat
  buf : Text
deriving DecidableEq, Repr

namespace BufWriter

/-- The default size of the buffer, in bytes. -/
def capacity : Nat := 8192

def flush (b : BufWriter) (f : Files) : BufWriter × Files :=
  ({ b with buf := [] }, f.append b.ino b.buf)

/-- `write_all`: what fits goes into the buffer; otherwise the buffer is flushed, and what would
fill it alone is written at once. -/
def writeAll (b : BufWriter) (f : Files) (t : Text) : BufWriter × Files :=
  let spare := capacity - Text.byteLen b.buf
  if Text.byteLen t < spare then ({ b with buf := b.buf ++ t }, f)
  else
    let (b, f) := if Text.byteLen t > spare then b.flush f else (b, f)
    if Text.byteLen t ≥ capacity then (b, f.append b.ino t)
    else ({ b with buf := b.buf ++ t }, f)

theorem eq_nil_of_byteLen {t : Text} (h : Text.byteLen t = 0) : t = [] := by
  cases t with
  | nil => rfl
  | cons c t =>
    have hc : 0 < c.utf8Size := Char.utf8Size_pos c
    simp only [Text.byteLen, Text.utf8Len, List.map_cons, List.sum_cons] at h
    omega

/-- What a step of a writer does to its file and buffer: nothing is lost between them. -/
structure Moves (b : BufWriter) (f : Files) (x : BufWriter × Files) (t : Text) : Prop where
  ino : x.1.ino = b.ino
  names : x.2.names = f.names
  /-- File and buffer together grow by `t`. -/
  text : x.2.data b.ino ++ x.1.buf = f.data b.ino ++ b.buf ++ t
  others : ∀ j, j ≠ b.ino → x.2.data j = f.data j

theorem Moves.trans {b : BufWriter} {f : Files} {x y : BufWriter × Files} {t t' : Text}
    (h : Moves b f x t) (h' : Moves x.1 x.2 y t') : Moves b f y (t ++ t') where
  ino := h'.ino.trans h.ino
  names := h'.names.trans h.names
  text := by
    have ht := h'.text
    rw [h.ino, h.text] at ht
    rw [ht, List.append_assoc]
  others j hj := (h'.others j (h.ino ▸ hj)).trans (h.others j hj)

theorem writeAll_moves (b : BufWriter) (f : Files) (t : Text) : Moves b f (b.writeAll f t) t := by
  simp only [writeAll]
  by_cases hfits : Text.byteLen t < capacity - Text.byteLen b.buf
  · rw [if_pos hfits]
    exact ⟨rfl, rfl, by simp, fun _ _ => rfl⟩
  rw [if_neg hfits]
  by_cases hfull : Text.byteLen t > capacity - Text.byteLen b.buf
  · rw [if_pos hfull]
    by_cases hbig : Text.byteLen t ≥ capacity
    · rw [if_pos hbig]
      refine ⟨rfl, rfl, by simp [flush], fun j hj => ?_⟩
      exact (Files.append_data_of_ne _ hj _).trans (Files.append_data_of_ne f hj _)
    · rw [if_neg hbig]
      exact ⟨rfl, rfl, by simp [flush], fun j hj => Files.append_data_of_ne _ hj _⟩
  · rw [if_neg hfull]
    by_cases hbig : Text.byteLen t ≥ capacity
    · -- exactly the whole buffer is spare, so there is nothing in it
      have hnil : b.buf = [] := eq_nil_of_byteLen (by unfold capacity at *; omega)
      rw [if_pos hbig]
      refine ⟨rfl, rfl, by simp [hnil], fun j hj => Files.append_data_of_ne _ hj _⟩
    · rw [if_neg hbig]
      exact ⟨rfl, rfl, by simp, fun _ _ => rfl⟩

end BufWriter
