import Mathlib

/-!
# Lines

A file read line by line: it is cut after every line feed, a carriage return before the line
feed goes with it, and what follows the last line feed is a line of its own unless it is
empty. The characters are of any type, so that bytes and text are read alike.
-/

namespace Lines

variable {α : Type} [DecidableEq α] (nl cr : α)

/-- A line without the carriage return at its end. -/
def stripCr (line : List α) : List α :=
  if line.getLast? = some cr then line.dropLast else line

/-- The lines, when `cur` has been read of the first one, last character first. -/
def linesFrom (cur : List α) : List α → List (List α)
  | [] => if cur.isEmpty then [] else [cur.reverse]
  | c :: cs =>
    if c = nl then stripCr cr cur.reverse :: linesFrom [] cs else linesFrom (c :: cur) cs

/-- `BufRead::lines`, `str::lines` -/
def lines (file : List α) : List (List α) := linesFrom nl cr [] file

/-- A file of whole lines. -/
def unlines (ls : List (List α)) : List α := ls.flatMap (· ++ [nl])

/-- What a line may be so that it reads back: no line feed in it, no carriage return at its end. -/
def IsLine (line : List α) : Prop := nl ∉ line ∧ line.getLast? ≠ some cr

variable {nl cr}

theorem stripCr_of_isLine {line : List α} (h : IsLine nl cr line) : stripCr cr line = line := by
  simp [stripCr, h.2]

theorem linesFrom_append {line : List α} (hnl : nl ∉ line) (cur rest : List α) :
    linesFrom nl cr cur (line ++ nl :: rest)
      = stripCr cr (cur.reverse ++ line) :: linesFrom nl cr [] rest := by
  induction line generalizing cur with
  | nil => simp [linesFrom]
  | cons c line ih =>
    have hc : c ≠ nl := fun h => hnl (by simp [h])
    have hline : nl ∉ line := fun h => hnl (by simp [h])
    rw [List.cons_append, linesFrom, if_neg hc, ih hline]
    simp

theorem linesFrom_end {line : List α} (hnl : nl ∉ line) (cur : List α) :
    linesFrom nl cr cur line = if (cur.reverse ++ line).isEmpty then [] else [cur.reverse ++ line] := by
  induction line generalizing cur with
  | nil => cases cur <;> simp [linesFrom]
  | cons c line ih =>
    have hc : c ≠ nl := fun h => hnl (by simp [h])
    have hline : nl ∉ line := fun h => hnl (by simp [h])
    rw [linesFrom, if_neg hc, ih hline]
    simp

/-- A whole line, and then the others. -/
theorem lines_cons {line : List α} (h : IsLine nl cr line) (rest : List α) :
    lines nl cr (line ++ nl :: rest) = line :: lines nl cr rest := by
  rw [lines, linesFrom_append h.1]
  simp [stripCr_of_isLine h, lines]

/-- What is left after the last line feed. -/
theorem lines_partial {line : List α} (hnl : nl ∉ line) (hne : line ≠ []) :
    lines nl cr line = [line] := by
  rw [lines, linesFrom_end hnl]
  simp [hne]

/-- Whole lines followed by anything. -/
theorem lines_unlines_append {ls : List (List α)} (h : ∀ l ∈ ls, IsLine nl cr l) (rest : List α) :
    lines nl cr (unlines nl ls ++ rest) = ls ++ lines nl cr rest := by
  induction ls with
  | nil => rfl
  | cons l ls ih =>
    have hl : IsLine nl cr l := h l (by simp)
    have hls : ∀ l ∈ ls, IsLine nl cr l := fun l hmem => h l (by simp [hmem])
    have hsplit : unlines nl (l :: ls) ++ rest = l ++ nl :: (unlines nl ls ++ rest) := by
      simp [unlines]
    rw [hsplit, lines_cons hl, ih hls, List.cons_append]

/-- Whole lines read back. -/
theorem lines_unlines {ls : List (List α)} (h : ∀ l ∈ ls, IsLine nl cr l) :
    lines nl cr (unlines nl ls) = ls := by
  have hempty := lines_unlines_append h []
  rw [List.append_nil] at hempty
  rw [hempty]
  simp [lines, linesFrom]

omit [DecidableEq α] in
@[simp] theorem unlines_append (ls ms : List (List α)) :
    unlines nl (ls ++ ms) = unlines nl ls ++ unlines nl ms := by
  simp [unlines]

omit [DecidableEq α] in
@[simp] theorem unlines_singleton (l : List α) : unlines nl [l] = l ++ [nl] := by
  simp [unlines]

end Lines
