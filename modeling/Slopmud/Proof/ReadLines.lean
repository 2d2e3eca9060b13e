import Slopmud.Lib.Lines
import Slopmud.Slopio.Reader

/-!
# Lines and packets

`read_line` takes a line of any length as long as the buffer gets its end together with the rest:
the length is looked at only when the buffer has no end of line. So the results depend on the
packets exactly when the stream has a line that is too long, and otherwise not at all.
-/

namespace Slopmud.Slopio

open Incremental

variable {maxLineLen : Nat}

def lineTooLong : IoError := ⟨.invalidData, "line too long"⟩

theorem idxOf?_line {line : Bytes} (h : LF ∉ line) (rest : Bytes) :
    (line ++ LF :: rest).idxOf? LF = some line.length := by
  induction line with
  | nil => simp [List.idxOf?_cons]
  | cons b line ih =>
    obtain ⟨hb, hline⟩ : LF ≠ b ∧ LF ∉ line := by simpa using h
    rw [List.cons_append, List.idxOf?_cons, if_neg (by simpa using Ne.symm hb), ih hline]
    rfl

theorem trimCrlf_line (line : Bytes) : trimCrlf (line ++ [LF]) = Lines.stripCr CR line := by
  simp [trimCrlf, Lines.stripCr]

/-- A buffer that has the end of a line gives the line, however long it is. -/
theorem takeLine_line {line : Bytes} (h : LF ∉ line) (rest : Bytes) :
    takeLine maxLineLen (line ++ LF :: rest) = .item (Lines.stripCr CR line) rest := by
  have htake : (line ++ LF :: rest).take (line.length + 1) = line ++ [LF] := by
    rw [List.append_cons]
    exact List.take_left' (by simp)
  have hdrop : (line ++ LF :: rest).drop (line.length + 1) = rest := by
    rw [List.append_cons]
    exact List.drop_left' (by simp)
  rw [takeLine, idxOf?_line h]
  dsimp only
  rw [htake, hdrop, trimCrlf_line]

theorem takeLine_of_not_mem {buf : Bytes} (h : LF ∉ buf) :
    takeLine maxLineLen buf = if maxLineLen < buf.length then .error lineTooLong else .more := by
  rw [takeLine, List.idxOf?_eq_none_iff.mpr h]
  rfl

/-- No line of the stream is too long, not counting what comes after the last line feed. -/
def Short (maxLineLen : Nat) (s : Bytes) : Prop :=
  ∀ pre line post, s = pre ++ line ++ LF :: post → LF ∉ line → line.length ≤ maxLineLen

theorem Short.rest {line rest : Bytes} (h : Short maxLineLen (line ++ LF :: rest)) :
    Short maxLineLen rest := by
  intro pre l post hs hl
  refine h (line ++ LF :: pre) l post ?_ hl
  rw [hs]
  simp

/-! ## Short lines -/

/-- The results that the lines of a stream give: each without its ending, and then the end of the
stream, or an error when there is something after the last line feed. -/
def ReadsAs (maxLineLen : Nat) (s : Bytes) (rs : List (Returned Bytes IoError)) : Prop :=
  ∃ ls tail, (∀ l ∈ ls, LF ∉ l) ∧ LF ∉ tail ∧ s = Lines.unlines LF ls ++ tail
    ∧ rs = (ls.map fun l => .item (Lines.stripCr CR l))
      ++ [if tail.isEmpty then .done
        else .error (if maxLineLen < tail.length then lineTooLong else (lineReader maxLineLen).cut)]

theorem readsAs_whole (maxLineLen : Nat) (s : Bytes) :
    ReadsAs maxLineLen s ((lineReader maxLineLen).results s []) := by
  induction hn : s.length using Nat.strongRecOn generalizing s with
  | ind n ih =>
    by_cases hmem : LF ∈ s
    · obtain ⟨line, rest, rfl, hline⟩ := List.eq_append_cons_of_mem hmem
      have hitem : (lineReader maxLineLen).decode (line ++ LF :: rest) = _ := takeLine_line hline rest
      obtain ⟨ls, tail, hls, htail, hrest, hres⟩ :=
        ih rest.length (hn ▸ (lineReader maxLineLen).shrinks hitem) rest rfl
      refine ⟨line :: ls, tail, List.forall_mem_cons.mpr ⟨hline, hls⟩, htail, ?_, ?_⟩
      · conv_lhs => rw [hrest]
        simp [Lines.unlines]
      · rw [Decoder.results_item hitem, hres]
        rfl
    · have hpart : (lineReader maxLineLen).decode s = _ := takeLine_of_not_mem hmem
      refine ⟨[], s, by simp, hmem, rfl, ?_⟩
      split at hpart
      · next hlong =>
        have hne : s.isEmpty = false := by
          cases s with
          | nil => exact absurd hlong (Nat.not_lt_zero _)
          | cons b s => rfl
        rw [Decoder.results_error hpart, hne]
        simp [hlong]
      · next hshort =>
        rw [Decoder.results_end hpart]
        simp [hshort]

theorem Short.steady {s : Bytes} (h : Short maxLineLen s) :
    Decoder.Steady (lineReader maxLineLen) s := by
  induction hn : s.length using Nat.strongRecOn generalizing s with
  | ind n ih =>
    by_cases hmem : LF ∈ s
    · obtain ⟨line, rest, rfl, hline⟩ := List.eq_append_cons_of_mem hmem
      have hitem : (lineReader maxLineLen).decode (line ++ LF :: rest) = _ := takeLine_line hline rest
      refine .item hitem (fun p q hpq => ?_)
        (ih rest.length (hn ▸ (lineReader maxLineLen).shrinks hitem) h.rest rfl)
      -- the buffer ends before the line feed, or has it
      rcases List.append_eq_append_iff.mp hpq.symm with ⟨mid, hmid, -⟩ | ⟨mid, hmid, hq⟩
      · left
        have hp : LF ∉ p := fun hp => hline (hmid ▸ List.mem_append_left _ hp)
        have hlen := h [] line rest rfl hline
        have hple : p.length ≤ line.length := by rw [hmid, List.length_append]; omega
        exact (takeLine_of_not_mem hp).trans (if_neg (by omega))
      · cases mid with
        | nil =>
          left
          rw [List.append_nil] at hmid
          have hlen := h [] line rest rfl hline
          exact (takeLine_of_not_mem (hmid ▸ hline)).trans (if_neg (by rw [hmid]; omega))
        | cons b mid =>
          right
          obtain ⟨rfl, hrest⟩ := List.cons.inj hq
          exact ⟨mid, by rw [hmid]; exact takeLine_line hline mid, hrest⟩
    · have hpre : ∀ p q, s = p ++ q → LF ∉ p := fun p q hpq hp =>
        hmem (hpq ▸ List.mem_append_left _ hp)
      by_cases hlong : maxLineLen < s.length
      · refine .error ((takeLine_of_not_mem hmem).trans (if_pos hlong)) fun p q hpq => ?_
        by_cases hp : maxLineLen < p.length
        · exact .inr ((takeLine_of_not_mem (hpre p q hpq)).trans (if_pos hp))
        · exact .inl ((takeLine_of_not_mem (hpre p q hpq)).trans (if_neg hp))
      · refine .more fun p q hpq => (takeLine_of_not_mem (hpre p q hpq)).trans (if_neg ?_)
        rw [hpq, List.length_append] at hlong
        omega

/-- A line that is returned has no more bytes than it had in the stream. -/
theorem Short.returned_le {s : Bytes} (h : Short maxLineLen s) {rs : List (Returned Bytes IoError)}
    (hrs : ReadsAs maxLineLen s rs) {l : Bytes} (hl : .item l ∈ rs) : l.length ≤ maxLineLen := by
  obtain ⟨ls, tail, hls, -, hs, rfl⟩ := hrs
  rcases List.mem_append.mp hl with hmem | hlast
  · obtain ⟨line, hline, heq⟩ := List.mem_map.mp hmem
    cases heq
    obtain ⟨before, after, rfl⟩ := List.append_of_mem hline
    have hlen := h (Lines.unlines LF before) line (Lines.unlines LF after ++ tail)
      (by rw [hs]; simp [Lines.unlines]) (hls line hline)
    have hstrip : (Lines.stripCr CR line).length ≤ line.length := by
      unfold Lines.stripCr
      split
      · rw [List.length_dropLast]
        omega
      · exact Nat.le_refl _
    omega
  · split at hlast <;> simp at hlast

/-! ## A long line -/

/-- With the end of the long line still to come there is an error, and with it there is not. -/
theorem results_long {line : Bytes} (hline : LF ∉ line) (hlong : maxLineLen < line.length)
    (post : Bytes) (as : List (Arrival UInt8)) (pre : Bytes) :
    ∃ (before : List (Returned Bytes IoError)) (l : Bytes) (after : List (Returned Bytes IoError)),
      (lineReader maxLineLen).results (pre ++ line) as = before ++ [.error lineTooLong]
        ∧ (lineReader maxLineLen).results (pre ++ line ++ LF :: post) [] = before ++ .item l :: after := by
  induction hn : pre.length using Nat.strongRecOn generalizing pre with
  | ind n ih =>
    by_cases hmem : LF ∈ pre
    · obtain ⟨first, rest, rfl, hfirst⟩ := List.eq_append_cons_of_mem hmem
      obtain ⟨before, l, after, herr, hitem⟩ := ih rest.length (by rw [← hn]; simp; omega) rest rfl
      refine ⟨.item (Lines.stripCr CR first) :: before, l, after, ?_, ?_⟩
      · rw [List.append_assoc, List.cons_append,
          Decoder.results_item (D := lineReader maxLineLen) (takeLine_line hfirst _), herr]
        rfl
      · rw [List.append_assoc, List.append_assoc, List.cons_append,
          Decoder.results_item (D := lineReader maxLineLen) (takeLine_line hfirst _),
          ← List.append_assoc, hitem]
        rfl
    · have hall : LF ∉ pre ++ line := List.not_mem_append hmem hline
      refine ⟨[], Lines.stripCr CR (pre ++ line), _, ?_,
        Decoder.results_item (D := lineReader maxLineLen) (takeLine_line hall post) []⟩
      refine Decoder.results_error ((takeLine_of_not_mem hall).trans (if_pos ?_)) as
      rw [List.length_append]
      omega

/-- The bytes in one read, if there are any. -/
def oneRead : Bytes → List (Arrival UInt8)
  | [] => []
  | b :: bs => [.data b bs]

theorem bytes_oneRead (s : Bytes) (as : List (Arrival UInt8)) :
    bytes (oneRead s ++ as) = s ++ bytes as := by
  cases s <;> simp [oneRead, bytes]

theorem results_oneRead (s : Bytes) (as : List (Arrival UInt8)) :
    (lineReader maxLineLen).results [] (oneRead s ++ as) = (lineReader maxLineLen).results s as := by
  cases s with
  | nil => rfl
  | cons b bs =>
    have hempty : (lineReader maxLineLen).decode [] = .more := by
      show takeLine maxLineLen [] = .more
      rw [takeLine_of_not_mem List.not_mem_nil]
      exact if_neg (Nat.not_lt_zero _)
    exact Decoder.results_data hempty b bs as

/-- **Lines do not depend on packets, up to long lines**: any two ways in which the stream arrives
give the same results, those of its lines, and no line returned is too long, exactly when no line
of the stream is. -/
theorem lines_independent_iff (maxLineLen : Nat) (s : Bytes) :
    ((∀ as as' : List (Arrival UInt8), bytes as = s → bytes as' = s →
        (lineReader maxLineLen).results [] as = (lineReader maxLineLen).results [] as')
      ∧ ∀ as : List (Arrival UInt8), bytes as = s →
        ReadsAs maxLineLen s ((lineReader maxLineLen).results [] as)
          ∧ ∀ l, .item l ∈ (lineReader maxLineLen).results [] as → l.length ≤ maxLineLen)
      ↔ Short maxLineLen s := by
  constructor
  · rintro ⟨hsame, -⟩ pre line post rfl hline
    by_contra hlt
    -- the stream in one read, and with a cut before the end of the long line
    obtain ⟨before, l, after, herr, hitem⟩ :=
      results_long hline (Nat.not_le.mp hlt) post [.data LF post] pre
    have hcut := hsame (oneRead (pre ++ line ++ LF :: post) ++ [])
      (oneRead (pre ++ line) ++ [.data LF post])
      (by rw [bytes_oneRead]; simp [bytes]) (by rw [bytes_oneRead]; simp [bytes])
    rw [results_oneRead, results_oneRead, herr, hitem] at hcut
    have hfirst := congrArg List.head? (List.append_cancel_left hcut)
    cases hfirst
  · intro h
    have hwhole : ∀ as : List (Arrival UInt8), bytes as = s →
        (lineReader maxLineLen).results [] as = (lineReader maxLineLen).results s [] :=
      fun as has => h.steady.results_eq (by rw [has]; rfl)
    refine ⟨fun as as' has has' => (hwhole as has).trans (hwhole as' has').symm, fun as has => ?_⟩
    have hreads := readsAs_whole maxLineLen s
    rw [hwhole as has]
    exact ⟨hreads, fun l hl => h.returned_le hreads hl⟩

/-- Six bytes and a line feed, for a limit of four: a line in one read, an error in two. -/
theorem long_line_by_packets :
    ¬ ∀ as as' : List (Arrival UInt8), bytes as = [97, 98, 99, 100, 101, 102, LF] →
      bytes as' = [97, 98, 99, 100, 101, 102, LF] →
      (lineReader 4).results [] as = (lineReader 4).results [] as'
        ∧ ∀ l, .item l ∈ (lineReader 4).results [] as → l.length ≤ 4 := by
  intro h
  have hone : (lineReader 4).results [] [.data 97 [98, 99, 100, 101, 102, LF]]
      = [.item [97, 98, 99, 100, 101, 102], .done] := by
    rw [Decoder.results_data (D := lineReader 4) rfl, Decoder.results_item (D := lineReader 4) rfl,
      Decoder.results_end (D := lineReader 4) rfl]
    rfl
  have htwo : (lineReader 4).results [] [.data 97 [98, 99, 100, 101], .data 102 [LF]]
      = [.error lineTooLong] := by
    rw [Decoder.results_data (D := lineReader 4) rfl, Decoder.results_error (D := lineReader 4) rfl]
    rfl
  have hsame := (h [.data 97 [98, 99, 100, 101, 102, LF]] [.data 97 [98, 99, 100, 101], .data 102 [LF]]
    rfl rfl).1
  rw [hone, htwo] at hsame
  cases hsame

end Slopmud.Slopio
