import Slopmud.Broker.Telnet

/-!
# Lines and packets

The line buffer is drained after every read. A `\n` that comes in the read after its `\r` ends an
empty line, and empty lines are skipped; a null that comes in the read after its `\r` stays, at the
head of the next line. So the lines are those of the stream with the nulls after a `\r` taken out,
but only the nulls that came in the read of their `\r`.
-/

namespace Slopmud.Broker

/-! ## The read loop, and the lines of a stream -/

/-- `linebuf` over the reads of `handle_conn`: the lines that are popped, and what is left. -/
def readChunks (linebuf : List Byte) : List (List Byte) → List (List Byte) × List Byte
  | [] => ([], linebuf)
  | c :: cs =>
    let (lines, left) := popLines (linebuf ++ c)
    let (more, left) := readChunks left cs
    (lines ++ more, left)

/-- Those that `handle_conn` looks at: an empty line is skipped. -/
def linesRead (chunks : List (List Byte)) : List Bytes :=
  ((readChunks [] chunks).1.filter (· ≠ [])).map values

/-- Reads that bring the stream; each of them brings something. -/
def Chunked (s : List Byte) (chunks : List (List Byte)) : Prop :=
  chunks.flatten = s ∧ ∀ c ∈ chunks, c ≠ []

/-- The lines of a stream, each ended by `\n`, `\r`, `\r\n` or `\r\0`, and what follows the last. -/
inductive LinesOf : List Byte → List (List Byte) → List Byte → Prop where
  | rest {s} (h : ∀ b ∈ s, isEol b = false) : LinesOf s [] s
  | one {line e s lines left} (h : ∀ b ∈ line, isEol b = false) (he : isEol e = true)
      (hlone : e.val = CR → ∀ b ∈ s.head?, b.val ≠ NL ∧ b.val ≠ 0) (more : LinesOf s lines left) :
      LinesOf (line ++ e :: s) (line :: lines) left
  | two {line e b s lines left} (h : ∀ b ∈ line, isEol b = false) (he : e.val = CR)
      (hb : b.val = NL ∨ b.val = 0) (more : LinesOf s lines left) :
      LinesOf (line ++ e :: b :: s) (line :: lines) left

/-- A null follows a `\r`, and later a line ends. -/
def HasCrNul (s : List Byte) : Prop :=
  ∃ u e b v, s = u ++ e :: b :: v ∧ e.val = CR ∧ b.val = 0 ∧ v.any isEol = true

/-- A read ends with a `\r` and the next begins with a null, and later a line ends. -/
def SplitsCrNul (chunks : List (List Byte)) : Prop :=
  ∃ before u e b v after, chunks = before ++ (u ++ [e]) :: (b :: v) :: after
    ∧ e.val = CR ∧ b.val = 0 ∧ (v ++ after.flatten).any isEol = true

theorem isEol_of_cr {e : Byte} (h : e.val = CR) : isEol e = true := decide_eq_true (.inr h)

theorem isEol_of_nul {b : Byte} (h : b.val = 0) : isEol b = false := by
  simp [isEol, h, NL, CR]

/-! ## One line -/

theorem tryPopLine_eq {line : List Byte} {e : Byte} (h : ∀ b ∈ line, isEol b = false)
    (he : isEol e = true) (tail : List Byte) :
    tryPopLine (line ++ e :: tail) = some (line, dropEol e tail) := by
  have hp : ∀ b ∈ line, (!isEol b) = true := fun b hb => by rw [h b hb]; rfl
  have hdrop : (line ++ e :: tail).dropWhile (fun b => !isEol b) = e :: tail := by
    rw [List.dropWhile_append_of_pos hp, List.dropWhile_cons_of_neg (by simp [he])]
  have htake : (line ++ e :: tail).takeWhile (fun b => !isEol b) = line := by
    rw [List.takeWhile_append_of_pos hp, List.takeWhile_cons_of_neg (by simp [he]), List.append_nil]
  rw [tryPopLine, hdrop, trimCr_takeWhile, htake]

theorem tryPopLine_eq_none {buf : List Byte} (h : ∀ b ∈ buf, isEol b = false) : tryPopLine buf = none := by
  have hdrop : buf.dropWhile (fun b => !isEol b) = [] :=
    List.dropWhile_eq_nil_iff.mpr fun b hb => by rw [h b hb]; rfl
  rw [tryPopLine, hdrop]

/-- A buffer holds no end of line, or is cut at its first. -/
theorem cut_first (buf : List Byte) : (∀ b ∈ buf, isEol b = false) ∨
    ∃ line e tail, buf = line ++ e :: tail ∧ (∀ b ∈ line, isEol b = false) ∧ isEol e = true := by
  induction buf with
  | nil => exact .inl fun b hb => absurd hb List.not_mem_nil
  | cons x buf ih =>
    cases hx : isEol x with
    | true => exact .inr ⟨[], x, buf, rfl, fun b hb => absurd hb List.not_mem_nil, hx⟩
    | false =>
      rcases ih with hall | ⟨line, e, tail, rfl, hline, he⟩
      · exact .inl (List.forall_mem_cons.mpr ⟨hx, hall⟩)
      · exact .inr ⟨x :: line, e, tail, rfl, List.forall_mem_cons.mpr ⟨hx, hline⟩, he⟩

theorem popLines_line {line : List Byte} {e : Byte} (h : ∀ b ∈ line, isEol b = false)
    (he : isEol e = true) (tail : List Byte) :
    popLines (line ++ e :: tail)
      = (line :: (popLines (dropEol e tail)).1, (popLines (dropEol e tail)).2) := by
  rw [popLines_eq, tryPopLine_eq h he]

theorem popLines_rest {buf : List Byte} (h : ∀ b ∈ buf, isEol b = false) : popLines buf = ([], buf) := by
  rw [popLines_eq, tryPopLine_eq_none h]

/-- **A stream that comes in one read is cut into its lines.** -/
theorem linesOf_popLines (s : List Byte) : LinesOf s (popLines s).1 (popLines s).2 := by
  induction hn : s.length using Nat.strongRecOn generalizing s with
  | ind n ih =>
    rcases cut_first s with hall | ⟨line, e, tail, rfl, hline, he⟩
    · rw [popLines_rest hall]
      exact .rest hall
    · rw [popLines_line hline he]
      simp only [List.length_append, List.length_cons] at hn
      cases tail with
      | nil => exact .one hline he (by simp) (ih 0 (by omega) [] rfl)
      | cons b tail =>
        rw [List.length_cons] at hn
        by_cases hdrop : e.val = CR ∧ (b.val = NL ∨ b.val = 0)
        · rw [dropEol, if_pos hdrop]
          exact .two hline hdrop.1 hdrop.2 (ih tail.length (by omega) tail rfl)
        · rw [dropEol, if_neg hdrop]
          refine .one hline he (fun hcr b' hb' => ?_) (ih (tail.length + 1) (by omega) (b :: tail) rfl)
          rw [List.head?_cons, Option.mem_some_iff] at hb'
          subst hb'
          exact not_or.mp fun hb => hdrop ⟨hcr, hb⟩

/-- **The lines of a stream are determined.** -/
theorem LinesOf.eq_popLines {s left : List Byte} {lines : List (List Byte)} (h : LinesOf s lines left) :
    popLines s = (lines, left) := by
  induction h with
  | rest h => exact popLines_rest h
  | @one line e s lines left h he hlone more ih =>
    rw [popLines_line h he]
    have hdrop : dropEol e s = s := by
      cases s with
      | nil => rfl
      | cons b s =>
        refine if_neg ?_
        rintro ⟨hcr, hb⟩
        have hnot := hlone hcr b rfl
        rcases hb with hb | hb
        · exact hnot.1 hb
        · exact hnot.2 hb
    rw [hdrop, ih]
  | two h he hb more ih =>
    rw [popLines_line h (isEol_of_cr he), dropEol, if_pos ⟨he, hb⟩, ih]

/-! ## Lines byte by byte -/

/-- The bytes of a read that make lines, when a `\r` of the same read came just before or not. -/
def dropNuls : Bool → List Byte → List Byte
  | _, [] => []
  | cr, b :: bs => if cr = true ∧ b.val = 0 then dropNuls false bs else b :: dropNuls (b.val = CR) bs

/-- Whether a `\r` came last. -/
def afterCr : Bool → List Byte → Bool
  | cr, [] => cr
  | _, b :: bs => afterCr (b.val = CR) bs

/-- The lines that are not empty, when `cur` has been read of the first. -/
def cutLines (cur : List Byte) : List Byte → List (List Byte)
  | [] => []
  | b :: bs =>
    if isEol b then (if cur = [] then [] else [cur]) ++ cutLines [] bs else cutLines (cur ++ [b]) bs

def cutLeft (cur : List Byte) : List Byte → List Byte
  | [] => cur
  | b :: bs => if isEol b then cutLeft [] bs else cutLeft (cur ++ [b]) bs

theorem dropNuls_append (cr : Bool) (x y : List Byte) :
    dropNuls cr (x ++ y) = dropNuls cr x ++ dropNuls (afterCr cr x) y := by
  induction x generalizing cr with
  | nil => rfl
  | cons b x ih =>
    rw [List.cons_append, dropNuls, dropNuls, afterCr]
    split
    · next hb =>
      -- a null is no `\r`
      have hcr : decide (b.val = CR) = false := by rw [hb.2]; rfl
      rw [hcr, ih]
    · rw [ih, List.cons_append]

theorem any_dropNuls (cr : Bool) (x : List Byte) : (dropNuls cr x).any isEol = x.any isEol := by
  induction x generalizing cr with
  | nil => rfl
  | cons b x ih =>
    rw [dropNuls, List.any_cons]
    split
    · next hb => rw [ih, isEol_of_nul hb.2, Bool.false_or]
    · rw [List.any_cons, ih]

theorem dropNuls_no_eol {x : List Byte} (h : ∀ b ∈ x, isEol b = false) :
    dropNuls false x = x ∧ afterCr false x = false := by
  induction x with
  | nil => exact ⟨rfl, rfl⟩
  | cons b x ih =>
    have hb : decide (b.val = CR) = false := by
      refine decide_eq_false fun hcr => ?_
      have hno := h b List.mem_cons_self
      rw [isEol_of_cr hcr] at hno
      cases hno
    obtain ⟨hdrop, hafter⟩ := ih fun b' hb' => h b' (List.mem_cons_of_mem _ hb')
    rw [dropNuls, if_neg (by simp), afterCr, hb, hdrop, hafter]
    exact ⟨rfl, rfl⟩

theorem cutLines_append (cur x y : List Byte) :
    cutLines cur (x ++ y) = cutLines cur x ++ cutLines (cutLeft cur x) y := by
  induction x generalizing cur with
  | nil => rfl
  | cons b x ih =>
    rw [List.cons_append, cutLines, cutLines, cutLeft]
    split
    · rw [ih, List.append_assoc]
    · exact ih _

theorem cutLeft_append (cur x y : List Byte) : cutLeft cur (x ++ y) = cutLeft (cutLeft cur x) y := by
  induction x generalizing cur with
  | nil => rfl
  | cons b x ih =>
    rw [List.cons_append, cutLeft, cutLeft]
    split
    · exact ih _
    · exact ih _

theorem cut_no_eol {x : List Byte} (h : ∀ b ∈ x, isEol b = false) (cur : List Byte) :
    cutLines cur x = [] ∧ cutLeft cur x = cur ++ x := by
  induction x generalizing cur with
  | nil => exact ⟨rfl, (List.append_nil _).symm⟩
  | cons b x ih =>
    obtain ⟨hlines, hleft⟩ := ih (fun b' hb' => h b' (List.mem_cons_of_mem _ hb')) (cur ++ [b])
    rw [cutLines, cutLeft, h b List.mem_cons_self]
    exact ⟨hlines, by simpa using hleft⟩

theorem cutLeft_no_eol (cur x : List Byte) (h : ∀ b ∈ cur, isEol b = false) :
    ∀ b ∈ cutLeft cur x, isEol b = false := by
  induction x generalizing cur with
  | nil => exact h
  | cons b x ih =>
    rw [cutLeft]
    split
    · exact ih [] fun b hb => absurd hb List.not_mem_nil
    · next hb =>
      refine ih (cur ++ [b]) fun b' hb' => ?_
      rcases List.mem_append.mp hb' with hb' | hb'
      · exact h b' hb'
      · rw [List.mem_singleton.mp hb']
        simpa using hb

theorem cutLines_line {line : List Byte} {e : Byte} (h : ∀ b ∈ line, isEol b = false)
    (he : isEol e = true) (x : List Byte) :
    cutLines [] (line ++ e :: x) = (if line = [] then [] else [line]) ++ cutLines [] x
      ∧ cutLeft [] (line ++ e :: x) = cutLeft [] x := by
  obtain ⟨hlines, hleft⟩ := cut_no_eol h []
  rw [cutLines_append, cutLeft_append, hlines, hleft, cutLines, cutLeft, if_pos he, if_pos he]
  exact ⟨rfl, rfl⟩

/-- What follows an end of line is read the same with or without what the end takes with it. -/
theorem cut_dropEol (e : Byte) (tail : List Byte) :
    cutLines [] (dropNuls (e.val = CR) tail) = cutLines [] (dropNuls false (dropEol e tail))
      ∧ cutLeft [] (dropNuls (e.val = CR) tail) = cutLeft [] (dropNuls false (dropEol e tail)) := by
  cases tail with
  | nil => exact ⟨rfl, rfl⟩
  | cons b tail =>
    by_cases hcr : e.val = CR
    · by_cases hnul : b.val = 0
      · rw [dropEol, if_pos ⟨hcr, .inr hnul⟩, dropNuls, if_pos ⟨decide_eq_true hcr, hnul⟩]
        exact ⟨rfl, rfl⟩
      · rw [dropNuls, if_neg fun h => hnul h.2]
        by_cases hnl : b.val = NL
        · have hb : isEol b = true := decide_eq_true (.inl hnl)
          have hbcr : decide (b.val = CR) = false := by rw [hnl]; rfl
          rw [dropEol, if_pos ⟨hcr, .inl hnl⟩, hbcr, cutLines, cutLeft, if_pos hb, if_pos hb]
          exact ⟨rfl, rfl⟩
        · rw [dropEol, if_neg fun h => h.2.elim hnl hnul, dropNuls, if_neg (by simp)]
          exact ⟨rfl, rfl⟩
    · rw [dropEol, if_neg fun h => hcr h.1, decide_eq_false hcr]
      exact ⟨rfl, rfl⟩

/-- **The lines of one read.** -/
theorem popLines_eq_cut (buf : List Byte) :
    (popLines buf).1.filter (· ≠ []) = cutLines [] (dropNuls false buf)
      ∧ (popLines buf).2 = cutLeft [] (dropNuls false buf) := by
  induction hn : buf.length using Nat.strongRecOn generalizing buf with
  | ind n ih =>
    rcases cut_first buf with hall | ⟨line, e, tail, rfl, hline, he⟩
    · obtain ⟨hlines, hleft⟩ := cut_no_eol hall []
      rw [popLines_rest hall, (dropNuls_no_eol hall).1, hlines, hleft]
      exact ⟨rfl, rfl⟩
    · simp only [List.length_append, List.length_cons] at hn
      have hshort := (dropEol_suffix e tail).length_le
      obtain ⟨ihlines, ihleft⟩ := ih _ (by omega) (dropEol e tail) rfl
      have hafter := (dropNuls_no_eol hline).2
      rw [popLines_line hline he, dropNuls_append, hafter, (dropNuls_no_eol hline).1, dropNuls,
        if_neg (by simp)]
      obtain ⟨hlines, hleft⟩ := cutLines_line hline he (dropNuls (e.val = CR) tail)
      rw [hlines, hleft, (cut_dropEol e tail).1, (cut_dropEol e tail).2, ← ihlines, ← ihleft]
      refine ⟨?_, rfl⟩
      rw [List.filter_cons]
      cases line <;> rfl

/-- **The lines of any reads**: each read drops the nulls after its own `\r`. -/
theorem readChunks_eq_cut {buf : List Byte} (h : ∀ b ∈ buf, isEol b = false) (chunks : List (List Byte)) :
    (readChunks buf chunks).1.filter (· ≠ []) = cutLines buf (chunks.flatMap (dropNuls false)) := by
  induction chunks generalizing buf with
  | nil => rfl
  | cons c cs ih =>
    obtain ⟨hlines, hleft⟩ := popLines_eq_cut (buf ++ c)
    obtain ⟨hbuf, hafter⟩ := dropNuls_no_eol h
    obtain ⟨hnone, hall⟩ := cut_no_eol h []
    rw [dropNuls_append, hbuf, hafter] at hlines hleft
    rw [cutLines_append, hnone, hall, List.nil_append] at hlines
    rw [cutLeft_append, hall, List.nil_append] at hleft
    rw [readChunks, List.filter_append, hlines, hleft, ih (cutLeft_no_eol buf _ h), List.flatMap_cons,
      cutLines_append, List.nil_append]

/-! ## The nulls that stay -/

/-- How many nulls stay in the lines because their `\r` came in the read before. -/
def nulsKept : Bool → List (List Byte) → Nat
  | _, [] => 0
  | cr, c :: cs =>
    (if cr = true ∧ (∃ b ∈ c.head?, b.val = 0) ∧ (c ++ cs.flatten).any isEol = true then 1 else 0)
      + nulsKept (afterCr cr c) cs

/-- The bytes of the lines: those with an end of line after them. -/
def held : List Byte → Nat
  | [] => 0
  | b :: bs => (if isEol b = false ∧ bs.any isEol = true then 1 else 0) + held bs

theorem length_cutLines (cur x : List Byte) :
    ((cutLines cur x).map List.length).sum = (if x.any isEol then cur.length else 0) + held x := by
  induction x generalizing cur with
  | nil => rfl
  | cons b x ih =>
    rw [cutLines, held, List.any_cons]
    cases hb : isEol b with
    | true =>
      have hcur : ((if cur = [] then [] else [cur]).map List.length).sum = cur.length := by
        cases cur <;> simp
      rw [if_pos rfl, List.map_append, List.sum_append, hcur, ih]
      simp
    | false =>
      rw [if_neg (by simp), ih]
      cases x.any isEol
      · simp
      · simp only [if_true, List.length_append, List.length_singleton]
        simp
        omega

theorem held_append (x y : List Byte) :
    held (x ++ y) = (if y.any isEol then x.countP (fun b => !isEol b) else held x) + held y := by
  induction x with
  | nil => simp [held]
  | cons b x ih =>
    rw [List.cons_append, held, ih, List.any_append, List.countP_cons, held]
    cases y.any isEol <;> cases isEol b <;> simp <;> omega

theorem any_reads (chunks : List (List Byte)) :
    (chunks.flatMap (dropNuls false)).any isEol = chunks.flatten.any isEol := by
  induction chunks with
  | nil => rfl
  | cons c cs ih => rw [List.flatMap_cons, List.flatten_cons, List.any_append, List.any_append, any_dropNuls, ih]

/-- A read loses the null at its head only if it knows of the `\r` before it. -/
theorem dropNuls_head (cr : Bool) (c : List Byte) :
    (cr = true ∧ (∃ b ∈ c.head?, b.val = 0) ∧ ∃ b, dropNuls false c = b :: dropNuls cr c ∧ isEol b = false)
      ∨ (¬ (cr = true ∧ ∃ b ∈ c.head?, b.val = 0) ∧ dropNuls false c = dropNuls cr c) := by
  cases c with
  | nil => exact .inr ⟨by simp, rfl⟩
  | cons b c =>
    by_cases h : cr = true ∧ b.val = 0
    · have hcr : decide (b.val = CR) = false := by rw [h.2]; rfl
      refine .inl ⟨h.1, ⟨b, rfl, h.2⟩, b, ?_, isEol_of_nul h.2⟩
      rw [dropNuls, dropNuls, if_pos h, if_neg (by simp), hcr]
    · refine .inr ⟨by simpa using h, ?_⟩
      rw [dropNuls, dropNuls, if_neg h, if_neg (by simp)]

theorem held_reads (cr : Bool) (chunks : List (List Byte)) :
    held (chunks.flatMap (dropNuls false)) = held (dropNuls cr chunks.flatten) + nulsKept cr chunks := by
  induction chunks generalizing cr with
  | nil => rfl
  | cons c cs ih =>
    have hany : (dropNuls (afterCr cr c) cs.flatten).any isEol = (cs.flatMap (dropNuls false)).any isEol := by
      rw [any_dropNuls, any_reads]
    have hrest := ih (afterCr cr c)
    rw [List.flatMap_cons, List.flatten_cons, dropNuls_append, nulsKept]
    rcases dropNuls_head cr c with ⟨hcr, hnul, b, hdrop, hb⟩ | ⟨hno, hdrop⟩
    · have hmore : (dropNuls cr c ++ cs.flatMap (dropNuls false)).any isEol = (c ++ cs.flatten).any isEol := by
        rw [List.any_append, List.any_append, any_dropNuls, any_reads]
      subst hcr
      rw [hdrop, List.cons_append, held, held_append, held_append, hmore, hany]
      simp only [hb, hnul, true_and]
      omega
    · have hno' : ¬ (cr = true ∧ (∃ b ∈ c.head?, b.val = 0) ∧ (c ++ cs.flatten).any isEol = true) :=
        fun h => hno ⟨h.1, h.2.1⟩
      rw [hdrop, held_append, held_append, hany, if_neg hno']
      omega

/-- Where no null stays, the reads do not matter. -/
theorem cutLines_reads {cr : Bool} {chunks : List (List Byte)} (h : nulsKept cr chunks = 0)
    (cur : List Byte) :
    cutLines cur (chunks.flatMap (dropNuls false)) = cutLines cur (dropNuls cr chunks.flatten) := by
  induction chunks generalizing cr cur with
  | nil => rfl
  | cons c cs ih =>
    rw [nulsKept, Nat.add_eq_zero_iff] at h
    obtain ⟨hhead, hrest⟩ := h
    by_cases hany : (c ++ cs.flatten).any isEol = true
    · rcases dropNuls_head cr c with ⟨hcr, hnul, -⟩ | ⟨-, hdrop⟩
      · rw [if_pos ⟨hcr, hnul, hany⟩] at hhead
        omega
      · rw [List.flatMap_cons, List.flatten_cons, dropNuls_append, hdrop, cutLines_append, cutLines_append,
          ih hrest]
    · -- no line ends any more
      have hnone : ∀ x : List Byte, x.any isEol = (c ++ cs.flatten).any isEol → cutLines cur x = [] := by
        intro x hx
        refine (cut_no_eol (fun b hb => ?_) cur).1
        rw [Bool.eq_false_iff.mpr hany, List.any_eq_false] at hx
        simpa using hx b hb
      rw [hnone _ (any_reads (c :: cs)), hnone _ (any_dropNuls cr (c :: cs).flatten)]

theorem afterCr_eq {cr : Bool} {c : List Byte} (h : c ≠ []) :
    afterCr cr c = true ↔ ∃ u e, c = u ++ [e] ∧ e.val = CR := by
  induction c generalizing cr with
  | nil => exact absurd rfl h
  | cons b c ih =>
    rw [afterCr]
    cases c with
    | nil =>
      rw [afterCr, decide_eq_true_iff]
      constructor
      · exact fun hb => ⟨[], b, rfl, hb⟩
      · rintro ⟨u, e, hu, he⟩
        cases u with
        | nil =>
          obtain ⟨rfl, -⟩ := List.cons.inj hu
          exact he
        | cons b' u => simp at hu
    | cons b' c =>
      rw [ih (List.cons_ne_nil _ _)]
      constructor
      · rintro ⟨u, e, hu, he⟩
        exact ⟨b :: u, e, by rw [hu, List.cons_append], he⟩
      · rintro ⟨u, e, hu, he⟩
        cases u with
        | nil => simp at hu
        | cons b'' u =>
          rw [List.cons_append, List.cons.injEq] at hu
          exact ⟨u, e, hu.2, he⟩

/-- A null stays exactly where a read begins with it. -/
theorem nulsKept_pos {cr : Bool} {chunks : List (List Byte)} (h : ∀ c ∈ chunks, c ≠ []) :
    0 < nulsKept cr chunks ↔ SplitsCrNul chunks ∨
      (cr = true ∧ ∃ b v after, chunks = (b :: v) :: after ∧ b.val = 0 ∧ (v ++ after.flatten).any isEol = true) := by
  induction chunks generalizing cr with
  | nil => simp [nulsKept, SplitsCrNul]
  | cons c cs ih =>
    rw [nulsKept, Nat.add_pos_iff_pos_or_pos, ih fun c' hc' => h c' (List.mem_cons_of_mem _ hc'),
      afterCr_eq (h c List.mem_cons_self)]
    constructor
    · rintro (hhead | ⟨before, u, e, b, v, after, rfl, hebv⟩ | ⟨⟨u, e, rfl, he⟩, b, v, after, rfl, hbv⟩)
      · split at hhead
        · next hall =>
          obtain ⟨hcr, ⟨b, hb, hnul⟩, hany⟩ := hall
          obtain ⟨v, rfl⟩ := List.head?_eq_some_iff.mp hb
          refine .inr ⟨hcr, b, v, cs, rfl, hnul, ?_⟩
          rwa [List.cons_append, List.any_cons, isEol_of_nul hnul, Bool.false_or] at hany
        · omega
      · exact .inl ⟨c :: before, u, e, b, v, after, rfl, hebv⟩
      · exact .inl ⟨[], u, e, b, v, after, rfl, he, hbv⟩
    · rintro (⟨before, u, e, b, v, after, hsplit, he, hbv⟩ | ⟨hcr, b, v, after, hsplit, hnul, hany⟩)
      · cases before with
        | nil =>
          obtain ⟨rfl, rfl⟩ := List.cons.inj hsplit
          exact .inr (.inr ⟨⟨u, e, rfl, he⟩, b, v, after, rfl, hbv⟩)
        | cons c' before =>
          obtain ⟨rfl, rfl⟩ := List.cons.inj hsplit
          exact .inr (.inl ⟨before, u, e, b, v, after, rfl, he, hbv⟩)
      · obtain ⟨rfl, rfl⟩ := List.cons.inj hsplit
        refine .inl ?_
        rw [if_pos ⟨hcr, ⟨b, rfl, hnul⟩, by rw [List.cons_append, List.any_cons, hany, Bool.or_true]⟩]
        exact Nat.one_pos

theorem linesRead_eq (chunks : List (List Byte)) :
    linesRead chunks = (cutLines [] (chunks.flatMap (dropNuls false))).map values := by
  rw [linesRead, readChunks_eq_cut fun b hb => absurd hb List.not_mem_nil]

/-- **The reads matter exactly if one splits `\r\0`.** -/
theorem linesRead_iff {s : List Byte} {chunks : List (List Byte)} (h : Chunked s chunks) :
    linesRead chunks = ((popLines s).1.filter (· ≠ [])).map values ↔ ¬ SplitsCrNul chunks := by
  obtain ⟨rfl, hne⟩ := h
  have hkept : nulsKept false chunks = 0 ↔ ¬ SplitsCrNul chunks := by
    have hpos : 0 < nulsKept false chunks ↔ SplitsCrNul chunks := by
      rw [nulsKept_pos hne]
      simp
    rw [← hpos]
    omega
  rw [linesRead_eq, (popLines_eq_cut chunks.flatten).1, ← hkept]
  constructor
  · intro heq
    have hlen := congrArg (fun ls : List Bytes => (ls.map List.length).sum) heq
    have hvalues : ∀ ls : List (List Byte), ((ls.map values).map List.length).sum = (ls.map List.length).sum := by
      intro ls
      rw [List.map_map]
      congr 1
      exact List.map_congr_left fun l _ => List.length_map ..
    simp only [hvalues, length_cutLines, List.length_nil, ite_self, Nat.zero_add] at hlen
    have hheld := held_reads false chunks
    omega
  · intro hzero
    rw [cutLines_reads hzero]

theorem hasCrNul_of_splits {s : List Byte} {chunks : List (List Byte)} (h : Chunked s chunks)
    (hsplit : SplitsCrNul chunks) : HasCrNul s := by
  obtain ⟨before, u, e, b, v, after, rfl, he, hb, hany⟩ := hsplit
  refine ⟨before.flatten ++ u, e, b, v ++ after.flatten, ?_, he, hb, hany⟩
  rw [← h.1]
  simp

theorem chunked_whole {s : List Byte} (h : s ≠ []) : Chunked s [s] :=
  ⟨List.append_nil s, fun c hc => by rwa [List.mem_singleton.mp hc]⟩

/-- **The lines do not depend on the reads exactly if no line ends after a `\r\0`.** Those of any
reads are those of the stream exactly if no `\r` is the last of its read, a null the first of the next,
and a line ends after it. -/
theorem lines_do_not_depend_on_reads_iff (s : List Byte) :
    ((∀ chunks chunks', Chunked s chunks → Chunked s chunks' → linesRead chunks = linesRead chunks')
        ↔ ¬ HasCrNul s)
      ∧ (∃ lines left, LinesOf s lines left)
      ∧ ∀ chunks lines left, Chunked s chunks → LinesOf s lines left →
        (linesRead chunks = (lines.filter (· ≠ [])).map values ↔ ¬ SplitsCrNul chunks) := by
  refine ⟨⟨?_, ?_⟩, ⟨_, _, linesOf_popLines s⟩, ?_⟩
  · rintro hall ⟨u, e, b, v, rfl, he, hb, hany⟩
    have hcut : Chunked (u ++ e :: b :: v) [u ++ [e], b :: v] := by
      refine ⟨by simp, fun c hc => ?_⟩
      rcases List.mem_cons.mp hc with rfl | hc
      · simp
      · rw [List.mem_singleton.mp hc]
        exact List.cons_ne_nil _ _
    have hwhole := chunked_whole (s := u ++ e :: b :: v) (by simp)
    have hsplit : SplitsCrNul [u ++ [e], b :: v] :=
      ⟨[], u, e, b, v, [], rfl, he, hb, by rwa [List.flatten_nil, List.append_nil]⟩
    refine (linesRead_iff hcut).mp ?_ hsplit
    rw [hall _ _ hcut hwhole, (linesRead_iff hwhole).mpr]
    rintro ⟨before, u', e', b', v', after, hone, -⟩
    have hlen := congrArg List.length hone
    simp at hlen
    omega
  · intro hno chunks chunks' h h'
    rw [(linesRead_iff h).mpr fun hsplit => hno (hasCrNul_of_splits h hsplit),
      (linesRead_iff h').mpr fun hsplit => hno (hasCrNul_of_splits h' hsplit)]
  · intro chunks lines left h hlines
    rw [← linesRead_iff h, hlines.eq_popLines]

/-- `a\r`, and then a null and `b\n`: the second line begins with the null. -/
theorem lines_depend_on_reads :
    ¬ ∀ s chunks chunks', Chunked s chunks → Chunked s chunks' → linesRead chunks = linesRead chunks' := by
  intro hall
  have hsame := hall (tagged .client [97, 13, 0, 98, 10]) [tagged .client [97, 13], tagged .client [0, 98, 10]]
    [tagged .client [97, 13, 0, 98, 10]] ⟨rfl, by decide⟩ (chunked_whole (by decide))
  revert hsame
  decide

end Slopmud.Broker
