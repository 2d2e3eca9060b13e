import Slopmud.Broker.LogText

/-!
# Log lines cannot be forged

Both copies of `logfmt_str` write the same texts, and what they write reads back: the value
of a field ends at its closing quote whatever is in it, so an entry has exactly the fields
that it was given. No control character is left in it, so in a file of entries every line is
one of them.
-/

namespace Slopmud.Broker

open Slopmud.Web (isControl hex4)

/-! ## One quoting -/

theorem logfmtChar_eq_web (c : Char) : logfmtChar c = Web.logfmtChar c := by
  unfold logfmtChar Web.logfmtChar
  split
  · rfl
  · rfl
  · rfl
  · rfl
  · rfl
  · next hbackslash hquote hnewline hreturn htab =>
    rw [if_neg hbackslash, if_neg hquote, if_neg hnewline, if_neg hreturn, if_neg htab]
    rfl

/-- The two copies of `logfmt_str`. -/
theorem logfmtStr_eq_web (s : Text) : logfmtStr s = Web.logfmtStr s := by
  rw [logfmtStr, Web.logfmtStr, funext logfmtChar_eq_web]

/-! ## No control character -/

theorem hex4_clean : ∀ n < 160, isControl (Char.ofNat n) = true →
    ∀ d ∈ hex4 n, isControl d = false := by
  have hall : ∀ n < 160, isControl (Char.ofNat n) = true →
      (hex4 n).all (fun d => !isControl d) = true := by decide +kernel
  intro n hn hc d hd
  simpa using List.all_eq_true.mp (hall n hn hc) d hd

theorem logfmtChar_clean (c : Char) : ∀ d ∈ logfmtChar c, isControl d = false := by
  unfold logfmtChar
  split
  · simp [isControl]
  · simp [isControl]
  · simp [isControl]
  · simp [isControl]
  · simp [isControl]
  · split
    · next hc =>
      have hlt : c.toNat < 160 := by
        simp only [isControl, Bool.or_eq_true, Bool.and_eq_true, decide_eq_true_eq] at hc
        omega
      have hof : Char.ofNat c.toNat = c := Char.ofNat_toNat c
      have hhex := hex4_clean c.toNat hlt (by rw [hof]; exact hc)
      have hb : isControl '\\' = false := rfl
      have hu : isControl 'u' = false := rfl
      simpa [hb, hu] using hhex
    · next hc => simpa using hc

theorem logfmtStr_clean (v : Text) : ∀ d ∈ logfmtStr v, isControl d = false := by
  intro d hd
  have hquote : isControl '"' = false := rfl
  simp only [logfmtStr, List.cons_append, List.mem_cons, List.mem_append, List.mem_flatMap,
    List.not_mem_nil, or_false] at hd
  rcases hd with rfl | ⟨c, -, hc⟩ | rfl
  · exact hquote
  · exact logfmtChar_clean c d hc
  · exact hquote

/-! ## Entries -/

/-- A field as the reader's library has it. -/
def LogField.item (f : LogField) : Logfmt.Item := ⟨f.key.text, f.value, false⟩

theorem logEntry_eq (fields : List LogField) :
    logEntry logfmtStr fields = Logfmt.entry logfmtQuoting (fields.map LogField.item) := by
  rw [logEntry, Logfmt.entry, List.map_map]
  rfl

theorem LogKey.noEquals (k : LogKey) : '=' ∉ k.text := by
  intro h
  rcases k.ok '=' h with h | h
  · revert h; decide
  · revert h; decide

theorem LogKey.clean (k : LogKey) : ∀ c ∈ k.text, isControl c = false := by
  intro c hc
  rcases k.ok c hc with h | rfl
  · simp only [Text.isAsciiLowercase, Bool.and_eq_true, decide_eq_true_eq, Char.le_def,
      UInt32.le_iff_toNat_le] at h
    have hlo : 97 ≤ c.toNat := h.1
    have hhi : c.toNat ≤ 122 := h.2
    simp only [isControl, Bool.or_eq_false_iff, Bool.and_eq_false_iff, decide_eq_false_iff_not]
    omega
  · rfl

theorem LogField.item_ok (f : LogField) : f.item.Ok logfmtQuoting where
  key := f.key.noEquals
  word := by intro h; cases h

theorem LogField.pair_injective : Function.Injective LogField.pair := by
  rintro ⟨⟨k, hk⟩, v⟩ ⟨⟨k', hk'⟩, v'⟩ h
  cases h
  rfl

/-- An entry reads back as its fields. -/
theorem readEntry_logEntry (fields : List LogField) :
    Logfmt.readEntry logfmtQuoting (logEntry logfmtStr fields) = some (fields.map LogField.pair) := by
  have hok : ∀ it ∈ fields.map LogField.item, it.Ok logfmtQuoting := by
    intro it hit
    obtain ⟨f, -, rfl⟩ := List.mem_map.mp hit
    exact f.item_ok
  have hblank : logfmtQuoting.quote ≠ ' ' := by decide
  rw [logEntry_eq, Logfmt.readEntry_entry hok hblank, List.map_map]
  rfl

theorem logEntry_clean (fields : List LogField) :
    ∀ c ∈ logEntry logfmtStr fields, isControl c = false := by
  intro c hc
  rw [logEntry_eq] at hc
  rcases Logfmt.mem_entry hc with rfl | ⟨it, hit, hc⟩
  · rfl
  · obtain ⟨f, -, rfl⟩ := List.mem_map.mp hit
    have hprint : c ∈ f.key.text ++ '=' :: logfmtStr f.value := hc
    rw [List.mem_append, List.mem_cons] at hprint
    rcases hprint with h | rfl | h
    · exact f.key.clean c h
    · rfl
    · exact logfmtStr_clean f.value c h

theorem isLine_of_clean {s : Text} (h : ∀ c ∈ s, isControl c = false) :
    Lines.IsLine '\n' '\r' s := by
  have hnewline : isControl '\n' = true := rfl
  have hreturn : isControl '\r' = true := rfl
  refine ⟨fun hmem => ?_, fun hlast => ?_⟩
  · rw [h _ hmem] at hnewline
    cases hnewline
  · rw [h _ (List.mem_of_getLast? hlast)] at hreturn
    cases hreturn

/-- A log reads back as its entries, none of them cut or joined. -/
theorem readLog_logFile (log : List (List LogField)) :
    readLog (logFile logfmtStr log) = some (log.map (List.map LogField.pair)) := by
  have hlines : ∀ l ∈ log.map (logEntry logfmtStr), Lines.IsLine '\n' '\r' l := by
    intro l hl
    obtain ⟨fields, -, rfl⟩ := List.mem_map.mp hl
    exact isLine_of_clean (logEntry_clean fields)
  rw [readLog, logFile, Lines.lines_unlines hlines]
  induction log with
  | nil => rfl
  | cons fields log ih =>
    have hlog : ∀ l ∈ log.map (logEntry logfmtStr), Lines.IsLine '\n' '\r' l :=
      fun l hl => hlines l (List.mem_cons_of_mem _ hl)
    rw [List.map_cons, List.mapM_cons, readEntry_logEntry, ih hlog]
    rfl

theorem logEntry_injective : Function.Injective (logEntry logfmtStr) := by
  intro fields fields' h
  have hread := readEntry_logEntry fields
  rw [h, readEntry_logEntry] at hread
  exact List.map_injective_iff.mpr LogField.pair_injective (Option.some.inj hread).symm

/-! ## The entry for a typed line -/

/-- A field with a quoted value. -/
def quotedItem (key value : Text) : Logfmt.Item := ⟨key, value, false⟩

/-- The fields of the entry for a typed line; the kind is a bare word. -/
def inputItems (ts sid ip nm line : Text) : List Logfmt.Item :=
  [quotedItem "ts".toList ts, ⟨"kind".toList, "input".toList, true⟩,
    quotedItem "session".toList sid, quotedItem "ip".toList ip, quotedItem "name".toList nm,
    quotedItem "text".toList (redactInputForLogs line)]

theorem print_quotedItem (key value : Text) :
    (quotedItem key value).print logfmtQuoting = key ++ '=' :: logfmtStr value := rfl

theorem quotedItem_ok {key : Text} (h : '=' ∉ key) (value : Text) :
    (quotedItem key value).Ok logfmtQuoting where
  key := h
  word := by intro hbare; cases hbare

/-- How six fields stand in a line. -/
theorem six_fields (k₁ k₂ k₃ k₄ k₅ k₆ v₁ v₂ v₃ v₄ v₅ v₆ : Text) :
    (k₁ ++ ['=']) ++ v₁ ++ (' ' :: (k₂ ++ '=' :: (v₂ ++ ' ' :: (k₃ ++ ['='])))) ++ v₃
        ++ (' ' :: (k₄ ++ ['='])) ++ v₄ ++ (' ' :: (k₅ ++ ['='])) ++ v₅
        ++ (' ' :: (k₆ ++ ['='])) ++ v₆
      = k₁ ++ '=' :: v₁ ++ ' ' :: (k₂ ++ '=' :: v₂ ++ ' ' :: (k₃ ++ '=' :: v₃ ++ ' ' ::
        (k₄ ++ '=' :: v₄ ++ ' ' :: (k₅ ++ '=' :: v₅ ++ ' ' :: (k₆ ++ '=' :: v₆))))) := by
  simp only [List.append_assoc, List.cons_append, List.nil_append]

theorem inputEntry_eq (ts sid ip nm line : Text) :
    inputEntry ts sid ip nm line = Logfmt.entry logfmtQuoting (inputItems ts sid ip nm line) := by
  have hts : "ts=".toList = "ts".toList ++ ['='] := by decide +kernel
  have hkind : " kind=input session=".toList
      = ' ' :: ("kind".toList ++ '=' :: ("input".toList ++ ' ' :: ("session".toList ++ ['=']))) := by
    decide +kernel
  have hip : " ip=".toList = ' ' :: ("ip".toList ++ ['=']) := by decide +kernel
  have hname : " name=".toList = ' ' :: ("name".toList ++ ['=']) := by decide +kernel
  have htext : " text=".toList = ' ' :: ("text".toList ++ ['=']) := by decide +kernel
  have hbare : Logfmt.Item.print logfmtQuoting ⟨"kind".toList, "input".toList, true⟩
      = "kind".toList ++ '=' :: "input".toList := rfl
  simp only [inputItems, Logfmt.entry_cons_cons, Logfmt.entry_singleton, print_quotedItem, hbare]
  unfold inputEntry
  rw [hts, hkind, hip, hname, htext]
  exact six_fields _ _ _ _ _ _ _ _ _ _ _ _

theorem inputItems_ok (ts sid ip nm line : Text) :
    ∀ it ∈ inputItems ts sid ip nm line, it.Ok logfmtQuoting := by
  have hkind : Logfmt.Item.Ok logfmtQuoting ⟨"kind".toList, "input".toList, true⟩ :=
    ⟨by decide, fun _ => by decide⟩
  intro it hit
  simp only [inputItems, List.mem_cons, List.not_mem_nil, or_false] at hit
  rcases hit with rfl | rfl | rfl | rfl | rfl | rfl
  · exact quotedItem_ok (by decide) ts
  · exact hkind
  · exact quotedItem_ok (by decide) sid
  · exact quotedItem_ok (by decide) ip
  · exact quotedItem_ok (by decide) nm
  · exact quotedItem_ok (by decide) (redactInputForLogs line)

/-- Whatever was typed is the value of the last field of its entry. -/
theorem readEntry_inputEntry (ts sid ip nm line : Text) :
    Logfmt.readEntry logfmtQuoting (inputEntry ts sid ip nm line) =
      some [("ts".toList, ts), ("kind".toList, "input".toList), ("session".toList, sid),
        ("ip".toList, ip), ("name".toList, nm), ("text".toList, redactInputForLogs line)] := by
  have hblank : logfmtQuoting.quote ≠ ' ' := by decide
  rw [inputEntry_eq, Logfmt.readEntry_entry (inputItems_ok ts sid ip nm line) hblank]
  rfl

/-- **Log lines cannot be forged**, with either copy of `logfmt_str`: an entry has no control
character, it reads back as its fields, a file of entries reads back as the entries, and
different fields give different entries. The entry for a typed line reads back the same way. -/
theorem log_lines_cannot_be_forged :
    (∀ logfmt ∈ [logfmtStr, Web.logfmtStr],
      (∀ fields, ∀ c ∈ logEntry logfmt fields, isControl c = false) ∧
      (∀ fields, Logfmt.readEntry logfmtQuoting (logEntry logfmt fields)
        = some (fields.map LogField.pair)) ∧
      (∀ log, readLog (logFile logfmt log) = some (log.map (List.map LogField.pair))) ∧
      Function.Injective (logEntry logfmt)) ∧
    ∀ ts sid ip nm line, Logfmt.readEntry logfmtQuoting (inputEntry ts sid ip nm line) =
      some [("ts".toList, ts), ("kind".toList, "input".toList), ("session".toList, sid),
        ("ip".toList, ip), ("name".toList, nm), ("text".toList, redactInputForLogs line)] := by
  refine ⟨fun logfmt hmem => ?_, readEntry_inputEntry⟩
  have hcopy : logfmt = logfmtStr := by
    simp only [List.mem_cons, List.not_mem_nil, or_false] at hmem
    rcases hmem with h | h
    · exact h
    · rw [h, funext logfmtStr_eq_web]
  subst hcopy
  exact ⟨logEntry_clean, readEntry_logEntry, readLog_logFile, logEntry_injective⟩

end Slopmud.Broker
