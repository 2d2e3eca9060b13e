import Slopmud.Lib.Lines
import Slopmud.Lib.Text

/-!
# Lines of quoted fields

An entry is a list of fields `key=value` with single blanks between them. A value stands
between quotes, with what would end it written otherwise, or it is a bare word. How a
character is written between the quotes is a `Quoting`; all that is asked of it is that one
character can be read back, whatever follows, and that the closing quote is not taken for
one.
-/

/-- A way to write characters between quotes. -/
structure Quoting where
  quote : Char
  /-- How a character is written. -/
  put : Char → Text
  /-- The character at the beginning, and the text after it. -/
  get : Text → Option (Char × Text)
  get_put : ∀ c rest, get (put c ++ rest) = some (c, rest)
  get_quote : ∀ rest, get (quote :: rest) = none

namespace Quoting

variable (Q : Quoting)

/-- A text between quotes. -/
def quoted (v : Text) : Text := Q.quote :: v.flatMap Q.put ++ [Q.quote]

/-- Reads up to the closing quote; each character that is read takes one of `fuel`. -/
def unquoteAux : Nat → Text → Option (Text × Text)
  | _, [] => none
  | 0, _ => none
  | fuel + 1, c :: rest =>
    if c = Q.quote then some ([], rest)
    else (Q.get (c :: rest)).bind fun (d, rest') =>
      (unquoteAux fuel rest').map fun (v, left) => (d :: v, left)

/-- The text whose opening quote has been read, and what follows the closing one. -/
def unquote (s : Text) : Option (Text × Text) := Q.unquoteAux s.length s

/-- A written character is never empty and never begins with the quote. -/
theorem put_cons (c : Char) : ∃ d ds, Q.put c = d :: ds ∧ d ≠ Q.quote := by
  have hnone := Q.get_quote
  cases h : Q.put c with
  | nil =>
    have hget := Q.get_put c [Q.quote]
    rw [h, List.nil_append, hnone] at hget
    cases hget
  | cons d ds =>
    refine ⟨d, ds, rfl, ?_⟩
    rintro rfl
    have hget := Q.get_put c []
    rw [h, List.cons_append, hnone] at hget
    cases hget

theorem unquoteAux_quote (fuel : Nat) (rest : Text) :
    Q.unquoteAux (fuel + 1) (Q.quote :: rest) = some ([], rest) := by
  simp [unquoteAux]

theorem unquoteAux_put (fuel : Nat) (c : Char) (rest : Text) :
    Q.unquoteAux (fuel + 1) (Q.put c ++ rest)
      = (Q.unquoteAux fuel rest).map fun (v, left) => (c :: v, left) := by
  obtain ⟨d, ds, hput, hd⟩ := Q.put_cons c
  have hget := Q.get_put c rest
  rw [hput, List.cons_append] at hget
  rw [hput, List.cons_append, unquoteAux, if_neg hd, hget]
  rfl

theorem unquoteAux_body (v rest : Text) {fuel : Nat} (h : v.length < fuel) :
    Q.unquoteAux fuel (v.flatMap Q.put ++ Q.quote :: rest) = some (v, rest) := by
  induction v generalizing fuel with
  | nil =>
    obtain ⟨fuel, rfl⟩ : ∃ n, fuel = n + 1 := ⟨fuel - 1, by grind⟩
    exact Q.unquoteAux_quote fuel rest
  | cons c v ih =>
    obtain ⟨fuel, rfl⟩ : ∃ n, fuel = n + 1 := ⟨fuel - 1, by omega⟩
    have hv : v.length < fuel := by
      rw [List.length_cons] at h
      omega
    rw [List.flatMap_cons, List.append_assoc, unquoteAux_put, ih hv]
    rfl

theorem length_le_body (v : Text) : v.length ≤ (v.flatMap Q.put).length := by
  induction v with
  | nil => exact Nat.le_refl 0
  | cons c v ih =>
    obtain ⟨d, ds, hput, -⟩ := Q.put_cons c
    rw [List.flatMap_cons, List.length_append, hput, List.length_cons, List.length_cons]
    omega

/-- What stands between quotes reads back, whatever follows. -/
theorem unquote_body (v rest : Text) :
    Q.unquote (v.flatMap Q.put ++ Q.quote :: rest) = some (v, rest) := by
  refine Q.unquoteAux_body v rest ?_
  have hle := Q.length_le_body v
  rw [List.length_append, List.length_cons]
  omega

end Quoting

namespace Logfmt

/-- A field, and whether its value is written as a bare word. -/
structure Item where
  key : Text
  value : Text
  bare : Bool
deriving DecidableEq, Repr

variable (Q : Quoting)

def Item.print (it : Item) : Text :=
  it.key ++ '=' :: (if it.bare then it.value else Q.quoted it.value)

/-- An entry: the fields with a blank between them. -/
def entry (items : List Item) : Text := [' '].intercalate (items.map (Item.print Q))

/-- The value at the beginning, and what follows it. -/
def readValue : Text → Option (Text × Text)
  | [] => some ([], [])
  | c :: rest =>
    if c = Q.quote then Q.unquote rest
    else some ((c :: rest).takeWhile (· != ' '), (c :: rest).dropWhile (· != ' '))

/-- The fields of an entry that has at most `fuel` of them. -/
def readAux : Nat → Text → Option (List (Text × Text))
  | 0, _ => none
  | fuel + 1, s =>
    match s.dropWhile (· != '=') with
    | [] => none
    | _ :: rest => do
      let (value, left) ← readValue Q rest
      let field := (s.takeWhile (· != '='), value)
      match left with
      | [] => some [field]
      | c :: left => if c = ' ' then (readAux fuel left).map (field :: ·) else none

/-- The keys and values of an entry. -/
def readEntry (s : Text) : Option (List (Text × Text)) :=
  if s.isEmpty then some [] else readAux Q (s.length + 1) s

/-- A field whose key ends at the equals sign, and whose bare value is a word. -/
structure Item.Ok (it : Item) : Prop where
  key : '=' ∉ it.key
  word : it.bare = true → ' ' ∉ it.value ∧ it.value.head? ≠ some Q.quote

variable {Q}

theorem takeWhile_append {p : Char → Bool} {s rest : Text} (h : ∀ c ∈ s, p c = true)
    (hrest : ∀ c ∈ rest.head?, p c = false) : (s ++ rest).takeWhile p = s := by
  induction s with
  | nil => cases rest with
    | nil => rfl
    | cons c rest => simp [hrest c (by simp)]
  | cons c s ih =>
    have hs : ∀ c ∈ s, p c = true := fun c hc => h c (by simp [hc])
    rw [List.cons_append, List.takeWhile_cons_of_pos (h c (by simp)), ih hs]

theorem dropWhile_append {p : Char → Bool} {s rest : Text} (h : ∀ c ∈ s, p c = true)
    (hrest : ∀ c ∈ rest.head?, p c = false) : (s ++ rest).dropWhile p = rest := by
  induction s with
  | nil => cases rest with
    | nil => rfl
    | cons c rest => simp [hrest c (by simp)]
  | cons c s ih =>
    have hs : ∀ c ∈ s, p c = true := fun c hc => h c (by simp [hc])
    rw [List.cons_append, List.dropWhile_cons_of_pos (h c (by simp)), ih hs]

/-- What may follow a value: nothing, or a blank. -/
def Ends (rest : Text) : Prop := rest.head? = none ∨ rest.head? = some ' '

theorem Ends.head {rest : Text} (h : Ends rest) : ∀ c ∈ rest.head?, (c != ' ') = false := by
  intro c hc
  rcases h with h | h
  · rw [h] at hc; cases hc
  · rw [h] at hc; cases hc; rfl

theorem readValue_quoted (v rest : Text) : readValue Q (Q.quoted v ++ rest) = some (v, rest) := by
  rw [Quoting.quoted, List.append_assoc, List.cons_append, List.singleton_append, readValue,
    if_pos rfl, Q.unquote_body]

theorem readValue_bare {w rest : Text} (hblank : ' ' ∉ w) (hquote : w.head? ≠ some Q.quote)
    (hq : Q.quote ≠ ' ') (hrest : Ends rest) : readValue Q (w ++ rest) = some (w, rest) := by
  have hw : ∀ c ∈ w, (c != ' ') = true := by
    intro c hc
    simp only [bne_iff_ne]
    rintro rfl
    exact hblank hc
  have htake : (w ++ rest).takeWhile (· != ' ') = w := takeWhile_append hw hrest.head
  have hdrop : (w ++ rest).dropWhile (· != ' ') = rest := dropWhile_append hw hrest.head
  cases h : w ++ rest with
  | nil =>
    obtain ⟨rfl, rfl⟩ := List.append_eq_nil_iff.mp h
    rfl
  | cons c s =>
    have hc : c ≠ Q.quote := by
      rintro rfl
      cases w with
      | nil =>
        rw [List.nil_append] at h
        rcases hrest with hr | hr
        · rw [h] at hr; cases hr
        · rw [h] at hr
          exact hq (by simpa using hr)
      | cons d w =>
        rw [List.cons_append] at h
        cases h
        exact hquote rfl
    rw [readValue, if_neg hc, ← h, htake, hdrop]

/-- The value of a field reads back, whatever follows its blank. -/
theorem readAux_print {it : Item} (hok : it.Ok Q) (hq : Q.quote ≠ ' ') (fuel : Nat) {rest : Text}
    (hrest : Ends rest) :
    readAux Q (fuel + 1) (it.print Q ++ rest) =
      if rest.isEmpty then some [(it.key, it.value)]
      else (readAux Q fuel rest.tail).map ((it.key, it.value) :: ·) := by
  have hkey : ∀ c ∈ it.key, (c != '=') = true := by
    intro c hc
    simp only [bne_iff_ne]
    rintro rfl
    exact hok.key hc
  have heq : ∀ v : Text, ∀ c ∈ ('=' :: v).head?, (c != '=') = false := by simp
  have hvalue : readValue Q ((if it.bare then it.value else Q.quoted it.value) ++ rest)
      = some (it.value, rest) := by
    cases hb : it.bare with
    | false => exact readValue_quoted it.value rest
    | true =>
      obtain ⟨hblank, hquote⟩ := hok.word hb
      exact readValue_bare hblank hquote hq hrest
  rw [Item.print, List.append_assoc, List.cons_append, readAux, dropWhile_append hkey (heq _),
    takeWhile_append hkey (heq _)]
  simp only [hvalue, Option.bind_eq_bind, Option.bind_some]
  cases rest with
  | nil => rfl
  | cons c left =>
    have hc : c = ' ' := by
      rcases hrest with h | h
      · cases h
      · simpa using h
    simp [hc]

@[simp] theorem entry_nil : entry Q [] = [] := rfl

theorem entry_singleton (it : Item) : entry Q [it] = it.print Q := by
  simp [entry, List.intercalate]

theorem entry_cons_cons (it jt : Item) (items : List Item) :
    entry Q (it :: jt :: items) = it.print Q ++ ' ' :: entry Q (jt :: items) := by
  simp [entry, List.intercalate]

theorem readAux_entry {items : List Item} (hok : ∀ it ∈ items, it.Ok Q) (hq : Q.quote ≠ ' ')
    (hne : items ≠ []) {fuel : Nat} (hfuel : items.length < fuel + 1) :
    readAux Q fuel (entry Q items) = some (items.map fun it => (it.key, it.value)) := by
  induction items generalizing fuel with
  | nil => exact absurd rfl hne
  | cons it items ih =>
    have hit : it.Ok Q := hok it (by simp)
    have hrest : ∀ it ∈ items, it.Ok Q := fun jt h => hok jt (by simp [h])
    obtain ⟨fuel, rfl⟩ : ∃ n, fuel = n + 1 := ⟨fuel - 1, by grind⟩
    cases items with
    | nil =>
      have hends : Ends [] := .inl rfl
      have h := readAux_print hit hq fuel hends
      simpa [entry, List.intercalate] using h
    | cons jt items =>
      have hlen : (jt :: items).length < fuel + 1 := by
        simp only [List.length_cons] at hfuel ⊢
        omega
      have hend : Ends (' ' :: entry Q (jt :: items)) := .inr rfl
      have htail := ih hrest (by simp) hlen
      rw [entry_cons_cons, readAux_print hit hq fuel hend, List.tail_cons, htail]
      rfl

theorem length_le_entry (items : List Item) : items.length ≤ (entry Q items).length := by
  induction items with
  | nil => exact Nat.zero_le _
  | cons it items ih =>
    cases items with
    | nil =>
      simp only [entry, List.intercalate, Item.print, List.map_cons, List.map_nil,
        List.intersperse_singleton, List.flatten_cons, List.flatten_nil, List.append_nil,
        List.length_append, List.length_cons, List.length_nil]
      omega
    | cons jt items =>
      have hlen : (entry Q (it :: jt :: items)).length
          = (it.print Q).length + ((entry Q (jt :: items)).length + 1) := by
        rw [entry_cons_cons, List.length_append, List.length_cons]
      rw [hlen, List.length_cons]
      omega

theorem entry_ne_nil {items : List Item} (h : items ≠ []) : (entry Q items).isEmpty = false := by
  cases items with
  | nil => exact absurd rfl h
  | cons it items =>
    have hle := length_le_entry (Q := Q) (it :: items)
    cases he : entry Q (it :: items) with
    | nil => rw [he] at hle; simp at hle
    | cons c s => rfl

/-- An entry reads back as its fields. -/
theorem readEntry_entry {items : List Item} (hok : ∀ it ∈ items, it.Ok Q) (hq : Q.quote ≠ ' ') :
    readEntry Q (entry Q items) = some (items.map fun it => (it.key, it.value)) := by
  by_cases hne : items = []
  · subst hne; rfl
  · have hle := length_le_entry (Q := Q) items
    rw [readEntry, entry_ne_nil hne, if_neg Bool.false_ne_true]
    exact readAux_entry hok hq hne (by omega)

/-- What every part of an entry satisfies, every character of it does. -/
theorem mem_entry {items : List Item} {c : Char} (h : c ∈ entry Q items) :
    c = ' ' ∨ ∃ it ∈ items, c ∈ it.print Q := by
  induction items with
  | nil => simp [entry, List.intercalate] at h
  | cons it items ih =>
    cases items with
    | nil => exact .inr ⟨it, by simp, by simpa [entry, List.intercalate] using h⟩
    | cons jt items =>
      rw [entry_cons_cons, List.mem_append, List.mem_cons] at h
      rcases h with h | h | h
      · exact .inr ⟨it, by simp, h⟩
      · exact .inl h
      · rcases ih h with h | ⟨kt, hkt, h⟩
        · exact .inl h
        · exact .inr ⟨kt, by simp [hkt], h⟩

end Logfmt
