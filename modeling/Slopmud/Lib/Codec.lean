import Mathlib

/-!
# Codecs

A serialised form is a printer and a parser that reads back what was printed.
Nothing else is known about either: what the parser makes of other input is left
open, and so is what the raw form looks like.
-/

/-- A printed form `Raw` of the values `α`. -/
structure Codec (Raw α : Type) where
  print : α → Raw
  parse : Raw → Option α
  /-- What is printed reads back. -/
  parse_print : ∀ a, parse (print a) = some a

namespace Codec

attribute [simp] parse_print

variable {Raw α : Type}

/-- The codec whose raw form is the value itself, or something that does not parse. -/
def direct (α : Type) : Codec (Option α) α where
  print := some
  parse := id
  parse_print _ := rfl

/-- The codec whose raw form is the value and a mark whether it is intact: damaged text does not
parse, although its parts can still be made out. -/
def marked (α : Type) : Codec (α × Bool) α where
  print a := (a, true)
  parse raw := if raw.2 then some raw.1 else none
  parse_print _ := rfl

/-- What can be made out in a raw form, whether or not it parses as a whole: when it does, the
parts are those of the parsed value. -/
structure Contents {Rec : Type} (J : Codec Raw α) (parts : α → List Rec) where
  records : Raw → List Rec
  of_parse : ∀ {raw a}, J.parse raw = some a → records raw = parts a

namespace Contents

variable {Rec : Type} {J : Codec Raw α} {parts : α → List Rec} (C : Contents J parts)

/-- The records of a file, none when there is no file. -/
def inFile (file : Option Raw) : List Rec := (file.map C.records).getD []

@[simp] theorem inFile_none : C.inFile none = [] := rfl

@[simp] theorem inFile_print (a : α) : C.inFile (some (J.print a)) = parts a :=
  C.of_parse (J.parse_print a)

theorem inFile_of_parse {raw : Raw} {a : α} (h : J.parse raw = some a) :
    C.inFile (some raw) = parts a := C.of_parse h

/-- The parts of a marked value. -/
def ofMarked (parts : α → List Rec) : Contents (marked α) parts where
  records raw := parts raw.1
  of_parse {raw a} h := by
    simp only [marked] at h
    split at h
    · cases h; rfl
    · cases h

end Contents

end Codec
