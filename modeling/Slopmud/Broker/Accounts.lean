import Slopmud.Lib.Codec
import Slopmud.Lib.Table
import Slopmud.Lib.Text

/-!
# Accounts

The broker's account store: records by name, read from a JSON file at start and
written back as a whole by every operation that changes one of them.
-/

namespace Slopmud.Broker

structure AccountRec where
  name : Text
  pwHash : Option Text
  googleSub : Option Text
  googleEmail : Option Text
  oidcSub : Option Text
  oidcEmail : Option Text
  caps : Option (List Text)
  /-- User-configured e-mail address for notifications. Not used for auth. -/
  email : Option Text
  createdUnix : Nat
deriving DecidableEq, Repr

/-- The accounts, each under its own name. -/
structure Accounts where
  byName : Table Text AccountRec
  named : ∀ n a, byName.lookup n = some a → a.name = n

namespace Accounts

def empty : Accounts := ⟨∅, by simp⟩

def get (a : Accounts) (n : Text) : Option AccountRec := a.byName.lookup n

/-- `a.by_name.insert(rec.name.clone(), rec)` -/
def insert (a : Accounts) (rec : AccountRec) : Accounts where
  byName := a.byName.insert rec.name rec
  named := by
    intro n r h
    rw [Table.lookup_insert_eq] at h
    split at h
    · next hn => cases h; exact hn.symm
    · exact a.named n r h

theorem get_insert (a : Accounts) (rec : AccountRec) (n : Text) :
    (a.insert rec).get n = if n = rec.name then some rec else a.get n :=
  Table.lookup_insert_eq _ _ _ _

@[simp] theorem get_empty (n : Text) : empty.get n = none := rfl

theorem get_name {a : Accounts} {n : Text} {r : AccountRec} (h : a.get n = some r) : r.name = n :=
  a.named n r h

theorem mem_values {a : Accounts} {r : AccountRec} :
    r ∈ Table.values a.byName ↔ a.get r.name = some r := by
  rw [Table.mem_values]
  constructor
  · rintro ⟨n, h⟩
    rw [a.named n r h]
    exact h
  · intro h
    exact ⟨r.name, h⟩

variable {Raw : Type} (J : Codec Raw (List AccountRec))

/-- `Accounts::load`. Whatever cannot be read or parsed counts as empty. -/
def load (readOk : Bool) (file : Option Raw) : Accounts :=
  match (if readOk then file else none).bind J.parse with
  | none => empty
  | some v => v.foldl insert empty

/-- `Accounts::save`: the whole list, sorted by name. -/
def print (a : Accounts) : Raw :=
  J.print ((Table.values a.byName).mergeSort fun x y => decide (x.name ≤ y.name))

end Accounts

end Slopmud.Broker
