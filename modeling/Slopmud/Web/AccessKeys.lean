import Slopmud.Lib.Machine
import Slopmud.Lib.Text
import Slopmud.Lib.Word

/-!
# Access keys of the compliance portal

The portal keeps the keys it has issued in one file. A key request and a login
confirmation each read the whole file, change the list, and write it back; nothing
stops two handlers from doing so at the same time. `KeyFile` is the file with any
number of such calls, each a load and later a save.
-/

namespace Slopmud.Web

structure KeyRec where
  keyHashHex : Text
  email : Text
  issuedUnix : Nat
  expiresUnix : Nat
  usedUnix : Option Nat
deriving DecidableEq, Repr

structure KeyDb where
  version : Nat
  keys : List KeyRec
deriving DecidableEq, Repr

/-- The record `compliance_request_key` stores. -/
def KeyRec.issue (keyHashHex email : Text) (nowUnix : Nat) : KeyRec where
  keyHashHex := keyHashHex
  email := email
  issuedUnix := nowUnix
  expiresUnix := Word.satAdd64 nowUnix (15 * 60)
  usedUnix := none

/-- The record as it was issued. -/
def KeyRec.asIssued (k : KeyRec) : KeyRec := { k with usedUnix := none }

/-- What is not pruned. -/
def KeyRec.kept (now : Nat) (k : KeyRec) : Bool :=
  k.usedUnix.isNone && decide (Word.satAdd64 k.expiresUnix 3600 > now)

def KeyDb.prune (now : Nat) (db : KeyDb) : KeyDb := { db with keys := db.keys.filter (·.kept now) }

/-- `upsert_key_rec`, from the file as loaded to the file as saved. A file that cannot be read
counts as empty. -/
def upsertKeyRec (db : Option KeyDb) (now : Nat) (rec : KeyRec) : KeyDb :=
  let db := (db.getD ⟨1, []⟩).prune now
  { db with keys := db.keys ++ [rec] }

/-- `find_valid_key` -/
def findValidKey (db : Option KeyDb) (now : Nat) (keyHashHex : Text) : Option KeyRec :=
  db.bind fun db =>
    match db.keys.find? (·.keyHashHex == keyHashHex) with
    | none => none
    | some k => if k.usedUnix.isSome then none else if now > k.expiresUnix then none else some k

inductive MarkResult where
  /-- The loop went through: the key is not there. -/
  | missing
  /-- `return Ok(None)`: the key is used or expired. -/
  | refused
  /-- The key, and the list with the key marked. -/
  | found (k : KeyRec) (keys : List KeyRec)
deriving DecidableEq, Repr

/-- The loop of `mark_key_used`. -/
def markLoop (keyHashHex : Text) (now : Nat) : List KeyRec → MarkResult
  | [] => .missing
  | k :: ks =>
    if k.keyHashHex = keyHashHex then
      if k.usedUnix.isSome then .refused
      else if now > k.expiresUnix then .refused
      else
        let k := { k with usedUnix := some now }
        .found k (k :: ks)
    else
      match markLoop keyHashHex now ks with
      | .found r ks => .found r (k :: ks)
      | other => other

/-- `mark_key_used`: the record it returns, and the file it saves, if it saves one. -/
def markKeyUsed (db : Option KeyDb) (now : Nat) (keyHashHex : Text) : Option KeyRec × Option KeyDb :=
  match db with
  | none => (none, none)
  | some db =>
    match markLoop keyHashHex now db.keys with
    | .refused => (none, none)
    | .missing => (none, some (db.prune now))
    | .found r keys => (some r, some ({ db with keys }.prune now))

inductive KeyCall where
  | upsert (rec : KeyRec)
  | mark (keyHashHex : Text)
  | find (keyHashHex : Text)
deriving DecidableEq, Repr

/-- The second half of a call: what it returns, and what it saves. -/
def KeyCall.finish (now : Nat) (db : Option KeyDb) : KeyCall → Option KeyRec × Option KeyDb
  | .upsert rec => (none, some (upsertKeyRec db now rec))
  | .mark h => markKeyUsed db now h
  | .find h => (findValidKey db now h, none)

inductive CallPhase where
  | idle
  /-- The call has read the file; `seen` counts the changes of the file before that. -/
  | loaded (call : KeyCall) (db : Option KeyDb) (seen : Nat)
  | done
deriving DecidableEq, Repr

/-- The key file and the calls that work on it. -/
structure KeyFile where
  file : Option KeyDb
  phase : Nat → CallPhase
  /-- The keys issued so far, those in the first file included. -/
  issued : List KeyRec
  /-- The records `mark_key_used` has returned, with the time it read. -/
  returned : List (KeyRec × Nat)
  /-- How many saves have put a key into the file or used one up. -/
  changes : Nat
  /-- The latest time a call has read. -/
  latest : Nat

def KeyFile.start (file : Option KeyDb) : KeyFile where
  file := file
  phase := fun _ => .idle
  issued := (file.map KeyDb.keys).getD []
  returned := []
  changes := 0
  latest := 0

inductive KeyMove where
  /-- Call `t` begins and reads the file. -/
  | load (t : Nat) (call : KeyCall)
  /-- Call `t` reads the clock, saves the file if it has to, and returns. -/
  | finish (t now : Nat)
deriving DecidableEq, Repr

namespace KeyFile

def step (s : KeyFile) : KeyMove → Option KeyFile
  | .load t call =>
    match s.phase t with
    | .idle => some { s with phase := Function.update s.phase t (.loaded call s.file s.changes) }
    | _ => none
  | .finish t now =>
    match s.phase t with
    | .loaded call db _ =>
      let (result, saved) := call.finish now db
      let s := { s with
        file := saved.orElse fun _ => s.file
        phase := Function.update s.phase t .done
        latest := max s.latest now }
      some (match call, result with
        | .upsert rec, _ => { s with issued := s.issued ++ [rec], changes := s.changes + 1 }
        | .mark _, some r => { s with returned := s.returned ++ [(r, now)], changes := s.changes + 1 }
        | _, _ => s)
    | _ => none

/-- The keys in the file. -/
def keys (s : KeyFile) : List KeyRec := (s.file.map KeyDb.keys).getD []

end KeyFile

end Slopmud.Web
