import Slopmud.Broker.Bans
import Slopmud.Broker.Login
import Slopmud.Lib.WriteThrough

/-!
# What is written to the accounts and the bans

The operations that change an account or a ban, each in the lock section in which
it does so: the e-mail command of a player, the admin requests, and the creation
of an account by a login. All of them change the store, save it, and report an
error when that fails; none puts back what it has changed.
-/

namespace Slopmud.Broker

open Slopmud.Sbc

/-- `AdminResp` of the broker, as far as these operations answer with it. -/
inductive Answer.AdminResp where
  | ok
  | okAccount (name : Text) (hasPassword : Bool) (caps : List Text)
  | err (message : Text)
deriving DecidableEq, Repr

/-- How an operation answers. -/
inductive Answer where
  /-- The text that a player is sent. -/
  | text (t : Text)
  | admin (r : Answer.AdminResp)
  /-- The login goes on. -/
  | goesOn
  /-- The record or the ban that was asked for. -/
  | account (r : Option AccountRec)
  | charBan (b : Option CharacterBan)
  | ipBan (b : Option IpBan)
  /-- The task of the connection or of the request ends with an error. -/
  | error
deriving DecidableEq, Repr

def Answer.adminErr (message : String) : Answer := .admin (.err message.toList)

/-- A line and the prompt after it. -/
def prompted (line : Text) : Answer := .text (line ++ "\r\n\r\n> ".toList)

/-! ## Accounts -/

inductive AccountOp where
  /-- `account email set`, with the rest of the line. -/
  | emailSet (name raw : Text)
  /-- `account email clear` -/
  | emailClear (name : Text)
  /-- `CreateAccountPassword`; `hash` is what Argon2 makes of the password. -/
  | createAccountPassword (name password : Text) (caps : Option (List Text)) (hash : Option Text)
    (nowUnix : Nat)
  | setAccountPassword (name password : Text) (hash : Option Text)
  | grantAccountCaps (name : Text) (caps : List Text)
  /-- A login by telnet or `WEB_AUTH` creates its account; it has looked the name up before, in a
  section of its own. -/
  | insertNew (r : AccountRec)
  /-- `NeedGoogleWait`: bind to the account name. -/
  | bindGoogle (r : AccountRec)
  /-- `a.by_name.get(n)`, as all logins begin. -/
  | lookup (n : Text)

namespace Accounts

/-- `handle_account_command`, `email set` -/
def emailSet (a : Accounts) (name raw : Text) : Outcome Accounts Answer :=
  match normalizeEmail raw with
  | none => .answer (prompted "account email set: bad email (example: alice@example.com)".toList)
  | some email =>
    match a.get name with
    | none => .answer (prompted "account: not found".toList)
    | some r =>
      if r.email = some email then
        .answer (prompted ("ok: email already set to ".toList ++ email))
      else
        .save (a.insert { r with email := some email })
          (prompted ("ok: email set to ".toList ++ email))
          (prompted "account email: failed to save".toList)

/-- `handle_account_command`, `email clear` -/
def emailClear (a : Accounts) (name : Text) : Outcome Accounts Answer :=
  match a.get name with
  | none => .answer (prompted "account: not found".toList)
  | some r =>
    if r.email = none then .answer (prompted "ok: email already clear".toList)
    else
      .save (a.insert { r with email := none }) (prompted "ok: email cleared".toList)
        (prompted "account email: failed to save".toList)

/-- What the requests about a password check before anything else. -/
def withPassword (name password : Text) (hash : Option Text)
    (f : Text → Text → Outcome Accounts Answer) : Outcome Accounts Answer :=
  let uname := sanitizeName name
  if uname.isEmpty then .answer (.adminErr "bad name")
  else if Text.byteLen password < 8 then .answer (.adminErr "password too short (min 8)")
  else
    match hash with
    | none => .answer .error
    | some hash => f uname hash

def createAccountPassword (a : Accounts) (name password : Text) (caps : Option (List Text))
    (hash : Option Text) (nowUnix : Nat) : Outcome Accounts Answer :=
  withPassword name password hash fun uname hash =>
    let caps := (caps.map normalizeCapsList).filter fun v => !v.isEmpty
    match a.get uname with
    | some _ => .answer (.adminErr "account already exists")
    | none =>
      .save (a.insert (.withPassword uname hash caps nowUnix))
        (.admin (.okAccount uname true (caps.getD []))) .error

def hasPassword (r : AccountRec) : Bool := (r.pwHash.map fun s => !s.isEmpty).getD false

def setAccountPassword (a : Accounts) (name password : Text) (hash : Option Text) :
    Outcome Accounts Answer :=
  withPassword name password hash fun uname hash =>
    match a.get uname with
    | none => .answer (.adminErr "account not found")
    | some r =>
      let r := { r with pwHash := some hash }
      .save (a.insert r) (.admin (.okAccount uname (hasPassword r) (r.caps.getD []))) .error

/-- The capabilities of a record, with more of them. -/
def merged (r : AccountRec) (add : List Text) : List Text := normalizeCapsList (r.caps.getD [] ++ add)

def grantAccountCaps (a : Accounts) (name : Text) (caps : List Text) : Outcome Accounts Answer :=
  let uname := sanitizeName name
  if uname.isEmpty then .answer (.adminErr "bad name")
  else
    let add := normalizeCapsList caps
    if add.isEmpty then .answer (.adminErr "no valid caps")
    else
      match a.get uname with
      | none => .answer (.adminErr "account not found")
      | some r =>
        let caps := merged r add
        .save (a.insert { r with caps := if caps.isEmpty then none else some caps })
          (.admin (.okAccount uname (hasPassword r) caps)) .error

/-- The insert of a login that creates its account. -/
def insertNew (a : Accounts) (r : AccountRec) : Outcome Accounts Answer :=
  .save (a.insert r) .goesOn .error

def bindGoogle (a : Accounts) (r : AccountRec) : Outcome Accounts Answer :=
  match a.get r.name with
  | some r' =>
    if r'.googleSub ≠ r.googleSub then .answer (.text "name already taken\r\nbye\r\n".toList)
    else .answer .goesOn
  | none => .save (a.insert r) .goesOn .error

def apply (a : Accounts) : AccountOp → Outcome Accounts Answer
  | .emailSet name raw => a.emailSet name raw
  | .emailClear name => a.emailClear name
  | .createAccountPassword name password caps hash nowUnix =>
    a.createAccountPassword name password caps hash nowUnix
  | .setAccountPassword name password hash => a.setAccountPassword name password hash
  | .grantAccountCaps name caps => a.grantAccountCaps name caps
  | .insertNew r => a.insertNew r
  | .bindGoogle r => a.bindGoogle r
  | .lookup n => .answer (.account (a.get n))

/-- The same records under the same names. -/
def Same (a a' : Accounts) : Prop := ∀ n, a.get n = a'.get n

end Accounts

/-! ## Bans -/

inductive BanRequest where
  | banCharacter (name createdBy reason : Text) (nowUnix : Nat)
  | banIpPrefix (cidr createdBy reason : Text) (nowUnix : Nat)
  | isCharBanned (n : Text)
  | isIpBanned (ip : IpAddr)

namespace BanState

variable {T : IpText}

def banCharacter (st : BanState T) (name createdBy reason : Text) (nowUnix : Nat) :
    Outcome (BanState T) Answer :=
  let nm := sanitizeName name
  if nm.isEmpty then .answer (.adminErr "bad name")
  else
    match st.upsertCharBan nm nowUnix createdBy reason with
    | none => .answer .error
    | some st => .save st (.admin .ok) .error

def banIpPrefix (st : BanState T) (cidr createdBy reason : Text) (nowUnix : Nat) :
    Outcome (BanState T) Answer :=
  match st.upsertIpBan cidr nowUnix createdBy reason with
  | none => .answer .error
  | some st => .save st (.admin .ok) .error

def apply (st : BanState T) : BanRequest → Outcome (BanState T) Answer
  | .banCharacter name createdBy reason nowUnix => st.banCharacter name createdBy reason nowUnix
  | .banIpPrefix cidr createdBy reason nowUnix => st.banIpPrefix cidr createdBy reason nowUnix
  | .isCharBanned n => .answer (.charBan (st.isCharBanned n))
  | .isIpBanned ip => .answer (.ipBan (st.isIpBanned ip))

/-- The same bans, those of addresses in the same order. -/
structure Same (st st' : BanState T) : Prop where
  chars : Table.Same st.chars st'.chars
  ips : st.ips = st'.ips
  updatedUnix : st.updatedUnix = st'.updatedUnix

/-- The same bans; the file keeps them in an order of its own. -/
structure SameBans (st st' : BanState T) : Prop where
  chars : Table.Same st.chars st'.chars
  ips : ∀ e, e ∈ st.ips ↔ e ∈ st'.ips
  updatedUnix : st.updatedUnix = st'.updatedUnix

end BanState

end Slopmud.Broker
