import Slopmud.Sbc.Persist

/-!
# sbc_deciderd

The daemon that bans what sends too much. It polls the metrics, asks `sbc_raftd` for a ban on each
address of the answer that is over the threshold, and keeps in memory the keys for which a ban was
granted. Between the requests of a poll time passes and the reaper of the server runs.
-/

namespace Slopmud.Sbc

structure DeciderConfig where
  enabled : Bool
  thresholdBytesIn : Nat
  ttlS : Nat
  createdBy : Text
  exempt : ExemptPrefixes
deriving DecidableEq, Repr

structure TopItem where
  key : Text
  value : Nat
deriving DecidableEq, Repr

/-- "Ban exact IP.": the prefix of one address -/
def hostPrefix (ip : IpAddr) : Option IpPrefix := IpPrefix.new ip (if ip.isV4 then 32 else 128)

def autoBan (T : IpText) (cfg : DeciderConfig) (item : TopItem) (pfx : IpPrefix) : AdminReq :=
  .upsertBan (pfx.toCidrString T) cfg.ttlS cfg.createdBy
    ("auto bytes_in ".toList ++ Nat.toDigits 10 item.value)

/-- The body of the loop over the answer, up to the request. `none` is a `continue`. -/
def requestFor (T : IpText) (cfg : DeciderConfig) (banned : List Text) (item : TopItem) :
    Option AdminReq :=
  if item.value < cfg.thresholdBytesIn then none
  else if item.key ∈ banned then none
  else
    match (T.parse item.key).bind hostPrefix with
    | none => none
    | some pfx => if cfg.exempt.containsPrefix pfx then none else some (autoBan T cfg item pfx)

/-- A poll: the answer, and what the tables were when it came. `created` are the bans that the poll has
been granted. None of this is read again. -/
structure Poll where
  top : List TopItem
  beganUnix : Nat
  bansThen : Table Text BanEntry
  bannedThen : List Text
  created : List BanEntry

/-- The server, and the decider with the part of the answer that is left. -/
structure Deciding where
  nowUnix : Nat
  st : PersistedState
  /-- `banned`, a `HashSet` -/
  banned : List Text
  todo : List TopItem
  poll : Poll

inductive DecideMove where
  /-- Seconds pass. -/
  | tick (seconds : Nat)
  /-- The reaper of the server, with the order in which the map of bans is iterated -/
  | reap (order : List Text)
  /-- The metrics answer. -/
  | poll (top : List TopItem)
  /-- The next item of the answer, with the id that the server draws if it draws one -/
  | item (randHex16 : Text)
deriving DecidableEq, Repr

namespace Deciding

/-- The decider starts. -/
def init (nowUnix : Nat) (st : PersistedState) : Deciding where
  nowUnix := nowUnix
  st := st
  banned := []
  todo := []
  poll := ⟨[], nowUnix, st.bans, [], []⟩

/-- An item of the answer. Every answer but an error makes the key remembered. -/
def handle (T : IpText) (cfg : DeciderConfig) (w : Deciding) (randHex16 : Text) (item : TopItem)
    (rest : List TopItem) : Deciding :=
  match requestFor T cfg w.banned item with
  | none => { w with todo := rest }
  | some req =>
    let (answer, st) := adminSection T { now := w.nowUnix, randHex16 } w.st req
    match answer with
    | some (.okBan _ entry, _) =>
      { w with
        st
        banned := item.key :: w.banned
        todo := rest
        poll := { w.poll with created := entry :: w.poll.created } }
    | some (.ok _, _) => { w with st, banned := item.key :: w.banned, todo := rest }
    | _ => { w with st, todo := rest }

def step (T : IpText) (cfg : DeciderConfig) (w : Deciding) : DecideMove → Option Deciding
  | .tick seconds => some { w with nowUnix := w.nowUnix + seconds }
  | .reap order =>
    if order.isPerm (w.st.expiredIds w.nowUnix) then some { w with st := (reapSection T w.st order).2 }
    else none
  | .poll top =>
    if w.todo = [] ∧ cfg.enabled = true ∧ cfg.thresholdBytesIn ≠ 0 then
      some { w with todo := top, poll := ⟨top, w.nowUnix, w.st.bans, w.banned, []⟩ }
    else none
  | .item randHex16 =>
    match w.todo with
    | [] => none
    | item :: rest => some (w.handle T cfg randHex16 item rest)

/-- A freshly drawn id is not in use. -/
def DrawsFresh (T : IpText) (cfg : DeciderConfig) (w : Deciding) : DecideMove → Prop
  | .item randHex16 => ∀ item ∈ w.todo.head?, ∀ req ∈ requestFor T cfg w.banned item,
      ∀ id ∈ drawnId T w.st { now := w.nowUnix, randHex16 } req, w.st.bans.lookup id = none
  | _ => True

end Deciding

end Slopmud.Sbc
