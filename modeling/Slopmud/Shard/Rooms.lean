import Slopmud.Lib.TextFind
import Slopmud.Shard.World

/-!
# Rooms and exits

`rooms.rs`: the rooms that are compiled in, one of which is where characters start, and the
rooms of adventures, which come and go while the shard runs. An exit may be sealed, and it may
have a gate: an expression over the quest values of whoever goes through.
-/

namespace Slopmud.Shard

structure ExitDef where
  dir : Text
  /-- `to` -/
  dest : Text
  isSealed : Bool
  gate : Option Text
deriving DecidableEq, Repr

structure RoomDef where
  name : Text
  description : Text
  areaName : Text
  exits : List ExitDef
deriving DecidableEq, Repr

/-- `Rooms`. The start room is one of those that are compiled in. -/
structure RoomMap where
  rooms : Table Text RoomDef
  dynRooms : Table Text RoomDef
  startRoom : Text
  hasStart : (rooms.lookup startRoom).isSome = true

namespace RoomMap

def hasRoom (m : RoomMap) (id : Text) : Bool := (m.dynRooms.lookup id).isSome || (m.rooms.lookup id).isSome

/-- The definition of a room. -/
def room? (m : RoomMap) (id : Text) : Option RoomDef := (m.dynRooms.lookup id).or (m.rooms.lookup id)

def clearDynRoomsWithPrefix (m : RoomMap) (pre : Text) : RoomMap :=
  let p := if pre.getLast? = some '.' then pre else pre ++ ['.']
  { m with dynRooms := m.dynRooms.retain fun k _ => !p.isPrefixOf k }

def insertRoom (m : RoomMap) (id : Text) (d : RoomDef) : RoomMap :=
  { m with dynRooms := m.dynRooms.insert id d }

/-- What the rest of the world asks of the rooms. -/
def view (m : RoomMap) : Rooms := ⟨m.dynRooms.keys ++ m.rooms.keys, m.startRoom⟩

/-- The rooms of a shard that has just started. -/
def builtIn (m : RoomMap) : RoomMap := { m with dynRooms := ∅ }

/-- `normalize_dir_token` -/
def normalizeDirToken (s : Text) : Option Text :=
  let dirs := ["north".toList, "south".toList, "east".toList, "west".toList, "up".toList, "down".toList]
  let t := Text.toAsciiLowercase s
  dirs.find? fun d => t = d ∨ t = d.take 1

/-- `find_exit` -/
def findExit (m : RoomMap) (roomId token : Text) : Option ExitDef := do
  let room ← m.room? roomId
  let t := Text.trim token
  if t.isEmpty then none
  else
    -- exact match on the exit name
    match room.exits.find? fun e => Text.eqIgnoreAsciiCase e.dir t with
    | some ex => some ex
    | none =>
      -- direction aliases also match directional exits
      match normalizeDirToken t with
      | some canon => room.exits.find? fun e => Text.eqIgnoreAsciiCase e.dir canon
      | none =>
        -- a single letter that uniquely prefixes an exit name
        let tLc := Text.toAsciiLowercase t
        if Text.byteLen tLc = 1 then
          match room.exits.filter fun e => tLc.isPrefixOf (Text.toAsciiLowercase e.dir) with
          | [ex] => some ex
          | _ => none
        else none

/-- `exits_raw` -/
def exitsRaw (m : RoomMap) (roomId : Text) : List ExitDef := ((m.room? roomId).map RoomDef.exits).getD []

end RoomMap

/-! ## Gates -/

inductive GateOp where
  | ge | le | ne | eq | gt | lt
deriving DecidableEq, Repr

/-- Multi-character operators before single-character ones. -/
def gateOps : List (String × GateOp) :=
  [(">=", .ge), ("<=", .le), ("!=", .ne), ("==", .eq), (">", .gt), ("<", .lt), ("=", .eq)]

def truthy : Option Text → Bool
  | none => false
  | some v =>
    let v := Text.trim v
    if v.isEmpty then false
    else
      match Text.parseI64 v with
      | some n => n != 0
      | none => Text.toAsciiLowercase v ∈ ["true".toList, "yes".toList, "on".toList]

/-- A gate with an operator. -/
def evalGateOp (quest : Table Text Text) (op : GateOp) (key rhs : Text) : Bool :=
  if key.isEmpty || rhs.isEmpty then false
  else
    let lhs := Text.trim ((quest.lookup key).getD "0".toList)
    match op, Text.parseI64 lhs, Text.parseI64 rhs with
    | .eq, some a, some b => a == b
    | .eq, _, _ => lhs == rhs
    | .ne, some a, some b => a != b
    | .ne, _, _ => lhs != rhs
    | .ge, some a, some b => decide (b ≤ a)
    | .le, some a, some b => decide (a ≤ b)
    | .gt, some a, some b => decide (b < a)
    | .lt, some a, some b => decide (a < b)
    | _, _, _ => false

/-- `eval_gate_expr` -/
def evalGateExpr (quest : Table Text Text) (expr : Text) : Bool :=
  let expr := Text.trim expr
  if expr.isEmpty then true
  else
    match gateOps.findSome? fun e => (Text.splitOnce e.1.toList expr).map fun p => (e.2, p) with
    | some (op, l, r) => evalGateOp quest op (Text.trim l) (Text.trim r)
    -- no operator: a boolean gate key
    | none => truthy (quest.lookup expr)

end Slopmud.Shard
