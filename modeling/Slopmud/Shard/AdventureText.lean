import Slopmud.Broker.Redact
import Slopmud.Shard.ProtoAdventure

/-!
# The cuts of the adventure reader

`protoadventure.rs` looks for room ids byte by byte and takes ids, labels and targets of exits out of
the text by byte offsets. The same reader as `ProtoAdventure.parse`, with these cuts as the source
makes them: a cut inside a character is a panic, `none` here, and so is an `expect` that fails.
-/

namespace Slopmud.Shard.ProtoAdventure

open Broker (strSlice isAsciiAlphanumericByte)

/-- `str::find`: the byte where the first `tok` starts. -/
def strFind (tok s : Text) : Option Nat := (Text.splitOnce tok s).map fun p => Text.byteLen p.1

/-- What is between the first `opn` and the next `cls`: `s.find(opn)`, `s[i + 1..].find(cls)`,
`s[i + 1..i + 1 + j]`. -/
def cutBetween (opn cls s : Text) : Option (Option Text) :=
  match strFind opn s with
  | none => some none
  | some i => do
    let after ← strSlice s (i + 1) (Text.byteLen s)
    match strFind cls after with
    | none => some none
    | some j => (strSlice s (i + 1) (i + 1 + j)).map some

/-! ## Headings -/

def isIdByte (b : UInt8) : Bool := isAsciiAlphanumericByte b || b == 95

/-- `while j < bs.len()`, from `j` up -/
def idEnd (bs : Bytes) (j : Nat) : Nat := j + ((bs.drop j).takeWhile isIdByte).length

/-- The loop of `extract_room_id`, with `n` rounds to go. -/
def roomIdLoop (h : Text) (bs : Bytes) : Nat → Nat → Option (Option Text)
  | 0, _ => some none
  | n + 1, i =>
    -- `R_`
    if bs[i]? = some 82 ∧ bs[i + 1]? = some 95 then
      let j := idEnd bs (i + 2)
      if i + 2 < j then (strSlice h i j).map some else roomIdLoop h bs n (i + 1)
    else roomIdLoop h bs n (i + 1)

/-- `extract_room_id` -/
def extractRoomIdCut (h : Text) : Option (Option Text) :=
  let bs := Utf8.encode h
  roomIdLoop h bs (bs.length - 1) 0

/-- A short human label, not a list of clusters. -/
def shortLabel (inside : Text) : Option Text :=
  let inside := Text.trim inside
  if inside.isEmpty then none
  else if Text.contains "CL_".toList inside || Text.contains "HUB_".toList inside
      || Text.contains "setpiece.".toList inside || 48 < Text.byteLen inside then none
  else some inside

/-- `parse_room_heading` -/
def parseRoomHeadingCut (h : Text) : Option (Option (Text × Option Text)) := do
  match ← extractRoomIdCut h with
  | none => some none
  | some id =>
    let inside ← cutBetween "(".toList ")".toList h
    some (some (id, inside.bind shortLabel))

/-! ## Exits -/

def parseExitCut (part : Text) : Option (Option ExitDef) :=
  let p := Text.trim part
  if p.isEmpty then some none
  else
    match Text.splitOnce "->".toList p with
    | none => some none
    | some (dir, rhs) => do
      let dir := Text.trim dir
      let dest := Text.trim rhs
      let quoted ← cutBetween "`".toList "`".toList dest
      let dest := quoted.getD dest
      -- strip "(future)" etc.
      let dest := (Text.splitWhitespace dest).head?.getD dest
      some (if dir.isEmpty || dest.isEmpty then none else some ⟨dir, dest, false, none⟩)

/-- `parse_exits` -/
def parseExitsCut (rest : Text) : Option (List ExitDef) :=
  ((rest.splitOnP (· == ',')).mapM parseExitCut).map List.reduceOption

/-! ## The loop over the lines -/

/-- A line below the heading of a room; only exits are cut. -/
def roomLineCut (s : Reader) (r : RoomPlan) (t : Text) : Option Reader :=
  match Text.stripPrefix "- exits:".toList t with
  | some rest =>
    (parseExitsCut rest).map fun exits =>
      { s with cur := some { r with exits := r.exits ++ exits }, inExitsBlock := true }
  | none =>
    let item := if s.inExitsBlock then Text.stripPrefix "- ".toList t else none
    match item.filter (Text.contains "->".toList) with
    | some rest =>
      (parseExitsCut rest).map fun exits => { s with cur := some { r with exits := r.exits ++ exits } }
    | none => some (roomLine s r t)

def readLineCut (s : Reader) (raw : Text) : Option Reader :=
  let line := Text.trimEnd raw
  match Text.stripPrefix "### ".toList line with
  | some h => do
    match ← parseRoomHeadingCut h with
    | some (id, label) =>
      some { cur := some ⟨id, label.getD id, [], []⟩, inExitsBlock := false, out := s.out ++ s.cur.toList }
    | none => some s
  | none =>
    match s.cur with
    | none => some s
    | some r => roomLineCut s r (Text.trim line)

/-- What is made of the rooms that were read. -/
def planOf (adventureId : Text) (out : List RoomPlan) : BuildPlan :=
  let known := out.map RoomPlan.id
  let rooms := dedupRooms [] (out.map fun r => { r with exits := r.exits.filter fun e => e.dest ∈ known })
  { adventureId
    rooms
    startRoom := (rooms.head?.map RoomPlan.id).getD "R_START".toList }

/-- `parse_protoadventure_markdown` -/
def parseCut (adventureId md : Text) : Option BuildPlan := do
  let s ← (Lines.lines '\n' '\r' md).foldlM readLineCut ⟨none, false, []⟩
  some (planOf adventureId (s.out ++ s.cur.toList))

/-- `instantiate_rooms` -/
def instantiateRoomsCut (pre : Text) (plan : BuildPlan) : Option (List (Text × RoomDef)) :=
  let map : Table Text Text := plan.rooms.foldl (fun m r => m.insert r.id (instanceId pre r.id)) ∅
  plan.rooms.mapM fun r => do
    -- `expect("in map")`
    let id ← map.lookup r.id
    some (id, {
      name := r.name
      description := Text.trim r.description
      areaName := plan.adventureId
      exits := r.exits.filterMap fun e => (map.lookup e.dest).map fun dest => ⟨e.dir, dest, false, none⟩ })

end Slopmud.Shard.ProtoAdventure
