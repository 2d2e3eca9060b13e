import Slopmud.Lib.Lines
import Slopmud.Shard.Rooms

/-!
# Adventures

`protoadventure.rs`: the rooms of an adventure are read from a markdown file in the house
style: a heading for each room, and bullets for its exits and its description. Anything else is
passed over, so every text is read as some plan, perhaps one without rooms.
-/

namespace Slopmud.Shard

structure RoomPlan where
  id : Text
  name : Text
  description : Text
  exits : List ExitDef
deriving DecidableEq, Repr

structure BuildPlan where
  adventureId : Text
  rooms : List RoomPlan
  startRoom : Text
deriving DecidableEq, Repr

namespace ProtoAdventure

def isIdChar (c : Char) : Bool := Text.isAsciiAlphanumeric c || c == '_'

/-- `extract_room_id`: `R_` and at least one more character. -/
def extractRoomId : Text → Option Text
  | 'R' :: '_' :: rest =>
    let run := rest.takeWhile isIdChar
    if run.isEmpty then extractRoomId rest else some ('R' :: '_' :: run)
  | _ :: rest => extractRoomId rest
  | [] => none

/-- What is in the first parentheses, if it looks like a label. -/
def headingLabel (h : Text) : Option Text := do
  let (_, after) ← Text.splitOnce "(".toList h
  let (inside, _) ← Text.splitOnce ")".toList after
  let inside := Text.trim inside
  if inside.isEmpty then none
  -- a short human label, not a list of clusters
  else if Text.contains "CL_".toList inside || Text.contains "HUB_".toList inside
      || Text.contains "setpiece.".toList inside || 48 < Text.byteLen inside then none
  else some inside

def parseRoomHeading (h : Text) : Option (Text × Option Text) :=
  (extractRoomId h).map fun id => (id, headingLabel h)

def parseExit (part : Text) : Option ExitDef := do
  let p := Text.trim part
  if p.isEmpty then none
  else
    let (dir, rhs) ← Text.splitOnce "->".toList p
    let dir := Text.trim dir
    let dest := Text.trim rhs
    let quoted := (Text.splitOnce "`".toList dest).bind fun q => Text.splitOnce "`".toList q.2
    let dest := (quoted.map Prod.fst).getD dest
    -- strip "(future)" etc.
    let dest := (Text.splitWhitespace dest).head?.getD dest
    if dir.isEmpty || dest.isEmpty then none else some ⟨dir, dest, false, none⟩

/-- Exits separated by commas. -/
def parseExits (rest : Text) : List ExitDef := (rest.splitOnP (· == ',')).filterMap parseExit

def pushDescLine (dst k v : Text) : Text :=
  let v := Text.trim v
  if v.isEmpty then dst
  else (if dst.isEmpty then dst else dst ++ ['\n']) ++ k ++ ": ".toList ++ v

/-- The bullets that describe a room. -/
def descKeys : List String := ["beat", "teach", "note", "quest", "feedback", "telegraph", "failure"]

/-- Where the loop over the lines stands. -/
structure Reader where
  cur : Option RoomPlan
  inExitsBlock : Bool
  out : List RoomPlan

/-- A line below the heading of a room. -/
def roomLine (s : Reader) (r : RoomPlan) (t : Text) : Reader :=
  match Text.stripPrefix "- exits:".toList t with
  | some rest =>
    { s with cur := some { r with exits := r.exits ++ parseExits rest }, inExitsBlock := true }
  | none =>
    -- an exit on a bullet of its own, below "- exits:"
    let item := if s.inExitsBlock then Text.stripPrefix "- ".toList t else none
    match item.filter (Text.contains "->".toList) with
    | some rest => { s with cur := some { r with exits := r.exits ++ parseExits rest } }
    | none =>
      let s := if s.inExitsBlock && t.head? == some '-' then { s with inExitsBlock := false } else s
      match descKeys.findSome? fun k =>
          (Text.stripPrefix ("- ".toList ++ k.toList ++ [':']) t).map fun rest => (k.toList, rest) with
      | some (k, rest) =>
        { s with cur := some { r with description := pushDescLine r.description k rest } }
      | none => s

def readLine (s : Reader) (raw : Text) : Reader :=
  let line := Text.trimEnd raw
  match Text.stripPrefix "### ".toList line with
  | some h =>
    match parseRoomHeading h with
    | some (id, label) =>
      { cur := some ⟨id, label.getD id, [], []⟩, inExitsBlock := false, out := s.out ++ s.cur.toList }
    | none => s
  | none =>
    match s.cur with
    | none => s
    | some r => roomLine s r (Text.trim line)

/-- The first room of each id. -/
def dedupRooms (seen : List Text) : List RoomPlan → List RoomPlan
  | [] => []
  | r :: rs => if r.id ∈ seen then dedupRooms seen rs else r :: dedupRooms (r.id :: seen) rs

/-- The rooms as they are in the text. -/
def readRooms (md : Text) : List RoomPlan :=
  let s := (Lines.lines '\n' '\r' md).foldl readLine ⟨none, false, []⟩
  s.out ++ s.cur.toList

/-- `parse_protoadventure_markdown` -/
def parse (adventureId md : Text) : BuildPlan :=
  let out := readRooms md
  -- only keep exits that point to known rooms
  let known := out.map RoomPlan.id
  let rooms := dedupRooms [] (out.map fun r => { r with exits := r.exits.filter fun e => e.dest ∈ known })
  { adventureId
    rooms
    startRoom := (rooms.head?.map RoomPlan.id).getD "R_START".toList }

/-- A room id within an instance. -/
def instanceId (pre id : Text) : Text := pre ++ '.' :: id

/-- `instantiate_rooms` -/
def instantiateRooms (pre : Text) (plan : BuildPlan) : List (Text × RoomDef) :=
  let map : Table Text Text := plan.rooms.foldl (fun m r => m.insert r.id (instanceId pre r.id)) ∅
  plan.rooms.map fun r =>
    -- every room is in the map
    (instanceId pre r.id, {
      name := r.name
      description := Text.trim r.description
      areaName := plan.adventureId
      exits := r.exits.filterMap fun e => (map.lookup e.dest).map fun dest => ⟨e.dir, dest, false, none⟩ })

end ProtoAdventure

end Slopmud.Shard
