import Slopmud.Proto.Shard
import Slopmud.Shard.Commands

/-!
# The broker link

`handle_broker` reads frames from the broker until the stream ends. The live players are saved
after the loop, so only on the way out of it that `break` takes: every error is returned at
once, with `?`.
-/

namespace Slopmud.Shard

/-- `max_frame_len` of `FrameReader::new` -/
def maxFrameLen : Nat := 8 * 1024 * 1024

/-- What `read_frame` finds in its buffer. -/
inductive FrameRead where
  /-- More bytes are read first. -/
  | more
  | tooLarge
  | frame (payload rest : Bytes)
deriving DecidableEq, Repr

/-- One round of the loop of `read_frame`, before it reads. -/
def takeFrame (buf : Bytes) : FrameRead :=
  if buf.length < 4 then .more
  else
    let len := Wire.ofBe (buf.take 4)
    if maxFrameLen < len then .tooLarge
    else if buf.length < 4 + len then .more
    else .frame ((buf.drop 4).take len) (buf.drop (4 + len))

/-- How a link can end. -/
inductive LinkEnd where
  /-- `read_frame` returned `Ok(None)`. -/
  | closed
  /-- An error was returned. -/
  | failed
deriving DecidableEq, Repr

structure Link (Raw : Type) where
  world : World Raw
  /-- Bytes that were received and are not yet parsed. -/
  buf : Bytes
  ended : Option LinkEnd

inductive LinkMove (Auth : Type) where
  /-- The socket delivers some bytes, or its end when there are none. -/
  | received (chunk : Bytes)
  | readFails
  /-- The next frame of the buffer is parsed. -/
  | frame
  /-- What a request or a due event does to the world. -/
  | handle (m : ShardMove Auth)
  /-- An attach whose join message cannot be written: the character is in, and not yet saved. -/
  | joinUnsent (saveOk : Bool) (O : SetOrder) (r : AttachReq Auth)
  /-- A write to the socket fails, an append to the log, or whatever else is returned early for. -/
  | writeFails

variable {Raw Auth : Type} (J : Codec Raw (List PlayerSnapshot)) (A : Codec Auth AuthBlob)

/-- An attach up to its first message. -/
def World.join (O : SetOrder) (saveOk : Bool) (w : World Raw) (r : AttachReq Auth) : World Raw :=
  let name := Text.trim r.name
  if name.isEmpty then w
  else
    ((w.detachSession J O saveOk r.session).spawnOrRestoreCharacter r.session
      (principalFromAttach A name r.auth) (capsFromAttach A r.auth) (r.build name)).2

/-- The moves of one link: a new link starts with a new world. -/
def ShardMove.isWork : ShardMove Auth → Bool
  | .relink .. => false
  | _ => true

namespace Link

def new (readOk : Bool) (rooms : Rooms) (file : Option Raw) : Link Raw where
  world := .new J readOk rooms file
  buf := []
  ended := none

def fail (l : Link Raw) : Link Raw := { l with ended := some .failed }

/-- The end of the stream: an error in the middle of a frame, and the end of the loop otherwise. -/
def close (l : Link Raw) : Link Raw :=
  if l.buf.isEmpty then { l with world := l.world.persistLivePlayers J true, ended := some .closed }
  else l.fail

/-- `read_frame` and `parse_req` -/
def readFrame (l : Link Raw) : Option (Link Raw) :=
  match takeFrame l.buf with
  | .more => none
  | .tooLarge => some l.fail
  | .frame payload rest =>
    match (Proto.parseReq payload).run with
    | some (.ok _) => some { l with buf := rest }
    | _ => some l.fail

def step (l : Link Raw) (m : LinkMove Auth) : Option (Link Raw) :=
  if l.ended.isSome then none
  else match m with
    | .received chunk => some (if chunk.isEmpty then l.close J else { l with buf := l.buf ++ chunk })
    | .readFails => some l.fail
    | .frame => l.readFrame
    | .handle m =>
      if m.isWork then (shardStep J A l.world m).map fun world => { l with world } else none
    | .joinUnsent saveOk O r => some { l with world := l.world.join J A O saveOk r }.fail
    | .writeFails => some l.fail

end Link

end Slopmud.Shard
