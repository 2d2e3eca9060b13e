import Slopmud.Lib.Wire

/-!
# mudproto: frames between the front ends and the shard

`parse_req` and `parse_resp` read a frame by index; the broker and the websocket
gateway write the frames by hand, each with its own encoder of an attach body.
-/

namespace Slopmud.Proto

/-- A `u128`. -/
abbrev SessionId := BitVec 128

def SessionId.toBeBytes (s : SessionId) : Bytes := Wire.toBe 16 s.toNat

def SessionId.fromBeBytes (b : Bytes) : SessionId := BitVec.ofNat 128 (Wire.ofBe b)

def reqAttach : UInt8 := 0x01
def reqDetach : UInt8 := 0x02
def reqInput : UInt8 := 0x03

def respOutput : UInt8 := 0x81
def respErr : UInt8 := 0x82

inductive ProtoError where
  | tooShort (need got : Nat)
  | unknownType (t : UInt8)
  | malformed (message : Text)
deriving DecidableEq, Repr

inductive ShardReq where
  | attach (session : SessionId) (isBot : Bool) (auth race cls sex pronouns : Option Bytes)
      (name : Bytes)
  | detach (session : SessionId)
  | input (session : SessionId) (line : Bytes)
deriving DecidableEq, Repr

inductive ShardResp where
  | output (session : SessionId) (line : Bytes)
  | err (session : SessionId) (msg : Bytes)
deriving DecidableEq, Repr

/-! ## Parsing -/

/-- `if p.len() < need { return Err(TooShort { .. }) }` -/
def require (p : Bytes) (need : Nat) : Checked ProtoError Unit :=
  if p.length < need then throw (.tooShort need p.length) else pure ()

/-- The type byte and the session id every frame starts with. -/
def parseHead (p : Bytes) : Checked ProtoError (UInt8 × SessionId) := do
  require p 17
  let t ← Checked.byteAt p 0
  let sid ← Checked.slice p 1 17
  pure (t, .fromBeBytes sid)

/-- The blob of two length bytes and its bytes, at `i` when there is one, and where it ends. -/
def parseAuth (p : Bytes) (hasAuth : Bool) (i : Nat) : Checked ProtoError (Option Bytes × Nat) :=
  if hasAuth then do
    require p (i + 2)
    let hi ← Checked.byteAt p i
    let lo ← Checked.byteAt p (i + 1)
    let len := Wire.ofBe [hi, lo]
    let i := i + 2
    require p (i + len)
    let a ← Checked.slice p i (i + len)
    pure (some a, i + len)
  else pure (none, i)

/-- A field of one length byte and its bytes, at `i`, and where it ends. The length byte itself has
been required already; `more` bytes are required after the field. -/
def parseField (p : Bytes) (i more : Nat) : Checked ProtoError (Bytes × Nat) := do
  let len ← Checked.byteAt p i
  let i := i + 1
  require p (i + len.toNat + more)
  let field ← Checked.slice p i (i + len.toNat)
  pure (field, i + len.toNat)

/-- What follows the flags, when these have been read. -/
def parseAttach (p : Bytes) (session : SessionId) : Checked ProtoError ShardReq := do
  require p 18
  let flags ← Checked.byteAt p 17
  let isBot := (flags &&& 0x01) != 0
  let hasAuth := (flags &&& 0x02) != 0
  let hasBuild := (flags &&& 0x04) != 0
  let (auth, i) ← parseAuth p hasAuth 18
  if hasBuild then
    require p (i + 1)
    let (race, i) ← parseField p i 1
    let (cls, i) ← parseField p i 1
    let (sex, i) ← parseField p i 1
    -- the last of the four is followed by the name, which may be empty
    let (pronouns, i) ← parseField p i 0
    let name ← Checked.slice p i p.length
    pure (.attach session isBot auth race cls sex pronouns name)
  else
    let name ← Checked.slice p i p.length
    pure (.attach session isBot auth none none none none name)

def parseReq (p : Bytes) : Checked ProtoError ShardReq := do
  let (t, session) ← parseHead p
  if t = reqAttach then parseAttach p session
  else if t = reqDetach then
    if p.length ≠ 17 then throw (.malformed "detach must be exactly 17 bytes".toList)
    else pure (.detach session)
  else if t = reqInput then
    let line ← Checked.slice p 17 p.length
    pure (.input session line)
  else throw (.unknownType t)

def parseResp (p : Bytes) : Checked ProtoError ShardResp := do
  let (t, session) ← parseHead p
  if t = respOutput then
    let line ← Checked.slice p 17 p.length
    pure (.output session line)
  else if t = respErr then
    let msg ← Checked.slice p 17 p.length
    pure (.err session msg)
  else throw (.unknownType t)

/-! ## Writing -/

/-- `write_req`: the payload of the frame it writes. -/
def writeReq (t : UInt8) (session : SessionId) (body : Bytes) : Bytes :=
  t :: session.toBeBytes ++ body

/-- `b.push(f.len().min(255) as u8); b.extend_from_slice(&f[..f.len().min(255)]);` -/
def pushClipped (f : Bytes) : Bytes := .ofNat (min f.length 255) :: f.take (min f.length 255)

/-- The broker's `attach_body`. -/
def attachBody (isBot : Bool) (auth : Option Bytes) (race cls sex pronouns : Text) (name : Bytes) :
    Bytes :=
  let flags : UInt8 := if isBot then 0x01 else 0
  let flags := if auth.isSome then flags ||| 0x02 else flags
  -- build info always included by broker
  let flags := flags ||| 0x04
  let (flags, blob) :=
    match auth with
    | none => (flags, [])
    | some a =>
      if a.length ≤ 65535 then (flags, Wire.toBe 2 a.length ++ a)
      -- too long to encode; drop auth rather than truncating
      else (flags &&& ~~~0x02, [])
  flags :: blob ++ pushClipped (Utf8.encode race) ++ pushClipped (Utf8.encode cls)
    ++ pushClipped (Utf8.encode sex) ++ pushClipped (Utf8.encode pronouns) ++ name

/-- `&t[..n]` on a `str`, which panics unless `n` is a character boundary. -/
def strTo : Text → Nat → Option Text
  | _, 0 => some []
  | [], _ + 1 => none
  | c :: cs, n + 1 =>
    if Text.utf8Len c ≤ n + 1 then (strTo cs (n + 1 - Text.utf8Len c)).map (c :: ·) else none

/-- The gateway's `push_field`; `none` is a panic. -/
def pushField (s : Option Text) : Option Bytes := do
  let t := Text.trim (s.getD [])
  let t ← if Text.byteLen t > 255 then strTo t 255 else some t
  some (.ofNat (Text.byteLen t) :: Utf8.encode t)

/-- The gateway's `shard_attach_body_with_build`; `none` is a panic. -/
def shardAttachBodyWithBuild (isBot : Bool) (name : Text) (race cls sex pronouns : Option Text) :
    Option Bytes := do
  let flags : UInt8 := if isBot then 0x01 else 0
  let hasBuild := race.isSome || cls.isSome || sex.isSome || pronouns.isSome
  if hasBuild then
    let r ← pushField race
    let c ← pushField cls
    let sx ← pushField sex
    let pr ← pushField pronouns
    some ((flags ||| 0x04) :: r ++ c ++ sx ++ pr ++ Utf8.encode name)
  else some (flags :: Utf8.encode name)

end Slopmud.Proto
