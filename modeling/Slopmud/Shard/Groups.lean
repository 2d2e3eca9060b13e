import Mathlib.Data.Finset.Basic
import Slopmud.Shard.Attach

/-!
# Groups and capabilities

`groups.rs` and the group commands of `shard_01`: who belongs to which group with which
role, and what a role may do. The store changes only through log entries; a command decides
which entries to append.
-/

namespace Slopmud.Shard

namespace Capability

def asStr : Capability → Text
  | adminAll => "admin.all".toList
  | raftTail => "raft.tail".toList
  | raftWatch => "raft.watch".toList
  | worldWarp => "world.warp".toList
  | worldProtoLoad => "world.proto.load".toList
  | groupCreate => "group.create".toList
  | groupMemberAdd => "group.member.add".toList
  | groupMemberRemove => "group.member.remove".toList
  | groupRoleSet => "group.role.set".toList
  | groupPolicySet => "group.policy.set".toList
  | groupRoleCapsSet => "group.rolecaps.set".toList

end Capability

inductive GroupRole where
  | owner | officer | member | guest
deriving DecidableEq, Repr

namespace GroupRole

def all : List GroupRole := [owner, officer, member, guest]

def asStr : GroupRole → Text
  | owner => "owner".toList
  | officer => "officer".toList
  | member => "member".toList
  | guest => "guest".toList

def parse : Text → Option GroupRole := parseToken
  [("owner", owner), ("leader", owner), ("officer", officer), ("mod", officer),
    ("member", member), ("guest", guest)]

end GroupRole

inductive GroupKind where
  | admin
  | guild
  | cls (name : Text)
  | custom
deriving DecidableEq, Repr

def GroupKind.parse (s : Text) : Option GroupKind :=
  let t := Text.toAsciiLowercase (Text.trim s)
  if t = "admin".toList then some .admin
  else if t = "guild".toList then some .guild
  else if t = "custom".toList then some .custom
  else match Text.stripPrefix "class:".toList t with
    | none => none
    | some rest =>
      let name := Text.trim rest
      if name.isEmpty then none else some (.cls name)

structure Group where
  id : Nat
  kind : GroupKind
  name : Text
  /-- Key to role: a principal, in lower case. -/
  members : Table Text GroupRole
  policies : Table Text Text
  roleCaps : Table GroupRole (Finset Capability)

namespace Group

def adminCaps : Finset Capability :=
  {.adminAll, .raftTail, .raftWatch, .worldWarp, .worldProtoLoad, .groupCreate, .groupMemberAdd,
    .groupMemberRemove, .groupRoleSet, .groupPolicySet, .groupRoleCapsSet}

def managerCaps : Finset Capability :=
  {.groupMemberAdd, .groupMemberRemove, .groupRoleSet, .groupPolicySet, .groupRoleCapsSet}

/-- `apply_default_role_caps` of a group without any. -/
def defaultRoleCaps (kind : GroupKind) : Table GroupRole (Finset Capability) :=
  let bare : Table GroupRole (Finset Capability) := GroupRole.all.foldl (fun m r => m.insert r ∅) ∅
  match kind with
  | .admin => ((bare.insert .owner adminCaps).insert .officer adminCaps).insert .member adminCaps
  | .guild | .custom | .cls _ => (bare.insert .owner managerCaps).insert .officer managerCaps

def new (id : Nat) (kind : GroupKind) (name : Text) : Group :=
  { id, kind, name, members := ∅, policies := ∅, roleCaps := defaultRoleCaps kind }

def capsForRole (g : Group) (role : GroupRole) : Finset Capability :=
  (g.roleCaps.lookup role).getD ∅

def impliedRoleForClass (g : Group) (cls : Text) : Option GroupRole :=
  match g.kind with
  | .cls want => if Text.eqIgnoreAsciiCase want cls then some .member else none
  | _ => none

end Group

inductive GroupLogEntry where
  | groupCreate (groupId : Nat) (kind : GroupKind) (name : Text)
  /-- No role removes the member. -/
  | groupMemberSet (groupId : Nat) (member : Text) (role : Option GroupRole)
  /-- No value deletes the policy. -/
  | groupPolicySet (groupId : Nat) (key : Text) (value : Option Text)
  | groupRoleCapsSet (groupId : Nat) (role : GroupRole) (caps : List Capability)
deriving DecidableEq, Repr

structure GroupStore where
  groups : Table Nat Group
  /-- Lower-case name to id. -/
  groupIdsByName : Table Text Nat

/-- `trim().to_ascii_lowercase()` -/
def foldKey (s : Text) : Text := Text.toAsciiLowercase (Text.trim s)

/-- Sets a key or removes it. -/
def setKey {V : Type} (m : Table Text V) (key : Text) : Option V → Table Text V
  | some v => m.insert key v
  | none => m.erase key

namespace GroupStore

/-- `GroupStore::default` -/
def empty : GroupStore := ⟨∅, ∅⟩

/-- `groups.get_mut(id)`, and nothing when there is no such group. -/
def modify (s : GroupStore) (id : Nat) (f : Group → Group) : GroupStore :=
  match s.groups.lookup id with
  | none => s
  | some g => { s with groups := s.groups.insert id (f g) }

def apply (s : GroupStore) : GroupLogEntry → GroupStore
  | .groupCreate id kind name =>
    { groups := s.groups.insert id (Group.new id kind name)
      groupIdsByName := s.groupIdsByName.insert (Text.toAsciiLowercase name) id }
  | .groupMemberSet id member role => s.modify id fun g =>
    let key := foldKey member
    if key.isEmpty then g else { g with members := setKey g.members key role }
  | .groupPolicySet id key value => s.modify id fun g =>
    let k := foldKey key
    if k.isEmpty then g else { g with policies := setKey g.policies k value }
  | .groupRoleCapsSet id role caps => s.modify id fun g =>
    { g with roleCaps := g.roleCaps.insert role caps.toFinset }

/-- The role of a principal in a group: its entry, else the one implied by the class. -/
def roleIn (g : Group) (principal cls : Text) : Option GroupRole :=
  match g.members.lookup (foldKey principal) with
  | some r => some r
  | none => g.impliedRoleForClass cls

def effectiveCapsForPrincipal (s : GroupStore) (principal cls : Text) : Finset Capability :=
  (Table.values s.groups).foldl (fun out g =>
    match roleIn g principal cls with
    | none => out
    | some role => out ∪ g.capsForRole role) ∅

def roleForPrincipalInGroup (s : GroupStore) (groupId : Nat) (principal cls : Text) :
    Option GroupRole :=
  (s.groups.lookup groupId).bind fun g => roleIn g principal cls

def capsForPrincipalInGroup (s : GroupStore) (groupId : Nat) (principal cls : Text) :
    Finset Capability :=
  match s.roleForPrincipalInGroup groupId principal cls with
  | none => ∅
  | some role => ((s.groups.lookup groupId).map fun g => g.capsForRole role).getD ∅

/-! ## What a character may do -/

/-- `c.class.map(|class| class.as_str()).unwrap_or("")` -/
def className (c : Character) : Text := (c.cls.map Class.asStr).getD []

def effectiveCapsFor (s : GroupStore) (c : Character) : Finset Capability :=
  s.effectiveCapsForPrincipal c.principal (className c) ∪ c.authCaps.toFinset

def hasCap (s : GroupStore) (c : Character) (cap : Capability) : Bool :=
  let caps := s.effectiveCapsFor c
  decide (.adminAll ∈ caps) || decide (cap ∈ caps)

def isAdmin (s : GroupStore) (c : Character) : Bool := decide (.adminAll ∈ s.effectiveCapsFor c)

/-- The group's table is asked for the name of the character. -/
def hasGroupCap (s : GroupStore) (c : Character) (groupId : Nat) (cap : Capability) : Bool :=
  if s.isAdmin c then true
  else decide (cap ∈ s.capsForPrincipalInGroup groupId c.name (className c))

end GroupStore

/-! ## Commands -/

/-- `normalize_principal_token` -/
def normalizePrincipalToken (tok : Text) : Text :=
  let t := Text.trim tok
  if t.isEmpty then "acct:".toList
  else if ':' ∈ t then Text.toAsciiLowercase t
  else "acct:".toList ++ Text.toAsciiLowercase t

/-- `str::parse::<u64>` -/
def parseU64 (t : Text) : Option Nat :=
  let digits := match t with
    | '+' :: rest => rest
    | _ => t
  if digits.isEmpty || !digits.all Text.isAsciiDigit then none
  else
    let n := digits.foldl (fun n c => n * 10 + (c.toNat - 48)) 0
    if n < 2 ^ 64 then some n else none

def printNat (n : Nat) : Text := Nat.toDigits 10 n

/-- What a command does: the entries it appends in this order, and its answer when they all are. -/
structure GroupOutcome where
  entries : List GroupLogEntry
  reply : Text
deriving DecidableEq, Repr

def refuse (text : String) : GroupOutcome := ⟨[], text.toList⟩

namespace GroupStore

variable (s : GroupStore) (p : Character)

def resolveGroupId (token : Text) : Option Nat :=
  let t := Text.trim token
  if t.isEmpty then none
  else match (parseU64 t).filter fun id => (s.groups.lookup id).isSome with
    | some id => some id
    | none => s.groupIdsByName.lookup (Text.toAsciiLowercase t)

/-- `max_id + 1`, avoiding reserved ids. -/
def freshGroupId : Nat := max ((s.groups.keys.max?.getD 1999) + 1) 2000

/-- For groups that are not of a class, the creator is made the owner, by name. -/
def creatorEntry (groupId : Nat) : GroupKind → List GroupLogEntry
  | .cls _ => []
  | _ => [.groupMemberSet groupId p.name (some .owner)]

def groupCreate (rest : Text) : GroupOutcome :=
  if !s.hasCap p .groupCreate then refuse "nope: group.create\r\n"
  else match Text.splitWhitespace (Text.trim rest) with
    | kindTok :: nameTok :: _ =>
      match GroupKind.parse kindTok with
      | none => refuse "huh? (kind: admin | guild | custom | class:<class>)\r\n"
      | some kind =>
        let name := Text.trim nameTok
        if name.isEmpty then refuse "huh? (bad name)\r\n"
        else if (s.groupIdsByName.lookup (Text.toAsciiLowercase name)).isSome then
          refuse "group: name already exists\r\n"
        else
          let groupId := s.freshGroupId
          ⟨.groupCreate groupId kind name :: creatorEntry p groupId kind,
            "group: created ".toList ++ printNat groupId ++ " (".toList ++ name ++ ")\r\n".toList⟩
    | _ => refuse "huh? (try: group create <kind> <name>)\r\n"

/-- The group of a token, if the character has the capability in it. -/
def withGroup (groupTok : Text) (cap : Capability) (k : Nat → GroupOutcome) : GroupOutcome :=
  match s.resolveGroupId groupTok with
  | none => refuse "huh? (bad group)\r\n"
  | some gid =>
    if !s.hasGroupCap p gid cap then ⟨[], "nope: ".toList ++ cap.asStr ++ "\r\n".toList⟩ else k gid

/-- `group: {gid} {what}` -/
def done (gid : Nat) (what : String) (args : List Text) : Text :=
  "group: ".toList ++ printNat gid ++ ' ' :: what.toList ++ args.flatMap (' ' :: ·) ++ "\r\n".toList

def groupAdd (rest : Text) : GroupOutcome :=
  match Text.splitWhitespace (Text.trim rest) with
  | groupTok :: memberTok :: more => s.withGroup p groupTok .groupMemberAdd fun gid =>
    let role := (more.head?.bind GroupRole.parse).getD .member
    ⟨[.groupMemberSet gid (normalizePrincipalToken memberTok) (some role)],
      done gid "add" [memberTok, '(' :: role.asStr ++ [')']]⟩
  | _ => refuse "huh? (try: group add <group> <player> [role])\r\n"

def groupRemove (rest : Text) : GroupOutcome :=
  match Text.splitWhitespace (Text.trim rest) with
  | groupTok :: memberTok :: _ => s.withGroup p groupTok .groupMemberRemove fun gid =>
    ⟨[.groupMemberSet gid (normalizePrincipalToken memberTok) none], done gid "remove" [memberTok]⟩
  | _ => refuse "huh? (try: group remove <group> <player>)\r\n"

def groupRole (rest : Text) : GroupOutcome :=
  match Text.splitWhitespace (Text.trim rest) with
  | groupTok :: memberTok :: roleTok :: _ => s.withGroup p groupTok .groupRoleSet fun gid =>
    match GroupRole.parse roleTok with
    | none => refuse "huh? (role: owner | officer | member | guest)\r\n"
    | some role =>
      ⟨[.groupMemberSet gid (normalizePrincipalToken memberTok) (some role)],
        done gid "role" [memberTok, role.asStr]⟩
  | _ => refuse "huh? (try: group role <group> <player> <role>)\r\n"

def groupPolicySet (rest : Text) : GroupOutcome :=
  match Text.splitWhitespace (Text.trim rest) with
  | groupTok :: keyTok :: valueTok :: _ => s.withGroup p groupTok .groupPolicySet fun gid =>
    ⟨[.groupPolicySet gid keyTok (some valueTok)], done gid "policy set" [keyTok ++ '=' :: valueTok]⟩
  | _ => refuse "huh? (try: group policy set <group> <key> <value>)\r\n"

def groupPolicyDel (rest : Text) : GroupOutcome :=
  match Text.splitWhitespace (Text.trim rest) with
  | groupTok :: keyTok :: _ => s.withGroup p groupTok .groupPolicySet fun gid =>
    ⟨[.groupPolicySet gid keyTok none], done gid "policy del" [keyTok]⟩
  | _ => refuse "huh? (try: group policy del <group> <key>)\r\n"

/-- The capabilities of a list of tokens, or the first token that is none. -/
def parseCaps : List Text → Except Text (List Capability)
  | [] => .ok []
  | tok :: toks => match Capability.parse tok with
    | none => .error tok
    | some cap => (parseCaps toks).map (cap :: ·)

def groupRolecapsSet (rest : Text) : GroupOutcome :=
  match Text.splitWhitespace (Text.trim rest) with
  | groupTok :: roleTok :: more => s.withGroup p groupTok .groupRoleCapsSet fun gid =>
    match GroupRole.parse roleTok with
    | none => refuse "huh? (role: owner | officer | member | guest)\r\n"
    | some role => match parseCaps more with
      -- the bad token is answered at once, and then there are no capabilities
      | .error tok => ⟨[], "huh? (bad capability: ".toList ++ tok
          ++ ")\r\nhuh? (try: caps list)\r\n".toList⟩
      | .ok [] => refuse "huh? (try: caps list)\r\n"
      | .ok caps => ⟨[.groupRoleCapsSet gid role caps],
          done gid "rolecaps set" (role.asStr :: caps.map Capability.asStr)⟩
  | _ => refuse "huh? (try: group rolecaps set <group> <role> <cap...>)\r\n"

/-- The group commands that may change the store, in the order in which they are tried. -/
def commands : List (String × (Text → GroupOutcome)) :=
  [("group create ", s.groupCreate p), ("group add ", s.groupAdd p),
    ("group remove ", s.groupRemove p), ("group role ", s.groupRole p),
    ("group policy set ", s.groupPolicySet p), ("group policy del ", s.groupPolicyDel p),
    ("group rolecaps set ", s.groupRolecapsSet p)]

def command (line : Text) : GroupOutcome :=
  ((s.commands p).findSome? fun e => (Text.stripPrefix e.1.toList line).map e.2).getD ⟨[], []⟩

end GroupStore

/-! ## Genesis -/

def groupIdAdmins : Nat := 1
def groupIdClassBase : Nat := 1000

/-- The member entry of a bootstrap admin, none for a blank one. -/
def bootstrapAdmin (who : Text) : Option GroupLogEntry :=
  let who := Text.trim who
  if who.isEmpty then none
  else
    let principal := if ':' ∈ who then who else "acct:".toList ++ who
    some (.groupMemberSet groupIdAdmins principal (some .member))

def bootstrapAdminSso (p : Text) : Option GroupLogEntry :=
  let p := Text.trim p
  if p.isEmpty then none
  else some (.groupMemberSet groupIdAdmins (normalizePrincipalToken p) (some .member))

namespace Class

def all : List Class :=
  [barbarian, bard, cleric, druid, fighter, monk, paladin, ranger, rogue, sorcerer, warlock, wizard]

end Class

/-- The entries of `ensure_genesis_groups`. No entry is about the id of another group. -/
def GroupStore.ensureGenesisGroups (s : GroupStore) (bootstrapAdmins bootstrapSso : List Text) :
    List GroupLogEntry :=
  let missing (id : Nat) := (s.groups.lookup id).isNone
  (if missing groupIdAdmins then [GroupLogEntry.groupCreate groupIdAdmins .admin "admins".toList] else [])
    ++ (Class.all.zipIdx.filterMap fun (cls, i) =>
      let id := groupIdClassBase + i
      if missing id then
        some (GroupLogEntry.groupCreate id (.cls cls.asStr) ("class:".toList ++ cls.asStr))
      else none)
    ++ bootstrapAdmins.filterMap bootstrapAdmin ++ bootstrapSso.filterMap bootstrapAdminSso

end Slopmud.Shard
