import Slopmud.Proof.Vitals

/-!
# Full names

Four commands take the name of a player, or the beginning of one. `find_player_by_prefix`, of
`party invite` and `party kick`, prefers a name that matches in full; `party lead` and `kill` do not,
and there a full name is taken for the beginning of a longer one.
-/

namespace Slopmud.Shard

open Machine Table

variable {Raw Auth : Type} {J : Codec Raw (List PlayerSnapshot)} {A : Codec Auth AuthBlob}

/-! ## Ids -/

/-- Characters are stored under their own ids. -/
def KeyedById (w : World Raw) : Prop := All (fun cid c => c.id = cid) w.chars

/-- Who a character is does not change. -/
def SameId (cid : CharacterId) (c c' : Character) : Prop := c.id = cid → c'.id = cid

theorem sameId_composes : Composes SameId := composes_carry fun cid (c : Character) => c.id = cid

theorem KeyedById.walked {w w' : World Raw} (h : KeyedById w) (hw : Walked SameId w w') : KeyedById w' :=
  h.evolve hw.chars fun _ _ _ hR => hR

theorem sameId_roams : Roams SameId where
  toComposes := sameId_composes
  room _ _ _ h := h

theorem levelUp_id (c : Character) : c.levelUp.id = c.id := by
  unfold Character.levelUp
  dsimp only
  split <;> rfl

theorem regen_id (nowMs : Nat) (c : Character) : (c.regen nowMs).id = c.id := by
  unfold Character.regen
  dsimp only
  repeat' split
  all_goals rfl

theorem sameId_allows (nowMs : Nat) (s : Scope) : Allows nowMs s SameId where
  toComposes := sameId_composes
  engage _ _ _ _ h := h
  standDown _ _ h := h
  cool _ _ _ h := h
  gain cid _ xp h := gainXp_induct (P := fun c => c.id = cid) (fun _ _ h => h)
    (fun c h => (levelUp_id c).trans h) xp h
  goods _ _ _ _ h := h
  pay _ _ _ h := h
  heal _ _ _ h := h
  race _ _ _ h := h
  cls _ _ h := h
  train _ _ _ _ _ _ h := h
  flags _ _ _ _ h := h
  wound _ _ _ _ _ _ h := h
  die _ _ _ _ h := h
  stun _ _ _ _ h := h

theorem rememberPlayer_chars (w : World Raw) (saveOk : Bool) (c : Character) :
    (w.rememberPlayer J saveOk c).chars = w.chars := by
  unfold World.rememberPlayer World.persistPlayerSnapshots
  split
  · rfl
  · split <;> rfl

theorem KeyedById.detachSession {w : World Raw} (h : KeyedById w) (O : SetOrder) (saveOk : Bool)
    (session : SessionId) : KeyedById (w.detachSession J O saveOk session) := by
  unfold World.detachSession
  cases w.sessions.lookup session with
  | none => exact h
  | some ss =>
    refine List.foldlRecOn (motive := KeyedById) _ _ h fun w hw cid _ => ?_
    unfold World.detachOne
    obtain ⟨partyOf, parties, hleave⟩ := World.partyLeave_frame O
      { w with raftWatch := w.raftWatch.erase cid, partyInvites := w.partyInvites.erase cid } cid
    rw [hleave]
    dsimp only
    cases hlook : w.chars.lookup cid with
    | none => exact hw
    | some c =>
      have hgone : All (fun cid c => c.id = cid) (w.chars.erase cid) :=
        hw.evolve (.erase sameId_composes _ _) fun _ _ _ hR => hR
      dsimp only
      obtain ⟨occupants, hocc⟩ := World.removeOccupant_frame _ c.roomId cid
      rw [hocc]
      unfold KeyedById
      dsimp only
      rw [rememberPlayer_chars]
      exact hgone

theorem KeyedById.attach {w : World Raw} (h : KeyedById w) (O : SetOrder) (saveOk : Bool) (r : AttachReq Auth) :
    KeyedById (w.attach A J O saveOk r) := by
  have hjoin : KeyedById (w.join J A O saveOk r) := by
    unfold World.join
    dsimp only
    split
    · exact h
    · have h₁ := h.detachSession (J := J) O saveOk r.session
      generalize w.detachSession J O saveOk r.session = w₁ at h₁ ⊢
      unfold World.spawnOrRestoreCharacter
      split
      · exact h₁.insert rfl
      · exact h₁.insert rfl
  rcases attach_eq_join (J := J) (A := A) O saveOk w r with heq | ⟨cid, heq⟩
  · rw [heq]; exact hjoin
  · rw [heq]
    unfold World.rememberPlayerById
    split
    · exact hjoin
    · unfold KeyedById
      rw [rememberPlayer_chars]
      exact hjoin

theorem KeyedById.spawnMob {w : World Raw} (h : KeyedById w) (roomId name : Text) :
    KeyedById (w.spawnMob roomId name) :=
  h.insert rfl

theorem KeyedById.realm {r r' : Realm Raw} {m : RealmMove Auth} (h : KeyedById r.world)
    (hpeace : m.isPeaceful = true) (hs : r.step J A m = some r') : KeyedById r'.world := by
  cases m with
  | shard m =>
    simp only [Realm.step, Option.ite_none_right_eq_some, Option.map_eq_some_iff] at hs
    obtain ⟨-, w, hw, rfl⟩ := hs
    have hview : KeyedById { r.world with rooms := r.rooms.view } := h
    cases m with
    | attach saveOk O req => cases hw; exact hview.attach O saveOk req
    | detach saveOk O session => cases hw; exact hview.detachSession O saveOk session
    | input O session line =>
      obtain ⟨⟨p, cmd⟩, -, rfl⟩ := Option.map_eq_some_iff.mp hw
      exact hview.walked (runParty_walked sameId_composes O _ session p cmd)
    | drop O session cid => exact hview.walked (sessionsDrop_walked sameId_composes hw)
    | _ => cases hpeace
  | going session g =>
    simp only [Realm.step, Option.ite_none_left_eq_some] at hs
    exact h.walked (go_walked sameId_roams hs.2)
  | buildNext pid => exact h.walked (buildNext_walked sameId_roams hs)
  | mobWander mob idx => exact h.walked (mobWander_walked sameId_roams hs)
  | _ => cases hpeace

/-- **Every step** -/
theorem keyed_step {b b' : Battle Raw} {m : BattleMove Auth} (h : KeyedById b.world)
    (hs : b.step J A m = some b') : KeyedById b'.world := by
  cases m with
  | realm m =>
    simp only [Battle.step, Option.ite_none_right_eq_some, Option.map_eq_some_iff] at hs
    obtain ⟨hpeace, realm, hs, rfl⟩ := hs
    exact h.realm hpeace hs
  | other e =>
    cases hs
    exact h.evolve (R := SameId) (.mapVals _ (fun _ _ hid => hid) _) fun _ _ _ hR => hR
  | spawnMob roomId name => cases hs; exact h.spawnMob roomId name
  | spawnNamedMob roomId token =>
    simp only [Battle.step, Battle.spawnNamedMob, Option.ite_none_left_eq_some, Option.some.injEq] at hs
    obtain ⟨-, rfl⟩ := hs
    have hset : ∀ (b₁ : Battle Raw) (cid : CharacterId) (hp : Int), KeyedById b₁.world →
        KeyedById (b₁.updateChar cid fun c => { c with hp, maxHp := hp }).world := by
      intro b₁ cid hp h₁
      unfold Battle.updateChar
      split
      · exact h₁
      · next c hc => exact h₁.insert (h₁ cid c hc)
    have hmob := hset (b.withWorld (b.world.spawnMob roomId (namedMob token).1)) b.world.nextCharId
      (namedMob token).2 (h.spawnMob roomId (namedMob token).1)
    split
    · exact hmob
    · exact hmob
  | clock nowMs =>
    simp only [Battle.step, Option.ite_none_right_eq_some, Option.some.injEq] at hs
    obtain ⟨-, rfl⟩ := hs
    exact h
  | regen =>
    cases hs
    refine h.evolve (R := SameId) (.mapVals _ (fun cid c hid => ?_) _) fun _ _ _ hR => hR
    split
    · exact (regen_id b.nowMs c).trans hid
    · exact hid
  | line O session text =>
    obtain ⟨a, p, hactive⟩ := Battle.activeChar_of_line hs
    exact h.walked (Battle.line_fought hactive (sameId_allows b.nowMs _) hs).toWalked
  | event O draw =>
    obtain ⟨⟨e, b₁⟩, hpop, -⟩ := Option.map_eq_some_iff.mp hs
    exact h.walked (Battle.event_walked hpop (sameId_allows b.nowMs _) hs)
  | relink clean saveOk readOk =>
    simp only [Battle.step, Realm.step, Option.map_some, Option.some.injEq] at hs
    subst hs
    exact .empty

/-- Nobody is stored under another id in a reachable state. -/
theorem keyed_run {readOk : Bool} {rooms : RoomMap} {file : Option Raw} {ms : List (BattleMove Auth)}
    {b : Battle Raw} (hex : exec (Battle.step J A) (.new J readOk rooms file) ms = some b) : KeyedById b.world :=
  exec_preserves (I := fun b => KeyedById b.world) keyed_step
    (show KeyedById (Battle.new J readOk rooms file).world from .empty) hex

/-! ## Lookups -/

theorem uniqueOf_iff {l : List CharacterId} {cid : CharacterId} : World.uniqueOf l = some cid ↔ l = [cid] := by
  unfold World.uniqueOf
  split
  · simp
  · next h => exact ⟨nofun, fun hl => absurd hl (h cid)⟩

/-- The text after the word of a command is the whole name, in whatever case. -/
structure FullName (target : Text) (c : Character) : Prop where
  trimmed : Text.trim target = target
  nonempty : target ≠ []
  same : Text.toAsciiLowercase target = Text.toAsciiLowercase c.name

namespace Battle

variable {b : Battle Raw} {cid : CharacterId} {c : Character} {target : Text}

/-- The name of the character begins with this, or is it. -/
def Begins (b : Battle Raw) (target : Text) (cid : CharacterId) : Prop :=
  ∃ c, b.char cid = some c ∧ Text.toAsciiLowercase target <+: Text.toAsciiLowercase c.name

/-- `cid` is found for `target` wherever a command looks for it. -/
structure Selects (b : Battle Raw) (target : Text) (cid : CharacterId) : Prop where
  /-- By `party invite` and `party kick`. -/
  anywhere : b.world.findPlayerByPrefix target = some cid
  /-- By `party lead`, in a party that it is in. -/
  lead : ∀ pid party, b.world.parties.lookup pid = some party → cid ∈ party.members →
    World.uniqueOf (b.world.membersNamed party (Text.toAsciiLowercase target)) = some cid
  /-- By `kill`, in a room that it is in, however the occupants are iterated. -/
  kill : ∀ O roomId, cid ∈ (b.world.occupants.lookup roomId).getD ∅ →
    (b.findMobInRoom O roomId target <|> b.findPlayerInRoom O roomId target) = some cid

/-- No longer name is in the way. -/
structure Unshadowed (b : Battle Raw) (target : Text) (cid : CharacterId) : Prop where
  /-- Of another player in one of its parties, -/
  party : ∀ pid party, b.world.parties.lookup pid = some party → cid ∈ party.members →
    ∀ other ∈ party.members, b.isPlayer other = true → b.Begins target other → other = cid
  /-- or of anybody else in its room. -/
  room : ∀ roomId, cid ∈ (b.world.occupants.lookup roomId).getD ∅ →
    ∀ other ∈ (b.world.occupants.lookup roomId).getD ∅, b.Begins target other → other = cid

theorem isPlayer_iff : b.isPlayer cid = true ↔ ∃ c, b.char cid = some c ∧ c.controller.isSome = true := by
  rw [isPlayer, Option.any_eq_true]

/-- **A name that matches in full is preferred**, and only this character's does. -/
theorem findPlayerByPrefix_of_fullName (hkeyed : KeyedById b.world) (hc : b.char cid = some c)
    (hplayer : c.controller.isSome = true)
    (halone : ∀ other c', b.char other = some c' →
      Text.toAsciiLowercase c'.name = Text.toAsciiLowercase c.name → other = cid)
    (hname : FullName target c) : b.world.findPlayerByPrefix target = some cid := by
  have hne : (Text.toAsciiLowercase target).isEmpty = false := by
    rw [List.isEmpty_eq_false_iff]
    exact fun hnil => hname.nonempty (Text.toAsciiLowercase_eq_nil.mp hnil)
  have hexact : b.world.playersNamed (· == Text.toAsciiLowercase target) = [cid] := by
    have hfilter : b.world.playersNamed (· == Text.toAsciiLowercase target)
        = ((b.world.chars.entries.filter fun e => e.2.controller.isSome
          && (Text.toAsciiLowercase e.2.name == Text.toAsciiLowercase target)).map Sigma.snd).map Character.id := by
      simp only [World.playersNamed, Table.values, List.filter_map]
      rfl
    rw [hfilter, Table.filter_entries_eq hc]
    · rw [List.map_cons, List.map_cons]
      exact congrArg (· :: []) (hkeyed cid c hc)
    · simp [hplayer, hname.same]
    · intro other c' hc' hp
      simp only [Bool.and_eq_true, beq_iff_eq] at hp
      exact halone other c' hc' (hp.2.trans hname.same)
  simp only [World.findPlayerByPrefix, hname.trimmed, hne, Bool.false_eq_true, if_false, hexact]
  rfl

theorem mem_membersNamed_iff {party : Party} {other : CharacterId} :
    other ∈ b.world.membersNamed party (Text.toAsciiLowercase target)
      ↔ other ∈ party.members ∧ b.isPlayer other = true ∧ b.Begins target other := by
  rw [World.membersNamed, List.mem_filterMap]
  constructor
  · rintro ⟨⟨cid, c⟩, hmem, he⟩
    simp only [Option.ite_none_right_eq_some, Option.some.injEq] at he
    obtain ⟨⟨hin, hplayer, hname⟩, rfl⟩ := he
    have hc : b.char cid = some c := Table.lookup_eq_some_iff.mpr hmem
    refine ⟨hin, isPlayer_iff.mpr ⟨c, hc, hplayer⟩, c, hc, ?_⟩
    rcases hname with heq | hpre
    · rw [heq]
    · exact List.isPrefixOf_iff_prefix.mp hpre
  · rintro ⟨hin, hplayer, c, hc, hpre⟩
    obtain ⟨c', hc', hcontrolled⟩ := isPlayer_iff.mp hplayer
    rw [hc] at hc'
    cases hc'
    refine ⟨⟨other, c⟩, Table.lookup_eq_some_iff.mp hc, ?_⟩
    simp only [Option.ite_none_right_eq_some, and_true]
    exact ⟨hin, hcontrolled, .inr (List.isPrefixOf_iff_prefix.mpr hpre)⟩

theorem nodup_membersNamed (w : World Raw) (party : Party) (t : Text) : (w.membersNamed party t).Nodup := by
  refine List.Pairwise.filterMap _ ?_ (List.nodupKeys_iff_pairwise.mp w.chars.nodupKeys)
  intro e e' hne cid hcid cid' hcid'
  simp only [Option.ite_none_right_eq_some, Option.some.injEq] at hcid hcid'
  rw [← hcid.2, ← hcid'.2]
  exact hne

theorem FullName.begins (hc : b.char cid = some c) (hname : FullName target c) : b.Begins target cid :=
  ⟨c, hc, by rw [hname.same]⟩

/-- **`party lead`** -/
theorem lead_iff (hc : b.char cid = some c) (hplayer : c.controller.isSome = true)
    (hname : FullName target c) {party : Party} (hin : cid ∈ party.members) :
    World.uniqueOf (b.world.membersNamed party (Text.toAsciiLowercase target)) = some cid
      ↔ ∀ other ∈ party.members, b.isPlayer other = true → b.Begins target other → other = cid := by
  have hself : cid ∈ b.world.membersNamed party (Text.toAsciiLowercase target) :=
    mem_membersNamed_iff.mpr ⟨hin, isPlayer_iff.mpr ⟨c, hc, hplayer⟩, FullName.begins hc hname⟩
  rw [uniqueOf_iff, Table.eq_singleton_iff (nodup_membersNamed _ _ _) hself]
  simp only [mem_membersNamed_iff, and_imp]

/-- Whom `find_mob_in_room` and `find_player_in_room` choose from -/
def found (b : Battle Raw) (player : Bool) (roomId target : Text) : Finset CharacterId :=
  ((b.world.occupants.lookup roomId).getD ∅).filter fun cid =>
    (b.char cid).any fun c => c.controller.isSome == player
      && (Text.toAsciiLowercase target).isPrefixOf (Text.toAsciiLowercase c.name)

theorem findInRoom_of_fullName (hname : FullName target c) (O : SetOrder) (player : Bool) (roomId : Text) :
    b.findInRoom O player roomId target = if b.found player roomId target = ∅ then none
      else some (O.first (b.found player roomId target)) := by
  have hne : (Text.toAsciiLowercase target).isEmpty = false := by
    rw [List.isEmpty_eq_false_iff]
    exact fun hnil => hname.nonempty (Text.toAsciiLowercase_eq_nil.mp hnil)
  simp only [findInRoom, hname.trimmed, hne, Bool.false_eq_true, false_or]
  rfl

theorem mem_found {player : Bool} {roomId : Text} {other : CharacterId} :
    other ∈ b.found player roomId target ↔ other ∈ (b.world.occupants.lookup roomId).getD ∅
      ∧ b.isPlayer other = player ∧ b.Begins target other := by
  rw [found, Finset.mem_filter, and_congr_right_iff, Option.any_eq_true]
  intro _
  constructor
  · rintro ⟨c, hc, hboth⟩
    simp only [Bool.and_eq_true, beq_iff_eq] at hboth
    have hsame : b.isPlayer other = c.controller.isSome := by rw [isPlayer, hc, Option.any_some]
    exact ⟨hsame.trans hboth.1, c, hc, List.isPrefixOf_iff_prefix.mp hboth.2⟩
  · rintro ⟨hkind, c, hc, hpre⟩
    rw [isPlayer, hc, Option.any_some] at hkind
    exact ⟨c, hc, by simp [hkind, List.isPrefixOf_iff_prefix.mpr hpre]⟩

/-- An order in which `cid` comes first. -/
def firstOf (cid : CharacterId) : SetOrder where
  first s := if cid ∈ s then cid else someOrder.first s
  first_mem s h := by
    split
    · assumption
    · exact someOrder.first_mem s h

/-- **`kill`** -/
theorem kill_iff (hc : b.char cid = some c) (hplayer : c.controller.isSome = true)
    (hname : FullName target c) {roomId : Text} (hin : cid ∈ (b.world.occupants.lookup roomId).getD ∅) :
    (∀ O, (b.findMobInRoom O roomId target <|> b.findPlayerInRoom O roomId target) = some cid)
      ↔ ∀ other ∈ (b.world.occupants.lookup roomId).getD ∅, b.Begins target other → other = cid := by
  have hself : b.isPlayer cid = true := isPlayer_iff.mpr ⟨c, hc, hplayer⟩
  have hmine : cid ∈ b.found true roomId target := mem_found.mpr ⟨hin, hself, FullName.begins hc hname⟩
  constructor
  · intro hall other hother hbegins
    by_contra hne
    have hrun := hall (firstOf other)
    simp only [findMobInRoom, findPlayerInRoom, findInRoom_of_fullName hname] at hrun
    by_cases hmob : b.found false roomId target = ∅
    · -- nobody but a player can be the other one, and it may come first
      have hkind : b.isPlayer other = true := by
        by_contra hno
        have hmem : other ∈ b.found false roomId target :=
          mem_found.mpr ⟨hother, eq_false_of_ne_true hno, hbegins⟩
        rw [hmob] at hmem
        cases hmem
      have hmem : other ∈ b.found true roomId target := mem_found.mpr ⟨hother, hkind, hbegins⟩
      rw [if_pos hmob, if_neg (Finset.ne_empty_of_mem hmem)] at hrun
      simp only [firstOf, if_pos hmem] at hrun
      exact hne (Option.some.inj hrun)
    · -- a mob is preferred
      rw [if_neg hmob] at hrun
      have hfirst : (firstOf other).first (b.found false roomId target) = cid := Option.some.inj hrun
      have hmem := (firstOf other).first_mem _ (Finset.nonempty_iff_ne_empty.mpr hmob)
      rw [hfirst] at hmem
      have hkind := (mem_found.mp hmem).2.1
      rw [hself] at hkind
      cases hkind
  · intro hall O
    have hmob : b.found false roomId target = ∅ := by
      refine Finset.eq_empty_iff_forall_notMem.mpr fun other hmem => ?_
      obtain ⟨hother, hkind, hbegins⟩ := mem_found.mp hmem
      obtain rfl := hall other hother hbegins
      rw [hself] at hkind
      cases hkind
    have hfirst := O.first_mem _ ⟨cid, hmine⟩
    obtain ⟨hother, -, hbegins⟩ := mem_found.mp hfirst
    simp only [findMobInRoom, findPlayerInRoom, findInRoom_of_fullName hname, if_pos hmob,
      if_neg (Finset.ne_empty_of_mem hmine), hall _ hother hbegins]
    rfl

/-- **When a full name reaches its owner**, in every reachable state. -/
theorem fullName_reaches_iff {readOk : Bool} {rooms : RoomMap} {file : Option Raw}
    {ms : List (BattleMove Auth)} (hex : exec (Battle.step J A) (.new J readOk rooms file) ms = some b)
    (hc : b.char cid = some c) (hplayer : c.controller.isSome = true)
    (halone : ∀ other c', b.char other = some c' →
      Text.toAsciiLowercase c'.name = Text.toAsciiLowercase c.name → other = cid)
    (hname : FullName target c) : b.Selects target cid ↔ b.Unshadowed target cid := by
  constructor
  · intro h
    refine ⟨fun pid party hparty hin => ?_, fun roomId hin => ?_⟩
    · exact (lead_iff hc hplayer hname hin).mp (h.lead pid party hparty hin)
    · exact (kill_iff hc hplayer hname hin).mp fun O => h.kill O roomId hin
  · intro h
    refine ⟨?_, fun pid party hparty hin => ?_, fun O roomId hin => ?_⟩
    · exact findPlayerByPrefix_of_fullName (keyed_run hex) hc hplayer halone hname
    · exact (lead_iff hc hplayer hname hin).mpr (h.party pid party hparty hin)
    · exact (kill_iff hc hplayer hname hin).mpr (h.room roomId hin) O

end Battle

namespace Duel

/-- Alice leads a party of Bobby and Bob. -/
def bobbyAndBob : List DuelMove :=
  [attachAs 1 "alice", attachAs 2 "bobby", attachAs 3 "Bob", say 1 "party create",
    say 1 "party invite bobby", say 2 "party accept", say 1 "party invite bob", say 3 "party accept"].map
    fun m => .realm (.shard m)

/-- The characters with their names, and whether a session holds them. -/
def listing (b : Duel) : List (CharacterId × Text × Bool) :=
  b.world.chars.entries.map fun e => (e.1, e.2.name, e.2.controller.isSome)

def three : List (CharacterId × Text × Bool) :=
  [(3, "Bob".toList, true), (2, "bobby".toList, true), (1, "alice".toList, true)]

theorem listed_of_char {b : Duel} {cid : CharacterId} {c : Character} (hc : b.char cid = some c) :
    (cid, c.name, c.controller.isSome) ∈ listing b :=
  List.mem_map.mpr ⟨⟨cid, c⟩, Table.lookup_eq_some_iff.mp hc, rfl⟩

theorem char_of_listed {b : Duel} {cid : CharacterId} {name : Text} {held : Bool}
    (h : (cid, name, held) ∈ listing b) :
    ∃ c, b.char cid = some c ∧ c.name = name ∧ c.controller.isSome = held := by
  obtain ⟨⟨cid', c⟩, he, heq⟩ := List.mem_map.mp h
  simp only [Prod.mk.injEq] at heq
  obtain ⟨rfl, hname, hheld⟩ := heq
  exact ⟨c, Table.lookup_eq_some_iff.mpr he, hname, hheld⟩

/-- Of the three, only those come into question whose names begin with the text. -/
theorem eq_of_listed {b : Duel} (hthree : listing b = three) {cid : CharacterId} {P : Text → Prop}
    (honly : ∀ e ∈ three, P e.2.1 → e.1 = cid) {other : CharacterId} {c : Character}
    (hc : b.char other = some c) (hP : P c.name) : other = cid :=
  honly _ (hthree ▸ listed_of_char hc) hP

end Duel

open Duel

/-- She cannot make Bob the leader, and attacks Bobby when she would attack Bob. -/
theorem bob_not_reached : ∃ b c, exec Duel.step Duel.start Duel.bobbyAndBob = some b
    ∧ b.char 3 = some c ∧ c.controller.isSome = true ∧ FullName "bob".toList c
    ∧ (∀ other c', b.char other = some c' →
        Text.toAsciiLowercase c'.name = Text.toAsciiLowercase c.name → other = 3)
    ∧ b.world.findPlayerByPrefix "bob".toList = some 3
    ∧ (∃ party, b.world.parties.lookup 1 = some party ∧ 3 ∈ party.members
      ∧ World.uniqueOf (b.world.membersNamed party "bob".toList) = none)
    ∧ 3 ∈ (b.world.occupants.lookup "arena.pit".toList).getD ∅
    ∧ (b.findMobInRoom someOrder "arena.pit".toList "bob".toList
      <|> b.findPlayerInRoom someOrder "arena.pit".toList "bob".toList) = some 2 := by
  have hrun : (exec Duel.step Duel.start Duel.bobbyAndBob).map (fun b : Duel => decide (
      listing b = three
      ∧ b.world.findPlayerByPrefix "bob".toList = some 3
      ∧ (b.world.parties.lookup 1).any (fun party => decide (3 ∈ party.members)
          && (World.uniqueOf (b.world.membersNamed party "bob".toList) == none)) = true
      ∧ 3 ∈ (b.world.occupants.lookup "arena.pit".toList).getD ∅
      ∧ (b.findMobInRoom someOrder "arena.pit".toList "bob".toList
        <|> b.findPlayerInRoom someOrder "arena.pit".toList "bob".toList) = some 2)) = some true := by
    decide +kernel
  obtain ⟨b, hex, hb⟩ := Option.map_eq_some_iff.mp hrun
  obtain ⟨hthree, hfind, hlead, hroom, hkill⟩ := of_decide_eq_true hb
  simp only [Option.any_eq_true, Bool.and_eq_true, decide_eq_true_eq, beq_iff_eq] at hlead
  obtain ⟨c, hc, hname, hplayer⟩ := char_of_listed (hthree ▸ List.mem_cons_self :
    ((3 : CharacterId), "Bob".toList, true) ∈ listing b)
  refine ⟨b, c, hex, hc, hplayer, ⟨by decide, by decide, ?_⟩, ?_, hfind, hlead, hroom, hkill⟩
  · rw [hname]
    decide
  · intro other c' hc' hsame
    rw [hname] at hsame
    exact eq_of_listed hthree (P := fun name => Text.toAsciiLowercase name = "bob".toList)
      (by decide) hc' hsame

/-- Bobby, in the same party and the same room, is found wherever he is looked for: no name but his
own begins with it. -/
theorem bobby_reached : ∃ b, exec Duel.step Duel.start Duel.bobbyAndBob = some b
    ∧ (∃ party, b.world.parties.lookup 1 = some party ∧ ∀ cid ∈ three.map Prod.fst, cid ∈ party.members)
    ∧ (∀ cid ∈ three.map Prod.fst, cid ∈ (b.world.occupants.lookup "arena.pit".toList).getD ∅)
    ∧ b.Selects "bobby".toList 2 := by
  have hrun : (exec Duel.step Duel.start Duel.bobbyAndBob).map (fun b : Duel => decide (
      listing b = three
      ∧ (b.world.parties.lookup 1).any (fun party => decide (∀ cid ∈ three.map Prod.fst, cid ∈ party.members)) = true
      ∧ ∀ cid ∈ three.map Prod.fst, cid ∈ (b.world.occupants.lookup "arena.pit".toList).getD ∅)) = some true := by
    decide +kernel
  obtain ⟨b, hex, hb⟩ := Option.map_eq_some_iff.mp hrun
  obtain ⟨hthree, hparty, hroom⟩ := of_decide_eq_true hb
  simp only [Option.any_eq_true, decide_eq_true_eq] at hparty
  obtain ⟨c, hc, hname, hplayer⟩ := char_of_listed (hthree ▸ List.mem_cons_of_mem _ List.mem_cons_self :
    ((2 : CharacterId), "bobby".toList, true) ∈ listing b)
  have hfull : FullName "bobby".toList c := ⟨by decide, by decide, by rw [hname]⟩
  -- of the three names only `bobby` begins with `bobby`
  have hbegins : ∀ other, b.Begins "bobby".toList other → other = 2 := by
    intro other hbegins
    obtain ⟨c', hc', hpre⟩ := hbegins
    exact eq_of_listed hthree
      (P := fun name => Text.toAsciiLowercase "bobby".toList <+: Text.toAsciiLowercase name)
      (by decide) hc' hpre
  refine ⟨b, hex, hparty, hroom, ?_⟩
  refine (Battle.fullName_reaches_iff hex hc hplayer ?_ hfull).mpr ?_
  · intro other c' hc' hsame
    rw [hname] at hsame
    exact eq_of_listed hthree (P := fun name => Text.toAsciiLowercase name = "bobby".toList)
      (by decide) hc' hsame
  · exact ⟨fun _ _ _ _ other _ _ h => hbegins other h, fun _ _ other _ h => hbegins other h⟩

end Slopmud.Shard
