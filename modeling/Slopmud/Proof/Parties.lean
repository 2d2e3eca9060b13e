import Slopmud.Lib.Machine
import Slopmud.Shard.Commands

/-!
# Party membership

Two tables say who is in which party: `partyOf` from the members, `parties` from
the parties. `Partition` says that they agree and that a party has members and is
led by one of them. Every command keeps it except `party accept`, which does not
ask whether the invitee has meanwhile entered another party.

The proof looks at the two tables alone: everything else that happens to a world
leaves them as they are.
-/

namespace Slopmud.Shard

open Machine

/-- **Party membership is a partition.** -/
structure Partition (partyOf : Table CharacterId PartyId) (parties : Table PartyId Party) : Prop where
  /-- The two tables say the same. -/
  agree : ∀ c p, partyOf.lookup c = some p ↔ ∃ party, parties.lookup p = some party ∧ c ∈ party.members
  /-- A party has members. -/
  nonempty : ∀ p party, parties.lookup p = some party → party.members.Nonempty
  /-- It is led by one of them. -/
  led : ∀ p party, parties.lookup p = some party → party.leader ∈ party.members

/-- The members of a party, none when there is no such party. -/
def membersOf (parties : Table PartyId Party) (p : PartyId) : Finset CharacterId :=
  ((parties.lookup p).map Party.members).getD ∅

theorem mem_membersOf {parties : Table PartyId Party} {c : CharacterId} {p : PartyId} :
    c ∈ membersOf parties p ↔ ∃ party, parties.lookup p = some party ∧ c ∈ party.members := by
  unfold membersOf
  cases parties.lookup p <;> simp

theorem membersOf_of_lookup {parties : Table PartyId Party} {p : PartyId} {party : Party}
    (h : parties.lookup p = some party) : membersOf parties p = party.members := by
  simp [membersOf, h]

theorem membersOf_insert (parties : Table PartyId Party) (pid p : PartyId) (party : Party) :
    membersOf (parties.insert pid party) p = if p = pid then party.members else membersOf parties p := by
  unfold membersOf
  rw [Table.lookup_insert_eq]
  split <;> rfl

theorem membersOf_erase (parties : Table PartyId Party) (pid p : PartyId) :
    membersOf (parties.erase pid) p = if p = pid then ∅ else membersOf parties p := by
  unfold membersOf
  rw [Table.lookup_erase_eq]
  split <;> rfl

/-- Every party is led by one of its members. -/
def Led (parties : Table PartyId Party) : Prop :=
  ∀ p party, parties.lookup p = some party → party.leader ∈ party.members

theorem led_insert {parties : Table PartyId Party} {pid : PartyId} {party : Party} (h : Led parties)
    (hp : party.leader ∈ party.members) : Led (parties.insert pid party) := by
  intro p party' hl
  rw [Table.lookup_insert_eq] at hl
  split at hl
  · cases hl; exact hp
  · exact h p party' hl

theorem led_erase {parties : Table PartyId Party} {pid : PartyId} (h : Led parties) :
    Led (parties.erase pid) := by
  intro p party' hl
  rw [Table.lookup_erase_eq] at hl
  split at hl
  · cases hl
  · exact h p party' hl

namespace Partition

variable {partyOf : Table CharacterId PartyId} {parties parties' : Table PartyId Party}
  {c : CharacterId} {pid : PartyId} {party : Party}

theorem iff_led : Partition partyOf parties ↔
    (∀ c p, partyOf.lookup c = some p ↔ c ∈ membersOf parties p) ∧ Led parties := by
  constructor
  · intro h
    exact ⟨fun c p => (h.agree c p).trans mem_membersOf.symm, h.led⟩
  · rintro ⟨hagree, hled⟩
    exact ⟨fun c p => (hagree c p).trans mem_membersOf, fun p party h => ⟨_, hled p party h⟩, hled⟩

theorem mem_iff (h : Partition partyOf parties) (c : CharacterId) (p : PartyId) :
    partyOf.lookup c = some p ↔ c ∈ membersOf parties p := (iff_led.mp h).1 c p

theorem empty : Partition ∅ ∅ := iff_led.mpr ⟨by simp [membersOf], by simp [Led]⟩

/-- `c` is added to the members of `pid` and is in no other party. -/
theorem add (h : Partition partyOf parties)
    (hc : partyOf.lookup c = none ∨ partyOf.lookup c = some pid)
    (hmem : ∀ p, membersOf parties' p
      = if p = pid then insert c (membersOf parties p) else membersOf parties p)
    (hled : Led parties') : Partition (partyOf.insert c pid) parties' := by
  refine iff_led.mpr ⟨fun c' p => ?_, hled⟩
  have hold := h.mem_iff c' p
  rw [Table.lookup_insert_eq, hmem]
  by_cases hcc : c' = c
  · subst hcc
    by_cases hp : p = pid
    · simp [hp]
    · have hnot : partyOf.lookup c' ≠ some p := by
        rcases hc with hc | hc <;> rw [hc] <;> simp [Ne.symm hp]
      rw [ne_eq, hold] at hnot
      simp [hp, Ne.symm hp, hnot]
  · by_cases hp : p = pid
    · simp [hp, hcc, ← h.mem_iff]
    · simp [hp, hcc, hold]

/-- `c` is taken out of the members of `pid`, its party. -/
theorem remove (h : Partition partyOf parties) (hc : partyOf.lookup c = some pid)
    (hmem : ∀ p, membersOf parties' p
      = if p = pid then (membersOf parties p).erase c else membersOf parties p)
    (hled : Led parties') : Partition (partyOf.erase c) parties' := by
  refine iff_led.mpr ⟨fun c' p => ?_, hled⟩
  have hold := h.mem_iff c' p
  rw [Table.lookup_erase_eq, hmem]
  by_cases hcc : c' = c
  · subst hcc
    by_cases hp : p = pid
    · simp [hp]
    · have hnot : partyOf.lookup c' ≠ some p := by rw [hc]; simp [Ne.symm hp]
      rw [ne_eq, hold] at hnot
      simp [hp, hnot]
  · by_cases hp : p = pid
    · simp [hp, hcc, ← h.mem_iff]
    · simp [hp, hcc, hold]

/-- A new party of one who was in none. -/
theorem create (h : Partition partyOf parties) (hc : partyOf.lookup c = none)
    (hfresh : parties.lookup pid = none) :
    Partition (partyOf.insert c pid) (parties.insert pid ⟨pid, c, {c}⟩) := by
  refine h.add (Or.inl hc) (fun p => ?_) (led_insert h.led (by simp))
  rw [membersOf_insert]
  split
  · next hp => subst hp; simp [membersOf, hfresh]
  · rfl

/-- One who is in no other party joins. -/
theorem join (h : Partition partyOf parties)
    (hc : partyOf.lookup c = none ∨ partyOf.lookup c = some pid)
    (hpid : parties.lookup pid = some party) :
    Partition (partyOf.insert c pid)
      (parties.insert pid { party with members := insert c party.members }) := by
  refine h.add hc (fun p => ?_)
    (led_insert h.led (Finset.mem_insert_of_mem (h.led pid party hpid)))
  rw [membersOf_insert]
  split
  · next hp => rw [hp, membersOf_of_lookup hpid]
  · rfl

/-- A member is promoted. -/
theorem promote (h : Partition partyOf parties) (hpid : parties.lookup pid = some party)
    (hc : c ∈ party.members) :
    Partition partyOf (parties.insert pid { party with leader := c }) := by
  refine iff_led.mpr ⟨fun c' p => ?_, led_insert h.led hc⟩
  rw [h.mem_iff, membersOf_insert]
  split
  · next hp => rw [hp, membersOf_of_lookup hpid]
  · rfl

/-- The last member leaves. -/
theorem leave_last (h : Partition partyOf parties) (hc : partyOf.lookup c = some pid)
    (hpid : parties.lookup pid = some party) (hlast : party.members.erase c = ∅) :
    Partition (partyOf.erase c) (parties.erase pid) := by
  refine h.remove hc (fun p => ?_) (led_erase h.led)
  rw [membersOf_erase]
  split
  · next hp => rw [hp, membersOf_of_lookup hpid, hlast]
  · rfl

/-- A member leaves, and somebody who stays leads. -/
theorem leave_some {leader : CharacterId} (h : Partition partyOf parties)
    (hc : partyOf.lookup c = some pid) (hpid : parties.lookup pid = some party)
    (hleader : leader ∈ party.members.erase c) :
    Partition (partyOf.erase c)
      (parties.insert pid { party with leader, members := party.members.erase c }) := by
  refine h.remove hc (fun p => ?_) (led_insert h.led hleader)
  rw [membersOf_insert]
  split
  · next hp => rw [hp, membersOf_of_lookup hpid]
  · rfl

/-- A party is dissolved. -/
theorem dissolve (h : Partition partyOf parties) (hpid : parties.lookup pid = some party) :
    Partition (partyOf.retain fun c _ => decide (c ∉ party.members)) (parties.erase pid) := by
  refine iff_led.mpr ⟨fun c p => ?_, led_erase h.led⟩
  rw [Table.lookup_retain, membersOf_erase, Option.filter_eq_some_iff, decide_eq_true_eq,
    ← membersOf_of_lookup hpid, ← h.mem_iff c pid]
  by_cases hp : p = pid
  · simp [hp]
  · rw [if_neg hp, ← h.mem_iff]
    refine ⟨fun hh => hh.1, fun hh => ⟨hh, ?_⟩⟩
    rw [hh]
    simpa using hp

end Partition

/-! ## The operations -/

variable {Raw Auth : Type} {J : Codec Raw (List PlayerSnapshot)} {A : Codec Auth AuthBlob}

/-- The two tables of a world partition its characters. -/
def PartiesPartition (w : World Raw) : Prop := Partition w.partyOf w.parties

theorem partyLeave_partition {O : SetOrder} {w : World Raw} (h : PartiesPartition w)
    (cid : CharacterId) : PartiesPartition (w.partyLeave O cid) := by
  unfold World.partyLeave
  cases hc : w.partyOf.lookup cid with
  | none => exact h
  | some pid =>
      obtain ⟨party, hpid, hmem⟩ := (h.agree cid pid).mp hc
      simp only [hpid]
      split
      · next hlast => exact Partition.leave_last h hc hpid hlast
      · next hsome =>
          refine Partition.leave_some h hc hpid ?_
          split
          · exact O.first_mem _ (Finset.nonempty_iff_ne_empty.mpr hsome)
          · next hother => exact Finset.mem_erase.mpr ⟨hother, h.led pid party hpid⟩

theorem partyCreate_partition {w : World Raw} (h : PartiesPartition w) {c : CharacterId}
    (hc : w.partyOf.lookup c = none) (hfresh : w.parties.lookup w.nextPartyId = none) :
    PartiesPartition (w.partyCreate c).2 := Partition.create h hc hfresh

theorem partyDisband_partition {w : World Raw} (h : PartiesPartition w) (pid : PartyId) :
    PartiesPartition (w.partyDisband pid) := by
  unfold World.partyDisband
  cases hpid : w.parties.lookup pid with
  | none => exact h
  | some party => exact Partition.dissolve h hpid

theorem ledParty_ok {w : World Raw} {c : CharacterId} {what : String} {pid : PartyId} {party : Party}
    (h : w.ledParty c what = .ok (pid, party)) :
    w.partyOf.lookup c = some pid ∧ w.parties.lookup pid = some party ∧ party.leader = c := by
  unfold World.ledParty at h
  cases hof : w.partyOf.lookup c with
  | none => simp [hof] at h
  | some p =>
      simp only [hof] at h
      cases hp : w.parties.lookup p with
      | none => simp [hp] at h
      | some q =>
          simp only [hp] at h
          split at h
          · cases h
            exact ⟨rfl, hp, by assumption⟩
          · cases h

/-! ## The commands -/

/-- What must hold of the tables for a command of `p` to keep them: a new party gets an id that
no party has, and who accepts an invitation is in no other party. -/
def CommandOk (w : World Raw) (p : Character) : PartyCommand → Prop
  | .create | .invite _ => w.partyOf.lookup p.id = none → w.parties.lookup w.nextPartyId = none
  | .accept => ∀ inv ∈ w.partyInvites.lookup p.id, w.nowMs ≤ inv.expiresMs →
      (w.parties.lookup inv.partyId).isSome →
      w.partyOf.lookup p.id = none ∨ w.partyOf.lookup p.id = some inv.partyId
  | _ => True

instance (w : World Raw) (p : Character) (cmd : PartyCommand) : Decidable (CommandOk w p cmd) := by
  cases cmd <;> unfold CommandOk <;> infer_instance

section Commands

variable {O : SetOrder} {w : World Raw} {session : SessionId} {p : Character}

theorem doCreate_partition (h : PartiesPartition w) (hok : CommandOk w p .create) :
    PartiesPartition (w.doCreate session p).2 := by
  unfold World.doCreate
  split
  · exact h
  · next hnone =>
      have hnone : w.partyOf.lookup p.id = none := by simpa using hnone
      exact partyCreate_partition h hnone (hok hnone)

theorem doDisband_partition (h : PartiesPartition w) :
    PartiesPartition (w.doDisband session p).2 := by
  unfold World.doDisband
  split
  · exact h
  · exact partyDisband_partition h _

theorem doKick_partition (h : PartiesPartition w) (target : Text) :
    PartiesPartition (w.doKick O session p target).2 := by
  unfold World.doKick
  split
  · exact h
  split
  · exact h
  split
  · exact h
  split
  · exact h
  split
  · exact h
  · exact partyLeave_partition h _

theorem doLead_partition (h : PartiesPartition w) (target : Text) :
    PartiesPartition (w.doLead session p target).2 := by
  unfold World.doLead
  split
  · exact h
  split
  · exact h
  next pid party hled =>
  split
  · exact h
  next newLeader hfound =>
  split
  · exact h
  · -- the new leader was found among the members
    have hmem : newLeader ∈ party.members := by
      have hin : newLeader ∈ w.membersNamed party (Text.toAsciiLowercase target) :=
        World.mem_of_uniqueOf hfound
      exact World.mem_membersNamed hin
    exact Partition.promote h (ledParty_ok hled).2.1 hmem

theorem ownParty_partition (h : PartiesPartition w)
    (hfresh : w.partyOf.lookup p.id = none → w.parties.lookup w.nextPartyId = none) :
    PartiesPartition (w.ownParty p.id).2 := by
  unfold World.ownParty
  cases hc : w.partyOf.lookup p.id with
  | some pid => exact h
  | none => exact partyCreate_partition h hc (hfresh hc)

theorem inviteTo_partition (h : PartiesPartition w) (target : Text) (pid : PartyId) :
    PartiesPartition (w.inviteTo session p target pid).2 := by
  unfold World.inviteTo
  split
  · exact h
  split
  · exact h
  split
  · exact h
  split
  · exact h
  split
  · exact h
  · exact h

theorem doInvite_partition (h : PartiesPartition w) (target : Text)
    (hok : CommandOk w p (.invite target)) : PartiesPartition (w.doInvite session p target).2 := by
  unfold World.doInvite
  split
  · exact h
  · exact inviteTo_partition (ownParty_partition h hok) target _

theorem doAccept_partition (h : PartiesPartition w) (hok : CommandOk w p .accept) :
    PartiesPartition (w.doAccept session p).2 := by
  unfold World.doAccept
  cases hinv : w.partyInvites.lookup p.id with
  | none => exact h
  | some inv =>
      simp only
      split
      · exact h
      next hexp =>
      cases hpid : w.parties.lookup inv.partyId with
      | none => exact h
      | some party =>
          exact Partition.join h (hok inv hinv (Nat.le_of_not_lt hexp) (by rw [hpid]; rfl)) hpid

/-- The condition on `accept` is exact: an invitation that takes effect in another party leaves its
invitee a member of both. -/
theorem doAccept_breaks {inv : PartyInvite} {pid : PartyId} (h : PartiesPartition w)
    (hinv : w.partyInvites.lookup p.id = some inv) (htime : w.nowMs ≤ inv.expiresMs)
    (hparty : (w.parties.lookup inv.partyId).isSome) (hin : w.partyOf.lookup p.id = some pid)
    (hne : pid ≠ inv.partyId) : ¬ PartiesPartition (w.doAccept session p).2 := by
  intro hafter
  obtain ⟨party, hpid⟩ := Option.isSome_iff_exists.mp hparty
  obtain ⟨other, hother, hmem⟩ := (h.agree p.id pid).mp hin
  simp only [World.doAccept, hinv, if_neg (Nat.not_lt.mpr htime), hpid] at hafter
  -- the old party still lists the invitee, whom `partyOf` now places in the new one
  have hold := (hafter.agree p.id pid).mpr ⟨other, by
    simp only
    rw [Table.lookup_insert_eq, if_neg hne]
    exact hother, hmem⟩
  simp only at hold
  rw [Table.lookup_insert_eq, if_pos rfl] at hold
  exact hne (Option.some.inj hold).symm

theorem doLeave_partition (h : PartiesPartition w) :
    PartiesPartition (w.doLeave O session p).2 := by
  unfold World.doLeave
  split
  · exact h
  · exact partyLeave_partition h _

/-- **Every party command keeps the partition.** -/
theorem runParty_partition (h : PartiesPartition w) {cmd : PartyCommand} (hok : CommandOk w p cmd) :
    PartiesPartition (w.runParty O session p cmd).2 := by
  cases cmd with
  | create => exact doCreate_partition h hok
  | disband => exact doDisband_partition h
  | kick target => exact doKick_partition h target
  | lead target => exact doLead_partition h target
  | invite target => exact doInvite_partition h target hok
  | accept => exact doAccept_partition h hok
  | leave => exact doLeave_partition h

end Commands

/-! ## Everything else -/

theorem removeOccupant_partition {w : World Raw} (h : PartiesPartition w) (roomId : Text)
    (cid : CharacterId) : PartiesPartition (w.removeOccupant roomId cid) := by
  obtain ⟨occupants, heq⟩ := World.removeOccupant_frame w roomId cid
  rw [heq]
  exact h

theorem rememberPlayer_partition {saveOk : Bool} {w : World Raw} (h : PartiesPartition w)
    (c : Character) : PartiesPartition (w.rememberPlayer J saveOk c) := by
  obtain ⟨players, file, heq⟩ := World.rememberPlayer_frame J saveOk w c
  rw [heq]
  exact h

theorem removeChar_partition {O : SetOrder} {w : World Raw} (h : PartiesPartition w)
    (cid : CharacterId) : PartiesPartition (w.removeChar O cid) := by
  have hleft : PartiesPartition ({ w with partyInvites := w.partyInvites.erase cid }.partyLeave O cid) :=
    partyLeave_partition (by exact h) cid
  unfold World.removeChar
  simp only
  split
  · exact hleft
  · exact removeOccupant_partition (by exact hleft) _ _

theorem detachOne_partition {O : SetOrder} {saveOk : Bool} {w : World Raw} (h : PartiesPartition w)
    (cid : CharacterId) : PartiesPartition (w.detachOne J O saveOk cid) := by
  have hleft : PartiesPartition ({ w with
      raftWatch := w.raftWatch.erase cid
      partyInvites := w.partyInvites.erase cid }.partyLeave O cid) :=
    partyLeave_partition (by exact h) cid
  unfold World.detachOne
  simp only
  split
  · exact hleft
  · exact removeOccupant_partition (rememberPlayer_partition (by exact hleft) _) _ _

theorem detachSession_partition {O : SetOrder} {saveOk : Bool} {w : World Raw}
    (h : PartiesPartition w) (session : SessionId) :
    PartiesPartition (w.detachSession J O saveOk session) := by
  unfold World.detachSession
  cases w.sessions.lookup session with
  | none => exact h
  | some ss =>
      have hloop : ∀ (cids : List CharacterId) (w : World Raw), PartiesPartition w →
          PartiesPartition (cids.foldl (World.detachOne J O saveOk) w) := by
        intro cids
        induction cids with
        | nil => exact fun w h => h
        | cons cid cids ih => exact fun w h => ih _ (detachOne_partition h cid)
      exact hloop _ _ h

theorem attach_partition {O : SetOrder} {saveOk : Bool} {w : World Raw} (h : PartiesPartition w)
    (r : AttachReq Auth) : PartiesPartition (w.attach A J O saveOk r) := by
  unfold World.attach
  simp only
  split
  · exact h
  · have hdet : PartiesPartition (w.detachSession J O saveOk r.session) :=
      detachSession_partition h r.session
    generalize hx : (w.detachSession J O saveOk r.session).spawnOrRestoreCharacter r.session
      (principalFromAttach A (Text.trim r.name) r.auth) (capsFromAttach A r.auth)
      (r.build (Text.trim r.name)) = x
    have hspawned : PartiesPartition x.2 := by
      rw [← hx]
      unfold World.spawnOrRestoreCharacter
      split
      · exact hdet
      · exact hdet
    obtain ⟨players, file, heq⟩ := World.rememberPlayerById_frame J saveOk x.2 x.1
    rw [heq]
    exact hspawned

theorem game_partition {w : World Raw} (h : PartiesPartition w) (g : World.GameEffect) :
    PartiesPartition (w.game g) := by
  have hloop : ∀ (ms : List (Text × Text)) (w : World Raw), PartiesPartition w →
      PartiesPartition (ms.foldl (fun w m => w.spawnMob m.1 m.2) w) := by
    intro ms
    induction ms with
    | nil => exact fun w h => h
    | cons m ms ih => exact fun w h => ih _ h
  exact hloop _ _ h

theorem sessionsDrop_partition {O : SetOrder} {w w' : World Raw} {session : SessionId}
    {cid : CharacterId} (h : PartiesPartition w) (hd : w.sessionsDrop O session cid = some w') :
    PartiesPartition w' := by
  unfold World.sessionsDrop at hd
  split at hd
  · split at hd
    · simp only at hd
      split at hd
      · cases hd; exact removeChar_partition h cid
      · cases hd; exact removeChar_partition h cid
    · cases hd
  · cases hd

theorem killMob_partition {O : SetOrder} {w w' : World Raw} {cid : CharacterId}
    (h : PartiesPartition w) (hk : w.killMob O cid = some w') : PartiesPartition w' := by
  unfold World.killMob at hk
  split at hk
  · cases hk
  · split at hk
    · cases hk
    · cases hk; exact removeChar_partition h cid

/-! ## Runs -/

/-- The condition on a move: if it is a party command, it may be given now. -/
def PartyMoveOk (w : World Raw) : ShardMove Auth → Prop
  | .input _ session line => ∀ x ∈ w.partyCommand? session line, CommandOk w x.1 x.2
  | _ => True

instance (w : World Raw) : ∀ m : ShardMove Auth, Decidable (PartyMoveOk w m)
  | .input _ session line =>
    inferInstanceAs (Decidable (∀ x ∈ w.partyCommand? session line, CommandOk w x.1 x.2))
  | .attach .. | .detach .. | .drop .. | .killMob .. | .game _ | .relink .. => .isTrue trivial

theorem shardStep_partition {w w' : World Raw} {m : ShardMove Auth} (h : PartiesPartition w)
    (hok : PartyMoveOk w m) (hs : shardStep J A w m = some w') : PartiesPartition w' := by
  cases m with
  | attach saveOk O r => cases hs; exact attach_partition h r
  | detach saveOk O session => cases hs; exact detachSession_partition h session
  | input O session line =>
      obtain ⟨⟨p, cmd⟩, hcmd, rfl⟩ := Option.map_eq_some_iff.mp hs
      exact runParty_partition h (hok (p, cmd) hcmd)
  | drop O session cid => exact sessionsDrop_partition h hs
  | killMob O cid => exact killMob_partition h hs
  | game g => cases hs; exact game_partition h g
  | relink clean saveOk readOk rooms =>
      cases hs
      exact Partition.empty

theorem new_partition (readOk : Bool) (rooms : Rooms) (file : Option Raw) :
    PartiesPartition (World.new J readOk rooms file) := Partition.empty

/-- **In every run in which nobody accepts an invitation while in another party, party membership
is a partition in every state.** -/
theorem parties_partition (J : Codec Raw (List PlayerSnapshot)) (A : Codec Auth AuthBlob)
    (readOk : Bool) (rooms : Rooms) (file : Option Raw) (ms : List (ShardMove Auth)) (w : World Raw)
    (hex : exec (shardStep J A) (World.new J readOk rooms file) ms = some w)
    (hal : Along (shardStep J A) PartyMoveOk (World.new J readOk rooms file) ms) :
    PartiesPartition w :=
  exec_invariant shardStep_partition (new_partition readOk rooms file) hal hex

/-! ## Two players -/

/-- Ann invites Cy, who accepts. -/
def invitedRun : List (ShardMove (Option AuthBlob)) :=
  [attachAs 1 "ann", attachAs 2 "cy", say 1 "party invite cy", say 2 "party accept"]

theorem parties_partition_invited : ∃ w, freshRun invitedRun = some w ∧ PartiesPartition w := by
  have hrun : (freshRun invitedRun).isSome := by decide +kernel
  obtain ⟨w, hex⟩ := Option.isSome_iff_exists.mp hrun
  exact ⟨w, hex, parties_partition _ _ _ _ _ invitedRun w hex (by decide +kernel)⟩

/-- Cy founds a party before accepting. -/
def turncoatRun : List (ShardMove (Option AuthBlob)) :=
  [attachAs 1 "ann", attachAs 2 "cy", say 1 "party invite cy", say 2 "party create",
    say 2 "party accept"]

/-- **An invitation outlives its invitee's freedom**: Cy ends up listed in both parties. -/
theorem turncoat_in_two_parties : ∃ w, freshRun turncoatRun = some w ∧ ¬ PartiesPartition w := by
  have hrun : (freshRun turncoatRun).map (fun w =>
      (w.partyOf.lookup 2, (w.parties.lookup 1).map Party.members,
        (w.parties.lookup 2).map Party.members)) = some (some 1, some {1, 2}, some {2}) := by
    decide +kernel
  obtain ⟨w, hex, hout⟩ := Option.map_eq_some_iff.mp hrun
  simp only [Prod.mk.injEq] at hout
  obtain ⟨hof, -, htwo⟩ := hout
  refine ⟨w, hex, fun h => ?_⟩
  obtain ⟨party, hparty, hmem⟩ := Option.map_eq_some_iff.mp htwo
  have hin := (h.agree 2 2).mpr ⟨party, hparty, by rw [hmem]; simp⟩
  rw [hof] at hin
  cases hin

end Slopmud.Shard
