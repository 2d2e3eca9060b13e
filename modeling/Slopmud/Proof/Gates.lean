import Slopmud.Proof.Occupants
import Slopmud.Proof.Refusals

/-!
# Who goes through a gate

A line that moves a character moves its followers as well. The exit is looked at once, for the one
who gives the line: it is that character's quest values that open a gate. Whoever follows is brought
along without being asked for its own.
-/

namespace Slopmud.Shard

open Machine

variable {Raw Auth : Type} {J : Codec Raw (List PlayerSnapshot)} {A : Codec Auth AuthBlob}
  {r r' : Realm Raw} {session : SessionId} {token : Text}

/-- The exit is open to the character: its gate is, on the character's own quest values; it is not
sealed without a gate; and whoever is not built only goes to orientation. -/
structure LetsThrough (ex : ExitDef) (c : Character) : Prop where
  gate : ∀ g, ex.gate = some g → evalGateExpr c.quest g = true
  unsealed : ex.isSealed = true → ex.gate.isSome = true
  built : c.isBuilt = true ∨ ex.dest = roomSchoolOrientation

theorem letsThrough_of_wayOut {rooms : RoomMap} {c : Character} {ex : ExitDef}
    (h : Realm.wayOut rooms c token = some ex) :
    rooms.findExit c.roomId token = some ex ∧ LetsThrough ex c := by
  simp only [Realm.wayOut, Option.bind_eq_bind, Option.bind_eq_some_iff, Option.ite_none_left_eq_some,
    Option.some.injEq] at h
  obtain ⟨ex', hfind, hbuilt, hgate, hsealed, -, rfl⟩ := h
  refine ⟨hfind, fun g hg => ?_, fun hseal => ?_, ?_⟩
  · simpa [hg] using hgate
  · by_contra hnone
    exact hsealed ⟨hseal, by simpa using hnone⟩
  · by_contra hnot
    rw [not_or] at hnot
    exact hbuilt ⟨by simpa using hnot.1, .inr hnot.2⟩

namespace World

theorem lookup_relocate (w : World Raw) (src dest : Text) (cid x : CharacterId) :
    (w.relocate src dest cid).chars.lookup x
      = (w.chars.lookup x).map fun c => if x = cid then { c with roomId := dest } else c := by
  obtain ⟨occupants, hframe⟩ := removeOccupant_frame w src cid
  rw [relocate, lookup_setRoom, hframe]
  rfl

theorem lookup_foldl_relocate (src dest : Text) (l : List CharacterId) (w : World Raw) (x : CharacterId) :
    (l.foldl (fun w mid => w.relocate src dest mid) w).chars.lookup x
      = (w.chars.lookup x).map fun c => if x ∈ l then { c with roomId := dest } else c := by
  induction l generalizing w with
  | nil => simp
  | cons mid l ih =>
    rw [List.foldl_cons, ih, lookup_relocate, Option.map_map]
    congr 1
    funext c
    by_cases hx : x = mid
    · simp [hx]
    · simp [hx]

/-- The character is in the party that `cid` leads, is played by somebody, and has follow on. -/
def Follows (w : World Raw) (cid x : CharacterId) (c : Character) : Prop :=
  ∃ pid party, w.partyOf.lookup cid = some pid ∧ w.parties.lookup pid = some party ∧ party.leader = cid
    ∧ x ∈ party.members ∧ x ≠ cid ∧ c.controller.isSome = true ∧ c.followLeader = true

theorem mem_followers {w : World Raw} {cid x : CharacterId} {src : Text} (h : x ∈ w.followers cid src) :
    ∃ c, w.chars.lookup x = some c ∧ c.roomId = src ∧ w.Follows cid x c := by
  unfold followers at h
  split at h
  · cases h
  · next party hparty =>
    obtain ⟨pid, hpid, hlook⟩ := Option.bind_eq_some_iff.mp hparty
    split at h
    · next hleader =>
      obtain ⟨e, he, hsome⟩ := List.mem_filterMap.mp h
      split at hsome
      · next hcond =>
        cases hsome
        obtain ⟨hmember, hne, hplayer, hroom, hfollow⟩ := hcond
        exact ⟨e.2, AList.mem_lookup_iff.mpr he, hroom, pid, party, hpid, hlook, hleader, hmember, hne,
          hplayer, hfollow⟩
      · cases hsome
    · cases h

/-- The parties are as they were. -/
theorem relocate_follows {w : World Raw} {src dest : Text} {cid cid' x : CharacterId} {c : Character}
    (h : (w.relocate src dest cid).Follows cid' x c) : w.Follows cid' x c := by
  obtain ⟨chars, heq, -⟩ := w.relocate_frame src dest cid
  rw [heq] at h
  exact h

end World

/-- What a move did to one of the characters. -/
theorem tryMove_spec (hs : r.tryMove session token = some r') {x : CharacterId} {c c' : Character}
    (hc : r.world.chars.lookup x = some c) (hc' : r'.world.chars.lookup x = some c')
    (hmoved : c'.roomId ≠ c.roomId) :
    ∃ cid p ex, r.world.activeChar session = some (cid, p) ∧ Realm.wayOut r.rooms p token = some ex
      ∧ c'.roomId = ex.dest ∧ c.roomId = p.roomId ∧ (x = cid ∨ r.world.Follows cid x c) := by
  simp only [Realm.tryMove, Option.bind_eq_bind, Option.bind_eq_some_iff] at hs
  obtain ⟨⟨cid, p⟩, hactive, ex, hex, hs⟩ := hs
  cases hs
  refine ⟨cid, p, ex, hactive, hex, ?_⟩
  dsimp only at hc'
  rw [World.lookup_foldl_relocate, World.lookup_relocate, hc, Option.map_some, Option.map_some,
    Option.some.injEq] at hc'
  subst hc'
  by_cases hcid : x = cid
  · subst hcid
    cases hc.symm.trans (lookup_of_activeChar hactive)
    refine ⟨?_, rfl, .inl rfl⟩
    rw [if_pos rfl]
    split
    · rfl
    · rfl
  · rw [if_neg hcid] at hmoved ⊢
    by_cases hin : x ∈ (r.world.relocate p.roomId ex.dest cid).followers cid p.roomId
    · obtain ⟨d, hd, hroom, hfollows⟩ := World.mem_followers hin
      rw [World.lookup_relocate, hc, Option.map_some, if_neg hcid, Option.some.injEq] at hd
      subst hd
      rw [if_pos hin]
      exact ⟨rfl, hroom, .inr (World.relocate_follows hfollows)⟩
    · rw [if_neg hin] at hmoved
      exact absurd rfl hmoved

/-- **Gates bind the mover, and whoever follows goes where it goes.** Everybody whose room a move
changes goes through one exit, of the room that they are all in, and that exit lets the one through
who gives the line. The others are in its party and follow it. -/
theorem gates_bind_the_mover (hs : r.step J A (.going session (.tryMove token)) = some r')
    {x : CharacterId} {c c' : Character} (hc : r.world.chars.lookup x = some c)
    (hc' : r'.world.chars.lookup x = some c') (hmoved : c'.roomId ≠ c.roomId) :
    ∃ cid p ex, r.world.activeChar session = some (cid, p)
      ∧ r.rooms.findExit c.roomId token = some ex ∧ c'.roomId = ex.dest
      ∧ c.roomId = p.roomId ∧ LetsThrough ex p ∧ (x = cid ∧ c = p ∨ r.world.Follows cid x c) := by
  simp only [Realm.step, Option.ite_none_left_eq_some] at hs
  obtain ⟨cid, p, ex, hactive, hex, hdest, hroom, hwho⟩ := tryMove_spec hs.2 hc hc' hmoved
  obtain ⟨hfind, hlets⟩ := letsThrough_of_wayOut hex
  refine ⟨cid, p, ex, hactive, hroom ▸ hfind, hdest, hroom, hlets, ?_⟩
  rcases hwho with rfl | hfollows
  · exact .inl ⟨rfl, Option.some.inj (hc.symm.trans (lookup_of_activeChar hactive))⟩
  · exact .inr hfollows

/-! ## A vault -/

namespace Vault

/-- Two rooms, with a gate between them. -/
def rooms : RoomMap where
  rooms := ((∅ : Table Text RoomDef).insert "hall".toList ⟨"hall".toList, [], [],
    [⟨"north".toList, "vault".toList, true, some "gate.vault".toList⟩]⟩).insert
      "vault".toList ⟨"vault".toList, [], [], []⟩
  dynRooms := ∅
  startRoom := "hall".toList
  hasStart := by decide

/-- Alice has the key. Bob has none, and follows. -/
def saved : List PlayerSnapshot := [
  { Duel.veteran with quest := (∅ : Table Text Text).insert "gate.vault".toList ['1'] },
  { Duel.veteran with name := "bob".toList, principal := "acct:bob".toList, followLeader := true }]

abbrev VaultRealm : Type := Realm (Option (List PlayerSnapshot))

def step : VaultRealm → RealmMove (Option AuthBlob) → Option VaultRealm :=
  Realm.step (Codec.direct _) (Codec.direct _)

/-- They are a party, which Alice leads. -/
def party : Option VaultRealm :=
  exec step (Realm.new (Codec.direct _) true rooms (some saved))
    [.shard (attachAs 1 "alice"), .shard (attachAs 2 "bob"), .shard (say 1 "party create"),
      .shard (say 1 "party invite bob"), .shard (say 2 "party accept")]

def north (session : SessionId) : RealmMove (Option AuthBlob) := .going session (.tryMove "north".toList)

def place (r : VaultRealm) (cid : CharacterId) : Option Text := (r.world.chars.lookup cid).map Character.roomId

end Vault

/-- The gate is closed to Bob: he does not get in alone. Behind Alice he does. -/
theorem follower_passes_closed_gate :
    (Vault.party.map fun r : Vault.VaultRealm =>
      ((r.world.chars.lookup 2).map fun c => evalGateExpr c.quest "gate.vault".toList,
        (Vault.step r (Vault.north 2)).isSome)) = some (some false, false)
    ∧ (Vault.party.bind fun r : Vault.VaultRealm =>
        (Vault.step r (Vault.north 1)).map fun r' : Vault.VaultRealm => (Vault.place r 2, Vault.place r' 2))
      = some (some "hall".toList, some "vault".toList) := by decide +kernel

theorem gates_bind_the_mover_vault : ∃ r r' : Vault.VaultRealm,
    Vault.party = some r ∧ Vault.step r (Vault.north 1) = some r' ∧ ∃ c p ex,
      r.world.chars.lookup 2 = some c ∧ r.world.activeChar 1 = some (1, p)
        ∧ r.rooms.findExit c.roomId "north".toList = some ex ∧ LetsThrough ex p ∧ r.world.Follows 1 2 c := by
  have hrun : ((Vault.party.bind fun r : Vault.VaultRealm =>
      (Vault.step r (Vault.north 1)).map fun r' : Vault.VaultRealm =>
        (Vault.place r 2, Vault.place r' 2, (r.world.activeChar 1).map Prod.fst)))
      = some (some "hall".toList, some "vault".toList, some 1) := by decide +kernel
  obtain ⟨r, hr, hstep⟩ := Option.bind_eq_some_iff.mp hrun
  obtain ⟨r', hr', heq⟩ := Option.map_eq_some_iff.mp hstep
  simp only [Vault.place, Prod.mk.injEq, Option.map_eq_some_iff] at heq
  obtain ⟨⟨c, hc, hroom⟩, ⟨c', hc', hroom'⟩, ⟨cid, p⟩, hactive, rfl⟩ := heq
  have hmoved : c'.roomId ≠ c.roomId := by
    rw [hroom, hroom']
    decide
  obtain ⟨cid, p', ex, hactive', hfind, -, -, hlets, hwho⟩ := gates_bind_the_mover hr' hc hc' hmoved
  cases hactive.symm.trans hactive'
  refine ⟨r, r', hr, hr', c, p, ex, hc, hactive, hfind, hlets, ?_⟩
  rcases hwho with ⟨hself, -⟩ | hfollows
  · exact absurd hself (by decide)
  · exact hfollows

end Slopmud.Shard
