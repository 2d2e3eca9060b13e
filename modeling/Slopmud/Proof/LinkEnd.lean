import Slopmud.Proof.Keeping
import Slopmud.Proof.OneBody

/-!
# What the end of a link loses

The players are saved when they attach, when they detach, and after the loop. A link that is
closed between two frames leaves the loop by `break`, and then every live character is in the file,
unless a second character of its principal was written over it. A link that ends with any error
saves nothing: what a character gained since it was last saved is lost.
-/

namespace Slopmud.Shard

open Machine

variable {Raw Auth : Type} {J : Codec Raw (List PlayerSnapshot)} {A : Codec Auth AuthBlob}

/-! ## The file and the players in memory -/

/-- Snapshots are stored under their own principals, and the file has them all. -/
structure OnRecord (J : Codec Raw (List PlayerSnapshot)) (players : Table Text PlayerSnapshot)
    (file : Option Raw) : Prop where
  keyed : ∀ p s, players.lookup p = some s → s.principal = p
  inFile : ∀ p s, players.lookup p = some s → InFile J file s

theorem OnRecord.persist {w : World Raw}
    (hkeyed : ∀ p s, w.players.lookup p = some s → s.principal = p) :
    OnRecord J (w.persistPlayerSnapshots J true).players (w.persistPlayerSnapshots J true).file where
  keyed := hkeyed
  inFile p _ hs := inFile_persist.mpr ⟨p, hs⟩

theorem OnRecord.rememberPlayer {w : World Raw} (h : OnRecord J w.players w.file) (c : Character) :
    OnRecord J (w.rememberPlayer J true c).players (w.rememberPlayer J true c).file := by
  unfold World.rememberPlayer
  cases PlayerSnapshot.fromCharacter c with
  | none => exact h
  | some snapshot =>
    refine OnRecord.persist fun p s hs => ?_
    rw [Table.lookup_insert_eq] at hs
    split at hs
    · next hp => cases hs; exact hp.symm
    · exact h.keyed p s hs

theorem OnRecord.rememberPlayerById {w : World Raw} (h : OnRecord J w.players w.file)
    (cid : CharacterId) :
    OnRecord J (w.rememberPlayerById J true cid).players (w.rememberPlayerById J true cid).file := by
  unfold World.rememberPlayerById
  cases w.chars.lookup cid with
  | none => exact h
  | some c => exact h.rememberPlayer c

theorem OnRecord.detachOne {w : World Raw} (h : OnRecord J w.players w.file) (O : SetOrder)
    (cid : CharacterId) :
    OnRecord J (w.detachOne J O true cid).players (w.detachOne J O true cid).file := by
  unfold World.detachOne
  obtain ⟨partyOf, parties, hleave⟩ := World.partyLeave_frame O
    { w with raftWatch := w.raftWatch.erase cid, partyInvites := w.partyInvites.erase cid } cid
  rw [hleave]
  dsimp only
  cases hc : w.chars.lookup cid with
  | none => exact h
  | some c =>
    dsimp only
    generalize hw₁ : ({ w with
      raftWatch := w.raftWatch.erase cid
      partyInvites := w.partyInvites.erase cid
      partyOf, parties
      chars := w.chars.erase cid } : World Raw) = w₁
    have h₁ : OnRecord J w₁.players w₁.file := by
      subst hw₁
      exact h
    obtain ⟨occupants, hocc⟩ := World.removeOccupant_frame (w₁.rememberPlayer J true c) c.roomId cid
    rw [hocc]
    exact h₁.rememberPlayer c

theorem OnRecord.detachSession {w : World Raw} (h : OnRecord J w.players w.file) (O : SetOrder)
    (session : SessionId) :
    OnRecord J (w.detachSession J O true session).players (w.detachSession J O true session).file := by
  unfold World.detachSession
  cases w.sessions.lookup session with
  | none => exact h
  | some ss =>
    exact List.foldlRecOn (motive := fun w : World Raw => OnRecord J w.players w.file) _ _ h
      fun w hw cid _ => hw.detachOne O cid

theorem OnRecord.load (readOk : Bool) (file : Option Raw) :
    OnRecord J (loadPlayerSnapshots J readOk file) file :=
  ⟨fun _ _ hs => (loadPlayerSnapshots_spec hs).1, fun _ _ hs => (loadPlayerSnapshots_spec hs).2⟩

/-- Whatever saves nothing leaves the record as it is. -/
theorem OnRecord.walked {R : CharacterId → Character → Character → Prop} {w w' : World Raw}
    (h : OnRecord J w.players w.file) (hw : Walked R w w') : OnRecord J w'.players w'.file := by
  rw [hw.players, hw.file]
  exact h

theorem OnRecord.join {w : World Raw} (h : OnRecord J w.players w.file) (O : SetOrder)
    (r : AttachReq Auth) : OnRecord J (w.join J A O true r).players (w.join J A O true r).file := by
  have h₁ := h.detachSession O r.session
  unfold World.join World.spawnOrRestoreCharacter
  dsimp only
  split
  · exact h
  · split
    · exact h₁
    · exact h₁

theorem OnRecord.attach {w : World Raw} (h : OnRecord J w.players w.file) (O : SetOrder)
    (r : AttachReq Auth) :
    OnRecord J (w.attach A J O true r).players (w.attach A J O true r).file := by
  have hjoin : OnRecord J (w.join J A O true r).players (w.join J A O true r).file := h.join O r
  rcases attach_eq_join (J := J) (A := A) O true w r with heq | ⟨cid, heq⟩
  · rw [heq]; exact hjoin
  · rw [heq]; exact hjoin.rememberPlayerById cid

/-! ## Players are built -/

/-- The characters of players, and no others, have a snapshot. -/
def PlayersBuilt (w : World Raw) : Prop :=
  ∀ cid c, w.chars.lookup cid = some c →
    ((PlayerSnapshot.fromCharacter c).isSome ↔ c.controller.isSome)

theorem built_carries (Raw : Type) : Carries Raw
    (fun _ c => (PlayerSnapshot.fromCharacter c).isSome ↔ c.controller.isSome) (fun _ => True) where
  room _ c roomId h := by rwa [fromCharacter_isSome] at h ⊢
  saved _ _ := trivial
  spawned w session principal authCaps b _ := by simp [fromCharacter_isSome, World.newCharacter]
  restored w session s principal authCaps _ _ := by simp [fromCharacter_isSome, World.restoredCharacter]
  mob w roomId name _ := by simp [fromCharacter_isSome, World.newMob]

theorem PlayersBuilt.kept {w : World Raw} (h : PlayersBuilt w) : Kept J
    (fun _ c => (PlayerSnapshot.fromCharacter c).isSome ↔ c.controller.isSome) (fun _ => True) w :=
  ⟨h, fun _ _ _ => trivial, fun _ _ => trivial⟩

/-! ## The steps of a link -/

/-- The live players are built, and the players in memory are on file. -/
structure Accounted (J : Codec Raw (List PlayerSnapshot)) (w : World Raw) : Prop where
  built : PlayersBuilt w
  onRecord : OnRecord J w.players w.file

theorem Accounted.new (readOk : Bool) (rooms : Rooms) (file : Option Raw) :
    Accounted J (World.new J readOk rooms file) where
  built := by simp [PlayersBuilt, World.new]
  onRecord := .load readOk file

theorem Accounted.join {w : World Raw} (h : Accounted J w) (O : SetOrder) (r : AttachReq Auth) :
    Accounted J (w.join J A O true r) where
  built := by
    have hkept : Kept J _ _ w := h.built.kept
    exact (hkept.join (built_carries Raw) O true r).chars
  onRecord := h.onRecord.join O r

theorem spawnMobs_record (ms : List (Text × Text)) (w : World Raw) :
    (ms.foldl (fun w m => w.spawnMob m.1 m.2) w).players = w.players
      ∧ (ms.foldl (fun w m => w.spawnMob m.1 m.2) w).file = w.file := by
  induction ms generalizing w with
  | nil => exact ⟨rfl, rfl⟩
  | cons m ms ih => exact ih (w.spawnMob m.1 m.2)

theorem OnRecord.game {w : World Raw} (h : OnRecord J w.players w.file) (g : World.GameEffect) :
    OnRecord J (w.game g).players (w.game g).file := by
  unfold World.game
  dsimp only
  obtain ⟨hplayers, hfile⟩ := spawnMobs_record g.mobs { w with
    chars := w.chars.mapVals fun cid c => World.keepIdentity c (g.chars cid c)
    sessions := w.sessions.mapVals fun sid ss => { ss with pendingConfirm := g.pendingConfirm sid }
    rooms := g.rooms
    occupants := g.occupants
    raftWatch := g.raftWatch
    nowMs := g.nowMs }
  rw [hplayers, hfile]
  exact h

/-- The file is written whenever a move saves. -/
def ShardMove.SavesOk : ShardMove Auth → Prop
  | .attach saveOk _ _ => saveOk = true
  | .detach saveOk _ _ => saveOk = true
  | _ => True

def LinkMove.SavesOk : LinkMove Auth → Prop
  | .handle m => m.SavesOk
  | .joinUnsent saveOk _ _ => saveOk = true
  | _ => True

theorem OnRecord.shardStep {w w' : World Raw} {m : ShardMove Auth} (h : OnRecord J w.players w.file)
    (hwork : m.isWork = true) (hsaves : m.SavesOk) (hs : shardStep J A w m = some w') :
    OnRecord J w'.players w'.file := by
  have hany := Table.composes_carry fun (_ : CharacterId) (_ : Character) => True
  cases m with
  | attach saveOk O r =>
    cases (show saveOk = true from hsaves)
    cases hs
    exact h.attach O r
  | detach saveOk O session =>
    cases (show saveOk = true from hsaves)
    cases hs
    exact h.detachSession O session
  | input O session line =>
    obtain ⟨⟨p, cmd⟩, -, rfl⟩ := Option.map_eq_some_iff.mp hs
    exact h.walked (runParty_walked hany O w session p cmd)
  | drop O session cid => exact h.walked (sessionsDrop_walked hany hs)
  | killMob O cid => exact h.walked (killMob_walked hany hs)
  | game g => cases hs; exact h.game g
  | relink clean saveOk readOk rooms => cases hwork

theorem Accounted.shardStep {w w' : World Raw} {m : ShardMove Auth} (h : Accounted J w)
    (hwork : m.isWork = true) (hsaves : m.SavesOk) (hs : shardStep J A w m = some w') :
    Accounted J w' where
  built := by
    have hkept : Kept J _ _ w := h.built.kept
    refine (hkept.shardStep (built_carries Raw) (fun g _ cid c hc => ?_)
      (fun clean saveOk readOk rooms hm => ?_) hs).chars
    · rw [keepIdentity_isSome]
      exact hc
    · subst hm; cases hwork
  onRecord := h.onRecord.shardStep hwork hsaves hs

/-! ## The end -/

/-- Every live player's character is in the file as it is. -/
def NothingLost (J : Codec Raw (List PlayerSnapshot)) (w : World Raw) : Prop :=
  ∀ cid c, w.chars.lookup cid = some c → c.controller.isSome →
    ∃ s, PlayerSnapshot.fromCharacter c = some s ∧ InFile J w.file s

/-- Two live characters of one principal do not differ. -/
def PrincipalsAgree (w : World Raw) : Prop :=
  ∀ cid cid' c c', w.chars.lookup cid = some c → w.chars.lookup cid' = some c' →
    c.controller.isSome → c'.controller.isSome → c.principal = c'.principal →
      PlayerSnapshot.fromCharacter c = PlayerSnapshot.fromCharacter c'

/-- No live player's character has changed since its principal was last saved. -/
def Unchanged (w : World Raw) : Prop :=
  ∀ cid c, w.chars.lookup cid = some c → c.controller.isSome →
    w.players.lookup c.principal = PlayerSnapshot.fromCharacter c

theorem Accounted.snapshot {w : World Raw} (h : Accounted J w) {cid : CharacterId} {c : Character}
    (hc : w.chars.lookup cid = some c) (hlive : c.controller.isSome) :
    ∃ s, PlayerSnapshot.fromCharacter c = some s ∧ s.principal = c.principal := by
  obtain ⟨s, hs⟩ := Option.isSome_iff_exists.mp ((h.built cid c hc).mpr hlive)
  exact ⟨s, hs, (fromCharacter_spec hs).1⟩

/-- What has not changed is on file. -/
theorem Accounted.nothingLost {w : World Raw} (h : Accounted J w) (hsame : Unchanged w) :
    NothingLost J w := by
  intro cid c hc hlive
  obtain ⟨s, hs, -⟩ := h.snapshot hc hlive
  exact ⟨s, hs, h.onRecord.inFile c.principal s ((hsame cid c hc hlive).trans hs)⟩

theorem mem_liveSnapshots {w : World Raw} (h : PlayersBuilt w) {s : PlayerSnapshot} :
    s ∈ w.liveSnapshots ↔ ∃ cid c, w.chars.lookup cid = some c ∧ c.controller.isSome
      ∧ PlayerSnapshot.fromCharacter c = some s := by
  simp only [World.liveSnapshots, List.mem_filterMap, Table.mem_values]
  constructor
  · rintro ⟨c, ⟨cid, hc⟩, hs⟩
    exact ⟨cid, c, hc, (h cid c hc).mp (by rw [hs]; rfl), hs⟩
  · rintro ⟨cid, c, hc, -, hs⟩
    exact ⟨c, ⟨cid, hc⟩, hs⟩

theorem Accounted.persistLivePlayers {w : World Raw} (h : Accounted J w) :
    Accounted J (w.persistLivePlayers J true) where
  built := h.built
  onRecord := by
    rw [persistLivePlayers_eq]
    exact .persist (Table.fileAll_keyed h.onRecord.keyed _)

/-- **The save after the loop has every live character, as long as those of one principal agree.** -/
theorem persistLivePlayers_saves_iff {w : World Raw} (h : Accounted J w) :
    NothingLost J (w.persistLivePlayers J true) ↔ PrincipalsAgree w := by
  have hinFile : ∀ s, InFile J (w.persistLivePlayers J true).file s ↔
      ∃ p, (Table.fileAll PlayerSnapshot.principal w.players w.liveSnapshots).lookup p = some s :=
    fun s => inFile_persist
  have hkeyed := Table.fileAll_keyed h.onRecord.keyed w.liveSnapshots
  constructor
  · intro hall cid cid' c c' hc hc' hlive hlive' hp
    obtain ⟨s, hs, hmem⟩ := hall cid c hc hlive
    obtain ⟨s', hs', hmem'⟩ := hall cid' c' hc' hlive'
    obtain ⟨p, hlook⟩ := (hinFile s).mp hmem
    obtain ⟨p', hlook'⟩ := (hinFile s').mp hmem'
    -- both are stored under the one principal
    have hpp : p = p' := by
      rw [← hkeyed p s hlook, ← hkeyed p' s' hlook', (fromCharacter_spec hs).1, (fromCharacter_spec hs').1,
        hp]
    rw [hpp, hlook'] at hlook
    rw [hs, hs', hlook]
  · intro hagree cid c hc hlive
    obtain ⟨s, hs, -⟩ := h.snapshot hc hlive
    refine ⟨s, hs, (hinFile s).mpr ⟨s.principal, Table.lookup_fileAll_self ?_ ?_ _⟩⟩
    · intro s₁ h₁ s₂ h₂ hp
      obtain ⟨cid₁, c₁, hc₁, hlive₁, hs₁⟩ := (mem_liveSnapshots h.built).mp h₁
      obtain ⟨cid₂, c₂, hc₂, hlive₂, hs₂⟩ := (mem_liveSnapshots h.built).mp h₂
      rw [(fromCharacter_spec hs₁).1, (fromCharacter_spec hs₂).1] at hp
      have heq := hagree cid₁ cid₂ c₁ c₂ hc₁ hc₂ hlive₁ hlive₂ hp
      rw [hs₁, hs₂] at heq
      exact Option.some.inj heq
    · exact (mem_liveSnapshots h.built).mpr ⟨cid, c, hc, hlive, hs⟩

/-- What holds of a link, ended or not. -/
structure LinkOk (J : Codec Raw (List PlayerSnapshot)) (l : Link Raw) : Prop where
  accounted : Accounted J l.world
  closed : l.ended = some .closed → (NothingLost J l.world ↔ PrincipalsAgree l.world)

theorem LinkOk.fail {l : Link Raw} (h : Accounted J l.world) : LinkOk J l.fail where
  accounted := h
  closed := nofun

theorem LinkOk.step {l l' : Link Raw} {m : LinkMove Auth} (h : LinkOk J l) (hsaves : m.SavesOk)
    (hs : l.step J A m = some l') : LinkOk J l' := by
  unfold Link.step at hs
  split at hs
  · cases hs
  next hopen =>
  -- the link is open, so nothing is claimed of it unless this move closes it
  have hstill : ∀ w : World Raw, ∀ buf, Accounted J w → LinkOk J { l with world := w, buf } := by
    intro w buf hw
    refine ⟨hw, fun hended => ?_⟩
    rw [show l.ended = some .closed from hended] at hopen
    cases hopen rfl
  cases m with
  | received chunk =>
    cases hs
    split
    · unfold Link.close
      split
      · exact ⟨h.accounted.persistLivePlayers, fun _ => persistLivePlayers_saves_iff h.accounted⟩
      · exact .fail h.accounted
    · exact hstill _ _ h.accounted
  | readFails => cases hs; exact .fail h.accounted
  | frame =>
    dsimp only [Link.readFrame] at hs
    split at hs
    · cases hs
    · cases hs; exact .fail h.accounted
    · split at hs
      · cases hs; exact hstill _ _ h.accounted
      · cases hs; exact .fail h.accounted
  | handle m =>
    dsimp only at hs
    split at hs
    · next hwork =>
      obtain ⟨w, hw, rfl⟩ := Option.map_eq_some_iff.mp hs
      exact hstill _ _ (h.accounted.shardStep hwork hsaves hw)
    · cases hs
  | joinUnsent saveOk O r =>
    cases (show saveOk = true from hsaves)
    cases hs
    exact .fail (h.accounted.join O r)
  | writeFails => cases hs; exact .fail h.accounted

/-- **In every run of a link whose saves succeed: when the stream was closed between two frames,
nothing is lost exactly when the live characters of one principal agree; when the link ended in any
other way, nothing is lost if nobody changed since the last save.** -/
theorem link_end_keeps_progress (J : Codec Raw (List PlayerSnapshot)) (A : Codec Auth AuthBlob)
    (readOk : Bool) (rooms : Rooms) (file : Option Raw) (ms : List (LinkMove Auth)) (l : Link Raw)
    (hex : exec (Link.step J A) (Link.new J readOk rooms file) ms = some l)
    (hsaves : ∀ m ∈ ms, m.SavesOk) :
    (l.ended = some .closed → (NothingLost J l.world ↔ PrincipalsAgree l.world))
      ∧ (l.ended = some .failed → Unchanged l.world → NothingLost J l.world) := by
  have h0 : LinkOk J (Link.new J readOk rooms file) := ⟨Accounted.new readOk rooms file, nofun⟩
  have h : LinkOk J l := exec_invariant LinkOk.step h0 (along_of_forall_mem (fun m hm _ => hsaves m hm) _) hex
  exact ⟨h.closed, fun _ hsame => h.accounted.nothingLost hsame⟩

/-! ## Alice sells three stenchpouches -/

/-- The line `sell 3 stenchpouch`. -/
def sellPouches : World.GameEffect where
  chars _ c := { c with gold := c.gold + 3 }
  mobs := []
  rooms := ⟨["gate".toList], "gate".toList⟩
  occupants := ∅
  raftWatch := ∅
  pendingConfirm _ := none
  nowMs := 1000

def freshLink (ms : List (LinkMove (Option AuthBlob))) : Option (Link (Option (List PlayerSnapshot))) :=
  exec (Link.step (Codec.direct _) (Codec.direct _))
    (Link.new (Codec.direct _) true ⟨["gate".toList], "gate".toList⟩ none) ms

/-- The broker closes the stream with two players attached. -/
def closedLink : List (LinkMove (Option AuthBlob)) :=
  [.handle (attachAs 1 "alice"), .handle (attachAs 2 "bob"), .handle (.game sellPouches), .received []]

/-- The stream ends within the length of a frame. -/
def brokenLink : List (LinkMove (Option AuthBlob)) :=
  [.handle (attachAs 1 "alice"), .handle (.game sellPouches), .received [0, 0], .received []]

/-- The characters: the principal, whether a session holds the character, and its gold. -/
def players (w : World Raw) : List (CharacterId × Text × Bool × Nat) :=
  w.chars.entries.map fun e => (e.1, e.2.principal, e.2.controller.isSome, e.2.gold)

/-- Characters of different principals agree. -/
theorem principalsAgree_of_distinct {w : World Raw}
    (h : ∀ e ∈ players w, ∀ e' ∈ players w, e.2.1 = e'.2.1 → e.1 = e'.1) : PrincipalsAgree w := by
  have hmem : ∀ {cid c}, w.chars.lookup cid = some c →
      (cid, c.principal, c.controller.isSome, c.gold) ∈ players w :=
    fun {cid c} hc => List.mem_map.mpr ⟨⟨cid, c⟩, Table.lookup_eq_some_iff.mp hc, rfl⟩
  intro cid cid' c c' hc hc' _ _ hsame
  cases h _ (hmem hc) _ (hmem hc') hsame
  cases hc.symm.trans hc'
  rfl

/-- Two players are attached, and the file has what both earned. -/
theorem link_end_keeps_progress_closed :
    ∃ l, freshLink closedLink = some l ∧ l.ended = some .closed
      ∧ players l.world = [(2, "acct:bob".toList, true, 3), (1, "acct:alice".toList, true, 3)]
      ∧ NothingLost (Codec.direct _) l.world := by
  have hrun : (freshLink closedLink).map (fun l => decide (l.ended = some .closed
      ∧ players l.world = [(2, "acct:bob".toList, true, 3), (1, "acct:alice".toList, true, 3)]))
      = some true := by
    decide +kernel
  obtain ⟨l, hex, hout⟩ := Option.map_eq_some_iff.mp hrun
  obtain ⟨hended, hplayers⟩ := of_decide_eq_true hout
  -- the two are players of different principals
  have hagree : PrincipalsAgree l.world := by
    refine principalsAgree_of_distinct ?_
    rw [hplayers]
    decide
  refine ⟨l, hex, hended, hplayers, ?_⟩
  refine ((link_end_keeps_progress _ _ true _ none closedLink l hex ?_).1 hended).mpr hagree
  simp [closedLink, attachAs, LinkMove.SavesOk, ShardMove.SavesOk]

/-- **A link that breaks within a frame loses the gold that Alice earned**: the file has none of it. -/
theorem broken_link_loses_gold :
    ∃ l, freshLink brokenLink = some l ∧ l.ended = some .failed
      ∧ ¬ NothingLost (Codec.direct _) l.world := by
  have hrun : (freshLink brokenLink).map (fun l => (l.ended, (l.world.chars.lookup 1).map
      (fun c => (c.controller.isSome, c.gold)),
      ((l.world.file.bind (Codec.direct (List PlayerSnapshot)).parse).getD []).map PlayerSnapshot.gold))
      = some (some .failed, some (true, 3), [0]) := by decide +kernel
  obtain ⟨l, hl, heq⟩ := Option.map_eq_some_iff.mp hrun
  simp only [Prod.mk.injEq] at heq
  obtain ⟨hended, hlive, hfile⟩ := heq
  refine ⟨l, hl, hended, fun hall => ?_⟩
  obtain ⟨c, hc, hgold⟩ := Option.map_eq_some_iff.mp hlive
  simp only [Prod.mk.injEq] at hgold
  obtain ⟨s, hs, v, hv, hmem⟩ := hall 1 c hc hgold.1
  rw [hv, Option.getD_some] at hfile
  have hzero : s.gold ∈ v.map PlayerSnapshot.gold := List.mem_map_of_mem hmem
  rw [hfile, (fromCharacter_spec hs).2.2.1, hgold.2] at hzero
  simp at hzero

end Slopmud.Shard
