import Slopmud.Lib.Machine
import Slopmud.Proof.Snapshots
import Slopmud.Shard.Commands

/-!
# One body for each principal

Snapshots belong to principals, characters to sessions. As long as no session
attaches for a principal whose character another session is playing, a principal
has at most one live character, and attaching and detaching move its goods
between the character and the snapshot without changing them. `spawn_or_restore`
does not look whether the principal is live, so a second session makes a second
body out of the old snapshot.
-/

namespace Slopmud.Shard

open Machine

variable {Raw Auth : Type} {J : Codec Raw (List PlayerSnapshot)} {A : Codec Auth AuthBlob}

/-! ## The invariant -/

/-- Every snapshot in the file is one that the shard wrote. -/
def FileWritten (J : Codec Raw (List PlayerSnapshot)) (file : Option Raw) : Prop :=
  ∀ v, file.bind J.parse = some v → ∀ s ∈ v, s.Written

structure Embodied (J : Codec Raw (List PlayerSnapshot)) (w : World Raw) : Prop where
  /-- Characters are stored under their own ids, which are used up. -/
  key : ∀ cid c, w.chars.lookup cid = some c → c.id = cid ∧ cid < w.nextCharId
  /-- A session plays one character. -/
  plays : ∀ sid ss, w.sessions.lookup sid = some ss →
    ∃ cid c, ss.controlled = [cid] ∧ w.chars.lookup cid = some c ∧ c.controller = some sid
  /-- A controlled character is a built one, and its session plays it. -/
  played : ∀ cid c sid, w.chars.lookup cid = some c → c.controller = some sid →
    (∃ ss, w.sessions.lookup sid = some ss ∧ ss.controlled = [cid])
      ∧ (PlayerSnapshot.fromCharacter c).isSome
  /-- Mobs are never saved. -/
  mob : ∀ cid c, w.chars.lookup cid = some c → c.controller = none →
    PlayerSnapshot.fromCharacter c = none
  /-- A principal has one live character. -/
  one : ∀ cid cid' c c', w.chars.lookup cid = some c → w.chars.lookup cid' = some c' →
    c.controller.isSome → c'.controller.isSome → c.principal = c'.principal → cid = cid'
  /-- Snapshots are stored under their own principals, as they were written. -/
  saved : ∀ p s, w.players.lookup p = some s → s.principal = p ∧ s.Written
  /-- So are those in the file. -/
  file : FileWritten J w.file

/-! ## Saving -/

theorem fileWritten_print {l : List PlayerSnapshot} (h : ∀ s ∈ l, s.Written) :
    FileWritten J (some (J.print l)) := by
  intro v hv s hs
  simp only [Option.bind_some, Codec.parse_print, Option.some.injEq] at hv
  exact h s (hv ▸ hs)

/-- What a save does to the file: nothing, or it writes the players. -/
theorem persist_spec {saveOk : Bool} (w : World Raw) :
    ∃ file, w.persistPlayerSnapshots J saveOk = { w with file } ∧
      ((∀ p s, w.players.lookup p = some s → s.Written) → FileWritten J w.file →
        FileWritten J file) := by
  unfold World.persistPlayerSnapshots
  split
  · refine ⟨_, rfl, fun hplayers _ => fileWritten_print fun s hs => ?_⟩
    have hval : s ∈ Table.values w.players := (List.mergeSort_perm _ _).mem_iff.mp hs
    obtain ⟨p, hp⟩ := Table.mem_values.mp hval
    exact hplayers p s hp
  · exact ⟨w.file, rfl, fun _ hfile => hfile⟩

/-- What saving a built character does. -/
theorem rememberPlayer_spec {saveOk : Bool} (w : World Raw) {c : Character} {s : PlayerSnapshot}
    (hs : PlayerSnapshot.fromCharacter c = some s)
    (hplayers : ∀ p s, w.players.lookup p = some s → s.Written) (hfile : FileWritten J w.file) :
    ∃ file, w.rememberPlayer J saveOk c
        = { w with players := w.players.insert c.principal s, file }
      ∧ FileWritten J file := by
  obtain ⟨hprincipal, -⟩ := fromCharacter_spec hs
  simp only [World.rememberPlayer, hs, hprincipal]
  obtain ⟨file, heq, hwritten⟩ := persist_spec (J := J)
    { w with players := w.players.insert c.principal s }
  refine ⟨file, heq, hwritten ?_ hfile⟩
  intro p s' hs'
  rw [Table.lookup_insert_eq] at hs'
  split at hs'
  · cases hs'; exact ⟨c, hs⟩
  · exact hplayers p s' hs'

theorem loadPlayerSnapshots_written {readOk : Bool} {file : Option Raw} (hfile : FileWritten J file)
    {p : Text} {s : PlayerSnapshot} (h : (loadPlayerSnapshots J readOk file).lookup p = some s) :
    s.principal = p ∧ s.Written := by
  obtain ⟨hp, v, hv, hmem⟩ := loadPlayerSnapshots_spec h
  exact ⟨hp, hfile v hv s hmem⟩

theorem embodied_new {readOk : Bool} {rooms : Rooms} {file : Option Raw}
    (hfile : FileWritten J file) : Embodied J (World.new J readOk rooms file) where
  key := by simp [World.new]
  plays := by simp [World.new]
  played := by simp [World.new]
  mob := by simp [World.new]
  one := by simp [World.new]
  saved := fun _ _ h => loadPlayerSnapshots_written hfile h
  file := hfile

/-! ## Detaching -/

/-- A world seen through what this module is about. -/
def SameBodies (w w' : World Raw) : Prop :=
  w'.chars = w.chars ∧ w'.sessions = w.sessions ∧ w'.players = w.players
    ∧ w'.nextCharId = w.nextCharId ∧ w'.file = w.file

theorem Embodied.congr {w w' : World Raw} (h : Embodied J w) (hs : SameBodies w w') :
    Embodied J w' := by
  obtain ⟨hc, hss, hp, hn, hf⟩ := hs
  constructor
  · rw [hc, hn]; exact h.key
  · rw [hc, hss]; exact h.plays
  · rw [hc, hss]; exact h.played
  · rw [hc]; exact h.mob
  · rw [hc]; exact h.one
  · rw [hp]; exact h.saved
  · rw [hf]; exact h.file

/-- **What detaching a session does**: nothing when it is not attached; otherwise its one
character leaves, and its snapshot is saved. -/
structure Detached (J : Codec Raw (List PlayerSnapshot)) (w w' : World Raw) (sid : SessionId)
    (cid : CharacterId) (c : Character) (s : PlayerSnapshot) : Prop where
  char : w.chars.lookup cid = some c
  controller : c.controller = some sid
  snapshot : PlayerSnapshot.fromCharacter c = some s
  chars : w'.chars = w.chars.erase cid
  sessions : w'.sessions = w.sessions.erase sid
  players : w'.players = w.players.insert c.principal s
  nextCharId : w'.nextCharId = w.nextCharId
  file : FileWritten J w'.file

theorem detachSession_spec {O : SetOrder} {saveOk : Bool} {w : World Raw} (h : Embodied J w)
    (sid : SessionId) :
    w.sessions.lookup sid = none ∧ w.detachSession J O saveOk sid = w
    ∨ ∃ cid c s, Detached J w (w.detachSession J O saveOk sid) sid cid c s := by
  unfold World.detachSession
  cases hss : w.sessions.lookup sid with
  | none => exact Or.inl ⟨rfl, rfl⟩
  | some ss =>
      right
      obtain ⟨cid, c, hcontrolled, hc, hcontroller⟩ := h.plays sid ss hss
      obtain ⟨s, hs⟩ := Option.isSome_iff_exists.mp (h.played cid c sid hc hcontroller).2
      refine ⟨cid, c, s, ?_⟩
      simp only [hcontrolled, List.foldl_cons, List.foldl_nil, World.detachOne]
      obtain ⟨partyOf, parties, hleave⟩ := World.partyLeave_frame O
        { w with
          sessions := w.sessions.erase sid
          raftWatch := w.raftWatch.erase cid
          partyInvites := w.partyInvites.erase cid } cid
      simp only [hleave, hc]
      generalize hw₁ : ({ w with
        sessions := w.sessions.erase sid
        raftWatch := w.raftWatch.erase cid
        partyInvites := w.partyInvites.erase cid
        partyOf, parties
        chars := w.chars.erase cid } : World Raw) = w₁
      obtain ⟨file, hrem, hfile⟩ := rememberPlayer_spec (J := J)  w₁ hs
        (by subst hw₁; exact fun p s hs => (h.saved p s hs).2) (by subst hw₁; exact h.file)
      obtain ⟨occupants, hocc⟩ := World.removeOccupant_frame (w₁.rememberPlayer J saveOk c) c.roomId cid
      rw [hocc, hrem]
      subst hw₁
      exact ⟨hc, hcontroller, hs, rfl, rfl, rfl, rfl, hfile⟩

/-- **Detaching keeps the invariant.** -/
theorem Detached.embodied {w w' : World Raw} {sid : SessionId} {cid : CharacterId} {c : Character}
    {s : PlayerSnapshot} (h : Embodied J w) (hd : Detached J w w' sid cid c s) : Embodied J w' := by
  -- who is left was there before and is not the one who went
  have hleft : ∀ cid' c', w'.chars.lookup cid' = some c' → cid' ≠ cid ∧ w.chars.lookup cid' = some c' := by
    intro cid' c' hc'
    rw [hd.chars, Table.lookup_erase_eq] at hc'
    split at hc'
    · cases hc'
    · exact ⟨by assumption, hc'⟩
  have hsess : ∀ sid', sid' ≠ sid → w'.sessions.lookup sid' = w.sessions.lookup sid' := by
    intro sid' hne
    rw [hd.sessions, Table.lookup_erase_eq, if_neg hne]
  constructor
  · intro cid' c' hc'
    rw [hd.nextCharId]
    exact h.key cid' c' (hleft cid' c' hc').2
  · intro sid' ss' hss'
    rw [hd.sessions, Table.lookup_erase_eq] at hss'
    split at hss'
    · cases hss'
    · next hne =>
        obtain ⟨cid', c', hcontrolled, hc', hcontroller⟩ := h.plays sid' ss' hss'
        refine ⟨cid', c', hcontrolled, ?_, hcontroller⟩
        -- the character that left was played by `sid`
        have hcid : cid' ≠ cid := by
          intro heq
          subst heq
          rw [hd.char] at hc'
          cases hc'
          rw [hd.controller] at hcontroller
          exact hne (Option.some.inj hcontroller).symm
        rw [hd.chars, Table.lookup_erase_eq, if_neg hcid]
        exact hc'
  · intro cid' c' sid' hc' hcontroller
    obtain ⟨hne, hc'⟩ := hleft cid' c' hc'
    obtain ⟨⟨ss, hss, hcontrolled⟩, hbuilt⟩ := h.played cid' c' sid' hc' hcontroller
    refine ⟨⟨ss, ?_, hcontrolled⟩, hbuilt⟩
    -- `sid` played the character that left, and only that one
    have hsid : sid' ≠ sid := by
      intro heq
      subst heq
      obtain ⟨⟨ss', hss', hcontrolled'⟩, -⟩ := h.played cid c sid' hd.char hd.controller
      rw [hss] at hss'
      cases hss'
      rw [hcontrolled] at hcontrolled'
      exact hne (List.head_eq_of_cons_eq hcontrolled')
    rw [hsess sid' hsid]
    exact hss
  · intro cid' c' hc'
    exact h.mob cid' c' (hleft cid' c' hc').2
  · intro cid₁ cid₂ c₁ c₂ h₁ h₂
    exact h.one cid₁ cid₂ c₁ c₂ (hleft cid₁ c₁ h₁).2 (hleft cid₂ c₂ h₂).2
  · intro p s' hs'
    rw [hd.players, Table.lookup_insert_eq] at hs'
    split at hs'
    · next hp =>
        cases hs'
        exact ⟨(fromCharacter_spec hd.snapshot).1.trans hp.symm, c, hd.snapshot⟩
    · exact h.saved p s' hs'
  · exact hd.file

theorem detachSession_embodied {O : SetOrder} {saveOk : Bool} {w : World Raw} (h : Embodied J w)
    (sid : SessionId) : Embodied J (w.detachSession J O saveOk sid) := by
  rcases detachSession_spec (O := O)  h sid with ⟨-, heq⟩ | ⟨cid, c, s, hd⟩
  · rw [heq]; exact h
  · exact hd.embodied h

/-- After detaching, every controlled character left belongs to another session. -/
theorem detachSession_others {O : SetOrder} {saveOk : Bool} {w : World Raw} (h : Embodied J w)
    {sid : SessionId} {cid : CharacterId} {c : Character}
    (hc : (w.detachSession J O saveOk sid).chars.lookup cid = some c) :
    w.chars.lookup cid = some c ∧ c.controller ≠ some sid := by
  rcases detachSession_spec (O := O) h sid with ⟨hnone, heq⟩ | ⟨cid', c', s, hd⟩
  · rw [heq] at hc
    refine ⟨hc, fun hcontroller => ?_⟩
    obtain ⟨⟨ss, hss, -⟩, -⟩ := h.played cid c sid hc hcontroller
    rw [hnone] at hss
    cases hss
  · rw [hd.chars, Table.lookup_erase_eq] at hc
    split at hc
    · cases hc
    · next hne =>
        refine ⟨hc, fun hcontroller => ?_⟩
        obtain ⟨⟨ss, hss, hcontrolled⟩, -⟩ := h.played cid c sid hc hcontroller
        obtain ⟨⟨ss', hss', hcontrolled'⟩, -⟩ := h.played cid' c' sid hd.char hd.controller
        rw [hss] at hss'
        cases hss'
        rw [hcontrolled] at hcontrolled'
        exact hne (List.head_eq_of_cons_eq hcontrolled')

theorem detachSession_none {O : SetOrder} {saveOk : Bool} {w : World Raw} (h : Embodied J w)
    (sid : SessionId) : (w.detachSession J O saveOk sid).sessions.lookup sid = none := by
  rcases detachSession_spec (O := O) h sid with ⟨hnone, heq⟩ | ⟨cid', c', s, hd⟩
  · rw [heq]; exact hnone
  · rw [hd.sessions, Table.lookup_erase_eq, if_pos rfl]

theorem detachSession_nextCharId {O : SetOrder} {saveOk : Bool} {w : World Raw} (h : Embodied J w)
    (sid : SessionId) : (w.detachSession J O saveOk sid).nextCharId = w.nextCharId := by
  rcases detachSession_spec (O := O) h sid with ⟨-, heq⟩ | ⟨cid', c', s, hd⟩
  · rw [heq]
  · exact hd.nextCharId

/-! ## Attaching -/

/-- **What attaching a session that is not attached does**: the new character enters under the
next id, and is saved at once. -/
structure Entered (J : Codec Raw (List PlayerSnapshot)) (w w' : World Raw) (sid : SessionId)
    (c : Character) (s : PlayerSnapshot) : Prop where
  id : c.id = w.nextCharId
  controller : c.controller = some sid
  snapshot : PlayerSnapshot.fromCharacter c = some s
  chars : w'.chars = w.chars.insert c.id c
  sessions : w'.sessions = w.sessions.insert sid ⟨[c.id], c.id, none⟩
  players : w'.players = w.players.insert c.principal s
  nextCharId : w'.nextCharId = w.nextCharId + 1
  file : FileWritten J w'.file

theorem enter_spec {saveOk : Bool} {w : World Raw} (h : Embodied J w) {sid : SessionId}
    (hnone : w.sessions.lookup sid = none) (hleft : w.nextCharId < Word.maxU64) {c : Character}
    {s : PlayerSnapshot} (hid : c.id = w.nextCharId) (hcontroller : c.controller = some sid)
    (hs : PlayerSnapshot.fromCharacter c = some s) :
    Entered J w ((w.enter sid c).rememberPlayerById J saveOk w.nextCharId) sid c s := by
  have hc : (w.enter sid c).chars.lookup w.nextCharId = some c := by
    rw [← hid]
    exact AList.lookup_insert _
  obtain ⟨file, hrem, hfile⟩ := rememberPlayer_spec (w.enter sid c) hs
    (fun p s hs => (h.saved p s hs).2) h.file
  unfold World.rememberPlayerById
  rw [hc]
  simp only
  rw [hrem]
  refine ⟨hid, hcontroller, hs, rfl, ?_, rfl, Word.satAdd64_of_lt hleft, hfile⟩
  simp [World.enter, World.control, World.addOccupant, hnone]

/-- **Entering keeps the invariant**, when the principal is not live. -/
theorem Entered.embodied {w w' : World Raw} {sid : SessionId} {c : Character} {s : PlayerSnapshot}
    (h : Embodied J w) (he : Entered J w w' sid c s) (hnone : w.sessions.lookup sid = none)
    (hfree : ∀ cid c', w.chars.lookup cid = some c' → c'.controller.isSome →
      c'.principal ≠ c.principal) : Embodied J w' := by
  have hold : ∀ cid c', w.chars.lookup cid = some c' → cid ≠ c.id := by
    intro cid c' hc'
    rw [he.id]
    exact Nat.ne_of_lt (h.key cid c' hc').2
  have hin : ∀ cid c', w'.chars.lookup cid = some c' →
      (cid = c.id ∧ c' = c) ∨ (cid ≠ c.id ∧ w.chars.lookup cid = some c') := by
    intro cid c' hc'
    rw [he.chars, Table.lookup_insert_eq] at hc'
    split at hc'
    · next heq => cases hc'; exact Or.inl ⟨heq, rfl⟩
    · next hne => exact Or.inr ⟨hne, hc'⟩
  constructor
  · intro cid c' hc'
    rw [he.nextCharId]
    rcases hin cid c' hc' with ⟨rfl, rfl⟩ | ⟨-, hc'⟩
    · exact ⟨rfl, by rw [he.id]; exact Nat.lt_succ_self _⟩
    · exact ⟨(h.key cid c' hc').1, Nat.lt_succ_of_lt (h.key cid c' hc').2⟩
  · intro sid' ss hss
    rw [he.sessions, Table.lookup_insert_eq] at hss
    split at hss
    · next heq =>
        cases hss
        refine ⟨c.id, c, rfl, ?_, heq ▸ he.controller⟩
        rw [he.chars, Table.lookup_insert_eq, if_pos rfl]
    · obtain ⟨cid, c', hcontrolled, hc', hcontroller⟩ := h.plays sid' ss hss
      refine ⟨cid, c', hcontrolled, ?_, hcontroller⟩
      rw [he.chars, Table.lookup_insert_eq, if_neg (hold cid c' hc')]
      exact hc'
  · intro cid c' sid' hc' hcontroller
    rcases hin cid c' hc' with ⟨rfl, rfl⟩ | ⟨-, hc'⟩
    · rw [he.controller] at hcontroller
      cases hcontroller
      exact ⟨⟨⟨[c'.id], c'.id, none⟩, by rw [he.sessions, Table.lookup_insert_eq, if_pos rfl], rfl⟩,
        by rw [he.snapshot]; rfl⟩
    · obtain ⟨⟨ss, hss, hcontrolled⟩, hbuilt⟩ := h.played cid c' sid' hc' hcontroller
      refine ⟨⟨ss, ?_, hcontrolled⟩, hbuilt⟩
      have hne : sid' ≠ sid := by
        intro heq
        rw [heq, hnone] at hss
        cases hss
      rw [he.sessions, Table.lookup_insert_eq, if_neg hne]
      exact hss
  · intro cid c' hc' hcontroller
    rcases hin cid c' hc' with ⟨-, rfl⟩ | ⟨-, hc'⟩
    · rw [he.controller] at hcontroller
      cases hcontroller
    · exact h.mob cid c' hc' hcontroller
  · intro cid₁ cid₂ c₁ c₂ h₁ h₂ hp₁ hp₂ hprincipal
    rcases hin cid₁ c₁ h₁ with ⟨rfl, rfl⟩ | ⟨-, h₁⟩
    · rcases hin cid₂ c₂ h₂ with ⟨rfl, -⟩ | ⟨-, h₂⟩
      · rfl
      · exact absurd hprincipal.symm (hfree cid₂ c₂ h₂ hp₂)
    · rcases hin cid₂ c₂ h₂ with ⟨rfl, rfl⟩ | ⟨-, h₂⟩
      · exact absurd hprincipal (hfree cid₁ c₁ h₁ hp₁)
      · exact h.one cid₁ cid₂ c₁ c₂ h₁ h₂ hp₁ hp₂ hprincipal
  · intro p s' hs'
    rw [he.players, Table.lookup_insert_eq] at hs'
    split at hs'
    · next hp =>
        cases hs'
        exact ⟨(fromCharacter_spec he.snapshot).1.trans hp.symm, c, he.snapshot⟩
    · exact h.saved p s' hs'
  · exact he.file

/-- The principal a session attaches for. -/
def AttachReq.principal (A : Codec Auth AuthBlob) (r : AttachReq Auth) : Text :=
  principalFromAttach A (Text.trim r.name) r.auth

theorem attach_eq (O : SetOrder) (saveOk : Bool) (w : World Raw) {r : AttachReq Auth}
    (hname : (Text.trim r.name).isEmpty = false) :
    w.attach A J O saveOk r =
      (((w.detachSession J O saveOk r.session).spawnOrRestoreCharacter r.session (r.principal A)
        (capsFromAttach A r.auth) (r.build (Text.trim r.name))).2).rememberPlayerById J saveOk
      ((w.detachSession J O saveOk r.session).spawnOrRestoreCharacter r.session (r.principal A)
        (capsFromAttach A r.auth) (r.build (Text.trim r.name))).1 := by
  unfold World.attach
  simp only [hname, Bool.false_eq_true, if_false]
  rfl

/-- **What an attach does**, for a request with a name: it detaches the session, then a character
enters whose principal is that of the request, restored from the saved snapshot if there is one. -/
theorem attach_spec {O : SetOrder} {saveOk : Bool} {w : World Raw} (h : Embodied J w)
    {r : AttachReq Auth} (hname : (Text.trim r.name).isEmpty = false)
    (hleft : w.nextCharId < Word.maxU64) :
    ∃ c s, Entered J (w.detachSession J O saveOk r.session) (w.attach A J O saveOk r) r.session c s
      ∧ c.principal = r.principal A
      ∧ ∀ s', (w.detachSession J O saveOk r.session).players.lookup (r.principal A) = some s' →
          c = (w.detachSession J O saveOk r.session).restoredCharacter r.session s' (r.principal A)
            (capsFromAttach A r.auth) := by
  have h₁ : Embodied J (w.detachSession J O saveOk r.session) := detachSession_embodied h r.session
  have hnone : (w.detachSession J O saveOk r.session).sessions.lookup r.session = none :=
    detachSession_none h r.session
  have hid : (w.detachSession J O saveOk r.session).nextCharId = w.nextCharId :=
    detachSession_nextCharId h r.session
  rw [attach_eq O saveOk w hname]
  generalize w.detachSession J O saveOk r.session = w₁ at h₁ hnone hid ⊢
  rw [← hid] at hleft
  unfold World.spawnOrRestoreCharacter
  cases hp : w₁.players.lookup (r.principal A) with
  | some snapshot =>
      obtain ⟨s, hs⟩ := Option.isSome_iff_exists.mp (fromCharacter_isSome (c :=
        w₁.restoredCharacter r.session snapshot (r.principal A) (capsFromAttach A r.auth)) |>.mpr
        ⟨rfl, rfl⟩)
      refine ⟨w₁.restoredCharacter r.session snapshot (r.principal A) (capsFromAttach A r.auth), s,
        enter_spec h₁ hnone hleft rfl rfl hs, rfl, ?_⟩
      intro s' hs'
      cases hs'
      rfl
  | none =>
      obtain ⟨s, hs⟩ := Option.isSome_iff_exists.mp (fromCharacter_isSome (c :=
        w₁.newCharacter r.session (r.principal A) (capsFromAttach A r.auth)
          (r.build (Text.trim r.name))) |>.mpr ⟨rfl, rfl⟩)
      refine ⟨w₁.newCharacter r.session (r.principal A) (capsFromAttach A r.auth)
        (r.build (Text.trim r.name)), s, enter_spec h₁ hnone hleft rfl rfl hs, rfl, ?_⟩
      intro s' hs'
      cases hs'

/-! ## The other moves -/

theorem SameBodies.refl (w : World Raw) : SameBodies w w := ⟨rfl, rfl, rfl, rfl, rfl⟩

theorem runParty_sameBodies (O : SetOrder) (w : World Raw) (session : SessionId) (p : Character)
    (cmd : PartyCommand) : SameBodies w (w.runParty O session p cmd).2 := by
  obtain ⟨nextPartyId, parties, partyOf, partyInvites, h⟩ := World.runParty_frame O w session p cmd
  rw [h]
  exact SameBodies.refl _

theorem removeChar_bodies (O : SetOrder) {w : World Raw} {cid : CharacterId} {c : Character}
    (hc : w.chars.lookup cid = some c) :
    (w.removeChar O cid).chars = w.chars.erase cid ∧ (w.removeChar O cid).sessions = w.sessions
      ∧ (w.removeChar O cid).players = w.players
      ∧ (w.removeChar O cid).nextCharId = w.nextCharId ∧ (w.removeChar O cid).file = w.file := by
  obtain ⟨partyOf, parties, hleave⟩ := World.partyLeave_frame O
    { w with partyInvites := w.partyInvites.erase cid } cid
  obtain ⟨occupants, hocc⟩ := World.removeOccupant_frame ({ w with
    partyInvites := w.partyInvites.erase cid
    partyOf, parties
    chars := w.chars.erase cid } : World Raw) c.roomId cid
  simp only [World.removeChar, hleave, hc]
  rw [hocc]
  exact ⟨rfl, rfl, rfl, rfl, rfl⟩

/-- A mob leaves. -/
theorem removeMob_embodied {O : SetOrder} {w : World Raw} (h : Embodied J w) {cid : CharacterId}
    {c : Character} (hc : w.chars.lookup cid = some c) (hmob : c.controller = none) :
    Embodied J (w.removeChar O cid) := by
  obtain ⟨hchars, hsessions, hplayers, hnext, hfile⟩ := removeChar_bodies O hc
  have hleft : ∀ cid' c', (w.removeChar O cid).chars.lookup cid' = some c' →
      cid' ≠ cid ∧ w.chars.lookup cid' = some c' := by
    intro cid' c' hc'
    rw [hchars, Table.lookup_erase_eq] at hc'
    split at hc'
    · cases hc'
    · exact ⟨by assumption, hc'⟩
  constructor
  · intro cid' c' hc'
    rw [hnext]
    exact h.key cid' c' (hleft cid' c' hc').2
  · intro sid ss hss
    rw [hsessions] at hss
    obtain ⟨cid', c', hcontrolled, hc', hcontroller⟩ := h.plays sid ss hss
    refine ⟨cid', c', hcontrolled, ?_, hcontroller⟩
    have hne : cid' ≠ cid := by
      intro heq
      rw [heq, hc] at hc'
      cases hc'
      rw [hmob] at hcontroller
      cases hcontroller
    rw [hchars, Table.lookup_erase_eq, if_neg hne]
    exact hc'
  · intro cid' c' sid hc'
    rw [hsessions]
    exact h.played cid' c' sid (hleft cid' c' hc').2
  · intro cid' c' hc'
    exact h.mob cid' c' (hleft cid' c' hc').2
  · intro cid₁ cid₂ c₁ c₂ h₁ h₂
    exact h.one cid₁ cid₂ c₁ c₂ (hleft cid₁ c₁ h₁).2 (hleft cid₂ c₂ h₂).2
  · rw [hplayers]; exact h.saved
  · rw [hfile]; exact h.file

theorem killMob_embodied {O : SetOrder} {w w' : World Raw} {cid : CharacterId} (h : Embodied J w)
    (hk : w.killMob O cid = some w') : Embodied J w' := by
  unfold World.killMob at hk
  split at hk
  · cases hk
  · next c hc =>
      split at hk
      · cases hk
      · next hnone =>
          cases hk
          exact removeMob_embodied h hc (by simpa using hnone)

/-- A session has one character, and its last character cannot be dropped. -/
theorem sessionsDrop_none {O : SetOrder} {w : World Raw} (h : Embodied J w) (session : SessionId)
    (cid : CharacterId) : w.sessionsDrop O session cid = none := by
  unfold World.sessionsDrop
  split
  · next ss c hss hc =>
      obtain ⟨cid', c', hcontrolled, -⟩ := h.plays session ss hss
      rw [if_neg]
      rintro ⟨-, hlen, -⟩
      rw [hcontrolled] at hlen
      exact hlen rfl
  · rfl

theorem spawnMob_embodied {w : World Raw} (h : Embodied J w) (hleft : w.nextCharId < Word.maxU64)
    (roomId name : Text) : Embodied J (w.spawnMob roomId name) := by
  have hnext : (w.spawnMob roomId name).nextCharId = w.nextCharId + 1 := Word.satAdd64_of_lt hleft
  have hin : ∀ cid c, (w.spawnMob roomId name).chars.lookup cid = some c →
      (cid = w.nextCharId ∧ c = w.newMob roomId name) ∨ w.chars.lookup cid = some c := by
    intro cid c hc
    have hc : (w.chars.insert w.nextCharId (w.newMob roomId name)).lookup cid = some c := hc
    rw [Table.lookup_insert_eq] at hc
    split at hc
    · next heq => cases hc; exact Or.inl ⟨heq, rfl⟩
    · exact Or.inr hc
  constructor
  · intro cid c hc
    rw [hnext]
    rcases hin cid c hc with ⟨rfl, rfl⟩ | hc
    · exact ⟨rfl, Nat.lt_succ_self _⟩
    · exact ⟨(h.key cid c hc).1, Nat.lt_succ_of_lt (h.key cid c hc).2⟩
  · intro sid ss hss
    obtain ⟨cid, c, hcontrolled, hc, hcontroller⟩ := h.plays sid ss hss
    refine ⟨cid, c, hcontrolled, ?_, hcontroller⟩
    have hne : cid ≠ w.nextCharId := Nat.ne_of_lt (h.key cid c hc).2
    have hgoal : (w.chars.insert w.nextCharId (w.newMob roomId name)).lookup cid = some c := by
      rw [Table.lookup_insert_eq, if_neg hne]
      exact hc
    exact hgoal
  · intro cid c sid hc hcontroller
    rcases hin cid c hc with ⟨-, rfl⟩ | hc
    · cases hcontroller
    · exact h.played cid c sid hc hcontroller
  · intro cid c hc hnone
    rcases hin cid c hc with ⟨-, rfl⟩ | hc
    · rfl
    · exact h.mob cid c hc hnone
  · intro cid₁ cid₂ c₁ c₂ h₁ h₂ hp₁ hp₂
    rcases hin cid₁ c₁ h₁ with ⟨-, rfl⟩ | h₁
    · cases hp₁
    rcases hin cid₂ c₂ h₂ with ⟨-, rfl⟩ | h₂
    · cases hp₂
    exact h.one cid₁ cid₂ c₁ c₂ h₁ h₂ hp₁ hp₂
  · exact h.saved
  · exact h.file

theorem keepIdentity_isSome {c c' : Character} :
    (PlayerSnapshot.fromCharacter (World.keepIdentity c c')).isSome
      ↔ (PlayerSnapshot.fromCharacter c).isSome := by
  rw [fromCharacter_isSome, fromCharacter_isSome]
  rfl

/-- **The rule for mobs that appear**, while there are ids left. -/
theorem spawnMobs_rule {I : World Raw → Prop}
    (hstep : ∀ w roomId name, I w → w.nextCharId < Word.maxU64 → I (w.spawnMob roomId name))
    (ms : List (Text × Text)) (w : World Raw) (h : I w) (hleft : w.nextCharId + ms.length ≤ Word.maxU64) :
    I (ms.foldl (fun w m => w.spawnMob m.1 m.2) w) := by
  induction ms generalizing w with
  | nil => exact h
  | cons m ms ih =>
      rw [List.length_cons] at hleft
      have hlt : w.nextCharId < Word.maxU64 :=
        Nat.lt_of_lt_of_le (Nat.lt_add_of_pos_right (Nat.succ_pos _)) hleft
      refine ih _ (hstep w m.1 m.2 h hlt) ?_
      have hnext : (w.spawnMob m.1 m.2).nextCharId = w.nextCharId + 1 := Word.satAdd64_of_lt hlt
      rw [hnext, Nat.add_assoc, Nat.add_comm 1]
      exact hleft

/-- The rest of the game changes conditions and goods, not who is who. -/
theorem game_embodied {w : World Raw} (h : Embodied J w) (g : World.GameEffect)
    (hleft : w.nextCharId + g.mobs.length ≤ Word.maxU64) : Embodied J (w.game g) := by
  refine spawnMobs_rule (fun w roomId name h hlt => spawnMob_embodied h hlt roomId name) g.mobs _ ?_ hleft
  have hin : ∀ cid c', (w.chars.mapVals fun cid c => World.keepIdentity c (g.chars cid c)).lookup cid
      = some c' → ∃ c, w.chars.lookup cid = some c ∧ c' = World.keepIdentity c (g.chars cid c) := by
    intro cid c' hc'
    rw [Table.lookup_mapVals] at hc'
    obtain ⟨c, hc, heq⟩ := Option.map_eq_some_iff.mp hc'
    exact ⟨c, hc, heq.symm⟩
  constructor
  · intro cid c' hc'
    obtain ⟨c, hc, rfl⟩ := hin cid c' hc'
    exact h.key cid c hc
  · intro sid ss' hss'
    simp only [Table.lookup_mapVals, Option.map_eq_some_iff] at hss'
    obtain ⟨ss, hss, rfl⟩ := hss'
    obtain ⟨cid, c, hcontrolled, hc, hcontroller⟩ := h.plays sid ss hss
    refine ⟨cid, World.keepIdentity c (g.chars cid c), hcontrolled, ?_, hcontroller⟩
    simp only [Table.lookup_mapVals, hc, Option.map_some]
  · intro cid c' sid hc' hcontroller
    obtain ⟨c, hc, rfl⟩ := hin cid c' hc'
    obtain ⟨⟨ss, hss, hcontrolled⟩, hbuilt⟩ := h.played cid c sid hc hcontroller
    refine ⟨⟨{ ss with pendingConfirm := g.pendingConfirm sid }, ?_, hcontrolled⟩,
      keepIdentity_isSome.mpr hbuilt⟩
    simp only [Table.lookup_mapVals, hss, Option.map_some]
  · intro cid c' hc' hnone
    obtain ⟨c, hc, rfl⟩ := hin cid c' hc'
    have hmob := h.mob cid c hc hnone
    rw [← Option.not_isSome_iff_eq_none, keepIdentity_isSome, hmob]
    simp
  · intro cid₁ cid₂ c₁' c₂' h₁ h₂ hp₁ hp₂ hprincipal
    obtain ⟨c₁, hc₁, rfl⟩ := hin cid₁ c₁' h₁
    obtain ⟨c₂, hc₂, rfl⟩ := hin cid₂ c₂' h₂
    exact h.one cid₁ cid₂ c₁ c₂ hc₁ hc₂ hp₁ hp₂ hprincipal
  · exact h.saved
  · exact h.file

theorem persistLivePlayers_file {saveOk : Bool} {w : World Raw} (h : Embodied J w) :
    FileWritten J (w.persistLivePlayers J saveOk).file := by
  unfold World.persistLivePlayers
  simp only
  generalize hsnaps : (Table.values w.chars).filterMap PlayerSnapshot.fromCharacter = snaps
  have hwritten : ∀ s ∈ snaps, s.Written := by
    intro s hs
    rw [← hsnaps] at hs
    obtain ⟨c, -, hc⟩ := List.mem_filterMap.mp hs
    exact ⟨c, hc⟩
  have hloop : ∀ (snaps : List PlayerSnapshot) (m : Table Text PlayerSnapshot),
      (∀ s ∈ snaps, s.Written) → (∀ p s, m.lookup p = some s → s.Written) →
      ∀ p s, (snaps.foldl (fun m (s : PlayerSnapshot) => m.insert s.principal s) m).lookup p
        = some s → s.Written := by
    intro snaps
    induction snaps with
    | nil => exact fun m _ hm => hm
    | cons s snaps ih =>
        intro m hs hm
        refine ih _ (fun s' hs' => hs s' (List.mem_cons_of_mem _ hs')) ?_
        intro p s' hs'
        rw [Table.lookup_insert_eq] at hs'
        split at hs'
        · cases hs'; exact hs s List.mem_cons_self
        · exact hm p s' hs'
  obtain ⟨file, heq, hfile⟩ := persist_spec (J := J) 
    ({ w with players := snaps.foldl (fun m (s : PlayerSnapshot) => m.insert s.principal s) w.players }
      : World Raw)
  rw [heq]
  exact hfile (hloop snaps _ hwritten fun p s hs => (h.saved p s hs).2) h.file

/-! ## Totals -/

/-- The live player characters of a principal. -/
def World.live (w : World Raw) (p : Text) : List Character :=
  (Table.values w.chars).filter fun c => c.controller.isSome && c.principal == p

/-- What a principal owns of a good: what its live characters carry and, when none is live, what
is saved. -/
def World.total (w : World Raw) (p : Text) (g : Good) : Nat :=
  match w.live p with
  | [] => ((w.players.lookup p).map fun s => s.holds g).getD 0
  | cs => (cs.map fun c => c.holds g).sum

/-- A principal has a character, live or saved. -/
def World.HasCharacter (w : World Raw) (p : Text) : Prop :=
  w.live p ≠ [] ∨ (w.players.lookup p).isSome

/-- A live body of a principal. -/
def Body (w : World Raw) (p : Text) (cid : CharacterId) (c : Character) : Prop :=
  w.chars.lookup cid = some c ∧ c.controller.isSome ∧ c.principal = p

theorem mem_live {w : World Raw} {p : Text} {c : Character} :
    c ∈ w.live p ↔ ∃ cid, Body w p cid c := by
  simp only [World.live, List.mem_filter, Table.mem_values, Bool.and_eq_true, beq_iff_eq, Body]
  constructor
  · rintro ⟨⟨cid, hc⟩, hp⟩
    exact ⟨cid, hc, hp⟩
  · rintro ⟨cid, hc, hp⟩
    exact ⟨⟨cid, hc⟩, hp⟩

theorem live_eq_nil {w : World Raw} {p : Text} (h : ∀ cid c, ¬ Body w p cid c) : w.live p = [] := by
  refine List.eq_nil_iff_forall_not_mem.mpr fun c hc => ?_
  obtain ⟨cid, hb⟩ := mem_live.mp hc
  exact h cid c hb

/-- The one live body is all there is. -/
theorem live_eq_singleton {w : World Raw} (h : Embodied J w) {p : Text} {cid : CharacterId}
    {c : Character} (hb : Body w p cid c) : w.live p = [c] := by
  have hlive : w.live p
      = (w.chars.entries.filter fun e => e.2.controller.isSome && e.2.principal == p).map
        Sigma.snd := by
    simp only [World.live, Table.values, List.filter_map]
    rfl
  rw [hlive, Table.filter_entries_eq hb.1]
  · rfl
  · simp [hb.2.1, hb.2.2]
  · intro cid' c' hc' he
    simp only [Bool.and_eq_true, beq_iff_eq] at he
    exact h.one cid' cid c' c hc' hb.1 he.1 hb.2.1 (he.2.trans hb.2.2.symm)

theorem total_of_body {w : World Raw} (h : Embodied J w) {p : Text} {cid : CharacterId}
    {c : Character} (hb : Body w p cid c) (g : Good) : w.total p g = c.holds g := by
  unfold World.total
  rw [live_eq_singleton h hb]
  simp

theorem total_of_no_body {w : World Raw} {p : Text} (hn : ∀ cid c, ¬ Body w p cid c) (g : Good) :
    w.total p g = ((w.players.lookup p).map fun s => s.holds g).getD 0 := by
  unfold World.total
  rw [live_eq_nil hn]

theorem hasCharacter_iff {w : World Raw} {p : Text} :
    w.HasCharacter p ↔ (∃ cid c, Body w p cid c) ∨ (w.players.lookup p).isSome := by
  unfold World.HasCharacter
  constructor
  · rintro (h | h)
    · obtain ⟨c, hc⟩ := List.exists_mem_of_ne_nil _ h
      obtain ⟨cid, hb⟩ := mem_live.mp hc
      exact Or.inl ⟨cid, c, hb⟩
    · exact Or.inr h
  · rintro (⟨cid, c, hb⟩ | h)
    · exact Or.inl (List.ne_nil_of_mem (mem_live.mpr ⟨cid, hb⟩))
    · exact Or.inr h

/-- A step that neither moves the bodies of a principal nor touches its snapshot. -/
theorem total_congr {w w' : World Raw} (h : Embodied J w) (h' : Embodied J w') {p : Text}
    (hbody : ∀ cid c, Body w' p cid c ↔ Body w p cid c)
    (hsaved : w'.players.lookup p = w.players.lookup p) (g : Good) : w'.total p g = w.total p g := by
  by_cases hex : ∃ cid c, Body w p cid c
  · obtain ⟨cid, c, hb⟩ := hex
    rw [total_of_body h hb, total_of_body h' ((hbody cid c).mpr hb)]
  · have hn : ∀ cid c, ¬ Body w p cid c := fun cid c hb => hex ⟨cid, c, hb⟩
    rw [total_of_no_body hn, total_of_no_body fun cid c hb => hn cid c ((hbody cid c).mp hb), hsaved]

/-! ## Conservation -/

/-- Whoever leaves was the one body of its principal. -/
theorem Detached.noBody {w w' : World Raw} {sid : SessionId} {cid : CharacterId} {c : Character}
    {s : PlayerSnapshot} (h : Embodied J w) (hd : Detached J w w' sid cid c s) (cid' : CharacterId)
    (c' : Character) : ¬ Body w' c.principal cid' c' := by
  rintro ⟨hc', hcontroller, hprincipal⟩
  rw [hd.chars, Table.lookup_erase_eq] at hc'
  split at hc'
  · cases hc'
  · next hne =>
      exact hne (h.one cid' cid c' c hc' hd.char hcontroller (by rw [hd.controller]; rfl) hprincipal)

/-- The other principals keep their bodies. -/
theorem Detached.body_iff {w w' : World Raw} {sid : SessionId} {cid : CharacterId} {c : Character}
    {s : PlayerSnapshot} (hd : Detached J w w' sid cid c s) {p : Text} (hp : p ≠ c.principal)
    (cid' : CharacterId) (c' : Character) : Body w' p cid' c' ↔ Body w p cid' c' := by
  unfold Body
  rw [hd.chars, Table.lookup_erase_eq]
  constructor
  · rintro ⟨hc', hrest⟩
    split at hc'
    · cases hc'
    · exact ⟨hc', hrest⟩
  · rintro ⟨hc', hcontroller, hprincipal⟩
    have hne : cid' ≠ cid := by
      intro heq
      rw [heq, hd.char] at hc'
      cases hc'
      exact hp hprincipal.symm
    rw [if_neg hne]
    exact ⟨hc', hcontroller, hprincipal⟩

/-- Detaching moves the goods of the body into the snapshot. -/
theorem Detached.total {w w' : World Raw} {sid : SessionId} {cid : CharacterId} {c : Character}
    {s : PlayerSnapshot} (h : Embodied J w) (hd : Detached J w w' sid cid c s) (p : Text) (g : Good) :
    w'.total p g = w.total p g := by
  by_cases hp : p = c.principal
  · have hb : Body w p cid c := ⟨hd.char, by rw [hd.controller]; rfl, hp.symm⟩
    have hn : ∀ cid' c', ¬ Body w' p cid' c' := hp ▸ hd.noBody h
    rw [total_of_body h hb, total_of_no_body hn, hd.players, Table.lookup_insert_eq, if_pos hp]
    exact holds_fromCharacter hd.snapshot g
  · refine total_congr h (hd.embodied h) (hd.body_iff hp) ?_ g
    rw [hd.players, Table.lookup_insert_eq, if_neg hp]

theorem Detached.hasCharacter {w w' : World Raw} {sid : SessionId} {cid : CharacterId}
    {c : Character} {s : PlayerSnapshot} (hd : Detached J w w' sid cid c s) {p : Text}
    (hp : w.HasCharacter p) : w'.HasCharacter p := by
  rw [hasCharacter_iff] at hp ⊢
  by_cases hpc : p = c.principal
  · right
    rw [hd.players, Table.lookup_insert_eq, if_pos hpc]
    rfl
  · rcases hp with ⟨cid', c', hc', hcontroller, hprincipal⟩ | hsaved
    · left
      refine ⟨cid', c', ?_, hcontroller, hprincipal⟩
      have hne : cid' ≠ cid := by
        intro heq
        rw [heq, hd.char] at hc'
        cases hc'
        exact hpc hprincipal.symm
      rw [hd.chars, Table.lookup_erase_eq, if_neg hne]
      exact hc'
    · right
      rw [hd.players, Table.lookup_insert_eq, if_neg hpc]
      exact hsaved

theorem Entered.body {w w' : World Raw} {sid : SessionId} {c : Character} {s : PlayerSnapshot}
    (he : Entered J w w' sid c s) : Body w' c.principal c.id c := by
  refine ⟨?_, by rw [he.controller]; rfl, rfl⟩
  rw [he.chars, Table.lookup_insert_eq, if_pos rfl]

/-- The other principals keep their bodies. -/
theorem Entered.body_iff {w w' : World Raw} {sid : SessionId} {c : Character} {s : PlayerSnapshot}
    (h : Embodied J w) (he : Entered J w w' sid c s) {p : Text} (hp : p ≠ c.principal) (cid : CharacterId)
    (c' : Character) : Body w' p cid c' ↔ Body w p cid c' := by
  unfold Body
  rw [he.chars, Table.lookup_insert_eq]
  constructor
  · rintro ⟨hc', hcontroller, hprincipal⟩
    split at hc'
    · cases hc'
      exact absurd hprincipal.symm hp
    · exact ⟨hc', hcontroller, hprincipal⟩
  · rintro ⟨hc', hrest⟩
    have hne : cid ≠ c.id := by
      rw [he.id]
      exact Nat.ne_of_lt (h.key cid c' hc').2
    rw [if_neg hne]
    exact ⟨hc', hrest⟩

/-- Attaching moves them back. -/
theorem Entered.total {w w' : World Raw} {sid : SessionId} {c : Character} {s : PlayerSnapshot}
    (h : Embodied J w) (h' : Embodied J w') (he : Entered J w w' sid c s)
    (hfree : ∀ cid c', w.chars.lookup cid = some c' → c'.controller.isSome →
      c'.principal ≠ c.principal)
    (hgoods : ∀ s', w.players.lookup c.principal = some s' → ∀ g, c.holds g = s'.holds g)
    {p : Text} (hp : w.HasCharacter p) (g : Good) : w'.total p g = w.total p g := by
  by_cases hpc : p = c.principal
  · have hn : ∀ cid c', ¬ Body w p cid c' := by
      rintro cid c' ⟨hc', hcontroller, hprincipal⟩
      exact hfree cid c' hc' hcontroller (hprincipal.trans hpc)
    have hb : Body w' p c.id c := hpc ▸ he.body
    rw [total_of_body h' hb, total_of_no_body hn]
    rcases hasCharacter_iff.mp hp with ⟨cid, c', hb'⟩ | hsaved
    · exact absurd hb' (hn cid c')
    · obtain ⟨s', hs'⟩ := Option.isSome_iff_exists.mp hsaved
      rw [hs', hgoods s' (hpc ▸ hs')]
      rfl
  · refine total_congr h h' (he.body_iff h hpc) ?_ g
    rw [he.players, Table.lookup_insert_eq, if_neg hpc]

theorem Entered.hasCharacter {w w' : World Raw} {sid : SessionId} {c : Character}
    {s : PlayerSnapshot} (h : Embodied J w) (he : Entered J w w' sid c s) {p : Text}
    (hp : w.HasCharacter p) : w'.HasCharacter p := by
  rw [hasCharacter_iff] at hp ⊢
  rcases hp with ⟨cid, c', hc', hrest⟩ | hsaved
  · left
    refine ⟨cid, c', ?_, hrest⟩
    have hne : cid ≠ c.id := by
      rw [he.id]
      exact Nat.ne_of_lt (h.key cid c' hc').2
    rw [he.chars, Table.lookup_insert_eq, if_neg hne]
    exact hc'
  · right
    rw [he.players, Table.lookup_insert_eq]
    split
    · rfl
    · exact hsaved

theorem detachSession_total {O : SetOrder} {saveOk : Bool} {w : World Raw} (h : Embodied J w)
    (sid : SessionId) {p : Text} (hp : w.HasCharacter p) :
    (w.detachSession J O saveOk sid).HasCharacter p
      ∧ ∀ g, (w.detachSession J O saveOk sid).total p g = w.total p g := by
  rcases detachSession_spec h sid with ⟨-, heq⟩ | ⟨cid, c, s, hd⟩
  · rw [heq]
    exact ⟨hp, fun _ => rfl⟩
  · exact ⟨hd.hasCharacter hp, hd.total h p⟩

/-! ## Runs -/

/-- The condition on a move: a session attaches only for a principal whose character no other
session is playing; and there are character ids left. -/
def BodyMoveOk (A : Codec Auth AuthBlob) (w : World Raw) : ShardMove Auth → Prop
  | .attach _ _ r => w.nextCharId < Word.maxU64 ∧ ∀ c ∈ Table.values w.chars, c.controller.isSome →
      c.controller ≠ some r.session → c.principal ≠ r.principal A
  | .game g => w.nextCharId + g.mobs.length ≤ Word.maxU64
  | _ => True

instance (w : World Raw) (m : ShardMove Auth) : Decidable (BodyMoveOk A w m) := by
  cases m <;> unfold BodyMoveOk <;> infer_instance

theorem attach_free {O : SetOrder} {saveOk : Bool} {w : World Raw} (h : Embodied J w)
    {r : AttachReq Auth} (hfree : ∀ c ∈ Table.values w.chars, c.controller.isSome →
      c.controller ≠ some r.session → c.principal ≠ r.principal A)
    {cid : CharacterId} {c : Character}
    (hc : (w.detachSession J O saveOk r.session).chars.lookup cid = some c)
    (hcontroller : c.controller.isSome) : c.principal ≠ r.principal A := by
  obtain ⟨hc, hother⟩ := detachSession_others h hc
  exact hfree c (Table.mem_values.mpr ⟨cid, hc⟩) hcontroller hother

theorem attach_embodied {O : SetOrder} {saveOk : Bool} {w : World Raw} (h : Embodied J w)
    {r : AttachReq Auth} (hok : BodyMoveOk A w (.attach saveOk O r)) :
    Embodied J (w.attach A J O saveOk r) := by
  cases hname : (Text.trim r.name).isEmpty with
  | true =>
      unfold World.attach
      simpa [hname] using h
  | false =>
      obtain ⟨c, s, he, hprincipal, -⟩ := attach_spec (O := O) h hname hok.1
      refine he.embodied (detachSession_embodied h r.session) (detachSession_none h r.session) ?_
      intro cid c' hc' hcontroller
      rw [hprincipal]
      exact attach_free h hok.2 hc' hcontroller

theorem attach_total {O : SetOrder} {saveOk : Bool} {w : World Raw} (h : Embodied J w)
    {r : AttachReq Auth} (hok : BodyMoveOk A w (.attach saveOk O r)) {p : Text}
    (hp : w.HasCharacter p) :
    (w.attach A J O saveOk r).HasCharacter p
      ∧ ∀ g, (w.attach A J O saveOk r).total p g = w.total p g := by
  cases hname : (Text.trim r.name).isEmpty with
  | true =>
      unfold World.attach
      simpa [hname] using hp
  | false =>
      have h₁ : Embodied J (w.detachSession J O saveOk r.session) := detachSession_embodied h r.session
      obtain ⟨hp₁, htotal⟩ := detachSession_total (J := J) (O := O) h r.session hp
      obtain ⟨c, s, he, hprincipal, hrestored⟩ := attach_spec (O := O) h hname hok.1
      refine ⟨he.hasCharacter h₁ hp₁, fun g => ?_⟩
      rw [← htotal g]
      refine he.total h₁ (attach_embodied h hok) ?_ ?_ hp₁ g
      · intro cid c' hc' hcontroller
        rw [hprincipal]
        exact attach_free h hok.2 hc' hcontroller
      · intro s' hs' g
        rw [hprincipal] at hs'
        rw [hrestored s' hs']
        exact holds_restoredCharacter _ _ (h₁.saved _ _ hs').2 _ _ g

/-- **Every move keeps the invariant.** -/
theorem shardStep_embodied {w w' : World Raw} {m : ShardMove Auth} (h : Embodied J w)
    (hok : BodyMoveOk A w m) (hs : shardStep J A w m = some w') : Embodied J w' := by
  cases m with
  | attach saveOk O r => cases hs; exact attach_embodied h hok
  | detach saveOk O session => cases hs; exact detachSession_embodied h session
  | input O session line =>
      obtain ⟨⟨p, cmd⟩, -, rfl⟩ := Option.map_eq_some_iff.mp hs
      exact h.congr (runParty_sameBodies O w session p cmd)
  | drop O session cid =>
      have hnone := sessionsDrop_none (O := O) h session cid
      have hs : w.sessionsDrop O session cid = some w' := hs
      rw [hnone] at hs
      cases hs
  | killMob O cid => exact killMob_embodied h hs
  | game g => cases hs; exact game_embodied h g hok
  | relink clean saveOk readOk rooms =>
      cases hs
      refine embodied_new ?_
      cases clean with
      | true => exact persistLivePlayers_file h
      | false => exact h.file

/-- At most one live player character has a given principal. -/
def OneBodyEach (w : World Raw) : Prop := ∀ p, (w.live p).length ≤ 1

theorem Embodied.oneBodyEach {w : World Raw} (h : Embodied J w) : OneBodyEach w := by
  intro p
  by_cases hex : ∃ cid c, Body w p cid c
  · obtain ⟨cid, c, hb⟩ := hex
    rw [live_eq_singleton h hb]
    rfl
  · rw [live_eq_nil fun cid c hb => hex ⟨cid, c, hb⟩]
    exact Nat.zero_le _

/-- The moves that attach and detach sessions. -/
def ShardMove.IsSession : ShardMove Auth → Prop
  | .attach _ _ _ => True
  | .detach _ _ _ => True
  | _ => False

/-- Attaching and detaching alone, from here on, leave a principal that has a character what it
owns. -/
def Conserves (J : Codec Raw (List PlayerSnapshot)) (A : Codec Auth AuthBlob) (w : World Raw) : Prop :=
  ∀ (ms : List (ShardMove Auth)) (w' : World Raw), (∀ m ∈ ms, m.IsSession) →
    exec (shardStep J A) w ms = some w' → Along (shardStep J A) (BodyMoveOk A) w ms →
    ∀ p, w.HasCharacter p → ∀ g, w'.total p g = w.total p g

theorem Embodied.conserves {w : World Raw} (h : Embodied J w) : Conserves J A w := by
  intro ms
  induction ms generalizing w with
  | nil =>
      intro w' _ hex _ p _ g
      cases hex
      rfl
  | cons m ms ih =>
      intro w' hsession hex hal p hp g
      obtain ⟨w₁, h₁, h₂⟩ := exec_cons.mp hex
      have hok := hal.1
      have hrest := hal.2 w₁ h₁
      have hstep : w₁.HasCharacter p ∧ ∀ g, w₁.total p g = w.total p g := by
        cases m with
        | attach saveOk O r => cases h₁; exact attach_total h hok hp
        | detach saveOk O session => cases h₁; exact detachSession_total h session hp
        | _ => exact absurd (hsession _ List.mem_cons_self) (by simp [ShardMove.IsSession])
      rw [ih (shardStep_embodied h hok h₁) w' (fun m hm => hsession m (List.mem_cons_of_mem _ hm))
        h₂ hrest p hstep.1 g, hstep.2 g]

/-- **In every run in which no session attaches for a principal that another session is playing, a
principal has one body in every state, and attaching and detaching conserve its goods.** -/
theorem one_body_goods_conserved (J : Codec Raw (List PlayerSnapshot)) (A : Codec Auth AuthBlob)
    (readOk : Bool) (rooms : Rooms) (file : Option Raw) (hfile : FileWritten J file)
    (ms : List (ShardMove Auth)) (w : World Raw)
    (hex : exec (shardStep J A) (World.new J readOk rooms file) ms = some w)
    (hal : Along (shardStep J A) (BodyMoveOk A) (World.new J readOk rooms file) ms) :
    OneBodyEach w ∧ Conserves J A w := by
  have h : Embodied J w := exec_invariant shardStep_embodied (embodied_new hfile) hal hex
  exact ⟨h.oneBodyEach, h.conserves⟩

/-! ## Alice, once and twice -/

def alice : Text := "acct:alice".toList

def bandage : Good := .item "field bandage".toList

/-- One session after the other. -/
def returningRun : List (ShardMove (Option AuthBlob)) :=
  [attachAs 1 "alice", .detach true someOrder 1, attachAs 2 "Alice"]

theorem one_body_goods_conserved_returning :
    ∃ w, freshRun returningRun = some w ∧ (OneBodyEach w ∧ Conserves (Codec.direct _) (Codec.direct _) w) := by
  have hrun : (freshRun returningRun).isSome := by decide +kernel
  obtain ⟨w, hex⟩ := Option.isSome_iff_exists.mp hrun
  exact ⟨w, hex, one_body_goods_conserved _ _ _ _ none (by simp [FileWritten]) returningRun w hex
    (by decide +kernel)⟩

/-- **A second session makes a second body** out of the snapshot saved when the first attached:
two live characters with one principal, and twice the goods. -/
theorem second_session_duplicates : ∃ w w', freshRun [attachAs 1 "alice"] = some w
    ∧ freshRun [attachAs 1 "alice", attachAs 2 "alice"] = some w' ∧ ¬ OneBodyEach w'
    ∧ w.HasCharacter alice ∧ w'.total alice bandage ≠ w.total alice bandage := by
  have hone : (freshRun [attachAs 1 "alice"]).map
      (fun w => ((w.live alice).length, w.total alice bandage)) = some (1, 3) := by decide +kernel
  have htwo : (freshRun [attachAs 1 "alice", attachAs 2 "alice"]).map
      (fun w => ((w.live alice).length, w.total alice bandage)) = some (2, 6) := by decide +kernel
  obtain ⟨w, hw, h₁⟩ := Option.map_eq_some_iff.mp hone
  obtain ⟨w', hw', h₂⟩ := Option.map_eq_some_iff.mp htwo
  simp only [Prod.mk.injEq] at h₁ h₂
  refine ⟨w, w', hw, hw', ?_, ?_, ?_⟩
  · intro h
    have := h alice
    omega
  · left
    intro hnil
    rw [hnil] at h₁
    cases h₁.1
  · rw [h₁.2, h₂.2]
    decide

end Slopmud.Shard
