import Slopmud.Proof.OneBody

/-!
# Who is attached

What the requests and the life of the shard do to its sessions, whoever plays
whom: an attach seats one session with one new character, a detach unseats one,
and nothing else seats or unseats anybody. Characters keep apart as long as the
counter of their ids has not reached its end, where it stays.
-/

namespace Slopmud.Shard

variable {Raw Auth : Type} {J : Codec Raw (List PlayerSnapshot)} {A : Codec Auth AuthBlob}

/-- The session is attached. -/
def World.attached (w : World Raw) (k : SessionId) : Bool := (w.sessions.lookup k).isSome

/-- The character is one that the session controls. -/
def World.Controls (w : World Raw) (k : SessionId) (cid : CharacterId) : Prop :=
  ∃ c, w.chars.lookup cid = some c ∧ c.controller = some k

/-! ## The invariant -/

/-- The sessions and the characters they control. -/
structure Bodies (w : World Raw) : Prop where
  below : ∀ cid c, w.chars.lookup cid = some c → cid < w.nextCharId
  plays : ∀ k ss, w.sessions.lookup k = some ss → w.Controls k ss.active
  played : ∀ k cid, w.Controls k cid → ∃ ss, w.sessions.lookup k = some ss ∧ ss.active = cid

structure Seated (w : World Raw) : Prop where
  one : ∀ k ss, w.sessions.lookup k = some ss → ss.controlled = [ss.active]
  bodies : w.nextCharId < Word.maxU64 → Bodies w

/-- An attached session has one character. -/
theorem Seated.controls {w : World Raw} (h : Seated w) {k : SessionId} {ss : SessionState}
    (hk : w.sessions.lookup k = some ss) :
    ∃ cid, ss.controlled = [cid]
      ∧ (w.nextCharId < Word.maxU64 → ∀ cid', w.Controls k cid' ↔ cid' = cid) := by
  refine ⟨ss.active, h.one k ss hk, fun hleft cid' => ?_⟩
  have hb := h.bodies hleft
  constructor
  · intro hc
    obtain ⟨ss', hss', rfl⟩ := hb.played k cid' hc
    rw [hk] at hss'
    cases hss'
    rfl
  · rintro rfl
    exact hb.plays k ss hk

theorem seated_new {readOk : Bool} {rooms : Rooms} {file : Option Raw} :
    Seated (World.new J readOk rooms file) where
  one := by simp [World.new]
  bodies _ :=
    { below := by simp [World.new]
      plays := by simp [World.new]
      played := by simp [World.new, World.Controls] }

/-- The sessions, the characters, and the counter of their ids. -/
def SameSeats (w w' : World Raw) : Prop :=
  w'.chars = w.chars ∧ w'.sessions = w.sessions ∧ w'.nextCharId = w.nextCharId

theorem Seated.congr {w w' : World Raw} (h : Seated w) (hs : SameSeats w w') : Seated w' := by
  obtain ⟨hc, hss, hn⟩ := hs
  constructor
  · rw [hss]
    exact h.one
  · intro hleft
    rw [hn] at hleft
    have hb := h.bodies hleft
    constructor
    · rw [hc, hn]; exact hb.below
    · simp only [hss, World.Controls, hc]; exact hb.plays
    · simp only [hss, World.Controls, hc]; exact hb.played

/-! ## Detaching -/

/-- **What detaching a session does**: the session goes, and with it its one character. -/
structure Unseated (w w' : World Raw) (k : SessionId) : Prop where
  sessions : ∀ k', w'.sessions.lookup k' = if k' = k then none else w.sessions.lookup k'
  chars : ∀ cid c, w'.chars.lookup cid = some c ↔
    w.chars.lookup cid = some c ∧ ∀ ss, w.sessions.lookup k = some ss → cid ≠ ss.active
  nextCharId : w'.nextCharId = w.nextCharId

theorem detachSession_unseated {O : SetOrder} {saveOk : Bool} {w : World Raw} (h : Seated w)
    (k : SessionId) : Unseated w (w.detachSession J O saveOk k) k := by
  cases hk : w.sessions.lookup k with
  | none =>
    have heq : w.detachSession J O saveOk k = w := by
      unfold World.detachSession
      rw [hk]
    rw [heq]
    refine ⟨fun k' => ?_, fun cid c => ?_, rfl⟩
    · split
      · next heq => rw [heq, hk]
      · rfl
    · simp [hk]
  | some ss =>
    simp only [World.detachSession, hk, h.one k ss hk, List.foldl_cons, List.foldl_nil,
      World.detachOne]
    obtain ⟨partyOf, parties, hleave⟩ := World.partyLeave_frame O
      { w with
        sessions := w.sessions.erase k
        raftWatch := w.raftWatch.erase ss.active
        partyInvites := w.partyInvites.erase ss.active } ss.active
    simp only [hleave]
    have hsessions : ∀ k', (w.sessions.erase k).lookup k'
        = if k' = k then none else w.sessions.lookup k' := fun k' => Table.lookup_erase_eq _ _ _
    cases hc : w.chars.lookup ss.active with
    | none =>
      refine ⟨hsessions, fun cid c => ?_, rfl⟩
      simp only [hk, Option.some.injEq, forall_eq', iff_self_and]
      intro hcid heq
      rw [heq, hc] at hcid
      cases hcid
    | some c =>
      simp only
      generalize hw₁ : ({ w with
        sessions := w.sessions.erase k
        raftWatch := w.raftWatch.erase ss.active
        partyInvites := w.partyInvites.erase ss.active
        partyOf, parties
        chars := w.chars.erase ss.active } : World Raw) = w₁
      obtain ⟨players, file, hrem⟩ := World.rememberPlayer_frame J saveOk w₁ c
      obtain ⟨occupants, hocc⟩ := World.removeOccupant_frame { w₁ with players, file } c.roomId ss.active
      rw [hrem, hocc]
      subst hw₁
      refine ⟨hsessions, fun cid c' => ?_, rfl⟩
      simp only [hk, Table.lookup_erase_eq, Option.some.injEq, forall_eq']
      split
      · next heq => simp [heq]
      · next hne => simp [hne]

theorem Unseated.seated {w w' : World Raw} {k : SessionId} (h : Seated w) (hu : Unseated w w' k) :
    Seated w' where
  one k' ss' hk' := by
    rw [hu.sessions] at hk'
    split at hk'
    · cases hk'
    · exact h.one k' ss' hk'
  bodies hleft := by
    rw [hu.nextCharId] at hleft
    have hb := h.bodies hleft
    refine ⟨?_, ?_, ?_⟩
    · intro cid c hc
      rw [hu.nextCharId]
      exact hb.below cid c ((hu.chars cid c).mp hc).1
    · intro k' ss' hk'
      rw [hu.sessions] at hk'
      split at hk'
      · cases hk'
      · next hne =>
        obtain ⟨c, hc, hcontroller⟩ := hb.plays k' ss' hk'
        refine ⟨c, (hu.chars _ c).mpr ⟨hc, fun ss hss heq => hne ?_⟩, hcontroller⟩
        -- the character that left was controlled by `k`
        obtain ⟨c', hc', hcontroller'⟩ := hb.plays k ss hss
        rw [← heq, hc] at hc'
        cases hc'
        rw [hcontroller] at hcontroller'
        exact Option.some.inj hcontroller'
    · intro k' cid hc
      obtain ⟨c, hc, hcontroller⟩ := hc
      obtain ⟨hc, hleft'⟩ := (hu.chars cid c).mp hc
      obtain ⟨ss, hss, hactive⟩ := hb.played k' cid ⟨c, hc, hcontroller⟩
      refine ⟨ss, ?_, hactive⟩
      rw [hu.sessions, if_neg, hss]
      intro heq
      subst heq
      exact hleft' ss hss hactive.symm

theorem Unseated.attached {w w' : World Raw} {k : SessionId} (hu : Unseated w w' k) (k' : SessionId) :
    w'.attached k' = if k' = k then false else w.attached k' := by
  rw [World.attached, hu.sessions]
  split <;> rfl

/-! ## Attaching -/

/-- **What entering the world does** for a session that is not attached: the character enters
under the next id. -/
theorem enter_seated {w : World Raw} (h : Seated w) {k : SessionId}
    (hk : w.sessions.lookup k = none) {c : Character} (hid : c.id = w.nextCharId)
    (hcontroller : c.controller = some k) : Seated (w.enter k c) := by
  have hsessions : (w.enter k c).sessions = w.sessions.insert k ⟨[c.id], c.id, none⟩ := by
    simp [World.enter, World.control, World.addOccupant, hk]
  have hchars : (w.enter k c).chars = w.chars.insert c.id c := rfl
  have hnext : (w.enter k c).nextCharId = Word.satAdd64 w.nextCharId 1 := rfl
  constructor
  · intro k' ss' hk'
    rw [hsessions, Table.lookup_insert_eq] at hk'
    split at hk'
    · cases hk'; rfl
    · exact h.one k' ss' hk'
  · intro hleft
    rw [hnext] at hleft
    obtain ⟨hlt, hadd⟩ := Word.satAdd64_lt hleft
    have hb := h.bodies hlt
    -- whoever was there before has a smaller id
    have hold : ∀ cid c', w.chars.lookup cid = some c' → cid ≠ c.id := by
      intro cid c' hc'
      rw [hid]
      exact Nat.ne_of_lt (hb.below cid c' hc')
    constructor
    · intro cid c' hc'
      rw [hnext, hadd]
      rw [hchars, Table.lookup_insert_eq] at hc'
      split at hc'
      · next heq => rw [heq, hid]; exact Nat.lt_succ_self _
      · exact Nat.lt_succ_of_lt (hb.below cid c' hc')
    · intro k' ss' hk'
      rw [hsessions, Table.lookup_insert_eq] at hk'
      rw [World.Controls, hchars]
      split at hk'
      · next heq =>
        cases hk'
        exact ⟨c, by rw [Table.lookup_insert_eq, if_pos rfl], heq ▸ hcontroller⟩
      · obtain ⟨c', hc', hcontroller'⟩ := hb.plays k' ss' hk'
        exact ⟨c', by rw [Table.lookup_insert_eq, if_neg (hold _ c' hc'), hc'], hcontroller'⟩
    · intro k' cid hc
      obtain ⟨c', hc', hcontroller'⟩ := hc
      rw [hchars, Table.lookup_insert_eq] at hc'
      rw [hsessions]
      split at hc'
      · next heq =>
        cases hc'
        rw [hcontroller] at hcontroller'
        cases hcontroller'
        exact ⟨_, by rw [Table.lookup_insert_eq, if_pos rfl], heq.symm⟩
      · obtain ⟨ss, hss, hactive⟩ := hb.played k' cid ⟨c', hc', hcontroller'⟩
        have hne : k' ≠ k := by
          rintro rfl
          rw [hk] at hss
          cases hss
        exact ⟨ss, by rw [Table.lookup_insert_eq, if_neg hne, hss], hactive⟩

theorem attach_seated {O : SetOrder} {saveOk : Bool} {w : World Raw} (h : Seated w)
    (r : AttachReq Auth) : Seated (w.attach A J O saveOk r) := by
  unfold World.attach
  simp only
  split
  · exact h
  · have hu := @detachSession_unseated _ J O saveOk w h r.session
    generalize w.detachSession J O saveOk r.session = w₁ at hu ⊢
    have hnone : w₁.sessions.lookup r.session = none := by rw [hu.sessions, if_pos rfl]
    have henter : ∀ c : Character, c.id = w₁.nextCharId → c.controller = some r.session →
        Seated ((w₁.enter r.session c).rememberPlayerById J saveOk w₁.nextCharId) := by
      intro c hid hcontroller
      obtain ⟨players, file, hrem⟩ :=
        World.rememberPlayerById_frame J saveOk (w₁.enter r.session c) w₁.nextCharId
      rw [hrem]
      exact (enter_seated (hu.seated h) hnone hid hcontroller).congr ⟨rfl, rfl, rfl⟩
    unfold World.spawnOrRestoreCharacter
    split
    · exact henter _ rfl rfl
    · exact henter _ rfl rfl

/-- **An attach under a name seats its session**, and only that one. -/
theorem attach_attached {O : SetOrder} {saveOk : Bool} {w : World Raw} (h : Seated w)
    (r : AttachReq Auth) (k : SessionId) : (w.attach A J O saveOk r).attached k
      = if k = r.session ∧ (Text.trim r.name).isEmpty = false then true else w.attached k := by
  unfold World.attach
  simp only
  split
  · next hempty => simp [hempty]
  · next hempty =>
    have hu := @detachSession_unseated _ J O saveOk w h r.session
    generalize w.detachSession J O saveOk r.session = w₁ at hu ⊢
    have henter : ∀ c : Character,
        ((w₁.enter r.session c).rememberPlayerById J saveOk w₁.nextCharId).attached k
          = if k = r.session then true else w₁.attached k := by
      intro c
      obtain ⟨players, file, hrem⟩ :=
        World.rememberPlayerById_frame J saveOk (w₁.enter r.session c) w₁.nextCharId
      rw [hrem]
      simp only [World.attached, World.enter, World.control, World.addOccupant, Table.lookup_insert_eq]
      split
      · rfl
      · rfl
    have hempty : (Text.trim r.name).isEmpty = false := by simpa using hempty
    have hgoal : (if k = r.session then true else w₁.attached k)
        = if k = r.session ∧ (Text.trim r.name).isEmpty = false then true else w.attached k := by
      rw [hu.attached]
      by_cases hk : k = r.session
      · rw [if_pos hk, if_pos ⟨hk, hempty⟩]
      · rw [if_neg hk, if_neg hk, if_neg fun h => hk h.1]
    rw [← hgoal]
    unfold World.spawnOrRestoreCharacter
    split
    · exact henter _
    · exact henter _

/-! ## Everything else -/

theorem spawnMob_seated {w : World Raw} (h : Seated w) (roomId name : Text) :
    Seated (w.spawnMob roomId name) := by
  have hchars : (w.spawnMob roomId name).chars
      = w.chars.insert w.nextCharId (w.newMob roomId name) := rfl
  have hnext : (w.spawnMob roomId name).nextCharId = Word.satAdd64 w.nextCharId 1 := rfl
  refine ⟨h.one, fun hleft => ?_⟩
  rw [hnext] at hleft
  obtain ⟨hlt, hadd⟩ := Word.satAdd64_lt hleft
  have hb := h.bodies hlt
  have hold : ∀ cid c, w.chars.lookup cid = some c → cid ≠ w.nextCharId :=
    fun cid c hc => Nat.ne_of_lt (hb.below cid c hc)
  -- a mob is controlled by nobody
  have hcontrols : ∀ k cid, (w.spawnMob roomId name).Controls k cid ↔ w.Controls k cid := by
    intro k cid
    rw [World.Controls, hchars]
    constructor
    · rintro ⟨c, hc, hcontroller⟩
      rw [Table.lookup_insert_eq] at hc
      split at hc
      · cases hc; cases hcontroller
      · exact ⟨c, hc, hcontroller⟩
    · rintro ⟨c, hc, hcontroller⟩
      exact ⟨c, by rw [Table.lookup_insert_eq, if_neg (hold cid c hc), hc], hcontroller⟩
  refine ⟨fun cid c hc => ?_, fun k ss hk => ?_, fun k cid hc => ?_⟩
  · rw [hnext, hadd]
    rw [hchars, Table.lookup_insert_eq] at hc
    split at hc
    · next heq => rw [heq]; exact Nat.lt_succ_self _
    · exact Nat.lt_succ_of_lt (hb.below cid c hc)
  · exact (hcontrols k ss.active).mpr (hb.plays k ss hk)
  · exact hb.played k cid ((hcontrols k cid).mp hc)

theorem game_seated {w : World Raw} (h : Seated w) (g : World.GameEffect) : Seated (w.game g) := by
  have hloop : ∀ (mobs : List (Text × Text)) (w : World Raw), Seated w →
      Seated (mobs.foldl (fun w m => w.spawnMob m.1 m.2) w) := by
    intro mobs
    induction mobs with
    | nil => exact fun w h => h
    | cons m mobs ih => exact fun w h => ih _ (spawnMob_seated h m.1 m.2)
  refine hloop g.mobs _ ?_
  have hcontrols : ∀ k cid, (∃ c, (w.chars.mapVals fun cid c =>
      World.keepIdentity c (g.chars cid c)).lookup cid = some c ∧ c.controller = some k)
        ↔ w.Controls k cid := by
    intro k cid
    simp only [Table.lookup_mapVals, Option.map_eq_some_iff]
    constructor
    · rintro ⟨_, ⟨c, hc, rfl⟩, hcontroller⟩
      exact ⟨c, hc, hcontroller⟩
    · rintro ⟨c, hc, hcontroller⟩
      exact ⟨_, ⟨c, hc, rfl⟩, hcontroller⟩
  constructor
  · intro k ss hk
    simp only [Table.lookup_mapVals, Option.map_eq_some_iff] at hk
    obtain ⟨ss, hss, rfl⟩ := hk
    exact h.one k ss hss
  · intro hleft
    have hb := h.bodies hleft
    refine ⟨fun cid c hc => ?_, fun k ss hk => ?_, fun k cid hc => ?_⟩
    · simp only [Table.lookup_mapVals, Option.map_eq_some_iff] at hc
      obtain ⟨c, hc, -⟩ := hc
      exact hb.below cid c hc
    · simp only [Table.lookup_mapVals, Option.map_eq_some_iff] at hk
      obtain ⟨ss, hss, rfl⟩ := hk
      exact (hcontrols k _).mpr (hb.plays k ss hss)
    · obtain ⟨ss, hss, hactive⟩ := hb.played k cid ((hcontrols k cid).mp hc)
      exact ⟨{ ss with pendingConfirm := g.pendingConfirm k },
        by simp only [Table.lookup_mapVals, hss, Option.map_some], hactive⟩

theorem game_attached (w : World Raw) (g : World.GameEffect) (k : SessionId) :
    (w.game g).attached k = w.attached k := by
  have hloop : ∀ (mobs : List (Text × Text)) (w : World Raw),
      (mobs.foldl (fun w m => w.spawnMob m.1 m.2) w).sessions = w.sessions := by
    intro mobs
    induction mobs with
    | nil => exact fun w => rfl
    | cons m mobs ih => exact fun w => ih _
  rw [World.attached, World.game, hloop]
  simp only [Table.lookup_mapVals, Option.isSome_map]
  rfl

theorem killMob_seated {O : SetOrder} {w w' : World Raw} (h : Seated w) {cid : CharacterId}
    (hs : w.killMob O cid = some w') : Seated w' ∧ w'.sessions = w.sessions := by
  unfold World.killMob at hs
  split at hs
  · cases hs
  · next c hc =>
    split at hs
    · cases hs
    · next hnone =>
      cases hs
      obtain ⟨hchars, hsessions, -, hnext, -⟩ := removeChar_bodies O hc
      refine ⟨⟨fun k ss hk => h.one k ss (hsessions ▸ hk), fun hleft => ?_⟩, hsessions⟩
      rw [hnext] at hleft
      have hb := h.bodies hleft
      -- the mob was controlled by nobody
      have hcontrols : ∀ k cid', (w.removeChar O cid).Controls k cid' ↔ w.Controls k cid' := by
        intro k cid'
        rw [World.Controls, hchars]
        constructor
        · rintro ⟨c', hc', hcontroller⟩
          rw [Table.lookup_erase_eq] at hc'
          split at hc'
          · cases hc'
          · exact ⟨c', hc', hcontroller⟩
        · rintro ⟨c', hc', hcontroller⟩
          have hne : cid' ≠ cid := by
            intro heq
            rw [heq, hc] at hc'
            cases hc'
            rw [hcontroller] at hnone
            exact hnone rfl
          exact ⟨c', by rw [Table.lookup_erase_eq, if_neg hne, hc'], hcontroller⟩
      refine ⟨fun cid' c' hc' => ?_, fun k ss hk => ?_, fun k cid' hc' => ?_⟩
      · rw [hnext]
        rw [hchars, Table.lookup_erase_eq] at hc'
        split at hc'
        · cases hc'
        · exact hb.below cid' c' hc'
      · rw [hsessions] at hk
        exact (hcontrols k _).mpr (hb.plays k ss hk)
      · rw [hsessions]
        exact hb.played k cid' ((hcontrols k cid').mp hc')

/-- A session cannot drop its last character. -/
theorem Seated.drop_none {O : SetOrder} {w : World Raw} (h : Seated w) (k : SessionId)
    (cid : CharacterId) : w.sessionsDrop O k cid = none := by
  unfold World.sessionsDrop
  split
  · next ss c hss hc =>
    rw [if_neg]
    rintro ⟨-, hlen, -⟩
    rw [h.one k ss hss] at hlen
    exact hlen rfl
  · rfl

theorem input_seated {O : SetOrder} {w w' : World Raw} (h : Seated w) {k : SessionId} {line : Text}
    (hs : shardStep J A w (.input O k line) = some w') : Seated w' ∧ w'.sessions = w.sessions := by
  obtain ⟨⟨p, cmd⟩, -, rfl⟩ := Option.map_eq_some_iff.mp hs
  obtain ⟨hchars, hsessions, -, hnext, -⟩ := runParty_sameBodies O w k p cmd
  exact ⟨h.congr ⟨hchars, hsessions, hnext⟩, hsessions⟩

end Slopmud.Shard
