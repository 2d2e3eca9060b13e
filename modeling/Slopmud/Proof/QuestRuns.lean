import Slopmud.Proof.Quests
import Slopmud.Proof.Staying

/-!
# Runs count deeds

Only lines and rooms write quest tables: everything else carries them along, into snapshots and back.
So every table is a record of deeds, in every state of a run that edits none. A faction that is chosen
stays with whoever is in the world, and with a player that goes and comes back, if nothing is lost.
-/

namespace Slopmud.Shard

open Machine Table

variable {Raw Auth : Type} {J : Codec Raw (List PlayerSnapshot)} {A : Codec Auth AuthBlob}
variable {r r' : Realm Raw}

/-! ## Deeds are added -/

/-- A record becomes a record, and the faction stays. -/
def Adds (quest quest' : QuestLog) : Prop :=
  ∀ d, Records quest d → ∃ d', Records quest' d' ∧ ∀ f, d.faction = some f → d'.faction = some f

theorem Adds.refl (quest : QuestLog) : Adds quest quest := fun d h => ⟨d, h, fun _ hf => hf⟩

theorem Adds.trans {quest quest' quest'' : QuestLog} (h : Adds quest quest') (h' : Adds quest' quest'') :
    Adds quest quest'' := by
  intro d hd
  obtain ⟨d₁, hd₁, hf₁⟩ := h d hd
  obtain ⟨d₂, hd₂, hf₂⟩ := h' d₁ hd₁
  exact ⟨d₂, hd₂, fun f hf => hf₂ f (hf₁ f hf)⟩

/-- The faction that is chosen stays chosen. -/
theorem Adds.chosen {quest quest' : QuestLog} (h : Adds quest quest') {d : Deeds} (hd : Records quest d) {f : Text}
    (hf : quest.chosen = some f) : quest'.chosen = some f := by
  obtain ⟨d', hd', hkeep⟩ := h d hd
  rw [QuestLog.chosen_map (hd .faction rfl)] at hf
  obtain ⟨f', hf', rfl⟩ := Option.map_eq_some_iff.mp hf
  rw [QuestLog.chosen_map (hd' .faction rfl), hkeep f' hf', Option.map_some]

structure Advances (_ : CharacterId) (c c' : Character) : Prop where
  person : SamePerson c c'
  quest : Adds c.quest c'.quest

theorem Advances.same {cid : CharacterId} {c c' : Character} (hperson : SamePerson c c')
    (hquest : c'.quest = c.quest) : Advances cid c c' :=
  ⟨hperson, hquest ▸ .refl c'.quest⟩

theorem advances_bears : Bears Advances where
  refl _ c := .same (.refl c) rfl
  trans h h' := ⟨h.person.trans h'.person, h.quest.trans h'.quest⟩
  room _ _ _ := .same ⟨rfl, rfl, rfl, rfl, rfl⟩ rfl
  hurt _ _ _ _ := .same ⟨rfl, rfl, rfl, rfl, rfl⟩ rfl

theorem advances_composes : Composes Advances := advances_bears.toComposes

/-! ## Lines and rooms -/

theorem setQuest_walked {cid : CharacterId} {quest : QuestLog}
    (h : ∀ c, r.world.chars.lookup cid = some c → Adds c.quest quest) :
    Walked Advances r.world (r.setQuest cid quest).world := by
  unfold Realm.setQuest
  cases hc : r.world.chars.lookup cid with
  | none => exact .refl advances_composes _
  | some c => exact ⟨.insert advances_composes hc ⟨⟨rfl, rfl, rfl, rfl, rfl⟩, h c hc⟩, rfl, rfl, rfl⟩

theorem setQuest_stays (r : Realm Raw) (cid : CharacterId) (quest : QuestLog) :
    Stays r.world (r.setQuest cid quest).world := by
  unfold Realm.setQuest
  cases r.world.chars.lookup cid with
  | none => exact .refl _
  | some c => exact .insert rfl rfl rfl

/-- Whoever arrives may have done a deed. -/
theorem arrive_walked (r : Realm Raw) (session : SessionId) :
    Walked Advances r.world (r.arrive session).world := by
  unfold Realm.arrive
  cases hactive : r.world.activeChar session with
  | none => exact .refl advances_composes _
  | some e =>
    obtain ⟨cid, p⟩ := e
    dsimp only
    cases henter : QuestLog.q2RoomEnter p.quest p.roomId with
    | none => exact .refl advances_composes _
    | some e =>
      refine setQuest_walked fun c hc d hd => ?_
      have hsame : c = p := Option.some.inj (hc.symm.trans (lookup_of_activeChar hactive))
      subst hsame
      rcases hd.q2RoomEnter henter with hd' | ⟨i, hd'⟩
      · exact ⟨d, hd', fun _ hf => hf⟩
      · exact ⟨_, hd', fun _ hf => hf⟩

theorem arrive_stays (r : Realm Raw) (session : SessionId) : Stays r.world (r.arrive session).world := by
  unfold Realm.arrive
  split
  · exact .refl _
  · split
    · exact .refl _
    · exact setQuest_stays r _ _

/-- A line that edits the table -/
def QuestMove.isEdit : QuestMove Auth → Bool
  | .line _ text => (QuestCommand.parse (Text.trim text)).any QuestCommand.isEdit
  | .realm _ => false

theorem questLine_spec {session : SessionId} {line : Text} {told : Told}
    (hedit : (.line session line : QuestMove Auth).isEdit = false)
    (hs : r.questLine session line = some (told, r')) :
    Stays r.world r'.world ∧ Walked Advances r.world r'.world := by
  simp only [Realm.questLine, Option.bind_eq_bind, Option.bind_eq_some_iff,
    Option.ite_none_left_eq_some] at hs
  obtain ⟨cmd, hparse, -, hs⟩ := hs
  have hplay : cmd.isEdit = false := by
    simpa only [QuestMove.isEdit, hparse, Option.any_some] using hedit
  cases hactive : r.world.activeChar session with
  | none =>
    rw [hactive] at hs
    cases hs
    exact ⟨.refl _, .refl advances_composes _⟩
  | some e =>
    obtain ⟨cid, p⟩ := e
    rw [hactive] at hs
    cases hs
    refine ⟨setQuest_stays r cid _, setQuest_walked fun c hc d hd => ?_⟩
    have hsame : c = p := Option.some.inj (hc.symm.trans (lookup_of_activeChar hactive))
    subst hsame
    exact hd.runQuest hplay

/-- **What a step is**, when it edits nothing: at most a step that keeps quests, and then at most somebody
adds to its deeds. -/
theorem questStep_cases {m : QuestMove Auth} (hedit : m.isEdit = false) (hs : r.questStep J A m = some r') :
    ∃ r₁, (r₁ = r ∨ ∃ m', m = .realm m' ∧ r.step J A m'.keepQuests = some r₁)
      ∧ Stays r₁.world r'.world ∧ Walked Advances r₁.world r'.world := by
  unfold Realm.questStep at hs
  split at hs
  · obtain ⟨r₁, hmove, rfl⟩ := Option.map_eq_some_iff.mp hs
    exact ⟨r₁, .inr ⟨_, rfl, hmove⟩, arrive_stays r₁ _, arrive_walked r₁ _⟩
  · exact ⟨r', .inr ⟨_, rfl, hs⟩, .refl _, .refl advances_composes _⟩
  · obtain ⟨⟨told, r₁⟩, hline, rfl⟩ := Option.map_eq_some_iff.mp hs
    exact ⟨r, .inl rfl, questLine_spec hedit hline⟩

/-! ## Everything else carries quests along -/

theorem fromCharacter_quest {c : Character} {s : PlayerSnapshot} (h : PlayerSnapshot.fromCharacter c = some s) :
    s.quest = c.quest := by
  unfold PlayerSnapshot.fromCharacter at h
  simp only [Option.bind_eq_bind, Option.bind_eq_some_iff, Option.some.injEq] at h
  obtain ⟨race, -, cls, -, rfl⟩ := h
  rfl

theorem carries_records : Carries Raw (fun _ c => ∃ d, Records c.quest d) (fun s => ∃ d, Records s.quest d) where
  room _ _ _ h := h
  saved h hs := by rwa [fromCharacter_quest hs]
  spawned _ _ _ _ _ _ := ⟨_, .empty⟩
  restored _ _ _ _ _ _ h := h
  mob _ _ _ _ := ⟨_, .empty⟩

/-- The quest tables of everyone are records of deeds. -/
def Recorded (J : Codec Raw (List PlayerSnapshot)) (w : World Raw) : Prop :=
  Kept J (fun _ c => ∃ d, Records c.quest d) (fun s => ∃ d, Records s.quest d) w

theorem Recorded.walked {w w' : World Raw} (h : Recorded J w) (hw : Walked Advances w w') : Recorded J w' := by
  refine Kept.evolve h ⟨hw.chars.mono fun cid c c' hR => ?_, hw.players, hw.file, hw.nowMs⟩
  rintro ⟨d, hd⟩
  obtain ⟨d', hd', -⟩ := hR.quest d hd
  exact ⟨d', hd'⟩

theorem Recorded.keepQuests {m : RealmMove Auth} (h : Recorded J r.world)
    (hs : r.step J A m.keepQuests = some r') : Recorded J r'.world := by
  cases m with
  | shard m =>
    have hview : Recorded J { r.world with rooms := r.rooms.view } := ⟨h.chars, h.players, h.file⟩
    simp only [RealmMove.keepQuests, Realm.step, Option.ite_none_right_eq_some, Option.map_eq_some_iff] at hs
    obtain ⟨hlocal, w, hw, rfl⟩ := hs
    refine Kept.shardStep hview carries_records (fun g hg => ?_) (fun clean saveOk readOk rooms hm => ?_) hw
    · subst hg
      cases hlocal
    · subst hm
      cases hlocal
  | effect e =>
    cases hs
    exact Kept.game h carries_records _ fun _ _ hd => hd
  | relink clean saveOk readOk =>
    cases hs
    refine Kept.new readOk _ ?_
    cases clean with
    | true => exact (Kept.persistLivePlayers h carries_records saveOk).file
    | false => exact h.file
  | going session g => exact h.walked (motion_walked (m := .going session g) advances_bears rfl hs)
  | buildNext pid => exact h.walked (motion_walked (m := .buildNext pid) advances_bears rfl hs)
  | mobWander mob idx => exact h.walked (motion_walked (m := .mobWander mob idx) advances_bears rfl hs)
  | damage attacker target dmg =>
    exact h.walked (motion_walked (m := .damage attacker target dmg) advances_bears rfl hs)

/-- **Every step that is no edit keeps the records.** -/
theorem Recorded.step {m : QuestMove Auth} (h : Recorded J r.world) (hedit : m.isEdit = false)
    (hs : r.questStep J A m = some r') : Recorded J r'.world := by
  obtain ⟨r₁, rfl | ⟨m', -, hrealm⟩, -, hw⟩ := questStep_cases hedit hs
  · exact h.walked hw
  · exact (h.keepQuests hrealm).walked hw

/-! ## Who is there -/

/-- Whoever has an id below `k` was there at the start, and has added to its deeds. -/
structure Since (k : CharacterId) (start : Table CharacterId Character) (w : World Raw) : Prop where
  next : k ≤ w.nextCharId
  chars : ∀ cid c, cid < k → w.chars.lookup cid = some c → ∃ c₀, start.lookup cid = some c₀ ∧ Advances cid c₀ c

namespace Since

variable {k : CharacterId} {start : Table CharacterId Character} {w w' : World Raw}

theorem evolve (h : Since k start w) (hnext : w'.nextCharId = w.nextCharId)
    (he : Evolves Advances w.chars w'.chars) : Since k start w' where
  next := hnext ▸ h.next
  chars cid c' hlt hc' := by
    obtain ⟨c, hc, hstep⟩ := he cid c' hc'
    obtain ⟨c₀, hc₀, hsince⟩ := h.chars cid c hlt hc
    exact ⟨c₀, hc₀, advances_composes.trans hsince hstep⟩

/-- Whoever is new has the next id. -/
theorem insert (h : Since k start w) (hk : k ≤ Word.maxU64) {c : Character}
    (hchars : w'.chars = w.chars.insert w.nextCharId c)
    (hnext : w'.nextCharId = Word.satAdd64 w.nextCharId 1) : Since k start w' where
  next := by
    rw [hnext, Word.satAdd64]
    exact Nat.le_min.mpr ⟨Nat.le_succ_of_le h.next, hk⟩
  chars cid c' hlt hc' := by
    rw [hchars, lookup_insert_eq, if_neg (Nat.ne_of_lt (Nat.lt_of_lt_of_le hlt h.next))] at hc'
    exact h.chars cid c' hlt hc'

theorem gone (h : Since k start w) (cid : CharacterId) (hnext : w'.nextCharId = w.nextCharId)
    (hgone : w'.chars = w.chars ∨ w'.chars = w.chars.erase cid) : Since k start w' := by
  refine h.evolve hnext ?_
  rcases hgone with hsame | hleft
  · rw [hsame]
    exact .refl advances_composes _
  · rw [hleft]
    exact .erase advances_composes _ _

theorem detachSession (h : Since k start w) (O : SetOrder) (saveOk : Bool) (session : SessionId) :
    Since k start (w.detachSession J O saveOk session) := by
  unfold World.detachSession
  split
  · exact h
  · refine List.foldlRecOn (motive := Since k start) _ _ ⟨h.next, h.chars⟩ fun w' hw' cid _ => ?_
    obtain ⟨partyOf, parties, chars, occupants, players, file, heq, hgone⟩ :=
      World.detachOne_frame (J := J) w' O saveOk cid
    rw [heq]
    refine hw'.gone cid rfl ?_
    rcases hgone with ⟨-, hsame, -⟩ | ⟨c, -, hleft, -⟩
    · exact .inl hsame
    · exact .inr hleft

theorem removeChar (h : Since k start w) (O : SetOrder) (cid : CharacterId) :
    Since k start (w.removeChar O cid) := by
  obtain ⟨partyOf, parties, chars, occupants, heq, hgone⟩ := w.removeChar_frame O cid
  rw [heq]
  refine h.gone cid rfl ?_
  rcases hgone with ⟨-, hsame, -⟩ | ⟨c, -, hleft, -⟩
  · exact .inl hsame
  · exact .inr hleft

theorem attach (h : Since k start w) (hk : k ≤ Word.maxU64) (O : SetOrder) (saveOk : Bool) (r : AttachReq Auth) :
    Since k start (w.attach A J O saveOk r) := by
  have hjoin : Since k start (w.join J A O saveOk r) := by
    have hleft : Since k start (w.detachSession J O saveOk r.session) := h.detachSession O saveOk r.session
    unfold World.join
    dsimp only
    split
    · exact h
    · generalize w.detachSession J O saveOk r.session = w₁ at hleft ⊢
      unfold World.spawnOrRestoreCharacter
      split
      · exact hleft.insert hk rfl rfl
      · exact hleft.insert hk rfl rfl
  rcases attach_eq_join (J := J) (A := A) O saveOk w r with heq | ⟨cid, heq⟩
  · rw [heq]
    exact hjoin
  · obtain ⟨players, file, hsaved⟩ := World.rememberPlayerById_frame J saveOk (w.join J A O saveOk r) cid
    rw [heq, hsaved]
    exact ⟨hjoin.next, hjoin.chars⟩

theorem shardStep (h : Since k start w) (hk : k ≤ Word.maxU64) {m : ShardMove Auth} (hlocal : m.isLocal = true)
    (hs : shardStep J A w m = some w') : Since k start w' := by
  cases m with
  | attach saveOk O r => cases hs; exact h.attach hk O saveOk r
  | detach saveOk O session => cases hs; exact h.detachSession O saveOk session
  | input O session line =>
    obtain ⟨⟨p, cmd⟩, -, rfl⟩ := Option.map_eq_some_iff.mp hs
    obtain ⟨nextPartyId, parties, partyOf, partyInvites, heq⟩ := World.runParty_frame O w session p cmd
    dsimp only
    rw [heq]
    exact ⟨h.next, h.chars⟩
  | drop O session cid =>
    have hleft := h.removeChar O cid
    simp only [Slopmud.Shard.shardStep, World.sessionsDrop] at hs
    split at hs
    · split at hs
      · split at hs
        · cases hs; exact hleft
        · cases hs; exact ⟨hleft.next, hleft.chars⟩
      · cases hs
    · cases hs
  | killMob O cid =>
    simp only [Slopmud.Shard.shardStep, World.killMob] at hs
    split at hs
    · cases hs
    · split at hs
      · cases hs
      · cases hs; exact h.removeChar O cid
  | game g => cases hlocal
  | relink clean saveOk readOk rooms => cases hlocal

theorem keepQuests {r r' : Realm Raw} (h : Since k start r.world) (hk : k ≤ Word.maxU64) {m : RealmMove Auth}
    (hlink : ∀ clean saveOk readOk, m ≠ .relink clean saveOk readOk)
    (hs : r.step J A m.keepQuests = some r') : Since k start r'.world := by
  have hmotion : ∀ m : RealmMove Auth, m.isMotion = true → r.step J A m = some r' → Since k start r'.world :=
    fun m hm hs => h.evolve (motion_stays hm hs).nextCharId (motion_walked advances_bears hm hs).chars
  cases m with
  | shard m =>
    have hview : Since k start { r.world with rooms := r.rooms.view } := ⟨h.next, h.chars⟩
    simp only [RealmMove.keepQuests, Realm.step, Option.ite_none_right_eq_some, Option.map_eq_some_iff] at hs
    obtain ⟨hlocal, w, hw, rfl⟩ := hs
    exact hview.shardStep hk hlocal hw
  | effect e =>
    cases hs
    refine List.foldlRecOn (motive := Since k start) _ _ ?_ fun w hw m _ => hw.insert hk rfl rfl
    refine h.evolve rfl (.mapVals _ (fun cid c => ?_) _)
    exact .same ⟨rfl, rfl, rfl, rfl, rfl⟩ rfl
  | relink clean saveOk readOk => exact absurd rfl (hlink clean saveOk readOk)
  | going session g => exact hmotion (.going session g) rfl hs
  | buildNext pid => exact hmotion (.buildNext pid) rfl hs
  | mobWander mob idx => exact hmotion (.mobWander mob idx) rfl hs
  | damage attacker target dmg => exact hmotion (.damage attacker target dmg) rfl hs

end Since

/-- The link ends. -/
def QuestMove.isRelink : QuestMove Auth → Bool
  | .realm (.relink ..) => true
  | _ => false

/-- **Every step within a link leaves those who are there.** -/
theorem Since.step {k : CharacterId} {start : Table CharacterId Character} {m : QuestMove Auth}
    (h : Since k start r.world) (hk : k ≤ Word.maxU64) (hedit : m.isEdit = false) (hlink : m.isRelink = false)
    (hs : r.questStep J A m = some r') : Since k start r'.world := by
  obtain ⟨r₁, rfl | ⟨m', rfl, hrealm⟩, hstay, hw⟩ := questStep_cases hedit hs
  · exact h.evolve hstay.nextCharId hw.chars
  · have hopen : ∀ clean saveOk readOk, m' ≠ .relink clean saveOk readOk := by
      rintro clean saveOk readOk rfl
      cases hlink
    exact (h.keepQuests hk hopen hrealm).evolve hstay.nextCharId hw.chars

end Slopmud.Shard
