import Slopmud.Proof.LinkEnd
import Slopmud.Proof.QuestRuns

/-!
# A faction is chosen once

What a principal has done is with its body, and with its snapshot while it has none. Detaching and
attaching move it from one to the other, and the end of a link moves it through the file, when the link
ends well. Nothing of it is lost, so a faction that is chosen stays.
-/

namespace Slopmud.Shard

open Machine Table

variable {Raw Auth : Type} {J : Codec Raw (List PlayerSnapshot)} {A : Codec Auth AuthBlob}

/-- The quests of a principal: those of its body, or of its snapshot when it has none. -/
def World.HasQuest (w : World Raw) (p : Text) (quest : QuestLog) : Prop :=
  (∃ cid c, Body w p cid c ∧ c.quest = quest)
    ∨ (∀ cid c, ¬ Body w p cid c) ∧ ∃ s, w.players.lookup p = some s ∧ s.quest = quest

section World

variable {w w' : World Raw} {p : Text} {quest : QuestLog}

theorem hasQuest_of_body (h : Embodied J w) {cid : CharacterId} {c : Character} (hb : Body w p cid c)
    (hq : w.HasQuest p quest) : quest = c.quest := by
  rcases hq with ⟨cid', c', hb', rfl⟩ | ⟨hnone, -⟩
  · obtain rfl : cid' = cid := h.one cid' cid c' c hb'.1 hb.1 hb'.2.1 hb.2.1 (hb'.2.2.trans hb.2.2.symm)
    have hsame : some c' = some c := hb'.1.symm.trans hb.1
    cases hsame
    rfl
  · exact absurd hb (hnone cid c)

/-- Neither the bodies of the principal change, nor its snapshot. -/
theorem hasQuest_congr (hbody : ∀ cid c, Body w' p cid c ↔ Body w p cid c)
    (hsaved : w'.players.lookup p = w.players.lookup p) (hq : w.HasQuest p quest) : w'.HasQuest p quest := by
  unfold World.HasQuest at hq ⊢
  simpa only [hbody, hsaved] using hq

/-! ## Sessions -/

theorem Detached.hasQuest {sid : SessionId} {cid : CharacterId} {c : Character} {s : PlayerSnapshot}
    (h : Embodied J w) (hd : Detached J w w' sid cid c s) (hq : w.HasQuest p quest) : w'.HasQuest p quest := by
  by_cases hp : p = c.principal
  · subst hp
    have hb : Body w c.principal cid c := ⟨hd.char, by rw [hd.controller]; rfl, rfl⟩
    refine .inr ⟨hd.noBody h, s, ?_, ?_⟩
    · rw [hd.players, lookup_insert_eq, if_pos rfl]
    · rw [fromCharacter_quest hd.snapshot, hasQuest_of_body h hb hq]
  · refine hasQuest_congr (hd.body_iff hp) ?_ hq
    rw [hd.players, lookup_insert_eq, if_neg hp]

theorem Entered.hasQuest {sid : SessionId} {c : Character} {s : PlayerSnapshot} (h : Embodied J w)
    (he : Entered J w w' sid c s) (hfree : ∀ cid c', ¬ Body w c.principal cid c')
    (hrestored : ∀ s', w.players.lookup c.principal = some s' → c.quest = s'.quest)
    (hq : w.HasQuest p quest) : w'.HasQuest p quest := by
  by_cases hp : p = c.principal
  · subst hp
    rcases hq with ⟨cid, c', hb, -⟩ | ⟨-, s', hs', rfl⟩
    · exact absurd hb (hfree cid c')
    · exact .inl ⟨c.id, c, he.body, hrestored s' hs'⟩
  · refine hasQuest_congr (he.body_iff h hp) ?_ hq
    rw [he.players, lookup_insert_eq, if_neg hp]

theorem detachSession_hasQuest (h : Embodied J w) (O : SetOrder) (saveOk : Bool) (sid : SessionId)
    (hq : w.HasQuest p quest) : (w.detachSession J O saveOk sid).HasQuest p quest := by
  rcases @detachSession_spec _ J O saveOk w h sid with ⟨-, heq⟩ | ⟨cid, c, s, hd⟩
  · rw [heq]
    exact hq
  · exact hd.hasQuest h hq

theorem attach_hasQuest (h : Embodied J w) (O : SetOrder) (saveOk : Bool) {r : AttachReq Auth}
    (hok : BodyMoveOk A w (.attach saveOk O r)) (hq : w.HasQuest p quest) :
    (w.attach A J O saveOk r).HasQuest p quest := by
  cases hname : (Text.trim r.name).isEmpty with
  | true =>
    unfold World.attach
    simpa [hname] using hq
  | false =>
    have h₁ : Embodied J (w.detachSession J O saveOk r.session) := detachSession_embodied h r.session
    obtain ⟨c, s, he, hprincipal, hrestored⟩ := attach_spec (O := O) h hname hok.1
    refine he.hasQuest h₁ ?_ ?_ (detachSession_hasQuest h O saveOk r.session hq)
    · rintro cid c' ⟨hc', hcontroller, heq⟩
      exact attach_free h hok.2 hc' hcontroller (heq.trans hprincipal)
    · intro s' hs'
      rw [hprincipal] at hs'
      rw [hrestored s' hs']
      rfl

/-! ## Mobs -/

/-- Nobody's body is one of a mob. -/
theorem killMob_hasQuest {O : SetOrder} {cid : CharacterId} (hs : w.killMob O cid = some w')
    (hq : w.HasQuest p quest) : w'.HasQuest p quest := by
  unfold World.killMob at hs
  cases hc : w.chars.lookup cid with
  | none =>
    rw [hc] at hs
    cases hs
  | some c =>
    simp only [hc, Option.ite_none_left_eq_some, Option.some.injEq] at hs
    obtain ⟨hmob, rfl⟩ := hs
    obtain ⟨hchars, -, hplayers, -⟩ := removeChar_bodies O hc
    refine hasQuest_congr (fun cid' c' => ?_) (by rw [hplayers]) hq
    unfold Body
    rw [hchars, lookup_erase_eq]
    constructor
    · rintro ⟨hc', hrest⟩
      split at hc'
      · cases hc'
      · exact ⟨hc', hrest⟩
    · rintro ⟨hc', hcontroller, hp⟩
      have hne : cid' ≠ cid := by
        rintro rfl
        rw [hc] at hc'
        cases hc'
        exact hmob hcontroller
      rw [if_neg hne]
      exact ⟨hc', hcontroller, hp⟩

theorem spawnMob_hasQuest (h : Embodied J w) (roomId name : Text) (hq : w.HasQuest p quest) :
    (w.spawnMob roomId name).HasQuest p quest := by
  have hchars : (w.spawnMob roomId name).chars = w.chars.insert w.nextCharId (w.newMob roomId name) := rfl
  refine hasQuest_congr (w := w) (fun cid c => ?_) rfl hq
  unfold Body
  rw [hchars, lookup_insert_eq]
  constructor
  · rintro ⟨hc, hcontroller, hp⟩
    split at hc
    · cases hc
      cases hcontroller
    · exact ⟨hc, hcontroller, hp⟩
  · rintro ⟨hc, hrest⟩
    rw [if_neg (Nat.ne_of_lt (h.key cid c hc).2)]
    exact ⟨hc, hrest⟩

/-! ## Everybody stays -/

theorem hasQuest_stay (hchars : ∀ cid c, w.chars.lookup cid = some c → ∃ c', w'.chars.lookup cid = some c')
    (he : Evolves Advances w.chars w'.chars) (hplayers : w'.players = w.players) (hq : w.HasQuest p quest) :
    ∃ quest', w'.HasQuest p quest' ∧ Adds quest quest' := by
  rcases hq with ⟨cid, c, ⟨hc, hcontroller, hp⟩, rfl⟩ | ⟨hnone, s, hs, rfl⟩
  · obtain ⟨c', hc'⟩ := hchars cid c hc
    obtain ⟨c₀, hc₀, hstep⟩ := he cid c' hc'
    rw [hc] at hc₀
    cases hc₀
    refine ⟨c'.quest, .inl ⟨cid, c', ⟨hc', ?_, ?_⟩, rfl⟩, hstep.quest⟩
    · rw [hstep.person.controller]
      exact hcontroller
    · rw [hstep.person.principal]
      exact hp
  · refine ⟨s.quest, .inr ⟨?_, s, hplayers ▸ hs, rfl⟩, .refl s.quest⟩
    rintro cid c' ⟨hc', hcontroller, hp⟩
    obtain ⟨c, hc, hstep⟩ := he cid c' hc'
    rw [hstep.person.controller] at hcontroller
    rw [hstep.person.principal] at hp
    exact hnone cid c ⟨hc, hcontroller, hp⟩

/-- The rest of the game, when it keeps quests. -/
theorem game_hasQuest (h : Embodied J w) (g : World.GameEffect) (hkeep : ∀ cid c, (g.chars cid c).quest = c.quest)
    (hleft : w.nextCharId + g.mobs.length ≤ Word.maxU64) (hq : w.HasQuest p quest) :
    ∃ quest', (w.game g).HasQuest p quest' ∧ Adds quest quest' := by
  -- before the mobs appear
  have hfirst : Embodied J (w.game { g with mobs := [] }) :=
    game_embodied h _ (Nat.le_trans (Nat.le_add_right _ _) hleft)
  have hstay : ∃ quest', (w.game { g with mobs := [] }).HasQuest p quest' ∧ Adds quest quest' := by
    refine hasQuest_stay (fun cid c hc => ?_) (.mapVals _ (fun cid c => ?_) _) rfl hq
    · refine ⟨World.keepIdentity c (g.chars cid c), ?_⟩
      exact (lookup_mapVals _ _ _).trans (by rw [hc]; rfl)
    · exact .same ⟨rfl, rfl, rfl, rfl, rfl⟩ (hkeep cid c)
  obtain ⟨quest', hq', hadds⟩ := hstay
  have hmobs : Embodied J (w.game g) ∧ (w.game g).HasQuest p quest' := by
    refine spawnMobs_rule (I := fun w => Embodied J w ∧ w.HasQuest p quest') (fun w roomId name hw hlt => ?_)
      g.mobs _ ⟨hfirst, hq'⟩ hleft
    exact ⟨spawnMob_embodied hw.1 hlt roomId name, spawnMob_hasQuest hw.1 roomId name hw.2⟩
  exact ⟨quest', hmobs.2, hadds⟩

/-! ## The end of a link -/

theorem Embodied.built (h : Embodied J w) : PlayersBuilt w := by
  intro cid c hc
  cases hcontroller : c.controller with
  | none =>
    rw [h.mob cid c hc hcontroller]
    simp
  | some sid => simp [(h.played cid c sid hc hcontroller).2]

/-- Every player is saved, and loaded again. -/
theorem relink_hasQuest (h : Embodied J w) (rooms : Rooms) (hp : (Text.trim p).isEmpty = false)
    (hq : w.HasQuest p quest) :
    (World.new J true rooms (w.persistLivePlayers J true).file).HasQuest p quest := by
  have hinj : ∀ s ∈ w.liveSnapshots, ∀ s' ∈ w.liveSnapshots, s.principal = s'.principal → s = s' := by
    intro s hs s' hs' heq
    obtain ⟨cid, c, hc, hcontroller, hsnap⟩ := (mem_liveSnapshots h.built).mp hs
    obtain ⟨cid', c', hc', hcontroller', hsnap'⟩ := (mem_liveSnapshots h.built).mp hs'
    rw [(fromCharacter_spec hsnap).1, (fromCharacter_spec hsnap').1] at heq
    obtain rfl := h.one cid cid' c c' hc hc' hcontroller hcontroller' heq
    rw [hc] at hc'
    cases hc'
    exact Option.some.inj (hsnap.symm.trans hsnap')
  have hfiled := lookup_fileAll (fun s hs => lookup_fileAll_self hinj hs ∅) w.players p
  have hsaved : ∃ s, (fileAll PlayerSnapshot.principal w.players w.liveSnapshots).lookup p = some s
      ∧ s.quest = quest := by
    rw [hfiled]
    rcases hq with ⟨cid, c, ⟨hc, hcontroller, rfl⟩, rfl⟩ | ⟨hnone, s, hs, rfl⟩
    · obtain ⟨s, hsnap⟩ := Option.isSome_iff_exists.mp ((h.built cid c hc).mpr hcontroller)
      have hmem : s ∈ w.liveSnapshots := (mem_liveSnapshots h.built).mpr ⟨cid, c, hc, hcontroller, hsnap⟩
      rw [← (fromCharacter_spec hsnap).1, if_pos (List.mem_map_of_mem hmem)]
      exact ⟨s, lookup_fileAll_self hinj hmem ∅, fromCharacter_quest hsnap⟩
    · rw [if_neg]
      · exact ⟨s, hs, rfl⟩
      · intro hmem
        obtain ⟨s', hs', heq⟩ := List.mem_map.mp hmem
        obtain ⟨cid, c, hc, hcontroller, hsnap⟩ := (mem_liveSnapshots h.built).mp hs'
        exact hnone cid c ⟨hc, hcontroller, (fromCharacter_spec hsnap).1.symm.trans heq⟩
  obtain ⟨s, hs, rfl⟩ := hsaved
  refine .inr ⟨?_, s, ?_, rfl⟩
  · rintro cid c ⟨hc, -⟩
    simp [World.new] at hc
  · rw [persistLivePlayers_eq]
    refine loadPlayerSnapshots_persist (w := { w with
      players := fileAll PlayerSnapshot.principal w.players w.liveSnapshots }) ?_ hp hs
    exact fileAll_keyed (fun q a ha => (h.saved q a ha).1) _

/-! ## Steps -/

/-- Nobody who is played has a blank principal. Snapshots of such are not loaded. -/
def PrincipalsGiven (w : World Raw) : Prop :=
  ∀ p cid c, Body w p cid c → (Text.trim p).isEmpty = false

theorem fieldPrincipal_given {tag : String} {c : Char} {cs : Text} (htag : tag.toList = c :: cs)
    (hc : Text.isWhitespace c = false) (fold : Text → Text) (field : Option Text) :
    ∀ v ∈ fieldPrincipal tag fold field, (Text.trim v).isEmpty = false := by
  intro v hv
  simp only [fieldPrincipal, Option.mem_def, Option.bind_eq_some_iff, Option.ite_none_left_eq_some,
    Option.some.injEq] at hv
  obtain ⟨text, -, -, rfl⟩ := hv
  rw [htag, List.cons_append]
  exact List.isEmpty_eq_false_iff.mpr (Text.trim_cons_ne_nil hc _)

theorem principalFromAttach_given (name : Text) (auth : Option Auth) :
    (Text.trim (principalFromAttach A name auth)).isEmpty = false := by
  have hor : ∀ {x y : Option Text}, (∀ v ∈ x, (Text.trim v).isEmpty = false) →
      (∀ v ∈ y, (Text.trim v).isEmpty = false) → ∀ v ∈ (x <|> y), (Text.trim v).isEmpty = false := by
    intro x y hx hy v hv
    cases x with
    | none => exact hy v hv
    | some u => exact hx v hv
  have hblob : ∀ a : AuthBlob, ∀ v ∈ a.principal?, (Text.trim v).isEmpty = false := fun a =>
    hor (fieldPrincipal_given rfl rfl _ _) (hor (fieldPrincipal_given rfl rfl _ _)
      (hor (fieldPrincipal_given rfl rfl _ _) (hor (fieldPrincipal_given rfl rfl _ _)
        (hor (fieldPrincipal_given rfl rfl _ _) (fieldPrincipal_given rfl rfl _ _)))))
  unfold principalFromAttach
  cases hp : (auth.bind A.parse).bind AuthBlob.principal? with
  | none => exact List.isEmpty_eq_false_iff.mpr (Text.trim_cons_ne_nil rfl _)
  | some v =>
    obtain ⟨a, -, ha⟩ := Option.bind_eq_some_iff.mp hp
    exact hblob a v ha

/-- What a step passes on -/
structure Passes (w w' : World Raw) : Prop where
  given : PrincipalsGiven w → PrincipalsGiven w'
  quests : ∀ p quest, (Text.trim p).isEmpty = false → w.HasQuest p quest →
    ∃ quest', w'.HasQuest p quest' ∧ Adds quest quest'

theorem Passes.trans {w'' : World Raw} (h : Passes w w') (h' : Passes w' w'') : Passes w w'' where
  given hw := h'.given (h.given hw)
  quests p quest hp hq := by
    obtain ⟨quest₁, hq₁, hadds₁⟩ := h.quests p quest hp hq
    obtain ⟨quest₂, hq₂, hadds₂⟩ := h'.quests p quest₁ hp hq₁
    exact ⟨quest₂, hq₂, hadds₁.trans hadds₂⟩

theorem Passes.congr (hchars : w'.chars = w.chars) (hplayers : w'.players = w.players) : Passes w w' where
  given hw p cid c hb := by
    unfold Body at hb
    rw [hchars] at hb
    exact hw p cid c hb
  quests p quest _ hq := by
    refine ⟨quest, hasQuest_congr (fun cid c => ?_) (by rw [hplayers]) hq, .refl quest⟩
    unfold Body
    rw [hchars]

theorem attach_passes (h : Embodied J w) (O : SetOrder) (saveOk : Bool) {r : AttachReq Auth}
    (hok : BodyMoveOk A w (.attach saveOk O r)) : Passes w (w.attach A J O saveOk r) where
  given hw := by
    cases hname : (Text.trim r.name).isEmpty with
    | true =>
      unfold World.attach
      simpa [hname] using hw
    | false =>
      obtain ⟨c, s, he, hprincipal, -⟩ := attach_spec (O := O) h hname hok.1
      rintro p cid c' ⟨hc', hcontroller, rfl⟩
      rw [he.chars, lookup_insert_eq] at hc'
      split at hc'
      · cases hc'
        rw [hprincipal]
        exact principalFromAttach_given _ _
      · exact hw _ cid c' ⟨(detachSession_others h hc').1, hcontroller, rfl⟩
  quests p quest _ hq := ⟨quest, attach_hasQuest h O saveOk hok hq, .refl quest⟩

theorem shardStep_passes {m : ShardMove Auth} (h : Embodied J w) (hlocal : m.isLocal = true)
    (hok : BodyMoveOk A w m) (hs : shardStep J A w m = some w') : Passes w w' := by
  cases m with
  | attach saveOk O r => cases hs; exact attach_passes h O saveOk hok
  | detach saveOk O session =>
    cases hs
    refine ⟨fun hw p cid c hb => ?_, fun p quest _ hq => ?_⟩
    · exact hw p cid c ⟨(detachSession_others h hb.1).1, hb.2⟩
    · exact ⟨quest, detachSession_hasQuest h O saveOk session hq, .refl quest⟩
  | input O session line =>
    obtain ⟨⟨p, cmd⟩, -, rfl⟩ := Option.map_eq_some_iff.mp hs
    obtain ⟨hchars, -, hplayers, -⟩ := runParty_sameBodies O w session p cmd
    exact .congr hchars hplayers
  | drop O session cid =>
    have hs : w.sessionsDrop O session cid = some w' := hs
    rw [sessionsDrop_none h] at hs
    cases hs
  | killMob O cid =>
    refine ⟨fun hw p cid' c hb => ?_, fun p quest _ hq => ⟨quest, killMob_hasQuest hs hq, .refl quest⟩⟩
    have hgone : Walked (fun _ c c' => c = c') w w' :=
      killMob_walked ⟨fun _ _ => rfl, fun h h' => h.trans h'⟩ hs
    obtain ⟨c₀, hc₀, rfl⟩ := hgone.chars cid' c hb.1
    exact hw p cid' c₀ ⟨hc₀, hb.2⟩
  | game g => cases hlocal
  | relink clean saveOk readOk rooms => cases hlocal

theorem stay_passes (hstay : Stays w w') (hw : Walked Advances w w') : Passes w w' where
  given hgiven p cid c' hb := by
    obtain ⟨c, hc, hstep⟩ := hw.chars cid c' hb.1
    exact hgiven p cid c ⟨hc, hstep.person.controller ▸ hb.2.1, hstep.person.principal ▸ hb.2.2⟩
  quests _ _ _ hq := hasQuest_stay hstay.chars hw.chars hw.players hq

theorem spawnMobs_given (ms : List (Text × Text)) (w : World Raw) (h : PrincipalsGiven w) :
    PrincipalsGiven (ms.foldl (fun w m => w.spawnMob m.1 m.2) w) := by
  refine List.foldlRecOn (motive := PrincipalsGiven) _ _ h fun w hw m _ p cid c hb => ?_
  obtain ⟨hc, hcontroller, hp⟩ := hb
  have hc : (w.chars.insert w.nextCharId (w.newMob m.1 m.2)).lookup cid = some c := hc
  rw [lookup_insert_eq] at hc
  split at hc
  · cases hc
    cases hcontroller
  · exact hw p cid c ⟨hc, hcontroller, hp⟩

theorem game_passes (h : Embodied J w) (g : World.GameEffect) (hkeep : ∀ cid c, (g.chars cid c).quest = c.quest)
    (hleft : w.nextCharId + g.mobs.length ≤ Word.maxU64) : Passes w (w.game g) where
  given hw := by
    refine spawnMobs_given g.mobs _ fun p cid c' hb => ?_
    obtain ⟨c, hc, rfl⟩ := Option.map_eq_some_iff.mp ((lookup_mapVals _ _ _).symm.trans hb.1)
    exact hw p cid c ⟨hc, hb.2⟩
  quests _ _ _ hq := game_hasQuest h g hkeep hleft hq

theorem relink_passes (h : Embodied J w) (rooms : Rooms) :
    Passes w (World.new J true rooms (w.persistLivePlayers J true).file) where
  given _ p cid c hb := by
    have hc : (∅ : Table CharacterId Character).lookup cid = some c := hb.1
    simp at hc
  quests _ quest hp hq := ⟨quest, relink_hasQuest h rooms hp hq, .refl quest⟩

end World

/-! ## Runs -/

/-- The moves that lose nothing: no session attaches for a principal that another one is playing, ids are
left, and a link ends by being saved and read again. -/
def QuestMove.Orderly (A : Codec Auth AuthBlob) (r : Realm Raw) : QuestMove Auth → Prop
  | .realm (.shard m) => BodyMoveOk A r.world m
  | .realm (.effect e) => r.world.nextCharId + e.mobs.length ≤ Word.maxU64
  | .realm (.relink clean saveOk readOk) => clean = true ∧ saveOk = true ∧ readOk = true
  | _ => True

instance (r : Realm Raw) : ∀ m : QuestMove Auth, Decidable (m.Orderly A r)
  | .realm (.shard m) => inferInstanceAs (Decidable (BodyMoveOk A r.world m))
  | .realm (.effect e) => inferInstanceAs (Decidable (r.world.nextCharId + e.mobs.length ≤ Word.maxU64))
  | .realm (.relink clean saveOk readOk) =>
    inferInstanceAs (Decidable (clean = true ∧ saveOk = true ∧ readOk = true))
  | .realm (.going ..) | .realm (.buildNext ..) | .realm (.mobWander ..) | .realm (.damage ..) | .line .. =>
    .isTrue trivial

variable {r r' : Realm Raw}

theorem keepQuests_passes {m : RealmMove Auth} (h : Embodied J r.world) (hok : (QuestMove.realm m).Orderly A r)
    (hs : r.step J A m.keepQuests = some r') : Embodied J r'.world ∧ Passes r.world r'.world := by
  have hmotion : ∀ m : RealmMove Auth, m.isMotion = true → r.step J A m = some r' →
      Embodied J r'.world ∧ Passes r.world r'.world := by
    intro m hm hs
    have hstay := motion_stays hm hs
    have hw := motion_walked advances_bears hm hs
    exact ⟨h.stay hstay hw fun _ _ _ hstep => hstep.person, stay_passes hstay hw⟩
  cases m with
  | shard m =>
    have hview : Embodied J { r.world with rooms := r.rooms.view } := h.congr ⟨rfl, rfl, rfl, rfl, rfl⟩
    have hok : BodyMoveOk A { r.world with rooms := r.rooms.view } m := by
      cases m with
      | attach saveOk O req => exact hok
      | game g => exact hok
      | _ => trivial
    simp only [RealmMove.keepQuests, Realm.step, Option.ite_none_right_eq_some, Option.map_eq_some_iff] at hs
    obtain ⟨hlocal, w, hw, rfl⟩ := hs
    have hpass : Passes r.world { r.world with rooms := r.rooms.view } := .congr rfl rfl
    exact ⟨shardStep_embodied hview hok hw, hpass.trans (shardStep_passes hview hlocal hok hw)⟩
  | effect e =>
    cases hs
    exact ⟨game_embodied h _ hok, game_passes h _ (fun _ _ => rfl) hok⟩
  | relink clean saveOk readOk =>
    obtain ⟨rfl, rfl, rfl⟩ := hok
    cases hs
    exact ⟨embodied_new (persistLivePlayers_file h), relink_passes h _⟩
  | going session g => exact hmotion (.going session g) rfl hs
  | buildNext pid => exact hmotion (.buildNext pid) rfl hs
  | mobWander mob idx => exact hmotion (.mobWander mob idx) rfl hs
  | damage attacker target dmg => exact hmotion (.damage attacker target dmg) rfl hs

/-- **Every orderly step passes on what everybody has done.** -/
theorem questStep_passes {m : QuestMove Auth} (h : Embodied J r.world) (hedit : m.isEdit = false)
    (hok : m.Orderly A r) (hs : r.questStep J A m = some r') :
    Embodied J r'.world ∧ Passes r.world r'.world := by
  obtain ⟨r₁, rfl | ⟨m', rfl, hrealm⟩, hstay, hw⟩ := questStep_cases hedit hs
  · exact ⟨h.stay hstay hw fun _ _ _ hstep => hstep.person, stay_passes hstay hw⟩
  · obtain ⟨h₁, hpass⟩ := keepQuests_passes h hok hrealm
    exact ⟨h₁.stay hstay hw fun _ _ _ hstep => hstep.person, hpass.trans (stay_passes hstay hw)⟩

/-- **So does every orderly run.** -/
theorem exec_passes {ms : List (QuestMove Auth)} (h : Embodied J r.world) (hplay : ∀ m ∈ ms, m.isEdit = false)
    (hok : Along (Realm.questStep J A) (fun r m => m.Orderly A r) r ms)
    (hrun : exec (Realm.questStep J A) r ms = some r') : Embodied J r'.world ∧ Passes r.world r'.world := by
  have hplay : Along (Realm.questStep J A) (fun _ m => m.isEdit = false) r ms :=
    along_of_forall_mem (fun m hm _ => hplay m hm) r
  refine exec_invariant (I := fun r' => Embodied J r'.world ∧ Passes r.world r'.world)
    (fun hI hstep hs => ?_) ⟨h, .congr rfl rfl⟩ (along_and hplay hok) hrun
  obtain ⟨h₁, hpass⟩ := questStep_passes hI.1 hstep.1 hstep.2 hs
  exact ⟨h₁, hI.2.trans hpass⟩

/-! ## The claim -/

theorem SettledSoFar.setQuest (h : SettledSoFar r.world) (cid : CharacterId) (quest : QuestLog) :
    SettledSoFar (r.setQuest cid quest).world := by
  unfold Realm.setQuest
  cases hc : r.world.chars.lookup cid with
  | none => exact h
  | some c =>
    refine h.same rfl fun hw => hw.congr (fun cid' => ?_) rfl rfl
    rw [World.position_insert]
    split
    · next heq => rw [heq, position_of_lookup hc]
    · rfl

theorem SettledSoFar.questStep {m : QuestMove Auth} (h : SettledSoFar r.world)
    (hs : r.questStep J A m = some r') : SettledSoFar r'.world := by
  unfold Realm.questStep at hs
  split at hs
  · obtain ⟨r₁, hmove, rfl⟩ := Option.map_eq_some_iff.mp hs
    have hgone : SettledSoFar r₁.world := h.step hmove
    unfold Realm.arrive
    split
    · exact hgone
    · split
      · exact hgone
      · exact hgone.setQuest _ _
  · exact h.step hs
  · obtain ⟨⟨told, r₁⟩, hline, rfl⟩ := Option.map_eq_some_iff.mp hs
    simp only [Realm.questLine, Option.bind_eq_bind, Option.bind_eq_some_iff,
      Option.ite_none_left_eq_some] at hline
    obtain ⟨cmd, -, -, hline⟩ := hline
    split at hline
    · cases hline
      exact h
    · cases hline
      exact h.setQuest _ _

/-- The faction of the one, if it is chosen, is that of the other. -/
def KeepsFaction (c c' : Character) : Prop :=
  ∀ f, QuestLog.chosen c.quest = some f → QuestLog.chosen c'.quest = some f

/-- Whoever stays keeps its faction. The last id there is may have been given out twice. -/
theorem faction_stays (hrecorded : Recorded J r.world) (hsettled : SettledSoFar r.world)
    {ms : List (QuestMove Auth)} (hplay : ∀ m ∈ ms, m.isEdit = false ∧ m.isRelink = false)
    (hrun : exec (Realm.questStep J A) r ms = some r') {cid : CharacterId} {c c' : Character}
    (hcid : cid < Word.maxU64) (hc : r.world.chars.lookup cid = some c)
    (hc' : r'.world.chars.lookup cid = some c') : KeepsFaction c c' := by
  have hstart : Since (min r.world.nextCharId Word.maxU64) r.world.chars r.world :=
    ⟨Nat.min_le_left _ _, fun cid c _ hc => ⟨c, hc, advances_composes.refl cid c⟩⟩
  have hplay : Along (Realm.questStep J A) (fun _ m => m.isEdit = false ∧ m.isRelink = false) r ms :=
    along_of_forall_mem (fun m hm _ => hplay m hm) r
  have hsince : Since (min r.world.nextCharId Word.maxU64) r.world.chars r'.world :=
    exec_invariant (I := fun r' : Realm Raw => Since (min r.world.nextCharId Word.maxU64) r.world.chars r'.world)
      (fun hI hstep hs => hI.step (Nat.min_le_right _ _) hstep.1 hstep.2 hs) hstart hplay hrun
  have hbelow : cid < min r.world.nextCharId Word.maxU64 := by
    refine Nat.lt_min.mpr ⟨?_, hcid⟩
    by_cases hleft : r.world.nextCharId < Word.maxU64
    · exact (hsettled hleft).below cid (by rw [position_of_lookup hc]; simp)
    · exact Nat.lt_of_lt_of_le hcid (Nat.le_of_not_lt hleft)
  obtain ⟨c₀, hc₀, hadvances⟩ := hsince.chars cid c' hbelow hc'
  rw [hc] at hc₀
  cases hc₀
  obtain ⟨d, hd⟩ := hrecorded.chars cid c hc
  exact fun f hf => hadvances.quest.chosen hd hf

/-- Whoever comes back has the faction of its principal. -/
theorem faction_returns (hrecorded : Recorded J r.world) (h : Embodied J r.world)
    (hgiven : PrincipalsGiven r.world) {ms : List (QuestMove Auth)} (hplay : ∀ m ∈ ms, m.isEdit = false)
    (hok : Along (Realm.questStep J A) (fun r m => m.Orderly A r) r ms)
    (hrun : exec (Realm.questStep J A) r ms = some r') {p : Text} {cid cid' : CharacterId} {c c' : Character}
    (hb : Body r.world p cid c) (hb' : Body r'.world p cid' c') : KeepsFaction c c' := by
  obtain ⟨h', hpass⟩ := exec_passes h hplay hok hrun
  obtain ⟨quest', hq', hadds⟩ := hpass.quests p c.quest (hgiven p cid c hb) (.inl ⟨cid, c, hb, rfl⟩)
  have hquest : quest' = c'.quest := hasQuest_of_body h' hb' hq'
  subst hquest
  obtain ⟨d, hd⟩ := hrecorded.chars cid c hb.1
  exact fun f hf => hadds.chosen hd hf

/-- **Quest progress counts deeds.** In every run that edits no quest table, from characters that are new,
what the table of a character says agrees. A faction that is chosen stays chosen while the character is in
the world; and it is that of its player ever after, when every move is orderly. -/
theorem quests_count_deeds (J : Codec Raw (List PlayerSnapshot)) (A : Codec Auth AuthBlob) (readOk : Bool)
    (rooms : RoomMap) (file : Option Raw) (hnew : ∀ s, InFile J file s → s.quest = ∅)
    (ms : List (QuestMove Auth)) (hplay : ∀ m ∈ ms, m.isEdit = false) {r : Realm Raw}
    (hrun : exec (Realm.questStep J A) (Realm.new J readOk rooms file) ms = some r) :
    (∀ cid c, r.world.chars.lookup cid = some c → Progress c.quest)
    ∧ (∀ (ms' : List (QuestMove Auth)) (r' : Realm Raw), exec (Realm.questStep J A) r ms' = some r' →
        (∀ m ∈ ms', m.isEdit = false ∧ m.isRelink = false) →
        ∀ cid c c', cid < Word.maxU64 → r.world.chars.lookup cid = some c → r'.world.chars.lookup cid = some c' →
          KeepsFaction c c')
    ∧ (FileWritten J file →
        Along (Realm.questStep J A) (fun r m => m.Orderly A r) (Realm.new J readOk rooms file) ms →
        ∀ (ms' : List (QuestMove Auth)) (r' : Realm Raw), exec (Realm.questStep J A) r ms' = some r' →
          (∀ m ∈ ms', m.isEdit = false) → Along (Realm.questStep J A) (fun r m => m.Orderly A r) r ms' →
          ∀ p cid c cid' c', Body r.world p cid c → Body r'.world p cid' c' → KeepsFaction c c') := by
  have hstart : Recorded J (Realm.new J readOk rooms file).world :=
    Kept.new readOk _ fun s hs => ⟨_, (hnew s hs).symm ▸ Records.empty⟩
  have hplays : Along (Realm.questStep J A) (fun _ m => m.isEdit = false) (Realm.new J readOk rooms file) ms :=
    along_of_forall_mem (fun m hm _ => hplay m hm) _
  have hrecorded : Recorded J r.world :=
    exec_invariant (I := fun r : Realm Raw => Recorded J r.world) (fun h hm hs => h.step hm hs) hstart hplays hrun
  refine ⟨fun cid c hc => ?_, fun ms' r' hrun' hplay' cid c c' hcid hc hc' => ?_, ?_⟩
  · obtain ⟨d, hd⟩ := hrecorded.chars cid c hc
    exact hd.progress
  · have hsettled : SettledSoFar r.world :=
      exec_preserves (I := fun r : Realm Raw => SettledSoFar r.world) (fun h hs => h.questStep hs)
        (SettledSoFar.new J readOk rooms file) hrun
    exact faction_stays hrecorded hsettled hplay' hrun' hcid hc hc'
  · intro hfile hok ms' r' hrun' hplay' hok' p cid c cid' c' hb hb'
    obtain ⟨h, hpass⟩ := exec_passes (embodied_new hfile) hplay hok hrun
    have hgiven : PrincipalsGiven r.world := hpass.given fun p cid c hb => by
      have hc : (∅ : Table CharacterId Character).lookup cid = some c := hb.1
      simp at hc
    exact faction_returns hrecorded h hgiven hplay' hok' hrun' hb hb'

/-! ## Alice signs twice -/

namespace JobBoard

def exit (dir dest : String) : ExitDef := ⟨dir.toList, dest.toList, false, none⟩

def room (id : String) (exits : List ExitDef) : Text × RoomDef := (id.toList, ⟨id.toList, [], [], exits⟩)

/-- The board, and around it the rooms of the contracts. -/
def rooms : RoomMap where
  rooms := Table.fileAll (fun d => d.name) ∅ ([
    room "R_TOWN_JOB_01" [exit "north" "R_MEADOW_PEST_02", exit "south" "R_ORCHARD_NEST_01",
      exit "east" "R_TOWN_CLINIC_01", exit "west" "R_TOWN_EDGE_01"],
    room "R_MEADOW_PEST_02" [exit "south" "R_TOWN_JOB_01"],
    room "R_ORCHARD_NEST_01" [exit "north" "R_TOWN_JOB_01"],
    room "R_TOWN_CLINIC_01" [exit "west" "R_TOWN_JOB_01"],
    room "R_TOWN_EDGE_01" [exit "east" "R_TOWN_JOB_01"]].map Prod.snd)
  dynRooms := ∅
  startRoom := roomTownJobBoard
  hasStart := by decide +kernel

abbrev BoardRealm : Type := Realm (Option (List PlayerSnapshot))

def run : BoardRealm → List (QuestMove (Option AuthBlob)) → Option BoardRealm :=
  exec (Realm.questStep (Codec.direct _) (Codec.direct _))

def start : BoardRealm := .new (Codec.direct _) true rooms none

def go (dir : String) : QuestMove (Option AuthBlob) := .realm (.going 1 (.tryMove dir.toList))

def attach : QuestMove (Option AuthBlob) := .realm (.shard (attachAs 1 "alice"))

/-- Alice does the three contracts, and is saved; then she chooses. -/
def contracts : List (QuestMove (Option AuthBlob)) :=
  [attach, go "north", go "south", go "south", go "north", go "east", go "west", go "west", go "east",
    .realm (.shard (.detach true someOrder 1)), attach, .line 1 "faction civic".toList]

/-- She goes and comes back, and so does the shard. -/
def returns : List (QuestMove (Option AuthBlob)) :=
  [.realm (.shard (.detach true someOrder 1)), attach, .realm (.relink true true true), attach]

/-- The players cannot be saved when the link ends: the choice is lost, and she chooses again. -/
def again : List (QuestMove (Option AuthBlob)) :=
  [.realm (.relink true false true), attach, .line 1 "faction green".toList]

/-- Whether somebody is played, for whom, and the faction that it has chosen -/
def signature (r : BoardRealm) (cid : CharacterId) : Option (Bool × Text × Option Text) :=
  (r.world.chars.lookup cid).map fun c => (c.controller.isSome, c.principal, QuestLog.chosen c.quest)

theorem body_of_signature {r : BoardRealm} {cid : CharacterId} {p : Text} {f : Option Text}
    (h : signature r cid = some (true, p, f)) :
    ∃ c, Body r.world p cid c ∧ QuestLog.chosen c.quest = f := by
  obtain ⟨c, hc, heq⟩ := Option.map_eq_some_iff.mp h
  simp only [Prod.mk.injEq] at heq
  exact ⟨c, ⟨hc, heq.1, heq.2.1⟩, heq.2.2⟩

end JobBoard

theorem quests_count_deeds_board : ∃ r r' : JobBoard.BoardRealm,
    JobBoard.run JobBoard.start JobBoard.contracts = some r ∧ JobBoard.run r JobBoard.returns = some r'
    ∧ ∃ c c', Body r.world "acct:alice".toList 2 c ∧ Body r'.world "acct:alice".toList 1 c'
      ∧ Progress c.quest ∧ KeepsFaction c c' := by
  have hsigned : (JobBoard.run JobBoard.start JobBoard.contracts).map (fun r => JobBoard.signature r 2)
      = some (some (true, "acct:alice".toList, some "civic".toList)) := by decide +kernel
  have hback : ((JobBoard.run JobBoard.start JobBoard.contracts).bind fun r : JobBoard.BoardRealm =>
      (JobBoard.run r JobBoard.returns).map fun r' : JobBoard.BoardRealm => JobBoard.signature r' 1)
      = some (some (true, "acct:alice".toList, some "civic".toList)) := by decide +kernel
  obtain ⟨r, hr, hsignature⟩ := Option.map_eq_some_iff.mp hsigned
  rw [hr, Option.bind_some] at hback
  obtain ⟨r', hr', hsignature'⟩ := Option.map_eq_some_iff.mp hback
  obtain ⟨c, hb, -⟩ := JobBoard.body_of_signature hsignature
  obtain ⟨c', hb', -⟩ := JobBoard.body_of_signature hsignature'
  have hok : Along (Realm.questStep (Codec.direct _) (Codec.direct _)) (fun r m => m.Orderly (Codec.direct _) r)
      JobBoard.start (JobBoard.contracts ++ JobBoard.returns) := by decide +kernel
  obtain ⟨hfirst, hrest⟩ := (along_append hr).mp hok
  obtain ⟨hprogress, -, hkeeps⟩ := quests_count_deeds _ _ true JobBoard.rooms none (by simp [InFile])
    JobBoard.contracts (by decide +kernel) hr
  exact ⟨r, r', hr, hr', c, c', hb, hb', hprogress 2 c hb.1,
    hkeeps (by simp [FileWritten]) hfirst JobBoard.returns r' hr' (by decide +kernel) hrest _ _ _ _ _ hb hb'⟩

/-- **A choice that is not saved is made again**: the save at the end of the link fails, which is only
logged, and Alice, who had signed for one faction, signs for another. -/
theorem unsaved_faction_changes : ∃ r r' : JobBoard.BoardRealm,
    JobBoard.run JobBoard.start JobBoard.contracts = some r ∧ JobBoard.run r JobBoard.again = some r'
    ∧ (∀ m ∈ JobBoard.contracts ++ JobBoard.again, m.isEdit = false)
    ∧ ∃ cid c cid' c', Body r.world "acct:alice".toList cid c ∧ Body r'.world "acct:alice".toList cid' c'
      ∧ QuestLog.chosen c.quest = some "civic".toList ∧ QuestLog.chosen c'.quest = some "green".toList := by
  have hsigned : (JobBoard.run JobBoard.start JobBoard.contracts).map (fun r => JobBoard.signature r 2)
      = some (some (true, "acct:alice".toList, some "civic".toList)) := by decide +kernel
  have hagain : ((JobBoard.run JobBoard.start JobBoard.contracts).bind fun r : JobBoard.BoardRealm =>
      (JobBoard.run r JobBoard.again).map fun r' : JobBoard.BoardRealm => JobBoard.signature r' 1)
      = some (some (true, "acct:alice".toList, some "green".toList)) := by decide +kernel
  obtain ⟨r, hr, hsignature⟩ := Option.map_eq_some_iff.mp hsigned
  rw [hr, Option.bind_some] at hagain
  obtain ⟨r', hr', hsignature'⟩ := Option.map_eq_some_iff.mp hagain
  obtain ⟨c, hb, hchosen⟩ := JobBoard.body_of_signature hsignature
  obtain ⟨c', hb', hchosen'⟩ := JobBoard.body_of_signature hsignature'
  exact ⟨r, r', hr, hr', by decide +kernel, 2, c, 1, c', hb, hb', hchosen, hchosen'⟩

end Slopmud.Shard
