import Slopmud.Proof.Pending

/-!
# Assisting

`start_combat` calls itself for members of the party who are not attacking yet, and whoever it is
called for attacks from then on. So every call but the first takes one from those who do not attack,
and it ends. Its target is not among them: a mob assists nobody, and a player who is attacked attacks
back before anybody assists.
-/

namespace Slopmud.Shard.Battle

open Machine

variable {Raw : Type} {b b' : Battle Raw} {a t cid : CharacterId}

/-! ## Calls -/

/-- The attack itself, and the blow back -/
def struck (b : Battle Raw) (a t : CharacterId) : Battle Raw :=
  if (b.engage a t).strikesBack a t then (b.engage a t).engage t a else b.engage a t

/-- `start_combat` with the attackers for whom it is called, in order. It has no value when the calls
are nested deeper than `fuel`. -/
def startCombatCalls (O : SetOrder) :
    Nat → Battle Raw → CharacterId → CharacterId → Option (Battle Raw × List CharacterId)
  | 0, _, _, _ => none
  | fuel + 1, b, attackerId, targetId =>
    match b.char attackerId with
    | none => some (b, [attackerId])
    | some att =>
      let b := b.struck attackerId targetId
      match (b.world.partyOf.lookup attackerId).bind b.world.parties.lookup with
      | none => some (b, [attackerId])
      | some p =>
        (O.list p.members).foldlM (fun (b, calls) mid =>
          if b.assists att.roomId attackerId mid then
            (startCombatCalls O fuel b mid targetId).map fun (b, more) => (b, calls ++ more)
          else some (b, calls)) (b, [attackerId])

theorem startCombat_succ (O : SetOrder) (fuel : Nat) {att : Character} (hatt : b.char a = some att)
    (t : CharacterId) : startCombat O (fuel + 1) b a t
      = match ((b.struck a t).world.partyOf.lookup a).bind (b.struck a t).world.parties.lookup with
        | none => b.struck a t
        | some p => (O.list p.members).foldl (fun b mid =>
            if b.assists att.roomId a mid then startCombat O fuel b mid t else b) (b.struck a t) := by
  conv_lhs => rw [startCombat, hatt]
  rfl

theorem rallied_struck (b : Battle Raw) (a t : CharacterId) : Rallied (b.engage a t) (b.struck a t) := by
  unfold struck
  split
  · exact (Rallied.refl _).engage t a
  · exact .refl _

/-- What the calls come to that are made between `b₁` and `b`, in combat that began in `b₀`. -/
structure Joined (b₀ : Battle Raw) (a₀ : CharacterId) (b₁ b : Battle Raw) (calls : List CharacterId) :
    Prop where
  rallied : Rallied b₁ b
  /-- Nobody is called for twice. -/
  once : calls.Nodup
  /-- Whoever is called for did not attack, and attacks now. -/
  taken : ∀ c ∈ calls, c ∈ b₁.idle ∧ c ∉ b.idle
  /-- It is of the party of one for whom the call was made. -/
  enlisted : ∀ c ∈ calls, b₀.Enlists a₀ c

variable {b₀ b₁ : Battle Raw} {a₀ mid : CharacterId} {calls more : List CharacterId}

theorem Joined.none (h : Rallied b₁ b) : Joined b₀ a₀ b₁ b [] := ⟨h, List.nodup_nil, nofun, nofun⟩

/-- One more call, and what comes of it -/
theorem Joined.call (h : Joined b₀ a₀ b₁ b calls) (hin : b₀.Enlists a₀ mid) (hidle : mid ∈ b.idle)
    (hmore : Joined b₀ a₀ (b.engage mid t) b' more) : Joined b₀ a₀ b₁ b' (calls ++ mid :: more) := by
  have hengage : Rallied b (b.engage mid t) := (Rallied.refl b).engage mid t
  have hrallied : Rallied b b' := hengage.trans hmore.rallied
  refine ⟨h.rallied.trans hrallied, ?_, ?_, ?_⟩
  · have hmid : mid ∉ more := fun hc => not_mem_idle_engage b mid t (hmore.taken mid hc).1
    refine List.nodup_append.mpr ⟨h.once, List.nodup_cons.mpr ⟨hmid, hmore.once⟩, ?_⟩
    rintro c hc c' hc' rfl
    rcases List.mem_cons.mp hc' with rfl | hc'
    · exact (h.taken c hc).2 hidle
    · exact (h.taken c hc).2 (hengage.idle_subset (hmore.taken c hc').1)
  · intro c hc
    rcases List.mem_append.mp hc with hc | hc
    · exact ⟨(h.taken c hc).1, fun hleft => (h.taken c hc).2 (hrallied.idle_subset hleft)⟩
    · rcases List.mem_cons.mp hc with rfl | hc
      · exact ⟨h.rallied.idle_subset hidle,
          fun hleft => not_mem_idle_engage b c t (hmore.rallied.idle_subset hleft)⟩
      · have hfrom := (hmore.taken c hc).1
        exact ⟨h.rallied.idle_subset (hengage.idle_subset hfrom), (hmore.taken c hc).2⟩
  · intro c hc
    rcases List.mem_append.mp hc with hc | hc
    · exact h.enlisted c hc
    · rcases List.mem_cons.mp hc with rfl | hc
      · exact hin
      · exact hmore.enlisted c hc

/-- **The loop over the party**, once each of its calls ends. -/
theorem Joined.loop {O : SetOrder} {fuel : Nat} {roomId : Text}
    (hcall : ∀ b mid, Rallied b₁ b → mid ∈ b.idle → b₀.Enlists a₀ mid → ∃ more,
      startCombatCalls O fuel b mid t = some (startCombat O fuel b mid t, mid :: more)
        ∧ Joined b₀ a₀ (b.engage mid t) (startCombat O fuel b mid t) more)
    {mids : List CharacterId}
    (hmids : ∀ mid ∈ mids, ∀ b, Rallied b₁ b → b.assists roomId a mid = true → b₀.Enlists a₀ mid)
    (h : Joined b₀ a₀ b₁ b calls) :
    ∃ calls', mids.foldlM (fun (b, calls) mid =>
          if b.assists roomId a mid then
            (startCombatCalls O fuel b mid t).map fun (b, more) => (b, calls ++ more)
          else some (b, calls)) (b, a :: calls)
        = some (mids.foldl (fun b mid =>
            if b.assists roomId a mid then startCombat O fuel b mid t else b) b, a :: calls')
      ∧ Joined b₀ a₀ b₁ (mids.foldl (fun b mid =>
            if b.assists roomId a mid then startCombat O fuel b mid t else b) b) calls' := by
  induction mids generalizing b calls with
  | nil => exact ⟨calls, rfl, h⟩
  | cons mid mids ih =>
    have hrest := fun m hm => hmids m (List.mem_cons_of_mem _ hm)
    rw [List.foldl_cons, List.foldlM_cons]
    by_cases hassists : b.assists roomId a mid = true
    · have hin : b₀.Enlists a₀ mid := hmids mid List.mem_cons_self b h.rallied hassists
      have hidle : mid ∈ b.idle := mem_idle_of_assists hassists
      obtain ⟨more, hrun, hmore⟩ := hcall b mid h.rallied hidle hin
      obtain ⟨calls', hloop, hend⟩ := ih hrest (h.call hin hidle hmore)
      refine ⟨calls', ?_, ?_⟩
      · simpa [hassists, hrun] using hloop
      · simpa [hassists] using hend
    · obtain ⟨calls', hloop, hend⟩ := ih hrest h
      refine ⟨calls', ?_, ?_⟩
      · simpa [hassists] using hloop
      · simpa [hassists] using hend

/-- **Each call ends**, by induction on how many do not attack. -/
theorem startCombatCalls_joined (O : SetOrder) (fuel : Nat) (hb : Rallied b₀ b) (ha : b₀.Enlists a₀ a)
    (hfuel : (b.engage a t).idle.card < fuel) :
    ∃ calls, startCombatCalls O fuel b a t = some (startCombat O fuel b a t, a :: calls)
      ∧ Joined b₀ a₀ (b.engage a t) (startCombat O fuel b a t) calls := by
  induction fuel generalizing b a with
  | zero => exact absurd hfuel (Nat.not_lt_zero _)
  | succ fuel ih =>
    cases hatt : b.char a with
    | none =>
      have hleft : startCombat O (fuel + 1) b a t = b := by
        unfold startCombat
        rw [hatt]
      have hback : Rallied (b.engage a t) b := by
        unfold engage updateChar
        rw [hatt]
        exact ⟨.refl roused_composes _, rfl, rfl⟩
      rw [hleft]
      exact ⟨[], by unfold startCombatCalls; rw [hatt], .none hback⟩
    | some att =>
      obtain ⟨c, hc, k, rfl, -⟩ := hb.chars a att hatt
      have hstruck : Rallied (b.engage a t) (b.struck a t) := rallied_struck b a t
      have hfrom : Rallied b₀ (b.struck a t) := hb.trans (((Rallied.refl b).engage a t).trans hstruck)
      rw [startCombat_succ O fuel hatt]
      unfold startCombatCalls
      simp only [hatt]
      cases hp : ((b.struck a t).world.partyOf.lookup a).bind (b.struck a t).world.parties.lookup with
      | none => exact ⟨[], rfl, .none hstruck⟩
      | some p =>
        rw [hfrom.partyOf, hfrom.parties] at hp
        refine Joined.loop ?_ ?_ (.none hstruck)
        · intro b' mid hb' hidle hin
          have hless := idle_engage_lt hidle t
          have hle := Finset.card_le_card hb'.idle_subset
          have hto : Rallied b₀ b' := (hb.trans ((Rallied.refl b).engage a t)).trans hb'
          exact ih hto hin (by omega)
        · intro mid hmid b' hb' hassists
          have hto : Rallied b₀ b' := (hb.trans ((Rallied.refl b).engage a t)).trans hb'
          exact .assists ha hc hp (O.mem_of_mem_list hmid) (hto.assists hassists)

/-! ## Who is attacked -/

/-- The character is its own combat target. -/
def TargetsSelf (b : Battle Raw) (cid : CharacterId) : Prop :=
  ∃ c, b.char cid = some c ∧ c.combat.target = some cid

/-- It is no player who may still assist. -/
def Settled (b : Battle Raw) (t : CharacterId) : Prop :=
  ∀ m, b.char t = some m → m.controller = none ∨ m.combat.autoattack = true

theorem Settled.mono (hs : b.Settled t) (h : Rallied b b') : b'.Settled t := by
  intro m' hm'
  obtain ⟨m, hm, k, rfl, hk⟩ := h.chars t m' hm'
  exact (hs m hm).imp_right hk

theorem Settled.ne_of_assists (hs : b.Settled t) {roomId : Text} (h : b.assists roomId cid mid = true) :
    mid ≠ t := by
  rintro rfl
  simp only [Battle.assists, Bool.and_eq_true, Option.any_eq_true, Bool.not_eq_true'] at h
  obtain ⟨-, m, hm, ⟨⟨hplayer, -⟩, -⟩, hidle⟩ := h
  rcases hs m hm with hmob | hbusy
  · rw [hmob] at hplayer
    cases hplayer
  · rw [hbusy] at hidle
    cases hidle

theorem settled_of_isMob (h : b.isMob t = true) : b.Settled t := by
  intro m hm
  rw [isMob, hm, Option.any_some] at h
  exact .inl (Option.isNone_iff_eq_none.mp h)

theorem settled_engage (b : Battle Raw) (cid t : CharacterId) : (b.engage cid t).Settled cid := by
  intro m hm
  right
  by_contra hidle
  exact not_mem_idle_engage b cid t (mem_idle.mpr ⟨m, hm, by simpa using hidle⟩)

/-- Whoever may be attacked strikes back. -/
theorem settled_struck (h : b.isMob t = true ∨ b.canPvpIds a t = true) : (b.struck a t).Settled t := by
  rcases h with hmob | hpvp
  · exact (settled_of_isMob hmob).mono (((Rallied.refl b).engage a t).trans (rallied_struck b a t))
  · have hkept : (b.engage a t).isPlayer t = b.isPlayer t
        ∧ (b.engage a t).canPvpIds a t = b.canPvpIds a t := by
      have hchar : ∀ cid, (b.engage a t).char cid = (b.char cid).map fun c => if cid = a then
          { c with combat := { c.combat with autoattack := true, target := some t, nextReadyMs := b.nowMs } }
          else c := fun cid => char_updateChar_map b a cid _
      constructor
      · rw [isPlayer, isPlayer, hchar]
        cases b.char t with
        | none => rfl
        | some c => simp only [Option.map_some, Option.any_some]; split <;> rfl
      · unfold canPvpIds
        rw [hchar, hchar]
        cases b.char a with
        | none => rfl
        | some ca =>
          cases b.char t with
          | none => rfl
          | some ct =>
            simp only [Option.map_some, if_true]
            split <;> rfl
    have hplayer : b.isPlayer t = true := by
      unfold canPvpIds at hpvp
      split at hpvp
      · next _ tgt _ htgt =>
        simp only [Bool.and_eq_true] at hpvp
        simp [isPlayer, htgt, hpvp.1.1.1.1.2.2]
      · cases hpvp
    have hback : (b.engage a t).strikesBack a t = true := by
      rw [strikesBack, hkept.1, hkept.2, hplayer, hpvp]
      simp
    rw [struck, if_pos hback]
    exact settled_engage _ t a

theorem engage_outward (hne : cid ≠ t) {x : CharacterId} (h : (b.engage cid t).TargetsSelf x) :
    b.TargetsSelf x := by
  obtain ⟨c', hc', htarget⟩ := h
  have hchar := (char_updateChar b cid x _).symm.trans hc'
  by_cases hx : x = cid
  · subst hx
    rw [if_pos rfl] at hchar
    obtain ⟨c, -, rfl⟩ := Option.map_eq_some_iff.mp hchar
    exact absurd (Option.some.inj htarget).symm hne
  · rw [if_neg hx] at hchar
    exact ⟨c', hchar, htarget⟩

/-- **Nobody turns on itself**: the attacker is not the target, and none of those who assist is. -/
theorem startCombat_outward (O : SetOrder) (fuel : Nat) (hne : a ≠ t) (hsettled : (b.struck a t).Settled t)
    {x : CharacterId} (h : (startCombat O fuel b a t).TargetsSelf x) : b.TargetsSelf x := by
  induction fuel generalizing b a with
  | zero => exact h
  | succ fuel ih =>
    cases hatt : b.char a with
    | none =>
      unfold startCombat at h
      rw [hatt] at h
      exact h
    | some att =>
      have hstruck : (b.struck a t).TargetsSelf x → b.TargetsSelf x := by
        intro hself
        unfold struck at hself
        split at hself
        · exact engage_outward hne (engage_outward (Ne.symm hne) hself)
        · exact engage_outward hne hself
      rw [startCombat_succ O fuel hatt] at h
      split at h
      · exact hstruck h
      · next p hp =>
        refine hstruck ((List.foldlRecOn (motive := fun b' => Rallied (b.struck a t) b'
          ∧ (b'.TargetsSelf x → (b.struck a t).TargetsSelf x)) _ _ ⟨.refl _, id⟩ ?_).2 h)
        rintro b' ⟨hrallied, hout⟩ mid -
        split
        · next hassists =>
          have hsettled' : b'.Settled t := hsettled.mono hrallied
          have hmid : mid ≠ t := hsettled'.ne_of_assists hassists
          have hmono : (b'.struck mid t).Settled t :=
            hsettled'.mono (((Rallied.refl b').engage mid t).trans (rallied_struck b' mid t))
          exact ⟨hrallied.trans (startCombat_rallied O fuel b' mid t),
            fun hself => hout (ih hmid hmono hself)⟩
        · exact ⟨hrallied, hout⟩

/-! ## The whole of it -/

/-- `start_combat` has ended with these calls after the first one. -/
structure Ends (b : Battle Raw) (a t : CharacterId) (b' : Battle Raw) (calls : List CharacterId) : Prop where
  /-- Each of them is for another character, and none for the attacker. -/
  once : (a :: calls).Nodup
  /-- Each is for a member of a party, -/
  members : ∀ c ∈ calls, ∃ pid p, b.world.parties.lookup pid = some p ∧ c ∈ p.members
  /-- of the attacker's, when that is the party of its members. -/
  party : ∀ pid p, b.world.partyOf.lookup a = some pid → b.world.parties.lookup pid = some p →
    (∀ m ∈ p.members, b.world.partyOf.lookup m = some pid) → ∀ c ∈ calls, c ∈ p.members
  /-- A player's attack that `kill` allows makes nobody its own target. -/
  outward : b.isPlayer a = true → b.isMob t = true ∨ b.canPvpIds a t = true →
    ∀ cid, b'.TargetsSelf cid → b.TargetsSelf cid

theorem ne_of_attack (hplayer : b.isPlayer a = true) (h : b.isMob t = true ∨ b.canPvpIds a t = true) :
    a ≠ t := by
  rintro rfl
  simp only [isPlayer, Option.any_eq_true] at hplayer
  obtain ⟨c, hc, hcontrolled⟩ := hplayer
  rcases h with hmob | hpvp
  · rw [isMob, hc, Option.any_some, Option.isNone_iff_eq_none] at hmob
    rw [hmob] at hcontrolled
    cases hcontrolled
  · simp [canPvpIds, hc] at hpvp

/-- A party whose members are of no other party enlists nobody else. -/
theorem enlists_party {pid : PartyId} {p : Party} (hof : b.world.partyOf.lookup a = some pid)
    (hparty : b.world.parties.lookup pid = some p)
    (hall : ∀ m ∈ p.members, b.world.partyOf.lookup m = some pid) (h : b.Enlists a cid) :
    cid = a ∨ cid ∈ p.members := by
  induction h with
  | attacks => exact .inl rfl
  | @assists cid mid c q _ hc hq hmem _ ih =>
    right
    have hpid : b.world.partyOf.lookup cid = some pid := by
      rcases ih with rfl | hin
      · exact hof
      · exact hall cid hin
    rw [hpid, Option.bind_some, hparty] at hq
    cases hq
    exact hmem

/-- **Auto-assist ends**, with one call at most for each member of the party. -/
theorem startCombat_ends (O : SetOrder) (b : Battle Raw) (a t : CharacterId) :
    ∃ calls, startCombatCalls O b.startCombatFuel b a t
        = some (startCombat O b.startCombatFuel b a t, a :: calls)
      ∧ b.Ends a t (startCombat O b.startCombatFuel b a t) calls := by
  obtain ⟨calls, hrun, hjoined⟩ :=
    startCombatCalls_joined O b.startCombatFuel (.refl b) .attacks (idle_engage_lt_fuel b a t)
  refine ⟨calls, hrun, ?_, ?_, ?_, ?_⟩
  · refine List.nodup_cons.mpr ⟨fun hc => ?_, hjoined.once⟩
    exact not_mem_idle_engage b a t (hjoined.taken a hc).1
  · intro c hc
    have hin : c = a ∨ ∃ pid p, b.world.parties.lookup pid = some p ∧ c ∈ p.members := by
      cases hjoined.enlisted c hc with
      | attacks => exact .inl rfl
      | assists _ _ hp hmem _ =>
        obtain ⟨pid, -, hparty⟩ := Option.bind_eq_some_iff.mp hp
        exact .inr ⟨pid, _, hparty, hmem⟩
    rcases hin with rfl | hin
    · exact absurd (hjoined.taken c hc).1 (not_mem_idle_engage b c t)
    · exact hin
  · intro pid p hof hparty hall c hc
    rcases enlists_party hof hparty hall (hjoined.enlisted c hc) with rfl | hin
    · exact absurd (hjoined.taken c hc).1 (not_mem_idle_engage b c t)
    · exact hin
  · intro hplayer hattack cid hself
    exact startCombat_outward O _ (ne_of_attack hplayer hattack) (settled_struck hattack) hself

end Slopmud.Shard.Battle
