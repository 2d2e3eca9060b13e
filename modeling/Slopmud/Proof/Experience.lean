import Mathlib.Tactic.Ring
import Slopmud.Lib.TableSum
import Slopmud.Proof.Vitals

/-!
# Experience

What a character has ever been awarded can be read off its level and its experience, and an award
raises the sum of it over all characters by exactly the award, however it is shared. A level gives a
skill point, and a skill point a rank, so that the points and the ranks count the levels.
-/

namespace Slopmud.Shard

open Machine Table

variable {Raw Auth : Type} {J : Codec Raw (List PlayerSnapshot)} {A : Codec Auth AuthBlob}

/-! ## One character -/

/-- Everything that a character has been awarded: level `l` took `10 * l`. -/
def Character.total (c : Character) : Nat := 5 * c.level * (c.level - 1) + c.xp

def Character.ranks (c : Character) : Nat := Table.total (fun rank => rank) c.skills

/-- What the code keeps of levels and skill points: levels start at one, and each after the first
gave at most one point. -/
structure Counted (c : Character) : Prop where
  level : 1 ≤ c.level
  points : c.skillPoints < c.level

/-- The points and the ranks make up the levels. -/
def Budgeted (c : Character) : Prop := 1 ≤ c.level ∧ c.skillPoints + c.ranks = c.level - 1

theorem Budgeted.counted {c : Character} (h : Budgeted c) : Counted c := by
  obtain ⟨hlevel, hsum⟩ := h
  exact ⟨hlevel, by omega⟩

/-- What a share of experience makes of a character. -/
structure Rewarded (share : Nat) (c c' : Character) : Prop where
  total : c'.total = c.total + share
  xp : c'.xp < 10 * c'.level
  level : c.level ≤ c'.level
  points : c'.skillPoints + c.level = c.skillPoints + c'.level
  skills : c'.skills = c.skills

theorem Rewarded.budgeted {share : Nat} {c c' : Character} (h : Rewarded share c c') (hc : Budgeted c) :
    Budgeted c' := by
  obtain ⟨hlevel, hsum⟩ := hc
  have hpoints := h.points
  have hle := h.level
  unfold Budgeted Character.ranks at *
  rw [h.skills]
  omega

theorem levelUp_progress (c : Character) : c.levelUp.xp = c.xp - xpNeededForNext c.level
    ∧ c.levelUp.level = Word.satAdd32 c.level 1
    ∧ c.levelUp.skillPoints = Word.satAdd32 c.skillPoints 1 ∧ c.levelUp.skills = c.skills := by
  unfold Character.levelUp
  dsimp only
  split
  · exact ⟨rfl, rfl, rfl, rfl⟩
  · exact ⟨rfl, rfl, rfl, rfl⟩

/-- A level costs what `total` counts for it. -/
theorem total_succ (l : Nat) (hl : 1 ≤ l) : 5 * (l + 1) * l = 5 * l * (l - 1) + 10 * l := by
  obtain ⟨k, rfl⟩ := Nat.exists_eq_add_of_le' hl
  simp only [Nat.add_sub_cancel]
  ring

/-- Levels are far from the end of `u32` as long as the totals are within it. -/
theorem level_lt_of_total {c : Character} (h : c.total < 2 ^ 32) : c.level + 1 < 2 ^ 32 := by
  by_contra hbig
  have hlevel : 2 ^ 32 - 1 ≤ c.level := by omega
  have hmul : 5 * (2 ^ 32 - 1) * (2 ^ 32 - 1 - 1) ≤ 5 * c.level * (c.level - 1) :=
    Nat.mul_le_mul (Nat.mul_le_mul_left 5 hlevel) (by omega)
  unfold Character.total at h
  omega

/-- One level more, of those who have enough experience -/
theorem levelUp_total {c : Character} (hc : Counted c) (hfits : c.total < 2 ^ 32)
    (hxp : xpNeededForNext c.level ≤ c.xp) : Counted c.levelUp ∧ c.levelUp.total = c.total
      ∧ c.levelUp.level = c.level + 1 ∧ c.levelUp.skillPoints = c.skillPoints + 1 := by
  obtain ⟨hxp', hlevel', hpoints', -⟩ := levelUp_progress c
  have hlow := level_lt_of_total hfits
  have hone := hc.level
  have hpoints := hc.points
  have hlevel : c.levelUp.level = c.level + 1 := hlevel'.trans (Word.satAdd32_of_lt hlow)
  have hpoint : c.levelUp.skillPoints = c.skillPoints + 1 :=
    hpoints'.trans (Word.satAdd32_of_lt (by omega))
  refine ⟨⟨by omega, by omega⟩, ?_, hlevel, hpoint⟩
  have hneed : xpNeededForNext c.level = 10 * c.level := by
    unfold xpNeededForNext
    omega
  have hcost := total_succ c.level hone
  unfold Character.total
  rw [hlevel, hxp', hneed, Nat.add_sub_cancel]
  rw [hneed] at hxp
  omega

/-- **A share of experience** is added to the total, and as many levels are gained as it pays for. -/
theorem gainXp_rewarded {c : Character} (hc : Counted c) {share : Nat} (hfits : c.total + share < 2 ^ 32) :
    Rewarded share c (c.gainXp share) ∧ Counted (c.gainXp share) := by
  have hsum : Word.satAdd32 c.xp share = c.xp + share := by
    unfold Character.total at hfits
    exact Word.satAdd32_of_lt (by omega)
  have hstart : Counted { c with xp := Word.satAdd32 c.xp share } := ⟨hc.level, hc.points⟩
  -- the loop keeps the total and gives a point for each level
  have hloop := levelUps_induct (P := fun c' => Counted c' ∧ c'.total = c.total + share
      ∧ c.level ≤ c'.level ∧ c'.skillPoints + c.level = c.skillPoints + c'.level ∧ c'.skills = c.skills)
    (fun c' hmore ⟨hc', htotal, hle, hpoints, hskills⟩ => by
      obtain ⟨hcounted, htotal', hlevel', hpoints'⟩ := levelUp_total hc' (by omega) hmore
      obtain ⟨-, -, -, hskills'⟩ := levelUp_progress c'
      exact ⟨hcounted, by omega, by omega, by omega, hskills'.trans hskills⟩)
    (Word.satAdd32 c.xp share + 1) (c := { c with xp := Word.satAdd32 c.xp share })
    ⟨hstart, by unfold Character.total; dsimp only; omega, Nat.le_refl _, rfl, rfl⟩
  obtain ⟨hcounted, htotal, hle, hpoints, hskills⟩ := hloop
  have hdone := gainXp_done share c
  have hlevel : 1 ≤ (c.gainXp share).level := hcounted.level
  refine ⟨⟨htotal, ?_, hle, hpoints, hskills⟩, hcounted⟩
  unfold xpNeededForNext at hdone
  omega

/-! ## Sharing -/

/-- Nobody is gone through twice. -/
theorem SetOrder.nodup_list (O : SetOrder) (s : Finset CharacterId) : (O.list s).Nodup := by
  suffices hgo : ∀ n (s : Finset CharacterId), n ≤ s.card →
      (SetOrder.list.go O n s).Nodup ∧ ∀ cid ∈ SetOrder.list.go O n s, cid ∈ s from
    (hgo s.card s (Nat.le_refl _)).1
  intro n
  induction n with
  | zero => exact fun s _ => ⟨List.nodup_nil, fun cid hcid => absurd hcid List.not_mem_nil⟩
  | succ n ih =>
    intro s hn
    have hfirst : O.first s ∈ s := O.first_mem s (Finset.card_pos.mp (Nat.lt_of_lt_of_le n.succ_pos hn))
    have hcard : n ≤ (s.erase (O.first s)).card := by
      rw [Finset.card_erase_of_mem hfirst]
      omega
    obtain ⟨hnodup, hmem⟩ := ih _ hcard
    refine ⟨List.nodup_cons.mpr ⟨fun hin => ?_, hnodup⟩, fun cid hcid => ?_⟩
    · exact Finset.notMem_erase (O.first s) s (hmem _ hin)
    · rcases List.mem_cons.mp hcid with rfl | hrest
      · exact hfirst
      · exact Finset.mem_of_mem_erase (hmem cid hrest)

/-- The shares of an award: the parts are even, and the first has the remainder too. -/
def splitAward (xp : Nat) (elig : List CharacterId) : List (CharacterId × Nat) :=
  elig.zipIdx.map fun e => (e.1, xp / elig.length + if e.2 = 0 then xp % elig.length else 0)

theorem splitAward_fst (xp : Nat) (elig : List CharacterId) : (splitAward xp elig).map Prod.fst = elig := by
  rw [splitAward, List.map_map]
  exact List.zipIdx_map_fst 0 elig

theorem splitAward_sum (xp : Nat) {elig : List CharacterId} (h : elig ≠ []) :
    ((splitAward xp elig).map Prod.snd).sum = xp := by
  have hparts : ∀ (base rem k : Nat) (l : List CharacterId),
      ((l.zipIdx k).map fun e => base + if e.2 = 0 then rem else 0).sum
        = l.length * base + if k = 0 ∧ l ≠ [] then rem else 0 := by
    intro base rem k l
    induction l generalizing k with
    | nil => simp
    | cons cid l ih =>
      rw [List.zipIdx_cons, List.map_cons, List.sum_cons, ih, List.length_cons, Nat.succ_mul]
      by_cases hk : k = 0
      · simp [hk]
        omega
      · simp [hk]
        omega
  rw [splitAward, List.map_map]
  refine (hparts (xp / elig.length) (xp % elig.length) 0 elig).trans ?_
  rw [if_pos ⟨rfl, h⟩]
  exact Nat.div_add_mod xp elig.length

namespace Battle

def totalXp (b : Battle Raw) : Nat := Table.total Character.total b.world.chars

/-- Who gets what of an award. -/
def shares (O : SetOrder) (b : Battle Raw) (cid : CharacterId) (xp : Nat) : List (CharacterId × Nat) :=
  match b.world.partyOf.lookup cid, b.char cid with
  | some pid, some att =>
    let elig := ((b.world.parties.lookup pid).map fun p => b.sharers O p att.roomId).getD []
    if elig.length ≤ 1 then [(cid, xp)] else splitAward xp elig
  | _, _ => [(cid, xp)]

def giveShares (b : Battle Raw) (l : List (CharacterId × Nat)) : Battle Raw :=
  l.foldl (fun b e => b.updateChar e.1 (Character.gainXp e.2)) b

/-- **An award is its shares.** -/
theorem awardXp_eq (O : SetOrder) (b : Battle Raw) (cid : CharacterId) (xp : Nat) :
    b.awardXp O cid xp = b.giveShares (b.shares O cid xp) := by
  unfold awardXp shares
  cases b.world.partyOf.lookup cid with
  | none => rfl
  | some pid =>
    cases hc : b.char cid with
    | none =>
      simp only [giveShares, List.foldl_cons, List.foldl_nil]
      unfold updateChar
      rw [hc]
    | some att =>
      dsimp only
      split
      · rfl
      · rw [giveShares, splitAward, List.foldl_map]

/-- A living player of the killer's party, in the room of the killer -/
def SharesWith (b : Battle Raw) (cid : CharacterId) (att : Character) (mid : CharacterId) : Prop :=
  ∃ pid p m, b.world.partyOf.lookup cid = some pid ∧ b.world.parties.lookup pid = some p
    ∧ mid ∈ p.members ∧ b.char mid = some m
    ∧ m.controller.isSome = true ∧ m.roomId = att.roomId ∧ 0 < m.hp

variable {b b' : Battle Raw} {O : SetOrder} {cid : CharacterId} {att : Character} {xp : Nat}

/-- The shares make up the award. They go to different characters: the killer, or those who share
with it. -/
theorem shares_spec (hatt : b.char cid = some att) :
    ((b.shares O cid xp).map Prod.snd).sum = xp ∧ ((b.shares O cid xp).map Prod.fst).Nodup
      ∧ ∀ e ∈ b.shares O cid xp, e.1 = cid ∨ b.SharesWith cid att e.1 := by
  have halone : (([(cid, xp)] : List (CharacterId × Nat)).map Prod.snd).sum = xp
      ∧ (([(cid, xp)] : List (CharacterId × Nat)).map Prod.fst).Nodup
      ∧ ∀ e ∈ [(cid, xp)], e.1 = cid ∨ b.SharesWith cid att e.1 := by
    refine ⟨by simp, by simp, fun e he => .inl ?_⟩
    rw [List.mem_singleton.mp he]
  unfold shares
  rw [hatt]
  cases hparty : b.world.partyOf.lookup cid with
  | none => exact halone
  | some pid =>
    dsimp only
    split
    · exact halone
    · next hmany =>
      cases hp : b.world.parties.lookup pid with
      | none =>
        rw [hp] at hmany
        exact absurd (Nat.zero_le 1) hmany
      | some p =>
        rw [hp] at hmany
        simp only [Option.map_some, Option.getD_some] at hmany ⊢
        have hne : b.sharers O p att.roomId ≠ [] := by
          intro hnil
          rw [hnil] at hmany
          exact hmany (Nat.zero_le 1)
        refine ⟨splitAward_sum xp hne, ?_, fun e he => .inr ?_⟩
        · rw [splitAward_fst]
          exact (O.nodup_list p.members).filter _
        · have hin : e.1 ∈ b.sharers O p att.roomId := by
            rw [← splitAward_fst xp (b.sharers O p att.roomId)]
            exact List.mem_map_of_mem he
          obtain ⟨hlist, hcond⟩ := List.mem_filter.mp hin
          obtain ⟨m, hm, hcond⟩ := (Option.any_eq_true _ _).mp hcond
          simp only [Bool.and_eq_true, beq_iff_eq, decide_eq_true_eq] at hcond
          exact ⟨pid, p, m, hparty, hp, O.mem_of_mem_list hlist, hm, hcond.1.1, hcond.1.2, hcond.2⟩

theorem totalXp_updateChar {c : Character} (hc : b.char cid = some c) (f : Character → Character) :
    (b.updateChar cid f).totalXp + c.total = b.totalXp + (f c).total := by
  unfold updateChar
  rw [hc]
  exact Table.total_insert hc (f c)

/-- No share makes the total of a character leave `u32`. -/
def SharesFit (b : Battle Raw) (l : List (CharacterId × Nat)) : Prop :=
  ∀ e ∈ l, ∀ c, b.char e.1 = some c → c.total + e.2 < 2 ^ 32

/-- **Giving shares.** The sum grows by the shares, whoever has a share is rewarded with it, and the
others are as they were. -/
theorem giveShares_spec {l : List (CharacterId × Nat)} (hcounted : All (fun _ c => Counted c) b.world.chars)
    (hnodup : (l.map Prod.fst).Nodup) (hthere : ∀ e ∈ l, ∃ c, b.char e.1 = some c) (hfits : b.SharesFit l) :
    (b.giveShares l).totalXp = b.totalXp + (l.map Prod.snd).sum
      ∧ (∀ e ∈ l, ∀ c, b.char e.1 = some c → ∃ c', (b.giveShares l).char e.1 = some c' ∧ Rewarded e.2 c c')
      ∧ ∀ cid, cid ∉ l.map Prod.fst → (b.giveShares l).char cid = b.char cid := by
  induction l generalizing b with
  | nil => exact ⟨rfl, fun e he => absurd he List.not_mem_nil, fun _ _ => rfl⟩
  | cons e l ih =>
    rw [List.map_cons, List.nodup_cons] at hnodup
    obtain ⟨c, hc⟩ := hthere e List.mem_cons_self
    obtain ⟨hrewarded, hcounted'⟩ := gainXp_rewarded (hcounted e.1 c hc) (hfits e List.mem_cons_self c hc)
    -- after the first share: one character has it, and the others are the same
    have hself : (b.updateChar e.1 (Character.gainXp e.2)).char e.1 = some (c.gainXp e.2) := by
      rw [char_updateChar, if_pos rfl, hc, Option.map_some]
    have hother : ∀ cid, cid ≠ e.1 → (b.updateChar e.1 (Character.gainXp e.2)).char cid = b.char cid :=
      fun cid hne => by rw [char_updateChar, if_neg hne]
    have hapart : ∀ e' ∈ l, e'.1 ≠ e.1 := by
      intro e' he' heq
      exact hnodup.1 (heq ▸ List.mem_map_of_mem he')
    have hsum := totalXp_updateChar hc (Character.gainXp e.2)
    rw [hrewarded.total] at hsum
    have hcounted₁ : All (fun _ c => Counted c) (b.updateChar e.1 (Character.gainXp e.2)).world.chars := by
      intro cid c' hc'
      by_cases hcid : cid = e.1
      · subst hcid
        cases hself.symm.trans hc'
        exact hcounted'
      · exact hcounted cid c' ((hother cid hcid).symm.trans hc')
    have hthere₁ : ∀ e' ∈ l, ∃ c, (b.updateChar e.1 (Character.gainXp e.2)).char e'.1 = some c := by
      intro e' he'
      obtain ⟨c', hc'⟩ := hthere e' (List.mem_cons_of_mem _ he')
      exact ⟨c', (hother _ (hapart e' he')).trans hc'⟩
    have hfits₁ : (b.updateChar e.1 (Character.gainXp e.2)).SharesFit l := by
      intro e' he' c' hc'
      rw [hother _ (hapart e' he')] at hc'
      exact hfits e' (List.mem_cons_of_mem _ he') c' hc'
    obtain ⟨htotal, hgiven, hrest⟩ := ih hcounted₁ hnodup.2 hthere₁ hfits₁
    refine ⟨?_, fun e' he' c' hc' => ?_, fun cid hcid => ?_⟩
    · rw [List.map_cons, List.sum_cons]
      show ((b.updateChar e.1 (Character.gainXp e.2)).giveShares l).totalXp = _
      omega
    · rcases List.mem_cons.mp he' with rfl | he'
      · cases hc.symm.trans hc'
        exact ⟨_, (hrest e'.1 hnodup.1).trans hself, hrewarded⟩
      · exact hgiven e' he' c' ((hother _ (hapart e' he')).trans hc')
    · rw [List.map_cons, List.mem_cons, not_or] at hcid
      exact (hrest cid hcid.2).trans (hother cid hcid.1)

/-! ## Training -/

theorem ranks_train {c : Character} {id : Text} {rank : Nat} (hrank : (c.skills.lookup id).getD 0 = rank) :
    Table.total (fun rank => rank) (c.skills.insert id (rank + 1)) = c.ranks + 1 := by
  cases hlook : c.skills.lookup id with
  | none =>
    rw [hlook] at hrank
    subst hrank
    exact Table.total_insert_new hlook 1
  | some rank' =>
    rw [hlook, Option.getD_some] at hrank
    subst hrank
    have hsum := Table.total_insert (f := fun rank => rank) hlook (rank' + 1)
    unfold Character.ranks
    omega

/-- A rank for a point. -/
theorem budgeted_train {c : Character} {id : Text} {rank : Nat} (hrank : (c.skills.lookup id).getD 0 = rank)
    (hpoints : c.skillPoints ≠ 0) (h : Budgeted c) : Budgeted { c with
      skillPoints := c.skillPoints - 1
      skills := c.skills.insert id (rank + 1) } := by
  obtain ⟨hlevel, hsum⟩ := h
  have hranks := ranks_train hrank
  refine ⟨hlevel, ?_⟩
  unfold Character.ranks at *
  dsimp only
  omega

end Battle

/-! ## Runs -/

/-- A budget for those below the level limit: levels and points have not been cut off. -/
def BudgetedSoFar (c : Character) : Prop := c.level < levelLimit → Budgeted c

def SnapshotBudgeted (s : PlayerSnapshot) : Prop :=
  s.level < levelLimit → 1 ≤ s.level ∧ s.skillPoints + Table.total (fun rank => rank) s.skills = s.level - 1

theorem BudgetedSoFar.congr {c c' : Character} (h : BudgetedSoFar c) (hlevel : c'.level = c.level)
    (hpoints : c'.skillPoints = c.skillPoints) (hskills : c'.skills = c.skills) : BudgetedSoFar c' := by
  unfold BudgetedSoFar Budgeted Character.ranks at *
  rw [hlevel, hpoints, hskills]
  exact h

theorem BudgetedSoFar.levelUp {c : Character} (h : BudgetedSoFar c) : BudgetedSoFar c.levelUp := by
  intro hlow
  obtain ⟨-, hlevel, hpoints, hskills⟩ := levelUp_progress c
  rw [hlevel] at hlow
  have hone : Word.satAdd32 c.level 1 = c.level + 1 := by
    unfold Word.satAdd32 Word.maxU32 levelLimit at *
    omega
  rw [hone] at hlow hlevel
  obtain ⟨hle, hsum⟩ := h (Nat.lt_of_succ_lt hlow)
  have hpoint : Word.satAdd32 c.skillPoints 1 = c.skillPoints + 1 := by
    unfold levelLimit at hlow
    exact Word.satAdd32_of_lt (by omega)
  rw [hpoint] at hpoints
  unfold Budgeted Character.ranks at *
  rw [hlevel, hpoints, hskills]
  omega

theorem budgeted_allows (nowMs : Nat) (s : Scope) :
    Allows nowMs s fun _ c c' => BudgetedSoFar c → BudgetedSoFar c' where
  toComposes := composes_carry fun _ c => BudgetedSoFar c
  engage _ _ _ _ h := h.congr rfl rfl rfl
  standDown _ _ h := h.congr rfl rfl rfl
  cool _ _ _ h := h.congr rfl rfl rfl
  gain _ _ xp h := gainXp_induct (P := BudgetedSoFar) (fun _ _ h => h.congr rfl rfl rfl) (fun _ h => h.levelUp) xp h
  goods _ _ _ _ h := h.congr rfl rfl rfl
  pay _ _ _ h := h.congr rfl rfl rfl
  heal _ _ _ h := h.congr rfl rfl rfl
  race _ _ _ h := h.congr rfl rfl rfl
  cls _ _ h := h.congr rfl rfl rfl
  train _ _ _ _ hpoints hrank h hlow := Battle.budgeted_train hrank hpoints (h hlow)
  flags _ _ _ _ h := h.congr rfl rfl rfl
  wound _ _ _ _ _ _ h := h.congr rfl rfl rfl
  die _ _ _ _ h := h.congr rfl rfl rfl
  stun _ _ _ _ h := h.congr rfl rfl rfl

theorem budgeted_saved {c : Character} (h : BudgetedSoFar c) {s : PlayerSnapshot}
    (hs : PlayerSnapshot.fromCharacter c = some s) : SnapshotBudgeted s := by
  simp only [PlayerSnapshot.fromCharacter, Option.bind_eq_bind, Option.bind_eq_some_iff] at hs
  obtain ⟨race, -, cls, -, hs⟩ := hs
  cases hs
  exact h

theorem budgeted_restored (w : World Raw) (session : SessionId) {s : PlayerSnapshot}
    (principal : Text) (authCaps : List Capability) (h : SnapshotBudgeted s) :
    BudgetedSoFar (w.restoredCharacter session s principal authCaps) := by
  intro hlow
  have hlow : max s.level 1 < levelLimit := hlow
  obtain ⟨hone, hsum⟩ := h (Nat.lt_of_le_of_lt (Nat.le_max_left _ 1) hlow)
  show 1 ≤ max s.level 1 ∧ s.skillPoints + Table.total (fun rank => rank) s.skills = max s.level 1 - 1
  omega

theorem budgeted_endures (Raw : Type) :
    Battle.Endures Raw (fun _ => True) (fun _ c => BudgetedSoFar c) SnapshotBudgeted where
  room _ _ _ h := h.congr rfl rfl rfl
  saved h hs := budgeted_saved h hs
  spawned _ _ _ _ _ _ := fun _ => ⟨Nat.le_refl 1, rfl⟩
  restored w session s principal authCaps _ h := budgeted_restored w session principal authCaps h
  mob _ _ _ _ := fun _ => ⟨Nat.le_refl 1, rfl⟩
  fights := budgeted_allows
  other _ _ _ h := h.congr rfl rfl rfl
  regen nowMs _ c _ h := by
    have hsame : (c.regen nowMs).level = c.level ∧ (c.regen nowMs).skillPoints = c.skillPoints
        ∧ (c.regen nowMs).skills = c.skills := by
      unfold Character.regen
      dsimp only
      repeat' split
      all_goals exact ⟨rfl, rfl, rfl⟩
    exact h.congr hsame.1 hsame.2.1 hsame.2.2
  named _ _ _ _ := fun _ => ⟨Nat.le_refl 1, rfl⟩

/-- Alice and Bob are in a party. -/
def Duel.allies : List DuelMove :=
  [.realm (.shard (attachAs 1 "alice")), .realm (.shard (attachAs 2 "bob")),
    .realm (.shard (say 1 "party create")), .realm (.shard (say 1 "party invite bob")),
    .realm (.shard (say 2 "party accept"))]

namespace Battle

theorem budgeted_run {readOk : Bool} {rooms : RoomMap} {file : Option Raw} {ms : List (BattleMove Auth)}
    {b : Battle Raw} (hfile : ∀ s, InFile J file s → SnapshotBudgeted s)
    (hex : exec (step J A) (.new J readOk rooms file) ms = some b) :
    Kept J (fun _ c => BudgetedSoFar c) SnapshotBudgeted b.world :=
  kept_run (budgeted_endures Raw) (kept_new readOk rooms hfile) (along_of_forall (fun _ _ => trivial) _ _) hex

theorem Written.budgeted {file : Option Raw} (h : Written J A file) :
    ∀ s, InFile J file s → SnapshotBudgeted s := by
  induction h with
  | none =>
    rintro s ⟨v, hv, -⟩
    cases hv
  | run readOk rooms ms _ hex _ ih => exact (budgeted_run ih hex).file

/-! ## Conservation -/

/-- Budgets of characters are kept, and nobody is new. -/
def KeepsBudgets (b b' : Battle Raw) : Prop :=
  ∀ cid c', b'.char cid = some c' → ∃ c, b.char cid = some c ∧ (Budgeted c → Budgeted c')

/-- What becomes of an award to `cid`. -/
structure Awarded (O : SetOrder) (b : Battle Raw) (cid : CharacterId) (att : Character) (xp : Nat) :
    Prop where
  sum : ((b.shares O cid xp).map Prod.snd).sum = xp
  apart : ((b.shares O cid xp).map Prod.fst).Nodup
  eligible : ∀ e ∈ b.shares O cid xp, e.1 = cid ∨ b.SharesWith cid att e.1
  total : (b.awardXp O cid xp).totalXp = b.totalXp + xp
  rewarded : ∀ e ∈ b.shares O cid xp, ∀ c, b.char e.1 = some c →
    ∃ c', (b.awardXp O cid xp).char e.1 = some c' ∧ Rewarded e.2 c c'
  others : ∀ mid, mid ∉ (b.shares O cid xp).map Prod.fst → (b.awardXp O cid xp).char mid = b.char mid
  budgets : b.KeepsBudgets (b.awardXp O cid xp)

variable {b b' : Battle Raw} {O : SetOrder} {cid : CharacterId} {att : Character} {xp : Nat}

theorem awardXp_spec (hcounted : All (fun _ c => Counted c) b.world.chars) (hatt : b.char cid = some att)
    (hfits : b.SharesFit (b.shares O cid xp)) : b.Awarded O cid att xp := by
  obtain ⟨hsum, hnodup, heligible⟩ := @shares_spec Raw b O cid att xp hatt
  have hthere : ∀ e ∈ b.shares O cid xp, ∃ c, b.char e.1 = some c := by
    intro e he
    rcases heligible e he with hself | ⟨-, -, m, -, -, -, hm, -⟩
    · exact ⟨att, hself ▸ hatt⟩
    · exact ⟨m, hm⟩
  obtain ⟨htotal, hrewarded, hothers⟩ := giveShares_spec hcounted hnodup hthere hfits
  rw [← awardXp_eq] at htotal hrewarded hothers
  rw [hsum] at htotal
  refine ⟨hsum, hnodup, heligible, htotal, hrewarded, hothers, fun mid c' hc' => ?_⟩
  by_cases hmid : mid ∈ (b.shares O cid xp).map Prod.fst
  · obtain ⟨e, he, rfl⟩ := List.mem_map.mp hmid
    obtain ⟨c, hc⟩ := hthere e he
    obtain ⟨c'', hc'', hreward⟩ := hrewarded e he c hc
    cases hc''.symm.trans hc'
    exact ⟨c, hc, hreward.budgeted⟩
  · exact ⟨c', (hothers mid hmid).symm.trans hc', id⟩

theorem train_keepsBudgets {session : SessionId} {token : Text}
    (hs : b.run O session (.train token) = some b') : b.KeepsBudgets b' := by
  simp only [run, doTrain, Option.bind_eq_bind, Option.bind_eq_some_iff, Option.ite_none_left_eq_some] at hs
  obtain ⟨⟨cid, p⟩, hactive, -, cls, -, d, -, hcond, hs⟩ := hs
  cases hs
  rw [not_or] at hcond
  intro mid c' hc'
  rw [char_updateChar] at hc'
  split at hc'
  · next heq =>
    subst heq
    rw [show b.char mid = some p from lookup_of_activeChar hactive, Option.map_some] at hc'
    cases hc'
    exact ⟨p, lookup_of_activeChar hactive, budgeted_train rfl hcond.2⟩
  · exact ⟨c', hc', id⟩

/-- **Experience is conserved.** An award raises the sum of all totals by itself; it is shared by the
killer, or by living players of its party in the room; whoever has a share gets as many levels as it
pays for, and a skill point for each. Awards and training keep the budget of skill points, and in
every reachable state everybody has it. -/
theorem experience_is_conserved :
    (∀ (O : SetOrder) (b : Battle Raw) cid att xp, All (fun _ c => Counted c) b.world.chars →
      b.char cid = some att → b.SharesFit (b.shares O cid xp) → b.Awarded O cid att xp)
    ∧ (∀ (O : SetOrder) (b b' : Battle Raw) session token,
      b.run O session (.train token) = some b' → b.KeepsBudgets b')
    ∧ ∀ (file : Option Raw) (_ : Written J A file) (readOk : Bool) (rooms : RoomMap)
      (ms : List (BattleMove Auth)) (b : Battle Raw), exec (step J A) (.new J readOk rooms file) ms = some b →
      Throughout (step J A) InBounds (.new J readOk rooms file) ms →
      All (fun _ c => Budgeted c ∧ Counted c) b.world.chars := by
  refine ⟨fun O b cid att xp => awardXp_spec, fun O b b' session token => train_keepsBudgets, ?_⟩
  intro file hfile readOk rooms ms b hex hbounds cid c hc
  obtain ⟨-, hlevels⟩ := hbounds.last hex
  have hbudgeted := (budgeted_run hfile.budgeted hex).chars cid c hc (hlevels c (mem_values.mpr ⟨cid, hc⟩))
  exact ⟨hbudgeted, hbudgeted.counted⟩

/-- Alice and Bob, in a party, share eleven points of experience. -/
theorem experience_is_conserved_party : ∃ (b : Duel) (c : Character),
    exec Duel.step Duel.start Duel.allies = some b
      ∧ b.shares someOrder 1 11 = [(1, 6), (2, 5)] ∧ b.Awarded someOrder 1 c 11 := by
  have hrun : ((exec Duel.step Duel.start Duel.allies).map fun b : Duel =>
      (b.shares someOrder 1 11, (b.char 1).map Character.total, (b.char 2).map Character.total,
        decide b.InBounds)) = some ([(1, 6), (2, 5)], some 0, some 0, true) := by decide +kernel
  have halong : Along Duel.step (fun b _ => Battle.InBounds b) Duel.start Duel.allies := by decide +kernel
  obtain ⟨b, hex, heq⟩ := Option.map_eq_some_iff.mp hrun
  simp only [Prod.mk.injEq, Option.map_eq_some_iff] at heq
  obtain ⟨hshares, ⟨c, hc, htotal⟩, ⟨c₂, hc₂, htotal₂⟩, hlast⟩ := heq
  have hbounds : Throughout Duel.step Battle.InBounds Duel.start Duel.allies := by
    refine .of_along halong fun t ht => ?_
    cases hex.symm.trans ht
    exact of_decide_eq_true hlast
  have hconserved := experience_is_conserved (J := Codec.direct (List PlayerSnapshot))
    (A := Codec.direct AuthBlob)
  refine ⟨b, c, hex, hshares, hconserved.1 someOrder b 1 c 11 ?_ hc ?_⟩
  · exact (hconserved.2.2 none .none true arena _ b hex hbounds).mono fun _ _ h => h.2
  · rw [hshares]
    intro e he d hd
    simp only [List.mem_cons, List.not_mem_nil, or_false] at he
    rcases he with rfl | rfl
    · cases hc.symm.trans hd
      omega
    · cases hc₂.symm.trans hd
      omega

end Battle

end Slopmud.Shard
