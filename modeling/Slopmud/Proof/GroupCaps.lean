import Slopmud.Proof.RaftLog

/-!
# Whose capabilities a group gives

`has_group_cap` asks the table of a group for the character's name. The table is filled under
principals by the commands and by the genesis entries, and under the name of its creator by
`group create`. What was done under a key, by whom the group was founded and what was granted
since, is `historyRole`, and it is what the store has. So the check is right for a character
exactly when the histories of its name and of its principal agree about the capability, and
that of a founder's principal has what an owner has.
-/

namespace Slopmud.Shard

open Machine

/-! ## Keys -/

theorem mem_trim {c : Char} {s : Text} (hc : Text.isWhitespace c = false) (h : c ∈ s) :
    c ∈ Text.trim s := by
  have hdrop : ∀ t : Text, c ∈ t → c ∈ t.dropWhile Text.isWhitespace := by
    intro t ht
    induction t with
    | nil => cases ht
    | cons d t ih =>
      by_cases hd : Text.isWhitespace d = true
      · rw [List.dropWhile_cons_of_pos hd]
        rcases List.mem_cons.mp ht with rfl | ht
        · rw [hc] at hd
          cases hd
        · exact ih ht
      · rw [List.dropWhile_cons_of_neg hd]
        exact ht
  have hstart : c ∈ Text.trimStart s := hdrop s h
  rw [Text.trim, Text.trimEnd, List.mem_reverse]
  exact hdrop _ (List.mem_reverse.mpr hstart)

theorem colon_mem_lower {s : Text} (h : ':' ∈ s) : ':' ∈ Text.toAsciiLowercase s :=
  List.mem_map.mpr ⟨':', h, by decide⟩

theorem colon_mem_foldKey {s : Text} (h : ':' ∈ s) : ':' ∈ foldKey s :=
  colon_mem_lower (mem_trim (by decide) h)

/-- A member that is named by a command has a colon in it. -/
theorem colon_mem_normalize (tok : Text) : ':' ∈ normalizePrincipalToken tok := by
  have hacct : ':' ∈ "acct:".toList := by decide
  unfold normalizePrincipalToken
  dsimp only
  split
  · exact hacct
  · split
    · next h => exact colon_mem_lower h
    · exact List.mem_append_left _ hacct

/-! ## The store after one entry -/

namespace GroupStore

theorem lookup_modify (s : GroupStore) (id g : Nat) (f : Group → Group) :
    (s.modify id f).groups.lookup g = if g = id then (s.groups.lookup id).map f
      else s.groups.lookup g := by
  unfold modify
  cases h : s.groups.lookup id with
  | none =>
    by_cases hg : g = id
    · subst hg
      simp [h]
    · simp [hg]
  | some grp => simp [Table.lookup_insert_eq]

/-- A key set or removed in a table of members. -/
theorem lookup_setKey {V : Type} (m : Table Text V) (key k : Text) (v : Option V) :
    (setKey m key v).lookup k = if k = key then v else m.lookup k := by
  cases v with
  | none => exact Table.lookup_erase_eq m key k
  | some v => exact Table.lookup_insert_eq m key k v

end GroupStore

/-- The role under a key of a group after one more entry. -/
def roleAfter (g : Nat) (key : Text) (r : Option GroupRole) : GroupLogEntry → Option GroupRole
  | .groupCreate id _ _ => if id = g then none else r
  | .groupMemberSet id member role => if id = g ∧ foldKey member = key ∧ key ≠ [] then role else r
  | _ => r

/-- The role that the log last set under a key of a group, since the group was created. -/
def lastRole (g : Nat) (key : Text) (es : List GroupLogEntry) : Option GroupRole :=
  es.foldl (roleAfter g key) none

theorem lastRole_concat (g : Nat) (key : Text) (es : List GroupLogEntry) (e : GroupLogEntry) :
    lastRole g key (es ++ [e]) = roleAfter g key (lastRole g key es) e := by
  simp [lastRole]

/-- The store that a list of entries gives. -/
def GroupStore.ofEntries (es : List GroupLogEntry) : GroupStore := es.foldl GroupStore.apply .empty

theorem GroupStore.ofEntries_concat (es : List GroupLogEntry) (e : GroupLogEntry) :
    ofEntries (es ++ [e]) = (ofEntries es).apply e := by
  simp [ofEntries]

/-- A change of the group that leaves its members alone. -/
theorem GroupStore.members_modify {s : GroupStore} {id g : Nat} {f : Group → Group} {key : Text}
    {r : Option GroupRole} (hf : ∀ grp, (f grp).members = grp.members)
    (hr : ∀ grp, s.groups.lookup g = some grp → grp.members.lookup key = r) {grp : Group}
    (h : (s.modify id f).groups.lookup g = some grp) : grp.members.lookup key = r := by
  rw [lookup_modify] at h
  by_cases hg : g = id
  · subst hg
    rw [if_pos rfl] at h
    obtain ⟨old, hold, rfl⟩ := Option.map_eq_some_iff.mp h
    rw [hf]
    exact hr old hold
  · rw [if_neg hg] at h
    exact hr grp h

/-- What one entry makes of the role under a key of a group that exists. -/
theorem GroupStore.members_apply {s : GroupStore} {g : Nat} {key : Text} {r : Option GroupRole}
    (hr : ∀ grp, s.groups.lookup g = some grp → grp.members.lookup key = r) {e : GroupLogEntry}
    {grp : Group} (h : (s.apply e).groups.lookup g = some grp) :
    grp.members.lookup key = roleAfter g key r e := by
  cases e with
  | groupCreate id kind name =>
    rw [apply, Table.lookup_insert_eq] at h
    rw [roleAfter]
    by_cases hg : g = id
    · rw [if_pos hg] at h
      cases h
      rw [if_pos hg.symm]
      rfl
    · rw [if_neg hg] at h
      rw [if_neg (Ne.symm hg)]
      exact hr grp h
  | groupMemberSet id member role =>
    rw [apply, lookup_modify] at h
    rw [roleAfter]
    by_cases hg : g = id
    · subst hg
      rw [if_pos rfl] at h
      obtain ⟨old, hold, rfl⟩ := Option.map_eq_some_iff.mp h
      dsimp only
      by_cases hempty : foldKey member = []
      -- `apply` passes over a member whose key is empty
      · have hno : ¬ (g = g ∧ foldKey member = key ∧ key ≠ []) := by
          rintro ⟨-, rfl, hne⟩
          exact hne hempty
        rw [if_neg hno, hempty]
        exact hr old hold
      · have hne : (foldKey member).isEmpty = false := by simpa using hempty
        rw [hne, if_neg Bool.false_ne_true, lookup_setKey]
        by_cases hk : key = foldKey member
        · rw [if_pos hk, if_pos ⟨rfl, hk.symm, by rw [hk]; exact hempty⟩]
        · rw [if_neg hk, if_neg (fun h => hk h.2.1.symm)]
          exact hr old hold
    · rw [if_neg hg] at h
      rw [if_neg (fun h => hg h.1.symm)]
      exact hr grp h
  | groupPolicySet id k v =>
    refine members_modify ?_ hr h
    intro grp
    dsimp only
    split
    · rfl
    · rfl
  | groupRoleCapsSet id role caps =>
    refine members_modify ?_ hr h
    intro grp
    rfl

/-- Of a group that exists, the members are what the log last set. -/
theorem members_eq_lastRole (es : List GroupLogEntry) {g : Nat} {grp : Group}
    (h : (GroupStore.ofEntries es).groups.lookup g = some grp) (key : Text) :
    grp.members.lookup key = lastRole g key es := by
  induction es using List.reverseRec generalizing grp with
  | nil => cases h
  | append_singleton es e ih =>
    rw [GroupStore.ofEntries_concat] at h
    rw [lastRole_concat]
    exact GroupStore.members_apply (fun grp hgrp => ih hgrp) h

/-! ## Groups come to be once -/

def createIds (es : List GroupLogEntry) : List Nat :=
  es.filterMap fun
    | .groupCreate id _ _ => some id
    | _ => none

theorem lookup_apply_none {s : GroupStore} {g : Nat} (h : s.groups.lookup g = none)
    {e : GroupLogEntry} (he : g ∉ createIds [e]) : (s.apply e).groups.lookup g = none := by
  have hmodify : ∀ id f, (s.modify id f).groups.lookup g = none := by
    intro id f
    rw [GroupStore.lookup_modify]
    split
    · next hg => rw [← hg, h]; rfl
    · exact h
  cases e with
  | groupCreate id kind name =>
    have hg : g ≠ id := by
      rintro rfl
      exact he (by simp [createIds])
    rw [GroupStore.apply, Table.lookup_insert_eq, if_neg hg]
    exact h
  | groupMemberSet id member role => exact hmodify id _
  | groupPolicySet id k v => exact hmodify id _
  | groupRoleCapsSet id role caps => exact hmodify id _

theorem lookup_foldl_none {s : GroupStore} {g : Nat} (h : s.groups.lookup g = none)
    {es : List GroupLogEntry} (hes : g ∉ createIds es) :
    (es.foldl GroupStore.apply s).groups.lookup g = none := by
  induction es generalizing s with
  | nil => exact h
  | cons e es ih =>
    have hsplit : createIds (e :: es) = createIds [e] ++ createIds es :=
      List.filterMap_append (l := [e])
    rw [hsplit, List.mem_append, not_or] at hes
    exact ih (lookup_apply_none h hes.1) hes.2

theorem lookup_apply_isSome {s : GroupStore} {g : Nat} (h : (s.groups.lookup g).isSome)
    (e : GroupLogEntry) : ((s.apply e).groups.lookup g).isSome := by
  have hmodify : ∀ id f, ((s.modify id f).groups.lookup g).isSome := by
    intro id f
    rw [GroupStore.lookup_modify]
    split
    · next hg => rw [← hg, Option.isSome_map]; exact h
    · exact h
  cases e with
  | groupCreate id kind name =>
    rw [GroupStore.apply, Table.lookup_insert_eq]
    split
    · rfl
    · exact h
  | groupMemberSet id member role => exact hmodify id _
  | groupPolicySet id k v => exact hmodify id _
  | groupRoleCapsSet id role caps => exact hmodify id _

/-- The index of the names points to groups that exist. -/
def Pointed (s : GroupStore) : Prop :=
  ∀ key id, s.groupIdsByName.lookup key = some id → (s.groups.lookup id).isSome

theorem pointed_empty : Pointed .empty := by
  intro key id h
  cases h

theorem Pointed.apply {s : GroupStore} (h : Pointed s) (e : GroupLogEntry) : Pointed (s.apply e) := by
  intro key id hkey
  have hmodify : ∀ i f, (s.modify i f).groupIdsByName = s.groupIdsByName := by
    intro i f
    unfold GroupStore.modify
    split <;> rfl
  cases e with
  | groupCreate i kind name =>
    rw [GroupStore.apply, Table.lookup_insert_eq] at hkey
    split at hkey
    · cases hkey
      rw [GroupStore.apply, Table.lookup_insert_eq, if_pos rfl]
      rfl
    · exact lookup_apply_isSome (h key id hkey) _
  | groupMemberSet i member role =>
    rw [GroupStore.apply, hmodify] at hkey
    exact lookup_apply_isSome (h key id hkey) _
  | groupPolicySet i k v =>
    rw [GroupStore.apply, hmodify] at hkey
    exact lookup_apply_isSome (h key id hkey) _
  | groupRoleCapsSet i role caps =>
    rw [GroupStore.apply, hmodify] at hkey
    exact lookup_apply_isSome (h key id hkey) _

theorem pointed_ofEntries (es : List GroupLogEntry) : Pointed (.ofEntries es) := by
  induction es using List.reverseRec with
  | nil => exact pointed_empty
  | append_singleton es e ih =>
    rw [GroupStore.ofEntries_concat]
    exact ih.apply e

/-- A token is resolved to a group that exists. -/
theorem Pointed.resolve {s : GroupStore} (h : Pointed s) {tok : Text} {gid : Nat}
    (hgid : s.resolveGroupId tok = some gid) : (s.groups.lookup gid).isSome := by
  unfold GroupStore.resolveGroupId at hgid
  dsimp only at hgid
  split at hgid
  · cases hgid
  · split at hgid
    · next id hfilter =>
      cases hgid
      exact (Option.filter_eq_some_iff.mp hfilter).2
    · exact h _ gid hgid

theorem lookup_foldl_isSome {s : GroupStore} {g : Nat} (h : (s.groups.lookup g).isSome)
    (es : List GroupLogEntry) : ((es.foldl GroupStore.apply s).groups.lookup g).isSome := by
  induction es generalizing s with
  | nil => exact h
  | cons e es ih => exact ih (lookup_apply_isSome h e)

/-- A group that is created is there. -/
theorem lookup_created {s : GroupStore} {g : Nat} {es : List GroupLogEntry} (h : g ∈ createIds es) :
    ((es.foldl GroupStore.apply s).groups.lookup g).isSome := by
  induction es generalizing s with
  | nil => cases h
  | cons e es ih =>
    have hsplit : createIds (e :: es) = createIds [e] ++ createIds es :=
      List.filterMap_append (l := [e])
    rw [hsplit, List.mem_append] at h
    rcases h with h | h
    · refine lookup_foldl_isSome ?_ es
      cases e with
      | groupCreate id kind name =>
        rw [List.mem_singleton.mp h, GroupStore.apply, Table.lookup_insert_eq, if_pos rfl]
        rfl
      | groupMemberSet id member role => cases h
      | groupPolicySet id key value => cases h
      | groupRoleCapsSet id role caps => cases h
    · exact ih h

/-- The id of a new group is no group's. -/
theorem lookup_freshGroupId (s : GroupStore) : s.groups.lookup s.freshGroupId = none := by
  rw [AList.lookup_eq_none]
  intro hmem
  have hkey : s.freshGroupId ∈ s.groups.keys := hmem
  cases hmax : s.groups.keys.max? with
  | none =>
    rw [List.max?_eq_none_iff.mp hmax] at hkey
    cases hkey
  | some m =>
    -- it is above the largest id in use
    have hle : s.freshGroupId ≤ m := (List.max?_eq_some_iff.mp hmax).2 _ hkey
    have hfresh : s.freshGroupId = max (m + 1) 2000 := by rw [GroupStore.freshGroupId, hmax]; rfl
    omega

/-! ## What a handler appends -/

/-- Entries that make new groups, and members only under keys with a colon, of groups that are
there by then. -/
structure Granting (s : GroupStore) (es : List GroupLogEntry) : Prop where
  once : (createIds es).Nodup
  missing : ∀ id ∈ createIds es, s.groups.lookup id = none
  colon : ∀ e ∈ GroupWorld.memberEntries es, ':' ∈ foldKey e.2.1
  exist : ∀ pre id member role suf, es = pre ++ .groupMemberSet id member role :: suf →
    (s.groups.lookup id).isSome ∨ id ∈ createIds pre

theorem granting_single {s : GroupStore} {g : Nat} (hg : (s.groups.lookup g).isSome) (tok : Text)
    (role : Option GroupRole) : Granting s [.groupMemberSet g (normalizePrincipalToken tok) role] where
  once := by simp [createIds]
  missing := by simp [createIds]
  colon := by
    intro e he
    have heq : e = (g, normalizePrincipalToken tok, role) := by
      simpa [GroupWorld.memberEntries] using he
    rw [heq]
    exact colon_mem_foldKey (colon_mem_normalize tok)
  exist := by
    intro pre id member role' suf heq
    left
    have hmem : GroupLogEntry.groupMemberSet id member role'
        ∈ [GroupLogEntry.groupMemberSet g (normalizePrincipalToken tok) role] := by
      rw [heq]
      simp
    obtain ⟨rfl, -, -⟩ : id = g ∧ member = normalizePrincipalToken tok ∧ role' = role := by
      simpa using hmem
    exact hg

theorem granting_nil (s : GroupStore) : Granting s [] where
  once := List.nodup_nil
  missing := by simp [createIds]
  colon := by simp [GroupWorld.memberEntries]
  exist := by
    intro pre id member role suf heq
    simp at heq

namespace GroupStore

variable (s : GroupStore) (p : Character)

theorem withGroup_entries (tok : Text) (cap : Capability) (k : Nat → GroupOutcome) :
    (s.withGroup p tok cap k).entries = []
      ∨ ∃ gid, (s.withGroup p tok cap k).entries = (k gid).entries := by
  unfold withGroup
  split
  · exact .inl rfl
  · next gid _ =>
    split
    · exact .inl rfl
    · exact .inr ⟨gid, rfl⟩

/-- A command on a group appends nothing, or what it does in one of the groups. -/
theorem granting_withGroup (hs : Pointed s) {tok : Text} {cap : Capability} {k : Nat → GroupOutcome}
    (hk : ∀ gid, (s.groups.lookup gid).isSome → Granting s (k gid).entries) :
    Granting s (s.withGroup p tok cap k).entries := by
  unfold withGroup
  split
  · exact granting_nil s
  · next gid hgid =>
    split
    · exact granting_nil s
    · exact hk gid (hs.resolve hgid)

theorem granting_groupAdd (hs : Pointed s) (rest : Text) : Granting s (s.groupAdd p rest).entries := by
  unfold groupAdd
  split
  · exact s.granting_withGroup p hs fun gid hgid => granting_single hgid _ _
  · exact granting_nil s

theorem granting_groupRemove (hs : Pointed s) (rest : Text) :
    Granting s (s.groupRemove p rest).entries := by
  unfold groupRemove
  split
  · exact s.granting_withGroup p hs fun gid hgid => granting_single hgid _ _
  · exact granting_nil s

theorem granting_groupRole (hs : Pointed s) (rest : Text) : Granting s (s.groupRole p rest).entries := by
  unfold groupRole
  split
  · refine s.granting_withGroup p hs fun gid hgid => ?_
    split
    · exact granting_nil s
    · exact granting_single hgid _ _
  · exact granting_nil s

/-- An entry about policies or capabilities. -/
theorem granting_other {e : GroupLogEntry} (hcreate : createIds [e] = [])
    (hmember : GroupWorld.memberEntries [e] = []) : Granting s [e] where
  once := by rw [hcreate]; exact List.nodup_nil
  missing := by simp [hcreate]
  colon := by simp [hmember]
  exist := by
    intro pre id member role suf heq
    have hentries : GroupWorld.memberEntries [e] = GroupWorld.memberEntries pre
        ++ (id, member, role) :: GroupWorld.memberEntries suf := by
      rw [heq]
      simp [GroupWorld.memberEntries]
    rw [hmember] at hentries
    simp at hentries

theorem granting_groupPolicySet (hs : Pointed s) (rest : Text) :
    Granting s (s.groupPolicySet p rest).entries := by
  unfold groupPolicySet
  split
  · exact s.granting_withGroup p hs fun gid _ => s.granting_other rfl rfl
  · exact granting_nil s

theorem granting_groupPolicyDel (hs : Pointed s) (rest : Text) :
    Granting s (s.groupPolicyDel p rest).entries := by
  unfold groupPolicyDel
  split
  · exact s.granting_withGroup p hs fun gid _ => s.granting_other rfl rfl
  · exact granting_nil s

theorem granting_groupRolecapsSet (hs : Pointed s) (rest : Text) :
    Granting s (s.groupRolecapsSet p rest).entries := by
  unfold groupRolecapsSet
  split
  · refine s.granting_withGroup p hs fun gid _ => ?_
    split
    · exact granting_nil s
    · split
      · exact granting_nil s
      · exact granting_nil s
      · exact s.granting_other rfl rfl
  · exact granting_nil s

/-- What `group create` appends. -/
theorem groupCreate_entries (rest : Text) :
    (s.groupCreate p rest).entries = [] ∨ ∃ kind name, (s.groupCreate p rest).entries
      = .groupCreate s.freshGroupId kind name :: creatorEntry p s.freshGroupId kind := by
  unfold groupCreate
  split
  · exact .inl rfl
  · split
    · split
      · exact .inl rfl
      · next kind _ =>
        dsimp only
        split
        · exact .inl rfl
        · split
          · exact .inl rfl
          · exact .inr ⟨kind, _, rfl⟩
    · exact .inl rfl

/-- Every command but `group create`. -/
theorem granting_commands (hs : Pointed s) :
    ∀ e ∈ (s.commands p).tail, ∀ rest, Granting s (e.2 rest).entries := by
  intro e he rest
  simp only [commands, List.tail_cons, List.mem_cons, List.not_mem_nil, or_false] at he
  rcases he with rfl | rfl | rfl | rfl | rfl | rfl
  · exact s.granting_groupAdd p hs rest
  · exact s.granting_groupRemove p hs rest
  · exact s.granting_groupRole p hs rest
  · exact s.granting_groupPolicySet p hs rest
  · exact s.granting_groupPolicyDel p hs rest
  · exact s.granting_groupRolecapsSet p hs rest

/-- The line of a command decides what it may append. -/
theorem command_entries (hs : Pointed s) (line : Text) :
    (GroupWorld.isCreate line = true ∧ ∃ rest, s.command p line = s.groupCreate p rest)
    ∨ (GroupWorld.isCreate line = false ∧ Granting s (s.command p line).entries) := by
  have hhead : s.commands p = ("group create ", s.groupCreate p) :: (s.commands p).tail := rfl
  rw [command, hhead, List.findSome?_cons, GroupWorld.isCreate]
  cases h : Text.stripPrefix "group create ".toList line with
  | some rest => exact .inl ⟨rfl, rest, rfl⟩
  | none =>
    refine .inr ⟨rfl, ?_⟩
    rw [Option.map_none]
    cases hfind : (s.commands p).tail.findSome? fun e => (Text.stripPrefix e.1.toList line).map e.2 with
    | none => exact granting_nil s
    | some out =>
      obtain ⟨e, he, hout⟩ := List.exists_of_findSome?_eq_some hfind
      obtain ⟨rest, -, rfl⟩ := Option.map_eq_some_iff.mp hout
      exact s.granting_commands p hs e he rest

end GroupStore

/-! ## Genesis -/

theorem createIds_append (es es' : List GroupLogEntry) :
    createIds (es ++ es') = createIds es ++ createIds es' := List.filterMap_append

theorem memberEntries_append (es es' : List GroupLogEntry) :
    GroupWorld.memberEntries (es ++ es')
      = GroupWorld.memberEntries es ++ GroupWorld.memberEntries es' := List.filterMap_append

theorem bootstrapAdmin_member {who : Text} {e : GroupLogEntry} (h : bootstrapAdmin who = some e) :
    ∃ member, e = .groupMemberSet groupIdAdmins member (some .member) ∧ ':' ∈ member := by
  have hacct : ':' ∈ "acct:".toList := by decide
  unfold bootstrapAdmin at h
  dsimp only at h
  split at h
  · cases h
  · cases h
    refine ⟨_, rfl, ?_⟩
    split
    · next hcolon => exact hcolon
    · exact List.mem_append_left _ hacct

theorem bootstrapAdminSso_member {tok : Text} {e : GroupLogEntry} (h : bootstrapAdminSso tok = some e) :
    ∃ member, e = .groupMemberSet groupIdAdmins member (some .member) ∧ ':' ∈ member := by
  unfold bootstrapAdminSso at h
  dsimp only at h
  split at h
  · cases h
  · cases h
    exact ⟨_, rfl, colon_mem_normalize _⟩

/-- Member entries, all with a colon. -/
theorem members_of_colon {es : List GroupLogEntry}
    (h : ∀ e ∈ es, ∃ member, e = .groupMemberSet groupIdAdmins member (some .member) ∧ ':' ∈ member) :
    createIds es = [] ∧ ∀ e ∈ GroupWorld.memberEntries es, ':' ∈ foldKey e.2.1 := by
  induction es with
  | nil => exact ⟨rfl, by simp [GroupWorld.memberEntries]⟩
  | cons e es ih =>
    obtain ⟨member, rfl, hcolon⟩ := h e (by simp)
    obtain ⟨hids, hmembers⟩ := ih fun e he => h e (by simp [he])
    refine ⟨hids, ?_⟩
    intro m hm
    rcases List.mem_cons.mp hm with rfl | hm
    · exact colon_mem_foldKey hcolon
    · exact hmembers m hm

/-- The entries that make the groups of the shard. -/
def GroupStore.genesisGroups (s : GroupStore) : List GroupLogEntry :=
  (if (s.groups.lookup groupIdAdmins).isNone then
    [GroupLogEntry.groupCreate groupIdAdmins .admin "admins".toList] else [])
  ++ Class.all.zipIdx.filterMap fun (cls, i) =>
    if (s.groups.lookup (groupIdClassBase + i)).isNone then
      some (GroupLogEntry.groupCreate (groupIdClassBase + i) (.cls cls.asStr) ("class:".toList ++ cls.asStr))
    else none

/-- The groups are those of a fixed list of ids that are missing. -/
theorem createIds_genesisGroups (s : GroupStore) :
    createIds s.genesisGroups = (groupIdAdmins :: Class.all.zipIdx.map (groupIdClassBase + ·.2)).filter
      fun id => (s.groups.lookup id).isNone := by
  have hclasses : ∀ l : List (Class × Nat), createIds (l.filterMap fun (cls, i) =>
      if (s.groups.lookup (groupIdClassBase + i)).isNone then
        some (.groupCreate (groupIdClassBase + i) (.cls cls.asStr) ("class:".toList ++ cls.asStr))
      else none)
      = (l.map (groupIdClassBase + ·.2)).filter fun id => (s.groups.lookup id).isNone := by
    intro l
    induction l with
    | nil => rfl
    | cons e l ih =>
      obtain ⟨cls, i⟩ := e
      rw [List.map_cons, List.filter_cons, List.filterMap_cons, ← ih]
      dsimp only
      cases (s.groups.lookup (groupIdClassBase + i)).isNone <;> rfl
  rw [GroupStore.genesisGroups, createIds_append, hclasses, List.filter_cons]
  cases (s.groups.lookup groupIdAdmins).isNone <;> rfl

theorem memberEntries_genesisGroups (s : GroupStore) :
    GroupWorld.memberEntries s.genesisGroups = [] := by
  rw [GroupWorld.memberEntries, List.filterMap_eq_nil_iff]
  intro e he
  rcases List.mem_append.mp he with he | he
  · split at he
    · rw [List.mem_singleton.mp he]
    · cases he
  · obtain ⟨x, -, hx⟩ := List.mem_filterMap.mp he
    dsimp only at hx
    split at hx
    · cases hx
      rfl
    · cases hx

theorem bootstrap_members (admins sso : List Text) :
    ∀ e ∈ admins.filterMap bootstrapAdmin ++ sso.filterMap bootstrapAdminSso,
      ∃ member, e = .groupMemberSet groupIdAdmins member (some .member) ∧ ':' ∈ member := by
  intro e he
  rcases List.mem_append.mp he with he | he
  · obtain ⟨who, -, hwho⟩ := List.mem_filterMap.mp he
    exact bootstrapAdmin_member hwho
  · obtain ⟨tok, -, htok⟩ := List.mem_filterMap.mp he
    exact bootstrapAdminSso_member htok

/-- The groups come first and have no members. -/
theorem ensureGenesisGroups_eq (s : GroupStore) (admins sso : List Text) :
    s.ensureGenesisGroups admins sso = s.genesisGroups
      ++ (admins.filterMap bootstrapAdmin ++ sso.filterMap bootstrapAdminSso) :=
  List.append_assoc _ _ _

/-- The bootstrap entries make no groups. -/
theorem createIds_ensure (s : GroupStore) (admins sso : List Text) :
    createIds (s.ensureGenesisGroups admins sso) = createIds s.genesisGroups := by
  rw [ensureGenesisGroups_eq, createIds_append, (members_of_colon (bootstrap_members admins sso)).1,
    List.append_nil]

theorem granting_genesis (s : GroupStore) (admins sso : List Text) :
    Granting s (s.ensureGenesisGroups admins sso) := by
  refine ⟨?_, ?_, ?_, ?_⟩
  · rw [createIds_ensure, createIds_genesisGroups]
    exact List.Nodup.filter _ (by decide)
  · intro id hid
    rw [createIds_ensure, createIds_genesisGroups] at hid
    exact Option.isNone_iff_eq_none.mp (List.mem_filter.mp hid).2
  · intro e he
    rw [ensureGenesisGroups_eq, memberEntries_append, memberEntries_genesisGroups, List.nil_append] at he
    exact (members_of_colon (bootstrap_members admins sso)).2 e he
  · intro pre id member role suf heq
    -- the group of the admins is there, or it is the first that is made
    rw [ensureGenesisGroups_eq] at heq
    have hmem : GroupLogEntry.groupMemberSet id member role ∈ s.genesisGroups
        ++ (admins.filterMap bootstrapAdmin ++ sso.filterMap bootstrapAdminSso) := by
      rw [heq]
      simp
    have hnot : GroupLogEntry.groupMemberSet id member role ∉ s.genesisGroups := by
      intro h
      have hentries : (id, member, role) ∈ GroupWorld.memberEntries s.genesisGroups :=
        List.mem_filterMap.mpr ⟨_, h, rfl⟩
      rw [memberEntries_genesisGroups] at hentries
      cases hentries
    obtain ⟨m, hm, -⟩ := bootstrap_members admins sso _ ((List.mem_append.mp hmem).resolve_left hnot)
    cases hm
    by_cases hadmins : (s.groups.lookup groupIdAdmins).isSome
    · exact .inl hadmins
    · right
      have hnone : (s.groups.lookup groupIdAdmins).isNone = true := by simpa using hadmins
      rw [GroupStore.genesisGroups, if_pos hnone, List.append_assoc, List.singleton_append] at heq
      cases pre with
      | nil =>
        rw [List.nil_append, List.cons.injEq] at heq
        cases heq.1
      | cons first pre =>
        rw [List.cons_append, List.cons.injEq] at heq
        rw [← heq.1]
        exact List.mem_cons_self

/-! ## The keys of a log -/

/-- The role last given or taken under a key in a group, if there was any. -/
def lastGrant (granted : List (Nat × Text × Option GroupRole)) (g : Nat) (key : Text) :
    Option (Option GroupRole) :=
  (granted.filter fun e => e.1 = g ∧ foldKey e.2.1 = key).getLast?.map fun e => e.2.2

/-- A group was created by a character of that name, and its owner's entry appended. -/
def FoundedAs (creators : List (Nat × Text)) (g : Nat) (key : Text) : Prop :=
  key ≠ [] ∧ ∃ e ∈ creators, e.1 = g ∧ foldKey e.2 = key

instance (creators : List (Nat × Text)) (g : Nat) (key : Text) : Decidable (FoundedAs creators g key) :=
  inferInstanceAs (Decidable (_ ∧ _))

/-- What was done under a key in a group: the last grant rules, and before any grant the creator
is the owner. -/
def historyRole (creators : List (Nat × Text)) (granted : List (Nat × Text × Option GroupRole))
    (g : Nat) (key : Text) : Option GroupRole :=
  match lastGrant granted g key with
  | some role => role
  | none => if FoundedAs creators g key then some .owner else none

theorem lastGrant_concat (granted : List (Nat × Text × Option GroupRole)) (g : Nat) (key : Text)
    (id : Nat) (member : Text) (role : Option GroupRole) :
    lastGrant (granted ++ [(id, member, role)]) g key
      = if id = g ∧ foldKey member = key then some role else lastGrant granted g key := by
  unfold lastGrant
  rw [List.filter_append, List.filter_singleton]
  by_cases h : id = g ∧ foldKey member = key
  · simp [h]
  · simp [h]

theorem lastGrant_none {granted : List (Nat × Text × Option GroupRole)} {g : Nat} {key : Text}
    (h : ∀ m r, (g, m, r) ∈ granted → foldKey m ≠ key) : lastGrant granted g key = none := by
  unfold lastGrant
  rw [List.filter_eq_nil_iff.mpr ?_]
  · rfl
  · rintro ⟨id, m, r⟩ hmem
    simp only [decide_eq_true_eq, not_and]
    rintro rfl
    exact h m r hmem

theorem foundedAs_concat (creators : List (Nat × Text)) (g : Nat) (key : Text) (id : Nat) (name : Text) :
    FoundedAs (creators ++ [(id, name)]) g key
      ↔ FoundedAs creators g key ∨ id = g ∧ foldKey name = key ∧ key ≠ [] := by
  simp only [FoundedAs, List.mem_append, List.mem_singleton, or_and_right, exists_or, exists_eq_left,
    and_or_left]
  rw [and_comm (a := key ≠ []) (b := id = g ∧ foldKey name = key), and_assoc]

/-- What the log says under the keys of its groups is what was done there; grants are under keys
with a colon, and everything done was done in groups that exist. -/
structure Keyed (es : List GroupLogEntry) (creators : List (Nat × Text))
    (granted : List (Nat × Text × Option GroupRole)) : Prop where
  role : ∀ g key, lastRole g key es = historyRole creators granted g key
  colon : ∀ g m r, (g, m, r) ∈ granted → ':' ∈ foldKey m
  created : ∀ g n, (g, n) ∈ creators → ((GroupStore.ofEntries es).groups.lookup g).isSome
  given : ∀ g m r, (g, m, r) ∈ granted → ((GroupStore.ofEntries es).groups.lookup g).isSome

namespace Keyed

variable {es : List GroupLogEntry} {creators : List (Nat × Text)}
  {granted : List (Nat × Text × Option GroupRole)}

theorem nil : Keyed [] [] [] where
  role g key := by simp [lastRole, historyRole, lastGrant, FoundedAs]
  colon g m r h := by cases h
  created g n h := by cases h
  given g m r h := by cases h

/-- An entry after which no role is another. -/
theorem other (h : Keyed es creators granted) {e : GroupLogEntry}
    (he : ∀ g key, roleAfter g key (lastRole g key es) e = lastRole g key es) :
    Keyed (es ++ [e]) creators granted where
  role := by
    intro g key
    rw [lastRole_concat, he]
    exact h.role g key
  colon := h.colon
  created := by
    intro g n hmem
    rw [GroupStore.ofEntries_concat]
    exact lookup_apply_isSome (h.created g n hmem) e
  given := by
    intro g m r hmem
    rw [GroupStore.ofEntries_concat]
    exact lookup_apply_isSome (h.given g m r hmem) e

/-- Nothing was done in a group that is new. -/
theorem historyRole_new (h : Keyed es creators granted) {id : Nat}
    (hnew : (GroupStore.ofEntries es).groups.lookup id = none) (key : Text) :
    lastGrant granted id key = none ∧ ¬ FoundedAs creators id key := by
  refine ⟨lastGrant_none ?_, ?_⟩
  · intro m r hmem
    have hsome := h.given id m r hmem
    rw [hnew] at hsome
    cases hsome
  · rintro ⟨-, ⟨g, n⟩, hmem, rfl, -⟩
    have hsome := h.created g n hmem
    rw [hnew] at hsome
    cases hsome

/-- A group that is new has no roles to lose. -/
theorem create (h : Keyed es creators granted) {id : Nat} {kind : GroupKind} {name : Text}
    (hnew : (GroupStore.ofEntries es).groups.lookup id = none) :
    Keyed (es ++ [GroupLogEntry.groupCreate id kind name]) creators granted where
  role := by
    intro g key
    rw [lastRole_concat, roleAfter]
    split
    · next hg =>
      subst hg
      obtain ⟨hgrant, hfounded⟩ := h.historyRole_new hnew key
      rw [historyRole, hgrant]
      exact (if_neg hfounded).symm
    · exact h.role g key
  colon := h.colon
  created := by
    intro g n hmem
    rw [GroupStore.ofEntries_concat]
    exact lookup_apply_isSome (h.created g n hmem) _
  given := by
    intro g m r hmem
    rw [GroupStore.ofEntries_concat]
    exact lookup_apply_isSome (h.given g m r hmem) _

/-- A role set under a key with a colon. -/
theorem grant (h : Keyed es creators granted) {id : Nat} {member : Text} {role : Option GroupRole}
    (hcolon : ':' ∈ foldKey member) (hexist : ((GroupStore.ofEntries es).groups.lookup id).isSome) :
    Keyed (es ++ [GroupLogEntry.groupMemberSet id member role]) creators
      (granted ++ [(id, member, role)]) where
  role := by
    intro g key
    rw [lastRole_concat, roleAfter, historyRole, lastGrant_concat]
    by_cases hset : id = g ∧ foldKey member = key
    -- a key with a colon is not empty, so the store takes the role
    · have hne : key ≠ [] := by
        rw [← hset.2]
        exact List.ne_nil_of_mem hcolon
      rw [if_pos ⟨hset.1, hset.2, hne⟩, if_pos hset]
    · rw [if_neg (fun hall => hset ⟨hall.1, hall.2.1⟩), if_neg hset]
      exact h.role g key
  colon := by
    intro g m r hmem
    rcases List.mem_append.mp hmem with hmem | hmem
    · exact h.colon g m r hmem
    · cases List.mem_singleton.mp hmem
      exact hcolon
  created := by
    intro g n hmem
    rw [GroupStore.ofEntries_concat]
    exact lookup_apply_isSome (h.created g n hmem) _
  given := by
    intro g m r hmem
    rw [GroupStore.ofEntries_concat]
    rcases List.mem_append.mp hmem with hmem | hmem
    · exact lookup_apply_isSome (h.given g m r hmem) _
    · cases List.mem_singleton.mp hmem
      exact lookup_apply_isSome hexist _

/-- The creator of a group is made its owner, under the name, before anything is granted in it. -/
theorem creator (h : Keyed es creators granted) {id : Nat} {name : Text}
    (hexist : ((GroupStore.ofEntries es).groups.lookup id).isSome)
    (hfirst : ∀ key, lastGrant granted id key = none) :
    Keyed (es ++ [GroupLogEntry.groupMemberSet id name (some .owner)]) (creators ++ [(id, name)])
      granted where
  role := by
    intro g key
    have hold := h.role g key
    rw [historyRole] at hold
    rw [lastRole_concat, roleAfter, historyRole]
    by_cases hset : id = g ∧ foldKey name = key ∧ key ≠ []
    -- nothing was granted in the new group yet, so it is the founding that counts
    · have hgrant := hset.1 ▸ hfirst key
      rw [if_pos hset, hgrant]
      exact (if_pos ((foundedAs_concat ..).mpr (.inr hset))).symm
    · have hfounded : FoundedAs (creators ++ [(id, name)]) g key ↔ FoundedAs creators g key := by
        rw [foundedAs_concat]
        exact or_iff_left hset
      rw [if_neg hset, hold]
      split
      · rfl
      · simp only [hfounded]
  colon := h.colon
  created := by
    intro g n hmem
    rw [GroupStore.ofEntries_concat]
    rcases List.mem_append.mp hmem with hmem | hmem
    · exact lookup_apply_isSome (h.created g n hmem) _
    · cases List.mem_singleton.mp hmem
      exact lookup_apply_isSome hexist _
  given := by
    intro g m r hmem
    rw [GroupStore.ofEntries_concat]
    exact lookup_apply_isSome (h.given g m r hmem) _

end Keyed

theorem GroupStore.ofEntries_append (es new : List GroupLogEntry) :
    ofEntries (es ++ new) = new.foldl GroupStore.apply (ofEntries es) := List.foldl_append

theorem Granting.initial {s : GroupStore} {new es : List GroupLogEntry} (h : Granting s es)
    (hpre : new <+: es) : Granting s new := by
  obtain ⟨rest, rfl⟩ := hpre
  obtain ⟨hnodup, hnew, hmembers, hexist⟩ := h
  rw [createIds_append] at hnodup hnew
  rw [memberEntries_append] at hmembers
  refine ⟨(List.nodup_append.mp hnodup).1, fun id hid => hnew id (List.mem_append_left _ hid),
    fun e he => hmembers e (List.mem_append_left _ he), ?_⟩
  intro pre id member role suf heq
  refine hexist pre id member role (suf ++ rest) ?_
  rw [heq, List.append_assoc]
  rfl

/-- What a handler other than `group create` appends keeps the keys. -/
theorem Keyed.granting {es : List GroupLogEntry} {creators : List (Nat × Text)}
    {granted : List (Nat × Text × Option GroupRole)} (h : Keyed es creators granted)
    {new : List GroupLogEntry} (hnew : Granting (.ofEntries es) new) :
    Keyed (es ++ new) creators (granted ++ GroupWorld.memberEntries new) := by
  induction new using List.reverseRec with
  | nil => simpa [GroupWorld.memberEntries] using h
  | append_singleton pre e ih =>
    have hpre := ih (hnew.initial (List.prefix_append pre [e]))
    obtain ⟨hnodup, hmissing, hmembers, hexist⟩ := hnew
    rw [createIds_append] at hnodup hmissing
    rw [memberEntries_append] at hmembers ⊢
    rw [← List.append_assoc es, ← List.append_assoc granted]
    cases e with
    | groupCreate id kind name =>
      -- the group is missing from the store, and the handler makes it once
      have hid : id ∉ createIds pre := by
        intro hmem
        exact (List.nodup_append.mp hnodup).2.2 id hmem id (List.mem_singleton_self id) rfl
      have hnone : (GroupStore.ofEntries (es ++ pre)).groups.lookup id = none := by
        rw [GroupStore.ofEntries_append]
        exact lookup_foldl_none (hmissing id (List.mem_append_right _ (List.mem_singleton_self id))) hid
      have hmem : GroupWorld.memberEntries [.groupCreate id kind name] = [] := rfl
      rw [hmem, List.append_nil]
      exact hpre.create hnone
    | groupMemberSet id member role =>
      refine hpre.grant (hmembers (id, member, role)
        (List.mem_append_right _ (List.mem_singleton_self _))) ?_
      rw [GroupStore.ofEntries_append]
      rcases hexist pre id member role [] rfl with hold | hnew
      · exact lookup_foldl_isSome hold pre
      · exact lookup_created hnew
    | groupPolicySet id k v =>
      have hmem : GroupWorld.memberEntries [.groupPolicySet id k v] = [] := rfl
      rw [hmem, List.append_nil]
      exact hpre.other fun _ _ => rfl
    | groupRoleCapsSet id role caps =>
      have hmem : GroupWorld.memberEntries [.groupRoleCapsSet id role caps] = [] := rfl
      rw [hmem, List.append_nil]
      exact hpre.other fun _ _ => rfl

/-- The creator's entry comes right after the group, if the append of the group succeeds. -/
theorem Keyed.creating {es : List GroupLogEntry} {creators : List (Nat × Text)}
    {granted : List (Nat × Text × Option GroupRole)} (h : Keyed es creators granted) {id : Nat}
    {kind : GroupKind} {name : Text} {p : Character} {new : List GroupLogEntry}
    (hid : (GroupStore.ofEntries es).groups.lookup id = none)
    (hnew : new <+: .groupCreate id kind name :: GroupStore.creatorEntry p id kind) :
    Keyed (es ++ new) (creators ++ (GroupWorld.memberEntries new).map fun e => (e.1, e.2.1)) granted := by
  have hcreated : Keyed (es ++ [GroupLogEntry.groupCreate id kind name]) creators granted := h.create hid
  have hexist : ((GroupStore.ofEntries
      (es ++ [GroupLogEntry.groupCreate id kind name])).groups.lookup id).isSome := by
    rw [GroupStore.ofEntries_concat, GroupStore.apply, Table.lookup_insert_eq, if_pos rfl]
    rfl
  have hfirst : Keyed (es ++ [GroupLogEntry.groupCreate id kind name])
      (creators ++ (GroupWorld.memberEntries [.groupCreate id kind name]).map fun e => (e.1, e.2.1))
      granted := by
    simpa [GroupWorld.memberEntries] using hcreated
  rcases List.prefix_cons_iff.mp hnew with rfl | ⟨rest, rfl, hrest⟩
  · simpa [GroupWorld.memberEntries] using h
  · -- a class group has no creator's entry
    have hcases : GroupStore.creatorEntry p id kind = []
        ∨ GroupStore.creatorEntry p id kind = [.groupMemberSet id p.name (some .owner)] := by
      cases kind with
      | cls c => exact .inl rfl
      | admin => exact .inr rfl
      | guild => exact .inr rfl
      | custom => exact .inr rfl
    rcases hcases with hnone | hsome
    · rw [hnone, List.prefix_nil] at hrest
      subst hrest
      exact hfirst
    · rw [hsome] at hrest
      rcases List.prefix_cons_iff.mp hrest with rfl | ⟨rest', rfl, hrest'⟩
      -- the second append failed
      · exact hfirst
      · rw [List.prefix_nil] at hrest'
        subst hrest'
        have howner : Keyed (es ++ [GroupLogEntry.groupCreate id kind name]
              ++ [GroupLogEntry.groupMemberSet id p.name (some .owner)])
            (creators ++ [(id, p.name)]) granted :=
          hcreated.creator hexist fun key => (h.historyRole_new hid key).1
        rw [List.append_assoc] at howner
        exact howner

/-! ## Runs -/

namespace GroupWorld

variable (J : LineCodec (RaftEnvelope GroupLogEntry))

/-- The entries whose appends succeeded. -/
def entries (w : GroupWorld) : List GroupLogEntry := w.log.appended.map RaftEnvelope.entry

/-- A handler appends a first part of its entries, and applies them. -/
theorem appendAll_spec (ms : Nat) (w : GroupLog) (es : List GroupLogEntry) (os : List AppendOutcome) :
    ∃ envs, (w.appendAll J ms es os).appended = w.appended ++ envs
      ∧ envs.map RaftEnvelope.entry <+: es
      ∧ (w.appendAll J ms es os).groups = (envs.map RaftEnvelope.entry).foldl GroupStore.apply w.groups := by
  induction es generalizing w os with
  | nil => exact ⟨[], (List.append_nil _).symm, List.prefix_refl _, rfl⟩
  | cons e es ih =>
    rw [GroupLog.appendAll]
    have hcases := GroupLog.raftAppendGroup_cases (J := J) w ms e (os.headD .ok)
    cases hres : w.raftAppendGroup J ms e (os.headD .ok) with
    | mk ok w' =>
      rw [hres] at hcases
      rcases hcases with ⟨-, hok, -, hgroups, happ⟩ | ⟨-, hok, -, hgroups, happ⟩
      · have hok' : ok = true := hok
        subst hok'
        obtain ⟨envs, happ', hpre, hgroups'⟩ := ih w' os.tail
        refine ⟨w.raft.envelope ms e :: envs, ?_, ?_, ?_⟩
        · dsimp only
          rw [happ']
          have hw' : w'.appended = w.appended ++ [w.raft.envelope ms e] := happ
          rw [hw', List.append_assoc]
          rfl
        · exact List.cons_prefix_cons.mpr ⟨rfl, hpre⟩
        · dsimp only
          rw [hgroups']
          have hw' : w'.groups = w.groups.apply e := hgroups
          rw [hw']
          rfl
      · have hok' : ok = false := hok
        subst hok'
        exact ⟨[], happ.trans (List.append_nil _).symm, List.nil_prefix, hgroups⟩

/-- The store follows the log, and the log is keyed. -/
structure Ok (w : GroupWorld) : Prop where
  groups : w.log.groups = .ofEntries w.entries
  keyed : Keyed w.entries w.creators w.granted

theorem Ok.init : Ok init := ⟨rfl, .nil⟩

/-- What a handler has appended, seen from the states before and after. -/
theorem appended_entries {w : GroupWorld} (h : Ok w) (ms : Nat) (es : List GroupLogEntry)
    (os : List AppendOutcome) :
    ∃ new, new <+: es
      ∧ ((w.log.appendAll J ms es os).appended.drop w.log.appended.length).map RaftEnvelope.entry = new
      ∧ (w.log.appendAll J ms es os).appended.map RaftEnvelope.entry = w.entries ++ new
      ∧ (w.log.appendAll J ms es os).groups = .ofEntries (w.entries ++ new) := by
  obtain ⟨envs, happ, hpre, hgroups⟩ := appendAll_spec J ms w.log es os
  refine ⟨envs.map RaftEnvelope.entry, hpre, ?_, ?_, ?_⟩
  · rw [happ, List.drop_left]
  · rw [happ, List.map_append]
    rfl
  · rw [hgroups, h.groups, GroupStore.ofEntries_append]

theorem Ok.step {w w' : GroupWorld} {a : GroupMove} (h : Ok w) (hs : w.step J a = some w') : Ok w' := by
  cases a with
  | genesis ms admins sso os =>
    obtain ⟨new, hpre, hnew, hentries, hgroups⟩ :=
      appended_entries J h ms (w.log.groups.ensureGenesisGroups admins sso) os
    rw [GroupWorld.step, hnew] at hs
    cases hs
    have hgrant := granting_genesis w.log.groups admins sso
    rw [h.groups] at hgrant
    rw [h.groups] at hpre
    have hkeyed := h.keyed.granting (hgrant.initial hpre)
    refine ⟨?_, ?_⟩
    · rw [entries, hentries, hgroups]
    · rw [entries, hentries]
      exact hkeyed
  | command ms p line os =>
    obtain ⟨new, hpre, hnew, hentries, hgroups⟩ :=
      appended_entries J h ms (w.log.groups.command p line).entries os
    rw [GroupWorld.step, hnew] at hs
    have hpointed : Pointed w.log.groups := by
      rw [h.groups]
      exact pointed_ofEntries w.entries
    rcases w.log.groups.command_entries p hpointed line with ⟨hcreate, rest, hcmd⟩ | ⟨hcreate, hgrant⟩
    · rw [hcreate, if_pos rfl] at hs
      cases hs
      refine ⟨?_, ?_⟩
      · rw [entries, hentries, hgroups]
      · rw [entries, hentries]
        rw [hcmd] at hpre
        rcases w.log.groups.groupCreate_entries p rest with hnil | ⟨kind, name, hes⟩
        · rw [hnil, List.prefix_nil] at hpre
          subst hpre
          simpa [memberEntries] using h.keyed
        -- the group gets an id that no group has
        · rw [hes] at hpre
          refine h.keyed.creating ?_ hpre
          rw [← h.groups]
          exact lookup_freshGroupId w.log.groups
    · rw [hcreate, if_neg Bool.false_ne_true] at hs
      cases hs
      rw [h.groups] at hgrant
      rw [h.groups] at hpre
      refine ⟨?_, ?_⟩
      · rw [entries, hentries, hgroups]
      · rw [entries, hentries]
        exact h.keyed.granting (hgrant.initial hpre)

theorem step_total (w : GroupWorld) (a : GroupMove) : ∃ w', w.step J a = some w' := by
  cases a with
  | genesis ms admins sso os => exact ⟨_, rfl⟩
  | command ms p line os =>
    rw [GroupWorld.step]
    split
    · exact ⟨_, rfl⟩
    · exact ⟨_, rfl⟩

theorem Ok.of_run {as : List GroupMove} {w : GroupWorld}
    (hrun : exec (GroupWorld.step J) GroupWorld.init as = some w) : Ok w :=
  exec_preserves (fun h hs => h.step J hs) Ok.init hrun

/-! ## Who has a capability -/

/-- What should decide: the role that the store assigns to the principal. -/
def ByPrincipal (s : GroupStore) (c : Character) (g : Nat) (k : Capability) : Prop :=
  s.isAdmin c = true ∨ k ∈ s.capsForPrincipalInGroup g c.principal (GroupStore.className c)

/-- The capabilities of a role in a group. -/
def roleCapsIn (s : GroupStore) (g : Nat) (role : GroupRole) : Finset Capability :=
  ((s.groups.lookup g).map fun grp => grp.capsForRole role).getD ∅

/-- The principal of the character founded the group, which is of no class, and was never removed
from it. -/
def FounderStays (w : GroupWorld) (c : Character) (g : Nat) : Prop :=
  (∃ e ∈ w.founded, e.1 = g ∧ foldKey e.2 = foldKey c.principal) ∧
    ∀ e ∈ w.granted, e.1 = g → foldKey e.2.1 = foldKey c.principal → e.2.2 ≠ none

/-- **What is to hold** of a character, a group and a capability. -/
structure FollowsPrincipal (w : GroupWorld) (c : Character) (g : Nat) (k : Capability) : Prop where
  decides : w.log.groups.hasGroupCap c g k = true ↔ ByPrincipal w.log.groups c g k
  /-- Whoever was given a role last can use what the role has, and no more. -/
  member : ∀ role, lastGrant w.granted g (foldKey c.principal) = some (some role) →
    (w.log.groups.hasGroupCap c g k = true
      ↔ w.log.groups.isAdmin c = true ∨ k ∈ roleCapsIn w.log.groups g role)
  /-- The creator holds what an owner has, until removed. -/
  founder : w.FounderStays c g → k ∈ roleCapsIn w.log.groups g .owner →
    w.log.groups.hasGroupCap c g k = true

/-- The capabilities that come of what was done in a group under a name or a principal: those of the
role, and without one those of the role implied by the class. -/
def historyCaps (w : GroupWorld) (c : Character) (g : Nat) (who : Text) : Finset Capability :=
  ((w.log.groups.groups.lookup g).bind fun grp =>
    ((historyRole w.creators w.granted g (foldKey who)).orElse fun _ =>
      grp.impliedRoleForClass (GroupStore.className c)).map grp.capsForRole).getD ∅

/-- The condition: the character is an admin, or what was done under its name and what was done
under its principal both earned it the capability, or neither did; and if it founded the group and
stays, its principal was given whatever of it an owner has. -/
def HistoriesAgree (w : GroupWorld) (c : Character) (g : Nat) (k : Capability) : Prop :=
  w.log.groups.isAdmin c = true ∨
    (k ∈ w.historyCaps c g c.name ↔ k ∈ w.historyCaps c g c.principal) ∧
      (w.FounderStays c g → k ∈ roleCapsIn w.log.groups g .owner → k ∈ w.historyCaps c g c.principal)

/-- **What the store gives under a key is what the history says.** -/
theorem caps_eq_historyCaps {w : GroupWorld} (h : Ok w) (c : Character) (g : Nat) (who : Text) :
    w.log.groups.capsForPrincipalInGroup g who (GroupStore.className c) = w.historyCaps c g who := by
  unfold GroupStore.capsForPrincipalInGroup GroupStore.roleForPrincipalInGroup historyCaps
  cases hg : w.log.groups.groups.lookup g with
  | none => rfl
  | some grp =>
    have hmembers : grp.members.lookup (foldKey who)
        = historyRole w.creators w.granted g (foldKey who) := by
      rw [h.groups] at hg
      rw [members_eq_lastRole w.entries hg (foldKey who), h.keyed.role]
    have hrole : GroupStore.roleIn grp who (GroupStore.className c)
        = (historyRole w.creators w.granted g (foldKey who)).orElse
          (fun _ => grp.impliedRoleForClass (GroupStore.className c)) := by
      rw [GroupStore.roleIn, hmembers]
      cases historyRole w.creators w.granted g (foldKey who) <;> rfl
    rw [Option.bind_some, Option.bind_some, hrole]
    split
    · next hnone => rw [hnone]; rfl
    · next role hsome => rw [hsome]; rfl

/-- The last grant is what the principal has. -/
theorem historyCaps_of_grant {w : GroupWorld} {c : Character} {g : Nat} {who : Text} {role : GroupRole}
    (h : lastGrant w.granted g (foldKey who) = some (some role)) :
    w.historyCaps c g who = roleCapsIn w.log.groups g role := by
  have hrole : historyRole w.creators w.granted g (foldKey who) = some role := by
    rw [historyRole, h]
  unfold historyCaps roleCapsIn
  rw [hrole]
  cases w.log.groups.groups.lookup g <;> rfl

/-- The check is that of an admin, or of the name's history. -/
theorem hasGroupCap_iff {w : GroupWorld} (h : Ok w) (c : Character) (g : Nat) (k : Capability) :
    w.log.groups.hasGroupCap c g k = true
      ↔ w.log.groups.isAdmin c = true ∨ k ∈ w.historyCaps c g c.name := by
  rw [GroupStore.hasGroupCap, caps_eq_historyCaps h]
  cases w.log.groups.isAdmin c with
  | true => simp
  | false => simp

theorem followsPrincipal_iff {w : GroupWorld} (h : Ok w) (c : Character) (g : Nat) (k : Capability) :
    w.FollowsPrincipal c g k ↔ w.HistoriesAgree c g k := by
  have hcheck := hasGroupCap_iff h c g k
  have hby : ByPrincipal w.log.groups c g k
      ↔ w.log.groups.isAdmin c = true ∨ k ∈ w.historyCaps c g c.principal := by
    rw [ByPrincipal, caps_eq_historyCaps h]
  constructor
  · intro hf
    by_cases hadmin : w.log.groups.isAdmin c = true
    · exact .inl hadmin
    -- whoever is no admin is let through by the name, and should be by the principal
    have hname : w.log.groups.hasGroupCap c g k = true ↔ k ∈ w.historyCaps c g c.name :=
      hcheck.trans (or_iff_right hadmin)
    have hprincipal : w.log.groups.hasGroupCap c g k = true ↔ k ∈ w.historyCaps c g c.principal :=
      (hf.decides.trans hby).trans (or_iff_right hadmin)
    refine .inr ⟨hname.symm.trans hprincipal, ?_⟩
    intro hstays howner
    exact hprincipal.mp (hf.founder hstays howner)
  · rintro (hadmin | ⟨hagree, hfounder⟩)
    · have hall := hcheck.mpr (.inl hadmin)
      exact ⟨iff_of_true hall (hby.mpr (.inl hadmin)), fun _ _ => iff_of_true hall (.inl hadmin),
        fun _ _ => hall⟩
    · have hprincipal : w.log.groups.hasGroupCap c g k = true
          ↔ w.log.groups.isAdmin c = true ∨ k ∈ w.historyCaps c g c.principal := by
        rw [hcheck, hagree]
      refine ⟨hprincipal.trans hby.symm, ?_, ?_⟩
      · intro role hgrant
        rw [hprincipal, historyCaps_of_grant hgrant]
      · intro hstays howner
        exact hprincipal.mpr (.inr (hfounder hstays howner))

/-- Under a name without a colon nothing is ever given or taken. -/
theorem historyRole_plain {w : GroupWorld} (h : Ok w) (g : Nat) {key : Text} (hkey : ':' ∉ key) :
    historyRole w.creators w.granted g key = if FoundedAs w.creators g key then some .owner else none := by
  rw [historyRole, lastGrant_none ?_]
  rintro m r hmem rfl
  exact hkey (h.keyed.colon g m r hmem)

end GroupWorld

open GroupWorld

/-- **Whose capabilities a group gives.** In every state that genesis entries and group commands
lead to, with any failing appends: the check of a capability follows the principal, with a member's
role and with the creator's, if and only if the histories agree. Two characters of one principal for
whom they do are treated alike. Under a name without a colon the history is that of the founding:
nobody was given a role there. -/
theorem group_caps_follow_principal_iff (J : LineCodec (RaftEnvelope GroupLogEntry))
    {as : List GroupMove} {w : GroupWorld} (hrun : exec (GroupWorld.step J) GroupWorld.init as = some w) :
    (∀ c g k, w.FollowsPrincipal c g k ↔ w.HistoriesAgree c g k) ∧
    (∀ c d g k, c.principal = d.principal → c.cls = d.cls → c.authCaps = d.authCaps →
      w.HistoriesAgree c g k → w.HistoriesAgree d g k →
      w.log.groups.hasGroupCap c g k = w.log.groups.hasGroupCap d g k) ∧
    ∀ g key, ':' ∉ key → historyRole w.creators w.granted g key
      = if FoundedAs w.creators g key then some .owner else none := by
  have h := Ok.of_run J hrun
  refine ⟨followsPrincipal_iff h, ?_, fun g key => historyRole_plain h g⟩
  intro c d g k hprincipal hcls hauth hc hd
  have hby : ByPrincipal w.log.groups c g k ↔ ByPrincipal w.log.groups d g k := by
    unfold ByPrincipal GroupStore.isAdmin GroupStore.effectiveCapsFor GroupStore.className
    rw [hprincipal, hcls, hauth]
  have hcd := ((followsPrincipal_iff h c g k).mpr hc).decides.trans
    (hby.trans ((followsPrincipal_iff h d g k).mpr hd).decides.symm)
  exact Bool.eq_iff_iff.mpr hcd

/-! ## A guild -/

instance (s : GroupStore) (c : Character) (g : Nat) (k : Capability) : Decidable (ByPrincipal s c g k) :=
  inferInstanceAs (Decidable (_ ∨ _))

instance (w : GroupWorld) (c : Character) (g : Nat) : Decidable (w.FounderStays c g) :=
  inferInstanceAs (Decidable (_ ∧ _))

instance (w : GroupWorld) (c : Character) (g : Nat) (k : Capability) : Decidable (w.HistoriesAgree c g k) :=
  inferInstanceAs (Decidable (_ ∨ _ ∧ (_ → _ → _)))

/-- A new fighter. -/
def fighter (name principal : String) (authCaps : List Capability) : Character :=
  (World.new (Codec.direct _) true ⟨["town".toList], "town".toList⟩ none).newCharacter 1
    principal.toList authCaps ⟨name.toList, false, .human, .fighter, .none, .they⟩

/-- Alice founds a guild and makes `bob` an officer. -/
def guildMoves : List GroupMove :=
  [.genesis 0 [] [] [],
    .command 1 (fighter "Alice" "google_sub:7" [.groupCreate]) "group create guild smiths".toList [],
    .command 2 (fighter "Alice" "google_sub:7" [.groupCreate]) "group add smiths bob officer".toList []]

/-- Alice makes her principal an owner too. -/
def ownerMoves : List GroupMove :=
  guildMoves ++ [.command 3 (fighter "Alice" "google_sub:7" [.groupCreate])
    "group add smiths google_sub:7 owner".toList []]

/-- Now her name and her principal come to the same, and as the creator she has what an owner has. -/
theorem guild_caps_follow_principal_iff :
    ∃ w, exec (GroupWorld.step sampleCodec) GroupWorld.init ownerMoves = some w ∧
      w.FounderStays (fighter "Alice" "google_sub:7" [.groupCreate]) 2000 ∧
      w.FollowsPrincipal (fighter "Alice" "google_sub:7" [.groupCreate]) 2000 .groupMemberAdd ∧
      ¬ w.FollowsPrincipal (fighter "Bob" "acct:bob" []) 2000 .groupMemberAdd := by
  have hrun : (exec (GroupWorld.step sampleCodec) GroupWorld.init ownerMoves).map (fun w =>
      (decide (w.FounderStays (fighter "Alice" "google_sub:7" [.groupCreate]) 2000),
        decide (w.HistoriesAgree (fighter "Alice" "google_sub:7" [.groupCreate]) 2000 .groupMemberAdd),
        decide (w.HistoriesAgree (fighter "Bob" "acct:bob" []) 2000 .groupMemberAdd)))
      = some (true, true, false) := by
    decide +kernel
  obtain ⟨w, hw, hdec⟩ := Option.map_eq_some_iff.mp hrun
  simp only [Prod.mk.injEq, decide_eq_true_eq, decide_eq_false_iff_not] at hdec
  obtain ⟨hstays, halice, hbob⟩ := hdec
  have hiff := (group_caps_follow_principal_iff sampleCodec hw).1
  exact ⟨w, hw, hstays, (hiff _ _ _).mpr halice, fun h => hbob ((hiff _ _ _).mp h)⟩

/-- Bob is an officer of the guild under his principal and may add nobody; another Alice, whose
principal has no role in it, may. -/
theorem namesake_rules_guild :
    (exec (GroupWorld.step sampleCodec) GroupWorld.init guildMoves).map (fun w =>
      let bob := fighter "Bob" "acct:bob" []
      let other := fighter "alice" "acct:mallory" []
      (w.log.groups.hasGroupCap bob 2000 .groupMemberAdd,
        decide (ByPrincipal w.log.groups bob 2000 .groupMemberAdd),
        w.log.groups.hasGroupCap other 2000 .groupMemberAdd,
        decide (ByPrincipal w.log.groups other 2000 .groupMemberAdd)))
      = some (false, true, true, false) := by
  decide +kernel

end Slopmud.Shard
