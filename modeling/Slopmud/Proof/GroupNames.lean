import Slopmud.Lib.TableIndex
import Slopmud.Proof.GroupCaps

/-!
# What the name of a group denotes

The index of the names is right in every store: names are given out once, up to case, and ids once.
Only the resolver has two readings of a token. A token that is the decimal of a group's id is that
group, and names may be such decimals, so a name denotes its group exactly when it is not the id of
another one.
-/

namespace Slopmud.Shard

open Machine

/-- The key of a group in the index. -/
def Group.nameKey (g : Group) : Text := Text.toAsciiLowercase g.name

/-- The index is that of the names, ids are where they belong, and names are trimmed. -/
structure Named (s : GroupStore) : Prop where
  index : Table.Indexes Group.nameKey s.groups s.groupIdsByName
  own : ∀ id g, s.groups.lookup id = some g → g.id = id
  trimmed : ∀ id g, s.groups.lookup id = some g → Text.trim g.name = g.name ∧ g.name ≠ []

theorem named_empty : Named .empty where
  index := Table.indexes_empty _
  own := by intro id g h; cases h
  trimmed := by intro id g h; cases h

/-- A new group, with a name that is not taken. -/
theorem Named.create {s : GroupStore} (h : Named s) {id : Nat} {kind : GroupKind} {name : Text}
    (hid : s.groups.lookup id = none)
    (hname : s.groupIdsByName.lookup (Text.toAsciiLowercase name) = none)
    (htrim : Text.trim name = name ∧ name ≠ []) : Named (s.apply (.groupCreate id kind name)) := by
  have hlook : ∀ i g, (s.apply (.groupCreate id kind name)).groups.lookup i = some g →
      (i = id ∧ g = Group.new id kind name) ∨ s.groups.lookup i = some g := by
    intro i g hg
    rw [GroupStore.apply, Table.lookup_insert_eq] at hg
    split at hg
    · next heq => exact .inl ⟨heq, (Option.some.inj hg).symm⟩
    · exact .inr hg
  refine ⟨?_, ?_, ?_⟩
  · have hkey : (Group.new id kind name).nameKey = Text.toAsciiLowercase name := rfl
    have hnew := h.index.insert_new (v := Group.new id kind name) hid (hkey ▸ hname)
    exact hnew
  · intro i g hg
    rcases hlook i g hg with ⟨rfl, rfl⟩ | hold
    · rfl
    · exact h.own i g hold
  · intro i g hg
    rcases hlook i g hg with ⟨-, rfl⟩ | hold
    · exact htrim
    · exact h.trimmed i g hold

/-- A change that is not one of the name. -/
theorem Named.modify {s : GroupStore} (h : Named s) {id : Nat} {f : Group → Group}
    (hf : ∀ g, (f g).id = g.id ∧ (f g).name = g.name) : Named (s.modify id f) := by
  unfold GroupStore.modify
  cases hg : s.groups.lookup id with
  | none => exact h
  | some g =>
    have hlook : ∀ i g', (s.groups.insert id (f g)).lookup i = some g' →
        (i = id ∧ g' = f g) ∨ s.groups.lookup i = some g' := by
      intro i g' hg'
      rw [Table.lookup_insert_eq] at hg'
      split at hg'
      · next heq => exact .inl ⟨heq, (Option.some.inj hg').symm⟩
      · exact .inr hg'
    refine ⟨?_, ?_, ?_⟩
    · refine h.index.replace ?_
      have hkey : (f g).nameKey = g.nameKey := congrArg Text.toAsciiLowercase (hf g).2
      rw [hkey]
      exact h.index.lookup_key hg
    · intro i g' hg'
      rcases hlook i g' hg' with ⟨rfl, rfl⟩ | hold
      · rw [(hf g).1]
        exact h.own i g hg
      · exact h.own i g' hold
    · intro i g' hg'
      rcases hlook i g' hg' with ⟨rfl, rfl⟩ | hold
      · rw [(hf g).2]
        exact h.trimmed i g hg
      · exact h.trimmed i g' hold

/-- An entry that creates nothing leaves the names alone. -/
theorem Named.apply {s : GroupStore} (h : Named s) {e : GroupLogEntry} (he : createIds [e] = []) :
    Named (s.apply e) := by
  cases e with
  | groupCreate id kind name => cases he
  | groupMemberSet id member role =>
    refine h.modify ?_
    intro g
    dsimp only
    split <;> exact ⟨rfl, rfl⟩
  | groupPolicySet id key value =>
    refine h.modify ?_
    intro g
    dsimp only
    split <;> exact ⟨rfl, rfl⟩
  | groupRoleCapsSet id role caps => exact h.modify fun _ => ⟨rfl, rfl⟩

theorem Named.applyAll {s : GroupStore} (h : Named s) {es : List GroupLogEntry}
    (hes : createIds es = []) : Named (es.foldl GroupStore.apply s) := by
  induction es generalizing s with
  | nil => exact h
  | cons e es ih =>
    have hsplit : createIds (e :: es) = createIds [e] ++ createIds es := createIds_append [e] es
    obtain ⟨he, hes⟩ := List.append_eq_nil_iff.mp (hsplit ▸ hes)
    exact ih (h.apply he) hes

/-! ## The commands -/

theorem createIds_initial {new es : List GroupLogEntry} (hpre : new <+: es) (h : createIds es = []) :
    createIds new = [] := by
  obtain ⟨rest, rfl⟩ := hpre
  rw [createIds_append] at h
  exact (List.append_eq_nil_iff.mp h).1

namespace GroupStore

variable (s : GroupStore) (p : Character)

theorem createIds_withGroup {tok : Text} {cap : Capability} {k : Nat → GroupOutcome}
    (hk : ∀ gid, createIds (k gid).entries = []) :
    createIds (s.withGroup p tok cap k).entries = [] := by
  rcases s.withGroup_entries p tok cap k with h | ⟨gid, h⟩
  · rw [h]; rfl
  · rw [h]; exact hk gid

/-- Only `group create` makes groups. -/
theorem createIds_commands : ∀ e ∈ (s.commands p).tail, ∀ rest, createIds (e.2 rest).entries = [] := by
  intro e he rest
  simp only [commands, List.tail_cons, List.mem_cons, List.not_mem_nil, or_false] at he
  rcases he with rfl | rfl | rfl | rfl | rfl | rfl
  · simp only [groupAdd]
    split
    · exact s.createIds_withGroup p fun gid => rfl
    · rfl
  · simp only [groupRemove]
    split
    · exact s.createIds_withGroup p fun gid => rfl
    · rfl
  · simp only [groupRole]
    split
    · refine s.createIds_withGroup p fun gid => ?_
      split <;> rfl
    · rfl
  · simp only [groupPolicySet]
    split
    · exact s.createIds_withGroup p fun gid => rfl
    · rfl
  · simp only [groupPolicyDel]
    split
    · exact s.createIds_withGroup p fun gid => rfl
    · rfl
  · simp only [groupRolecapsSet]
    split
    · refine s.createIds_withGroup p fun gid => ?_
      split
      · rfl
      · split <;> rfl
    · rfl

/-- What `group create` appends, and what it has checked. -/
theorem groupCreate_checked (rest : Text) :
    (s.groupCreate p rest).entries = [] ∨ ∃ kind name,
      (s.groupCreate p rest).entries = .groupCreate s.freshGroupId kind name :: creatorEntry p s.freshGroupId kind
      ∧ s.groupIdsByName.lookup (Text.toAsciiLowercase name) = none
      ∧ Text.trim name = name ∧ name ≠ [] := by
  unfold groupCreate
  split
  · exact .inl rfl
  · split
    · next kindTok nameTok more _ =>
      split
      · exact .inl rfl
      · next kind _ =>
        dsimp only
        split
        · exact .inl rfl
        · next hempty =>
          split
          · exact .inl rfl
          · next htaken =>
            refine .inr ⟨kind, Text.trim nameTok, rfl, ?_, Text.trim_trim nameTok, ?_⟩
            · simpa using htaken
            · simpa using hempty
    · exact .inl rfl

end GroupStore

/-- The commands keep the names, however many of their entries were appended. -/
theorem Named.command {s : GroupStore} (h : Named s) {p : Character} {line : Text}
    {new : List GroupLogEntry} (hnew : new <+: (s.command p line).entries) :
    Named (new.foldl GroupStore.apply s) := by
  have hhead : s.commands p = ("group create ", s.groupCreate p) :: (s.commands p).tail := rfl
  rw [GroupStore.command, hhead, List.findSome?_cons] at hnew
  cases hline : Text.stripPrefix "group create ".toList line with
  | some rest =>
    simp only [hline, Option.map_some, Option.getD_some] at hnew
    rcases s.groupCreate_checked p rest with hnil | ⟨kind, name, hes, hfree, htrim⟩
    · rw [hnil, List.prefix_nil] at hnew
      rw [hnew]
      exact h
    · rw [hes] at hnew
      rcases List.prefix_cons_iff.mp hnew with rfl | ⟨rest', rfl, hrest⟩
      · exact h
      · have hcreated : Named (s.apply (.groupCreate s.freshGroupId kind name)) :=
          h.create (lookup_freshGroupId s) hfree htrim
        refine hcreated.applyAll (createIds_initial hrest ?_)
        cases kind <;> rfl
  | none =>
    simp only [hline, Option.map_none] at hnew
    cases hfind : (s.commands p).tail.findSome? fun e => (Text.stripPrefix e.1.toList line).map e.2 with
    | none =>
      simp only [hfind, Option.getD_none, List.prefix_nil] at hnew
      rw [hnew]
      exact h
    | some out =>
      simp only [hfind, Option.getD_some] at hnew
      obtain ⟨e, he, hout⟩ := List.exists_of_findSome?_eq_some hfind
      obtain ⟨rest, -, rfl⟩ := Option.map_eq_some_iff.mp hout
      exact h.applyAll (createIds_initial hnew (s.createIds_commands p e he rest))

/-! ## Genesis -/

/-- The groups of every shard, with their names. -/
def genesisNames : List (Nat × Text) :=
  (groupIdAdmins, "admins".toList)
    :: Class.all.zipIdx.map fun e => (groupIdClassBase + e.2, "class:".toList ++ e.1.asStr)

theorem genesisNames_nodup : (genesisNames.map fun e => Text.toAsciiLowercase e.2).Nodup := by
  decide +kernel

theorem genesisNames_trimmed : ∀ e ∈ genesisNames, Text.trim e.2 = e.2 ∧ e.2 ≠ [] := by
  decide +kernel

/-- One name of the list belongs to one id. -/
theorem genesisNames_inj {i j : Nat} {m n : Text} (hm : (i, m) ∈ genesisNames)
    (hn : (j, n) ∈ genesisNames) (heq : Text.toAsciiLowercase m = Text.toAsciiLowercase n) : i = j := by
  have hsame : (i, m) = (j, n) := List.inj_on_of_nodup_map genesisNames_nodup hm hn heq
  exact congrArg Prod.fst hsame

/-- Genesis has been done. -/
def Started (s : GroupStore) : Prop := ∀ e ∈ genesisNames, (s.groups.lookup e.1).isSome

/-- Nothing but genesis has been done. -/
def OnlyGenesis (s : GroupStore) : Prop :=
  ∀ id g, s.groups.lookup id = some g → (id, g.name) ∈ genesisNames

/-- An entry that creates a group of the list, or none. -/
def GenesisEntry (e : GroupLogEntry) : Prop :=
  createIds [e] = [] ∨ ∃ id kind name, e = .groupCreate id kind name ∧ (id, name) ∈ genesisNames

theorem genesisGroups_create (s : GroupStore) : ∀ e ∈ s.genesisGroups,
    ∃ id kind name, e = .groupCreate id kind name ∧ (id, name) ∈ genesisNames := by
  intro e he
  rcases List.mem_append.mp he with he | he
  · split at he
    · exact ⟨_, _, _, List.mem_singleton.mp he, List.mem_cons_self⟩
    · cases he
  · obtain ⟨x, hx, hentry⟩ := List.mem_filterMap.mp he
    dsimp only at hentry
    split at hentry
    · cases hentry
      exact ⟨_, _, _, rfl, List.mem_cons_of_mem _ (List.mem_map.mpr ⟨x, hx, rfl⟩)⟩
    · cases hentry

theorem genesisEntry_ensure (s : GroupStore) (admins sso : List Text) :
    ∀ e ∈ s.ensureGenesisGroups admins sso, GenesisEntry e := by
  intro e he
  rw [ensureGenesisGroups_eq, List.mem_append] at he
  rcases he with he | he
  · exact .inr (genesisGroups_create s e he)
  · obtain ⟨member, rfl, -⟩ := bootstrap_members admins sso e he
    exact .inl rfl

/-- An entry that creates nothing leaves every group its name. -/
theorem lookup_apply_of_no_create {s : GroupStore} {e : GroupLogEntry} (he : createIds [e] = [])
    {id : Nat} {g : Group} (h : (s.apply e).groups.lookup id = some g) :
    ∃ g', s.groups.lookup id = some g' ∧ g'.name = g.name := by
  have hmodify : ∀ (i : Nat) (f : Group → Group), (∀ g, (f g).name = g.name) →
      (s.modify i f).groups.lookup id = some g → ∃ g', s.groups.lookup id = some g' ∧ g'.name = g.name := by
    intro i f hf hlook
    rw [GroupStore.lookup_modify] at hlook
    split at hlook
    · next hid =>
      obtain ⟨old, hold, rfl⟩ := Option.map_eq_some_iff.mp hlook
      exact ⟨old, hid ▸ hold, (hf old).symm⟩
    · exact ⟨g, hlook, rfl⟩
  cases e with
  | groupCreate id kind name => cases he
  | groupMemberSet i member role =>
    refine hmodify i _ ?_ h
    intro g
    dsimp only
    split <;> rfl
  | groupPolicySet i key value =>
    refine hmodify i _ ?_ h
    intro g
    dsimp only
    split <;> rfl
  | groupRoleCapsSet i role caps =>
    refine hmodify i _ ?_ h
    intro g
    rfl

theorem OnlyGenesis.apply {s : GroupStore} (h : OnlyGenesis s) {e : GroupLogEntry}
    (he : GenesisEntry e) : OnlyGenesis (s.apply e) := by
  intro id g hg
  rcases he with hnone | ⟨i, kind, name, rfl, hmem⟩
  · obtain ⟨g', hg', hname⟩ := lookup_apply_of_no_create hnone hg
    rw [← hname]
    exact h id g' hg'
  · rw [GroupStore.apply, Table.lookup_insert_eq] at hg
    split at hg
    · next hid =>
      cases hg
      rw [hid]
      exact hmem
    · exact h id g hg

/-- While only genesis has been done, the names of the missing groups are free. -/
theorem Named.genesisEntry {s : GroupStore} (h : Named s) (hgen : OnlyGenesis s) {e : GroupLogEntry}
    (he : GenesisEntry e) (hnew : ∀ id ∈ createIds [e], s.groups.lookup id = none) :
    Named (s.apply e) := by
  rcases he with hnone | ⟨id, kind, name, rfl, hmem⟩
  · exact h.apply hnone
  · have hid : s.groups.lookup id = none := hnew id List.mem_cons_self
    refine h.create hid ?_ (genesisNames_trimmed _ hmem)
    by_contra htaken
    obtain ⟨j, hj⟩ := Option.ne_none_iff_exists'.mp htaken
    obtain ⟨g, hg, hkey⟩ := (h.index _ _).mp hj
    have hsame : j = id := genesisNames_inj (hgen j g hg) hmem hkey
    rw [hsame, hid] at hg
    cases hg

/-- Genesis on a store without other groups, however far it gets. -/
theorem Named.genesis {s : GroupStore} (h : Named s) (hgen : OnlyGenesis s) {es : List GroupLogEntry}
    (hes : ∀ e ∈ es, GenesisEntry e) (hnodup : (createIds es).Nodup)
    (hnew : ∀ id ∈ createIds es, s.groups.lookup id = none) :
    Named (es.foldl GroupStore.apply s) ∧ OnlyGenesis (es.foldl GroupStore.apply s) := by
  induction es generalizing s with
  | nil => exact ⟨h, hgen⟩
  | cons e es ih =>
    have hsplit : createIds (e :: es) = createIds [e] ++ createIds es := createIds_append [e] es
    rw [hsplit] at hnodup hnew
    have he := hes e List.mem_cons_self
    refine ih (h.genesisEntry hgen he fun id hid => hnew id (List.mem_append_left _ hid))
      (hgen.apply he) (fun e' he' => hes e' (List.mem_cons_of_mem _ he'))
      (List.nodup_append.mp hnodup).2.1 ?_
    intro id hid
    refine lookup_apply_none (hnew id (List.mem_append_right _ hid)) ?_
    intro hid'
    exact (List.nodup_append.mp hnodup).2.2 id hid' id hid rfl

theorem Started.foldl {s : GroupStore} (h : Started s) (es : List GroupLogEntry) :
    Started (es.foldl GroupStore.apply s) := by
  induction es generalizing s with
  | nil => exact h
  | cons e es ih => exact ih fun x hx => lookup_apply_isSome (h x hx) e

/-- Once it has been done, genesis makes no groups. -/
theorem Started.no_creates {s : GroupStore} (h : Started s) (admins sso : List Text) :
    createIds (s.ensureGenesisGroups admins sso) = [] := by
  rw [createIds_ensure, createIds_genesisGroups, List.filter_eq_nil_iff]
  have hids : groupIdAdmins :: Class.all.zipIdx.map (groupIdClassBase + ·.2) = genesisNames.map Prod.fst := rfl
  intro id hid
  rw [hids] at hid
  obtain ⟨e, he, rfl⟩ := List.mem_map.mp hid
  have hsome := h e he
  cases hlook : s.groups.lookup e.1 with
  | none =>
    rw [hlook] at hsome
    cases hsome
  | some g => simp

/-! ## Which group a command is about -/

namespace GroupLogEntry

/-- The group that an entry is about. -/
def groupId : GroupLogEntry → Nat
  | groupCreate id _ _ | groupMemberSet id _ _ | groupPolicySet id _ _ | groupRoleCapsSet id _ _ => id

end GroupLogEntry

/-- The first token of a command on a group, which names the group. -/
def groupToken (line : Text) : Option Text :=
  if GroupWorld.isCreate line then none
  else (["group add ", "group remove ", "group role ", "group policy set ", "group policy del ",
      "group rolecaps set "].findSome? fun keyword => Text.stripPrefix keyword.toList line).bind
    fun rest => (Text.splitWhitespace (Text.trim rest)).head?

namespace GroupStore

variable {s : GroupStore} {p : Character}

theorem mem_withGroup {tok : Text} {cap : Capability} {k : Nat → GroupOutcome} {e : GroupLogEntry}
    (he : e ∈ (s.withGroup p tok cap k).entries) :
    ∃ gid, s.resolveGroupId tok = some gid ∧ e ∈ (k gid).entries := by
  unfold withGroup at he
  split at he
  · cases he
  · next gid hgid =>
    split at he
    · cases he
    · exact ⟨gid, hgid, he⟩

/-- The first keyword that fits decides the handler. -/
theorem findSome?_keyword {cs : List (String × (Text → GroupOutcome))} {line : Text} {out : GroupOutcome}
    (h : cs.findSome? (fun c => (Text.stripPrefix c.1.toList line).map c.2) = some out) :
    ∃ c ∈ cs, ∃ rest, out = c.2 rest
      ∧ (cs.map Prod.fst).findSome? (fun keyword => Text.stripPrefix keyword.toList line) = some rest := by
  induction cs with
  | nil => cases h
  | cons c cs ih =>
    rw [List.findSome?_cons] at h
    rw [List.map_cons, List.findSome?_cons]
    cases hstrip : Text.stripPrefix c.1.toList line with
    | some rest =>
      rw [hstrip] at h
      exact ⟨c, List.mem_cons_self, rest, (Option.some.inj h).symm, rfl⟩
    | none =>
      rw [hstrip] at h
      obtain ⟨c', hc', rest, hout, hrest⟩ := ih h
      exact ⟨c', List.mem_cons_of_mem _ hc', rest, hout, hrest⟩

/-- The handlers but `group create` are about the group that their first token resolves to. -/
theorem commands_about : ∀ c ∈ (s.commands p).tail, ∀ rest, ∀ e ∈ (c.2 rest).entries,
    ∃ tok, (Text.splitWhitespace (Text.trim rest)).head? = some tok
      ∧ s.resolveGroupId tok = some e.groupId := by
  have hone : ∀ {tok : Text} {cap : Capability} {k : Nat → GroupOutcome} {e : GroupLogEntry}
      {toks : List Text}, e ∈ (s.withGroup p tok cap k).entries →
      (∀ gid, ∀ e ∈ (k gid).entries, e.groupId = gid) → toks.head? = some tok →
      ∃ tok, toks.head? = some tok ∧ s.resolveGroupId tok = some e.groupId := by
    intro tok cap k e toks he hk htok
    obtain ⟨gid, hgid, hmem⟩ := mem_withGroup he
    exact ⟨tok, htok, by rw [hk gid e hmem, hgid]⟩
  have hsingle : ∀ {gid : Nat} {x : GroupLogEntry}, x.groupId = gid → ∀ e ∈ [x], e.groupId = gid := by
    rintro gid x rfl e he
    rw [List.mem_singleton.mp he]
  intro c hc rest e he
  simp only [commands, List.tail_cons, List.mem_cons, List.not_mem_nil, or_false] at hc
  rcases hc with rfl | rfl | rfl | rfl | rfl | rfl
  · simp only [groupAdd] at he
    split at he
    · next htoks =>
      exact hone he (fun gid => hsingle rfl) (by rw [htoks]; rfl)
    · cases he
  · simp only [groupRemove] at he
    split at he
    · next htoks =>
      exact hone he (fun gid => hsingle rfl) (by rw [htoks]; rfl)
    · cases he
  · simp only [groupRole] at he
    split at he
    · next htoks =>
      refine hone he ?_ (by rw [htoks]; rfl)
      intro gid e he
      split at he
      · cases he
      · exact hsingle rfl e he
    · cases he
  · simp only [groupPolicySet] at he
    split at he
    · next htoks =>
      exact hone he (fun gid => hsingle rfl) (by rw [htoks]; rfl)
    · cases he
  · simp only [groupPolicyDel] at he
    split at he
    · next htoks =>
      exact hone he (fun gid => hsingle rfl) (by rw [htoks]; rfl)
    · cases he
  · simp only [groupRolecapsSet] at he
    split at he
    · next htoks =>
      refine hone he ?_ (by rw [htoks]; rfl)
      intro gid e he
      split at he
      · cases he
      · split at he
        · cases he
        · cases he
        · exact hsingle rfl e he
    · cases he

theorem command_about {line tok : Text} (htok : groupToken line = some tok) {e : GroupLogEntry}
    (he : e ∈ (s.command p line).entries) : s.resolveGroupId tok = some e.groupId := by
  have hhead : s.commands p = ("group create ", s.groupCreate p) :: (s.commands p).tail := rfl
  rw [groupToken] at htok
  split at htok
  · cases htok
  · next hcreate =>
    rw [GroupWorld.isCreate, Option.not_isSome_iff_eq_none] at hcreate
    rw [command, hhead, List.findSome?_cons, hcreate, Option.map_none] at he
    cases hfind : (s.commands p).tail.findSome? fun c => (Text.stripPrefix c.1.toList line).map c.2 with
    | none =>
      rw [hfind] at he
      cases he
    | some out =>
      rw [hfind] at he
      obtain ⟨c, hc, rest, rfl, hrest⟩ := findSome?_keyword hfind
      obtain ⟨tok', htok', hres⟩ := commands_about c hc rest e he
      have hkeywords : (s.commands p).tail.map Prod.fst = ["group add ", "group remove ", "group role ",
        "group policy set ", "group policy del ", "group rolecaps set "] := rfl
      rw [hkeywords] at hrest
      rw [hrest, Option.bind_some, htok', Option.some.injEq] at htok
      rw [← htok]
      exact hres

end GroupStore

/-- A name resolves to its group unless it is the number of another one. -/
theorem Named.resolve_name {s : GroupStore} (h : Named s) {id : Nat} {g : Group}
    (hg : s.groups.lookup id = some g) :
    s.resolveGroupId g.name = some g.id
      ↔ ∀ n, parseU64 g.name = some n → (s.groups.lookup n).isSome → n = id := by
  obtain ⟨htrim, hne⟩ := h.trimmed id g hg
  have hnonempty : g.name.isEmpty = false := by simpa using hne
  have hindex : s.groupIdsByName.lookup (Text.toAsciiLowercase g.name) = some id := h.index.lookup_key hg
  rw [h.own id g hg, GroupStore.resolveGroupId, htrim, hnonempty, if_neg Bool.false_ne_true]
  cases hparse : parseU64 g.name with
  | none =>
    rw [Option.filter_none]
    simpa using hindex
  | some n =>
    cases hsome : (s.groups.lookup n).isSome with
    | true =>
      rw [Option.filter_some, if_pos hsome]
      constructor
      · rintro ⟨⟩ m ⟨⟩ -
        rfl
      · intro hall
        rw [hall n rfl hsome]
    | false =>
      rw [Option.filter_some, if_neg (by simp [hsome])]
      refine ⟨?_, fun _ => hindex⟩
      rintro - m ⟨⟩ hm
      rw [hsome] at hm
      cases hm

/-! ## Runs -/

/-- Lines are read by a shard that has started. -/
def Serves (w : GroupWorld) : GroupMove → Prop
  | .genesis .. => True
  | .command .. => Started w.log.groups

/-- The names are right, and other groups come after genesis. -/
structure NamesOk (s : GroupStore) : Prop where
  named : Named s
  start : Started s ∨ OnlyGenesis s

theorem namesOk_init : NamesOk GroupStore.empty where
  named := named_empty
  start := .inr fun id g h => by cases h

theorem NamesOk.genesis {s : GroupStore} (h : NamesOk s) {admins sso : List Text}
    {new : List GroupLogEntry} (hnew : new <+: s.ensureGenesisGroups admins sso) :
    NamesOk (new.foldl GroupStore.apply s) := by
  rcases h.start with hstart | honly
  · exact ⟨h.named.applyAll (createIds_initial hnew (hstart.no_creates admins sso)), .inl (hstart.foldl new)⟩
  · obtain ⟨hnodup, hmissing, -⟩ := (granting_genesis s admins sso).initial hnew
    have hentries : ∀ e ∈ new, GenesisEntry e := fun e he =>
      genesisEntry_ensure s admins sso e (hnew.subset he)
    obtain ⟨hnamed, honly'⟩ := h.named.genesis honly hentries hnodup hmissing
    exact ⟨hnamed, .inr honly'⟩

theorem NamesOk.step (J : LineCodec (RaftEnvelope GroupLogEntry)) {w w' : GroupWorld} {a : GroupMove}
    (h : NamesOk w.log.groups) (hok : Serves w a) (hs : w.step J a = some w') : NamesOk w'.log.groups := by
  cases a with
  | genesis ms admins sso os =>
    cases hs
    obtain ⟨envs, -, hpre, hgroups⟩ :=
      GroupWorld.appendAll_spec J ms w.log (w.log.groups.ensureGenesisGroups admins sso) os
    dsimp only
    rw [hgroups]
    exact h.genesis hpre
  | command ms p line os =>
    obtain ⟨envs, -, hpre, hgroups⟩ :=
      GroupWorld.appendAll_spec J ms w.log (w.log.groups.command p line).entries os
    have hstart : Started w.log.groups := hok
    have hgroups' : w'.log.groups = (envs.map RaftEnvelope.entry).foldl GroupStore.apply w.log.groups := by
      rw [← hgroups]
      rw [GroupWorld.step] at hs
      split at hs
      · cases hs
        rfl
      · cases hs
        rfl
    rw [hgroups']
    exact ⟨h.named.command hpre, .inl (hstart.foldl _)⟩

/-- No name of a group is the number of another one. -/
def NoNumberNames (s : GroupStore) : Prop :=
  ∀ id g, s.groups.lookup id = some g → ∀ n, parseU64 g.name = some n → (s.groups.lookup n).isSome → n = id

/-- The name of every group is resolved to the group, and commands with it are about the group. -/
def NamesDenote (s : GroupStore) : Prop :=
  ∀ id g, s.groups.lookup id = some g → s.resolveGroupId g.name = some g.id
    ∧ ∀ p line, groupToken line = some g.name → ∀ e ∈ (s.command p line).entries, e.groupId = g.id

/-- **What the name of a group denotes.** In every state that genesis and the commands of a shard
that has started lead to, with any failing appends: every group is under its own id, no two groups
have names that are equal up to case, and the index has the names in lower case with their ids and
nothing else. The name of every group denotes it, for the resolver and for every command, if and
only if no name of a group is the number of another group. -/
theorem group_names_denote_iff (J : LineCodec (RaftEnvelope GroupLogEntry)) {as : List GroupMove}
    {w : GroupWorld} (hrun : exec (GroupWorld.step J) GroupWorld.init as = some w)
    (hserves : Along (GroupWorld.step J) Serves GroupWorld.init as) :
    (∀ id g, w.log.groups.groups.lookup id = some g → g.id = id)
    ∧ (∀ i j g g', w.log.groups.groups.lookup i = some g → w.log.groups.groups.lookup j = some g' →
        Text.eqIgnoreAsciiCase g.name g'.name → i = j)
    ∧ (∀ name id, w.log.groups.groupIdsByName.lookup name = some id
        ↔ ∃ g, w.log.groups.groups.lookup id = some g ∧ Text.toAsciiLowercase g.name = name)
    ∧ (NamesDenote w.log.groups ↔ NoNumberNames w.log.groups) := by
  have h : NamesOk w.log.groups :=
    exec_invariant (I := fun w => NamesOk w.log.groups) (fun h hok hs => h.step J hok hs)
      namesOk_init hserves hrun
  refine ⟨h.named.own, ?_, h.named.index, ?_⟩
  · intro i j g g' hg hg' heq
    exact h.named.index.inj hg hg' (Text.eqIgnoreAsciiCase_iff.mp heq)
  · constructor
    · intro hdenote id g hg
      exact (h.named.resolve_name hg).mp (hdenote id g hg).1
    · intro hnumbers id g hg
      have hres := (h.named.resolve_name hg).mpr (hnumbers id g hg)
      refine ⟨hres, ?_⟩
      intro p line htok e he
      have habout := GroupStore.command_about htok he
      rw [hres] at habout
      exact (Option.some.inj habout).symm

/-! ## A guild called 1000 -/

instance (s : GroupStore) : Decidable (Started s) :=
  inferInstanceAs (Decidable (∀ e ∈ genesisNames, _))

instance : ∀ (w : GroupWorld) (a : GroupMove), Decidable (Serves w a)
  | _, .genesis .. => .isTrue trivial
  | w, .command .. => inferInstanceAs (Decidable (Started w.log.groups))

/-- Alice's guild is called `smiths`. -/
theorem guild_names_denote :
    ∃ w, exec (GroupWorld.step sampleCodec) GroupWorld.init guildMoves = some w ∧
      (∀ id g, w.log.groups.groups.lookup id = some g → g.id = id)
      ∧ (∀ i j g g', w.log.groups.groups.lookup i = some g → w.log.groups.groups.lookup j = some g' →
          Text.eqIgnoreAsciiCase g.name g'.name → i = j)
      ∧ (∀ name id, w.log.groups.groupIdsByName.lookup name = some id
          ↔ ∃ g, w.log.groups.groups.lookup id = some g ∧ Text.toAsciiLowercase g.name = name)
      ∧ (NamesDenote w.log.groups ↔ NoNumberNames w.log.groups) := by
  obtain ⟨w, hw⟩ := exec_total (GroupWorld.step_total sampleCodec) GroupWorld.init guildMoves
  exact ⟨w, hw, group_names_denote_iff sampleCodec hw (by decide +kernel)⟩

/-- A guild takes the number of the barbarians as its name. -/
def numberMoves : List GroupMove :=
  [.genesis 0 [] [] [],
    .command 1 (fighter "Alice" "google_sub:7" [.groupCreate]) "group create guild 1000".toList []]

/-- The guild has the id 2000 and the name `1000`, which resolves to the barbarians; a policy set in
`1000` is one of theirs. -/
theorem number_names_another :
    ∃ w g, exec (GroupWorld.step sampleCodec) GroupWorld.init numberMoves = some w
      ∧ Along (GroupWorld.step sampleCodec) Serves GroupWorld.init numberMoves
      ∧ w.log.groups.groups.lookup 2000 = some g ∧ g.id = 2000 ∧ g.name = "1000".toList
      ∧ w.log.groups.resolveGroupId g.name = some 1000
      ∧ (w.log.groups.command (fighter "Root" "acct:root" [.adminAll])
          "group policy set 1000 open yes".toList).entries
        = [.groupPolicySet 1000 "open".toList (some "yes".toList)] := by
  have hserves : Along (GroupWorld.step sampleCodec) Serves GroupWorld.init numberMoves := by
    decide +kernel
  have hrun : (exec (GroupWorld.step sampleCodec) GroupWorld.init numberMoves).map (fun w =>
      ((w.log.groups.groups.lookup 2000).map fun g => (g.id, g.name),
        w.log.groups.resolveGroupId "1000".toList,
        (w.log.groups.command (fighter "Root" "acct:root" [.adminAll])
          "group policy set 1000 open yes".toList).entries))
      = some (some (2000, "1000".toList), some 1000,
          [.groupPolicySet 1000 "open".toList (some "yes".toList)]) := by
    decide +kernel
  obtain ⟨w, hw, hstate⟩ := Option.map_eq_some_iff.mp hrun
  simp only [Prod.mk.injEq] at hstate
  obtain ⟨hgroup, hres, hentries⟩ := hstate
  obtain ⟨g, hg, hfields⟩ := Option.map_eq_some_iff.mp hgroup
  simp only [Prod.mk.injEq] at hfields
  obtain ⟨hid, hname⟩ := hfields
  refine ⟨w, g, hw, hserves, hg, hid, hname, ?_, hentries⟩
  rw [hname]
  exact hres

end Slopmud.Shard
