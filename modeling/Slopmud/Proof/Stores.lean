import Slopmud.Broker.Accounts
import Slopmud.Broker.Bans
import Slopmud.Lib.SavedStore
import Slopmud.Proof.Snapshots
import Slopmud.Sbc.IpText

/-!
# Stores that cannot be read

The broker's accounts, the broker's bans and the shard's player snapshots are each
read once from a JSON file and written back as a whole by every change. All three
loaders turn a file that cannot be read or parsed into an empty store and go on, so
the first save after that wipes the file; and records that the loader skips or that
a later record with the same key shadows are lost in the same way.

Each store is an instance of `SavedStore`, so what is left to say is which records
loading brings into memory.
-/

namespace Slopmud

variable {Raw : Type}

/-- A file with records is read, and parses as something that is `fine`. -/
def FileFine {α Rec : Type} {J : Codec Raw α} {parts : α → List Rec} (C : Codec.Contents J parts)
    (fine : α → Prop) (readOk : Bool) (file : Option Raw) : Prop :=
  C.inFile file ≠ [] → ∃ raw a, file = some raw ∧ readOk = true ∧ J.parse raw = some a ∧ fine a

/-- A loader that knows its file only when it could be read and parsed. -/
theorem forall_inFile_iff {α Rec : Type} {J : Codec Raw α} {parts : α → List Rec}
    (C : Codec.Contents J parts) {P : Option α → Rec → Prop} {F : α → Prop}
    (hnone : ∀ r, ¬ P none r) (hsome : ∀ a, (∀ r ∈ parts a, P (some a) r) ↔ F a)
    (readOk : Bool) (file : Option Raw) :
    (∀ r ∈ C.inFile file, P ((if readOk then file else none).bind J.parse) r) ↔
      FileFine C F readOk file := by
  constructor
  · intro h hne
    obtain ⟨r, hr⟩ := List.exists_mem_of_ne_nil _ hne
    cases hload : (if readOk then file else none).bind J.parse with
    | none =>
      rw [hload] at h
      exact absurd (h r hr) (hnone r)
    | some a =>
      obtain ⟨raw, hraw, hparse⟩ := Option.bind_eq_some_iff.mp hload
      cases readOk with
      | false => simp at hraw
      | true =>
        simp only [if_true] at hraw
        subst hraw
        refine ⟨raw, a, rfl, rfl, hparse, (hsome a).mp ?_⟩
        rw [hload, C.inFile_of_parse hparse] at h
        exact h
  · intro h r hr
    obtain ⟨raw, a, rfl, rfl, hparse, hfine⟩ := h (List.ne_nil_of_mem hr)
    rw [C.inFile_of_parse hparse] at hr
    simp only [if_true, Option.bind_some, hparse]
    exact (hsome a).mpr hfine r hr

/-- Records with the same key are the same record. -/
def KeyedBy {K Rec : Type} (key : Rec → K) (v : List Rec) : Prop :=
  ∀ a ∈ v, ∀ b ∈ v, key a = key b → a = b

/-- Reading a table back record by record: each record is there exactly when no key is used for
two different ones. The loop skips the records that are not `ok`. -/
theorem forall_lookup_foldl_iff {K Rec : Type} [DecidableEq K] (key : Rec → K) (ok : Rec → Bool)
    (put : Table K Rec → Rec → Table K Rec)
    (hput : ∀ m r, put m r = if ok r then m.insert (key r) r else m) (v : List Rec) :
    (∀ r ∈ v, (v.foldl put ∅).lookup (key r) = some r) ↔ (∀ r ∈ v, ok r = true) ∧ KeyedBy key v := by
  -- what the loop has at a key is some record with that key, unless it was there before
  have hsome : ∀ (v : List Rec) (m : Table K Rec) (k : K) (r : Rec),
      (v.foldl put m).lookup k = some r → (r ∈ v ∧ ok r = true ∧ key r = k) ∨ m.lookup k = some r := by
    intro v
    induction v with
    | nil => intro m k r h; exact Or.inr h
    | cons a v ih =>
      intro m k r h
      rcases ih _ k r h with ⟨hr, hok, hk⟩ | h
      · exact Or.inl ⟨List.mem_cons_of_mem _ hr, hok, hk⟩
      · rw [hput] at h
        split at h
        · next hok =>
          rw [Table.lookup_insert_eq] at h
          split at h
          · next hk => cases h; exact Or.inl ⟨List.mem_cons_self, hok, hk.symm⟩
          · exact Or.inr h
        · exact Or.inr h
  -- and it has something at the key of every record it does not skip
  have hkept : ∀ (v : List Rec) (m : Table K Rec) (k : K), (m.lookup k).isSome →
      ((v.foldl put m).lookup k).isSome := by
    intro v
    induction v with
    | nil => intro m k h; exact h
    | cons a v ih =>
      intro m k h
      refine ih _ k ?_
      rw [hput]
      split
      · rw [Table.lookup_insert_eq]; split
        · rfl
        · exact h
      · exact h
  have hbound : ∀ (v : List Rec) (m : Table K Rec) (r : Rec), r ∈ v → ok r = true →
      ((v.foldl put m).lookup (key r)).isSome := by
    intro v
    induction v with
    | nil => intro m r hr; simp at hr
    | cons a v ih =>
      intro m r hr hok
      rcases List.mem_cons.mp hr with rfl | hr
      · refine hkept v _ _ ?_
        rw [hput, if_pos hok, Table.lookup_insert_eq, if_pos rfl]
        rfl
      · exact ih _ r hr hok
  constructor
  · intro h
    refine ⟨fun r hr => ?_, fun a ha b hb hkey => ?_⟩
    · rcases hsome v ∅ _ r (h r hr) with ⟨-, hok, -⟩ | hnone
      · exact hok
      · simp at hnone
    · have hab : some a = some b := by rw [← h a ha, ← h b hb, hkey]
      exact Option.some.inj hab
  · rintro ⟨hok, hkeyed⟩ r hr
    obtain ⟨r', hr'⟩ := Option.isSome_iff_exists.mp (hbound v ∅ r hr (hok r hr))
    rcases hsome v ∅ _ r' hr' with ⟨hmem, -, hkey⟩ | hnone
    · rw [hr', hkeyed r' hmem r hr hkey]
    · simp at hnone

namespace Broker

open Slopmud.Sbc

/-! ## Accounts -/

section Accounts

variable {J : Codec Raw (List AccountRec)} (C : Codec.Contents J id)

/-- Every operation on accounts stores one record under its name: a creation, a binding, a new
password, new capabilities, a new e-mail address. -/
def accountsStore : SavedStore (Option Raw) AccountRec AccountRec Accounts where
  records := C.inFile
  holds a r := a.get r.name = some r
  print a := some (a.print J)
  apply a rec := some (a.insert rec)
  touches rec r := rec.name = r.name
  mem_print a r := by
    rw [Accounts.print, C.inFile_print, id, List.mem_mergeSort, Accounts.mem_values]
  keeps a rec a' r h ht hr := by
    cases h
    rw [Accounts.get_insert, if_neg (Ne.symm ht)]
    exact hr
  idle a r h := by
    -- an account of another name
    refine ⟨{ r with name := 'x' :: r.name }, _, by simp, rfl, ?_⟩
    rwa [Accounts.get_insert, if_neg (by simp)]

theorem byName_foldl_insert (v : List AccountRec) (a : Accounts) :
    (v.foldl Accounts.insert a).byName
      = v.foldl (fun m r => m.insert r.name r) a.byName := by
  induction v generalizing a with
  | nil => rfl
  | cons r v ih => exact ih (a.insert r)

/-- Loading has all the accounts of a file that can be read and names each of them differently. -/
theorem accounts_loaded_iff (readOk : Bool) (file : Option Raw) :
    (∀ r ∈ C.inFile file, (Accounts.load J readOk file).get r.name = some r) ↔
      FileFine C (KeyedBy AccountRec.name) readOk file := by
  have hload : Accounts.load J readOk file =
      ((if readOk then file else none).bind J.parse).elim Accounts.empty (List.foldl Accounts.insert .empty) := by
    unfold Accounts.load
    cases (if readOk then file else none).bind J.parse <;> rfl
  rw [hload]
  refine forall_inFile_iff C (P := fun v r =>
    (v.elim Accounts.empty (List.foldl Accounts.insert .empty)).get r.name = some r) ?_ ?_ readOk file
  · intro r
    simp
  · intro v
    have h := forall_lookup_foldl_iff AccountRec.name (fun _ => true)
      (fun m r => m.insert r.name r) (fun _ _ => rfl) v
    simp only [implies_true, true_and] at h
    rw [← h]
    simp only [id, Option.elim_some, Accounts.get, byName_foldl_insert]
    rfl

end Accounts

/-! ## Bans -/

section Bans

variable {J : Codec Raw BanListFile}

/-- The records of a ban list. -/
def banRecords (f : BanListFile) : List (CharacterBan ⊕ IpBan) :=
  f.characterBans.map .inl ++ f.ipBans.map .inr

theorem inl_mem_banRecords {f : BanListFile} {b : CharacterBan} :
    .inl b ∈ banRecords f ↔ b ∈ f.characterBans := by simp [banRecords]

theorem inr_mem_banRecords {f : BanListFile} {b : IpBan} :
    .inr b ∈ banRecords f ↔ b ∈ f.ipBans := by simp [banRecords]

variable (C : Codec.Contents J banRecords) (T : IpText)

inductive BanOp where
  | upsertChar (name : Text) (createdUnix : Nat) (createdBy reason : Text)
  | upsertIp (cidr : Text) (createdUnix : Nat) (createdBy reason : Text)

def BanOp.apply (st : BanState T) : BanOp → Option (BanState T)
  | .upsertChar name createdUnix createdBy reason =>
    st.upsertCharBan name createdUnix createdBy reason
  | .upsertIp cidr createdUnix createdBy reason => st.upsertIpBan cidr createdUnix createdBy reason

/-- A ban concerns the record of the same name, or the records of the same prefix. -/
def BanOp.touches : BanOp → CharacterBan ⊕ IpBan → Prop
  | .upsertChar name _ _ _, .inl b => Text.toAsciiLowercase (Text.trim name) = b.nameLc
  | .upsertIp cidr _ _ _, .inr b => readCidr T cidr = readCidr T b.cidr
  | _, _ => False

def banHolds (st : BanState T) : CharacterBan ⊕ IpBan → Prop
  | .inl b => st.chars.lookup b.nameLc = some b
  | .inr b => b ∈ st.ips.map Prod.snd

variable {T}

theorem mem_banRecords_snapshotFile (st : BanState T) (r : CharacterBan ⊕ IpBan) :
    r ∈ banRecords st.snapshotFile ↔ banHolds T st r := by
  cases r with
  | inl b =>
    rw [inl_mem_banRecords, BanState.snapshotFile, List.mem_mergeSort, Table.mem_values, banHolds]
    constructor
    · rintro ⟨n, h⟩
      rw [st.named n b h]
      exact h
    · exact fun h => ⟨_, h⟩
  | inr b => rw [inr_mem_banRecords, BanState.snapshotFile, List.mem_mergeSort, banHolds]

theorem BanOp.keeps {st st' : BanState T} {o : BanOp} {r : CharacterBan ⊕ IpBan}
    (h : o.apply T st = some st') (ht : ¬ o.touches T r) (hr : banHolds T st r) :
    banHolds T st' r := by
  cases o with
  | upsertChar name t who why =>
    obtain ⟨hchars, hips, -⟩ := BanState.upsertCharBan_some h
    cases r with
    | inl b => rw [banHolds, hchars, Table.lookup_insert_eq, if_neg (Ne.symm ht)]; exact hr
    | inr b => rw [banHolds, hips]; exact hr
  | upsertIp cidr t who why =>
    obtain ⟨pfx, hp, hchars, hips, -⟩ := BanState.upsertIpBan_some h
    cases r with
    | inl b => rw [banHolds, hchars]; exact hr
    | inr b =>
      obtain ⟨e, he, rfl⟩ := List.mem_map.mp hr
      have hne : e.1 ≠ pfx := by
        rintro rfl
        exact ht (by rw [BanOp.touches, hp, st.parsed e he])
      rw [banHolds, hips, List.map_append, List.mem_append]
      exact Or.inl (List.mem_map_of_mem (List.mem_filter.mpr ⟨he, by simpa using hne⟩))

theorem BanOp.idle (st : BanState T) (r : CharacterBan ⊕ IpBan) (h : ¬ banHolds T st r) :
    ∃ (o : BanOp) (st' : BanState T), ¬ o.touches T r ∧ o.apply T st = some st' ∧ ¬ banHolds T st' r := by
  cases r with
  | inl b =>
    -- ban some address
    obtain ⟨pfx, hnew⟩ : ∃ pfx, IpPrefix.new (.v4 0) 0 = some pfx := ⟨_, rfl⟩
    have hread := readCidr_toCidrString T hnew
    obtain ⟨st', hst'⟩ := BanState.exists_upsertIpBan st hread 0 [] []
    refine ⟨.upsertIp (pfx.toCidrString T) 0 [] [], st', id, hst', ?_⟩
    obtain ⟨_, -, hchars, -⟩ := BanState.upsertIpBan_some hst'
    rw [banHolds, hchars]
    exact h
  | inr b =>
    -- ban some character
    exact ⟨.upsertChar ['x'] 0 [] [], _, id, rfl, h⟩

/-- The broker's ban list. -/
def bansStore : SavedStore (Option Raw) (CharacterBan ⊕ IpBan) BanOp (BanState T) where
  records := C.inFile
  holds := banHolds T
  print st := some (st.print J)
  apply := BanOp.apply T
  touches := BanOp.touches T
  mem_print st r := by rw [BanState.print, C.inFile_print, mem_banRecords_snapshotFile]
  keeps _ _ _ _ := BanOp.keeps
  idle := BanOp.idle

/-- A ban list without blank names, two bans of one name, or unreadable prefixes. -/
def BansFine (T : IpText) (f : BanListFile) : Prop :=
  ((∀ b ∈ f.characterBans, (Text.trim b.nameLc).isEmpty = false) ∧
    KeyedBy CharacterBan.nameLc f.characterBans) ∧
  ∀ b ∈ f.ipBans, (readCidr T b.cidr).isSome

theorem load_bans_eq (readOk : Bool) (file : Option Raw) :
    BanState.load J readOk file
      = (((if readOk then file else none).bind J.parse).map (BanState.ofFile T)).getD .empty := by
  unfold BanState.load BanState.reload
  cases file with
  | none => cases readOk <;> rfl
  | some raw => cases readOk <;> rfl

theorem bans_loaded_iff (readOk : Bool) (file : Option Raw) :
    (∀ r ∈ C.inFile file, banHolds T (BanState.load J readOk file) r) ↔
      FileFine C (BansFine T) readOk file := by
  have h := forall_inFile_iff C
    (P := fun f r => banHolds T ((f.map (BanState.ofFile T)).getD .empty) r) (F := BansFine T)
    ?_ ?_ readOk file
  · rw [load_bans_eq]
    exact h
  · rintro (b | b) hr
    · simp [banHolds, BanState.empty] at hr
    · simp [banHolds, BanState.empty] at hr
  · intro f
    have hchars := forall_lookup_foldl_iff CharacterBan.nameLc
      (fun b => !(Text.trim b.nameLc).isEmpty) BanState.loadChar
      (fun m b => by unfold BanState.loadChar; cases (Text.trim b.nameLc).isEmpty <;> rfl)
      f.characterBans
    simp only [Bool.not_eq_true'] at hchars
    rw [BansFine, ← hchars]
    simp only [Option.map_some, Option.getD_some]
    constructor
    · intro hall
      refine ⟨fun b hb => hall (.inl b) (inl_mem_banRecords.mpr hb), fun b hb => ?_⟩
      obtain ⟨e, he, heq⟩ := List.mem_map.mp (hall (.inr b) (inr_mem_banRecords.mpr hb))
      rw [← heq, (BanState.mem_loadIps.mp he).2]
      rfl
    · rintro ⟨hcharsAll, hips⟩ (b | b) hb
      · exact hcharsAll b (inl_mem_banRecords.mp hb)
      · have hb := inr_mem_banRecords.mp hb
        obtain ⟨pfx, hp⟩ := Option.isSome_iff_exists.mp (hips b hb)
        exact List.mem_map.mpr ⟨(pfx, b), BanState.mem_loadIps.mpr ⟨hb, hp⟩, rfl⟩

end Bans

end Broker

namespace Shard

/-! ## Player snapshots -/

section Players

variable {J : Codec Raw (List PlayerSnapshot)} (C : Codec.Contents J id)

/-- Snapshots, each under its own principal. -/
structure Players where
  table : Table Text PlayerSnapshot
  keyed : ∀ k s, table.lookup k = some s → s.principal = k

namespace Players

def insert (p : Players) (s : PlayerSnapshot) : Players where
  table := p.table.insert s.principal s
  keyed := by
    intro k s' h
    rw [Table.lookup_insert_eq] at h
    split at h
    · next hk => cases h; exact hk.symm
    · exact p.keyed k s' h

theorem lookup_insert (p : Players) (s : PlayerSnapshot) (k : Text) :
    (p.insert s).table.lookup k = if k = s.principal then some s else p.table.lookup k :=
  Table.lookup_insert_eq _ _ _ _

theorem table_foldl_insert (ss : List PlayerSnapshot) (p : Players) :
    (ss.foldl insert p).table = ss.foldl (fun m s => m.insert s.principal s) p.table := by
  induction ss generalizing p with
  | nil => rfl
  | cons s ss ih => exact ih (p.insert s)

/-- Principals that are not in the batch keep their snapshots. -/
theorem lookup_foldl_insert {ss : List PlayerSnapshot} {k : Text} (h : ∀ s ∈ ss, s.principal ≠ k)
    (p : Players) : (ss.foldl insert p).table.lookup k = p.table.lookup k := by
  induction ss generalizing p with
  | nil => rfl
  | cons s ss ih =>
    rw [List.foldl_cons, ih (fun s' hs' => h s' (List.mem_cons_of_mem _ hs')), lookup_insert,
      if_neg (Ne.symm (h s List.mem_cons_self))]

end Players

/-- Every save puts the snapshots of some characters in and writes the file: of one character, or
of all the live ones. -/
def playersStore : SavedStore (Option Raw) PlayerSnapshot (List PlayerSnapshot) Players where
  records := C.inFile
  holds p s := p.table.lookup s.principal = some s
  print p := some (J.print ((Table.values p.table).mergeSort PlayerSnapshot.le))
  apply p ss := some (ss.foldl Players.insert p)
  touches ss r := ∃ s ∈ ss, s.principal = r.principal
  mem_print p r := by
    rw [C.inFile_print, id, List.mem_mergeSort, Table.mem_values]
    constructor
    · rintro ⟨k, h⟩
      rw [p.keyed k r h]
      exact h
    · exact fun h => ⟨_, h⟩
  keeps p ss p' r h ht hr := by
    cases h
    rw [Players.lookup_foldl_insert (fun s hs heq => ht ⟨s, hs, heq⟩)]
    exact hr
  -- saving no character at all is enough to lose what is not in memory
  idle p r h := ⟨[], p, by simp, rfl, h⟩

/-- Snapshots without blank principals, one for each principal. -/
def PlayersFine (v : List PlayerSnapshot) : Prop :=
  (∀ s ∈ v, (Text.trim s.principal).isEmpty = false) ∧ KeyedBy PlayerSnapshot.principal v

theorem loadPlayerSnapshots_keyed (readOk : Bool) (file : Option Raw) (k : Text)
    (s : PlayerSnapshot) (h : (loadPlayerSnapshots J readOk file).lookup k = some s) :
    s.principal = k :=
  (loadPlayerSnapshots_spec h).1

/-- What the shard has in memory after loading. -/
def loadPlayers (J : Codec Raw (List PlayerSnapshot)) (readOk : Bool) (file : Option Raw) : Players :=
  ⟨loadPlayerSnapshots J readOk file, loadPlayerSnapshots_keyed readOk file⟩

theorem players_loaded_iff (readOk : Bool) (file : Option Raw) :
    (∀ s ∈ C.inFile file, (loadPlayers J readOk file).table.lookup s.principal = some s) ↔
      FileFine C PlayersFine readOk file := by
  have hload : (loadPlayers J readOk file).table =
      ((if readOk then file else none).bind J.parse).elim ∅ (List.foldl loadPlayerSnapshot ∅) := by
    show loadPlayerSnapshots J readOk file = _
    unfold loadPlayerSnapshots
    cases (if readOk then file else none).bind J.parse <;> rfl
  rw [hload]
  refine forall_inFile_iff C (P := fun v s =>
    (v.elim (∅ : Table Text PlayerSnapshot) (List.foldl loadPlayerSnapshot ∅)).lookup s.principal = some s) ?_ ?_ readOk file
  · intro s
    simp
  · intro v
    have h := forall_lookup_foldl_iff PlayerSnapshot.principal
      (fun s => !(Text.trim s.principal).isEmpty) loadPlayerSnapshot
      (fun m s => by unfold loadPlayerSnapshot; cases (Text.trim s.principal).isEmpty <;> rfl) v
    simp only [Bool.not_eq_true'] at h
    exact h

/-! The two ways the shard saves. -/

theorem rememberPlayer_step (w : World Raw) (p : Players) (hp : p.table = w.players) (saveOk : Bool)
    {c : Character} {s : PlayerSnapshot} (hs : PlayerSnapshot.fromCharacter c = some s) :
    let w' := w.rememberPlayer J saveOk c
    let x' := (playersStore C).step ⟨p, w.file⟩ ([s], saveOk)
    x'.mem.table = w'.players ∧ x'.file = w'.file := by
  simp only [World.rememberPlayer, hs, World.persistPlayerSnapshots, SavedStore.step, playersStore,
    List.foldl_cons, List.foldl_nil, Players.insert, hp]
  cases saveOk <;> exact ⟨rfl, rfl⟩

theorem persistLivePlayers_step (w : World Raw) (p : Players) (hp : p.table = w.players)
    (saveOk : Bool) :
    let w' := w.persistLivePlayers J saveOk
    let x' := (playersStore C).step ⟨p, w.file⟩
      ((Table.values w.chars).filterMap PlayerSnapshot.fromCharacter, saveOk)
    x'.mem.table = w'.players ∧ x'.file = w'.file := by
  simp only [World.persistLivePlayers, World.persistPlayerSnapshots, SavedStore.step, playersStore,
    Players.table_foldl_insert, hp]
  cases saveOk <;> exact ⟨rfl, rfl⟩

end Players

end Shard

/-! ## The three stores -/

section

open Broker Shard

variable {RawA RawB RawP : Type} {JA : Codec RawA (List AccountRec)} {JB : Codec RawB BanListFile}
  {JP : Codec RawP (List PlayerSnapshot)}

/-- **A store keeps what its file held exactly when it could read all of it.** No loader ever
fails: each of them returns a store for every file and every read error, and the saves that follow
write that store. So nothing is lost, whatever operations follow, if and only if the file was
readable, parsed, and had no record that the loader passes over or merges with another; a file
without records has nothing to lose. -/
theorem stores_never_lose_iff (CA : Codec.Contents JA id) (CB : Codec.Contents JB banRecords)
    (CP : Codec.Contents JP id) (T : Sbc.IpText) (readOk : Bool) (accounts : Option RawA)
    (bans : Option RawB) (players : Option RawP) :
    ((accountsStore CA).NeverLoses ⟨Accounts.load JA readOk accounts, accounts⟩ ↔
      FileFine CA (KeyedBy AccountRec.name) readOk accounts) ∧
    ((bansStore CB).NeverLoses ⟨BanState.load (T := T) JB readOk bans, bans⟩ ↔
      FileFine CB (BansFine T) readOk bans) ∧
    ((playersStore CP).NeverLoses ⟨loadPlayers JP readOk players, players⟩ ↔
      FileFine CP PlayersFine readOk players) := by
  refine ⟨?_, ?_, ?_⟩
  · rw [SavedStore.neverLoses_iff]
    exact accounts_loaded_iff CA readOk accounts
  · rw [SavedStore.neverLoses_iff]
    exact bans_loaded_iff CB readOk bans
  · rw [SavedStore.neverLoses_iff]
    exact players_loaded_iff CP readOk players

end

/-! Two damaged files, an operation on something else, and one save. -/

section

open Broker

def accountNamed (name : Text) : AccountRec where
  name
  pwHash := none
  googleSub := none
  googleEmail := none
  oidcSub := none
  oidcEmail := none
  caps := none
  email := none
  createdUnix := 0

/-- An account file that does not parse, and a ban file with a prefix that does not. -/
theorem damaged_files_overwritten :
    let alice := accountNamed "alice".toList
    let bob := accountNamed "bob".toList
    let A := accountsStore (Codec.Contents.ofMarked id)
    let accounts := some ([alice], false)
    let x := A.run ⟨Accounts.load (Codec.marked _) true accounts, accounts⟩ [(bob, true)]
    let typo : IpBan := ⟨"203.0.113.300".toList, 0, [], []⟩
    let B := bansStore (T := Sbc.IpText.plain) (Codec.Contents.ofMarked banRecords)
    let bans := some (⟨1, 0, [], [typo]⟩, true)
    let y := B.run ⟨BanState.load (Codec.marked _) true bans, bans⟩
      [(.upsertChar "mallory".toList 0 [] [], true)]
    (alice ∈ A.records accounts ∧ ¬ A.touches bob alice ∧ alice ∉ A.records x.file) ∧
    (.inr typo ∈ B.records bans ∧ ¬ B.touches (.upsertChar "mallory".toList 0 [] []) (.inr typo) ∧
      .inr typo ∉ B.records y.file) := by
  refine ⟨⟨?_, ?_, ?_⟩, ?_, id, ?_⟩
  · exact List.mem_singleton.mpr rfl
  · show "bob".toList ≠ "alice".toList
    decide
  · intro h
    have hmem := ((accountsStore (Codec.Contents.ofMarked id)).mem_print _ _).mp h
    revert hmem
    show ¬ Accounts.get _ _ = _
    decide
  · exact List.mem_singleton.mpr rfl
  · intro h
    have hmem := ((bansStore (Codec.Contents.ofMarked banRecords)).mem_print _ _).mp h
    revert hmem
    show ¬ _ ∈ List.map Prod.snd _
    decide

end

end Slopmud
