import Slopmud.Broker.Books
import Slopmud.Proof.LoginRuns

/-!
# One password on every way in

A password is set in four places and asked for in two. The two that talk to a telnet client drop the
white space around the line first, the others take the bytes as they are. So a password that a
space begins or ends opens its account only on the side where it was set.
-/

namespace Slopmud.Broker

open Slopmud.Sbc Slopmud.Shard Telnet

variable {Raw Auth : Type} {cfg : BrokerConfig Raw Auth}

/-! ## Text without a space at its ends -/

def IsPrintable (c : Char) : Prop := 32 ≤ c.toNat ∧ c.toNat < 127

instance (c : Char) : Decidable (IsPrintable c) := inferInstanceAs (Decidable (_ ∧ _))

/-- No space begins or ends the text. -/
structure NoOuterSpace (pw : Text) : Prop where
  first : pw.head? ≠ some ' '
  last : pw.getLast? ≠ some ' '

theorem trimAsciiWs_eq_self_iff {s : Bytes} : trimAsciiWs s = s ↔
    (∀ b ∈ s.head?, isAsciiWhitespace b = false) ∧ ∀ b ∈ s.getLast?, isAsciiWhitespace b = false := by
  have hdrop : ∀ t : Bytes, t.dropWhile isAsciiWhitespace = t ↔ ∀ b ∈ t.head?, isAsciiWhitespace b = false := by
    intro t
    cases t with
    | nil => simp
    | cons b t =>
      rw [List.dropWhile_eq_self_iff]
      simp
  have hend : ∀ t : Bytes, (t.reverse.dropWhile isAsciiWhitespace).reverse = t ↔
      ∀ b ∈ t.getLast?, isAsciiWhitespace b = false := by
    intro t
    rw [List.reverse_eq_iff, hdrop, List.head?_reverse]
  constructor
  · intro h
    have hlen : (trimAsciiWs s).length ≤ (s.dropWhile isAsciiWhitespace).length := by
      rw [trimAsciiWs, List.length_reverse]
      refine (List.dropWhile_suffix _).length_le.trans ?_
      rw [List.length_reverse]
    -- nothing is dropped in front, for nothing comes back
    have hfront : s.dropWhile isAsciiWhitespace = s := by
      rw [h] at hlen
      exact (List.dropWhile_suffix _).eq_of_length_le hlen
    refine ⟨(hdrop s).mp hfront, (hend s).mp ?_⟩
    rw [trimAsciiWs, hfront] at h
    exact h
  · rintro ⟨hfirst, hlast⟩
    rw [trimAsciiWs, (hdrop s).mpr hfirst]
    exact (hend s).mpr hlast

/-- A printable character is one byte. -/
theorem encode_printable {pw : Text} (h : ∀ c ∈ pw, IsPrintable c) :
    Utf8.encode pw = pw.map fun c => UInt8.ofNat c.toNat := by
  induction pw with
  | nil => rfl
  | cons c pw ih =>
    have hc : c.toNat < 0x80 := by
      have := (h c List.mem_cons_self).2
      omega
    have hone : Utf8.encodeChar c = [UInt8.ofNat c.toNat] := by simp [Utf8.encodeChar, hc]
    have hrest := ih fun d hd => h d (List.mem_cons_of_mem _ hd)
    rw [Utf8.encode, List.flatMap_cons, hone, List.map_cons, ← hrest]
    rfl

theorem isAsciiWhitespace_printable {c : Char} (h : IsPrintable c) :
    isAsciiWhitespace (UInt8.ofNat c.toNat) = false ↔ c ≠ ' ' := by
  have hval : (UInt8.ofNat c.toNat).toNat = c.toNat := by
    have := h.2
    rw [UInt8.toNat_ofNat']
    omega
  have hspace : c = ' ' ↔ c.toNat = 32 := ⟨fun hc => hc ▸ rfl, fun hc => Char.ext (UInt32.toNat_inj.mp hc)⟩
  have hlow := h.1
  simp only [isAsciiWhitespace, decide_eq_false_iff_not, ← UInt8.toNat_inj, hval, ne_eq, hspace]
  constructor
  · intro hno hc
    exact hno (.inl hc)
  · intro hc hws
    rcases hws with h₁ | h₁ | h₁ | h₁ | h₁
    · exact hc h₁
    all_goals
      simp at h₁
      omega

theorem trimAsciiWs_printable {pw : Text} (h : ∀ c ∈ pw, IsPrintable c) :
    trimAsciiWs (Utf8.encode pw) = Utf8.encode pw ↔ NoOuterSpace pw := by
  have hbytes : ∀ o : Option Char, (∀ c ∈ o, IsPrintable c) →
      ((∀ b ∈ o.map fun c => UInt8.ofNat c.toNat, isAsciiWhitespace b = false) ↔ o ≠ some ' ') := by
    intro o ho
    cases o with
    | none => simp
    | some c =>
      have hc := isAsciiWhitespace_printable (ho c rfl)
      simpa using hc
  have hfirst := hbytes pw.head? fun c hc => h c (List.mem_of_mem_head? hc)
  have hlast := hbytes pw.getLast? fun c hc => h c (List.mem_of_mem_getLast? hc)
  rw [trimAsciiWs_eq_self_iff, encode_printable h, List.head?_map, List.getLast?_map, hfirst, hlast]
  exact ⟨fun hpw => ⟨hpw.1, hpw.2⟩, fun hpw => ⟨hpw.first, hpw.last⟩⟩

theorem values_tagged (src : Source) (bs : Bytes) : values (tagged src bs) = bs := by
  rw [values, tagged, List.map_map]
  exact List.map_id _

/-! ## Setting a password -/

inductive PasswordWriter where
  /-- `NeedPasswordCreate` -/
  | telnet
  /-- `WEB_AUTH` with `create` and `password` -/
  | webAuth
  | createAccountPassword
  | setAccountPassword
deriving DecidableEq, Repr

/-- What of the password is hashed. -/
def PasswordWriter.hashed : PasswordWriter → Bytes → Bytes
  | .telnet, pw => trimAsciiWs pw
  | _, pw => pw

/-- The hash that the accounts have for a name. -/
def Accounts.hashOf (a : Accounts) (n : Text) : Option Text := (a.get n).bind AccountRec.pwHash

/-- `pw` was accepted as the password of the account `n`, which has the hash then. -/
def Sets (cfg : BrokerConfig Raw Auth) (n pw hash : Text) : PasswordWriter → Prop
  | .telnet => ∃ (k : ConnId) (line : List Byte) (c c' : Conn Auth) (es : List Env)
      (s s' : Shared cfg.ip Raw Auth) (flow : Flow Auth), c.name = some n ∧ c.state = .needPasswordCreate
      ∧ values line = Utf8.encode pw
      ∧ (Handler.handleLine cfg k line c).run (Shared.effect cfg) es s = some (flow, s')
      ∧ flow.login? = some c' ∧ s'.acct.store.hashOf n = some hash
  | .webAuth => ∃ (k : ConnId) (req : WebAuthReq) (c c' : Conn Auth) (es : List Env)
      (s s' : Shared cfg.ip Raw Auth) (res : Handler.WebAuth Auth), req.password = some pw
      ∧ (Handler.webAuthAs cfg k "create".toList "password".toList req n c).run (Shared.effect cfg) es s
        = some (res, s')
      ∧ res.login? = some c' ∧ s'.acct.store.hashOf n = some hash
  | .createAccountPassword => ∃ (a a' : Accounts) (name : Text) (caps : Option (List Text)) (salt now : Nat)
      (ok : Answer), sanitizeName name = n
      ∧ a.createAccountPassword name pw caps (cfg.hashPassword salt (Utf8.encode pw)) now = .save a' ok .error
      ∧ a'.hashOf n = some hash
  | .setAccountPassword => ∃ (a a' : Accounts) (name : Text) (salt : Nat) (ok : Answer),
      sanitizeName name = n
      ∧ a.setAccountPassword name pw (cfg.hashPassword salt (Utf8.encode pw)) = .save a' ok .error
      ∧ a'.hashOf n = some hash

/-- The requests about a password go on only with a hash. -/
theorem withPassword_save {name pw : Text} {hash : Option Text} {f : Text → Text → Outcome Accounts Answer}
    {a' : Accounts} {ok : Answer} (h : Accounts.withPassword name pw hash f = .save a' ok .error) :
    ∃ hash', hash = some hash' ∧ f (sanitizeName name) hash' = .save a' ok .error := by
  dsimp only [Accounts.withPassword] at h
  split at h
  · cases h
  · split at h
    · cases h
    · cases hash with
      | none => cases h
      | some hash' => exact ⟨hash', rfl, h⟩

theorem hashOf_insert {a : Accounts} {r : AccountRec} : (a.insert r).hashOf r.name = r.pwHash := by
  rw [Accounts.hashOf, Accounts.get_insert, if_pos rfl, Option.bind_some]

/-- **A password is hashed** as it came, or as telnet trims it. -/
theorem Sets.hashed {n pw hash : Text} {w : PasswordWriter} (h : Sets cfg n pw hash w) :
    ∃ salt, cfg.hashPassword salt (w.hashed (Utf8.encode pw)) = some hash := by
  cases w with
  | telnet =>
    obtain ⟨k, line, c, c', es, s, s', flow, hname, hstate, hline, hrun, hlogin, hhash⟩ := h
    rw [Handler.handleLine, hstate] at hrun
    obtain ⟨⟨salt, hash', r, hset, hr, hrhash⟩, -⟩ := Handler.needPasswordCreate_spec hstate hrun hlogin
    rw [hname, Option.getD_some] at hr
    rw [Accounts.hashOf, hr, Option.bind_some, hrhash] at hhash
    cases hhash
    exact ⟨salt, hline ▸ hset⟩
  | webAuth =>
    obtain ⟨k, req, c, c', es, s, s', res, hreq, hrun, hlogin, hhash⟩ := h
    obtain ⟨salt, hash', r, hset, hr, hrhash⟩ := Handler.webAuthAs_create_spec hrun hlogin
    rw [Accounts.hashOf, hr, Option.bind_some, hrhash] at hhash
    cases hhash
    rw [hreq, Option.getD_some] at hset
    exact ⟨salt, hset⟩
  | createAccountPassword =>
    obtain ⟨a, a', name, caps, salt, now, ok, rfl, hsave, hhash⟩ := h
    obtain ⟨hash', hset, hsave⟩ := withPassword_save hsave
    dsimp only at hsave
    split at hsave
    · cases hsave
    · cases hsave
      cases hashOf_insert.symm.trans hhash
      exact ⟨salt, hset⟩
  | setAccountPassword =>
    obtain ⟨a, a', name, salt, ok, rfl, hsave, hhash⟩ := h
    obtain ⟨hash', hset, hsave⟩ := withPassword_save hsave
    dsimp only at hsave
    split at hsave
    · cases hsave
    · next r hr =>
      cases hsave
      have hname : r.name = sanitizeName name := Accounts.get_name hr
      rw [← hname] at hhash
      cases (hashOf_insert (r := { r with pwHash := some hash' })).symm.trans hhash
      exact ⟨salt, hset⟩

/-! ## Asking for a password -/

/-- A password that is presented at a login. -/
inductive Presented (Auth : Type) where
  /-- `NeedPasswordLogin` -/
  | telnet (k : ConnId) (line : List Byte) (c : Conn Auth)
  /-- `WEB_AUTH` with `login` and `password` -/
  | webAuth (k : ConnId) (req : WebAuthReq) (c : Conn Auth)

namespace Presented

/-- It is `pw`, for the account `n`. -/
def Is (n pw : Text) : Presented Auth → Prop
  | .telnet _ line c => c.name = some n ∧ c.state = .needPasswordLogin ∧ values line = Utf8.encode pw
  | .webAuth _ req _ => req.password = some pw

def isTelnet : Presented Auth → Bool
  | .telnet _ _ _ => true
  | .webAuth _ _ _ => false

/-- What of it is compared with the hash. -/
def compared (p : Presented Auth) (pw : Bytes) : Bytes :=
  match p with
  | .telnet _ _ _ => trimAsciiWs pw
  | .webAuth _ _ _ => pw

/-- The login succeeds: it can be run to its end, and every end is a login. The telnet login is not to
be rate limited, and the files of the event log can be opened. -/
def Opens (cfg : BrokerConfig Raw Auth) (n : Text) (s : Shared cfg.ip Raw Auth) : Presented Auth → Prop
  | .telnet k line c =>
    let login := (Handler.handleLine cfg k line c).run (Shared.effect cfg)
    (∃ es flow s', (∀ e ∈ es, e.nanos = 0 ∧ e.logOk = true) ∧ login es s = some (flow, s'))
      ∧ ∀ es flow s', (∀ e ∈ es, e.nanos = 0 ∧ e.logOk = true) → login es s = some (flow, s') →
        flow.login?.isSome
  | .webAuth k req c =>
    let login := (Handler.webAuthAs cfg k "login".toList "password".toList req n c).run (Shared.effect cfg)
    (∃ es res s', login es s = some (res, s'))
      ∧ ∀ es res s', login es s = some (res, s') → res.login?.isSome

/-- **A login succeeds** as the password, or what telnet leaves of it, verifies. -/
theorem opens_iff {n pw hash : Text} {s : Shared cfg.ip Raw Auth} (hs : s.acct.store.hashOf n = some hash)
    {p : Presented Auth} (hp : p.Is n pw) :
    p.Opens cfg n s ↔ cfg.verifyPassword (p.compared (Utf8.encode pw)) hash = true := by
  obtain ⟨r, hr, hhash⟩ := Option.bind_eq_some_iff.mp hs
  cases p with
  | telnet k line c =>
    obtain ⟨hname, hstate, hline⟩ := hp
    have hr' : s.acct.store.get (c.name.getD []) = some r := by rw [hname, Option.getD_some, hr]
    rw [Opens, Handler.handleLine, hstate, compared, ← hline]
    constructor
    · rintro ⟨⟨es, flow, s', hes, hrun⟩, hall⟩
      have hlogin := hall es flow s' hes hrun
      rcases Handler.needPasswordLogin_spec hstate hrun with ⟨r', hash', c', hget, hhash', hverify, -⟩ | ⟨hno, -⟩
      · cases hr'.symm.trans hget
        cases hhash.symm.trans hhash'
        exact hverify
      · rw [hno] at hlogin
        cases hlogin
    · intro hverify
      refine ⟨Handler.needPasswordLogin_runs hr' hhash hverify, fun es flow s' hes hrun => ?_⟩
      rcases Handler.needPasswordLogin_spec hstate hrun with ⟨-, -, c', -, -, -, hlogin, -⟩ | ⟨-, hno⟩
      · rw [hlogin]
        rfl
      · rw [hno hes r hash hr' hhash] at hverify
        cases hverify
  | webAuth k req c =>
    have hpw : Utf8.encode (req.password.getD []) = Utf8.encode pw := by
      rw [show req.password = some pw from hp, Option.getD_some]
    rw [Opens, compared, ← hpw]
    constructor
    · rintro ⟨⟨es, res, s', hrun⟩, hall⟩
      have hlogin := hall es res s' hrun
      rcases Handler.webAuthAs_login_spec hrun with ⟨r', hash', c', hget, hhash', hverify, -⟩ | ⟨hno, -⟩
      · cases hr.symm.trans hget
        cases hhash.symm.trans hhash'
        exact hverify
      · rw [hno] at hlogin
        cases hlogin
    · intro hverify
      refine ⟨Handler.webAuthAs_login_runs hr hhash hverify, fun es res s' hrun => ?_⟩
      rcases Handler.webAuthAs_login_spec hrun with ⟨-, -, c', -, -, -, hlogin, -⟩ | ⟨-, hno⟩
      · rw [hlogin]
        rfl
      · rw [hno r hash hr hhash] at hverify
        cases hverify

end Presented

/-! ## Four writers and two readers -/

/-- Each side opens what was set on it. The other opens only what no space begins or ends. -/
theorem opens_iff_noOuterSpace
    (hargon : ∀ salt pw hash, cfg.hashPassword salt pw = some hash →
      ∀ pw', cfg.verifyPassword pw' hash = true ↔ pw' = pw)
    {n pw hash : Text} {w : PasswordWriter} (hpw : ∀ c ∈ pw, IsPrintable c) (hset : Sets cfg n pw hash w)
    {s : Shared cfg.ip Raw Auth} (hs : s.acct.store.hashOf n = some hash) {p : Presented Auth}
    (hp : p.Is n pw) :
    p.Opens cfg n s ↔ (w = .telnet ↔ p.isTelnet = true) ∨ NoOuterSpace pw := by
  obtain ⟨salt, hhash⟩ := hset.hashed
  have htrim := trimAsciiWs_printable hpw
  have htrim' : Utf8.encode pw = trimAsciiWs (Utf8.encode pw) ↔ NoOuterSpace pw := eq_comm.trans htrim
  rw [Presented.opens_iff hs hp, hargon salt _ hash hhash]
  cases p with
  | telnet k line c =>
    cases w with
    | telnet => simp [Presented.compared, PasswordWriter.hashed, Presented.isTelnet]
    | webAuth => simp [Presented.compared, PasswordWriter.hashed, Presented.isTelnet, htrim]
    | createAccountPassword => simp [Presented.compared, PasswordWriter.hashed, Presented.isTelnet, htrim]
    | setAccountPassword => simp [Presented.compared, PasswordWriter.hashed, Presented.isTelnet, htrim]
  | webAuth k req c =>
    cases w with
    | telnet => simp [Presented.compared, PasswordWriter.hashed, Presented.isTelnet, htrim']
    | webAuth => simp [Presented.compared, PasswordWriter.hashed, Presented.isTelnet]
    | createAccountPassword => simp [Presented.compared, PasswordWriter.hashed, Presented.isTelnet]
    | setAccountPassword => simp [Presented.compared, PasswordWriter.hashed, Presented.isTelnet]

/-- **A password opens its account on both sides** just when no space begins or ends it. -/
theorem passwords_open_both_iff
    (hargon : ∀ salt pw hash, cfg.hashPassword salt pw = some hash →
      ∀ pw', cfg.verifyPassword pw' hash = true ↔ pw' = pw)
    {n pw hash : Text} {w : PasswordWriter} (hpw : ∀ c ∈ pw, IsPrintable c) (hset : Sets cfg n pw hash w)
    {s : Shared cfg.ip Raw Auth} (hs : s.acct.store.hashOf n = some hash) :
    (∀ p : Presented Auth, p.Is n pw → p.Opens cfg n s) ↔ NoOuterSpace pw := by
  have hopens : ∀ p : Presented Auth, p.Is n pw →
      (p.Opens cfg n s ↔ (w = .telnet ↔ p.isTelnet = true) ∨ NoOuterSpace pw) :=
    fun p => opens_iff_noOuterSpace hargon hpw hset hs
  constructor
  · intro hall
    let c : Conn Auth := { Conn.new (.v4 0) 0 with name := some n, state := .needPasswordLogin }
    let line := tagged .client (Utf8.encode pw)
    have htelnet : (Presented.telnet 0 line c).Is n pw := ⟨rfl, rfl, values_tagged _ _⟩
    let req : WebAuthReq := ⟨[], [], [], some pw, none, none, none, none, none⟩
    have hweb : (Presented.webAuth 0 req c).Is n pw := rfl
    -- one of the two is not the side that the password was set on
    by_cases hw : w = .telnet
    · rcases (hopens _ hweb).mp (hall _ hweb) with hside | hpw
      · cases hside.mp hw
      · exact hpw
    · rcases (hopens _ htelnet).mp (hall _ htelnet) with hside | hpw
      · exact absurd (hside.mpr rfl) hw
      · exact hpw
  · exact fun hno p hp => (hopens p hp).mpr (.inr hno)

/-! ## Alice's password -/

theorem ofNat_byte_inj {a b : UInt8} (h : Char.ofNat a.toNat = Char.ofNat b.toNat) : a = b := by
  have hval : ∀ x : UInt8, (Char.ofNat x.toNat).toNat = x.toNat := by
    intro x
    have hx := x.toNat_lt
    have hvalid : x.toNat.isValidChar := .inl (by omega)
    rw [Char.ofNat, dif_pos hvalid]
    rfl
  rw [← UInt8.toNat_inj, ← hval a, h, hval b]

/-- Only the same bytes verify. -/
theorem plainHash_verifies : ∀ salt pw hash, BrokerConfig.plain.hashPassword salt pw = some hash →
    ∀ pw', BrokerConfig.plain.verifyPassword pw' hash = true ↔ pw' = pw := by
  intro salt pw hash h pw'
  cases h
  have hdigits : ∀ c ∈ Nat.toDigits 10 salt, decide (c ≠ '$') = true := by
    intro c hc
    have hdigit := Nat.isDigit_of_mem_toDigits (b := 10) (by omega) (by omega) hc
    rw [decide_eq_true_iff]
    rintro rfl
    cases hdigit
  have hhash : ((plainHash salt pw).dropWhile (· ≠ '$')).tail = pw.map fun b => Char.ofNat b.toNat := by
    rw [plainHash, List.dropWhile_append_of_pos hdigits]
    rfl
  have hinj : Function.Injective fun b : UInt8 => Char.ofNat b.toNat := fun _ _ => ofNat_byte_inj
  simp only [BrokerConfig.plain, hhash, beq_iff_eq]
  exact ⟨fun heq => (hinj.list_map heq).symm, fun heq => congrArg _ heq.symm⟩

/-- The admin creates Alice's account with a password. -/
def aliceWith (pw : Text) : Accounts :=
  Accounts.empty.insert (.withPassword "alice".toList (plainHash 7 (Utf8.encode pw)) none 0)

theorem alice_sets {pw : Text} (hlen : ¬ Text.byteLen pw < 8) :
    Sets BrokerConfig.plain "alice".toList pw (plainHash 7 (Utf8.encode pw)) .createAccountPassword := by
  have hname : sanitizeName "alice".toList = "alice".toList := by decide
  refine ⟨Accounts.empty, aliceWith pw, "alice".toList, none, 7, 0,
    .admin (.okAccount "alice".toList true []), hname, ?_, ?_⟩
  · dsimp only [Accounts.createAccountPassword, Accounts.withPassword]
    rw [hname, if_neg (by decide), if_neg hlen]
    rfl
  · exact hashOf_insert

theorem printable_of_all {pw : Text} (h : pw.all (fun c => decide (IsPrintable c)) = true) :
    ∀ c ∈ pw, IsPrintable c :=
  fun c hc => of_decide_eq_true (List.all_eq_true.mp h c hc)

theorem alice_hashOf (pw : Text) :
    (Shared.idle (aliceWith pw)).acct.store.hashOf "alice".toList = some (plainHash 7 (Utf8.encode pw)) :=
  hashOf_insert

theorem passwords_open_both_alice : NoOuterSpace "correct horse".toList
    ∧ ∀ p : Presented (Option AuthBlob), p.Is "alice".toList "correct horse".toList →
      p.Opens BrokerConfig.plain "alice".toList (Shared.idle (aliceWith "correct horse".toList)) := by
  have hno : NoOuterSpace "correct horse".toList := ⟨by decide, by decide⟩
  refine ⟨hno, ?_⟩
  exact (@passwords_open_both_iff _ _ .plain plainHash_verifies _ _ _ _ (printable_of_all (by decide))
    (alice_sets (by decide)) _ (alice_hashOf _)).mpr hno

/-- A password that ends with a space is accepted for the account, and refused by telnet. -/
theorem password_refused_by_telnet :
    ∃ (pw hash : Text) (p : Presented (Option AuthBlob)), (∀ c ∈ pw, IsPrintable c)
      ∧ Sets BrokerConfig.plain "alice".toList pw hash .createAccountPassword
      ∧ (Shared.idle (aliceWith pw)).acct.store.hashOf "alice".toList = some hash
      ∧ p.Is "alice".toList pw
      ∧ ¬ p.Opens BrokerConfig.plain "alice".toList (Shared.idle (aliceWith pw)) := by
  let pw : Text := "password ".toList
  let c : Conn (Option AuthBlob) :=
    { Conn.new (.v4 0) 0 with name := some "alice".toList, state := .needPasswordLogin }
  let p : Presented (Option AuthBlob) := .telnet 0 (tagged .client (Utf8.encode pw)) c
  have hp : p.Is "alice".toList pw := ⟨rfl, rfl, values_tagged _ _⟩
  refine ⟨pw, _, p, printable_of_all (by decide), alice_sets (by decide), alice_hashOf pw, hp, ?_⟩
  rw [@Presented.opens_iff _ _ .plain _ _ _ _ (alice_hashOf pw) _ hp]
  decide

end Slopmud.Broker
