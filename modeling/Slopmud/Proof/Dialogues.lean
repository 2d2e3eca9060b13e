import Slopmud.Lib.Dialogue
import Slopmud.Proof.Cleanup

/-!
# The dialogue of a connection

A session is listed, and its character attached, at the end of a dialogue of many
lines, and the handler of the connection keeps in local variables what came out of
it. Here the dialogue itself is the evidence: the sections that one connection went
through, with the answers. `Admitted` says what it must hold before the session is
listed, `Asks` when it is the turn of a section, `Conn.Grounded` and `Conn.AtState`
what the local variables stand for between two lines.
-/

namespace Slopmud.Broker

open Slopmud.Sbc Slopmud.Shard Machine Program Telnet

/-- What a task of the broker asked for and was answered, the first exchange first. -/
abbrev Dialogue (Auth : Type) := List (Exchange (Section Auth) Section.R)

variable {Raw Auth : Type}

/-! ## What a dialogue shows -/

/-- The section was run, and this was the answer. -/
def Answered (d : Dialogue Auth) (o : Section Auth) (r : o.R) : Prop := ⟨o, r⟩ ∈ d

namespace Dialogue

def readOf : Exchange (Section Auth) Section.R → List Byte
  | ⟨.recv _, .data chunk⟩ => chunk
  | _ => []

/-- All bytes that were read. -/
def reads (d : Dialogue Auth) : List Byte := d.flatMap readOf

/-- What the peer typed: the bytes that were read, without telnet commands. -/
def typed (d : Dialogue Auth) : List Byte := IacParser.data.dataOf (reads d)

def sentTo : Exchange (Section Auth) Section.R → Option (ShardMsg Auth)
  | ⟨.shard (.send _ msg), _⟩ => some msg
  | _ => none

/-- What was sent to the manager. -/
def messages (d : Dialogue Auth) : List (ShardMsg Auth) := d.filterMap sentTo

def listedAs : Exchange (Section Auth) Section.R → Option (SessionInfo Auth)
  | ⟨.sess (.insert _ info _), _⟩ => some info
  | _ => none

/-- The sessions that were listed. -/
def listings (d : Dialogue Auth) : List (SessionInfo Auth) := d.filterMap listedAs

variable (d : Dialogue Auth) (x : Exchange (Section Auth) Section.R)

theorem reads_concat : reads (d ++ [x]) = reads d ++ readOf x := by simp [reads]

theorem messages_concat : messages (d ++ [x]) = messages d ++ (sentTo x).toList := by
  rw [messages, List.filterMap_append]
  cases h : sentTo x <;> simp [messages, h]

theorem listings_concat : listings (d ++ [x]) = listings d ++ (listedAs x).toList := by
  rw [listings, List.filterMap_append]
  cases h : listedAs x <;> simp [listings, h]

end Dialogue

open Dialogue

/-- The peer typed this, among other things. -/
def Typed (d : Dialogue Auth) (bs : Bytes) : Prop := bs <:+: values (typed d)

/-! ## Evidence -/

section

variable (cfg : BrokerConfig Raw Auth) (k : ConnId) (d : Dialogue Auth)

/-- The connection comes from this host, so that its peer may speak for others. -/
def FromHere : Prop :=
  ∃ ip port, Answered d (.io (.accept k)) (ip, port) ∧ ip.isLoopback = true

/-- The address that the connection stands for: its own, or one that a `PROXY` line gave. -/
inductive SpeaksFor (ip : IpAddr) : Prop where
  | itself (port : Nat) (h : Answered d (.io (.accept k)) (ip, port))
  | announced (line : List Byte) (port : Nat) (hfrom : FromHere k d) (htyped : Typed d (values line))
      (h : parseProxyLineV1 cfg.ip (Handler.trimmed line) = some (ip, port))

/-- The peer is trusted and typed this `WEB_AUTH` line. -/
structure Requested (req : WebAuthReq) : Prop where
  fromHere : FromHere k d
  line : ∃ line rest, Typed d (values line)
    ∧ Text.stripPrefix "WEB_AUTH ".toList (Handler.trimmed line) = some rest ∧ cfg.parseWebAuth rest = some req

/-- A password that came by this connection: a line of it, or a field of a `WEB_AUTH` request. -/
inductive Supplied (pw : Bytes) : Prop where
  | typed (h : Typed d pw)
  | requested (req : WebAuthReq) (h : Requested cfg k d req) (hpw : pw = Utf8.encode (req.password.getD []))

/-- An identity that came by this connection: with a `WEB_AUTH` request, or as the outcome of a Google
login that this connection began. -/
inductive Vouched : Provider → Text → Prop where
  | requested (p : Provider) (req : WebAuthReq) (h : Requested cfg k d req) :
      Vouched p (Text.trim ((req.sub p).getD []))
  | signedIn (code sub : Text) (pending : GoogleOAuthPending)
      (hstart : Answered d (.io (.startOauth k)) (some code))
      (hread : Answered d (.io (.readOauth code)) (.found pending))
      (hok : pending.status = "ok".toList) (hsub : pending.googleSub = some sub) : Vouched .google sub

/-- The connection found that there is no such account. -/
def Absent (n : Text) : Prop :=
  Answered d (.acct (.contains k n)) false ∨ Answered d (.acct (.lookup k n)) none

/-- Where a name comes from that the connection goes on with: it is as `sanitize_name` leaves it, or
that of an account to which the identity is linked. -/
inductive NameGiven (n : Text) : Prop where
  | sanitized (h : IsName n)
  | linked (p : Provider) (sub : Text) (names : List Text)
      (h : Answered d (.acct (.linkedNames p sub)) names) (hmem : n ∈ names)

/-- What entitles to an account name, with the auth blob that goes to the shard. -/
inductive Credential (n : Text) : Auth → Prop where
  /-- The account has a password, and this is it. -/
  | password (r : AccountRec) (hash : Text) (pw : Bytes) (hr : Answered d (.acct (.lookup k n)) (some r))
      (hhash : r.pwHash = some hash) (hverify : cfg.verifyPassword pw hash = true)
      (hpw : Supplied cfg k d pw) : Credential n (cfg.auth.print (passwordBlob n r.caps))
  /-- The account was created here, with a password. -/
  | newPassword (pw : Bytes) (hash : Text) (now : Nat) (caps : Option (List Text))
      (hpw : Supplied cfg k d pw) (hhash : Answered d (.ask (.hashPassword pw)) (some hash))
      (habsent : Absent k d n)
      (hnew : Answered d (.acct (.insertRec k (.withPassword n hash none now))) true) :
      Credential n (cfg.auth.print (passwordBlob n caps))
  /-- The account is linked to the identity. -/
  | linked (p : Provider) (r : AccountRec) (sub : Text) (email : Option Text) (caps : Option (List Text))
      (hr : Answered d (.acct (.lookup k n)) (some r)) (hlinked : r.sub p = some sub)
      (hsub : Vouched cfg k d p sub) : Credential n (cfg.auth.print (providerBlob p n sub email caps))
  /-- The account was created here, for the identity. -/
  | newLink (p : Provider) (sub : Text) (email : Option Text) (caps : Option (List Text)) (now : Nat)
      (hsub : Vouched cfg k d p sub) (habsent : Absent k d n)
      (hnew : Answered d (.acct (.insertRec k (.linked p n sub email now))) true) :
      Credential n (cfg.auth.print (providerBlob p n sub email caps))
  /-- The account was bound to the identity, or had been. -/
  | bound (sub : Text) (email : Option Text) (now : Nat) (hsub : Vouched cfg k d .google sub)
      (hbound : Answered d (.acct (.bindGoogle (.linked .google n sub email now))) (.bound true)) :
      Credential n (cfg.auth.print (providerBlob .google n sub email none))

/-- A session may be listed like this. -/
structure Admitted (info : SessionInfo Auth) : Prop where
  address : SpeaksFor cfg k d info.peerIp
  ipAllowed : Answered d (.ban (.isIpBanned k info.peerIp)) none
  nameAllowed : Answered d (.ban (.isCharBanned k info.name)) none
  credential : ∃ blob, info.auth = some blob ∧ Credential cfg k d info.name blob

/-! ## When a connection may name a section -/

/-- The connection has not entered the world. -/
def NotEntered : Prop := listings d = [] ∧ messages d = []

/-- The session is attached as it is listed, and all since then was input. -/
def Entered : Prop :=
  ∃ (info : SessionInfo Auth) (lines : List Text), listings d = [info]
    ∧ messages d = .attach (attachBody cfg.authLen k info) :: lines.map (ShardMsg.input k)

def Asks : Section Auth → Prop
  | .sess (.insert k' info _) => k' = k ∧ NotEntered d ∧ Admitted cfg k d info
  | .sess (.remove k') => k' = k ∧ (NotEntered d ∨ Entered cfg k d)
  | .shard (.send k' (.attach r)) =>
    k' = k ∧ messages d = [] ∧ ∃ info, listings d = [info] ∧ r = attachBody cfg.authLen k info
  | .shard (.send k' (.input s _)) => k' = k ∧ s = k ∧ Entered cfg k d
  | .shard (.send k' (.detach s)) =>
    k' = k ∧ s = k ∧ (NotEntered d ∨ Entered cfg k d) ∧ ∃ info, Answered d (.sess (.remove k)) (some info)
  | .recv k' => k' = k
  | .ban (.isCharBanned _ n) => NameGiven d n
  | .acct (.insertRec _ r) => Answered d (.ban (.isCharBanned k r.name)) none
  | .acct (.bindGoogle r) => Answered d (.ban (.isCharBanned k r.name)) none
  | _ => True

end

variable {cfg : BrokerConfig Raw Auth} {k : ConnId} {d d' d'' : Dialogue Auth}

/-! ## Dialogues that go on -/

/-- `d'` goes on from `d`. -/
structure Grows (d d' : Dialogue Auth) : Prop where
  kept : ∀ x ∈ d, x ∈ d'
  typed : typed d <+: typed d'

/-- Nothing was read meanwhile. -/
structure Later (d d' : Dialogue Auth) : Prop where
  kept : ∀ x ∈ d, x ∈ d'
  reads : reads d' = reads d

/-- Nor was anything listed, or sent to the manager. -/
structure Silent (d d' : Dialogue Auth) : Prop extends Later d d' where
  messages : messages d' = messages d
  listings : listings d' = listings d

/-- The sections after which a dialogue is silently longer. -/
def Section.silent : Section Auth → Bool
  | .sess (.insert _ _ _) => false
  | .sess (.remove _) => false
  | .shard (.send _ _) => false
  | .recv _ => false
  | _ => true

/-- And those that a connection may name at any time. -/
def Section.free : Section Auth → Bool
  | .ban (.isCharBanned _ _) => false
  | .acct (.insertRec _ _) => false
  | .acct (.bindGoogle _) => false
  | o => o.silent

theorem Later.typed_eq (h : Later d d') : typed d' = typed d := congrArg IacParser.data.dataOf h.reads

theorem Later.grows (h : Later d d') : Grows d d' :=
  ⟨h.kept, h.typed_eq ▸ List.prefix_refl _⟩

theorem Later.trans (h : Later d d') (h' : Later d' d'') : Later d d'' :=
  ⟨fun x hx => h'.kept x (h.kept x hx), h'.reads.trans h.reads⟩

theorem Silent.refl (d : Dialogue Auth) : Silent d d := ⟨⟨fun _ hx => hx, rfl⟩, rfl, rfl⟩

theorem Silent.trans (h : Silent d d') (h' : Silent d' d'') : Silent d d'' :=
  ⟨h.toLater.trans h'.toLater, h'.messages.trans h.messages, h'.listings.trans h.listings⟩

theorem Silent.grows (h : Silent d d') : Grows d d' := h.toLater.grows

theorem answered_append (d : Dialogue Auth) (o : Section Auth) (r : o.R) : Answered (d ++ [⟨o, r⟩]) o r :=
  List.mem_append_right d List.mem_cons_self

/-- What one more exchange adds. -/
theorem silent_append {o : Section Auth} (ho : o.silent = true) (r : o.R) : Silent d (d ++ [⟨o, r⟩]) := by
  have hreads : readOf ⟨o, r⟩ = [] := by
    cases o with
    | recv k' => cases ho
    | _ => rfl
  have hsent : sentTo ⟨o, r⟩ = none := by
    cases o with
    | shard o =>
      cases o with
      | send k' msg => cases ho
      | _ => rfl
    | _ => rfl
  have hlisted : listedAs ⟨o, r⟩ = none := by
    cases o with
    | sess o =>
      cases o with
      | insert k' info skipped => cases ho
      | _ => rfl
    | _ => rfl
  refine ⟨⟨fun x hx => List.mem_append_left _ hx, ?_⟩, ?_, ?_⟩
  · rw [reads_concat, hreads, List.append_nil]
  · rw [messages_concat, hsent]
    simp
  · rw [listings_concat, hlisted]
    simp

theorem Answered.grows {o : Section Auth} {r : o.R} (h : Answered d o r) (hg : Grows d d') :
    Answered d' o r := hg.kept _ h

theorem Typed.grows {bs : Bytes} (h : Typed d bs) (hg : Grows d d') : Typed d' bs :=
  h.trans (hg.typed.map Byte.val).isInfix

theorem FromHere.grows (h : FromHere k d) (hg : Grows d d') : FromHere k d' := by
  obtain ⟨ip, port, haccept, hloop⟩ := h
  exact ⟨ip, port, haccept.grows hg, hloop⟩

theorem SpeaksFor.grows {ip : IpAddr} (h : SpeaksFor cfg k d ip) (hg : Grows d d') : SpeaksFor cfg k d' ip := by
  cases h with
  | itself port h => exact .itself port (h.grows hg)
  | announced line port hfrom htyped h => exact .announced line port (hfrom.grows hg) (htyped.grows hg) h

theorem Requested.grows {req : WebAuthReq} (h : Requested cfg k d req) (hg : Grows d d') :
    Requested cfg k d' req := by
  obtain ⟨line, rest, htyped, hline⟩ := h.line
  exact ⟨h.fromHere.grows hg, line, rest, htyped.grows hg, hline⟩

theorem Supplied.grows {pw : Bytes} (h : Supplied cfg k d pw) (hg : Grows d d') : Supplied cfg k d' pw := by
  cases h with
  | typed h => exact .typed (h.grows hg)
  | requested req h hpw => exact .requested req (h.grows hg) hpw

theorem Vouched.grows {p : Provider} {sub : Text} (h : Vouched cfg k d p sub) (hg : Grows d d') :
    Vouched cfg k d' p sub := by
  cases h with
  | requested _ req h => exact .requested p req (h.grows hg)
  | signedIn code _ pending hstart hread hok hsub =>
    exact .signedIn code sub pending (hstart.grows hg) (hread.grows hg) hok hsub

theorem NameGiven.grows {n : Text} (h : NameGiven d n) (hg : Grows d d') : NameGiven d' n := by
  cases h with
  | sanitized h => exact .sanitized h
  | linked p sub names h hmem => exact .linked p sub names (h.grows hg) hmem

theorem Absent.grows {n : Text} (h : Absent k d n) (hg : Grows d d') : Absent k d' n :=
  h.imp (fun h => Answered.grows h hg) fun h => Answered.grows h hg

theorem Credential.grows {n : Text} {blob : Auth} (h : Credential cfg k d n blob) (hg : Grows d d') :
    Credential cfg k d' n blob := by
  cases h with
  | password r hash pw hr hhash hverify hpw => exact .password r hash pw (hr.grows hg) hhash hverify (hpw.grows hg)
  | newPassword pw hash now caps hpw hhash habsent hnew =>
    exact .newPassword pw hash now caps (hpw.grows hg) (hhash.grows hg) (habsent.grows hg) (hnew.grows hg)
  | linked p r sub email caps hr hlinked hsub =>
    exact .linked p r sub email caps (hr.grows hg) hlinked (hsub.grows hg)
  | newLink p sub email caps now hsub habsent hnew =>
    exact .newLink p sub email caps now (hsub.grows hg) (habsent.grows hg) (hnew.grows hg)
  | bound sub email now hsub hbound => exact .bound sub email now (hsub.grows hg) (hbound.grows hg)

theorem NotEntered.silent (h : NotEntered d) (hs : Silent d d') : NotEntered d' :=
  ⟨hs.listings.trans h.1, hs.messages.trans h.2⟩

theorem Entered.silent (h : Entered cfg k d) (hs : Silent d d') : Entered cfg k d' := by
  obtain ⟨info, lines, hlisted, hmessages⟩ := h
  exact ⟨info, lines, hs.listings.trans hlisted, hs.messages.trans hmessages⟩

/-! ## What the local variables stand for -/

/-- The buffer holds the end of what was typed, behind a line that is read again. -/
def Buffered (d : Dialogue Auth) (buf : List Byte) : Prop :=
  ∃ replay rest, buf = replay ++ rest ∧ rest <:+ typed d
    ∧ (replay = [] ∨ ∃ line, replay = line ++ [⟨NL, .proxy⟩] ∧ (∀ b ∈ line, isEol b = false) ∧ line <:+: typed d)

/-- The name and its blob are those of a credential. -/
structure Conn.Authenticated (cfg : BrokerConfig Raw Auth) (k : ConnId) (d : Dialogue Auth) (c : Conn Auth) :
    Prop where
  vetted : c.proxyChecked = true
  entitled : ∃ n blob, c.name = some n ∧ c.authBlob = some blob
    ∧ Answered d (.ban (.isCharBanned k n)) none ∧ Credential cfg k d n blob

/-- The name may be used by somebody. -/
structure Conn.Named (k : ConnId) (d : Dialogue Auth) (c : Conn Auth) : Prop where
  vetted : c.proxyChecked = true
  allowed : ∃ n, c.name = some n ∧ Answered d (.ban (.isCharBanned k n)) none

/-- What holds wherever the dialogue is. -/
structure Conn.Grounded (cfg : BrokerConfig Raw Auth) (k : ConnId) (d : Dialogue Auth) (c : Conn Auth) :
    Prop where
  speaks : SpeaksFor cfg k d c.peerIp
  trusted : c.trustedProxyPeer = true → FromHere k d
  unchecked : c.proxyChecked = false → c.peerIp.isLoopback = true → FromHere k d
  vetted : c.proxyChecked = true → Answered d (.ban (.isIpBanned k c.peerIp)) none
  code : ∀ code, c.googleOauthCode = some code → Answered d (.io (.startOauth k)) (some code)
  pending : ∀ p, c.pendingAutoWebauth = some p → Vouched cfg k d p.provider p.sub
  parser : c.iac = IacParser.data.run (reads d)
  buffered : Buffered d c.linebuf

/-- What holds in each state. -/
def Conn.AtState (cfg : BrokerConfig Raw Auth) (k : ConnId) (d : Dialogue Auth) (c : Conn Auth) : Prop :=
  match c.state with
  | .needName => NotEntered d
  | .needAuthMethod => NotEntered d ∧ c.Named k d
  | .needPasswordCreate => NotEntered d ∧ c.Named k d ∧ Answered d (.acct (.lookup k (c.name.getD []))) none
  | .needPasswordLogin => NotEntered d ∧ c.Named k d
  | .needGoogleWait => NotEntered d ∧ c.Named k d
  | .needPronouns => NotEntered d ∧ c.Authenticated cfg k d ∧ c.sex.isSome = true
  | .inWorld => Entered cfg k d
  | _ => NotEntered d ∧ c.Authenticated cfg k d

structure Conn.Sound (cfg : BrokerConfig Raw Auth) (k : ConnId) (d : Dialogue Auth) (c : Conn Auth) : Prop where
  grounded : c.Grounded cfg k d
  atState : c.AtState cfg k d

theorem Conn.Authenticated.grows {c : Conn Auth} (h : c.Authenticated cfg k d) (hg : Grows d d') :
    c.Authenticated cfg k d' := by
  obtain ⟨n, blob, hn, hblob, hban, hcred⟩ := h.entitled
  exact ⟨h.vetted, n, blob, hn, hblob, hban.grows hg, hcred.grows hg⟩

theorem Conn.Named.grows {c : Conn Auth} (h : c.Named k d) (hg : Grows d d') : c.Named k d' := by
  obtain ⟨n, hn, hban⟩ := h.allowed
  exact ⟨h.vetted, n, hn, hban.grows hg⟩

theorem Conn.Grounded.later {c : Conn Auth} (h : c.Grounded cfg k d) (hl : Later d d') :
    c.Grounded cfg k d' where
  speaks := h.speaks.grows hl.grows
  trusted ht := (h.trusted ht).grows hl.grows
  unchecked hc hp := (h.unchecked hc hp).grows hl.grows
  vetted hc := (h.vetted hc).grows hl.grows
  code code hcode := (h.code code hcode).grows hl.grows
  pending p hp := (h.pending p hp).grows hl.grows
  parser := h.parser.trans (congrArg _ hl.reads.symm)
  buffered := by
    rw [Buffered, hl.typed_eq]
    exact h.buffered

theorem Conn.AtState.grows {c : Conn Auth} (h : c.AtState cfg k d) (hg : Grows d d')
    (hmessages : messages d' = messages d) (hlistings : listings d' = listings d) : c.AtState cfg k d' := by
  have hout : NotEntered d → NotEntered d' := fun h => ⟨hlistings.trans h.1, hmessages.trans h.2⟩
  have hin : Entered cfg k d → Entered cfg k d' := by
    rintro ⟨info, lines, hl, hm⟩
    exact ⟨info, lines, hlistings.trans hl, hmessages.trans hm⟩
  unfold AtState at h ⊢
  cases hstate : c.state <;> rw [hstate] at h <;> dsimp only at h ⊢
  case needName => exact hout h
  case inWorld => exact hin h
  case needPasswordCreate => exact ⟨hout h.1, h.2.1.grows hg, h.2.2.grows hg⟩
  case needPronouns => exact ⟨hout h.1, h.2.1.grows hg, h.2.2⟩
  all_goals exact ⟨hout h.1, h.2.grows hg⟩

/-- The state does not depend on the other local variables. -/
theorem Conn.AtState.congr {c c' : Conn Auth} (h : c.AtState cfg k d) (hstate : c'.state = c.state)
    (hname : c'.name = c.name) (hchecked : c'.proxyChecked = c.proxyChecked)
    (hblob : c'.authBlob = c.authBlob) (hsex : c'.sex = c.sex) : c'.AtState cfg k d := by
  have hnamed : c.Named k d → c'.Named k d := by
    rintro ⟨hvetted, hallowed⟩
    exact ⟨hchecked.trans hvetted, hname ▸ hallowed⟩
  have hauth : c.Authenticated cfg k d → c'.Authenticated cfg k d := by
    rintro ⟨hvetted, hentitled⟩
    refine ⟨hchecked.trans hvetted, ?_⟩
    rw [hname, hblob]
    exact hentitled
  unfold AtState at h ⊢
  rw [hstate]
  cases hc : c.state <;> rw [hc] at h <;> dsimp only at h ⊢
  case needName => exact h
  case inWorld => exact h
  case needPasswordCreate => exact ⟨h.1, hnamed h.2.1, hname ▸ h.2.2⟩
  case needPronouns => exact ⟨h.1, hauth h.2.1, hsex ▸ h.2.2⟩
  case needAuthMethod => exact ⟨h.1, hnamed h.2⟩
  case needPasswordLogin => exact ⟨h.1, hnamed h.2⟩
  case needGoogleWait => exact ⟨h.1, hnamed h.2⟩
  all_goals exact ⟨h.1, hauth h.2⟩

theorem Conn.Sound.silent {c : Conn Auth} (h : c.Sound cfg k d) (hs : Silent d d') : c.Sound cfg k d' :=
  ⟨h.grounded.later hs.toLater, h.atState.grows hs.grows hs.messages hs.listings⟩

/-- A line that is taken from the buffer was typed, and what is left is the end of what was typed. -/
theorem Buffered.pop {buf line rest : List Byte} (h : Buffered d buf) (hpop : tryPopLine buf = some (line, rest)) :
    line <:+: typed d ∧ (∀ b ∈ line, isEol b = false) ∧ rest <:+ typed d := by
  obtain ⟨e, tail, hbuf, he, hline, hrest⟩ := tryPopLine_spec hpop
  obtain ⟨replay, old, rfl, hold, rfl | ⟨line', rfl, hline', htyped⟩⟩ := h
  · rw [List.nil_append] at hbuf
    subst hbuf
    refine ⟨?_, hline, hrest.trans ((List.suffix_append_of_suffix (List.suffix_cons e tail)).trans hold)⟩
    exact (List.prefix_append line (e :: tail)).isInfix.trans hold.isInfix
  · -- both lines are what stands before the first end of a line
    have hfirst : ∀ {l : List Byte} {e : Byte} {t : List Byte}, (∀ b ∈ l, isEol b = false) → isEol e = true →
        (l ++ e :: t).takeWhile (fun b => !isEol b) = l
          ∧ (l ++ e :: t).dropWhile (fun b => !isEol b) = e :: t := by
      intro l e t hl he
      have hl' : ∀ b ∈ l, (!isEol b) = true := fun b hb => by rw [hl b hb]; rfl
      rw [List.takeWhile_append_of_pos hl', List.dropWhile_append_of_pos hl']
      simp [he]
    have hsame : line' ++ ⟨NL, .proxy⟩ :: old = line ++ e :: tail := by
      rw [← hbuf, List.append_assoc]
      rfl
    have hmine := @hfirst line' ⟨NL, .proxy⟩ old hline' (by decide)
    have hyours := @hfirst line e tail hline he
    rw [hsame] at hmine
    obtain rfl : line = line' := hyours.1.symm.trans hmine.1
    obtain ⟨-, rfl⟩ := List.cons.inj (hyours.2.symm.trans hmine.2)
    exact ⟨htyped, hline, hrest.trans hold⟩

end Slopmud.Broker
