import RocketSmbd.Smb2.Replies

/-!
# How long the response of a connection-level request can be

What bounds a response comes from outside and is listed in `Srv.Sized`, `Srv.NamesShort` and
`SessionInner.NamesShort`: how much the system returns for a call, the size of the tokens of the GSS
library, the number of interfaces, and the length of names.  Here are the bounds for NEGOTIATE,
SESSION_SETUP, with the challenge and the tokens that its response carries, and LOGOFF.
-/

namespace RocketSmbd

open ByteString Vfs

variable {σ : Type}

/-! ### What is assumed -/

/-- The bytes of an address. -/
def IpAddr.octets : IpAddr → Bytes
  | .v4 octets | .v6 octets => octets

/-- Sizes that come from outside: the GUID is an array of 16 bytes and an address one of at most
16, `pread` and the random source fill at most the buffer they are given, and GSS tokens are under
64 KiB.  The host has at most 4096 interfaces. -/
structure Srv.Sized (srv : Srv σ) : Prop where
  guid : srv.guid.length = 16
  interfaces : srv.interfaces.length ≤ 4096
  octets : ∀ i ∈ srv.interfaces, i.addr.octets.length ≤ 16
  urandom : ∀ n s, (srv.env.os.urandom n s).1.length ≤ n
  pread : ∀ fd len off s d, (srv.env.os.pread fd len off s).1 = .ok d → d.length ≤ len
  tokens : ∀ acc ctx token s, (srv.env.gss.step acc ctx token s).1.1.token.length < 65536

/-- The server's name and those of its shares are under 64 Ki characters. -/
structure Srv.NamesShort (srv : Srv σ) : Prop where
  server : srv.cfg.serverName.length < 65536
  shares : ∀ s ∈ srv.cfg.shares, s.name.length < 65536

/-- The share-relative names of the session's open files are under 64 Ki characters. -/
def SessionInner.NamesShort (s : SessionInner) : Prop :=
  ∀ of ∈ s.handles.live, of.rel.length < 65536

/-- The names of all open files are under 64 Ki characters. -/
def Shared.NamesShort (sh : Shared σ) : Prop :=
  ∀ sid s, sh.sessions.lookup sid = some s → s.NamesShort

/-- The longest body of a response: a listing of MaxTransactSize and its fixed part. -/
def maxBody : ℕ := 4195328
/-- The longest response. -/
def maxResp : ℕ := 64 + maxBody

/-! ### Parts of a body -/

theorem utf16le_length_le (s : Str) : (utf16le s).length ≤ 4 * s.length := by
  have hunits : ∀ c, (utf16Units c).length ≤ 2 := by
    intro c
    unfold utf16Units
    split_ifs <;> simp
  induction s with
  | nil => simp [utf16le]
  | cons c s ih =>
    have hcons : (utf16le (c :: s)).length = 2 * (utf16Units c).length + (utf16le s).length := by
      simp [utf16le, List.length_flatMap, Nat.mul_comm]
    have hc := hunits c
    rw [hcons, List.length_cons]
    omega

theorem der_length_le (tag : UInt8) (content : Bytes) :
    (Spnego.der tag content).length ≤ content.length + 4 := by
  unfold Spnego.der
  dsimp only
  split_ifs <;> simp

theorem patch32_length_le {b : Bytes} {i n : ℕ} (v : UInt32) (h : b.length ≤ n)
    (hi : i + 4 ≤ n) : (patch32 b i v).length ≤ n := by
  simp only [patch32, patch, List.length_append, List.length_take, List.length_drop, p32_length]
  omega

theorem pad8_length_le (tx : Bytes) (base : ℕ) : (pad8 tx base).length ≤ tx.length + 7 := by
  unfold pad8
  dsimp only
  split_ifs
  · rw [List.length_append, zeros_length]
    omega
  · omega

theorem errResp_length_le (tx : Bytes) (h : ReqHdr) (st : UInt32) (chain : Chain) :
    (errResp tx h st chain).length ≤ tx.length + maxResp := by
  simp [errResp, beginResp, errBody, maxResp, maxBody]

/-! ### Requests of a connection -/

/-- What was done adds at most `n` bytes to the buffer, and leaves the read limit alone. -/
structure Px.Grows (n : ℕ) (px px' : Px σ) : Prop where
  tx : px'.tx.length ≤ px.tx.length + n
  maxRead : px'.pc.maxRead = px.pc.maxRead

namespace Px

variable {px px₁ px' : Px σ} {n : ℕ}

/-- What was done before left buffer and read limit alone. -/
theorem Grows.after (h : px₁.Grows n px') (htx : px₁.tx = px.tx)
    (hmax : px₁.pc.maxRead = px.pc.maxRead) : px.Grows n px' :=
  ⟨htx ▸ h.tx, h.maxRead.trans hmax⟩

theorem Grows.quiet (h : px₁.Grows n px') {srv : Srv σ} (hq : px.Quiet srv px₁) : px.Grows n px' :=
  h.after hq.tx (congrArg ProtoConn.maxRead hq.outside :)

theorem grows_disconnect (px : Px σ) : px.Grows n px.disconnect :=
  ⟨Nat.le_add_right _ _, rfl⟩

section

variable (px : Px σ) (h : ReqHdr)

theorem grows_err (st : UInt32) : px.Grows maxResp (px.err h st) :=
  ⟨errResp_length_le px.tx h st px.chain, rfl⟩

theorem grows_ss (st : UInt32) (sid : UInt64) (flags : UInt16)
    {blob : Bytes} (hblob : blob.length ≤ 1048576) :
    px.Grows maxResp (px.ss h st sid flags blob) := by
  refine ⟨?_, rfl⟩
  simp only [ss, ssResp, beginResp, List.length_append, respHdr_length, p16_length, maxResp,
    maxBody]
  omega

theorem grows_simpleResp (chain : Chain) :
    px.Grows maxResp { px with tx := simpleResp px.tx h chain } := by
  refine ⟨?_, rfl⟩
  simp [simpleResp, beginResp, maxResp, maxBody]

end

end Px

section

variable (srv : Srv σ) (h : ReqHdr) (msg : Bytes) (px : Px σ)

/-! ### SESSION_SETUP -/

variable (hsized : srv.Sized) (hnames : srv.NamesShort)

theorem challenge_length_le {serverName : Str} (hname : serverName.length < 65536) {chal : Bytes}
    (hchal : chal.length ≤ 8) : (Ntlm.challenge serverName chal).length ≤ 1000000 := by
  have htarget := utf16le_length_le serverName
  simp only [Ntlm.challenge, Spnego.ntlmSig, List.length_append, List.length_cons, List.length_nil,
    p16_length, p32_length, p64_length]
  omega

theorem spnegoWrapChallenge_length_le (token : Bytes) :
    (Ntlm.spnegoWrapChallenge token).length ≤ token.length + 60 := by
  have hresp := der_length_le 0xA1 (Spnego.der 0x30 (Spnego.der 0xA0 [0x0A, 0x01, 0x01] ++
    Spnego.der 0xA1 (Spnego.der 0x06 Spnego.oidNtlmssp) ++
    Spnego.der 0xA2 (Spnego.der 0x04 token)))
  have hseq := der_length_le 0x30 (Spnego.der 0xA0 [0x0A, 0x01, 0x01] ++
    Spnego.der 0xA1 (Spnego.der 0x06 Spnego.oidNtlmssp) ++
    Spnego.der 0xA2 (Spnego.der 0x04 token))
  have htoken := der_length_le 0xA2 (Spnego.der 0x04 token)
  have hoctets := der_length_le 0x04 token
  have hstate : (Spnego.der 0xA0 [0x0A, 0x01, 0x01]).length = 5 := by decide
  have hmech : (Spnego.der 0xA1 (Spnego.der 0x06 Spnego.oidNtlmssp)).length = 14 := by decide
  unfold Ntlm.spnegoWrapChallenge
  simp only [List.length_append, hstate, hmech] at hresp hseq ⊢
  omega

theorem negResp_length_le (state : UInt8) (token : Bytes) :
    (Spnego.negResp state .krb5 token).length ≤ token.length + 60 := by
  have hstate := der_length_le 0xA0 [0x0A, 0x01, state]
  have hmech : (if Spnego.Mech.krb5.oid.isEmpty = true then ([] : Bytes)
      else Spnego.der 0xA1 (Spnego.derOid Spnego.Mech.krb5.oid)).length = 13 := by decide
  have htoken : (if token.isEmpty = true then ([] : Bytes)
      else Spnego.der 0xA2 (Spnego.der 0x04 token)).length ≤ token.length + 8 := by
    have houter := der_length_le 0xA2 (Spnego.der 0x04 token)
    have hinner := der_length_le 0x04 token
    split_ifs
    · simp
    · omega
  unfold Spnego.negResp
  dsimp only
  refine (der_length_le _ _).trans ((Nat.add_le_add_right (der_length_le _ _) 4).trans ?_)
  simp only [List.length_append, List.length_cons, List.length_nil] at hstate ⊢
  omega

theorem krbToken_length_le (wrapped : Bool) (state : UInt8) {out : Bytes}
    (hout : out.length < 65536) : (krbToken wrapped state out).length ≤ 1048576 := by
  unfold krbToken
  split_ifs
  · exact (negResp_length_le state out).trans (by omega)
  · omega

include hsized hnames in
theorem SetupBlob.length_le {blob : Bytes} (hblob : SetupBlob srv blob) :
    blob.length ≤ 1048576 := by
  have hchal := fun s => challenge_length_le hnames.server (hsized.urandom 8 s)
  cases hblob with
  | none => exact Nat.zero_le _
  | completed => decide
  | challenge s => exact (hchal s).trans (by omega)
  | wrapped s =>
    have hlen := hchal s
    exact (spnegoWrapChallenge_length_le _).trans (by omega)
  | kerberos wrapped state acc ctx token s =>
    exact krbToken_length_le wrapped state (hsized.tokens acc ctx token s)

include hsized hnames in
theorem sessionSetup_grows : px.Grows maxResp (sessionSetup srv h msg px) := by
  have hout := sessionSetup_outcome srv h msg px
  generalize sessionSetup srv h msg px = px' at hout ⊢
  cases hout with
  | refused hq => exact (Px.grows_err _ h _).quiet hq
  | answered hq hblob =>
    exact (Px.grows_ss _ h _ _ _ (hblob.length_le srv hsized hnames)).quiet hq
  | dropped hq => exact (Px.grows_disconnect _).quiet hq

/-! ### NEGOTIATE -/

theorem spnegoHint_length_le : Ntlm.spnegoHint.length ≤ 200 := by
  have hmech : (Spnego.der 0xA0 (Spnego.der 0x30 (Spnego.der 0x06 Spnego.oidNtlmssp))).length =
      16 := by decide
  have hoid : (Spnego.der 0x06 Spnego.oidSpnego).length = 8 := by decide
  have hstr : Ntlm.hintStr.length = 36 := by simp [Ntlm.hintStr, lit]
  unfold Ntlm.spnegoHint
  dsimp only
  refine (der_length_le _ _).trans ?_
  rw [List.length_append, hoid]
  have hder : ∀ {t : UInt8} {c : Bytes} {n : ℕ}, c.length ≤ n →
      (Spnego.der t c).length ≤ n + 4 := fun h =>
    (der_length_le _ _).trans (Nat.add_le_add_right h 4)
  have hhints : (Spnego.der 0xA3 (Spnego.der 0x30 (Spnego.der 0xA0
      (Spnego.der 0x1B Ntlm.hintStr)))).length ≤ 52 := hder (hder (hder (hder hstr.le)))
  have htoken : (Spnego.der 0xA0 (Spnego.der 0x30
      (Spnego.der 0xA0 (Spnego.der 0x30 (Spnego.der 0x06 Spnego.oidNtlmssp)) ++
        Spnego.der 0xA3 (Spnego.der 0x30 (Spnego.der 0xA0
          (Spnego.der 0x1B Ntlm.hintStr)))))).length ≤ 76 := by
    refine hder (n := 72) (hder (n := 68) ?_)
    rw [List.length_append, hmech]
    omega
  omega

include hsized in
theorem negotiateFixed_length_le (maxRead : UInt32) (dialect : UInt16) (now : UInt64) :
    (negotiateFixed srv maxRead dialect now).length ≤ 264 := by
  have hhint : (if srv.env.ntlm = true then Ntlm.spnegoHint else []).length ≤ 200 := by
    split_ifs
    · exact spnegoHint_length_le
    · simp
  simp only [negotiateFixed, List.length_append, p16_length, p32_length, p64_length, hsized.guid]
  omega

include hsized in
theorem negotiateBody_length_le (maxRead : UInt32) (dialect cipher : UInt16) (now : UInt64)
    {salt : Bytes} (hsalt : salt.length ≤ 32) {respStart : ℕ} {tx : Bytes}
    (htx : tx.length = respStart + 64) :
    (negotiateBody srv maxRead dialect cipher now salt respStart tx).length ≤
      respStart + 64 + 400 := by
  have hfixed := negotiateFixed_length_le srv hsized maxRead dialect now
  unfold negotiateBody
  dsimp only
  split_ifs
  · have hpad := pad8_length_le (tx ++ negotiateFixed srv maxRead dialect now) respStart
    have hctx : (putNegotiateContexts cipher salt respStart
        (pad8 (tx ++ negotiateFixed srv maxRead dialect now) respStart)).2.length ≤
          respStart + 64 + 400 := by
      rw [List.length_append] at hpad
      unfold putNegotiateContexts
      dsimp only
      split_ifs
      · have hpad' := pad8_length_le (pad8 (tx ++ negotiateFixed srv maxRead dialect now)
          respStart ++ (p16 1 ++ p16 38 ++ p32 0 ++ p16 1 ++ p16 32 ++ p16 1 ++ salt)) respStart
        simp only [List.length_append, p16_length, p32_length] at hpad' ⊢
        omega
      · simp only [List.length_append, p16_length, p32_length]
        omega
    have hoff := patch32_length_le (i := respStart + 64 + 60) (UInt32.ofNat ((pad8 (tx ++
      negotiateFixed srv maxRead dialect now) respStart).length - respStart)) hctx (by omega)
    simp only [patch, List.length_append, List.length_take, List.length_drop, p16_length]
    omega
  · rw [List.length_append]
    omega

include hsized in
theorem negotiateResp_grows (dialect cipher : UInt16) :
    px.Grows maxResp (negotiateResp srv h dialect cipher px) := by
  have hlen : (beginResp px.tx h Status.success false 0 0).length = px.tx.length + 64 := by
    rw [beginResp, List.length_append, respHdr_length]
  have hbound : px.tx.length + 64 + 400 ≤ px.tx.length + maxResp := by
    unfold maxResp maxBody
    omega
  unfold negotiateResp
  dsimp only
  split
  · exact ⟨(negotiateBody_length_le srv hsized _ dialect cipher _ (hsized.urandom 32 _) hlen).trans
      hbound, rfl⟩
  · exact ⟨(negotiateBody_length_le srv hsized _ dialect cipher _ (by simp) hlen).trans hbound, rfl⟩

include hsized in
theorem negotiate_grows : px.Grows maxResp (negotiate srv h msg px) := by
  unfold negotiate
  split
  · exact px.grows_disconnect
  · cases negotiateParams srv.cfg msg with
    | error st => exact px.grows_err h st
    | ok r => exact (negotiateResp_grows srv h _ hsized r.1 r.2.1).after rfl rfl

theorem logoff_grows : px.Grows maxResp (logoff srv h px) := by
  unfold logoff
  dsimp only
  split
  · split
    · exact (Px.grows_simpleResp _ h _).after rfl rfl
    · exact (Px.grows_simpleResp _ h _).after rfl rfl
  · exact px.grows_err h _

end

end RocketSmbd
