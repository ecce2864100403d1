import RocketSmbd.Smb2.Negotiate

/-!
# SESSION_SETUP and LOGOFF (`smb2/handlers.rs`)

The dispatch of a security blob to its mechanism, the NTLM handshake (first authentication,
channel binding, guest and anonymous), the Kerberos exchange of one or more legs, and LOGOFF.
-/

namespace RocketSmbd

open ByteString Vfs

variable {σ : Type}

def sessionFlagIsGuest : UInt16 := 0x1
def sessionFlagEncryptData : UInt16 := 0x4
def sessionFlagBinding : UInt8 := 0x01

def ssResp (tx : Bytes) (h : ReqHdr) (st : UInt32) (related : Bool) (sid : UInt64)
    (flags : UInt16) (blob : Bytes) : Bytes :=
  beginResp tx h st related 0 sid ++ p16 9 ++ p16 flags ++ p16 72 ++
    p16 (UInt16.ofNat blob.length) ++ blob

namespace Px

/-- Answer a SESSION_SETUP. -/
def ss (px : Px σ) (h : ReqHdr) (st : UInt32) (sid : UInt64) (flags : UInt16) (blob : Bytes) :
    Px σ :=
  { px with tx := ssResp px.tx h st px.chain.related sid flags blob }

/-- Change the effective session of the compound. -/
def onSession (px : Px σ) (sid : UInt64) : Px σ :=
  { px with chain := { px.chain with sessionId := sid } }

/-- Change the channel table. -/
def setChannels (px : Px σ) (channels : FinMap UInt64 ChannelState) : Px σ :=
  { px with pc := { px.pc with channels } }

/-- Change the session registry. -/
def setSessions (px : Px σ) (sessions : Registry) : Px σ :=
  { px with shared := { px.shared with sessions } }

/-- `Registry::create`. -/
def create (px : Px σ) (os : Os σ) : Option UInt64 × Px σ :=
  let (sid, shared) := Registry.create os px.shared
  (sid, { px with shared })

/-- Drop the channel and the registry entry of a setup that failed. -/
def abandon (px : Px σ) (sid : UInt64) : Px σ :=
  (px.setChannels (px.pc.channels.erase sid)).setSessions (px.shared.sessions.erase sid)

end Px

/-! ### Keys -/

/-- An SMB 3.1.1 cipher was negotiated, so sessions can be sealed. -/
def sealable (dialect cipher : UInt16) : Prop := cipher ≠ 0 ∧ dialect = 0x0311

instance (dialect cipher : UInt16) : Decidable (sealable dialect cipher) :=
  inferInstanceAs (Decidable (_ ∧ _))

/-- The server requires encryption and the connection has no cipher for it. -/
def unsealable (cfg : Config) (dialect cipher : UInt16) : Prop :=
  cfg.encrypt ∧ ¬ sealable dialect cipher

instance (cfg : Config) (dialect cipher : UInt16) : Decidable (unsealable cfg dialect cipher) :=
  inferInstanceAs (Decidable (_ ∧ _))

/-- The encryption keys of a channel, when a cipher is negotiated. -/
def deriveEnc (cr : Crypto) (dialect cipher : UInt16) (key preauth : Bytes) : Option EncCtx :=
  if sealable dialect cipher then
    let (c2s, s2c) := cr.smb311EncryptionKeys cipher key preauth
    some { cipher, c2s, s2c, nonceCtr := 0 }
  else none

/-- Record a key derivation. -/
def ConnHist.logSetup (hist : ConnHist) (preauth : Bytes) (enc : Option EncCtx) : ConnHist :=
  { hist with setups := hist.setups ++ (enc.map fun e => (preauth, e.s2c)).toList }

/-- Record a key derivation in the history of the connection. -/
def ProtoConn.logSetup (pc : ProtoConn) (preauth : Bytes) (enc : Option EncCtx) : ProtoConn :=
  { pc with hist := pc.hist.logSetup preauth enc }

/-- Record a step of a challenge. -/
def ConnHist.logChallenge (hist : ConnHist) (step : ChallengeStep) : ConnHist :=
  { hist with challenges := hist.challenges ++ [step] }

/-- Record a step of a challenge in the history of the connection. -/
def ProtoConn.logChallenge (pc : ProtoConn) (step : ChallengeStep) : ProtoConn :=
  { pc with hist := pc.hist.logChallenge step }

/-- The SESSION_FLAG that tells the client to seal its traffic. -/
def encryptFlag (cfg : Config) (enc : Option EncCtx) : UInt16 :=
  if enc.isSome ∧ cfg.encrypt then sessionFlagEncryptData else 0

/-- An authenticated channel: established, with its signing key and, where a cipher is
negotiated, its encryption keys; encrypting if the server requires it. -/
def authenticated (cfg : Config) (ch : ChannelState) (signingRequired : Bool) (sign : SignCtx)
    (enc : Option EncCtx) : ChannelState :=
  { ch with
    established := true
    signingRequired
    sign := some sign
    enc := enc.or ch.enc
    encrypt := ch.encrypt ∨ (enc.isSome ∧ cfg.encrypt) }

/-! ### NTLM -/

/-- The fields of a SESSION_SETUP request. -/
structure SetupReq where
  flags : UInt8
  secmode : UInt8
  blob : Bytes

def setupFields (msg : Bytes) : Rdr SetupReq := do
  Rdr.structureSize 25
  let flags ← Rdr.u8
  let secmode ← Rdr.u8
  Rdr.skip (4 + 4)
  let off ← Rdr.u16
  let len ← Rdr.u16
  let _ ← Rdr.u64
  let blob ← (if len = 0 then pure []
    else Rdr.get msg off.toNat (off.toNat + len.toNat))
  pure { flags, secmode, blob }

def parseSetup (msg : Bytes) : Option SetupReq := Rdr.parse (setupFields msg) (msg.drop 64)

/-- The session must sign: server policy, or the client asked. -/
def SetupReq.signingRequired (cfg : Config) (r : SetupReq) : Bool :=
  cfg.signingRequired ∨ r.secmode.toUInt16 &&& securityModeSigningRequired ≠ 0

/-- The hash of a connection's or session's setup messages so far, extended by `msg`. -/
def extendPreauth (cr : Crypto) (preauth msg : Bytes) : Bytes := cr.sha512 (preauth ++ msg)

/-- The number of setups a connection has not finished. -/
def pendingSetups (pc : ProtoConn) : ℕ := pc.channels.count fun _ c => ¬ c.established

/-- The session that an NTLM NEGOTIATE is for: the one to bind to, or a fresh one. -/
def ntlmSession (srv : Srv σ) (h : ReqHdr) (binding : Bool) (px : Px σ) :
    Except UInt32 (Option UInt64) × Px σ :=
  if binding then
    if ¬ srv.cfg.multichannel ∨ px.pc.dialect < 0x0300 then (.error Status.requestNotAccepted, px)
    else
      let bindable := (px.shared.sessions.lookup h.sessionId).any fun s => s.established ∧ ¬ s.guest
      if h.sessionId = 0 ∨ ¬ bindable then (.error Status.userSessionDeleted, px)
      else if (px.pc.channels.lookup h.sessionId).any (·.established) then
        (.error Status.requestNotAccepted, px)
      else (.ok (some h.sessionId), px)
  else if maxPendingSetups ≤ pendingSetups px.pc then (.error Status.insufficientResources, px)
  else
    let (sid, px) := px.create srv.env.os
    (.ok sid, px)

/-- The first leg: stash a challenge in the channel and answer with it. -/
def ntlmNegotiate (srv : Srv σ) (h : ReqHdr) (msg : Bytes) (spnego binding : Bool) (px : Px σ) :
    Px σ :=
  match ntlmSession srv h binding px with
  | (.error st, px) => px.err h st
  | (.ok none, px) => px.disconnect
  | (.ok (some sid), px) =>
    let px := px.onSession sid
    let (chal, px) := px.ask (srv.env.os.urandom 8)
    let preauth := if px.pc.dialect = 0x0311 then
        extendPreauth srv.env.crypto px.pc.preauthNeg msg
      else px.pc.preauthNeg
    let ch : ChannelState := { pending := some { challenge := chal, spnego, binding }, preauth }
    let px := px.setChannels (px.pc.channels.insert sid ch)
    let px := { px with pc := px.pc.logChallenge (.issued sid chal) }
    let token := Ntlm.challenge srv.cfg.serverName chal
    let token := if spnego then Ntlm.spnegoWrapChallenge token else token
    px.ss h Status.moreProcessingRequired sid 0 token

/-- An AUTHENTICATE message proves the identity of a configured user. -/
def ntlmVerify (srv : Srv σ) (a : Ntlm.Authenticate) (challenge : Bytes) : Option (Option Bytes) :=
  (srv.users.lookup (srv.env.toLowercase a.user)).map fun nt =>
    Ntlm.verifyNtlmv2 srv.env.crypto srv.env.toUppercase nt a challenge

/-- A binding AUTHENTICATE proves the identity of the session's own user. -/
def bindProof (srv : Srv σ) (s : SessionInner) (auth : Option Ntlm.Authenticate)
    (challenge : Bytes) : Bool :=
  if ¬ s.established ∨ s.guest then false
  else
    match auth with
    | some a =>
      ¬ a.isAnonymous ∧ eqIgnoreAsciiCase a.user s.user ∧
        ((ntlmVerify srv a challenge).getD none).isSome
    | none => false

/-- Channel binding: prove the same identity, then derive this channel's keys from the session's
original key. -/
def ntlmBind (srv : Srv σ) (h : ReqHdr) (sid : UInt64) (s : SessionInner) (ch : ChannelState)
    (auth : Option Ntlm.Authenticate) (challenge done : Bytes) (signingRequired : Bool)
    (px : Px σ) : Px σ :=
  if ¬ bindProof srv s auth challenge ∨ unsealable srv.cfg px.pc.dialect px.pc.cipher then
    (px.setChannels (px.pc.channels.erase sid)).err h Status.accessDenied
  else
    -- the proof succeeds only for a session that is not a guest's, so the channel signs
    let px := px.setSessions (px.shared.sessions.insert sid { s with channels := s.channels + 1 })
    let sign := deriveSignCtx srv.env.crypto px.pc.dialect s.sessionKey ch.preauth
    let enc := deriveEnc srv.env.crypto px.pc.dialect px.pc.cipher s.sessionKey ch.preauth
    let px := px.setChannels
      (px.pc.channels.insert sid (authenticated srv.cfg ch signingRequired sign enc))
    let px := { px with pc := px.pc.logSetup ch.preauth enc }
    px.ss h Status.success sid (encryptFlag srv.cfg enc) done

inductive Verdict
  | user (key : Bytes) (user : Str)
  | guest
  | reject

/-- What a first authentication leads to. -/
def verdict (srv : Srv σ) (auth : Option Ntlm.Authenticate) (challenge : Bytes) : Verdict :=
  let fallback := if srv.allowGuest then Verdict.guest else Verdict.reject
  match auth with
  | some a =>
    if a.isAnonymous then fallback
    else
      match ntlmVerify srv a challenge with
      | some (some key) => .user key a.user
      | some none => .reject
      | none => fallback
  | none => fallback

/-- First authentication on a fresh session. -/
def ntlmFirst (srv : Srv σ) (h : ReqHdr) (sid : UInt64) (s : SessionInner) (ch : ChannelState)
    (auth : Option Ntlm.Authenticate) (challenge done : Bytes) (signingRequired : Bool)
    (px : Px σ) : Px σ :=
  match verdict srv auth challenge with
  | .user key user =>
    if unsealable srv.cfg px.pc.dialect px.pc.cipher then (px.abandon sid).err h Status.accessDenied
    else
      let s := { s with
        sessionKey := key, established := true, guest := false, signingRequired, user
        channels := 1 }
      let px := px.setSessions (px.shared.sessions.insert sid s)
      let sign := deriveSignCtx srv.env.crypto px.pc.dialect key ch.preauth
      let enc := deriveEnc srv.env.crypto px.pc.dialect px.pc.cipher key ch.preauth
      let px := px.setChannels
        (px.pc.channels.insert sid (authenticated srv.cfg ch signingRequired sign enc))
      let px := { px with pc := px.pc.logSetup ch.preauth enc }
      px.ss h Status.success sid (encryptFlag srv.cfg enc) done
  | .guest =>
    -- guest sessions carry no key and cannot be encrypted
    if srv.cfg.encrypt then (px.abandon sid).err h Status.accessDenied
    else
      let s := { s with established := true, guest := true, channels := 1 }
      let px := px.setSessions (px.shared.sessions.insert sid s)
      let px := px.setChannels (px.pc.channels.insert sid { ch with established := true })
      px.ss h Status.success sid sessionFlagIsGuest done
  | .reject => (px.abandon sid).err h Status.logonFailure

/-- The second leg of an NTLM setup, or a re-authentication of an established channel. -/
def ntlmAuthenticate (srv : Srv σ) (h : ReqHdr) (msg : Bytes) (r : SetupReq) (px : Px σ) : Px σ :=
  let sid := h.sessionId
  let px := px.onSession sid
  match px.pc.channels.lookup sid with
  | none => px.err h Status.userSessionDeleted
  | some ch =>
    let ch := { ch with
      preauth := if px.pc.dialect = 0x0311 then extendPreauth srv.env.crypto ch.preauth msg
        else ch.preauth }
    match ch.pending with
    | none =>
      let px := px.setChannels (px.pc.channels.insert sid ch)
      px.ss h Status.success sid (if ch.sign.isNone then sessionFlagIsGuest else 0) []
    | some pending =>
      let ch := { ch with pending := none }
      let px := px.setChannels (px.pc.channels.insert sid ch)
      let px := { px with pc := px.pc.logChallenge (.taken sid pending.challenge) }
      let done := if pending.spnego ∨ Ntlm.isSpnego r.blob then Ntlm.spnegoAcceptCompleted else []
      match px.shared.sessions.lookup sid with
      | none => px.err h Status.userSessionDeleted
      | some s =>
        let auth := Ntlm.parseAuthenticate r.blob
        let signingRequired := r.signingRequired srv.cfg
        if pending.binding then
          ntlmBind srv h sid s ch auth pending.challenge done signingRequired px
        else ntlmFirst srv h sid s ch auth pending.challenge done signingRequired px

/-- No NTLMSSP token at all: an anonymous guest session, if guests are allowed and need not be
encrypted. -/
def ntlmOther (srv : Srv σ) (h : ReqHdr) (px : Px σ) : Px σ :=
  if srv.allowGuest ∧ srv.cfg.encrypt then px.err h Status.accessDenied
  else if srv.allowGuest then
    match px.create srv.env.os with
    | (none, px) => px.disconnect
    | (some sid, px) =>
      let s : SessionInner := { established := true, guest := true, channels := 1 }
      let px := px.setSessions (px.shared.sessions.insert sid s)
      let ch : ChannelState := { established := true, preauth := px.pc.preauthNeg }
      let px := (px.setChannels (px.pc.channels.insert sid ch)).onSession sid
      px.ss h Status.success sid sessionFlagIsGuest []
  else px.err h Status.logonFailure

def ntlmSessionSetup (srv : Srv σ) (h : ReqHdr) (msg : Bytes) (px : Px σ) : Px σ :=
  match parseSetup msg with
  | none => px.err h Status.invalidParameter
  | some r =>
    match Ntlm.classify r.blob with
    | .negotiate =>
      ntlmNegotiate srv h msg (Ntlm.isSpnego r.blob) (r.flags &&& sessionFlagBinding ≠ 0) px
    | .authenticate => ntlmAuthenticate srv h msg r px
    | .other => ntlmOther srv h px

/-! ### Kerberos -/

/-- `str::contains`. -/
def containsStr (s t : Str) : Bool := s.tails.any (t.isPrefixOf ·)

/-- Map a failed GSS accept to the most informative SMB status (`krb5.rs`). -/
def statusForFailure (reason : Str) : UInt32 :=
  let r := reason.map asciiLower
  if containsStr r (lit "clock skew") ∨
      (containsStr r (lit "time") ∧ containsStr r (lit "skew")) then
    Status.timeDifferenceAtDc
  else Status.logonFailure

/-- The acceptor credential of this connection, acquired on first use. -/
def krbAcquire (srv : Srv σ) (px : Px σ) : Except UInt32 ℕ × Px σ :=
  match px.pc.krbAcceptor with
  | some acc => (.ok acc, px)
  | none =>
    if srv.cfg.kerberos.any fun k => ¬ k.enabled then (.error Status.notSupported, px)
    else
      let (res, px) := px.ask (srv.env.gss.acceptor srv.cfg.krbAcceptorName)
      match res with
      | .ok acc => (.ok acc, { px with pc := { px.pc with krbAcceptor := some acc } })
      | .error _ => (.error Status.logonFailure, px)

/-- One leg of a Kerberos exchange: the session it continues, the preauth hash that covers it,
what GSS says, and the context to keep. -/
structure KrbLeg where
  existing : Option UInt64
  preauth : Bytes
  step : GssStep
  ctx : ℕ

/-- Feed one token to GSS; a later leg continues the context its channel keeps. -/
def krbLeg (srv : Srv σ) (h : ReqHdr) (msg : Bytes) (acc : ℕ) (token : Bytes) (px : Px σ) :
    KrbLeg × Px σ :=
  let continuing := (px.pc.channels.lookup h.sessionId).bind ChannelState.krbPending
  let base := if continuing.isSome then
      ((px.pc.channels.lookup h.sessionId).map ChannelState.preauth).getD px.pc.preauthNeg
    else px.pc.preauthNeg
  let px := if continuing.isSome then
      px.setChannels (px.pc.channels.modify h.sessionId fun c => { c with krbPending := none })
    else px
  let preauth := if px.pc.dialect = 0x0311 then extendPreauth srv.env.crypto base msg else zeros 64
  let ((step, ctx), px) := px.ask (srv.env.gss.step acc (continuing.getD 0) token)
  (⟨continuing.map fun _ => h.sessionId, preauth, step, ctx⟩, px)

/-- Drop the channel and session of an exchange that failed, if a leg had created them. -/
def krbAbandon (existing : Option UInt64) (px : Px σ) : Px σ :=
  match existing with
  | some sid => px.abandon sid
  | none => px

/-- Wrap a GSS token for a client that speaks SPNEGO. -/
def krbToken (wrapped : Bool) (state : UInt8) (out : Bytes) : Bytes :=
  if wrapped then Spnego.negResp state .krb5 out else out

/-- More legs: keep the context on a channel under a session id the client echoes back. -/
def krbContinue (srv : Srv σ) (h : ReqHdr) (wrapped : Bool) (leg : KrbLeg) (out : Bytes)
    (px : Px σ) : Px σ :=
  if leg.existing = none ∧ maxPendingSetups ≤ pendingSetups px.pc then
    px.err h Status.insufficientResources
  else
    let (sid, px) := match leg.existing with
      | some sid => (some sid, px)
      | none => px.create srv.env.os
    match sid with
    | none => px.disconnect
    | some sid =>
      let ch := (px.pc.channels.lookup sid).getD {}
      let ch := { ch with krbPending := some leg.ctx, preauth := leg.preauth }
      let px := (px.setChannels (px.pc.channels.insert sid ch)).onSession sid
      px.ss h Status.moreProcessingRequired sid 0 (krbToken wrapped Spnego.acceptIncomplete out)

/-- The SMB session key: the first 16 bytes of the Kerberos sub-session key, zero-padded. -/
def krbSessionKey (est : Established) : Bytes :=
  let k := est.sessionKey.take 16
  k ++ zeros (16 - k.length)

/-- The session that a complete exchange establishes: the one a leg already created, or a fresh
one. -/
def krbTarget (os : Os σ) (existing : Option UInt64) (px : Px σ) : Option UInt64 × Px σ :=
  match existing.filter (· ∈ px.shared.sessions) with
  | some sid => (some sid, px)
  | none => px.create os

/-- Establish session `sid` for the authenticated client. -/
def krbEstablish (srv : Srv σ) (h : ReqHdr) (wrapped signingRequired : Bool) (preauth : Bytes)
    (est : Established) (sid : UInt64) (px : Px σ) : Px σ :=
  let key := krbSessionKey est
  let px := px.onSession sid
  let s := (px.shared.sessions.lookup sid).getD {}
  let s := { s with
    sessionKey := key, established := true, guest := false, signingRequired
    user := est.client, kerberos := true, pac := est.pac, channels := 1 }
  let px := px.setSessions (px.shared.sessions.insert sid s)
  let sign := deriveSignCtx srv.env.crypto px.pc.dialect key preauth
  let enc := deriveEnc srv.env.crypto px.pc.dialect px.pc.cipher key preauth
  let ch := authenticated srv.cfg { preauth } signingRequired sign enc
  let px := px.setChannels (px.pc.channels.insert sid ch)
  let px := { px with pc := px.pc.logSetup preauth enc }
  px.ss h Status.success sid (encryptFlag srv.cfg enc)
    (krbToken wrapped Spnego.acceptCompleted est.out)

/-- The exchange is complete. -/
def krbDone (srv : Srv σ) (h : ReqHdr) (wrapped signingRequired : Bool) (leg : KrbLeg)
    (est : Established) (px : Px σ) : Px σ :=
  if unsealable srv.cfg px.pc.dialect px.pc.cipher then
    (krbAbandon leg.existing px).err h Status.accessDenied
  else
    match krbTarget srv.env.os leg.existing px with
    | (none, px) => px.disconnect
    | (some sid, px) => krbEstablish srv h wrapped signingRequired leg.preauth est sid px

def kerberosSessionSetup (srv : Srv σ) (h : ReqHdr) (msg : Bytes) (px : Px σ) : Px σ :=
  match parseSetup msg with
  | none => px.err h Status.invalidParameter
  | some r =>
    let incoming := Spnego.classify r.blob
    match krbAcquire srv px with
    | (.error st, px) => px.err h st
    | (.ok acc, px) =>
      let (leg, px) := krbLeg srv h msg acc incoming.token px
      match leg.step with
      | .done est => krbDone srv h incoming.spnego (r.signingRequired srv.cfg) leg est px
      | .continue out => krbContinue srv h incoming.spnego leg out px
      | .failed e => (krbAbandon leg.existing px).err h (statusForFailure e)

/-! ### The dispatch to a mechanism -/

/-- The security blob of a SESSION_SETUP. -/
def setupBlob (msg : Bytes) : Rdr Bytes := do
  Rdr.structureSize 25
  Rdr.skip (1 + 1 + 4 + 4)
  let off ← Rdr.u16
  let len ← Rdr.u16
  if len = 0 then pure [] else Rdr.get msg off.toNat (off.toNat + len.toNat)

/-- The mechanism of a blob; a later leg of a Kerberos exchange need not name it. -/
def setupMech (srv : Srv σ) (pc : ProtoConn) (h : ReqHdr) (blob : Bytes) : Spnego.Mech :=
  if srv.env.kerberos ∧ ((pc.channels.lookup h.sessionId).bind ChannelState.krbPending).isSome then
    .krb5
  else (Spnego.classify blob).mech

/-- Classify the security blob and route it to the mechanism that owns it, subject to the policy
and the build. -/
def sessionSetup (srv : Srv σ) (h : ReqHdr) (msg : Bytes) (px : Px σ) : Px σ :=
  match Rdr.parse (setupBlob msg) (msg.drop 64) with
  | none => px.err h Status.invalidParameter
  | some blob =>
    match setupMech srv px.pc h blob with
    | .krb5 =>
      if srv.cfg.auth.allowsKerberos ∧ srv.env.kerberos then kerberosSessionSetup srv h msg px
      else px.err h Status.notSupported
    | .ntlmssp | .unknown =>
      if srv.cfg.auth.allowsNtlm ∧ srv.env.ntlm then ntlmSessionSetup srv h msg px
      else px.err h Status.notSupported

/-! ### LOGOFF -/

/-- Drop this connection's channel; only an established channel can log off. -/
def logoff (srv : Srv σ) (h : ReqHdr) (px : Px σ) : Px σ :=
  let sid := px.chain.sessionId
  if (px.pc.channels.lookup sid).any (·.established) then
    let px := px.setChannels (px.pc.channels.erase sid)
    let px := match px.shared.sessions.lookup sid with
      | some s => { px with shared := dropChannel srv.env.os px.shared sid s }
      | none => px
    { px with tx := simpleResp px.tx h px.chain }
  else px.err h Status.userSessionDeleted

end RocketSmbd
