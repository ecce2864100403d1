import RocketSmbd.Lib.OneTime
import RocketSmbd.Session

/-!
# SMB2 core: headers and connection state (`smb2/mod.rs`)

The header codec, the protocol state of a connection (`ProtoConn`) with its per-session channels,
signing, and the TRANSFORM_HEADER of SMB3 encryption.
-/

namespace RocketSmbd

open ByteString

def cmdNegotiate : UInt16 := 0
def cmdSessionSetup : UInt16 := 1
def cmdLogoff : UInt16 := 2
def cmdTreeConnect : UInt16 := 3
def cmdTreeDisconnect : UInt16 := 4
def cmdCreate : UInt16 := 5
def cmdClose : UInt16 := 6
def cmdFlush : UInt16 := 7
def cmdRead : UInt16 := 8
def cmdWrite : UInt16 := 9
def cmdLock : UInt16 := 10
def cmdIoctl : UInt16 := 11
def cmdCancel : UInt16 := 12
def cmdEcho : UInt16 := 13
def cmdQueryDirectory : UInt16 := 14
def cmdChangeNotify : UInt16 := 15
def cmdQueryInfo : UInt16 := 16
def cmdSetInfo : UInt16 := 17
def cmdOplockBreak : UInt16 := 18

def oplockNone : UInt8 := 0x00
/-- RequestedOplockLevel meaning "a lease is requested via the RqLs create context". -/
def oplockLease : UInt8 := 0xFF

def leaseReadCaching : UInt32 := 0x01
def leaseHandleCaching : UInt32 := 0x02

/-- `b"RqLs"` -/
def ctxNameRqls : Bytes := [0x52, 0x71, 0x4C, 0x73]

def flagResponse : UInt32 := 0x1
def flagAsync : UInt32 := 0x2
def flagRelated : UInt32 := 0x4
def flagSigned : UInt32 := 0x8

def maxTransact : UInt32 := 4194304
def maxWrite : UInt32 := 4194304
/-- Reads at or above this size take the zero-copy splice path. -/
def zcMinRead : UInt32 := 8192
def hdrLen : ℕ := 64

/-- `[0xFE, b'S', b'M', b'B']` -/
def protoId : Bytes := [0xFE, 0x53, 0x4D, 0x42]

/-! ### Request headers -/

structure ReqHdr where
  creditCharge : UInt16
  command : UInt16
  credits : UInt16
  flags : UInt32
  next : UInt32
  msgId : UInt64
  treeId : UInt32
  sessionId : UInt64
  asyncId : Option UInt64
  deriving DecidableEq, Repr

/-- A flag bit is set. -/
def ReqHdr.has (h : ReqHdr) (flag : UInt32) : Prop := h.flags &&& flag ≠ 0

instance (h : ReqHdr) (flag : UInt32) : Decidable (h.has flag) :=
  inferInstanceAs (Decidable (_ ≠ _))

/-- The identity part of a header: asynchronous, or process, tree and session. -/
def hdrIds (flags : UInt32) : Rdr (Option UInt64 × UInt32 × UInt64) :=
  if flags &&& flagAsync ≠ 0 then do
    let asyncId ← Rdr.u64
    let sessionId ← Rdr.u64
    pure (some asyncId, 0, sessionId)
  else do
    let _ ← Rdr.u32
    let treeId ← Rdr.u32
    let sessionId ← Rdr.u64
    pure (none, treeId, sessionId)

def hdrFields : Rdr ReqHdr := do
  let magic ← Rdr.take 4
  if magic ≠ protoId then Rdr.fail
  else
    let size ← Rdr.u16
    if size ≠ 64 then Rdr.fail
    else
      let creditCharge ← Rdr.u16
      let _ ← Rdr.u32
      let command ← Rdr.u16
      let credits ← Rdr.u16
      let flags ← Rdr.u32
      let next ← Rdr.u32
      let msgId ← Rdr.u64
      let (asyncId, treeId, sessionId) ← hdrIds flags
      Rdr.skip 16
      pure { creditCharge, command, credits, flags, next, msgId, treeId, sessionId, asyncId }

def parseHdr (b : Bytes) : Option ReqHdr := Rdr.parse hdrFields b

/-! ### Connection state -/

structure SignCtx where
  alg : SignAlg
  key : Bytes
  deriving DecidableEq, Repr

/-- SMB3 encryption keys for one channel.  `nonceCtr` counts the frames sealed with `s2c`; its
low 64 bits are the nonce. -/
structure EncCtx where
  cipher : UInt16
  c2s : Bytes
  s2c : Bytes
  nonceCtr : ℕ
  deriving DecidableEq, Repr

/-- Auth state stashed between the NTLM challenge and the AUTHENTICATE. -/
structure PendingAuth where
  challenge : Bytes
  spnego : Bool
  binding : Bool
  deriving DecidableEq, Repr

/-- Per-connection, per-session channel state. -/
structure ChannelState where
  established : Bool := false
  signingRequired : Bool := false
  sign : Option SignCtx := none
  pending : Option PendingAuth := none
  preauth : Bytes := zeros 64
  enc : Option EncCtx := none
  encrypt : Bool := false
  krbPending : Option ℕ := none
  deriving DecidableEq, Repr

/-- What the completion of a pended request needs.  The last two fields are history: the s2c key
of the channel if it was encrypting when the request was accepted, and its signing context if the
request was accepted with `wantSign` on a channel that was not encrypting. -/
structure AsyncMeta where
  msgId : UInt64
  creditCharge : UInt16
  sessionId : UInt64
  asyncId : UInt64
  wantSign : Bool
  sealedUnder : Option Bytes
  signedUnder : Option SignCtx
  deriving DecidableEq

/-- A pended CHANGE_NOTIFY the reactor must watch via inotify. -/
structure NotifyPend where
  asyncId : UInt64
  fid : UInt64
  path : Path
  recursive : Bool
  filter : UInt32
  outLen : UInt32
  info : AsyncMeta
  deriving DecidableEq

structure NotifyDone where
  asyncId : UInt64
  status : UInt32
  deriving DecidableEq

/-- A live pend: the FileId of its handle and its async id.  The session that pended it and the
serial number of the handle are history. -/
structure ActivePend where
  fid : UInt64
  asyncId : UInt64
  sid : UInt64
  serial : ℕ
  deriving DecidableEq

/-- The CHANGE_NOTIFY queues of a connection: pends to register, completions to emit, and the
live pends. -/
structure NotifyQueues where
  nextAsyncId : UInt64 := 1
  new : List NotifyPend := []
  done : List NotifyDone := []
  active : List ActivePend := []

/-- The client's NEGOTIATE parameters that FSCTL_VALIDATE_NEGOTIATE_INFO repeats. -/
structure ClientNeg where
  secmode : UInt16
  caps : UInt32
  guid : Bytes
  deriving DecidableEq

/-- What becomes of an NTLM challenge: it is issued for a session, and taken by the AUTHENTICATE
message that is checked against it. -/
abbrev ChallengeStep := OneTime.Use UInt64 Bytes

/-- History of a connection, written and never read: the steps of its NTLM challenges, the preauth
hash and s2c key of every key derivation, the s2c key and counter of every sealed frame, and every
notify completion. -/
structure ConnHist where
  challenges : List ChallengeStep := []
  setups : List (Bytes × Bytes) := []
  seals : List (Bytes × ℕ) := []
  finals : List (AsyncMeta × Bytes) := []

/-- Per-connection protocol state. -/
structure ProtoConn where
  dialect : UInt16 := 0
  cipher : UInt16 := 0
  channels : FinMap UInt64 ChannelState := ∅
  maxRead : UInt32
  preauthNeg : Bytes := zeros 64
  creditsOut : ℤ := 0
  notify : NotifyQueues := {}
  wid : ℕ
  connIdx : ℕ
  connGen : UInt16
  close : Bool := false
  negotiated : Bool := false
  clientNeg : Option ClientNeg := none
  serverCaps : UInt32 := 0
  /-- Every MessageId below `msgLow` is used; `msgSeen` holds the used ids at or above it. -/
  msgLow : ℕ := 0
  msgSeen : Finset ℕ := ∅
  krbAcceptor : Option ℕ := none
  hist : ConnHist := {}

def ProtoConn.new {σ : Type} (srv : Srv σ) (wid connIdx : ℕ) (connGen : UInt16) : ProtoConn :=
  { maxRead := srv.maxRead, wid, connIdx, connGen }

/-- What the reactor needs to finish a zero-copy READ. -/
structure ZcReadPlan where
  fd : Fd
  offset : UInt64
  length : UInt32
  minCount : UInt32
  msgId : UInt64
  creditCharge : UInt16
  credits : UInt16
  treeId : UInt32
  sessionId : UInt64
  linked : Bool
  deriving DecidableEq

/-- Most members one compound frame may carry. -/
def maxCompound : ℕ := 128
/-- Once a compound's buffered responses pass this, the connection is dropped. -/
def compoundRespCap : ℕ := 8388608

inductive FrameAction
  | respond
  | zcRead (plan : ZcReadPlan)
  | respondClose
  | close
  deriving DecidableEq

/-- State threaded through a compound chain. -/
structure Chain where
  related : Bool := false
  sessionId : UInt64 := 0
  treeId : UInt32 := 0
  lastFid : Option UInt64 := none
  single : Bool := true
  /-- The transform header's SessionId when this compound arrived sealed. -/
  transformSid : Option UInt64
  deriving DecidableEq

/-! ### Response headers -/

/-- The 64 bytes of a synchronous response header; NextCommand and signature are zero. -/
def respHdr (h : ReqHdr) (st : UInt32) (related : Bool) (treeId : UInt32) (sessionId : UInt64) :
    Bytes :=
  protoId ++ p16 64 ++ p16 h.creditCharge ++ p32 st ++ p16 h.command ++ p16 h.credits ++
    p32 (flagResponse ||| (if related then flagRelated else 0)) ++ p32 0 ++ p64 h.msgId ++
    p32 0 ++ p32 treeId ++ p64 sessionId ++ zeros 16

/-- The 64 bytes of an asynchronous response header. -/
def respHdrAsync (info : AsyncMeta) (st : UInt32) (credits cmd : UInt16) : Bytes :=
  protoId ++ p16 64 ++ p16 info.creditCharge ++ p32 st ++ p16 cmd ++ p16 credits ++
    p32 (flagResponse ||| flagAsync) ++ p32 0 ++ p64 info.msgId ++ p64 info.asyncId ++
    p64 info.sessionId ++ zeros 16

@[simp] theorem respHdr_length (h : ReqHdr) (st : UInt32) (related : Bool) (treeId : UInt32)
    (sessionId : UInt64) : (respHdr h st related treeId sessionId).length = 64 := by
  simp [respHdr, protoId]

@[simp] theorem respHdrAsync_length (info : AsyncMeta) (st : UInt32) (credits cmd : UInt16) :
    (respHdrAsync info st credits cmd).length = 64 := by
  simp [respHdrAsync, protoId]

/-- Write a response header. -/
def beginResp (tx : Bytes) (h : ReqHdr) (st : UInt32) (related : Bool) (treeId : UInt32)
    (sessionId : UInt64) : Bytes :=
  tx ++ respHdr h st related treeId sessionId

/-- Write an async response header (interim STATUS_PENDING and final completions). -/
def beginRespAsync (tx : Bytes) (info : AsyncMeta) (st : UInt32) (credits cmd : UInt16) : Bytes :=
  tx ++ respHdrAsync info st credits cmd

/-- 9-byte SMB2 ERROR response body. -/
def errBody : Bytes := p16 9 ++ p8 0 ++ p8 0 ++ p32 0 ++ p8 0

def errResp (tx : Bytes) (h : ReqHdr) (st : UInt32) (chain : Chain) : Bytes :=
  beginResp tx h st chain.related chain.treeId chain.sessionId ++ errBody

def simpleResp (tx : Bytes) (h : ReqHdr) (chain : Chain) : Bytes :=
  beginResp tx h Status.success chain.related chain.treeId chain.sessionId ++ p16 4 ++ p16 0

/-- The answer of a handler that runs under the chain's session and tree: a status and a body, or
an error status. -/
def putReply (tx : Bytes) (h : ReqHdr) (chain : Chain) : Except UInt32 (UInt32 × Bytes) → Bytes
  | .ok (st, body) => beginResp tx h st chain.related chain.treeId chain.sessionId ++ body
  | .error st => errResp tx h st chain

/-- The 4-byte NBT prefix of a message of `len` bytes. -/
def nbtPrefix (len : ℕ) : Bytes :=
  [0, UInt8.ofNat (len / 65536), UInt8.ofNat (len / 256), UInt8.ofNat len]

/-- Fill in the NBT prefix reserved at `base`. -/
def finishNbtWith (tx : Bytes) (base len : ℕ) : Bytes := patch tx base (nbtPrefix len)

/-! ### Zero-copy READ responses -/

def readPlanHdr (plan : ZcReadPlan) : ReqHdr where
  creditCharge := plan.creditCharge
  command := cmdRead
  credits := plan.credits
  flags := 0
  next := 0
  msgId := plan.msgId
  treeId := plan.treeId
  sessionId := plan.sessionId
  asyncId := none

/-- NBT prefix, success header and READ response fixed part for `n` bytes of payload that the
reactor appends from the pipe. -/
def buildReadRespPrefix (plan : ZcReadPlan) (n : UInt32) : Bytes :=
  let tx :=
    beginResp (zeros 4) (readPlanHdr plan) Status.success false plan.treeId plan.sessionId ++
    p16 17 ++ p8 80 ++ p8 0 ++ p32 n ++ p32 0 ++ p32 0
  finishNbtWith tx 0 (UInt32.ofNat (tx.length - 4) + n).toNat

def buildReadErr (plan : ZcReadPlan) (st : UInt32) : Bytes :=
  let tx := beginResp (zeros 4) (readPlanHdr plan) st false plan.treeId plan.sessionId ++ errBody
  finishNbtWith tx 0 (tx.length - 4)

/-! ### Signing -/

section Signing

variable (cr : Crypto)

/-- Sign the message at `tx[start..stop]` in place and set the SIGNED flag. -/
def signInPlace (tx : Bytes) (start stop : ℕ) (sc : SignCtx) : Bytes :=
  let cur := UInt32.ofNat (leNat (tx.extract (start + 16) (start + 20)))
  let tx := patch32 tx (start + 16) (cur ||| flagSigned)
  patch tx (start + 48) (cr.smb2Signature sc.alg sc.key [tx.extract start stop])

/-- Verify a signed request message (signature field substituted with zeros). -/
def verifySignature (msg : Bytes) (sc : SignCtx) : Bool :=
  if msg.length < 64 then false
  else cr.smb2Signature sc.alg sc.key [msg.take 48, zeros 16, msg.drop 64] = msg.extract 48 64

/-- `b"SMBSigningKey\0"` -/
def labelSigningKey : Bytes :=
  [0x53, 0x4D, 0x42, 0x53, 0x69, 0x67, 0x6E, 0x69, 0x6E, 0x67, 0x4B, 0x65, 0x79, 0]
/-- `b"SMB2AESCMAC\0"` -/
def labelAesCmac : Bytes := [0x53, 0x4D, 0x42, 0x32, 0x41, 0x45, 0x53, 0x43, 0x4D, 0x41, 0x43, 0]
/-- `b"SmbSign\0"` -/
def contextSmbSign : Bytes := [0x53, 0x6D, 0x62, 0x53, 0x69, 0x67, 0x6E, 0]

/-- Derive the signing context for `dialect` from a 16-byte session key. -/
def deriveSignCtx (dialect : UInt16) (sessionKey preauth : Bytes) : SignCtx :=
  if dialect = 0x0202 ∨ dialect = 0x0210 then ⟨.hmacSha256, sessionKey⟩
  else if dialect = 0x0311 then ⟨.aesCmac, cr.kdf128 sessionKey labelSigningKey preauth⟩
  else ⟨.aesCmac, cr.kdf128 sessionKey labelAesCmac contextSmbSign⟩

end Signing

/-! ### The TRANSFORM_HEADER -/

/-- `[0xFD, b'S', b'M', b'B']` -/
def transformProto : Bytes := [0xFD, 0x53, 0x4D, 0x42]
def transformHdrLen : ℕ := 52

/-- A (de-NBT'd) frame is an SMB3 encrypted transform message. -/
def isTransform (frame : Bytes) : Bool := frame.take 4 = transformProto

/-- The SessionId of a transform header. -/
def transformSessionId (frame : Bytes) : UInt64 := UInt64.ofNat (leNat (frame.extract 44 52))

section Transform

variable (cr : Crypto)

/-- Decrypt a transform-wrapped frame into the inner plaintext messages. -/
def decryptTransform (frame : Bytes) (enc : EncCtx) : Option Bytes :=
  if frame.length < transformHdrLen ∨ frame.take 4 ≠ transformProto then none
  else
    let tag := frame.extract 4 20
    let origSize := leNat (frame.extract 36 40)
    let aad := frame.extract 20 transformHdrLen
    let nonce := frame.extract 20 (20 + cipherNonceLen enc.cipher)
    let ct := frame.drop transformHdrLen
    if ct.length ≠ origSize then none
    else cr.aeadOpen enc.cipher (enc.c2s.take (cipherKeyLen enc.cipher)) nonce aad ct tag

/-- The transform header from the Nonce field to its end, which is the AEAD's additional data. -/
def transformAad (nonceCtr : ℕ) (origSize : ℕ) (sessionId : UInt64) : Bytes :=
  leBytes 8 nonceCtr ++ zeros 8 ++ p32 (UInt32.ofNat origSize) ++ p16 0 ++ p16 1 ++ p64 sessionId

/-- The frame, with its NBT prefix, that seals `plain` under the counter value `nonceCtr`. -/
def sealedFrame (plain : Bytes) (enc : EncCtx) (nonceCtr : ℕ) (sessionId : UInt64) : Bytes :=
  let aad := transformAad nonceCtr plain.length sessionId
  let (ct, tag) := cr.aeadSeal enc.cipher (enc.s2c.take (cipherKeyLen enc.cipher))
    (aad.take (cipherNonceLen enc.cipher)) aad plain
  nbtPrefix (transformHdrLen + ct.length) ++ transformProto ++ tag ++ aad ++ ct

@[simp] theorem transformAad_length (n origSize : ℕ) (sid : UInt64) :
    (transformAad n origSize sid).length = 32 := by
  simp [transformAad]

/-- A sealed frame has the ciphertext and the tag of one seal. -/
theorem sealedFrame_split (plain : Bytes) (enc : EncCtx) (n : ℕ) (sid : UInt64) :
    let aad := transformAad n plain.length sid
    ∃ ct tag, cr.aeadSeal enc.cipher (enc.s2c.take (cipherKeyLen enc.cipher))
        (aad.take (cipherNonceLen enc.cipher)) aad plain = (ct, tag) ∧
      ct.length = plain.length ∧ tag.length = 16 ∧ sealedFrame cr plain enc n sid =
        nbtPrefix (transformHdrLen + ct.length) ++ transformProto ++ tag ++ aad ++ ct :=
  ⟨_, _, rfl, cr.aeadSeal_length .., cr.aeadSeal_tag_length .., rfl⟩

/-- Wrap a plaintext message or compound in a transform header under the next nonce, appending
to `tx`. -/
def wrapTransform (plain : Bytes) (enc : EncCtx) (sessionId : UInt64) (tx : Bytes) :
    EncCtx × Bytes :=
  let base := tx.length
  let tx := tx ++ zeros 4
  let hdr := tx.length
  let tx := tx ++ transformProto
  let sigOff := tx.length
  let enc := { enc with nonceCtr := enc.nonceCtr + 1 }
  let nonce16 := leBytes 8 enc.nonceCtr ++ zeros 8
  let tx := tx ++ zeros 16 ++ nonce16 ++ p32 (UInt32.ofNat plain.length) ++ p16 0 ++ p16 1 ++
    p64 sessionId
  let aadStart := hdr + 20
  let ctOff := tx.length
  let sealed := cr.aeadSeal enc.cipher (enc.s2c.take (cipherKeyLen enc.cipher))
    (nonce16.take (cipherNonceLen enc.cipher)) (tx.extract aadStart ctOff) plain
  let tx := patch (tx ++ sealed.1) sigOff sealed.2
  (enc, finishNbtWith tx base (tx.length - base - 4))

theorem cipherNonceLen_le (cipher : UInt16) : cipherNonceLen cipher ≤ 16 := by
  unfold cipherNonceLen
  split_ifs <;> omega

/-- What `wrapTransform` writes behind the buffer is one sealed frame. -/
theorem wrapTransform_eq (plain : Bytes) (enc : EncCtx) (sessionId : UInt64) (tx : Bytes) :
    wrapTransform cr plain enc sessionId tx =
      ({ enc with nonceCtr := enc.nonceCtr + 1 },
        tx ++ sealedFrame cr plain { enc with nonceCtr := enc.nonceCtr + 1 } (enc.nonceCtr + 1)
          sessionId) := by
  have hproto : transformProto.length = 4 := rfl
  unfold wrapTransform
  generalize enc.nonceCtr + 1 = n
  set aad := transformAad n plain.length sessionId with haad
  have haadLen : aad.length = 32 := transformAad_length ..
  have htake : aad.take (cipherNonceLen enc.cipher) =
      (leBytes 8 n ++ zeros 8).take (cipherNonceLen enc.cipher) := by
    have hle := cipherNonceLen_le enc.cipher
    have hlen : cipherNonceLen enc.cipher ≤ (leBytes 8 n ++ zeros 8).length := by simpa using hle
    rw [haad, transformAad]
    simp only [List.append_assoc] at hlen ⊢
    rw [← List.append_assoc, List.take_append_of_le_length hlen]
  -- the buffer up to the ciphertext, with the placeholders of prefix and signature
  have hbuf : tx ++ zeros 4 ++ transformProto ++ zeros 16 ++ (leBytes 8 n ++ zeros 8) ++
      p32 (UInt32.ofNat plain.length) ++ p16 0 ++ p16 1 ++ p64 sessionId =
        tx ++ zeros 4 ++ transformProto ++ zeros 16 ++ aad := by
    simp [haad, transformAad]
  have hextract : (tx ++ zeros 4 ++ transformProto ++ zeros 16 ++ aad).extract
      ((tx ++ zeros 4).length + 20)
      (tx ++ zeros 4 ++ transformProto ++ zeros 16 ++ aad).length = aad := by
    have h := extract_part (tx ++ zeros 4 ++ transformProto ++ zeros 16) aad []
    simpa [hproto, haadLen, Nat.add_assoc] using h
  obtain ⟨ct, tag, hout, -, htag, hsealed⟩ :=
    sealedFrame_split cr plain { enc with nonceCtr := n } n sessionId
  rw [hsealed]
  dsimp only at hout ⊢
  rw [hbuf, hextract, ← htake, hout]
  have hpatch : patch (tx ++ zeros 4 ++ transformProto ++ zeros 16 ++ aad ++ ct)
      (tx ++ zeros 4 ++ transformProto).length tag =
        tx ++ zeros 4 ++ (transformProto ++ tag ++ aad ++ ct) := by
    have h := patch_part (tx ++ zeros 4 ++ transformProto) (zeros 16) (aad ++ ct) tag
      (by simp [htag])
    simpa using h
  have hnbt := patch_part tx (zeros 4) (transformProto ++ tag ++ aad ++ ct)
    (nbtPrefix (transformHdrLen + ct.length)) rfl
  have hlen : (tx ++ zeros 4 ++ (transformProto ++ tag ++ aad ++ ct)).length - tx.length - 4 =
      transformHdrLen + ct.length := by
    simp [hproto, htag, haadLen, transformHdrLen]
    omega
  rw [hpatch, finishNbtWith, hlen, hnbt]
  simp [haad]

/-- Record a seal in the history of the connection. -/
def ProtoConn.logSeal (pc : ProtoConn) (enc : EncCtx) : ProtoConn :=
  { pc with hist := { pc.hist with seals := pc.hist.seals ++ [(enc.s2c, enc.nonceCtr)] } }

end Transform

/-! ### Asynchronous frames -/

/-- FILE_NOTIFY_INFORMATION entries: each is 4-aligned and names the offset of the next. -/
def notifyEntries : List (UInt32 × Str) → Bytes
  | [] => []
  | [(action, name)] =>
    let n16 := utf16le name
    p32 0 ++ p32 action ++ p32 (UInt32.ofNat n16.length) ++ n16
  | (action, name) :: more =>
    let n16 := utf16le name
    let len := 12 + n16.length
    let pad := (4 - len % 4) % 4
    p32 (UInt32.ofNat (len + pad)) ++ p32 action ++ p32 (UInt32.ofNat n16.length) ++ n16 ++
      zeros pad ++ notifyEntries more

section Async

variable (cr : Crypto)

/-- Sign an async response if the request asked for it and the channel still has a key, and fill
in the NBT prefix. -/
def finalizeAsync (channels : FinMap UInt64 ChannelState) (info : AsyncMeta) (tx : Bytes)
    (start : ℕ) : Bytes :=
  let tx :=
    if info.wantSign then
      match (channels.lookup info.sessionId).bind ChannelState.sign with
      | some sc => signInPlace cr tx start tx.length sc
      | none => tx
    else tx
  finishNbtWith tx 0 (tx.length - 4)

/-- The message of a final CHANGE_NOTIFY response, after its NBT placeholder. -/
def notifyFinalMsg (info : AsyncMeta) (st : UInt32) (events : List (UInt32 × Str))
    (outLen : UInt32) : Bytes :=
  let data := if st = Status.success then notifyEntries events else []
  if st = Status.success ∧ ¬ events.isEmpty ∧ data.length ≤ outLen.toNat then
    beginRespAsync (zeros 4) info st 0 cmdChangeNotify ++ p16 9 ++ p16 72 ++
      p32 (UInt32.ofNat data.length) ++ data
  else
    let finalSt := if st = Status.success then Status.notifyEnumDir else st
    beginRespAsync (zeros 4) info finalSt 0 cmdChangeNotify ++ errBody

/-- Build the final response for a pended CHANGE_NOTIFY: on an encrypting channel it is sealed. -/
def buildNotifyFinal (pc : ProtoConn) (info : AsyncMeta) (st : UInt32)
    (events : List (UInt32 × Str)) (outLen : UInt32) : ProtoConn × Bytes :=
  let tx := finalizeAsync cr pc.channels info (notifyFinalMsg info st events outLen) 4
  let (pc, frame) :=
    match pc.channels.lookup info.sessionId with
    | none => (pc, tx)
    | some ch =>
      match ch.encrypt, ch.enc with
      | true, some enc =>
        let (enc, frame) := wrapTransform cr (tx.drop 4) enc info.sessionId []
        let channels := pc.channels.insert info.sessionId { ch with enc := some enc }
        (ProtoConn.logSeal { pc with channels } enc, frame)
      | _, _ => (pc, tx)
  ({ pc with hist := { pc.hist with finals := pc.hist.finals ++ [(info, frame)] } }, frame)

/-- Build a complete NBT-framed lease break notification, signed if there is a signing context. -/
def buildLeaseBreak (b : BreakMsg) (sign : Option SignCtx) : Bytes :=
  let tx := zeros 4 ++ protoId ++ p16 64 ++ p16 0 ++ p32 0 ++ p16 cmdOplockBreak ++ p16 0 ++
    p32 flagResponse ++ p32 0 ++ p64 0xFFFFFFFFFFFFFFFF ++ p32 0 ++ p32 0 ++ p64 b.sessionId ++
    zeros 16 ++ p16 44 ++ p16 b.epoch ++ p32 0 ++ b.leaseKey ++ p32 b.curState ++
    p32 b.newState ++ p32 0 ++ p32 0 ++ p32 0
  let tx :=
    match sign with
    | some sc => signInPlace cr tx 4 tx.length sc
    | none => tx
  finishNbtWith tx 0 (tx.length - 4)

end Async

end RocketSmbd
