import RocketSmbd.Smb2.Dispatch

/-!
# Frames (`process_frame` and `process_plain`, `smb2/mod.rs`)

A frame is a chain of requests.  `walk` dispatches them in order and collects their responses;
two passes over the responses then sign them and chain the preauth hashes.  A transform frame is
decrypted, its content processed, and the response sealed.
-/

namespace RocketSmbd

open ByteString Vfs

variable {σ : Type}

/-- Per-response bookkeeping for the post-passes. -/
structure RespRec where
  cmd : UInt16
  start : ℕ
  reqOff : ℕ
  reqEnd : ℕ
  sessId : UInt64
  /-- LOGOFF only: the session's signing key, taken before the handler drops the channel. -/
  sign : Option SignCtx

/-- The variables of the loop over the members of a compound. -/
structure Walk (σ : Type) where
  px : Px σ
  plan : Option ZcReadPlan := none
  prevStart : Option ℕ := none
  recs : List RespRec := []
  off : ℕ := 0
  members : ℕ := 0

/-- A member of a compound and the state its dispatch starts from. -/
structure Member (σ : Type) where
  hdr : ReqHdr
  msgEnd : ℕ
  msg : Bytes
  px : Px σ
  respStart : ℕ
  logoffSign : Option SignCtx

/-- Where the message of a header at `off` ends. -/
def messageEnd (frame : Bytes) (off : ℕ) (h : ReqHdr) : ℕ :=
  if 0 < h.next then min (off + h.next.toNat) frame.length else frame.length

/-- Align the next response and patch the previous header's NextCommand. -/
def linkResponse (base : ℕ) (prevStart : Option ℕ) (tx : Bytes) : Bytes :=
  match prevStart with
  | some p =>
    let tx := pad8 tx (base + 4)
    patch32 tx (p + 20) (UInt32.ofNat (tx.length - p))
  | none => tx

/-- The signing key of the session that a LOGOFF is about to end. -/
def logoffKey (pc : ProtoConn) (h : ReqHdr) (chain : Chain) : Option SignCtx :=
  if h.command = cmdLogoff then
    let sid := if h.sessionId ≠ 0 ∧ h.sessionId ≠ 0xFFFFFFFFFFFFFFFF then h.sessionId
      else chain.sessionId
    (pc.channels.lookup sid).bind ChannelState.sign
  else none

/-- A compound with this many members, or this much buffered response, is dropped. -/
def tooLarge (base : ℕ) (w : Walk σ) : Prop :=
  maxCompound < w.members + 1 ∨ compoundRespCap < w.px.tx.length - base

instance (base : ℕ) (w : Walk σ) : Decidable (tooLarge base w) :=
  inferInstanceAs (Decidable (_ ∨ _))

/-- The member at the walk's offset, if the walk gets to its dispatch. -/
def memberAt (frame : Bytes) (base : ℕ) (w : Walk σ) : Option (Member σ) :=
  match parseHdr (frame.drop w.off) with
  | none => none
  | some h =>
    let msgEnd := messageEnd frame w.off h
    if tooLarge base w ∨ msgEnd < w.off + hdrLen then none
    else
      let tx := linkResponse base w.prevStart w.px.tx
      let chain := { w.px.chain with single := w.off = 0 ∧ h.next = 0 }
      some {
        hdr := h, msgEnd, msg := frame.extract w.off msgEnd
        px := { w.px with chain, tx }
        respStart := tx.length
        logoffSign := logoffKey w.px.pc h chain }

/-- The walk ends at its offset without a dispatch: no header, a message cut short, or a compound
that is too large, which disconnects. -/
def endWalk (frame : Bytes) (base : ℕ) (w : Walk σ) : Walk σ :=
  if (parseHdr (frame.drop w.off)).isSome ∧ tooLarge base w then { w with px := w.px.disconnect }
  else w

/-- The walk after the dispatch of a member. -/
def afterMember (srv : Srv σ) (w : Walk σ) (m : Member σ) : Walk σ :=
  let (px, z) := dispatch srv m.hdr m.msg m.px
  let answered : Prop := m.respStart < px.tx.length
  { px
    plan := z.or w.plan
    prevStart := if answered then some m.respStart else w.prevStart
    recs := if answered then
        w.recs ++ [{ cmd := m.hdr.command, start := m.respStart, reqOff := w.off
                     reqEnd := m.msgEnd, sessId := px.chain.sessionId, sign := m.logoffSign }]
      else w.recs
    off := w.off + m.hdr.next.toNat
    members := w.members + 1 }

/-- The compound goes on after this member. -/
def Member.goesOn (frame : Bytes) (w : Walk σ) (m : Member σ) : Prop :=
  m.hdr.next ≠ 0 ∧ w.off + m.hdr.next.toNat + hdrLen ≤ frame.length

instance (frame : Bytes) (w : Walk σ) (m : Member σ) : Decidable (m.goesOn frame w) :=
  inferInstanceAs (Decidable (_ ∧ _))

/-- Dispatch the members of a compound.  After `maxCompound` of them the next one ends the walk,
so `maxCompound + 1` rounds are enough. -/
def walkFrom (srv : Srv σ) (frame : Bytes) (base : ℕ) : ℕ → Walk σ → Walk σ
  | 0, w => w
  | fuel + 1, w =>
    match memberAt frame base w with
    | none => endWalk frame base w
    | some m =>
      let w' := afterMember srv w m
      if m.goesOn frame w then walkFrom srv frame base fuel w' else w'

def walk (srv : Srv σ) (frame : Bytes) (base : ℕ) (w : Walk σ) : Walk σ :=
  walkFrom srv frame base (maxCompound + 1) w

/-! ### Post-passes -/

/-- The responses with the position where each one ends. -/
def withEnds (len : ℕ) : List RespRec → List (RespRec × ℕ)
  | [] => []
  | [r] => [(r, len)]
  | r :: r' :: rs => (r, r'.start) :: withEnds len (r' :: rs)

/-- The key that signs a response: that of its session's channel as it is now, or the one a
LOGOFF took. -/
def signKey (pc : ProtoConn) (r : RespRec) : Option SignCtx :=
  ((pc.channels.lookup r.sessId).bind ChannelState.sign).or r.sign

/-- Post-pass 1: sign every response whose session has a signing key. -/
def signPass (cr : Crypto) (pc : ProtoConn) (recs : List (RespRec × ℕ)) (tx : Bytes) : Bytes :=
  recs.foldl (fun tx re =>
    match signKey pc re.1 with
    | some sc => signInPlace cr tx re.1.start re.2 sc
    | none => tx) tx

/-- Chain one exchange into its preauth hash: NEGOTIATE into the connection's, an interim
SESSION_SETUP response into its channel's. -/
def chainPreauth (cr : Crypto) (frame tx : Bytes) (pc : ProtoConn) (re : RespRec × ℕ) : ProtoConn :=
  let (rec, stop) := re
  if rec.cmd = cmdNegotiate then
    let h0 := cr.sha512 (zeros 64 ++ frame.extract rec.reqOff rec.reqEnd)
    { pc with preauthNeg := cr.sha512 (h0 ++ tx.extract rec.start stop) }
  else if rec.cmd = cmdSessionSetup ∧
      UInt32.ofNat (leNat (tx.extract (rec.start + 8) (rec.start + 12))) =
        Status.moreProcessingRequired then
    { pc with
      channels := pc.channels.modify rec.sessId fun ch =>
        { ch with preauth := cr.sha512 (ch.preauth ++ tx.extract rec.start stop) } }
  else pc

/-- Post-pass 2 (SMB 3.1.1): preauth integrity hash chaining over the transmitted bytes. -/
def preauthPass (cr : Crypto) (frame tx : Bytes) (recs : List (RespRec × ℕ)) (pc : ProtoConn) :
    ProtoConn :=
  if pc.dialect = 0x0311 then recs.foldl (chainPreauth cr frame tx) pc else pc

/-! ### Plaintext frames -/

/-- What processing a frame leaves behind. -/
structure FrameOut (σ : Type) where
  shared : Shared σ
  pc : ProtoConn
  tx : Bytes
  action : FrameAction

/-- Close a descriptor that a plan owns. -/
def closePlan (os : Os σ) (sh : Shared σ) (plan : Option ZcReadPlan) : Shared σ :=
  match plan with
  | some p => { sh with host := sh.host.act (os.close p.fd) }
  | none => sh

/-- An SMB1 message: a NEGOTIATE that offers SMB2 gets the wildcard response, one that does not is
refused; anything else disconnects. -/
def processSmb1 (srv : Srv σ) (sh : Shared σ) (pc : ProtoConn) (frame tx : Bytes)
    (transformSid : Option UInt64) : FrameOut σ :=
  if pc.negotiated ∨ transformSid.isSome then ⟨sh, pc, tx, .close⟩
  else
    match smb1NegotiateDialects frame with
    | none => ⟨sh, pc, tx, .close⟩
    | some dialects =>
      if ¬ smb1OffersSmb2 dialects then
        let out := smb1NegotiateRefuse frame (tx ++ zeros 4)
        ⟨sh, pc, finishNbtWith out tx.length (out.length - tx.length - 4), .respondClose⟩
      else
        let px := negotiateRespSmb1Wildcard srv
          ⟨sh, pc, { transformSid }, tx ++ zeros 4⟩
        ⟨px.shared, px.pc,
          finishNbtWith px.tx tx.length (px.tx.length - tx.length - 4), .respond⟩

/-- The end of a frame whose members have been dispatched: `base` bytes were in the transmit
buffer before it. -/
def finishWalk (srv : Srv σ) (frame : Bytes) (base : ℕ) (sealed : Bool) (w : Walk σ) :
    FrameOut σ :=
  let pc := w.px.pc
  let tx := w.px.tx
  if pc.close then ⟨closePlan srv.env.os w.px.shared w.plan, pc, tx.take base, .close⟩
  else
    match w.plan with
    | some p => ⟨w.px.shared, pc, tx.take base, .zcRead p⟩
    | none =>
      let recs := withEnds tx.length w.recs
      let tx := if sealed then tx else signPass srv.env.crypto pc recs tx
      let pc := preauthPass srv.env.crypto frame tx recs pc
      let total := tx.length - base - 4
      let tx := if total = 0 then tx.take base else finishNbtWith tx base total
      ⟨w.px.shared, pc, tx, .respond⟩

/-- The walk at the start of a frame. -/
def startWalk (sh : Shared σ) (pc : ProtoConn) (tx : Bytes) (transformSid : Option UInt64) :
    Walk σ :=
  { px := ⟨sh, pc, { transformSid }, tx ++ zeros 4⟩ }

/-- Process plaintext messages; `transformSid` is the session of the transform they arrived in. -/
def processPlain (srv : Srv σ) (sh : Shared σ) (pc : ProtoConn) (frame tx : Bytes)
    (transformSid : Option UInt64) : FrameOut σ :=
  if frame.take 4 = smb1ProtoId then processSmb1 srv sh pc frame tx transformSid
  else
    finishWalk srv frame tx.length transformSid.isSome
      (walk srv frame tx.length (startWalk sh pc tx transformSid))

/-! ### Frames -/

/-- A session is encrypting from its first sealed frame on. -/
def startEncrypting (pc : ProtoConn) (sid : UInt64) : ProtoConn :=
  { pc with channels := pc.channels.modify sid fun c => { c with encrypt := true } }

/-- Seal a response under the keys of the session's channel, or under those the request arrived
with if the channel is gone, and store the counter. -/
def sealResponse (cr : Crypto) (pc : ProtoConn) (sid : UInt64) (enc : EncCtx) (inner tx : Bytes) :
    ProtoConn × Bytes :=
  let enc := ((pc.channels.lookup sid).bind ChannelState.enc).getD enc
  let (enc2, tx) := wrapTransform cr (inner.drop 4) enc sid tx
  let pc := pc.logSeal enc2
  match pc.channels.lookup sid with
  | some c =>
    if c.enc.any fun e => e.s2c = enc2.s2c then
      ({ pc with channels := pc.channels.insert sid { c with enc := some enc2 } }, tx)
    else (pc, tx)
  | none => (pc, tx)

/-- A sealed frame whose content is `plain`. -/
def processSealed (srv : Srv σ) (sh : Shared σ) (pc : ProtoConn) (sid : UInt64) (enc : EncCtx)
    (plain tx : Bytes) : FrameOut σ :=
  let out := processPlain srv sh (startEncrypting pc sid) plain [] (some sid)
  match out.action with
  | .close | .respondClose => ⟨out.shared, out.pc, tx, .close⟩
  | action =>
    let sh := match action with
      | .zcRead p => closePlan srv.env.os out.shared (some p)
      | _ => out.shared
    if out.tx.length ≤ 4 then ⟨sh, out.pc, tx, .respond⟩
    else
      let (pc, tx) := sealResponse srv.env.crypto out.pc sid enc out.tx tx
      ⟨sh, pc, tx, .respond⟩

/-- The keys with which a transform frame's session is decrypted. -/
def frameKeys (pc : ProtoConn) (frame : Bytes) : Option EncCtx :=
  (pc.channels.lookup (transformSessionId frame)).bind ChannelState.enc

/-- The content of a transform frame that decrypts, with the keys used. -/
def openFrame (cr : Crypto) (pc : ProtoConn) (frame : Bytes) : Option (EncCtx × Bytes) :=
  if frame.length < transformHdrLen then none
  else
    (frameKeys pc frame).bind fun enc =>
      (decryptTransform cr frame enc).map fun plain => (enc, plain)

/-- Process one NetBIOS-framed message; the response is appended to `tx`. -/
def processFrame (srv : Srv σ) (sh : Shared σ) (pc : ProtoConn) (frame tx : Bytes) : FrameOut σ :=
  if isTransform frame then
    match openFrame srv.env.crypto pc frame with
    | none => ⟨sh, pc, tx, .close⟩
    | some (enc, plain) => processSealed srv sh pc (transformSessionId frame) enc plain tx
  else processPlain srv sh pc frame tx none

end RocketSmbd
