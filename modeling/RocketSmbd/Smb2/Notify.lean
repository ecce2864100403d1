import RocketSmbd.Smb2.Handle

/-!
# CHANGE_NOTIFY, CANCEL and IOCTL (`smb2/handlers.rs`)
-/

namespace RocketSmbd

open ByteString Vfs

variable {σ : Type}

/-! ### CHANGE_NOTIFY -/

structure NotifyReq where
  flags : UInt16
  outLen : UInt32
  fid : UInt64
  filter : UInt32

def notifyFields (chain : Chain) : Rdr NotifyReq := do
  Rdr.structureSize 32
  let flags ← Rdr.u16
  let outLen ← Rdr.u32
  let fid ← parseFid chain
  let filter ← Rdr.u32
  pure { flags, outLen, fid, filter }

/-- The completion of this request has to be signed. -/
def wantSign (ch : Option ChannelState) (h : ReqHdr) : Bool :=
  ch.any fun c => c.sign.isSome ∧ (c.signingRequired ∨ h.has flagSigned)

/-- The s2c key of a channel that encrypts. -/
def ChannelState.sealKey (c : ChannelState) : Option Bytes :=
  if c.encrypt then c.enc.map EncCtx.s2c else none

/-- Queue a pend, and return what its responses need.  The channel's keys at this moment go into
the history fields. -/
def acceptNotify (ch : Option ChannelState) (h : ReqHdr) (r : NotifyReq) (of : OpenFile)
    (s : Sx σ) : AsyncMeta × Sx σ :=
  let q := s.notify
  let asyncId := q.nextAsyncId
  let info : AsyncMeta :=
    { msgId := h.msgId, creditCharge := h.creditCharge, sessionId := s.chain.sessionId, asyncId
      wantSign := wantSign ch h
      sealedUnder := ch.bind ChannelState.sealKey
      signedUnder := ch.bind fun c => if wantSign ch h ∧ ¬ c.encrypt then c.sign else none }
  let pend : NotifyPend :=
    { asyncId, fid := r.fid, path := of.path, recursive := r.flags &&& 0x1 ≠ 0, filter := r.filter
      outLen := min r.outLen maxTransact, info }
  (info, { s with
    notify := { q with
      nextAsyncId := q.nextAsyncId + 1
      new := q.new ++ [pend]
      active := q.active ++
        [{ fid := r.fid, asyncId, sid := s.chain.sessionId, serial := of.serial }] } })

def changeNotify (ch : Option ChannelState) (h : ReqHdr) (body : Bytes) :
    Handler σ AsyncMeta := do
  let s ← Eff.read
  let r ← Eff.need Status.invalidParameter (Rdr.parse (notifyFields s.chain) body)
  Eff.refuse (maxNotifyPerConn ≤ s.notify.active.length) Status.insufficientResources
  let of ← Handler.getHandle r.fid
  Eff.refuse (¬ of.isDir) Status.invalidParameter
  Eff.total (acceptNotify ch h r of)

/-- The interim response to an accepted CHANGE_NOTIFY, or the error response. -/
def putNotifyReply (tx : Bytes) (h : ReqHdr) (chain : Chain) : Except UInt32 AsyncMeta → Bytes
  | .ok info => beginRespAsync tx info Status.pending h.credits cmdChangeNotify ++ errBody
  | .error st => errResp tx h st chain

/-! ### CANCEL -/

/-- Remove the first pend with async id `aid`. -/
def removeActive (aid : UInt64) : List ActivePend → Option (List ActivePend)
  | [] => none
  | a :: active => if a.asyncId = aid then some active else (removeActive aid active).map (a :: ·)

/-- CANCEL has no response of its own: a matching pended operation completes with
STATUS_CANCELLED. -/
def cancel (q : NotifyQueues) (h : ReqHdr) : NotifyQueues :=
  match h.asyncId with
  | none => q
  | some aid =>
    match removeActive aid q.active with
    | none => q
    | some active => { q with active, done := q.done ++ [⟨aid, Status.cancelled⟩] }

/-! ### IOCTL -/

def fsctlValidateNegotiateInfo : UInt32 := 0x00140204
def fsctlQueryNetworkInterfaceInfo : UInt32 := 0x001401FC
def supportedDialects : List UInt16 := [0x0311, 0x0302, 0x0300, 0x0210, 0x0202]
def securityModeSigningEnabled : UInt16 := 0x1
def securityModeSigningRequired : UInt16 := 0x2

/-- The SecurityMode the server advertises. -/
def serverSecmode (cfg : Config) : UInt16 :=
  if cfg.signingRequired then securityModeSigningEnabled ||| securityModeSigningRequired
  else securityModeSigningEnabled

/-- The dialect selected from a client's list. -/
def chooseDialect (dialects : List UInt16) : Option UInt16 :=
  supportedDialects.find? (dialects.contains ·)

/-- It is the greatest one that both sides have. -/
theorem chooseDialect_eq_some_iff {dialects : List UInt16} {d : UInt16} :
    chooseDialect dialects = some d ↔ (d ∈ supportedDialects ∧ d ∈ dialects) ∧
      ∀ d' ∈ supportedDialects, d' ∈ dialects → d' ≤ d := by
  have hgreatest : ∀ {d}, chooseDialect dialects = some d →
      (d ∈ supportedDialects ∧ d ∈ dialects) ∧
        ∀ d' ∈ supportedDialects, d' ∈ dialects → d' ≤ d := by
    intro d h
    obtain ⟨hd, pre, post, hsplit, hpre⟩ := List.find?_eq_some_iff_append.1 h
    -- what is listed after the one that is found is smaller
    have hsorted : supportedDialects.Pairwise (· ≥ ·) := by decide
    rw [hsplit] at hsorted ⊢
    refine ⟨⟨by simp, by simpa using hd⟩, fun d' hd' hmem => ?_⟩
    rcases List.mem_append.1 hd' with hin | hin
    · exact absurd hmem (by simpa using hpre d' hin)
    · rcases List.mem_cons.1 hin with rfl | hin
      · exact UInt16.le_refl _
      · exact List.rel_of_pairwise_cons (List.pairwise_append.1 hsorted).2.1 hin
  refine ⟨hgreatest, fun ⟨⟨hsup, hmem⟩, hmax⟩ => ?_⟩
  obtain ⟨d', hd'⟩ : ∃ d', chooseDialect dialects = some d' :=
    Option.isSome_iff_exists.1 (List.find?_isSome.2 ⟨d, hsup, by simpa using hmem⟩)
  obtain ⟨⟨hsup', hmem'⟩, hmax'⟩ := hgreatest hd'
  rw [hd', UInt16.le_antisymm (hmax d' hsup' hmem') (hmax' d hsup hmem)]

/-- One NETWORK_INTERFACE_INFO, of 152 bytes. -/
def interfaceInfo (next : UInt32) (i : Iface) : Bytes :=
  let sa := match i.addr with
    | .v4 octets => p16 2 ++ p16 0 ++ octets ++ zeros 8
    | .v6 octets => p16 23 ++ p16 0 ++ p32 0 ++ octets ++ p32 0
  p32 next ++ p32 i.index ++ p32 i.capability ++ p32 0 ++ p64 i.speed ++ sa ++
    zeros (128 - sa.length)

/-- The interface list as a chain of NETWORK_INTERFACE_INFO structures (`net.rs`). -/
def encodeInterfaceInfo : List Iface → Bytes
  | [] => []
  | [i] => interfaceInfo 0 i
  | i :: is => interfaceInfo 152 i ++ encodeInterfaceInfo is

/-- The control code of an IOCTL. -/
def ioctlCtl : Rdr UInt32 := do
  Rdr.structureSize 57
  Rdr.skip 2
  let ctl ← Rdr.u32
  Rdr.skip 16
  pure ctl

/-- The NEGOTIATE parameters and dialects that a VALIDATE_NEGOTIATE_INFO repeats. -/
def validateInput : Rdr (ClientNeg × List UInt16) := do
  let caps ← Rdr.u32
  let guid ← Rdr.take 16
  let secmode ← Rdr.u16
  let n ← Rdr.u16
  let dialects ← Rdr.many Rdr.u16 (min n.toNat 16)
  pure ({ secmode, caps, guid }, dialects)

/-- The input buffer of an IOCTL. -/
def ioctlInput (msg : Bytes) : Option (ClientNeg × List UInt16) := do
  let (inOff, inLen) ← Rdr.parse (do
    let inOff ← Rdr.u32
    let inLen ← Rdr.u32
    pure (inOff.toNat, inLen.toNat)) (msg.drop (64 + 24))
  let b ← slice msg inOff (inOff + inLen)
  Rdr.parse validateInput b

/-- The client repeats exactly what it sent in NEGOTIATE. -/
def negotiateValid (pc : ProtoConn) (msg : Bytes) : Bool :=
  match ioctlInput msg, pc.clientNeg with
  | some (cn, dialects), some orig => cn = orig ∧ chooseDialect dialects = some pc.dialect
  | _, _ => false

/-- Outcome of an IOCTL: a response, or a disconnect because NEGOTIATE was tampered with. -/
inductive IoctlOut
  | reply (r : Except UInt32 Body)
  | disconnect

def ioctlBody (ctl : UInt32) (out : Bytes) : Bytes :=
  p16 49 ++ p16 0 ++ p32 ctl ++ p64 0xFFFFFFFFFFFFFFFF ++ p64 0xFFFFFFFFFFFFFFFF ++ p32 112 ++
    p32 0 ++ p32 112 ++ p32 (UInt32.ofNat out.length) ++ p32 0 ++ p32 0 ++ out

def ioctl (srv : Srv σ) (pc : ProtoConn) (msg : Bytes) : IoctlOut :=
  match Rdr.parse ioctlCtl (msg.drop 64) with
  | none => .reply (.error Status.invalidParameter)
  | some ctl =>
    if ctl = fsctlValidateNegotiateInfo then
      if negotiateValid pc msg then
        .reply (.ok (Status.success, ioctlBody ctl
          (p32 pc.serverCaps ++ srv.guid ++ p16 (serverSecmode srv.cfg) ++ p16 pc.dialect)))
      else .disconnect
    else if ctl = fsctlQueryNetworkInterfaceInfo then
      .reply (.ok (Status.success, ioctlBody ctl
        (encodeInterfaceInfo (srv.interfaces.filter fun i => ¬ i.loopback))))
    else .reply (.error Status.notSupported)

end RocketSmbd
