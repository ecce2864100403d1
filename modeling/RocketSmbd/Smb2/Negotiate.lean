import RocketSmbd.Ntlm
import RocketSmbd.Smb2.Notify

/-!
# NEGOTIATE (`smb2/handlers.rs`)

`Px` is the state of a connection-level handler.  SMB2 NEGOTIATE selects dialect and cipher, once
per connection; an SMB1 NEGOTIATE is answered with the SMB2 wildcard or refused.
-/

namespace RocketSmbd

open ByteString Vfs

variable {σ : Type}

/-- The state of a connection-level handler: the shared state, the connection, the compound's
chain and the transmit buffer. -/
structure Px (σ : Type) where
  shared : Shared σ
  pc : ProtoConn
  chain : Chain
  tx : Bytes

namespace Px

/-- Answer with an error response. -/
def err (px : Px σ) (h : ReqHdr) (st : UInt32) : Px σ :=
  { px with tx := errResp px.tx h st px.chain }

/-- Disconnect after this frame. -/
def disconnect (px : Px σ) : Px σ := { px with pc := { px.pc with close := true } }

/-- The state outside, replaced. -/
def withOs (px : Px σ) (s : σ) : Px σ :=
  { px with shared := { px.shared with host := { px.shared.host with os := s } } }

/-- A system call that cannot fail. -/
def ask {A : Type} (px : Px σ) (f : σ → A × σ) : A × Px σ :=
  let (a, s) := f px.shared.host.os
  (a, px.withOs s)

end Px

/-! ### The response -/

def capLeasing : UInt32 := 0x2
def capLargeMtu : UInt32 := 0x4
def capMultiChannel : UInt32 := 0x8

/-- The capabilities advertised for a dialect. -/
def negotiateCaps (cfg : Config) (dialect : UInt16) : UInt32 :=
  capLargeMtu ||| (if 0x0300 ≤ dialect ∧ cfg.multichannel then capMultiChannel else 0) |||
    (if 0x0210 ≤ dialect ∧ cfg.oplocks then capLeasing else 0)

/-- The fixed part of a NEGOTIATE response body and the security buffer; number and offset of the
contexts are zero. -/
def negotiateFixed (srv : Srv σ) (maxRead : UInt32) (dialect : UInt16) (now : UInt64) : Bytes :=
  let hint := if srv.env.ntlm then Ntlm.spnegoHint else []
  p16 65 ++ p16 (serverSecmode srv.cfg) ++ p16 dialect ++ p16 0 ++ srv.guid ++
    p32 (negotiateCaps srv.cfg dialect) ++ p32 maxTransact ++ p32 maxRead ++ p32 maxWrite ++
    p64 now ++ p64 srv.startFt ++ p16 128 ++ p16 (UInt16.ofNat hint.length) ++ p32 0 ++ hint

/-- Write the negotiate contexts of a 3.1.1 response, and count them. -/
def putNegotiateContexts (cipher : UInt16) (salt : Bytes) (respStart : ℕ) (tx : Bytes) :
    UInt16 × Bytes :=
  let tx := tx ++ (p16 1 ++ p16 38 ++ p32 0 ++ p16 1 ++ p16 32 ++ p16 1 ++ salt)
  if cipher ≠ 0 then
    (2, pad8 tx respStart ++ (p16 2 ++ p16 4 ++ p32 0 ++ p16 1 ++ p16 cipher))
  else (1, tx)

/-- Write the body of a NEGOTIATE response whose header starts at `respStart`.  Number and offset
of the contexts are patched in when they are known. -/
def negotiateBody (srv : Srv σ) (maxRead : UInt32) (dialect cipher : UInt16) (now : UInt64)
    (salt : Bytes) (respStart : ℕ) (tx : Bytes) : Bytes :=
  let body := respStart + 64
  let tx := tx ++ negotiateFixed srv maxRead dialect now
  if dialect = 0x0311 then
    let tx := pad8 tx respStart
    let ctxOff := tx.length - respStart
    let (count, tx) := putNegotiateContexts cipher salt respStart tx
    let tx := patch32 tx (body + 60) (UInt32.ofNat ctxOff)
    patch tx (body + 6) (p16 count)
  else tx

/-- Write the NEGOTIATE response and record the advertised capabilities. -/
def negotiateResp (srv : Srv σ) (h : ReqHdr) (dialect cipher : UInt16) (px : Px σ) : Px σ :=
  let (now, px) := px.ask (filetimeNow srv.env.os)
  let (salt, px) :=
    if dialect = 0x0311 then px.ask (srv.env.os.urandom 32) else ([], px)
  { px with
    pc := { px.pc with serverCaps := negotiateCaps srv.cfg dialect }
    tx := negotiateBody srv px.pc.maxRead dialect cipher now salt px.tx.length
      (beginResp px.tx h Status.success false 0 0) }

theorem pad8_append (p tx : Bytes) (base : ℕ) :
    pad8 (p ++ tx) (p.length + base) = p ++ pad8 tx base := by
  unfold pad8
  rw [List.length_append, Nat.add_sub_add_left]
  dsimp only
  split_ifs
  · rw [List.append_assoc]
  · rfl

theorem patch32_append (p tx : Bytes) (off : ℕ) (v : UInt32) :
    patch32 (p ++ tx) (p.length + off) v = p ++ patch32 tx off v := patch_append_right p tx _ off

theorem putNegotiateContexts_append (cipher : UInt16) (salt : Bytes) (respStart : ℕ)
    (p tx : Bytes) :
    putNegotiateContexts cipher salt (p.length + respStart) (p ++ tx) =
      ((putNegotiateContexts cipher salt respStart tx).1,
        p ++ (putNegotiateContexts cipher salt respStart tx).2) := by
  unfold putNegotiateContexts
  dsimp only
  split_ifs
  · rw [List.append_assoc, pad8_append, List.append_assoc]
  · rw [List.append_assoc]

/-- The body does not depend on what is in the buffer before the response. -/
theorem negotiateBody_append (srv : Srv σ) (maxRead : UInt32) (dialect cipher : UInt16)
    (now : UInt64) (salt : Bytes) (respStart : ℕ) (p tx : Bytes) :
    negotiateBody srv maxRead dialect cipher now salt (p.length + respStart) (p ++ tx) =
      p ++ negotiateBody srv maxRead dialect cipher now salt respStart tx := by
  unfold negotiateBody
  dsimp only
  rw [List.append_assoc, pad8_append, putNegotiateContexts_append, List.length_append,
    Nat.add_sub_add_left]
  split_ifs
  · simp only [Nat.add_assoc, patch32_append, patch_append_right]
  · rfl

theorem le_pad8 {a b : Bytes} (h : a <+: b) (base : ℕ) : a <+: pad8 b base := by
  unfold pad8
  dsimp only
  split_ifs
  · exact h.trans (List.prefix_append _ _)
  · exact h

theorem le_patch {a b : Bytes} (h : a <+: b) {off : ℕ} (hoff : a.length ≤ off) (v : Bytes) :
    a <+: patch b off v := by
  obtain ⟨rest, rfl⟩ := h
  obtain ⟨d, rfl⟩ := Nat.exists_eq_add_of_le hoff
  rw [patch_append_right]
  exact List.prefix_append _ _

theorem le_putNegotiateContexts {a tx : Bytes} (h : a <+: tx) (cipher : UInt16) (salt : Bytes)
    (respStart : ℕ) : a <+: (putNegotiateContexts cipher salt respStart tx).2 := by
  unfold putNegotiateContexts
  dsimp only
  split_ifs
  · exact (le_pad8 (h.trans (List.prefix_append _ _)) _).trans (List.prefix_append _ _)
  · exact h.trans (List.prefix_append _ _)

/-- The body follows a 64-byte header and leaves it alone. -/
theorem negotiateBody_eq (srv : Srv σ) (maxRead : UInt32) (dialect cipher : UInt16) (now : UInt64)
    (salt p hdr : Bytes) (hlen : hdr.length = 64) :
    ∃ body, negotiateBody srv maxRead dialect cipher now salt p.length (p ++ hdr) =
      p ++ (hdr ++ body) := by
  have hkeep : p ++ hdr <+:
      negotiateBody srv maxRead dialect cipher now salt p.length (p ++ hdr) := by
    have hoff : ∀ k, (p ++ hdr).length ≤ p.length + 64 + k := by
      intro k
      rw [List.length_append]
      omega
    unfold negotiateBody
    dsimp only
    split_ifs
    · refine le_patch (le_patch (le_putNegotiateContexts (le_pad8 ?_ _) _ _ _) (hoff 60) _)
        (hoff 6) _
      exact List.prefix_append _ _
    · exact List.prefix_append _ _
  obtain ⟨body, hbody⟩ := hkeep
  exact ⟨body, by rw [← hbody, List.append_assoc]⟩

/-! ### The request -/

structure NegotiateReq where
  dialects : List UInt16
  ctxOff : ℕ
  ctxCount : ℕ
  clientNeg : ClientNeg

def negotiateFields : Rdr NegotiateReq := do
  Rdr.structureSize 36
  let count ← Rdr.u16
  let secmode ← Rdr.u16
  Rdr.skip 2
  let caps ← Rdr.u32
  let guid ← Rdr.take 16
  let ctxOff ← Rdr.u32
  let ctxCount ← Rdr.u16
  Rdr.skip 2
  let dialects ← Rdr.many Rdr.u16 (min count.toNat 16)
  pure { dialects, ctxOff := ctxOff.toNat, ctxCount := ctxCount.toNat
         clientNeg := { secmode, caps, guid } }

/-- SHA-512 (1) is among the next `n` hash algorithms. -/
def sha512Offered : ℕ → Rdr Bool
  | 0 => pure false
  | n + 1 => do
    let alg ← Rdr.u16
    if alg = 1 then pure true else sha512Offered n

/-- PREAUTH_INTEGRITY_CAPABILITIES offers SHA-512. -/
def preauthCtx : Rdr Bool := do
  let n ← Rdr.u16
  let _ ← Rdr.u16
  sha512Offered (min n.toNat 8)

def supportedCiphers : List UInt16 :=
  [cipherAes128Gcm, cipherAes256Gcm, cipherAes128Ccm, cipherAes256Ccm]

/-- The cipher selected from ENCRYPTION_CAPABILITIES. -/
def encryptionCtx (preferAes256 : Bool) : Rdr UInt16 := do
  let n ← Rdr.u16
  let ids ← Rdr.many Rdr.u16 (min n.toNat 8)
  let offered := ids.filter (supportedCiphers.contains ·)
  if preferAes256 then
    pure (([cipherAes256Gcm, cipherAes256Ccm, cipherAes128Gcm, cipherAes128Ccm].find?
      (offered.contains ·)).getD 0)
  else pure (offered.head?.getD 0)

/-- Type and length of the negotiate context at the reader. -/
def ctxHead : Rdr (UInt16 × ℕ) := do
  let t ← Rdr.u16
  let l ← Rdr.u16
  Rdr.skip 4
  pure (t, l.toNat)

/-- What the negotiate contexts gave. -/
structure NegCtxs where
  havePreauth : Bool := false
  cipher : UInt16 := 0

/-- Take one negotiate context into account. -/
def negCtx (cfg : Config) (t : UInt16) (data : Option Bytes) (c : NegCtxs) : NegCtxs :=
  if t = 1 then { c with havePreauth := (data.bind (Rdr.parse preauthCtx)) = some true }
  else if t = 2 then
    { c with cipher := (data.bind (Rdr.parse (encryptionCtx cfg.preferAes256))).getD c.cipher }
  else c

/-- Walk at most `fuel` negotiate contexts from `off` on. -/
def negCtxs (cfg : Config) (msg : Bytes) : ℕ → ℕ → NegCtxs → NegCtxs
  | 0, _, c => c
  | fuel + 1, off, c =>
    match Rdr.parse ctxHead (msg.drop off) with
    | none => c
    | some (t, len) =>
      negCtxs cfg msg fuel ((off + 8 + len + 7) / 8 * 8)
        (negCtx cfg t (slice msg (off + 8) (off + 8 + len)) c)

/-- The parameters a NEGOTIATE request leads to, or the status that refuses it: 3.1.1 needs the
preauth integrity context. -/
def negotiateParams (cfg : Config) (msg : Bytes) : Except UInt32 (UInt16 × UInt16 × ClientNeg) :=
  match Rdr.parse negotiateFields (msg.drop 64) with
  | none => .error Status.invalidParameter
  | some r =>
    match chooseDialect r.dialects with
    | none => .error Status.notSupported
    | some chosen =>
      if chosen = 0x0311 then
        let c := negCtxs cfg msg (min r.ctxCount 16) r.ctxOff {}
        if c.havePreauth then .ok (chosen, c.cipher, r.clientNeg)
        else .error Status.invalidParameter
      else .ok (chosen, 0, r.clientNeg)

/-- One NEGOTIATE per connection: a second one disconnects. -/
def negotiate (srv : Srv σ) (h : ReqHdr) (msg : Bytes) (px : Px σ) : Px σ :=
  if px.pc.negotiated then px.disconnect
  else
    match negotiateParams srv.cfg msg with
    | .error st => px.err h st
    | .ok (dialect, cipher, clientNeg) =>
      let pc := { px.pc with dialect, cipher, negotiated := true, clientNeg := some clientNeg }
      negotiateResp srv h dialect cipher { px with pc }

/-! ### SMB1 -/

/-- `[0xFF, b'S', b'M', b'B']` -/
def smb1ProtoId : Bytes := [0xFF, 0x53, 0x4D, 0x42]
def smb1ComNegotiate : UInt8 := 0x72

/-- Split at the first NUL. -/
def untilNul : Bytes → Option (Bytes × Bytes)
  | [] => none
  | b :: bs => if b = 0 then some ([], bs) else (untilNul bs).map fun ⟨s, rest⟩ => (b :: s, rest)

/-- The dialect strings: a 0x02 byte and a NUL-terminated name each, at most 64 of them. -/
def smb1Dialects : ℕ → Bytes → ℕ → Option (List Bytes)
  | 0, _, _ => some []
  | _ + 1, [], _ => some []
  | fuel + 1, fmt :: rest, n =>
    if fmt ≠ 0x02 then none
    else
      match untilNul rest with
      | none => none
      | some (name, rest) =>
        if 64 < n + 1 then none else (smb1Dialects fuel rest (n + 1)).map (name :: ·)

/-- The dialect strings of an SMB1 NEGOTIATE request: `none` if it is not one, or malformed. -/
def smb1NegotiateDialects (frame : Bytes) : Option (List Bytes) :=
  if frame.length < 35 ∨ frame.take 4 ≠ smb1ProtoId ∨ frame[4]? ≠ some smb1ComNegotiate then none
  else
    let bcOff := 33 + 2 * (frame.getD 32 0).toNat
    match slice frame bcOff (bcOff + 2) with
    | none => none
    | some bc =>
      let bytes := (frame.drop (bcOff + 2)).take (leNat bc)
      smb1Dialects bytes.length bytes 0

/-- `"SMB 2.002"` -/
def smb2Dialect2002 : Bytes := [0x53, 0x4D, 0x42, 0x20, 0x32, 0x2E, 0x30, 0x30, 0x32]
/-- `"SMB 2.???"` -/
def smb2DialectAny : Bytes := [0x53, 0x4D, 0x42, 0x20, 0x32, 0x2E, 0x3F, 0x3F, 0x3F]

/-- An SMB1 dialect list offers SMB2 (the multi-protocol upgrade). -/
def smb1OffersSmb2 (dialects : List Bytes) : Bool :=
  dialects.any fun d => d = smb2Dialect2002 ∨ d = smb2DialectAny

/-- An SMB1 NEGOTIATE response with DialectIndex 0xFFFF ("no common dialect"). -/
def smb1NegotiateRefuse (req : Bytes) (tx : Bytes) : Bytes :=
  tx ++ smb1ProtoId ++ [smb1ComNegotiate] ++ p32 0 ++ p8 0x80 ++ req.extract 10 12 ++
    req.extract 12 14 ++ zeros 8 ++ p16 0 ++ req.extract 24 32 ++ p8 1 ++ p16 0xFFFF ++ p16 0

/-- The request header that the SMB2 wildcard response to an SMB1 NEGOTIATE answers. -/
def wildcardHdr : ReqHdr :=
  { creditCharge := 0, command := cmdNegotiate, credits := 1, flags := 0, next := 0, msgId := 0
    treeId := 0, sessionId := 0, asyncId := none }

/-- The wildcard response (dialect 0x02FF), after which the client re-negotiates in SMB2. -/
def negotiateRespSmb1Wildcard (srv : Srv σ) (px : Px σ) : Px σ :=
  negotiateResp srv wildcardHdr 0x02FF 0 px

end RocketSmbd
