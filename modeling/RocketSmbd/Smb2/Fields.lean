import RocketSmbd.Smb2.Negotiate

/-!
# The fields of a response header

What a client reads in a response: the status, the credits granted and the session.
-/

namespace RocketSmbd

open ByteString

def respStatus (resp : Bytes) : UInt32 := UInt32.ofNat (leNat (resp.extract 8 12))

def respCredits (resp : Bytes) : UInt16 := UInt16.ofNat (leNat (resp.extract 14 16))

def respSession (resp : Bytes) : UInt64 := UInt64.ofNat (leNat (resp.extract 40 48))

def respMsgId (resp : Bytes) : UInt64 := UInt64.ofNat (leNat (resp.extract 24 32))

/-- The AsyncId, in the header of an asynchronous response. -/
def respAsyncId (resp : Bytes) : UInt64 := UInt64.ofNat (leNat (resp.extract 32 40))

theorem ofNat_leNat_p16 (v : UInt16) : UInt16.ofNat (leNat (p16 v)) = v := by
  apply UInt16.toNat_inj.1
  rw [p16, leNat_leBytes, UInt16.toNat_ofNat']
  have := v.toNat_lt
  omega

theorem ofNat_leNat_p64 (v : UInt64) : UInt64.ofNat (leNat (p64 v)) = v := by
  apply UInt64.toNat_inj.1
  rw [p64, leNat_leBytes, UInt64.toNat_ofNat']
  have := v.toNat_lt
  omega

/-- The field between two parts, the first one of known length. -/
theorem extract_field {resp a f b : Bytes} {i j : ℕ} (h : resp = a ++ f ++ b) (ha : a.length = i)
    (hf : i + f.length = j) : resp.extract i j = f := by
  rw [h, ← hf, ← ha]
  exact extract_part a f b

section

variable (h : ReqHdr) (st : UInt32) (related : Bool) (treeId : UInt32) (sid : UInt64) (body : Bytes)

theorem respStatus_respHdr : respStatus (respHdr h st related treeId sid ++ body) = st := by
  have hfield : (respHdr h st related treeId sid ++ body).extract 8 12 = p32 st := by
    simp [respHdr, protoId, p16, p32, p64, leBytes]
  rw [respStatus, hfield, ofNat_leNat_p32]

theorem respCredits_respHdr :
    respCredits (respHdr h st related treeId sid ++ body) = h.credits := by
  have hfield : (respHdr h st related treeId sid ++ body).extract 14 16 = p16 h.credits := by
    simp [respHdr, protoId, p16, p32, p64, leBytes]
  rw [respCredits, hfield, ofNat_leNat_p16]

theorem respSession_respHdr : respSession (respHdr h st related treeId sid ++ body) = sid := by
  have hfield : (respHdr h st related treeId sid ++ body).extract 40 48 = p64 sid := by
    simp [respHdr, protoId, p16, p32, p64, leBytes]
  rw [respSession, hfield, ofNat_leNat_p64]

end

/-- The status of an error response. -/
theorem Px.status_err {px : Px σ} {h : ReqHdr} {st : UInt32} {resp : Bytes}
    (hresp : (px.err h st).tx = px.tx ++ resp) : respStatus resp = st := by
  have htx : (px.err h st).tx = px.tx ++
      (respHdr h st px.chain.related px.chain.treeId px.chain.sessionId ++ errBody) :=
    List.append_assoc ..
  obtain rfl := List.append_cancel_left (htx.symm.trans hresp)
  exact respStatus_respHdr ..

section

variable (info : AsyncMeta) (st : UInt32) (credits cmd : UInt16) (body : Bytes)

theorem respStatus_respHdrAsync : respStatus (respHdrAsync info st credits cmd ++ body) = st := by
  have hfield : (respHdrAsync info st credits cmd ++ body).extract 8 12 = p32 st := by
    simp [respHdrAsync, protoId, p16, p32, p64, leBytes]
  rw [respStatus, hfield, ofNat_leNat_p32]

theorem respCredits_respHdrAsync :
    respCredits (respHdrAsync info st credits cmd ++ body) = credits := by
  have hfield : (respHdrAsync info st credits cmd ++ body).extract 14 16 = p16 credits := by
    simp [respHdrAsync, protoId, p16, p32, p64, leBytes]
  rw [respCredits, hfield, ofNat_leNat_p16]

theorem respMsgId_respHdrAsync :
    respMsgId (respHdrAsync info st credits cmd ++ body) = info.msgId := by
  have hfield : (respHdrAsync info st credits cmd ++ body).extract 24 32 = p64 info.msgId := by
    simp [respHdrAsync, protoId, p16, p32, p64, leBytes]
  rw [respMsgId, hfield, ofNat_leNat_p64]

theorem respAsyncId_respHdrAsync :
    respAsyncId (respHdrAsync info st credits cmd ++ body) = info.asyncId := by
  have hfield : (respHdrAsync info st credits cmd ++ body).extract 32 40 = p64 info.asyncId := by
    simp [respHdrAsync, protoId, p16, p32, p64, leBytes]
  rw [respAsyncId, hfield, ofNat_leNat_p64]

end

end RocketSmbd
