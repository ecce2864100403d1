import RocketSmbd.Smb2.Replies

/-!
# Signed responses

A response is signed where it lies in the transmit buffer.  `signInPlace_part` moves the signature
into the message: nothing before or after it matters.  A message whose signature field is still
zero verifies once it is signed, `signed_signedBy`; linking a response to the next one, with
padding and NextCommand, leaves the field alone.
-/

namespace RocketSmbd

open ByteString

variable (cr : Crypto) (sc : SignCtx)
variable {msg : Bytes}

/-- The message signed, as it is in a buffer of its own. -/
def signed (msg : Bytes) : Bytes := signInPlace cr msg 0 msg.length sc

/-- The message carries the SIGNED flag and verifies. -/
structure SignedBy (msg : Bytes) : Prop where
  flag : UInt32.ofNat (leNat (msg.extract 16 20)) &&& flagSigned ≠ 0
  verifies : verifySignature cr msg sc = true

theorem smb2Signature_of_flatten {parts parts' : List Bytes} (alg : SignAlg) (key : Bytes)
    (h : parts.flatten = parts'.flatten) :
    cr.smb2Signature alg key parts = cr.smb2Signature alg key parts' := by
  unfold Crypto.smb2Signature
  rw [h]

/-- Signing a message in a buffer changes that message only. -/
theorem signInPlace_part (pre msg post : Bytes) (hlen : 64 ≤ msg.length) :
    signInPlace cr (pre ++ msg ++ post) pre.length (pre.length + msg.length) sc =
      pre ++ signed cr sc msg ++ post := by
  have hcur : (pre ++ (msg ++ post)).extract (pre.length + 16) (pre.length + 20) =
      msg.extract 16 20 := by
    rw [extract_append_right, extract_append_left _ _ _ _ (by omega)]
  unfold signed signInPlace patch32
  dsimp only
  rw [List.append_assoc, hcur, Nat.zero_add]
  set v := p32 (UInt32.ofNat (leNat (msg.extract 16 20)) ||| flagSigned) with hv
  have hvlen : v.length = 4 := p32_length _
  have hmsg : (patch msg 16 v).length = msg.length := patch_length (by omega)
  have hone : (patch msg 16 v).extract 0 msg.length = patch msg 16 v := by
    rw [List.extract_eq_take_drop, List.drop_zero, List.take_of_length_le (by omega)]
  have hpart := extract_part pre (patch msg 16 v) post
  rw [hmsg, List.append_assoc] at hpart
  rw [patch_append_right, patch_append_left msg post v 16 (by omega), hpart, hone,
    patch_append_right, patch_append_left _ _ _ _ (by rw [cr.smb2Signature_length, hmsg]; omega),
    List.append_assoc]

/-- Signing the message behind the NBT prefix of a frame. -/
theorem signInPlace_frame (hlen : 64 ≤ msg.length) :
    signInPlace cr (zeros 4 ++ msg) 4 (zeros 4 ++ msg).length sc = zeros 4 ++ signed cr sc msg := by
  have h := signInPlace_part cr sc (zeros 4) msg [] hlen
  rwa [List.append_nil, List.append_nil, ← List.length_append] at h

theorem or_flagSigned (f : UInt32) : (f ||| flagSigned) &&& flagSigned ≠ 0 := by
  have h : (f ||| flagSigned) &&& flagSigned = flagSigned := by
    apply UInt32.toBitVec_inj.1
    rw [UInt32.toBitVec_and, UInt32.toBitVec_or]
    ext i hi
    simpa using Or.inr
  rw [h]
  decide

/-- A header whose flags are `f`, with what the signature goes over: the message with the SIGNED
flag and a signature field of zeros. -/
theorem signed_split (a f b body : Bytes) (ha : a.length = 16) (hf : f.length = 4)
    (hb : b.length = 28) :
    let hdr := a ++ p32 (UInt32.ofNat (leNat f) ||| flagSigned) ++ b
    signed cr sc (a ++ f ++ b ++ zeros 16 ++ body) =
      hdr ++ cr.smb2Signature sc.alg sc.key [hdr ++ zeros 16 ++ body] ++ body := by
  intro hdr
  have hhdr : hdr.length = 48 := by simp [hdr, ha, hb]
  have hflags : (a ++ f ++ b ++ zeros 16 ++ body).extract 16 20 = f := by
    have h := extract_part a f (b ++ zeros 16 ++ body)
    rw [ha, hf, ← List.append_assoc, ← List.append_assoc] at h
    exact h
  have hset : patch (a ++ f ++ b ++ zeros 16 ++ body) 16
      (p32 (UInt32.ofNat (leNat f) ||| flagSigned)) = hdr ++ zeros 16 ++ body := by
    have h := patch_part a f (b ++ zeros 16 ++ body)
      (p32 (UInt32.ofNat (leNat f) ||| flagSigned)) (by rw [p32_length, hf])
    rw [ha] at h
    simpa only [hdr, List.append_assoc] using h
  have hlen : (a ++ f ++ b ++ zeros 16 ++ body).length = (hdr ++ zeros 16 ++ body).length := by
    simp only [List.length_append, zeros_length, hhdr, ha, hf, hb]
  have hall : (hdr ++ zeros 16 ++ body).extract 0 (hdr ++ zeros 16 ++ body).length =
      hdr ++ zeros 16 ++ body := by
    rw [List.extract_eq_take_drop, List.drop_zero, Nat.sub_zero, List.take_length]
  have hsign := patch_part hdr (zeros 16) body
    (cr.smb2Signature sc.alg sc.key [hdr ++ zeros 16 ++ body]) (by
      rw [cr.smb2Signature_length, zeros_length])
  rw [hhdr] at hsign
  unfold signed signInPlace patch32
  dsimp only
  rw [Nat.zero_add, Nat.zero_add, Nat.zero_add, hflags, hset, hlen, hall, hsign]

/-- **A signed response verifies.** -/
theorem signed_signedBy (h : IsReply msg) : SignedBy cr sc (signed cr sc msg) := by
  obtain ⟨hdr₀, body, hlen₀, rfl⟩ := h
  -- The header falls into what precedes the flags, the flags, and the rest.
  obtain ⟨a, f, b, ha, hf, hb, rfl⟩ : ∃ a f b : Bytes, a.length = 16 ∧ f.length = 4 ∧
      b.length = 28 ∧ hdr₀ = a ++ f ++ b :=
    ⟨hdr₀.take 16, (hdr₀.drop 16).take 4, hdr₀.drop 20, by simp [hlen₀], by simp [hlen₀],
      by simp [hlen₀], by
        rw [List.append_assoc, ← List.drop_drop (i := 4) (j := 16), List.take_append_drop,
          List.take_append_drop]⟩
  have hsplit := signed_split cr sc a f b body ha hf hb
  dsimp only at hsplit
  rw [hsplit]
  set flags := UInt32.ofNat (leNat f) ||| flagSigned with hflags
  set hdr := a ++ p32 flags ++ b with hhdr
  set sig := cr.smb2Signature sc.alg sc.key [hdr ++ zeros 16 ++ body] with hsig
  have hlen : hdr.length = 48 := by simp [hhdr, ha, hb]
  have hsiglen : sig.length = 16 := cr.smb2Signature_length ..
  constructor
  · have h := extract_part a (p32 flags) (b ++ sig ++ body)
    rw [ha, p32_length] at h
    rw [← List.append_assoc, ← List.append_assoc] at h
    rw [hhdr, h, ofNat_leNat_p32]
    exact or_flagSigned _
  · have htake : (hdr ++ sig ++ body).take 48 = hdr := by
      rw [List.append_assoc, ← hlen, List.take_left]
    have hdrop : (hdr ++ sig ++ body).drop 64 = body := by
      have h64 : 64 = (hdr ++ sig).length := by simp [hlen, hsiglen]
      rw [h64, List.drop_left]
    have hfield := extract_part hdr sig body
    rw [hlen, hsiglen] at hfield
    have hlong : ¬ (hdr ++ sig ++ body).length < 64 := by
      simp only [List.length_append, hlen, hsiglen]
      omega
    unfold verifySignature
    rw [if_neg hlong, htake, hdrop, hfield, hsig, decide_eq_true_eq]
    exact smb2Signature_of_flatten cr _ _ (by simp)

/-! ### What a signature leaves alone -/

section Outside

variable {msg : Bytes} (h : 64 ≤ msg.length)

include h

/-- A signature is two patches: the flags, and the signature field. -/
theorem signed_eq : ∃ flags sig : Bytes, flags.length = 4 ∧ sig.length = 16 ∧
    (patch msg 16 flags).length = msg.length ∧
    signed cr sc msg = patch (patch msg 16 flags) 48 sig :=
  ⟨_, _, p32_length _, cr.smb2Signature_length _ _ _, patch_length (by rw [p32_length]; omega), rfl⟩

theorem signed_length : (signed cr sc msg).length = msg.length := by
  obtain ⟨flags, sig, hflags, hsig, hone, heq⟩ := signed_eq cr sc h
  rw [heq, patch_length (by omega), hone]

/-- Between the flags and the signature field. -/
theorem extract_signed {i j : ℕ} (hi : 20 ≤ i) (hj : j ≤ 48) :
    (signed cr sc msg).extract i j = msg.extract i j := by
  obtain ⟨flags, sig, hflags, hsig, hone, heq⟩ := signed_eq cr sc h
  rw [heq, extract_patch_before _ _ _ _ _ (by omega) hj,
    extract_patch_after _ _ _ _ _ (by omega) (by omega)]

/-- Before the flags. -/
theorem take_signed : (signed cr sc msg).take 16 = msg.take 16 := by
  obtain ⟨flags, sig, hflags, hsig, hone, heq⟩ := signed_eq cr sc h
  have htwo := extract_patch_before (patch msg 16 flags) sig 48 0 16 (by omega) (by omega)
  rw [extract_patch_before msg flags 16 0 16 (by omega) le_rfl] at htwo
  rw [heq]
  simpa [List.extract_eq_take_drop] using htwo

theorem drop_signed : (signed cr sc msg).drop 64 = msg.drop 64 := by
  obtain ⟨flags, sig, hflags, hsig, hone, heq⟩ := signed_eq cr sc h
  rw [heq, drop_patch _ _ _ _ (by omega) (by omega), drop_patch _ _ _ _ (by omega) (by omega)]

theorem extract_signed_head {i j : ℕ} (hj : j ≤ 16) :
    (signed cr sc msg).extract i j = msg.extract i j := by
  have htake : ∀ m : Bytes, m.extract i j = (m.take 16).extract i j := by
    intro m
    rw [List.extract_eq_drop_take', List.extract_eq_drop_take', List.take_take, min_eq_left hj]
  rw [htake, take_signed cr sc h, ← htake]

end Outside

/-! ### The signature field until then -/

theorem IsReply.length_le (h : IsReply msg) : 64 ≤ msg.length := by
  obtain ⟨hdr, body, hlen, rfl⟩ := h
  simp only [List.length_append, hlen, zeros_length]
  omega

theorem IsReply.append (h : IsReply msg) (more : Bytes) : IsReply (msg ++ more) := by
  obtain ⟨hdr, body, hlen, rfl⟩ := h
  exact ⟨hdr, body ++ more, hlen, List.append_assoc ..⟩

/-- A patch before the signature field. -/
theorem IsReply.patch (h : IsReply msg) {off : ℕ} {v : Bytes}
    (hoff : off + v.length ≤ 48) : IsReply (patch msg off v) := by
  obtain ⟨hdr, body, hlen, rfl⟩ := h
  refine ⟨ByteString.patch hdr off v, body, by rw [patch_length (by omega), hlen], ?_⟩
  rw [List.append_assoc, patch_append_left hdr _ v off (by omega), List.append_assoc]

/-! ### Completions of pended requests -/

section

variable (info : AsyncMeta) (st : UInt32) (events : List (UInt32 × Str)) (outLen : UInt32)

theorem notifyFinalMsg_eq : ∃ st' body, notifyFinalMsg info st events outLen =
    zeros 4 ++ (respHdrAsync info st' 0 cmdChangeNotify ++ body) := by
  unfold notifyFinalMsg beginRespAsync
  dsimp only
  split_ifs <;> exact ⟨_, _, by simp only [List.append_assoc]; rfl⟩

theorem notifyFinalMsg_reply :
    ∃ resp, IsReply resp ∧ notifyFinalMsg info st events outLen = zeros 4 ++ resp := by
  obtain ⟨st', body, hmsg⟩ := notifyFinalMsg_eq info st events outLen
  exact ⟨_, (isFresh_respHdrAsync info st' 0 cmdChangeNotify body).reply, hmsg⟩

end

theorem finishNbtWith_frame (msg : Bytes) (len : ℕ) :
    finishNbtWith (zeros 4 ++ msg) 0 len = nbtPrefix len ++ msg :=
  patch_part [] (zeros 4) msg (nbtPrefix len) rfl

/-- A completion: an NBT prefix and the message, signed or not. -/
theorem finalizeAsync_cases (channels : FinMap UInt64 ChannelState) (info : AsyncMeta)
    {resp : Bytes} (hlen : 64 ≤ resp.length) :
    ∃ msg, (msg = resp ∨ ∃ sc, msg = signed cr sc resp) ∧
      finalizeAsync cr channels info (zeros 4 ++ resp) 4 = nbtPrefix msg.length ++ msg := by
  have hnbt : ∀ msg : Bytes, finishNbtWith (zeros 4 ++ msg) 0 ((zeros 4 ++ msg).length - 4) =
      nbtPrefix msg.length ++ msg := by
    intro msg
    rw [finishNbtWith_frame, List.length_append, zeros_length, Nat.add_sub_cancel_left]
  unfold finalizeAsync
  dsimp only
  by_cases hwant : info.wantSign = true
  · rw [if_pos hwant]
    cases (channels.lookup info.sessionId).bind ChannelState.sign with
    | none => exact ⟨resp, Or.inl rfl, hnbt resp⟩
    | some sc =>
      dsimp only
      rw [signInPlace_frame cr sc hlen]
      exact ⟨_, Or.inr ⟨sc, rfl⟩, hnbt _⟩
  · rw [if_neg hwant]
    exact ⟨resp, Or.inl rfl, hnbt resp⟩

/-- A completion that is signed: an NBT prefix and a message that verifies. -/
theorem finalizeAsync_signed {channels : FinMap UInt64 ChannelState} {info : AsyncMeta}
    {sc : SignCtx} {resp : Bytes} (hresp : IsReply resp) (hwant : info.wantSign = true)
    (hsc : (channels.lookup info.sessionId).bind ChannelState.sign = some sc) :
    ∃ msg, SignedBy cr sc msg ∧
      finalizeAsync cr channels info (zeros 4 ++ resp) 4 = nbtPrefix msg.length ++ msg := by
  refine ⟨signed cr sc resp, signed_signedBy cr sc hresp, ?_⟩
  unfold finalizeAsync
  simp only [hwant, if_true, hsc, signInPlace_frame cr sc hresp.length_le, finishNbtWith_frame]
  simp

end RocketSmbd
