import RocketSmbd.Safety.FrameLengths

/-!
# Sealing and opening transform frames

`wrap_transform` lays out the transform header behind the bytes that are in the buffer already and
fills in the NBT length and the tag when it has sealed; `decrypt_transform` takes the parts from
fixed offsets.  The AEAD itself is outside the repository: `AeadCorrect` says that opening what was
sealed under the same key, nonce and additional data gives the plaintext.
-/

namespace RocketSmbd

open ByteString

/-- The ciphers of SMB 3.1.1. -/
def ciphers : List UInt16 := [cipherAes128Ccm, cipherAes128Gcm, cipherAes256Ccm, cipherAes256Gcm]

/-- What is assumed of the AEAD, for keys and nonces of the lengths the cipher has. -/
structure AeadCorrect (cr : Crypto) : Prop where
  open_seal : ∀ c ∈ ciphers, ∀ key nonce aad m, key.length = cipherKeyLen c →
    nonce.length = cipherNonceLen c →
      cr.aeadOpen c key nonce aad (cr.aeadSeal c key nonce aad m).1
        (cr.aeadSeal c key nonce aad m).2 = some m

theorem cipherKeyLen_le (cipher : UInt16) : cipherKeyLen cipher ≤ 32 := by
  unfold cipherKeyLen
  split_ifs <;> omega

/-! ### The parts of a transform frame -/

section Parts

variable {tag aad ct : Bytes} (htag : tag.length = 16) (haad : aad.length = 32)

include htag

theorem extract_tag : (transformProto ++ tag ++ aad ++ ct).extract 4 20 = tag :=
  extract_field (a := transformProto) (b := aad ++ ct) (by simp only [List.append_assoc]) rfl
    (by rw [htag])

include haad

/-- A part of the header behind the tag. -/
theorem extract_aad {i j : ℕ} (hj : j ≤ 32) :
    (transformProto ++ tag ++ aad ++ ct).extract (20 + i) (20 + j) = aad.extract i j := by
  have hlen : (transformProto ++ tag).length = 20 := by
    rw [List.length_append, htag]
    rfl
  rw [List.append_assoc, ← hlen, extract_append_right, extract_append_left _ _ _ _ (by omega)]

theorem drop_aad : (transformProto ++ tag ++ aad ++ ct).drop transformHdrLen = ct := by
  have hlen : (transformProto ++ tag ++ aad).length = transformHdrLen := by
    rw [List.length_append, List.length_append, htag, haad]
    rfl
  rw [← hlen, List.drop_left]

end Parts

section Fields

variable (n size : ℕ) (sid : UInt64)

theorem extract_nonceCtr : (transformAad n size sid).extract 0 8 = leBytes 8 n :=
  by simp [transformAad, leBytes]

theorem extract_origSize : (transformAad n size sid).extract 16 20 = p32 (UInt32.ofNat size) :=
  by simp [transformAad, zeros, leBytes, p32]

theorem extract_sessionId : (transformAad n size sid).extract 24 32 = p64 sid :=
  by simp [transformAad, zeros, leBytes, p16, p32, p64]

end Fields

/-! ### Opening -/

variable (cr : Crypto)

/-- A frame whose OriginalMessageSize is not the length of its ciphertext is refused. -/
theorem decryptTransform_size (frame : Bytes) (enc : EncCtx)
    (h : leNat (frame.extract 36 40) ≠ (frame.drop transformHdrLen).length) :
    decryptTransform cr frame enc = none := by
  unfold decryptTransform
  dsimp only
  split_ifs with hhead hsize
  · rfl
  · rfl
  · exact absurd (not_not.1 hsize).symm h

variable {cr} in
/-- A transform frame opens if its ciphertext does under its tag, nonce and header. -/
theorem decryptTransform_parts {tag aad ct : Bytes} {n : ℕ} {sid : UInt64} (enc : EncCtx)
    (htag : tag.length = 16) (haad : aad = transformAad n ct.length sid)
    (hct : ct.length < 256 ^ 4) :
    decryptTransform cr (transformProto ++ tag ++ aad ++ ct) enc =
      cr.aeadOpen enc.cipher (enc.c2s.take (cipherKeyLen enc.cipher))
        (aad.take (cipherNonceLen enc.cipher)) aad ct tag := by
  have hlen : aad.length = 32 := by rw [haad, transformAad_length]
  have hhead : ¬ ((transformProto ++ tag ++ aad ++ ct).length < transformHdrLen ∨
      (transformProto ++ tag ++ aad ++ ct).take 4 ≠ transformProto) := by
    have hshort : ¬ (transformProto ++ tag ++ aad ++ ct).length < transformHdrLen := by
      simp only [List.length_append, htag, hlen, transformHdrLen]
      change ¬ 4 + 16 + 32 + ct.length < 52
      omega
    have hproto : (transformProto ++ tag ++ aad ++ ct).take 4 = transformProto := by
      rw [List.append_assoc, List.append_assoc]
      rfl
    exact not_or.2 ⟨hshort, not_not.2 hproto⟩
  have hsize : leNat ((transformProto ++ tag ++ aad ++ ct).extract 36 40) = ct.length := by
    rw [extract_aad (i := 16) (j := 20) htag hlen (by omega), haad, extract_origSize, p32_ofNat,
      leNat_leBytes, Nat.mod_eq_of_lt hct]
  have hnonce : (transformProto ++ tag ++ aad ++ ct).extract 20 (20 + cipherNonceLen enc.cipher) =
      aad.take (cipherNonceLen enc.cipher) := by
    have hle := cipherNonceLen_le enc.cipher
    rw [extract_aad (i := 0) htag hlen (by omega)]
    simp
  have hheader : (transformProto ++ tag ++ aad ++ ct).extract 20 transformHdrLen = aad := by
    refine (extract_aad (i := 0) (j := 32) htag hlen le_rfl).trans ?_
    simp [← hlen]
  unfold decryptTransform
  dsimp only
  rw [if_neg hhead, hsize, drop_aad htag hlen, if_neg (by simp), hnonce, hheader,
    extract_tag htag]

variable {cr} in
/-- A sealed frame has these parts, and its ciphertext opens. -/
theorem sealedFrame_parts (hcr : AeadCorrect cr) (plain : Bytes) (enc : EncCtx) (n : ℕ)
    (sid : UInt64) (hcipher : enc.cipher ∈ ciphers) (hkey : enc.s2c.length = 32) :
    let aad := transformAad n plain.length sid
    ∃ tag ct : Bytes, tag.length = 16 ∧ ct.length = plain.length ∧
      sealedFrame cr plain enc n sid =
        nbtPrefix (transformHdrLen + ct.length) ++ (transformProto ++ tag ++ aad ++ ct) ∧
      cr.aeadOpen enc.cipher (enc.s2c.take (cipherKeyLen enc.cipher))
        (aad.take (cipherNonceLen enc.cipher)) aad ct tag = some plain := by
  intro aad
  have haad : aad.length = 32 := transformAad_length ..
  have hkeyLen : (enc.s2c.take (cipherKeyLen enc.cipher)).length = cipherKeyLen enc.cipher := by
    have := cipherKeyLen_le enc.cipher
    rw [List.length_take]
    omega
  have hnonceLen : (aad.take (cipherNonceLen enc.cipher)).length = cipherNonceLen enc.cipher := by
    have := cipherNonceLen_le enc.cipher
    rw [List.length_take]
    omega
  obtain ⟨ct, tag, hout, hct, htag, hframe⟩ := sealedFrame_split cr plain enc n sid
  have hopen := hcr.open_seal enc.cipher hcipher _ _ aad plain hkeyLen hnonceLen
  rw [hout] at hopen
  refine ⟨tag, ct, htag, hct, ?_, hopen⟩
  simpa only [List.append_assoc] using hframe

/-- **Sealing and opening are inverse over the whole transform format.**  What `wrap_transform`
appends is an NBT prefix that states the length and a transform frame that names the session and
carries the next counter value as its nonce, and opening the frame with the same key gives the
plaintext; and a frame whose OriginalMessageSize is not the length of its ciphertext never
opens. -/
theorem transform_inverse (hcr : AeadCorrect cr) :
    (∀ (plain : Bytes) (enc dec : EncCtx) (sid : UInt64) (tx : Bytes),
      plain.length < 2 ^ 24 - 52 → enc.cipher ∈ ciphers → enc.s2c.length = 32 →
      enc.nonceCtr < 2 ^ 64 - 1 → dec.cipher = enc.cipher → dec.c2s = enc.s2c →
        ∃ frame, (wrapTransform cr plain enc sid tx).2 = tx ++ (nbtPrefix frame.length ++ frame) ∧
          nbtLength (nbtPrefix frame.length ++ frame) = frame.length ∧
          isTransform frame = true ∧ transformSessionId frame = sid ∧
          leNat (frame.extract 20 28) = enc.nonceCtr + 1 ∧
          decryptTransform cr frame dec = some plain) ∧
    ∀ (frame : Bytes) (enc : EncCtx),
      leNat (frame.extract 36 40) ≠ (frame.drop transformHdrLen).length →
        decryptTransform cr frame enc = none := by
  refine ⟨fun plain enc dec sid tx hplain hcipher hkey hctr hsame hc2s => ?_,
    decryptTransform_size cr⟩
  set aad := transformAad (enc.nonceCtr + 1) plain.length sid with haad
  have haadLen : aad.length = 32 := transformAad_length ..
  obtain ⟨tag, ct, htag, hct, hframe, hopen⟩ := sealedFrame_parts hcr plain
    { enc with nonceCtr := enc.nonceCtr + 1 } (enc.nonceCtr + 1) sid hcipher hkey
  have hlen : (transformProto ++ tag ++ aad ++ ct).length = transformHdrLen + ct.length := by
    simp only [List.length_append, htag, haadLen]
    rfl
  refine ⟨transformProto ++ tag ++ aad ++ ct, ?_, ?_, ?_, ?_, ?_, ?_⟩
  · rw [wrapTransform_eq, hframe, hlen]
  · have hlt : (transformProto ++ tag ++ aad ++ ct).length < 2 ^ 24 := by
      rw [hlen, hct]
      unfold transformHdrLen
      omega
    exact (isFrame_nbt rfl hlt).2.2.trans (by simp [nbtPrefix])
  · rw [isTransform, List.append_assoc, List.append_assoc]
    rfl
  · rw [transformSessionId, extract_aad (i := 24) (j := 32) htag haadLen le_rfl, haad,
      extract_sessionId, ofNat_leNat_p64]
  · rw [extract_aad (i := 0) (j := 8) htag haadLen (by omega), haad, extract_nonceCtr,
      leNat_leBytes, Nat.mod_eq_of_lt (by omega)]
  · rw [decryptTransform_parts dec htag (hct ▸ haad) (by omega), hsame, hc2s]
    exact hopen

namespace Sample

theorem aeadCorrect_crypto : AeadCorrect crypto := ⟨fun _ _ _ _ _ _ _ _ => rfl⟩

/-- A message sealed behind three bytes of another one. -/
theorem transform_inverse_gcm : ∃ frame,
    (wrapTransform crypto [1, 2, 3] ⟨cipherAes128Gcm, [], zeros 32, 6⟩ 9 [7, 7, 7]).2 =
      [7, 7, 7] ++ (nbtPrefix frame.length ++ frame) ∧
    decryptTransform crypto frame ⟨cipherAes128Gcm, zeros 32, [], 0⟩ = some [1, 2, 3] := by
  obtain ⟨frame, hframe, -, -, -, -, hopen⟩ := (transform_inverse crypto aeadCorrect_crypto).1
    [1, 2, 3] ⟨cipherAes128Gcm, [], zeros 32, 6⟩ ⟨cipherAes128Gcm, zeros 32, [], 0⟩ 9 [7, 7, 7]
    (by decide) (by decide) (by decide) (by decide) rfl rfl
  exact ⟨frame, hframe, hopen⟩

end Sample

end RocketSmbd
