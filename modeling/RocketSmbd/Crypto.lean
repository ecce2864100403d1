import RocketSmbd.Wire

/-!
# Signing, key derivation and sealing (`crypto.rs`)

The primitives come from a crypto backend outside the repository: `Crypto` is that backend, with
the sizes of the arrays it returns.  Built on it here are the SMB compositions of the source: the
SP800-108 key derivation, the two wire signatures and the encryption keys of SMB 3.1.1; and RC4,
which the source implements itself.

The backend hashes and MACs a message that the caller passes in parts; it sees their
concatenation only, so a primitive takes one byte string.
-/

namespace RocketSmbd

open ByteString

/-- The cryptographic backend. -/
structure Crypto where
  sha512 : Bytes → Bytes
  hmacSha256 : (key msg : Bytes) → Bytes
  aes128Cmac : (key msg : Bytes) → Bytes
  hmacMd5 : (key msg : Bytes) → Bytes
  /-- Cipher, key, nonce, additional data, plaintext; returns ciphertext and tag. -/
  aeadSeal : UInt16 → (key nonce aad buf : Bytes) → Bytes × Bytes
  /-- Cipher, key, nonce, additional data, ciphertext, tag; `none` if the tag does not verify. -/
  aeadOpen : UInt16 → (key nonce aad buf tag : Bytes) → Option Bytes
  hmacSha256_length : ∀ k m, (hmacSha256 k m).length = 32
  aes128Cmac_length : ∀ k m, (aes128Cmac k m).length = 16
  hmacMd5_length : ∀ k m, (hmacMd5 k m).length = 16
  /-- The buffer is sealed in place. -/
  aeadSeal_length : ∀ c k n a b, (aeadSeal c k n a b).1.length = b.length
  aeadSeal_tag_length : ∀ c k n a b, (aeadSeal c k n a b).2.length = 16

/-- Which signature goes on the wire for a given dialect. -/
inductive SignAlg
  | hmacSha256
  | aesCmac
  deriving DecidableEq, Repr

def cipherAes128Ccm : UInt16 := 0x0001
def cipherAes128Gcm : UInt16 := 0x0002
def cipherAes256Ccm : UInt16 := 0x0003
def cipherAes256Gcm : UInt16 := 0x0004

/-- AES key length of a cipher. -/
def cipherKeyLen (cipher : UInt16) : ℕ :=
  if cipher = cipherAes256Gcm ∨ cipher = cipherAes256Ccm then 32 else 16

/-- AEAD nonce length: 12 bytes for GCM, 11 for CCM. -/
def cipherNonceLen (cipher : UInt16) : ℕ :=
  if cipher = cipherAes128Ccm ∨ cipher = cipherAes256Ccm then 11 else 12

/-- `u32::to_be_bytes`. -/
def be32 (n : ℕ) : Bytes := (leBytes 4 n).reverse

namespace Crypto

variable (cr : Crypto)

/-- The 16-byte SMB2 signature over a message supplied in parts. -/
def smb2Signature (alg : SignAlg) (key : Bytes) (parts : List Bytes) : Bytes :=
  match alg with
  | .hmacSha256 => (cr.hmacSha256 key parts.flatten).take 16
  | .aesCmac => cr.aes128Cmac key parts.flatten

theorem smb2Signature_length (alg : SignAlg) (key : Bytes) (parts : List Bytes) :
    (cr.smb2Signature alg key parts).length = 16 := by
  cases alg with
  | hmacSha256 => simp [smb2Signature, cr.hmacSha256_length]
  | aesCmac => simp [smb2Signature, cr.aes128Cmac_length]

/-- SP800-108 KDF in counter mode with HMAC-SHA256, 128-bit output. -/
def kdf128 (key label context : Bytes) : Bytes :=
  (cr.hmacSha256 key (be32 1 ++ label ++ [0] ++ context ++ be32 128)).take 16

/-- The blocks of the counter-mode KDF, until `outBytes` bytes are there. Each round adds a
32-byte block, so `outBytes` rounds are enough. -/
def kdfLoop (key label context : Bytes) (outBits outBytes : ℕ) : ℕ → ℕ → Bytes → Bytes
  | 0, _, out => out
  | fuel + 1, counter, out =>
    if out.length < outBytes then
      kdfLoop key label context outBits outBytes fuel (counter + 1)
        (out ++ cr.hmacSha256 key (be32 counter ++ label ++ [0] ++ context ++ be32 outBits))
    else out

/-- SP800-108 counter-mode KDF producing `outBits / 8` bytes. -/
def kdf (key label context : Bytes) (outBits : ℕ) : Bytes :=
  (cr.kdfLoop key label context outBits (outBits / 8) (outBits / 8) 1 []).take (outBits / 8)

/-- A key in a 32-byte buffer. -/
def keyBuf (k : Bytes) : Bytes := k ++ zeros (32 - k.length)

/-- `b"SMBC2SCipherKey\0"` -/
def labelC2s : Bytes :=
  [0x53, 0x4D, 0x42, 0x43, 0x32, 0x53, 0x43, 0x69, 0x70, 0x68, 0x65, 0x72, 0x4B, 0x65, 0x79, 0]

/-- `b"SMBS2CCipherKey\0"` -/
def labelS2c : Bytes :=
  [0x53, 0x4D, 0x42, 0x53, 0x32, 0x43, 0x43, 0x69, 0x70, 0x68, 0x65, 0x72, 0x4B, 0x65, 0x79, 0]

/-- The SMB 3.1.1 encryption keys, client to server and server to client. -/
def smb311EncryptionKeys (cipher : UInt16) (sessionKey preauth : Bytes) : Bytes × Bytes :=
  let bits := cipherKeyLen cipher * 8
  (keyBuf (cr.kdf sessionKey labelC2s preauth bits),
    keyBuf (cr.kdf sessionKey labelS2c preauth bits))

end Crypto

/-! ### RC4 -/

/-- Swap two entries of the RC4 state. -/
def rc4Swap (s : List UInt8) (i j : ℕ) : List UInt8 :=
  (s.set i (s.getD j 0)).set j (s.getD i 0)

/-- Key scheduling: `for i in 0..256`. -/
def rc4Schedule (key : Bytes) : List UInt8 :=
  ((List.range 256).foldl
    (fun (sj : List UInt8 × UInt8) i =>
      let j := sj.2 + sj.1.getD i 0 + key.getD (i % key.length) 0
      (rc4Swap sj.1 i j.toNat, j))
    ((List.range 256).map UInt8.ofNat, 0)).1

/-- The keystream, xored over the data. -/
def rc4Stream : List UInt8 → UInt8 → UInt8 → Bytes → Bytes
  | _, _, _, [] => []
  | s, i, j, b :: data =>
    let i := i + 1
    let j := j + s.getD i.toNat 0
    let s := rc4Swap s i.toNat j.toNat
    (b ^^^ s.getD (s.getD i.toNat 0 + s.getD j.toNat 0).toNat 0) :: rc4Stream s i j data

def rc4 (key data : Bytes) : Bytes := rc4Stream (rc4Schedule key) 0 0 data

end RocketSmbd
