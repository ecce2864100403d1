import RocketSmbd.Spnego

/-!
# NTLMSSP (`ntlm.rs`)

Challenge generation, the AUTHENTICATE parser and NTLMv2 verification with the derivation of the
exported session key.
-/

namespace RocketSmbd

open ByteString

namespace Ntlm

def flagAnonymous : UInt32 := 0x00000800
def flagKeyExch : UInt32 := 0x40000000

inductive Token
  | negotiate
  | authenticate
  | other
  deriving DecidableEq, Repr

/-- The suffix of a blob that starts at the first NTLMSSP signature. -/
def findToken : Bytes → Option Bytes
  | [] => none
  | b :: blob =>
    if Spnego.ntlmSig.isPrefixOf (b :: blob) then some (b :: blob) else findToken blob

def classify (blob : Bytes) : Token :=
  match findToken blob with
  | none => .other
  | some tok =>
    match slice tok 8 12 with
    | none => .other
    | some t => if leNat t = 1 then .negotiate else if leNat t = 3 then .authenticate else .other

/-- UNICODE, SIGN, NTLM, ALWAYS_SIGN, TARGET_TYPE_SERVER, EXTENDED_SESSIONSECURITY, TARGET_INFO,
VERSION, 128-bit, KEY_EXCH, 56-bit. -/
def flags : UInt32 :=
  0x00000001 ||| 0x00000010 ||| 0x00000200 ||| 0x00008000 ||| 0x00020000 ||| 0x00080000 |||
    0x00800000 ||| 0x02000000 ||| 0x20000000 ||| 0x40000000 ||| 0x80000000

/-- Build a CHALLENGE_MESSAGE (type 2). -/
def challenge (serverName : Str) (chal : Bytes) : Bytes :=
  let target := utf16le serverName
  let tlen := UInt16.ofNat target.length
  -- AV pairs: NetBIOS domain (2), NetBIOS computer (1), EOL (0)
  let info := p16 2 ++ p16 tlen ++ target ++ p16 1 ++ p16 tlen ++ target ++ p16 0 ++ p16 0
  let ilen := UInt16.ofNat info.length
  Spnego.ntlmSig ++ p32 2 ++ p16 tlen ++ p16 tlen ++ p32 56 ++ p32 flags ++ chal ++ p64 0 ++
    p16 ilen ++ p16 ilen ++ p32 (UInt32.ofNat (56 + target.length)) ++
    [0x06, 0x01, 0xB1, 0x1D, 0x00, 0x00, 0x00, 0x0F] ++ target ++ info

structure Authenticate where
  user : Str
  domain : Str
  ntResponse : Bytes
  encSessionKey : Bytes
  flags : UInt32

def Authenticate.isAnonymous (a : Authenticate) : Bool :=
  a.flags &&& flagAnonymous ≠ 0 || (a.user.isEmpty && a.ntResponse.length < 16)

/-- A length, maximum and offset triple, and the part of the token it names. -/
def field (tok : Bytes) : Rdr Bytes := do
  let len ← Rdr.u16
  let _ ← Rdr.u16
  let off ← Rdr.u32
  if len = 0 then pure [] else Rdr.get tok off.toNat (off.toNat + len.toNat)

/-- The fields of an AUTHENTICATE_MESSAGE token. -/
def authenticateFields (tok : Bytes) : Rdr Authenticate := do
  Rdr.skip 8
  let type ← Rdr.u32
  if type ≠ 3 then Rdr.fail
  else
    let _ ← field tok
    let ntResponse ← field tok
    let domain ← field tok
    let user ← field tok
    let _ ← field tok
    let encSessionKey ← field tok
    let flags ← Rdr.u32
    pure ⟨fromUtf16le user, fromUtf16le domain, ntResponse, encSessionKey, flags⟩

/-- Parse an AUTHENTICATE_MESSAGE (type 3) from a raw or wrapped blob. -/
def parseAuthenticate (blob : Bytes) : Option Authenticate :=
  (findToken blob).bind fun tok => Rdr.parse (authenticateFields tok) tok

/-- Verify an NTLMv2 response and return the 16-byte ExportedSessionKey; `toUppercase` is the
Unicode mapping of the standard library. -/
def verifyNtlmv2 (cr : Crypto) (toUppercase : Str → Str) (ntHash : Bytes) (auth : Authenticate)
    (serverChallenge : Bytes) : Option Bytes :=
  if auth.ntResponse.length < 16 + 28 then none
  else
    let id := utf16le (toUppercase auth.user) ++ utf16le auth.domain
    let v2Hash := cr.hmacMd5 ntHash id
    let proof := auth.ntResponse.take 16
    let temp := auth.ntResponse.drop 16
    let expect := cr.hmacMd5 v2Hash (serverChallenge ++ temp)
    if expect ≠ proof then none
    else
      let sessionBase := cr.hmacMd5 v2Hash proof
      some (if auth.flags &&& flagKeyExch ≠ 0 ∧ auth.encSessionKey.length = 16 then
        rc4 sessionBase auth.encSessionKey else sessionBase)

def isSpnego (blob : Bytes) : Bool := blob.head? = some 0x60 ∨ blob.head? = some 0xA1

/-- `b"not_defined_in_RFC4178@please_ignore"` -/
def hintStr : Bytes :=
  (lit "not_defined_in_RFC4178@please_ignore").map fun c => UInt8.ofNat c.toNat

/-- NegTokenInit2 hint placed in the NEGOTIATE response security buffer. -/
def spnegoHint : Bytes :=
  let mechList := Spnego.der 0xA0 (Spnego.der 0x30 (Spnego.der 0x06 Spnego.oidNtlmssp))
  let hints := Spnego.der 0xA3 (Spnego.der 0x30 (Spnego.der 0xA0 (Spnego.der 0x1B hintStr)))
  let token := Spnego.der 0xA0 (Spnego.der 0x30 (mechList ++ hints))
  Spnego.der 0x60 (Spnego.der 0x06 Spnego.oidSpnego ++ token)

/-- NegTokenResp carrying our CHALLENGE, negState = accept-incomplete. -/
def spnegoWrapChallenge (token : Bytes) : Bytes :=
  Spnego.der 0xA1 (Spnego.der 0x30 (Spnego.der 0xA0 [0x0A, 0x01, 0x01] ++
    Spnego.der 0xA1 (Spnego.der 0x06 Spnego.oidNtlmssp) ++
    Spnego.der 0xA2 (Spnego.der 0x04 token)))

/-- NegTokenResp, negState = accept-completed. -/
def spnegoAcceptCompleted : Bytes :=
  Spnego.der 0xA1 (Spnego.der 0x30 (Spnego.der 0xA0 [0x0A, 0x01, 0x00]))

end Ntlm

end RocketSmbd
