import RocketSmbd.Config

/-!
# SPNEGO (`spnego.rs`)

The minimal DER writer and reader, the mechanism OIDs, and the classification of a SESSION_SETUP
security blob into a mechanism and the token to hand it.
-/

namespace RocketSmbd

open ByteString

namespace Spnego

/-- SPNEGO: 1.3.6.1.5.5.2 -/
def oidSpnego : Bytes := [0x2B, 0x06, 0x01, 0x05, 0x05, 0x02]
/-- NTLMSSP: 1.3.6.1.4.1.311.2.2.10 -/
def oidNtlmssp : Bytes := [0x2B, 0x06, 0x01, 0x04, 0x01, 0x82, 0x37, 0x02, 0x02, 0x0A]
/-- Kerberos 5: 1.2.840.113554.1.2.2 -/
def oidKrb5 : Bytes := [0x2A, 0x86, 0x48, 0x86, 0xF7, 0x12, 0x01, 0x02, 0x02]
/-- The legacy Kerberos alias: 1.2.840.48018.1.2.2 -/
def oidMsKrb5 : Bytes := [0x2A, 0x86, 0x48, 0x82, 0xF7, 0x12, 0x01, 0x02, 0x02]

/-- `b"NTLMSSP\0"` -/
def ntlmSig : Bytes := [0x4E, 0x54, 0x4C, 0x4D, 0x53, 0x53, 0x50, 0x00]

/-- Negotiated security mechanism. -/
inductive Mech
  | krb5
  | ntlmssp
  | unknown
  deriving DecidableEq, Repr

def Mech.fromOid (oid : Bytes) : Mech :=
  if oid = oidKrb5 ∨ oid = oidMsKrb5 then .krb5 else if oid = oidNtlmssp then .ntlmssp else .unknown

/-- A DER TLV with a definite length. -/
def der (tag : UInt8) (content : Bytes) : Bytes :=
  let n := content.length
  if n < 128 then tag :: UInt8.ofNat n :: content
  else if n < 256 then tag :: 0x81 :: UInt8.ofNat n :: content
  else tag :: 0x82 :: UInt8.ofNat (n / 256) :: UInt8.ofNat (n % 256) :: content

/-- DER OBJECT IDENTIFIER from its body bytes. -/
def derOid (body : Bytes) : Bytes := der 0x06 body

/-- One DER element: its tag, its content and the bytes it takes up. -/
structure Tlv where
  tag : UInt8
  val : Bytes
  len : ℕ

/-- The TLV with a header of `hdr` bytes and a content of `len` bytes at the front of `buf`. -/
def tlvBody (buf : Bytes) (tag : UInt8) (hdr len : ℕ) : Option Tlv :=
  if hdr + len > buf.length then none else some ⟨tag, (buf.take (hdr + len)).drop hdr, hdr + len⟩

/-- Parse one TLV at the front of `buf`: the short and the 1- and 2-byte long forms. -/
def tlv (buf : Bytes) : Option Tlv :=
  match buf with
  | tag :: b1 :: rest =>
    if b1 < 0x80 then tlvBody buf tag 2 b1.toNat
    else if b1 = 0x81 then
      match rest with
      | n :: _ => tlvBody buf tag 3 n.toNat
      | _ => none
    else if b1 = 0x82 then
      match rest with
      | hi :: lo :: _ => tlvBody buf tag 4 (hi.toNat * 256 + lo.toNat)
      | _ => none
    else none
  | _ => none

/-- The children of a constructed element, up to the first malformed one. An element takes up at
least two bytes, so the length of the buffer bounds their number. -/
def childrenUpTo : ℕ → Bytes → List Tlv
  | 0, _ => []
  | fuel + 1, buf =>
    match tlv buf with
    | none => []
    | some t => t :: childrenUpTo fuel (buf.drop t.len)

def children (buf : Bytes) : List Tlv := childrenUpTo buf.length buf

/-- The OID under which a mechanism is named. -/
def Mech.oid : Mech → Bytes
  | .krb5 => oidKrb5
  | .ntlmssp => oidNtlmssp
  | .unknown => []

/-- What an inbound security blob carries. -/
structure Incoming where
  mech : Mech
  spnego : Bool
  token : Bytes

/-- The first mechanism of a mechTypes field that is understood. -/
def firstMech (field : Bytes) : Option Mech :=
  match (tlv field).filter (·.tag = 0x30) with
  | none => none
  | some list =>
    (((children list.val).filter (·.tag = 0x06)).map (Mech.fromOid ·.val)).find? (· ≠ .unknown)

/-- The content of an OCTET STRING field. -/
def octets (field : Bytes) : Option Bytes := ((tlv field).filter (·.tag = 0x04)).map Tlv.val

/-- One field of a `NegTokenInit`: `[0] mechTypes` or `[2] mechToken`. -/
def negInitField (inc : Incoming) (field : Tlv) : Incoming :=
  if field.tag = 0xA0 then { inc with mech := (firstMech field.val).getD inc.mech }
  else if field.tag = 0xA2 then { inc with token := (octets field.val).getD inc.token }
  else inc

/-- A `NegTokenInit` body: the first mechanism understood, and its token. -/
def parseNegInit (body : Bytes) : Incoming :=
  match (tlv body).filter (·.tag = 0x30) with
  | none => ⟨.unknown, true, []⟩
  | some seq => (children seq.val).foldl negInitField ⟨.unknown, true, []⟩

/-- One field of a `NegTokenResp`: `[1] supportedMech` or `[2] responseToken`. -/
def negRespField (inc : Incoming) (field : Tlv) : Incoming :=
  if field.tag = 0xA1 then
    match (tlv field.val).filter (·.tag = 0x06) with
    | some oid => { inc with mech := Mech.fromOid oid.val }
    | none => inc
  else if field.tag = 0xA2 then { inc with token := (octets field.val).getD inc.token }
  else inc

/-- A `NegTokenResp`; the mechanism is inferred from the token when `supportedMech` is absent. -/
def parseNegResp (blob : Bytes) : Incoming :=
  match (tlv blob).filter (·.tag = 0xA1) with
  | none => ⟨.unknown, true, []⟩
  | some outer =>
    match (tlv outer.val).filter (·.tag = 0x30) with
    | none => ⟨.unknown, true, []⟩
    | some seq =>
      let inc := (children seq.val).foldl negRespField ⟨.unknown, true, []⟩
      if inc.mech = .unknown then
        if ntlmSig.isPrefixOf inc.token then { inc with mech := .ntlmssp }
        else if inc.token.head? = some 0x60 then { inc with mech := .krb5 }
        else inc
      else inc

/-- Classify a SESSION_SETUP security blob. -/
def classify (blob : Bytes) : Incoming :=
  let raw : Incoming := ⟨.unknown, false, blob⟩
  if blob.head? = some 0x60 then
    match tlv blob with
    | none => raw
    | some t =>
      match children t.val with
      | [] => raw
      | oid :: more =>
        if oid.tag = 0x06 ∧ oid.val = oidSpnego then
          match more with
          | neg :: _ => parseNegInit neg.val
          | [] => raw
        else if oid.tag = 0x06 then ⟨Mech.fromOid oid.val, false, blob⟩
        else raw
  else if blob.head? = some 0xA1 then parseNegResp blob
  else if ntlmSig.isPrefixOf blob then ⟨.ntlmssp, false, blob⟩
  else raw

def acceptCompleted : UInt8 := 0x00
def acceptIncomplete : UInt8 := 0x01

/-- Wrap a mechanism's output token in a `NegTokenResp`. -/
def negResp (state : UInt8) (mech : Mech) (token : Bytes) : Bytes :=
  let inner := der 0xA0 [0x0A, 0x01, state] ++
    (if mech.oid.isEmpty then [] else der 0xA1 (derOid mech.oid)) ++
    (if token.isEmpty then [] else der 0xA2 (der 0x04 token))
  der 0xA1 (der 0x30 inner)

end Spnego

end RocketSmbd
