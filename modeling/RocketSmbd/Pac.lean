import RocketSmbd.Config
import RocketSmbd.Lib.Cursor

/-!
# Decoding a PAC (`pac.rs`)

`parsePac` finds the first LOGON_INFO buffer of a PAC and `parseLogonInfo` decodes it: the NDR type
serialization of a `KERB_VALIDATION_INFO`, a fixed part whose strings, SIDs and arrays follow as
deferred referents in field order.  The additions of positions are not checked for overflow, which
no buffer in memory reaches.
-/

namespace RocketSmbd

open ByteString

namespace Pac

/-- Why a PAC is refused. -/
inductive Err
  | truncated
  | bufferCount (n : ℕ)
  | lengthOverflow
  | outOfBounds
  | noLogonInfo
  | ndrHeader (ver endian : UInt8) (hlen : UInt16)
  | nullInfo
  | badStringLength
  | badSid
  | tooManyGroups
  | tooManyExtraSids
  /-- An index out of range: the program stops. -/
  | indexPanic
  deriving DecidableEq, Repr

def maxGroups : ℕ := 8192
def pacLogonInfo : UInt32 := 1

/-- The NDR reader: its buffer and the position in it. -/
abbrev Rd := Cursor Err

namespace Rd

def take (n : ℕ) : Rd Bytes := Cursor.take .truncated n

def skip (n : ℕ) : Rd Unit := do
  let _ ← take n

/-- Skip to a multiple of `a` from the start of the buffer. -/
def align (a : ℕ) : Rd Unit := do
  let pos ← get
  skip ((a - pos % a) % a)

/-- `n` bytes that are then accessed by their indices. -/
def indexed (n : ℕ) : Rd Bytes := do
  let s ← take n
  if s.length < n then throw .indexPanic else pure s

def u8 : Rd UInt8 := do
  let s ← indexed 1
  pure (UInt8.ofNat (leNat s))

def u16 : Rd UInt16 := do
  align 2
  let s ← indexed 2
  pure (UInt16.ofNat (leNat s))

def u32 : Rd UInt32 := do
  align 4
  let s ← indexed 4
  pure (UInt32.ofNat (leNat s))

def u64 : Rd UInt64 := do
  let lo ← u32
  let hi ← u32
  pure (lo.toUInt64 ||| (hi.toUInt64 <<< 32))

/-- A pointer: whether it is non-null. -/
def pointer : Rd Bool := do
  let p ← u32
  pure (p ≠ 0)

end Rd

/-- The header of an `RPC_UNICODE_STRING`: its length in bytes and whether the buffer pointer is
non-null. -/
structure UStr where
  len : UInt16
  present : Bool
  deriving DecidableEq

namespace Rd

def ustrHdr : Rd UStr := do
  let len ← u16
  let _ ← u16
  let present ← pointer
  pure ⟨len, present⟩

/-- The deferred body of a string whose header was `h`. -/
def ustrBody (h : UStr) : Rd (Option Str) :=
  if ¬ h.present then pure none
  else do
    let _ ← u32
    let _ ← u32
    let actual ← u32
    if actual.toNat * 2 < h.len.toNat ∨ 0x8000 < actual.toNat then throw .badStringLength
    else do
      let raw ← take (actual.toNat * 2)
      pure (some (fromUtf16Lossy ((chunks16 raw).take (h.len.toNat / 2))))

/-- A deferred `RPC_SID`: the count of sub-authorities, then the SID. -/
def sid : Rd Sid := do
  let max ← u32
  let revision ← u8
  let n ← u8
  if n.toNat ≠ max.toNat ∨ n = 0 ∨ maxSubauth < n.toNat then throw .badSid
  else do
    let a ← take 6
    let authority : UInt64 := a.foldl (fun acc b => (acc <<< 8) ||| b.toUInt64) 0
    let sub ← Cursor.many u32 n.toNat
    pure ⟨revision, authority, sub⟩

/-- A value and its attributes, which are not used. -/
def withAttributes {α : Type} (p : Rd α) : Rd α := do
  let v ← p
  let _ ← u32
  pure v

/-- A deferred `GROUP_MEMBERSHIP` array: the RIDs. -/
def rids : Rd (List UInt32) := do
  let n ← u32
  if maxGroups < n.toNat then throw .tooManyGroups
  else Cursor.many (withAttributes u32) n.toNat

/-- Those of the pointers that are non-null, read in order. -/
def sids : List Bool → Rd (List Sid)
  | [] => pure []
  | false :: ps => sids ps
  | true :: ps => do
    let s ← sid
    let ss ← sids ps
    pure (s :: ss)

/-- A deferred `KERB_SID_AND_ATTRIBUTES` array: pointers with attributes, then the SIDs. -/
def extraSids : Rd (List Sid) := do
  let n ← u32
  if maxGroups < n.toNat then throw .tooManyExtraSids
  else do
    let present ← Cursor.many (withAttributes pointer) n.toNat
    sids present

/-- A referent that is there if its pointer was non-null. -/
def deferred {α : Type} (present : Bool) (p : Rd α) : Rd (Option α) :=
  if present then do
    let v ← p
    pure (some v)
  else pure none

end Rd

/-! ### `KERB_VALIDATION_INFO` -/

/-- What is kept of the fixed part. -/
structure Fixed where
  effectiveName : UStr
  strs : List UStr
  userId : UInt32
  primaryGroup : UInt32
  groupIds : Bool
  logonServer : UStr
  domainName : UStr
  domainSid : Bool
  extraSids : Bool
  resDomain : Bool
  resIds : Bool

open Rd

/-- The common type header: version 1, little-endian, length 8; then the private header and the
pointer to the structure. -/
def ndrHeader : Rd Unit := do
  let ver ← u8
  let endian ← u8
  let hlen ← u16
  if ver ≠ 1 ∨ endian ≠ 0x10 ∨ hlen ≠ 8 then throw (.ndrHeader ver endian hlen)
  else do
    let _ ← u32
    let _ ← u32
    let _ ← u32
    let info ← u32
    if info = 0 then throw .nullInfo else pure ()

def fixedPart : Rd Fixed := do
  skip (6 * 8) -- LogonTime … PasswordMustChange
  let effectiveName ← ustrHdr
  -- FullName, LogonScript, ProfilePath, HomeDirectory, HomeDirectoryDrive
  let strs ← Cursor.many ustrHdr 5
  let _ ← u16 -- LogonCount
  let _ ← u16 -- BadPasswordCount
  let userId ← u32
  let primaryGroup ← u32
  let _ ← u32 -- GroupCount
  let groupIds ← pointer
  let _ ← u32 -- UserFlags
  skip 16 -- UserSessionKey
  let logonServer ← ustrHdr
  let domainName ← ustrHdr
  let domainSid ← pointer
  skip (2 * 4) -- Reserved1
  let _ ← u32 -- UserAccountControl
  let _ ← u32 -- SubAuthStatus
  skip (2 * 8) -- LastSuccessfulILogon, LastFailedILogon
  let _ ← u32 -- FailedILogonCount
  let _ ← u32 -- Reserved3
  let _ ← u32 -- SidCount
  let extraSids ← pointer
  let resDomain ← pointer
  let _ ← u32 -- ResourceGroupCount
  let resIds ← pointer
  pure ⟨effectiveName, strs, userId, primaryGroup, groupIds, logonServer, domainName, domainSid,
    extraSids, resDomain, resIds⟩

/-- `for s in strs { r.ustr_body(s)?; }` -/
def skipStrs : List UStr → Rd Unit
  | [] => pure ()
  | h :: hs => do
    let _ ← ustrBody h
    skipStrs hs

/-- The values that the fixed part points to. -/
structure Referents where
  user : Str
  rids : List UInt32
  domain : Str
  domainSid : Option Sid
  extra : List Sid
  resDomain : Option Sid
  resRids : List UInt32

def referents (f : Fixed) : Rd Referents := do
  let user ← ustrBody f.effectiveName
  skipStrs f.strs
  let ids ← deferred f.groupIds rids
  let _ ← ustrBody f.logonServer
  let domain ← ustrBody f.domainName
  let domainSid ← deferred f.domainSid sid
  let extra ← deferred f.extraSids Rd.extraSids
  let resDomain ← deferred f.resDomain sid
  let resRids ← deferred f.resIds rids
  pure ⟨user.getD [], ids.getD [], domain.getD [], domainSid, extra.getD [], resDomain,
    resRids.getD []⟩

/-- `if !groups.contains(&s) { groups.push(s) }` -/
def add (groups : List Sid) (s : Sid) : List Sid := if s ∈ groups then groups else groups ++ [s]

/-- Every group SID of the token, in the order in which they are added. -/
def tokenGroups (f : Fixed) (r : Referents) : List Sid :=
  (r.domainSid.toList.flatMap fun d => d.withRid f.primaryGroup :: r.rids.map d.withRid) ++
    r.extra ++ r.resDomain.toList.flatMap fun d => r.resRids.map d.withRid

def logonInfo : Rd LogonInfo := do
  ndrHeader
  let f ← fixedPart
  let r ← referents f
  pure ⟨r.user, r.domain, r.domainSid, r.domainSid.map (·.withRid f.userId),
    (tokenGroups f r).foldl add []⟩

/-- Decode a LOGON_INFO buffer. -/
def parseLogonInfo (buf : Bytes) : Except Err LogonInfo := (logonInfo buf 0).map Prod.fst

/-! ### `PACTYPE` -/

/-- The size and the offset of the first LOGON_INFO buffer among the next `n` entries. -/
def logonBuffer : ℕ → Rd (ℕ × ℕ)
  | 0 => throw .noLogonInfo
  | n + 1 => do
    let ty ← u32
    let size ← u32
    let off ← u64
    if ty = pacLogonInfo then pure (size.toNat, off.toNat) else logonBuffer n

/-- The size and the offset that the directory of a PAC gives for its LOGON_INFO. -/
def directory : Rd (ℕ × ℕ) := do
  let count ← u32
  let _ ← u32
  if count = 0 ∨ 64 < count.toNat then throw (.bufferCount count.toNat)
  else logonBuffer count.toNat

/-- Decode a whole PAC and return its LOGON_INFO. -/
def parsePac (pac : Bytes) : Except Err LogonInfo := do
  let ((size, off), _) ← directory pac 0
  if 2 ^ 64 ≤ off + size then .error .lengthOverflow
  else
    match slice pac off (off + size) with
    | none => .error .outOfBounds
    | some buf => parseLogonInfo buf

end Pac

end RocketSmbd
