import RocketSmbd.Crypto
import RocketSmbd.Status

/-!
# Configuration (`config.rs`) and the identities it names (`pac.rs`)

The parts of the TOML configuration that the protocol code reads, and the security identifiers
and logon information against which share lists are matched.
-/

namespace RocketSmbd

open ByteString

/-! ### Security identifiers -/

/-- A Windows security identifier. -/
structure Sid where
  revision : UInt8
  authority : UInt64
  sub : List UInt32
  deriving DecidableEq, Repr

def maxSubauth : ℕ := 15

/-- Split at every occurrence of a separator (`str::split`). -/
def splitOn (p : Char → Bool) : Str → List Str
  | [] => [[]]
  | c :: s =>
    if p c then [] :: splitOn p s
    else
      match splitOn p s with
      | [] => [[c]]
      | w :: ws => (c :: w) :: ws

/-- The value of a non-empty string of decimal digits. -/
def decimal : Str → Option ℕ
  | [] => none
  | s => s.foldl (fun acc c => acc.bind fun n => if '0' ≤ c ∧ c ≤ '9' then
      some (n * 10 + (c.toNat - 48)) else none) (some 0)

/-- `str::parse` for an unsigned type with values below `bound`: digits with an optional `+`. -/
def parseUnsigned (bound : ℕ) (s : Str) : Option ℕ :=
  let digits := match s with
    | '+' :: rest => rest
    | s => s
  (decimal digits).bind fun n => if n < bound then some n else none

/-- The `S-1-5-21-…` string form. -/
def Sid.parse (s : Str) : Option Sid :=
  match splitOn (· = '-') s with
  | head :: rev :: auth :: rest => do
    if ¬ eqIgnoreAsciiCase head ['S'] then none
    let revision ← parseUnsigned (2 ^ 8) rev
    let authority ← parseUnsigned (2 ^ 64) auth
    if revision ≠ 1 ∨ 2 ^ 48 ≤ authority then none
    let sub ← rest.mapM (parseUnsigned (2 ^ 32))
    if sub.isEmpty ∨ maxSubauth < sub.length then none
    pure ⟨UInt8.ofNat revision, UInt64.ofNat authority, sub.map UInt32.ofNat⟩
  | _ => none

/-- This (domain) SID with `rid` appended. -/
def Sid.withRid (s : Sid) (rid : UInt32) : Sid := { s with sub := s.sub ++ [rid] }

/-- What the server uses from a PAC's logon information. -/
structure LogonInfo where
  user : Str
  domain : Str
  domainSid : Option Sid
  userSid : Option Sid
  groups : List Sid
  deriving DecidableEq, Repr

/-- `sid` is the user's SID or one of its group SIDs. -/
def LogonInfo.hasSid (l : LogonInfo) (sid : Sid) : Bool :=
  l.userSid == some sid || l.groups.contains sid

/-! ### The configuration -/

/-- A path: its components, from the root of the host's file system. -/
abbrev Path := List Str

inductive AuthMode
  | ntlm
  | kerberos
  | both
  deriving DecidableEq, Repr

def AuthMode.allowsNtlm : AuthMode → Bool
  | .ntlm | .both => true
  | .kerberos => false

def AuthMode.allowsKerberos : AuthMode → Bool
  | .kerberos | .both => true
  | .ntlm => false

/-- The `[kerberos]` table. -/
structure KerberosCfg where
  enabled : Bool
  spn : Option Str
  realm : Option Str

/-- The name the Kerberos acceptor acquires its credential for. -/
inductive AcceptorName
  | hostBased (name : Str)
  | principal (name : Str)

/-- One `[[user]]`: its name and the secret, as a password or as an NT hash in hex. -/
structure UserCfg where
  name : Str
  password : Option Str
  ntHash : Option Str

/-- One `[[share]]`. -/
structure ShareCfg where
  name : Str
  path : Path
  readOnly : Bool
  validUsers : List Str
  invalidUsers : List Str
  readOnlyUsers : List Str

/-- One `[[group]]`. -/
structure GroupCfg where
  name : Str
  sid : Option Str
  members : List Str

/-- The configuration keys that loading and the protocol code read. -/
structure Config where
  listen : Str
  healthListen : Option Str
  serverName : Str
  requireSigning : Option Bool
  multichannel : Bool
  encrypt : Bool
  preferAes256 : Bool
  oplocks : Bool
  auth : AuthMode
  kerberos : Option KerberosCfg
  shares : List ShareCfg
  users : List UserCfg
  groups : List GroupCfg

namespace Config

/-- Whether authenticated sessions must sign. -/
def signingRequired (cfg : Config) : Bool := cfg.requireSigning.getD false

/-- `s.replacen('/', "@", 1)` -/
def slashToAt : Str → Str
  | [] => []
  | c :: s => if c = '/' then '@' :: s else c :: slashToAt s

/-- The service principal the Kerberos acceptor uses. -/
def krbAcceptorName (cfg : Config) : AcceptorName :=
  let spn := (cfg.kerberos.bind KerberosCfg.spn).getD (['c', 'i', 'f', 's', '/'] ++ cfg.serverName)
  if spn.contains '@' then .principal spn
  else
    match cfg.kerberos.bind KerberosCfg.realm with
    | some realm => .principal (spn ++ '@' :: realm)
    | none => .hostBased (slashToAt spn)

end Config

/-! ### Network interfaces (`net.rs`) -/

inductive IpAddr
  | v4 (octets : Bytes)
  | v6 (octets : Bytes)

/-- An interface reported for SMB3 multichannel. -/
structure Iface where
  index : UInt32
  capability : UInt32
  speed : UInt64
  addr : IpAddr
  loopback : Bool

end RocketSmbd
