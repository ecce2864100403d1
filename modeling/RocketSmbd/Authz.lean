import RocketSmbd.Config

/-!
# Per-share authorization (`authz.rs`)

Who may connect to a share and who gets it read-only, decided from the share's user lists, the
`[[group]]` table and the identity of the session.  Every list entry was parsed once when the
configuration was loaded, so an entry that does not parse, or whose parse stops the program, never
reaches a running server; matching such an entry is false.
-/

namespace RocketSmbd

open ByteString

namespace Authz

/-- Well-known domain-relative group RIDs accepted by name. -/
def wellKnown : List (Str × UInt32) :=
  [(lit "domain admins", 512), (lit "domain users", 513), (lit "domain guests", 514),
    (lit "domain computers", 515), (lit "domain controllers", 516), (lit "cert publishers", 517),
    (lit "schema admins", 518), (lit "enterprise admins", 519),
    (lit "group policy creator owners", 520), (lit "read-only domain controllers", 521),
    (lit "cloneable domain controllers", 522), (lit "protected users", 525),
    (lit "key admins", 526), (lit "enterprise key admins", 527)]

inductive UserPat
  | bare (name : Str)
  | principal (name : Str)
  | domUser (domain name : Str)

/-- One parsed share-list entry. -/
inductive Entry
  | user (p : UserPat)
  | groupSid (sid : Sid)
  | wellKnown (domain : Option Str) (rid : UInt32)
  | table (i : ℕ)

/-- Why an entry does not parse; each names the text at fault. -/
inductive ParseErr
  | emptyUserName
  | invalidDomUser (s : Str)
  | invalidPrincipal (s : Str)
  | invalidSid (g : Str)
  | unknownGroup (g : Str)
  /-- A string slice off a character boundary: the program stops. -/
  | slicePanic (g : Str)

/-- `str::split_once` at the first character that satisfies `p`. -/
def splitOnce (p : Char → Bool) : Str → Option (Str × Str)
  | [] => none
  | c :: s => if p c then some ([], s) else (splitOnce p s).map fun ⟨a, b⟩ => (c :: a, b)

/-- `str::rsplit_once`. -/
def rsplitOnce (p : Char → Bool) (s : Str) : Option (Str × Str) :=
  (splitOnce p s.reverse).map fun ⟨a, b⟩ => (b.reverse, a.reverse)

/-- The code points of White_Space, as `str::trim` uses. -/
def isWhite (c : Char) : Bool :=
  let n := c.toNat
  (9 ≤ n && n ≤ 13) || n == 0x20 || n == 0x85 || n == 0xA0 || n == 0x1680 ||
    (0x2000 ≤ n && n ≤ 0x200A) || n == 0x2028 || n == 0x2029 || n == 0x202F || n == 0x205F ||
    n == 0x3000

/-- `str::trim`. -/
def trim (s : Str) : Str := ((s.dropWhile isWhite).reverse.dropWhile isWhite).reverse

def UserPat.parse (s : Str) : Except ParseErr UserPat :=
  let s := trim s
  if s.isEmpty then .error .emptyUserName
  else
    match splitOnce (· = '\\') s with
    | some (d, n) =>
      if d.isEmpty ∨ n.isEmpty ∨ n.any (fun c => c = '\\' ∨ c = '@') then
        .error (.invalidDomUser s)
      else .ok (.domUser d n)
    | none =>
      match rsplitOnce (· = '@') s with
      | some (u, r) =>
        if ¬ u.isEmpty ∧ ¬ r.isEmpty then .ok (.principal s) else .error (.invalidPrincipal s)
      | none => .ok (.bare s)

/-- The number of bytes of a string in UTF-8. -/
def utf8Len (s : Str) : ℕ := (s.map Char.utf8Size).sum

/-- `g[..2]`: the prefix of two bytes, if a character ends there. -/
def firstTwo : Str → Option Str
  | a :: b :: _ => if a.utf8Size = 2 then some [a] else
      if a.utf8Size = 1 ∧ b.utf8Size = 1 then some [a, b] else none
  | [a] => if a.utf8Size = 2 then some [a] else none
  | [] => none

/-- The `@group` forms after the `@`: a SID, a `[[group]]` name, or a well-known group. -/
def Entry.parseGroup (g : Str) (cfg : Config) : Except ParseErr Entry :=
  match cfg.groups.findIdx? (fun t => eqIgnoreAsciiCase t.name g) with
  | some i => .ok (.table i)
  | none =>
    let (domain, name) := match splitOnce (· = '\\') g with
      | some (d, n) => if ¬ d.isEmpty then (some d, n) else (none, g)
      | none => (none, g)
    match Authz.wellKnown.find? (fun w => eqIgnoreAsciiCase w.1 name) with
    | some w => .ok (.wellKnown domain w.2)
    | none => .error (.unknownGroup g)

/-- Parse a list entry; `@group` names resolve against `cfg.groups` first. -/
def Entry.parse (s : Str) (cfg : Config) : Except ParseErr Entry :=
  match trim s with
  | '@' :: g =>
    let g := trim g
    if 2 < utf8Len g then
      match firstTwo g with
      | none => .error (.slicePanic g)
      | some p =>
        if eqIgnoreAsciiCase p ['S', '-'] then
          match Sid.parse g with
          | some sid => .ok (.groupSid sid)
          | none => .error (.invalidSid g)
        else Entry.parseGroup g cfg
    else Entry.parseGroup g cfg
  | _ => (UserPat.parse s).map Entry.user

/-- The authenticated identity of a session, as authorization sees it. -/
structure Who where
  guest : Bool
  user : Str
  kerberos : Bool
  pac : Option LogonInfo

/-- Outcome of a TREE_CONNECT authorization check. -/
inductive Access
  | denied
  | readOnly
  | readWrite
  deriving DecidableEq, Repr

def userMatches (p : UserPat) (who : Who) (cfg : Config) : Bool :=
  if who.guest ∨ who.user.isEmpty then false
  else
    match p with
    | .bare n =>
      if ¬ who.kerberos then eqIgnoreAsciiCase who.user n
      else
        match cfg.kerberos.bind KerberosCfg.realm, rsplitOnce (· = '@') who.user with
        | some realm, some (u, r) => eqIgnoreAsciiCase u n && eqIgnoreAsciiCase r realm
        | _, _ => false
    | .principal pr => who.kerberos && eqIgnoreAsciiCase who.user pr
    | .domUser domain name =>
      who.pac.any fun l => eqIgnoreAsciiCase l.domain domain && eqIgnoreAsciiCase l.user name

/-- A `[[group]]` matches by its SID in the PAC or by one of its members. -/
def groupMatches (g : GroupCfg) (who : Who) (cfg : Config) : Bool :=
  ((g.sid.bind Sid.parse).any fun s => who.pac.any fun l => l.hasSid s) ||
    g.members.any fun m =>
      match UserPat.parse m with
      | .ok p => userMatches p who cfg
      | .error _ => false

def entryMatches (e : Entry) (who : Who) (cfg : Config) : Bool :=
  if who.guest then false
  else
    match e with
    | .user p => userMatches p who cfg
    | .groupSid s => who.pac.any fun l => l.hasSid s
    | .wellKnown domain rid =>
      who.pac.any fun l =>
        domain.all (fun d => eqIgnoreAsciiCase l.domain d) &&
          l.domainSid.any fun ds => l.hasSid (ds.withRid rid)
    | .table i => cfg.groups[i]?.any fun g => groupMatches g who cfg

/-- Some entry of the list matches. -/
def anyMatches (list : List Str) (who : Who) (cfg : Config) : Bool :=
  list.any fun s =>
    match Entry.parse s cfg with
    | .ok e => entryMatches e who cfg
    | .error _ => false

/-- Decide TREE_CONNECT access to `share` for `who`. -/
def check (cfg : Config) (share : ShareCfg) (who : Who) : Access :=
  if anyMatches share.invalidUsers who cfg then .denied
  else if ¬ share.validUsers.isEmpty ∧ ¬ anyMatches share.validUsers who cfg then .denied
  else if share.readOnly ∨ anyMatches share.readOnlyUsers who cfg then .readOnly
  else .readWrite

end Authz

end RocketSmbd
