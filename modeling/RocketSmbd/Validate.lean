import RocketSmbd.Authz
import RocketSmbd.Lib.FinMap

/-!
# Accepting a configuration (`config.rs`, `authz.rs`)

`Config.validate` is run once on the parsed file; a server starts only with a configuration that
it accepts.  `Config.userDb` is the table of NT hashes that such a server authenticates with.  The
errors carry what their messages name; the wording of the messages is left out.
-/

namespace RocketSmbd

open ByteString

/-- What loading asks of its surroundings: `str::parse::<SocketAddr>`, `Path::is_dir`,
`str::to_lowercase` and the NT hash of a password. -/
structure LoadEnv where
  isSocketAddr : Str → Bool
  isDir : Path → Bool
  toLowercase : Str → Str
  ntHash : Str → Bytes

/-- The user lists of a share. -/
inductive ShareList
  | validUsers
  | invalidUsers
  | readOnlyUsers

/-- Why a configuration is refused. -/
inductive ConfigErr
  | listen (addr : Str)
  | healthListen (addr : Str)
  | noShares
  | shareName (name : Str)
  | duplicateShare (name : Str)
  | notDirectory (name : Str) (path : Path)
  | reservedShare
  | userName (name : Str)
  | userSecret (name : Str)
  | krbRealm (realm : Str)
  | krbSpn (spn : Str)
  | krbRealms (spn realm : Str) (configured : Str)
  | groupName (name : Str)
  | emptyGroup (name : Str)
  | groupSid (name sid : Str)
  | nestedGroup (name member : Str)
  | groupMember (name : Str) (err : Authz.ParseErr)
  | shareList (name : Str) (list : ShareList) (err : Authz.ParseErr)

/-- Stop with `err` if `c` holds. -/
def rejectIf {E : Type} (c : Prop) [Decidable c] (err : E) : Except E Unit :=
  if c then .error err else .ok ()

/-! ### The sections of the file -/

/-- `h.len() == 32 && h.bytes().all(|b| b.is_ascii_hexdigit())` -/
def isNtHash (h : Str) : Bool :=
  h.length = 32 ∧ h.all fun c =>
    ('0' ≤ c ∧ c ≤ '9') ∨ ('a' ≤ c ∧ c ≤ 'f') ∨ ('A' ≤ c ∧ c ≤ 'F')

/-- The `[[share]]` entries; `seen` are the lowercased names before them. -/
def checkShares (e : LoadEnv) : List Str → List ShareCfg → Except ConfigErr Unit
  | _, [] => .ok ()
  | seen, s :: rest => do
    rejectIf (s.name.isEmpty ∨ s.name.any fun c => c = '\\' ∨ c = '/') (.shareName s.name)
    rejectIf (e.toLowercase s.name ∈ seen) (.duplicateShare s.name)
    rejectIf (¬ e.isDir s.path) (.notDirectory s.name s.path)
    rejectIf (eqIgnoreAsciiCase s.name ['I', 'P', 'C', '$']) .reservedShare
    checkShares e (seen ++ [e.toLowercase s.name]) rest

/-- Exactly one of password and NT hash is set, and a hash is 32 hex characters. -/
def UserCfg.checkSecret (u : UserCfg) : Except ConfigErr Unit :=
  match u.password, u.ntHash with
  | some _, none => .ok ()
  | none, some h => rejectIf (¬ isNtHash h) (.userSecret u.name)
  | _, _ => .error (.userSecret u.name)

/-- The `[[user]]` entries; `seen` are the lowercased names before them. -/
def checkUsers (e : LoadEnv) : List Str → List UserCfg → Except ConfigErr Unit
  | _, [] => .ok ()
  | seen, u :: rest => do
    rejectIf (u.name.isEmpty ∨ e.toLowercase u.name ∈ seen) (.userName u.name)
    u.checkSecret
    checkUsers e (seen ++ [e.toLowercase u.name]) rest

/-- A text that cannot be a bare realm name. -/
def notRealm (r : Str) : Bool := r.isEmpty ∨ r.any fun c => c = '@' ∨ c = '/'

/-- The service and the realm of an SPN. -/
def splitSpn (spn : Str) : Str × Option Str :=
  match Authz.splitOnce (· = '@') spn with
  | some (svc, realm) => (svc, some realm)
  | none => (spn, none)

/-- A check of a key that may be unset. -/
def checkSet {A : Type} (check : A → Except ConfigErr Unit) : Option A → Except ConfigErr Unit
  | some a => check a
  | none => .ok ()

/-- An SPN is `service/host` or `service/host@REALM`, and the realm is the configured one. -/
def checkSpn (configured : Option Str) (spn : Str) : Except ConfigErr Unit := do
  let (svc, realm) := splitSpn spn
  let hosted := (Authz.splitOnce (· = '/') svc).any fun p => ¬ p.1.isEmpty ∧ ¬ p.2.isEmpty
  rejectIf (¬ hosted ∨ realm.any notRealm) (.krbSpn spn)
  match realm, configured with
  | some a, some b => rejectIf (a ≠ b) (.krbRealms spn a b)
  | _, _ => .ok ()

def KerberosCfg.validate (k : KerberosCfg) : Except ConfigErr Unit := do
  checkSet (fun r => rejectIf (notRealm r) (.krbRealm r)) k.realm
  checkSet (checkSpn k.realm) k.spn

namespace Authz

/-- A text parses. -/
def checkParse {A : Type} (err : ParseErr → ConfigErr) : Except ParseErr A → Except ConfigErr Unit
  | .ok _ => .ok ()
  | .error why => .error (err why)

/-- Every text of a list parses; the first that does not is the error. -/
def checkAll {A : Type} (parse : Str → Except ParseErr A) (err : ParseErr → ConfigErr) :
    List Str → Except ConfigErr Unit
  | [] => .ok ()
  | s :: rest => do
    checkParse err (parse s)
    checkAll parse err rest

/-- The members of a `[[group]]` are users. -/
def checkMembers (name : Str) : List Str → Except ConfigErr Unit
  | [] => .ok ()
  | m :: rest => do
    rejectIf ((m.dropWhile isWhite).head? = some '@') (.nestedGroup name m)
    checkParse (.groupMember name) (UserPat.parse m)
    checkMembers name rest

/-- The `[[group]]` entries. -/
def checkGroups (e : LoadEnv) : List Str → List GroupCfg → Except ConfigErr Unit
  | _, [] => .ok ()
  | seen, g :: rest => do
    rejectIf ((trim g.name).isEmpty ∨ g.name.head? = some '@' ∨ e.toLowercase g.name ∈ seen)
      (.groupName g.name)
    rejectIf (g.sid.isNone ∧ g.members.isEmpty) (.emptyGroup g.name)
    checkSet (fun s => rejectIf (Sid.parse s).isNone (.groupSid g.name s)) g.sid
    checkMembers g.name g.members
    checkGroups e (seen ++ [e.toLowercase g.name]) rest

/-- The user lists of one share. -/
def validateShare (cfg : Config) (s : ShareCfg) : Except ConfigErr Unit := do
  checkAll (Entry.parse · cfg) (.shareList s.name .validUsers) s.validUsers
  checkAll (Entry.parse · cfg) (.shareList s.name .invalidUsers) s.invalidUsers
  checkAll (Entry.parse · cfg) (.shareList s.name .readOnlyUsers) s.readOnlyUsers

def validateShares (cfg : Config) : List ShareCfg → Except ConfigErr Unit
  | [] => .ok ()
  | s :: rest => do
    validateShare cfg s
    validateShares cfg rest

/-- The group table and every share list. -/
def validate (e : LoadEnv) (cfg : Config) : Except ConfigErr Unit := do
  checkGroups e [] cfg.groups
  validateShares cfg cfg.shares

end Authz

namespace Config

def validate (e : LoadEnv) (cfg : Config) : Except ConfigErr Unit := do
  rejectIf (¬ e.isSocketAddr cfg.listen) (.listen cfg.listen)
  checkSet (fun h => rejectIf (¬ e.isSocketAddr h) (.healthListen h)) cfg.healthListen
  rejectIf cfg.shares.isEmpty .noShares
  checkShares e [] cfg.shares
  checkUsers e [] cfg.users
  checkSet KerberosCfg.validate cfg.kerberos
  Authz.validate e cfg

/-! ### The table of NT hashes -/

/-- The value of a hex digit. -/
def hexDigit (c : Char) : ℕ :=
  if c ≤ '9' then c.toNat - '0'.toNat
  else if c ≤ 'F' then c.toNat - 'A'.toNat + 10 else c.toNat - 'a'.toNat + 10

def hexBytes : Str → Bytes
  | a :: b :: rest => UInt8.ofNat (16 * hexDigit a + hexDigit b) :: hexBytes rest
  | _ => []

/-- Lowercased name → NT hash.  `validate` leaves no entry without a secret. -/
def userDb (e : LoadEnv) (cfg : Config) : FinMap Str Bytes :=
  cfg.users.foldl
    (fun db u =>
      db.insert (e.toLowercase u.name)
        (match u.password with
        | some p => e.ntHash p
        | none => hexBytes (u.ntHash.getD [])))
    ∅

end Config

/-! ### What an accepted configuration has -/

section

variable {E : Type}

theorem rejectIf_eq_ok {c : Prop} [Decidable c] {err : E} : rejectIf c err = .ok () ↔ ¬ c := by
  unfold rejectIf
  split_ifs with hc <;> simp [hc]

theorem seq_eq_ok {x : Except E Unit} {y : Unit → Except E Unit} :
    (x >>= y) = .ok () ↔ x = .ok () ∧ y () = .ok () := by
  cases x with
  | error err | ok a => simp [bind, Except.bind]

end

variable {e : LoadEnv} {cfg : Config}

/-- An accepted configuration has a share, whose path is a directory. -/
theorem Config.exists_isDir (h : cfg.validate e = .ok ()) : ∃ path, e.isDir path = true := by
  simp only [Config.validate, seq_eq_ok, rejectIf_eq_ok] at h
  obtain ⟨-, -, hshares, hcheck, -⟩ := h
  cases hs : cfg.shares with
  | nil => simp [hs] at hshares
  | cons s rest =>
    simp only [hs, checkShares, seq_eq_ok, rejectIf_eq_ok, not_not] at hcheck
    exact ⟨s.path, hcheck.2.2.1⟩

/-- A configuration with one share is accepted if another one, with the same other sections, is,
and the share is all right. -/
theorem Config.validate_withShare {share : ShareCfg} (h : cfg.validate e = .ok ())
    (hname : share.name = ['s']) (hdir : e.isDir share.path = true)
    (hlists : Authz.validateShare { cfg with shares := [share] } share = .ok ()) :
    Config.validate e { cfg with shares := [share] } = .ok () := by
  simp only [Config.validate, Authz.validate, seq_eq_ok, rejectIf_eq_ok] at h ⊢
  obtain ⟨hlisten, hhealth, -, -, husers, hkrb, hgroups, -⟩ := h
  refine ⟨hlisten, hhealth, by simp, ?_, husers, hkrb, hgroups, ?_⟩
  · simp only [checkShares, seq_eq_ok, rejectIf_eq_ok, hname, hdir]
    exact ⟨by decide, List.not_mem_nil, by simp, by decide, trivial⟩
  · simp only [Authz.validateShares, seq_eq_ok, hlists, and_self]

end RocketSmbd
