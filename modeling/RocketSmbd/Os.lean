import RocketSmbd.Config
import RocketSmbd.Lib.Eff
import RocketSmbd.Lib.FinMap

/-!
# What the server calls outside itself

The operating system (`Os`), the GSS library (`Gss`) and the remaining parameters of a build
(`Env`), and the immutable part of the server context (`Srv`).  A system call is a function on a
state `σ` that stands for everything outside the process; it returns a value or an errno.
Descriptors are natural numbers: the `-1` of a failed call is the errno.  A call that the source
repeats after `EINTR` is given with the repetitions done.
-/

namespace RocketSmbd

open ByteString

/-- A file descriptor. -/
abbrev Fd := ℕ

/-- The file type bits of `st_mode` that the source looks at. -/
inductive FileKind
  | regular
  | directory
  | other
  deriving DecidableEq, Repr

/-- The fields of `struct stat` that the source reads; a time is seconds and nanoseconds. -/
structure Stat where
  kind : FileKind
  ownerWrite : Bool
  size : UInt64
  blocks : UInt64
  atime : ℤ × ℤ
  mtime : ℤ × ℤ
  ctime : ℤ × ℤ
  ino : UInt64
  nlink : UInt64
  deriving DecidableEq

/-- The open flags that the source passes (`O_RDONLY` is none of them). -/
structure OpenFlags where
  rdwr : Bool := false
  creat : Bool := false
  excl : Bool := false
  trunc : Bool := false
  directory : Bool := false

/-- The fields of `struct statvfs` that the source reads. -/
structure StatVfs where
  frsize : UInt64
  blocks : UInt64
  bavail : UInt64
  bfree : UInt64

/-- One directory entry as the listing sees it: its name when it is UTF-8, and its metadata when
`stat` or else `lstat` gives it. -/
structure DirItem where
  name : Option Str
  stat : Option Stat

/-- Kinds of byte-range lock operation. -/
inductive LockKind
  | shared
  | exclusive
  | unlock
  deriving DecidableEq, Repr

/-- The operating system. -/
structure Os (σ : Type) where
  urandom : ℕ → σ → Bytes × σ
  now : σ → (ℤ × ℤ) × σ
  stat : Path → Eff σ ℕ Stat
  fstat : Fd → Eff σ ℕ Stat
  openFile : Path → OpenFlags → (mode : ℕ) → Eff σ ℕ Fd
  clearNonblock : Fd → Eff σ ℕ Unit
  close : Fd → σ → σ
  dup : Fd → Eff σ ℕ Fd
  fadviseSequential : Fd → σ → σ
  mkdir : Path → (mode : ℕ) → Eff σ ℕ Unit
  pread : Fd → (len : ℕ) → (off : UInt64) → Eff σ ℕ Bytes
  pwrite : Fd → Bytes → (off : UInt64) → Eff σ ℕ ℕ
  ftruncate : Fd → (len : UInt64) → Eff σ ℕ Unit
  fsync : Fd → Eff σ ℕ Unit
  /-- Access and modification time; `none` is `UTIME_OMIT`. -/
  futimens : Fd → Option (ℤ × ℤ) → Option (ℤ × ℤ) → Eff σ ℕ Unit
  rename : Path → Path → Eff σ ℕ Unit
  renameNoreplace : Path → Path → Eff σ ℕ Unit
  removeFile : Path → Eff σ ℕ Unit
  removeDir : Path → Eff σ ℕ Unit
  readDir : Path → Eff σ ℕ (List DirItem)
  fstatvfs : Fd → Eff σ ℕ StatVfs
  ofdSetLock : Fd → LockKind → (start len : ℕ) → Eff σ ℕ Unit
  inotifyInit : Eff σ ℕ Fd
  inotifyAddWatch : Fd → Path → Eff σ ℕ ℕ
  inotifyRmWatch : Fd → ℕ → σ → σ

/-- A completed Kerberos authentication. -/
structure Established where
  client : Str
  sessionKey : Bytes
  pac : Option LogonInfo
  out : Bytes

/-- Result of feeding one client token to the acceptor. -/
inductive GssStep
  | continue (out : Bytes)
  | done (est : Established)
  | failed (reason : Str)

/-- The GSS library: acceptor credentials and security contexts are handles into its state; a
fresh context is `0` (`GSS_C_NO_CONTEXT`). -/
structure Gss (σ : Type) where
  acceptor : AcceptorName → Eff σ Str ℕ
  step : (acc ctx : ℕ) → (token : Bytes) → σ → (GssStep × ℕ) × σ

/-- The surroundings of a build: backend, system, the standard library's text functions and the
cargo features. -/
structure Env (σ : Type) where
  crypto : Crypto
  os : Os σ
  gss : Gss σ
  toLowercase : Str → Str
  toUppercase : Str → Str
  fromUtf8Lossy : Bytes → Str
  ntlm : Bool
  kerberos : Bool

/-- The immutable part of the resolved runtime context shared by all workers. -/
structure Srv (σ : Type) where
  cfg : Config
  guid : Bytes
  maxRead : UInt32
  startFt : UInt64
  /-- Lowercased user name → NT hash. -/
  users : FinMap Str Bytes
  allowGuest : Bool
  interfaces : List Iface
  env : Env σ

end RocketSmbd
