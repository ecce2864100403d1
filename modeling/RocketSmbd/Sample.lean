import RocketSmbd.Reactor

/-!
# A small server

A server over a toy operating system and a toy crypto backend, and the frames of a client.  It is
what the statements about runs are tried out on: each hypothesis is met by one of its runs, and a
run in which a property fails is a run of it.
-/

namespace RocketSmbd

open ByteString Vfs

namespace Sample

/-! ### The surroundings -/

/-- A file or a directory. -/
structure Inode where
  dir : Bool
  data : Bytes := []
  deriving DecidableEq

/-- The state outside: how many random draws were made, and a file system.  The number of an inode
and of a descriptor is its position; a descriptor names an inode, and none is used twice.  Locks are
the calls that asked for them. -/
structure Disk where
  draws : ℕ := 0
  inodes : List Inode := [⟨true, []⟩]
  names : List (Path × ℕ) := [([], 0)]
  fds : List ℕ := []
  locks : List (Fd × LockKind × ℕ × ℕ) := []
  deriving DecidableEq

/-- A checksum in the place of a hash. -/
def digest (b : Bytes) : UInt8 := b.foldl (· + ·) 0

/-- A backend whose MACs are checksums and whose seal is the plaintext itself. -/
def crypto : Crypto where
  sha512 b := [digest b]
  hmacSha256 _ m := digest m :: zeros 31
  aes128Cmac _ m := digest m :: zeros 15
  hmacMd5 _ m := digest m :: zeros 15
  aeadSeal _ _ _ _ buf := (buf, zeros 16)
  aeadOpen _ _ _ _ buf tag := if tag = zeros 16 then some buf else none
  hmacSha256_length _ _ := rfl
  aes128Cmac_length _ _ := rfl
  hmacMd5_length _ _ := rfl
  aeadSeal_length _ _ _ _ _ := rfl
  aeadSeal_tag_length _ _ _ _ _ := rfl

namespace Disk

/-- The inode at a path. -/
def at_ (d : Disk) (p : Path) : Option ℕ := d.names.lookup p

/-- The metadata of an inode. -/
def meta_ (d : Disk) (ino : ℕ) : Except ℕ Stat :=
  match d.inodes[ino]? with
  | none => .error Errno.ebadf
  | some i =>
    .ok { kind := if i.dir then .directory else .regular, ownerWrite := true
          size := UInt64.ofNat i.data.length, blocks := 0, atime := (0, 0), mtime := (0, 0)
          ctime := (0, 0), ino := UInt64.ofNat ino, nlink := 1 }

/-- Change the data of an inode. -/
def store (d : Disk) (ino : ℕ) (f : Bytes → Bytes) : Disk :=
  { d with inodes := d.inodes.modify ino fun i => { i with data := f i.data } }

/-- A new inode at a path. -/
def make (d : Disk) (p : Path) (dir : Bool) : Disk :=
  { d with inodes := d.inodes ++ [⟨dir, []⟩], names := (p, d.inodes.length) :: d.names }

/-- A descriptor for an inode. -/
def describe (d : Disk) (ino : ℕ) : Except ℕ Fd × Disk :=
  (.ok d.fds.length, { d with fds := d.fds ++ [ino] })

/-- Work on the inode of a descriptor. -/
def ofFd {A : Type} (d : Disk) (fd : Fd) (f : ℕ → Except ℕ A × Disk) : Except ℕ A × Disk :=
  match d.fds[fd]? with
  | none => (.error Errno.ebadf, d)
  | some ino => f ino

/-- Open a path; a missing file is created if the flags say so. -/
def openFile (d : Disk) (p : Path) (flags : OpenFlags) : Except ℕ Fd × Disk :=
  match d.at_ p with
  | some ino => (if flags.trunc then d.store ino fun _ => [] else d).describe ino
  | none =>
    if flags.creat then (d.make p false).describe d.inodes.length else (.error Errno.enoent, d)

/-- Move an entry, and everything below it, over what is at the new path. -/
def move (d : Disk) (src dst : Path) : Except ℕ Unit × Disk :=
  match d.at_ src with
  | none => (.error Errno.enoent, d)
  | some _ =>
    (.ok (), { d with
      names := (d.names.filter fun e => e.1 ≠ dst).map fun e =>
        if src <+: e.1 then (dst ++ e.1.drop src.length, e.2) else e })

/-- Remove the entry of a path. -/
def remove (d : Disk) (p : Path) : Except ℕ Unit × Disk :=
  match d.at_ p with
  | none => (.error Errno.enoent, d)
  | some _ => (.ok (), { d with names := d.names.filter fun e => e.1 ≠ p })

end Disk

def os : Os Disk where
  urandom n d := (leBytes n (d.draws + 1), { d with draws := d.draws + 1 })
  now d := ((0, 0), d)
  stat p d := (((d.at_ p).map d.meta_).getD (.error Errno.enoent), d)
  fstat fd d := d.ofFd fd fun ino => (d.meta_ ino, d)
  openFile p flags _ d := d.openFile p flags
  clearNonblock _ d := (.ok (), d)
  close _ d := d
  dup fd d := d.ofFd fd d.describe
  fadviseSequential _ d := d
  mkdir p _ d := (.ok (), d.make p true)
  pread fd len off d := d.ofFd fd fun ino =>
    (.ok ((((d.inodes[ino]?.map Inode.data).getD []).drop off.toNat).take len), d)
  pwrite fd b off d := d.ofFd fd fun ino =>
    (.ok b.length, d.store ino fun data =>
      patch (data ++ zeros (off.toNat - data.length)) off.toNat b)
  ftruncate fd len d := d.ofFd fd fun ino =>
    (.ok (), d.store ino fun data => data.take len.toNat ++ zeros (len.toNat - data.length))
  fsync _ d := (.ok (), d)
  futimens _ _ _ d := (.ok (), d)
  rename src dst d := d.move src dst
  renameNoreplace src dst d :=
    if (d.at_ dst).isSome then (.error Errno.eexist, d) else d.move src dst
  removeFile p d := d.remove p
  removeDir p d := d.remove p
  readDir _ d := (.ok [], d)
  fstatvfs _ d := (.error Errno.eio, d)
  ofdSetLock fd kind start len d := (.ok (), { d with locks := (fd, kind, start, len) :: d.locks })
  inotifyInit d := (.ok 0, d)
  inotifyAddWatch _ _ d := (.ok 1, d)
  inotifyRmWatch _ _ d := d

/-- A GSS library that accepts every token of the user `u` at once. -/
def gss : Gss Disk where
  acceptor _ d := (.ok 1, d)
  step _ _ _ d :=
    ((.done { client := ['u'], sessionKey := zeros 16, pac := none, out := [] }, 0), d)

def env : Env Disk :=
  { crypto, os, gss, toLowercase := id, toUppercase := id
    fromUtf8Lossy := fun b => b.map fun c => Char.ofNat c.toNat, ntlm := true, kerberos := true }

/-- The one share, `s`, at the root of the disk. -/
def share (readOnly : Bool) : ShareCfg :=
  { name := ['s'], path := [], readOnly, validUsers := [], invalidUsers := []
    readOnlyUsers := [] }

def cfg (encrypt readOnly : Bool) : Config :=
  { listen := [], healthListen := none, serverName := ['h'], requireSigning := none
    multichannel := true, encrypt, preferAes256 := false, oplocks := true, auth := .both
    kerberos := none, shares := [share readOnly], users := [], groups := [] }

/-- The server: guests are let in, and every Kerberos client is the user `u`. -/
def srv (encrypt readOnly : Bool) : Srv Disk :=
  { cfg := cfg encrypt readOnly, guid := zeros 16, maxRead := 65536, startFt := 0
    users := ∅, allowGuest := true, interfaces := [], env }

/-- The same server, where every request has to be signed. -/
def signingSrv : Srv Disk :=
  { srv false false with cfg := { cfg false false with requireSigning := some true } }

/-- The same server with one user, `u`, and no guests. -/
def userSrv : Srv Disk :=
  { srv false false with
    users := AList.insert ['u'] (zeros 16) ∅, allowGuest := false
    env := { env with toLowercase := fun s => s.map asciiLower } }

/-! ### Frames -/

/-- A request: command, flags, NextCommand, MessageId, tree and session, signature and body. -/
def request (cmd : UInt16) (flags next : UInt32) (mid : UInt64) (tree : UInt32) (sid : UInt64)
    (body : Bytes) : Bytes :=
  protoId ++ p16 64 ++ p16 1 ++ p32 0 ++ p16 cmd ++ p16 1 ++ p32 flags ++ p32 next ++ p64 mid ++
    p32 0 ++ p32 tree ++ p64 sid ++ zeros 16 ++ body

/-- NEGOTIATE for SMB 3.1.1 with AES-128-GCM. -/
def negotiateReq (flags next : UInt32) (mid sid : UInt64) : Bytes :=
  request cmdNegotiate flags next mid 0 sid
    (p16 36 ++ p16 1 ++ p16 1 ++ p16 0 ++ p32 0 ++ zeros 16 ++ p32 104 ++ p16 2 ++ p16 0 ++
      p16 0x0311 ++ zeros 2 ++
      (p16 1 ++ p16 6 ++ p32 0 ++ p16 1 ++ p16 0 ++ p16 1 ++ zeros 2) ++
      (p16 2 ++ p16 4 ++ p32 0 ++ p16 1 ++ p16 2))

/-- SESSION_SETUP with a security blob. -/
def setupReq (next : UInt32) (mid sid : UInt64) (blob : Bytes) : Bytes :=
  request cmdSessionSetup 0 next mid 0 sid
    (p16 25 ++ p8 0 ++ p8 0 ++ p32 0 ++ p32 0 ++ p16 88 ++ p16 (UInt16.ofNat blob.length) ++
      p64 0 ++ blob)

/-- A Kerberos token. -/
def krbBlob : Bytes := Spnego.der 0x60 (Spnego.derOid Spnego.oidKrb5)

/-- The first NTLM message. -/
def ntlmHello : Bytes := Spnego.ntlmSig ++ p32 1

/-- The answer to an NTLM challenge under some name of one character. -/
def ntlmAnswerAs (name : Str) (challenge : Bytes) : Bytes :=
  let user := utf16le name
  let response := crypto.hmacMd5 [] (challenge ++ zeros 28) ++ zeros 28
  let field (b : Bytes) (off : UInt32) : Bytes :=
    p16 (UInt16.ofNat b.length) ++ p16 (UInt16.ofNat b.length) ++ p32 off
  Spnego.ntlmSig ++ p32 3 ++ field [] 0 ++ field response 66 ++ field [] 0 ++ field user 64 ++
    field [] 0 ++ field [] 0 ++ p32 0 ++ user ++ response

/-- The answer of the user `u`. -/
def ntlmAnswer : Bytes → Bytes := ntlmAnswerAs ['u']

def echoReq (flags next : UInt32) (mid sid : UInt64) : Bytes :=
  request cmdEcho flags next mid 0 sid (p16 4 ++ p16 0)

/-- CANCEL of the request with MessageId `mid`. -/
def cancelReq (flags : UInt32) (mid sid : UInt64) : Bytes :=
  request cmdCancel flags 0 mid 0 sid (p16 4 ++ p16 0)

/-- TREE_CONNECT to the share `s`. -/
def treeReq (flags next : UInt32) (mid sid : UInt64) : Bytes :=
  request cmdTreeConnect flags next mid 0 sid
    (p16 9 ++ p16 0 ++ p16 72 ++ p16 2 ++ utf16le ['s'])

def logoffReq (flags next : UInt32) (mid sid : UInt64) : Bytes :=
  request cmdLogoff flags next mid 0 sid (p16 4 ++ p16 0)

/-- The `RqLs` context of a CREATE. -/
def leaseCtx (key : Bytes) (state : UInt32) : Bytes :=
  p32 0 ++ p16 16 ++ p16 4 ++ p16 0 ++ p16 24 ++ p32 32 ++ ctxNameRqls ++ zeros 4 ++ key ++
    p32 state ++ p32 0 ++ p64 0

/-- CREATE: DesiredAccess, disposition, options, name and contexts. -/
def createReq (flags next : UInt32) (mid : UInt64) (tree : UInt32) (sid : UInt64)
    (desired disposition options : UInt32) (name : Str) (ctx : Bytes) : Bytes :=
  let name16 := utf16le name
  request cmdCreate flags next mid tree sid
    (p16 57 ++ zeros 22 ++ p32 desired ++ p32 0 ++ p32 0 ++ p32 disposition ++ p32 options ++
      p16 120 ++ p16 (UInt16.ofNat name16.length) ++ p32 (UInt32.ofNat (120 + name16.length)) ++
      p32 (UInt32.ofNat ctx.length) ++ name16 ++ ctx)

/-- The FileId that means the handle of the previous member. -/
def previousFid : UInt64 := 0xFFFFFFFFFFFFFFFF

/-- WRITE at an offset of a handle. -/
def writeReq (flags next : UInt32) (mid : UInt64) (tree : UInt32) (sid fid offset : UInt64)
    (data : Bytes) : Bytes :=
  request cmdWrite flags next mid tree sid
    (p16 49 ++ p16 112 ++ p32 (UInt32.ofNat data.length) ++ p64 offset ++ putFid fid ++ zeros 16 ++
      data)

/-- CHANGE_NOTIFY on a handle. -/
def notifyReq (flags : UInt32) (mid : UInt64) (tree : UInt32) (sid fid : UInt64) : Bytes :=
  request cmdChangeNotify flags 0 mid tree sid
    (p16 32 ++ p16 0 ++ p32 1024 ++ putFid fid ++ p32 1 ++ p32 0)

/-- A compound of two requests and a third one; each of the first two takes 128 bytes. -/
def three (a b c : Bytes) : Bytes :=
  a ++ zeros (128 - a.length) ++ (b ++ zeros (128 - b.length)) ++ c

/-- What inotify reports: a file `f` was created in the watched directory. -/
def createdEvent : Bytes := p32 1 ++ p32 inCreate ++ p32 0 ++ p32 1 ++ [0x66]

/-- The frame with a signature; the key of a checksum does not matter. -/
def signed (frame : Bytes) : Bytes := signInPlace crypto frame 0 frame.length ⟨.aesCmac, []⟩

/-- A transform frame of session `sid`. -/
def sealed (sid : UInt64) (plain : Bytes) : Bytes :=
  (sealedFrame crypto plain ⟨cipherAes128Gcm, [], [], 0⟩ 1 sid).drop 4

/-- The connection of all runs. -/
def conn : ConnId := (0, 0)

/-- A client connects, negotiates SMB 3.1.1 and logs in with Kerberos; the first draw is the salt
of the NEGOTIATE response, so its session is number 2. -/
def logIn : List Event :=
  [.accept conn, .frame conn (negotiateReq 0 0 0 0), .frame conn (setupReq 0 1 0 krbBlob)]

/-- A client connects, negotiates SMB 3.1.1 and asks for an NTLM challenge; its session is number 2,
and the challenge is the third draw. -/
def askChallenge : List Event :=
  [.accept conn, .frame conn (negotiateReq 0 0 0 0), .frame conn (setupReq 0 1 0 ntlmHello)]

/-- The id of the first handle of a session. -/
def firstFid : UInt64 := 0x100000000

/-- The client has connected to the share. -/
def connected : List Event := logIn ++ [.frame conn (treeReq 0 0 2 2)]

/-- The world of the connected client. -/
def atShare : World Disk := (World.start 1 {}).run (srv false false) connected

/-- The client, whose session encrypts, waits for changes of the root directory. -/
def watching : List Event :=
  logIn ++ [.frame conn (sealed 2 (treeReq 0 0 2 2)),
    .frame conn (sealed 2 (createReq 0 0 3 1 2 1 fileOpen fileDirectoryFile [] [])),
    .frame conn (sealed 2 (notifyReq 0 4 1 2 firstFid))]

/-- The protocol state of the connection after the events `es`. -/
def protoAfter (srv : Srv Disk) (es : List Event) : Option ProtoConn :=
  (((World.start 1 {}).run srv es).conns.lookup conn).map Conn.proto

end Sample

end RocketSmbd
