import RocketSmbd.Smb2.Handle

/-!
# CREATE (`smb2/handlers.rs`)

The request parser with the walk over the create contexts for a lease request, the access and
disposition checks, the open itself, and the lease grant.
-/

namespace RocketSmbd

open ByteString Vfs

variable {σ : Type}

/-! ### Constants -/

def fileWriteData : UInt32 := 0x00000002
def fileAppendData : UInt32 := 0x00000004
def maximumAllowed : UInt32 := 0x02000000
def genericAll : UInt32 := 0x10000000
def genericWrite : UInt32 := 0x40000000
def writeBits : UInt32 := fileWriteData ||| fileAppendData ||| genericWrite ||| genericAll
/-- Access a read-only tree refuses at CREATE: writing data, plus DELETE, FILE_WRITE_EA,
FILE_WRITE_ATTRIBUTES, WRITE_DAC and WRITE_OWNER. -/
def readOnlyDenied : UInt32 :=
  writeBits ||| 0x00010000 ||| 0x10 ||| 0x100 ||| 0x00040000 ||| 0x00080000

def fileSupersede : UInt32 := 0
def fileOpen : UInt32 := 1
def fileCreate : UInt32 := 2
def fileOpenIf : UInt32 := 3
def fileOverwrite : UInt32 := 4
def fileOverwriteIf : UInt32 := 5

def fileDirectoryFile : UInt32 := 0x0001
def fileNonDirectoryFile : UInt32 := 0x0040
def fileDeleteOnClose : UInt32 := 0x1000

def createActionOpened : UInt32 := 1
def createActionCreated : UInt32 := 2
def createActionOverwritten : UInt32 := 3

/-! ### The request -/

/-- A lease request from the `RqLs` create context (32 bytes of data in v1, 52 in v2). -/
structure LeaseReq where
  key : Bytes
  state : UInt32
  v2 : Bool
  parent : Bytes
  epoch : UInt16

structure CreateReq where
  desired : UInt32
  disposition : UInt32
  options : UInt32
  name : Str
  lease : Option LeaseReq

namespace CreateReq

def wantsWrite (r : CreateReq) : Bool := r.desired &&& writeBits ≠ 0

def creates (r : CreateReq) : Bool :=
  r.disposition = fileSupersede ∨ r.disposition = fileCreate ∨ r.disposition = fileOverwrite ∨
    r.disposition = fileOverwriteIf

def deleteOnClose (r : CreateReq) : Bool := r.options &&& fileDeleteOnClose ≠ 0

def dirRequested (r : CreateReq) : Bool := r.options &&& fileDirectoryFile ≠ 0

def nonDirectory (r : CreateReq) : Bool := r.options &&& fileNonDirectoryFile ≠ 0

end CreateReq

/-- The lease request in the data of an `RqLs` context. -/
def leaseData (data : Bytes) : LeaseReq :=
  let v2 : Bool := 52 ≤ data.length
  { key := data.extract 0 16
    state := UInt32.ofNat (leNat (data.extract 16 20))
    v2
    parent := if v2 then data.extract 32 48 else zeros 16
    epoch := if v2 then UInt16.ofNat (leNat (data.extract 48 50)) else 0 }

/-- Walk the chained create contexts; each step drops at least one byte. -/
def leaseCtxWalk : ℕ → Bytes → Option LeaseReq
  | 0, _ => none
  | fuel + 1, buf =>
    if buf.length < 16 then none
    else
      let next := leNat (buf.extract 0 4)
      let nameOff := leNat (buf.extract 4 6)
      let nameLen := leNat (buf.extract 6 8)
      let dataOff := leNat (buf.extract 10 12)
      let dataLen := leNat (buf.extract 12 16)
      let found :=
        if nameLen = 4 then
          match slice buf nameOff (nameOff + 4), slice buf dataOff (dataOff + dataLen) with
          | some nm, some data =>
            if nm = ctxNameRqls ∧ 32 ≤ data.length then some (leaseData data) else none
          | _, _ => none
        else none
      match found with
      | some l => some l
      | none =>
        if next = 0 ∨ buf.length ≤ next then none else leaseCtxWalk fuel (buf.drop next)

/-- The `RqLs` lease request of a create-context list, if one is present. -/
def parseLeaseCtx (buf : Bytes) : Option LeaseReq := leaseCtxWalk buf.length buf

def createFields (msg : Bytes) : Rdr CreateReq := do
  Rdr.structureSize 57
  Rdr.skip 1
  let _ ← Rdr.u8
  Rdr.skip (4 + 8 + 8)
  let desired ← Rdr.u32
  let _ ← Rdr.u32
  let _ ← Rdr.u32
  let disposition ← Rdr.u32
  let options ← Rdr.u32
  let nameOff ← Rdr.u16
  let nameLen ← Rdr.u16
  let ccOff ← Rdr.u32
  let ccLen ← Rdr.u32
  let name ← (if nameLen = 0 then pure []
    else fromUtf16le <$> Rdr.get msg nameOff.toNat (nameOff.toNat + nameLen.toNat))
  let lease := if 0 < ccLen then
      (slice msg ccOff.toNat (ccOff.toNat + ccLen.toNat)).bind parseLeaseCtx
    else none
  pure { desired, disposition, options, name, lease }

def parseCreate (msg : Bytes) : Option CreateReq :=
  if msg.length < 64 then none else Rdr.parse (createFields msg) (msg.drop 64)

/-! ### Opening the file -/

/-- What the open gave: the descriptor, what it is, and the CreateAction. -/
structure Opened where
  fd : Fd
  isDir : Bool
  writable : Bool
  action : UInt32

/-- Open an existing directory, or make it first. -/
def openDirectory (os : Os σ) (path : Path) (exist : Bool) : Handler σ Opened := do
  let action ← (if exist then pure createActionOpened
    else do
      Handler.sys (Vfs.mkdir os path 0o755)
      pure createActionCreated)
  let fd ← Handler.sys (openRaw os path { directory := true } 0)
  pure ⟨fd, true, false, action⟩

/-- The creation flags of a disposition. -/
def dispositionFlags (disposition : UInt32) : OpenFlags :=
  if disposition = fileCreate then { creat := true, excl := true }
  else if disposition = fileOpenIf then { creat := true }
  else if disposition = fileOverwrite then { trunc := true }
  else if disposition = fileOverwriteIf ∨ disposition = fileSupersede then
    { creat := true, trunc := true }
  else {}

/-- Open read-write when the request may write, falling back to read-only where writing was only
part of MAXIMUM_ALLOWED. -/
def openRegular (os : Os σ) (req : CreateReq) (path : Path) (readOnly exist : Bool) :
    Handler σ Opened := do
  let flags := dispositionFlags req.disposition
  let tryRw : Bool :=
    req.wantsWrite ∨ (req.desired &&& maximumAllowed ≠ 0 ∧ ¬ readOnly) ∨ req.creates
  match ← Handler.trySys (openRaw os path { flags with rdwr := tryRw } 0o644) with
  | .ok fd =>
    let action :=
      if ¬ exist then createActionCreated
      else if flags.trunc then createActionOverwritten
      else createActionOpened
    pure ⟨fd, false, tryRw, action⟩
  | .error e =>
    if e = Errno.eacces ∧ tryRw ∧ ¬ req.wantsWrite then do
      let fd ← Handler.sys (openRaw os path { flags with rdwr := false } 0)
      pure ⟨fd, false, false, createActionOpened⟩
    else Eff.fail (Status.fromErrno e)

/-- The checks of a CREATE before the target is looked at. -/
def createAllowed (req : CreateReq) (readOnly : Bool) : Handler σ Unit := do
  let s ← Eff.read
  Eff.refuse (maxOpensPerSession ≤ s.sess.handles.len) Status.insufficientResources
  Eff.refuse (readOnly ∧ (req.desired &&& readOnlyDenied ≠ 0 ∨ req.creates ∨ req.deleteOnClose))
    Status.accessDenied

/-- The checks of a CREATE against what is at the path. -/
def createMatches (req : CreateReq) (rel : Str) (readOnly exist existingDir : Bool) :
    Handler σ Unit := do
  Eff.refuse (readOnly ∧ ¬ exist ∧ req.disposition = fileOpenIf) Status.accessDenied
  Eff.refuse (req.deleteOnClose ∧ rel.isEmpty) Status.accessDenied
  Eff.refuse (exist ∧ req.disposition = fileCreate) Status.objectNameCollision
  Eff.refuse (¬ exist ∧ (req.disposition = fileOpen ∨ req.disposition = fileOverwrite))
    Status.objectNameNotFound
  Eff.refuse (existingDir ∧ req.nonDirectory) Status.fileIsADirectory
  Eff.refuse (exist ∧ ¬ existingDir ∧ req.dirRequested) Status.notADirectory

/-- Everything of a CREATE up to an open descriptor. -/
def createOpen (os : Os σ) (req : CreateReq) (path : Path) (rel : Str) (readOnly : Bool) :
    Handler σ Opened := do
  createAllowed req readOnly
  let existing ← Handler.trySys (statMeta os path)
  let exist : Bool := match existing with
    | .ok _ => true
    | .error _ => false
  let existingDir : Bool := match existing with
    | .ok m => m.isDir
    | .error _ => false
  createMatches req rel readOnly exist existingDir
  if existingDir ∨ (req.dirRequested ∧ ¬ exist) then openDirectory os path exist
  else openRegular os req path readOnly exist

/-! ### The handle and its lease -/

/-- The lease state granted to a request: read-caching, and handle-caching if asked for. -/
def grantedState (cfg : Config) (allowOplock isDir : Bool) (lease : Option LeaseReq) : UInt32 :=
  match lease with
  | some l =>
    if cfg.oplocks ∧ allowOplock ∧ ¬ isDir ∧ l.state &&& leaseReadCaching ≠ 0 then
      leaseReadCaching ||| (l.state &&& leaseHandleCaching)
    else 0
  | none => 0

/-- The lease of a request that is granted. -/
def grantedLease (cfg : Config) (allowOplock isDir : Bool) (lease : Option LeaseReq) :
    Option LeaseReq :=
  lease.filter fun l => cfg.oplocks ∧ allowOplock ∧ ¬ isDir ∧ l.state &&& leaseReadCaching ≠ 0

/-- Enter a grant in the lease table. -/
def recordGrant (key : LeaseFile) (l : LeaseReq) (state : UInt32) (sessionId : UInt64)
    (cid : ℕ × ℕ × UInt16) (host : Host σ) : Host σ :=
  { host with
    leases := LeaseTable.grant key
      { leaseKey := l.key, state, epoch := l.epoch, sessionId
        wid := cid.1, connIdx := cid.2.1, connGen := cid.2.2 } host.leases }

/-- The create contexts of the response: the granted lease, echoed. -/
def leaseReply (granted : Option LeaseReq) (state : UInt32) : Bytes :=
  match granted with
  | some l =>
    let dataLen : UInt32 := if l.v2 then 52 else 32
    p32 152 ++ p32 (24 + dataLen) ++ p32 0 ++ p16 16 ++ p16 4 ++ p16 0 ++ p16 24 ++ p32 dataLen ++
      ctxNameRqls ++ zeros 4 ++ l.key ++ p32 state ++ p32 0 ++ p64 0 ++
      (if l.v2 then l.parent ++ p16 l.epoch ++ p16 0 else [])
  | none => p32 0 ++ p32 0

/-- Insert the handle of a CREATE and grant its lease; the chain's last handle is the new one. -/
def insertHandle (of : OpenFile) (granted : Option LeaseReq) (ino : UInt64)
    (cid : ℕ × ℕ × UInt16) (s : Sx σ) : UInt64 × Sx σ :=
  let of := { of with treeId := s.chain.treeId, serial := s.host.opened }
  let (fid, handles) := s.sess.handles.insert of
  let host := { s.host with opened := s.host.opened + 1 }
  let host := match granted with
    | some l => recordGrant (of.shareIdx, ino) l of.leaseGranted s.chain.sessionId cid host
    | none => host
  (fid, { s with
    sess := { s.sess with handles }, host, chain := { s.chain with lastFid := some fid } })

def createBody (action : UInt32) (m : Meta) (attrs : UInt32) (fid : UInt64)
    (granted : Option LeaseReq) (state : UInt32) : Bytes :=
  p16 89 ++ p8 (if granted.isSome then oplockLease else oplockNone) ++ p8 0 ++ p32 action ++
    p64 m.crtime ++ p64 m.atime ++ p64 m.mtime ++ p64 m.ctime ++ p64 m.alloc ++ p64 m.size ++
    p32 attrs ++ p32 0 ++ putFid fid ++ leaseReply granted state

/-- The metadata of a fresh descriptor; if it cannot be had the descriptor is closed. -/
def openedMeta (os : Os σ) (fd : Fd) : Handler σ Meta := do
  match ← Handler.trySys (fstatMeta os fd) with
  | .ok m => pure m
  | .error e => do
    Handler.act (os.close fd)
    Eff.fail (Status.fromErrno e)

def create (srv : Srv σ) (msg : Bytes) (share : ShareCfg) (tree : Tree) (cid : ℕ × ℕ × UInt16)
    (allowOplock : Bool) : Handler σ Body := do
  let req ← Eff.need Status.invalidParameter (parseCreate msg)
  let (path, rel) ← Eff.ofExcept (resolve share.path req.name)
  let o ← createOpen srv.env.os req path rel tree.readOnly
  let m ← openedMeta srv.env.os o.fd
  (if o.isDir then pure () else Handler.act (srv.env.os.fadviseSequential o.fd))
  -- an overwrite or supersede truncated an existing file
  (if o.action = createActionOverwritten then
    Handler.onHost (Eff.update (breakLeases (tree.shareIdx, m.ino) (req.lease.map LeaseReq.key)))
  else pure ())
  let granted := grantedLease srv.cfg allowOplock o.isDir req.lease
  let state := grantedState srv.cfg allowOplock o.isDir req.lease
  let leaf := leafOf rel
  let of : OpenFile :=
    { fd := o.fd, path, rel, leaf, shareIdx := tree.shareIdx, treeId := 0, isDir := o.isDir
      writable := o.writable, deleteOnClose := req.deleteOnClose, dir := none
      oplockIno := granted.map fun _ => m.ino
      leaseKey := req.lease.map LeaseReq.key
      leaseGranted := state, serial := 0 }
  let fid ← Eff.total (insertHandle of granted m.ino cid)
  pure (Status.success, createBody o.action m (finalizeAttrs m.attrs leaf) fid granted state)

end RocketSmbd
