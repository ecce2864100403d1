import RocketSmbd.Smb2.Handle

/-!
# CLOSE, FLUSH, READ, WRITE and LOCK (`smb2/handlers.rs`)
-/

namespace RocketSmbd

open ByteString Vfs

variable {σ : Type}

/-! ### CLOSE -/

def closeFields (chain : Chain) : Rdr (UInt16 × UInt64) := do
  Rdr.structureSize 24
  let flags ← Rdr.u16
  Rdr.skip 4
  let fid ← parseFid chain
  pure (flags, fid)

/-- Take the handle `fid` of the chain's tree out of the table, and complete its notifies. -/
def takeHandle (fid : UInt64) : Handler σ OpenFile := do
  let s ← Eff.read
  let (of, handles) ← Eff.need Status.fileClosed (s.sess.handles.remove fid s.chain.treeId)
  Eff.update fun s =>
    { s with sess := { s.sess with handles }, notify := notifyCleanup s.notify fid }
  pure of

/-- The post-query attributes of a CLOSE response. -/
def closeAttrs (leaf : Str) : Option Meta → Bytes
  | some m =>
    p64 m.crtime ++ p64 m.atime ++ p64 m.mtime ++ p64 m.ctime ++ p64 m.alloc ++ p64 m.size ++
      p32 (finalizeAttrs m.attrs leaf)
  | none => zeros 52

def close (srv : Srv σ) (body : Bytes) : Handler σ Body := do
  let s ← Eff.read
  let (flags, fid) ← Eff.need Status.invalidParameter (Rdr.parse (closeFields s.chain) body)
  let of ← takeHandle fid
  let postAttrib := flags &&& 0x1 ≠ 0
  let m ← (if postAttrib then do
      let r ← Handler.trySys (fstatMeta srv.env.os of.fd)
      pure (r.toOption)
    else pure none)
  let st ← Handler.onHost (Eff.total (finishClose srv.env.os of))
  Handler.act (srv.env.os.close of.fd)
  Eff.refuse (st ≠ Status.success) st
  pure (Status.success,
    p16 60 ++ p16 (if postAttrib then 1 else 0) ++ p32 0 ++ closeAttrs of.leaf m)

/-! ### FLUSH -/

def flushFields (chain : Chain) : Rdr UInt64 := do
  Rdr.structureSize 24
  Rdr.skip (2 + 4)
  parseFid chain

def flush (srv : Srv σ) (body : Bytes) : Handler σ Body := do
  let s ← Eff.read
  let fid ← Eff.need Status.invalidParameter (Rdr.parse (flushFields s.chain) body)
  let of ← Handler.getHandle fid
  Handler.sys (srv.env.os.fsync of.fd)
  pure (Status.success, p16 4 ++ p16 0)

/-! ### READ -/

structure ReadReq where
  length : UInt32
  offset : UInt64
  fid : UInt64
  minCount : UInt32

def readFields (chain : Chain) : Rdr ReadReq := do
  Rdr.structureSize 49
  Rdr.skip (1 + 1)
  let length ← Rdr.u32
  let offset ← Rdr.u64
  let fid ← parseFid chain
  let minCount ← Rdr.u32
  pure { length, offset, fid, minCount }

/-- A signed or encrypted response covers the payload, which rules out splicing. -/
def mustSign (channels : FinMap UInt64 ChannelState) (sid : UInt64) (h : ReqHdr) : Bool :=
  (channels.lookup sid).any fun c =>
    c.encrypt ∨ (c.sign.isSome ∧ (c.signingRequired ∨ h.has flagSigned))

/-- The answer to a READ: a plan for the reactor, or a response body. -/
inductive ReadOut
  | plan (p : ZcReadPlan)
  | body (b : Body)

/-- The buffered path: read, and close the duplicated descriptor. -/
def readBuffered (os : Os σ) (fd : Fd) (length : UInt32) (offset : UInt64) (minCount : UInt32) :
    Handler σ Body := do
  let res ← Handler.trySys (os.pread fd length.toNat offset)
  Handler.act (os.close fd)
  match res with
  | .ok data => do
    Eff.refuse (data.length = 0 ∧ 0 < length) Status.endOfFile
    Eff.refuse (UInt32.ofNat data.length < minCount) Status.endOfFile
    pure (Status.success,
      p16 17 ++ p8 80 ++ p8 0 ++ p32 (UInt32.ofNat data.length) ++ p32 0 ++ p32 0 ++ data)
  | .error e => Eff.fail (Status.fromErrno e)

def read (srv : Srv σ) (maxRead : UInt32) (channels : FinMap UInt64 ChannelState) (h : ReqHdr)
    (body : Bytes) : Handler σ ReadOut := do
  let s ← Eff.read
  let r ← Eff.need Status.invalidParameter (Rdr.parse (readFields s.chain) body)
  let of ← Handler.getHandle r.fid
  Eff.refuse of.isDir Status.invalidDeviceRequest
  let dup ← (do
    match ← Handler.trySys (srv.env.os.dup of.fd) with
    | .ok fd => pure fd
    | .error _ => Eff.fail Status.insufficientResources)
  let length := min r.length maxRead
  if s.chain.single ∧ zcMinRead ≤ length ∧ ¬ mustSign channels s.chain.sessionId h then do
    -- a full read can never hit EOF, so the reactor may link its operations
    let m ← Handler.trySys (fstatMeta srv.env.os dup)
    let linked : Bool := match m with
      | .ok m => min (r.offset.toNat + length.toNat) (2 ^ 64 - 1) ≤ m.size.toNat
      | .error _ => false
    pure (.plan
      { fd := dup, offset := r.offset, length, minCount := r.minCount, msgId := h.msgId
        creditCharge := h.creditCharge, credits := h.credits, treeId := s.chain.treeId
        sessionId := s.chain.sessionId, linked })
  else ReadOut.body <$> readBuffered srv.env.os dup length r.offset r.minCount

/-! ### WRITE -/

structure WriteReq where
  data : Bytes
  offset : UInt64
  fid : UInt64

def writeFields (msg : Bytes) (chain : Chain) : Rdr WriteReq := do
  Rdr.structureSize 49
  let dataOff ← Rdr.u16
  let length ← Rdr.u32
  let offset ← Rdr.u64
  let fid ← parseFid chain
  let data ← Rdr.get msg dataOff.toNat (dataOff.toNat + length.toNat)
  pure { data, offset, fid }

/-- Leases of other clients are broken after the data is written. -/
def write (srv : Srv σ) (msg : Bytes) (tree : Tree) : Handler σ Body := do
  let s ← Eff.read
  let r ← Eff.need Status.invalidParameter (Rdr.parse (writeFields msg s.chain) (msg.drop 64))
  Eff.refuse tree.readOnly Status.accessDenied
  let of ← Handler.getHandle r.fid
  Eff.refuse (¬ of.writable) Status.accessDenied
  let m ← Handler.trySys (fstatMeta srv.env.os of.fd)
  Handler.sys (pwriteAll srv.env.os of.fd r.data r.offset)
  (match m with
    | .ok m => Handler.onHost (Eff.update (breakLeases (tree.shareIdx, m.ino) of.leaseKey))
    | .error _ => pure ())
  pure (Status.success,
    p16 17 ++ p16 0 ++ p32 (UInt32.ofNat r.data.length) ++ p32 0 ++ p16 0 ++ p16 0)

/-! ### LOCK -/

def lockflagShared : UInt32 := 0x1
def lockflagExclusive : UInt32 := 0x2
def lockflagUnlock : UInt32 := 0x4

structure LockElem where
  off : UInt64
  len : UInt64
  flags : UInt32

def lockElem : Rdr LockElem := do
  let off ← Rdr.u64
  let len ← Rdr.u64
  let flags ← Rdr.u32
  Rdr.skip 4
  pure { off, len, flags }

def lockFields (chain : Chain) : Rdr (UInt64 × List LockElem) := do
  Rdr.structureSize 48
  let count ← Rdr.u16
  Rdr.skip 4
  let fid ← parseFid chain
  if count = 0 ∨ 64 < count then Rdr.fail
  else
    let elems ← Rdr.many lockElem count.toNat
    pure (fid, elems)

/-- The operation of a lock element; `none` if it has no flag. -/
def LockElem.kind (e : LockElem) : Option LockKind :=
  if e.flags &&& lockflagUnlock ≠ 0 then some .unlock
  else if e.flags &&& lockflagExclusive ≠ 0 then some .exclusive
  else if e.flags &&& lockflagShared ≠ 0 then some .shared
  else none

/-- Apply the elements in order until one fails: its status, and the locks taken, last first. -/
def lockLoop (os : Os σ) (fd : Fd) :
    List LockElem → List (UInt64 × UInt64) → Handler σ (UInt32 × List (UInt64 × UInt64))
  | [], applied => pure (Status.success, applied)
  | e :: elems, applied =>
    match e.kind with
    | none => pure (Status.invalidParameter, applied)
    | some kind => do
      match ← Handler.trySys (rangeLock os fd e.off e.len kind) with
      | .ok _ =>
        lockLoop os fd elems (if kind = .unlock then applied else (e.off, e.len) :: applied)
      | .error err =>
        pure (if err = Errno.eagain ∨ err = Errno.eacces then Status.lockNotGranted
          else Status.fromErrno err, applied)

/-- Release the locks taken by a request that failed. -/
def unlockAll (os : Os σ) (fd : Fd) : List (UInt64 × UInt64) → Handler σ Unit
  | [] => pure ()
  | (off, len) :: more => do
    Eff.ignore (Handler.trySys (rangeLock os fd off len .unlock) : Handler σ (Except ℕ Unit))
    unlockAll os fd more

def lock (srv : Srv σ) (body : Bytes) : Handler σ Body := do
  let s ← Eff.read
  let (fid, elems) ← Eff.need Status.invalidParameter (Rdr.parse (lockFields s.chain) body)
  let of ← Handler.getHandle fid
  Eff.refuse of.isDir Status.invalidParameter
  let (st, applied) ← lockLoop srv.env.os of.fd elems []
  if st ≠ Status.success then do
    unlockAll srv.env.os of.fd applied
    Eff.fail st
  else pure (Status.success, p16 4 ++ p16 0)

end RocketSmbd
