import RocketSmbd.Smb2.Query

/-!
# SET_INFO (`smb2/handlers.rs`)

Each information class is a handler that makes its change and returns the files whose leases have
to be broken for it.
-/

namespace RocketSmbd

open ByteString Vfs

variable {σ : Type}

structure SetInfoReq where
  infoType : UInt8
  infoClass : UInt8
  fid : UInt64
  data : Bytes

def setInfoFields (msg : Bytes) (chain : Chain) : Rdr SetInfoReq := do
  Rdr.structureSize 33
  let infoType ← Rdr.u8
  let infoClass ← Rdr.u8
  let bufLen ← Rdr.u32
  let bufOff ← Rdr.u16
  Rdr.skip (2 + 4)
  let fid ← parseFid chain
  let data ← Rdr.get msg bufOff.toNat (bufOff.toNat + bufLen.toNat)
  pure { infoType, infoClass, fid, data }

/-! ### FileBasicInformation -/

/-- The timespec of a FILETIME; `none` is UTIME_OMIT.  The arithmetic is that of `i64`. -/
def ts (ft : UInt64) : Option (ℤ × ℤ) :=
  if ft = 0 ∨ ft = 0xFFFFFFFFFFFFFFFF then none
  else
    let unix100 := Int.bmod (Int.bmod ft.toNat (2 ^ 64) - 116444736000000000) (2 ^ 64)
    some (unix100 / 10000000, unix100 % 10000000 * 100)

/-- The access and modification times of a FileBasicInformation. -/
def basicInfoFields : Rdr (UInt64 × UInt64) := do
  let _ ← Rdr.u64
  let at' ← Rdr.u64
  let mt ← Rdr.u64
  let _ ← Rdr.u64
  let _ ← Rdr.u32
  pure (at', mt)

def setBasicInfo (os : Os σ) (of : OpenFile) (data : Bytes) : Handler σ (List LeaseFile) := do
  let (at', mt) ← Eff.need Status.invalidParameter (Rdr.parse basicInfoFields data)
  match ← Handler.trySys (os.futimens of.fd (ts at') (ts mt)) with
  | .ok _ => pure []
  | .error e => do
    -- attribute-only updates succeed as a no-op
    Eff.refuse (e ≠ Errno.eacces ∧ e ≠ Errno.eperm) (Status.fromErrno e)
    pure []

/-! ### FileDispositionInformation -/

/-- The share root is never marked, nor a directory that is not empty. -/
def setDisposition (os : Os σ) (fid : UInt64) (of : OpenFile) (own : List LeaseFile)
    (data : Bytes) : Handler σ (List LeaseFile) := do
  let flag ← Eff.need Status.invalidParameter data.head?
  Eff.refuse (flag ≠ 0 ∧ of.rel.isEmpty) Status.accessDenied
  (if flag ≠ 0 ∧ of.isDir then do
    let items ← Handler.sys (os.readDir of.path)
    Eff.refuse (¬ items.isEmpty) Status.directoryNotEmpty
  else pure ())
  Handler.setHandle fid fun of => { of with deleteOnClose := flag ≠ 0 }
  pure (if flag ≠ 0 then own else [])

/-! ### FileRenameInformation -/

def renameFields : Rdr (Bool × Str) := do
  let replace ← Rdr.u8
  Rdr.skip (7 + 8)
  let nameLen ← Rdr.u32
  let name ← Rdr.take nameLen.toNat
  pure (replace ≠ 0, fromUtf16le name)

/-- The inode of another file that a rename is about to replace. -/
def replacedFile (os : Os σ) (of : OpenFile) (newPath : Path) : Handler σ (Option UInt64) := do
  match ← Handler.trySys (statMeta os newPath) with
  | .error _ => pure none
  | .ok m =>
    if m.isDir then pure none
    else
      match ← Handler.trySys (fstatMeta os of.fd) with
      | .ok own => pure (if own.ino ≠ m.ino then some m.ino else none)
      | .error _ => pure (some m.ino)

/-- The target of a rename is occupied (`Path::exists`). -/
def pathExists (os : Os σ) (p : Path) : Handler σ Bool := do
  match ← Handler.trySys (os.stat p) with
  | .ok _ => pure true
  | .error _ => pure false

def setRename (os : Os σ) (fid : UInt64) (of : OpenFile) (own : List LeaseFile) (data : Bytes)
    (shareRoot : Path) : Handler σ (List LeaseFile) := do
  let (replace, name) ← Eff.need Status.invalidParameter (Rdr.parse renameFields data)
  let (newPath, newRel) ← Eff.ofExcept (resolve shareRoot name)
  Eff.refuse (of.rel.isEmpty ∨ newRel.isEmpty) Status.accessDenied
  let occupied ← (if replace then pure false else pathExists os newPath)
  Eff.refuse occupied Status.objectNameCollision
  let replaced ← replacedFile os of newPath
  match ← Handler.trySys
      (if replace then os.rename of.path newPath else renameNoreplace os of.path newPath) with
  | .ok _ => do
    Handler.setHandle fid fun of =>
      { of with leaf := leafOf newRel, path := newPath, rel := newRel }
    pure (own ++ (replaced.map fun ino => (of.shareIdx, ino)).toList)
  | .error e =>
    Eff.fail (if e = Errno.eexist then Status.objectNameCollision else Status.fromErrno e)

/-! ### SET_INFO -/

/-- FileEndOfFileInformation: truncate or extend. -/
def setEndOfFile (os : Os σ) (of : OpenFile) (own : List LeaseFile) (data : Bytes) :
    Handler σ (List LeaseFile) := do
  let len ← Eff.need Status.invalidParameter (Rdr.parse Rdr.u64 data)
  Handler.sys (os.ftruncate of.fd len)
  pure own

/-- The change of each information class; FileAllocationInformation (19) is a no-op. -/
def setInfoClass (os : Os σ) (r : SetInfoReq) (of : OpenFile) (own : List LeaseFile)
    (shareRoot : Path) : Handler σ (List LeaseFile) :=
  match r.infoClass.toNat with
  | 4 => setBasicInfo os of r.data
  | 13 => setDisposition os r.fid of own r.data
  | 10 => setRename os r.fid of own r.data shareRoot
  | 19 => pure []
  | 20 => setEndOfFile os of own r.data
  | _ => Eff.fail Status.notSupported

def setInfo (srv : Srv σ) (msg : Bytes) (share : ShareCfg) (readOnly : Bool) : Handler σ Body := do
  let s ← Eff.read
  let r ← Eff.need Status.invalidParameter (Rdr.parse (setInfoFields msg s.chain) (msg.drop 64))
  Eff.refuse (r.infoType ≠ infoFile) Status.notSupported
  Eff.refuse readOnly Status.accessDenied
  let of ← Handler.getHandle r.fid
  let own ← (do
    match ← Handler.trySys (fstatMeta srv.env.os of.fd) with
    | .ok m => pure (if m.isDir then [] else [(of.shareIdx, m.ino)])
    | .error _ => pure [])
  let broken ← setInfoClass srv.env.os r of own share.path
  Handler.onHost (Eff.update fun host =>
    broken.foldl (fun host key => breakLeases key of.leaseKey host) host)
  pure (Status.success, p16 2)

end RocketSmbd
