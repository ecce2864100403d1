import RocketSmbd.Smb2.Tree

/-!
# QUERY_DIRECTORY and QUERY_INFO (`smb2/handlers.rs`)
-/

namespace RocketSmbd

open ByteString Vfs

variable {σ : Type}

/-! ### QUERY_DIRECTORY -/

def qdRestartScans : UInt8 := 0x01
def qdReturnSingle : UInt8 := 0x02
def qdReopen : UInt8 := 0x10

def fileDirectoryInformation : UInt8 := 1
def fileFullDirectoryInformation : UInt8 := 2
def fileBothDirectoryInformation : UInt8 := 3
def fileNamesInformation : UInt8 := 12
def fileIdBothDirectoryInformation : UInt8 := 37
def fileIdFullDirectoryInformation : UInt8 := 38

structure QueryDirReq where
  infoClass : UInt8
  flags : UInt8
  fid : UInt64
  outLen : UInt32
  pattern : Str

def queryDirFields (msg : Bytes) (chain : Chain) : Rdr QueryDirReq := do
  Rdr.structureSize 33
  let infoClass ← Rdr.u8
  let flags ← Rdr.u8
  let _ ← Rdr.u32
  let fid ← parseFid chain
  let nameOff ← Rdr.u16
  let nameLen ← Rdr.u16
  let outLen ← Rdr.u32
  let pattern ← (if nameLen = 0 then pure []
    else fromUtf16le <$> Rdr.get msg nameOff.toNat (nameOff.toNat + nameLen.toNat))
  pure { infoClass, flags, fid, outLen, pattern }

/-- The part of a directory entry that its information class adds before the name. -/
def dirEntryExtra (infoClass : UInt8) (m : Meta) : Option Bytes :=
  if infoClass = fileDirectoryInformation then some []
  else if infoClass = fileFullDirectoryInformation then some (p32 0)
  else if infoClass = fileBothDirectoryInformation then some (p32 0 ++ p8 0 ++ p8 0 ++ zeros 24)
  else if infoClass = fileIdBothDirectoryInformation then
    some (p32 0 ++ p8 0 ++ p8 0 ++ zeros 24 ++ p16 0 ++ p64 m.ino)
  else if infoClass = fileIdFullDirectoryInformation then some (p32 0 ++ p32 0 ++ p64 m.ino)
  else none

/-- One directory entry; NextEntryOffset is left zero.  `none` for an unknown class. -/
def putDirEntry (infoClass : UInt8) (e : DirEnt) : Option Bytes :=
  let name := utf16le e.name
  let m := e.info
  if infoClass = fileNamesInformation then
    some (p32 0 ++ p32 0 ++ p32 (UInt32.ofNat name.length) ++ name)
  else
    (dirEntryExtra infoClass m).map fun extra =>
      p32 0 ++ p32 0 ++ p64 m.crtime ++ p64 m.atime ++ p64 m.mtime ++ p64 m.ctime ++ p64 m.size ++
        p64 m.alloc ++ p32 m.attrs ++ p32 (UInt32.ofNat name.length) ++ extra ++ name

/-- An entry padded to 8 bytes, with the offset of the next one. -/
def alignEntry (entry : Bytes) : Bytes :=
  let entry := entry ++ zeros ((8 - entry.length % 8) % 8)
  patch32 entry 0 (UInt32.ofNat entry.length)

/-- What the listing loop has so far. -/
structure Listing where
  data : Bytes := []
  lastEntryStart : ℕ := 0
  emitted : ℕ := 0

/-- Emit entries while they fit.  `none` for an unknown information class. -/
def listEntries (infoClass : UInt8) (single : Bool) (outLen : ℕ) :
    List DirEnt → Listing → Option Listing
  | [], l => some l
  | e :: es, l =>
    match putDirEntry infoClass e with
    | none => none
    | some entry =>
      let entry := alignEntry entry
      if outLen < l.data.length + entry.length then some l
      else
        let l : Listing := ⟨l.data ++ entry, l.data.length, l.emitted + 1⟩
        if single then some l else listEntries infoClass single outLen es l

/-- The snapshot a QUERY_DIRECTORY works on: a new one at the start, on a restart and when the
pattern changes. -/
def dirState (srv : Srv σ) (r : QueryDirReq) (of : OpenFile) : Handler σ DirState := do
  let restart := r.flags &&& (qdRestartScans ||| qdReopen) ≠ 0
  let kept := of.dir.filter fun d => ¬ restart ∧ d.pattern = r.pattern
  match kept with
  | some d => pure d
  | none => do
    let entries ← Handler.sys (dirSnapshot srv.env.os srv.env.toLowercase of r.pattern)
    let d : DirState := { entries, pos := 0, pattern := r.pattern }
    Handler.setHandle r.fid fun of => { of with dir := some d }
    pure d

def queryDirectory (srv : Srv σ) (msg : Bytes) : Handler σ Body := do
  let s ← Eff.read
  let r ← Eff.need Status.invalidParameter (Rdr.parse (queryDirFields msg s.chain) (msg.drop 64))
  let of ← Handler.getHandle r.fid
  Eff.refuse (¬ of.isDir) Status.invalidParameter
  let d ← dirState srv r of
  Eff.refuse (d.entries.length ≤ d.pos)
    (if d.entries.isEmpty then Status.noSuchFile else Status.noMoreFiles)
  let outLen := (min r.outLen maxTransact).toNat
  let l ← Eff.need Status.invalidParameter
    (listEntries r.infoClass (r.flags &&& qdReturnSingle ≠ 0) outLen (d.entries.drop d.pos) {})
  Handler.setHandle r.fid fun of =>
    { of with dir := some { d with pos := d.pos + l.emitted } }
  -- the first entry alone does not fit the client's buffer
  Eff.refuse (l.emitted = 0) Status.bufferTooSmall
  let data := patch32 l.data l.lastEntryStart 0
  pure (Status.success, p16 9 ++ p16 72 ++ p32 (UInt32.ofNat data.length) ++ data)

/-! ### QUERY_INFO -/

def infoFile : UInt8 := 1
def infoFilesystem : UInt8 := 2
def infoSecurity : UInt8 := 3

structure QueryInfoReq where
  infoType : UInt8
  infoClass : UInt8
  outLen : UInt32
  fid : UInt64

def queryInfoFields (chain : Chain) : Rdr QueryInfoReq := do
  Rdr.structureSize 41
  let infoType ← Rdr.u8
  let infoClass ← Rdr.u8
  let outLen ← Rdr.u32
  Rdr.skip (2 + 2 + 4 + 4 + 4)
  let fid ← parseFid chain
  pure { infoType, infoClass, outLen, fid }

def putBasicInfo (m : Meta) (attrs : UInt32) : Bytes :=
  p64 m.crtime ++ p64 m.atime ++ p64 m.mtime ++ p64 m.ctime ++ p32 attrs ++ p32 0

def putStandardInfo (m : Meta) (deletePending : Bool) : Bytes :=
  p64 m.alloc ++ p64 m.size ++ p32 m.nlink ++ p8 (if deletePending then 1 else 0) ++
    p8 (if m.isDir then 1 else 0) ++ p16 0

/-- The share-relative name with a leading backslash, length first. -/
def putName (rel : Str) : Bytes :=
  let name := utf16le ('\\' :: rel)
  p32 (UInt32.ofNat name.length) ++ name

/-- The information classes of an open file. -/
def fileInfoData (of : OpenFile) (m : Meta) (infoClass : UInt8) : Option Bytes :=
  let attrs := finalizeAttrs m.attrs of.leaf
  match infoClass.toNat with
  | 4 => some (putBasicInfo m attrs)
  | 5 => some (putStandardInfo m of.deleteOnClose)
  | 6 => some (p64 m.ino)
  | 7 => some (p32 0)
  | 8 => some (p32 maximalAccessAll)
  | 9 => some (putName of.rel)
  | 14 => some (p64 0)
  | 16 => some (p32 0)
  | 17 => some (p32 0)
  | 18 =>
    some (putBasicInfo m attrs ++ putStandardInfo m of.deleteOnClose ++ p64 m.ino ++ p32 0 ++
      p32 maximalAccessAll ++ p64 0 ++ p32 0 ++ p32 0 ++ putName of.rel)
  | 34 =>
    some (p64 m.crtime ++ p64 m.atime ++ p64 m.mtime ++ p64 m.ctime ++ p64 m.alloc ++ p64 m.size ++
      p32 attrs ++ p32 0)
  | 35 => some (p32 attrs ++ p32 0)
  | 22 =>
    if m.isDir then some []
    else
      let name := utf16le [':', ':', '$', 'D', 'A', 'T', 'A']
      some (p32 0 ++ p32 (UInt32.ofNat name.length) ++ p64 m.size ++ p64 m.alloc ++ name)
  | _ => none

def fileInfo (os : Os σ) (of : OpenFile) (infoClass : UInt8) : Handler σ Bytes := do
  let m ← Handler.sys (fstatMeta os of.fd)
  Eff.need Status.notSupported (fileInfoData of m infoClass)

/-- A permissive self-relative SECURITY_DESCRIPTOR: owner and group BUILTIN Administrators, a
DACL granting Everyone full access. -/
def securityDescriptor : Bytes :=
  let admins : Bytes := [1, 2, 0, 0, 0, 0, 0, 5, 32, 0, 0, 0, 32, 2, 0, 0]
  let everyone : Bytes := [1, 1, 0, 0, 0, 0, 0, 1, 0, 0, 0, 0]
  p8 1 ++ p8 0 ++ p16 0x8004 ++ p32 48 ++ p32 64 ++ p32 0 ++ p32 20 ++
    p8 2 ++ p8 0 ++ p16 28 ++ p16 1 ++ p16 0 ++
    p8 0 ++ p8 0 ++ p16 20 ++ p32 0x001F01FF ++ everyone ++ admins ++ admins

def fsInfo (srv : Srv σ) (of : OpenFile) (infoClass : UInt8) : Handler σ Bytes :=
  match infoClass.toNat with
  | 1 =>
    let label := utf16le ((srv.cfg.shares[of.shareIdx.toNat]?.map ShareCfg.name).getD [])
    pure (p64 srv.startFt ++ p32 0x524B54 ++ p32 (UInt32.ofNat label.length) ++ p8 0 ++ p8 0 ++
      label)
  | 3 => do
    let f ← Handler.sys (fsSizes srv.env.os of.fd)
    pure (p64 f.total ++ p64 f.avail ++ p32 f.sectorsPerUnit ++ p32 f.bytesPerSector)
  | 4 => pure (p32 7 ++ p32 0x20)
  | 5 =>
    let name := utf16le ['N', 'T', 'F', 'S']
    pure (p32 0x47 ++ p32 255 ++ p32 (UInt32.ofNat name.length) ++ name)
  | 7 => do
    let f ← Handler.sys (fsSizes srv.env.os of.fd)
    pure (p64 f.total ++ p64 f.avail ++ p64 f.free ++ p32 f.sectorsPerUnit ++ p32 f.bytesPerSector)
  | _ => Eff.fail Status.notSupported

def queryInfo (srv : Srv σ) (body : Bytes) : Handler σ Body := do
  let s ← Eff.read
  let r ← Eff.need Status.invalidParameter (Rdr.parse (queryInfoFields s.chain) body)
  let of ← Handler.getHandle r.fid
  let data ←
    (if r.infoType = infoFile then fileInfo srv.env.os of r.infoClass
    else if r.infoType = infoFilesystem then fsInfo srv of r.infoClass
    else if r.infoType = infoSecurity then pure securityDescriptor
    else Eff.fail Status.notSupported)
  let st := if r.outLen.toNat < data.length then Status.bufferOverflow else Status.success
  let data := data.take r.outLen.toNat
  pure (st, p16 9 ++ p16 72 ++ p32 (UInt32.ofNat data.length) ++ data)

end RocketSmbd
