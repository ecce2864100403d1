import RocketSmbd.Smb2.Handle

/-!
# TREE_CONNECT and TREE_DISCONNECT (`smb2/handlers.rs`)
-/

namespace RocketSmbd

open ByteString Vfs

variable {σ : Type}

def maximalAccessAll : UInt32 := 0x001F01FF
/-- FILE_GENERIC_READ | FILE_GENERIC_EXECUTE: a read-only tree's MaximalAccess. -/
def maximalAccessRead : UInt32 := 0x001200A9

/-- `"IPC$"` -/
def ipcName : Str := ['I', 'P', 'C', '$']

/-- The path of a TREE_CONNECT request. -/
def treeConnectPath (msg : Bytes) : Rdr Str := do
  Rdr.structureSize 9
  Rdr.skip 2
  let off ← Rdr.u16
  let len ← Rdr.u16
  let b ← Rdr.get msg off.toNat (off.toNat + len.toNat)
  pure (fromUtf16le b)

/-- The identity of a session, as authorization sees it. -/
def SessionInner.who (s : SessionInner) : Authz.Who := ⟨s.guest, s.user, s.kerberos, s.pac⟩

/-- The tree that a share name gives to a session, or the status that refuses it. -/
def connectShare (cfg : Config) (sess : SessionInner) (shareName : Str) : Except UInt32 Tree :=
  if eqIgnoreAsciiCase shareName ipcName then .ok ⟨0xFFFFFFFF, true, false⟩
  else
    match cfg.shares.findIdx? fun s => eqIgnoreAsciiCase s.name shareName with
    | none => .error Status.badNetworkName
    | some i =>
      match cfg.shares[i]? with
      | none => .error Status.badNetworkName
      | some share =>
        match Authz.check cfg share sess.who with
        | .denied => .error Status.accessDenied
        | .readOnly => .ok ⟨UInt32.ofNat i, false, true⟩
        | .readWrite => .ok ⟨UInt32.ofNat i, false, false⟩

def treeConnect (srv : Srv σ) (msg : Bytes) : Handler σ Body := do
  let path ← Eff.need Status.invalidParameter (Rdr.parse (treeConnectPath msg) (msg.drop 64))
  let s ← Eff.read
  let tree ← Eff.ofExcept (connectShare srv.cfg s.sess (leafOf path))
  Eff.refuse (maxTreesPerSession ≤ s.sess.trees.keys.length) Status.insufficientResources
  let treeId := s.sess.nextTreeId + 1
  Eff.update fun s =>
    { s with
      sess := { s.sess with nextTreeId := treeId, trees := s.sess.trees.insert treeId tree }
      chain := { s.chain with treeId } }
  pure (Status.success,
    p16 16 ++ p8 (if tree.ipc then 2 else 1) ++ p8 0 ++ p32 0 ++ p32 0 ++
      p32 (if tree.ipc then 0x001F00A9 else
        if tree.readOnly then maximalAccessRead else maximalAccessAll))

/-- Close one handle of a tree that is disconnected. -/
def disconnectHandle (os : Os σ) (treeId : UInt32) (s : Sx σ) (fid : UInt64) : Sx σ :=
  let s :=
    match s.sess.handles.remove fid treeId with
    | some (of, handles) =>
      { s with sess := { s.sess with handles }, host := closeFile os of s.host }
    | none => s
  { s with notify := notifyCleanup s.notify fid }

/-- The tree's opens close with it. -/
def treeDisconnect (os : Os σ) : Handler σ Body := do
  Eff.update fun s =>
    let treeId := s.chain.treeId
    let s := { s with sess := { s.sess with trees := s.sess.trees.erase treeId } }
    (s.sess.handles.idsInTree treeId).foldl (disconnectHandle os treeId) s
  pure (Status.success, p16 4 ++ p16 0)

end RocketSmbd
