import RocketSmbd.Smb2.Proto

/-!
# What the session-scoped handlers share (`smb2/handlers.rs`)

`Sx` is the state a session-scoped handler works on: its own session, the host, the compound's
chain and the notify queues of the connection.  A handler is an `Eff` over it that fails with the
NT status of its error response.  Also here are the CLOSE side effects of a handle, which CLOSE,
TREE_DISCONNECT, LOGOFF and a dropped connection have in common.
-/

namespace RocketSmbd

open ByteString Vfs

variable {σ : Type}

/-- The state of a session-scoped handler. -/
structure Sx (σ : Type) where
  sess : SessionInner
  host : Host σ
  chain : Chain
  notify : NotifyQueues

/-- A session-scoped handler; it fails with the status of an error response. -/
abbrev Handler (σ A : Type) := Eff (Sx σ) UInt32 A

/-- A status and the response body that follows the header. -/
abbrev Body := UInt32 × Bytes

namespace Handler

/-- Work on the host. -/
def onHost {E A : Type} (m : Eff (Host σ) E A) : Eff (Sx σ) E A :=
  Eff.zoom Sx.host (fun host s => { s with host }) m

/-- A system call whose errno becomes the response status. -/
def sys {A : Type} (m : Eff σ ℕ A) : Handler σ A :=
  Eff.mapErr Status.fromErrno (onHost (Host.sys m))

/-- A system call whose errno the handler looks at. -/
def trySys {A : Type} (m : Eff σ ℕ A) : Handler σ (Except ℕ A) := Eff.attempt (onHost (Host.sys m))

/-- A system call that cannot fail. -/
def act (f : σ → σ) : Handler σ Unit := onHost (Eff.update (Host.act f))

/-- The handle `fid` of the chain's tree. -/
def getHandle (fid : UInt64) : Handler σ OpenFile := do
  let s ← Eff.read
  Eff.need Status.fileClosed (s.sess.handles.get fid s.chain.treeId)

/-- Change the handle `fid` of the chain's tree. -/
def setHandle (fid : UInt64) (f : OpenFile → OpenFile) : Handler σ Unit :=
  Eff.update fun s =>
    { s with sess := { s.sess with handles := s.sess.handles.modify fid s.chain.treeId f } }

end Handler

/-- Parse a 16-byte FileId; all-ones means "use the previous handle in the compound chain". -/
def parseFid (chain : Chain) : Rdr UInt64 := do
  let persistent ← Rdr.u64
  let volatile ← Rdr.u64
  if persistent = 0xFFFFFFFFFFFFFFFF ∧ volatile = 0xFFFFFFFFFFFFFFFF then
    match chain.lastFid with
    | some fid => pure fid
    | none => Rdr.fail
  else pure volatile

def putFid (fid : UInt64) : Bytes := p64 fid ++ p64 fid

/-! ### Resource caps -/

def maxOpensPerSession : ℕ := 16384
def maxTreesPerSession : ℕ := 1024
def maxNotifyPerConn : ℕ := 1024
/-- Unfinished session setups one connection may hold at once. -/
def maxPendingSetups : ℕ := 4

/-! ### Lease breaks and the end of a handle -/

/-- Break every lease on file `key` except the one held under `except`, and post each break to
the worker that owns the holder's connection. -/
def breakLeases (key : LeaseFile) (except : Option Bytes) (host : Host σ) : Host σ :=
  let (breaks, leases) := LeaseTable.breakConflicts key except host.leases
  { host with leases, mailboxes := breaks.foldl Mailboxes.post host.mailboxes }

/-- Release the lease of a handle that leaves the table, unless handle-caching keeps it alive. -/
def releaseLease (of : OpenFile) (host : Host σ) : Host σ :=
  match of.oplockIno, of.leaseKey with
  | some ino, some lk =>
    if of.leaseGranted &&& leaseHandleCaching = 0 then
      { host with leases := LeaseTable.release (of.shareIdx, ino) lk host.leases }
    else host
  | _, _ => host

/-- The file goes away: break other holders' leases on it. -/
def breakDeleted (os : Os σ) (of : OpenFile) (host : Host σ) : Host σ :=
  if of.isDir then host
  else
    match fstatMeta os of.fd host.os with
    | (.ok m, s) => breakLeases (of.shareIdx, m.ino) of.leaseKey { host with os := s }
    | (.error _, s) => { host with os := s }

/-- The CLOSE side effects of a handle leaving the table: release its lease and carry out
delete-on-close. -/
def finishClose (os : Os σ) (of : OpenFile) (host : Host σ) : UInt32 × Host σ :=
  let host := { releaseLease of host with finished := host.finished ++ [of.serial] }
  if ¬ of.deleteOnClose then (Status.success, host)
  else
    let host := breakDeleted os of host
    let (res, s) := (if of.isDir then os.removeDir of.path else os.removeFile of.path) host.os
    match res with
    | .ok _ => (Status.success, { host with os := s })
    | .error e => (Status.fromErrno e, { host with os := s })

/-- Dropping an `OpenFile` closes its descriptor. -/
def dropFile (os : Os σ) (of : OpenFile) (host : Host σ) : Host σ := host.act (os.close of.fd)

/-- `finishClose`, then the drop at the end of its scope. -/
def closeFile (os : Os σ) (of : OpenFile) (host : Host σ) : Host σ :=
  dropFile os of (finishClose os of host).2

/-- Complete any CHANGE_NOTIFY pended on handle `fid` (NOTIFY_CLEANUP). -/
def notifyCleanup (q : NotifyQueues) (fid : UInt64) : NotifyQueues :=
  { q with
    active := q.active.filter fun a => a.fid ≠ fid
    done := q.done ++ (q.active.filter fun a => a.fid = fid).map
      fun a => ⟨a.asyncId, Status.notifyCleanup⟩ }

/-! ### Ending a session -/

/-- Remove a session from the registry and close its opens. -/
def endSession (os : Os σ) (sh : Shared σ) (sid : UInt64) : Shared σ :=
  match sh.sessions.lookup sid with
  | none => sh
  | some s =>
    { sh with
      sessions := sh.sessions.erase sid
      host := s.handles.takeAll.1.foldl (fun host of => closeFile os of host) sh.host }

/-- One channel of session `sid` is gone; the session ends with its last channel. -/
def dropChannel (os : Os σ) (sh : Shared σ) (sid : UInt64) (s : SessionInner) : Shared σ :=
  let s := { s with channels := s.channels - 1 }
  let sh := { sh with sessions := sh.sessions.insert sid s }
  if s.channels = 0 then endSession os sh sid else sh

/-- Release what one channel of a dropped connection held in the registry: an established one
drops its session's channel count; a pending one ends the session it was setting up, but not the
live session it was binding to. -/
def teardownChannel (os : Os σ) (sh : Shared σ) (sid : UInt64) (ch : ChannelState) : Shared σ :=
  match sh.sessions.lookup sid with
  | none => sh
  | some s =>
    if ch.established then dropChannel os sh sid s
    else if ¬ s.established then endSession os sh sid
    else sh

/-- A connection is gone: release what it held in the shared registry. -/
def teardownConn (os : Os σ) (sh : Shared σ) (pc : ProtoConn) : Shared σ × ProtoConn :=
  (pc.channels.entries.foldl (fun sh e => teardownChannel os sh e.1 e.2) sh,
    { pc with channels := ∅ })

end RocketSmbd
