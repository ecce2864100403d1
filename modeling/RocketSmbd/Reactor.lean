import RocketSmbd.Smb2.Process

/-!
# The reactor, frame by frame (`uring.rs`)

A connection as the reactor keeps it, and the server as a transition system: every connection of
every worker, and the state they share.  An event is one frame processed to its end, one batch of
inotify events, one delivery of the lease breaks in a worker's mailbox, or one step in the life of
a connection.  The order of ring completions inside such an event is not looked at here.
-/

namespace RocketSmbd

open ByteString Vfs

variable {σ : Type}

/-- A CHANGE_NOTIFY that waits on an inotify watch descriptor. -/
structure Watch where
  wd : ℕ
  pend : NotifyPend
  deriving DecidableEq

/-- A connection: responses not yet sent in `tx`, completed async responses in `deferred`, and the
zero-copy READ being served. -/
structure Conn where
  gen : UInt16
  proto : ProtoConn
  tx : Bytes := []
  zc : Option ZcReadPlan := none
  inotifyFd : Option Fd := none
  watches : List Watch := []
  deferred : List Bytes := []
  closeAfterSend : Bool := false
  closing : Bool := false

/-- Worker and slot of a connection. -/
abbrev ConnId := ℕ × ℕ

/-- The server: shared state, live connections, and the generation of each connection slot. -/
structure World (σ : Type) where
  shared : Shared σ
  conns : FinMap ConnId Conn
  gens : FinMap ConnId UInt16

/-- The server before any connection. -/
def World.start (workers : ℕ) (os : σ) : World σ :=
  { shared :=
      { sessions := ∅
        host := { leases := ∅, mailboxes := List.replicate workers [], os, opened := 0
                  finished := [] }
        created := [] }
    conns := ∅
    gens := ∅ }

/-! ### Notify completions -/

/-- Build and queue a final notify response and clear the active entry. -/
def completeNotify (cr : Crypto) (c : Conn) (pend : NotifyPend) (st : UInt32)
    (events : List (UInt32 × Str)) : Conn :=
  let (pc, resp) := buildNotifyFinal cr c.proto pend.info st events pend.outLen
  let active := pc.notify.active.filter fun a => a.asyncId ≠ pend.asyncId
  { c with
    deferred := c.deferred ++ [resp]
    proto := { pc with notify := { pc.notify with active } } }

/-- The inotify instance of a connection, created on first use. -/
def inotifyInstance (os : Os σ) (s : σ) (c : Conn) : Option Fd × σ × Conn :=
  match c.inotifyFd with
  | some ifd => (some ifd, s, c)
  | none =>
    match os.inotifyInit s with
    | (.ok ifd, s) => (some ifd, s, { c with inotifyFd := some ifd })
    | (.error _, s) => (none, s, c)

/-- The watch descriptor for the directory of a pend. -/
def addWatch (os : Os σ) (ifd : Fd) (path : Path) (s : σ) : Option ℕ × σ :=
  if cpathOk path then
    match os.inotifyAddWatch ifd path s with
    | (.ok wd, s) => (some wd, s)
    | (.error _, s) => (none, s)
  else (none, s)

/-- Register a new pend: a watch, or a completion that says there are no resources for it. -/
def registerPend (cr : Crypto) (os : Os σ) (sc : σ × Conn) (pend : NotifyPend) : σ × Conn :=
  match inotifyInstance os sc.1 sc.2 with
  | (none, s, c) => (s, completeNotify cr c pend Status.insufficientResources [])
  | (some ifd, s, c) =>
    match addWatch os ifd pend.path s with
    | (none, s) => (s, completeNotify cr c pend Status.insufficientResources [])
    | (some wd, s) => (s, { c with watches := c.watches ++ [⟨wd, pend⟩] })

/-- Remove the first watch that satisfies `p`. -/
def takeWatch (p : Watch → Bool) : List Watch → Option (Watch × List Watch)
  | [] => none
  | w :: ws => if p w then some (w, ws) else (takeWatch p ws).map fun ⟨x, rest⟩ => (x, w :: rest)

/-- Drop a kernel watch that no connection's watch uses any more. -/
def rmWatch (os : Os σ) (inotifyFd : Option Fd) (wd : ℕ) (s : σ) : σ :=
  match inotifyFd with
  | some ifd => os.inotifyRmWatch ifd wd s
  | none => s

/-- Emit the final response of a cancelled pend or of one whose handle closed. -/
def finishPend (cr : Crypto) (os : Os σ) (sc : σ × Conn) (d : NotifyDone) : σ × Conn :=
  let (s, c) := sc
  match takeWatch (fun x => x.pend.asyncId = d.asyncId) c.watches with
  | none => (s, c)
  | some (watch, watches) =>
    let s := if watches.any (·.wd = watch.wd) then s else rmWatch os c.inotifyFd watch.wd s
    let (pc, resp) :=
      buildNotifyFinal cr c.proto watch.pend.info d.status [] watch.pend.outLen
    (s, { c with watches, deferred := c.deferred ++ [resp], proto := pc })

/-- Drain the notify queues: add watches for new pends, emit final responses for completed ones. -/
def serviceNotify (cr : Crypto) (os : Os σ) (s : σ) (c : Conn) : σ × Conn :=
  let q := c.proto.notify
  let c := { c with proto := { c.proto with notify := { q with new := [], done := [] } } }
  q.done.foldl (finishPend cr os) (q.new.foldl (registerPend cr os) (s, c))

/-! ### inotify events -/

def inDelete : UInt32 := 0x200
def inCreate : UInt32 := 0x100
def inMovedFrom : UInt32 := 0x40
def inMovedTo : UInt32 := 0x80
/-- IN_DELETE_SELF, IN_IGNORED and IN_UNMOUNT: the watched directory is gone. -/
def inGone : UInt32 := 0x400 ||| 0x8000 ||| 0x2000

/-- One `struct inotify_event` with its name. -/
structure InotifyEvent where
  wd : ℕ
  mask : UInt32
  name : Str

/-- The events in a buffer read from inotify. -/
def inotifyEvents (fromUtf8Lossy : Bytes → Str) : ℕ → Bytes → List InotifyEvent
  | 0, _ => []
  | fuel + 1, buf =>
    if buf.length < 16 then []
    else
      let wd := leNat (buf.extract 0 4)
      let mask := UInt32.ofNat (leNat (buf.extract 4 8))
      let nameLen := leNat (buf.extract 12 16)
      let name := ((buf.drop 16).take nameLen).takeWhile (· ≠ 0)
      ⟨wd, mask, fromUtf8Lossy name⟩ :: inotifyEvents fromUtf8Lossy fuel (buf.drop (16 + nameLen))

/-- The FILE_ACTION of an event. -/
def notifyAction (mask : UInt32) : UInt32 :=
  if mask &&& inCreate ≠ 0 then 1
  else if mask &&& inDelete ≠ 0 then 2
  else if mask &&& inMovedFrom ≠ 0 then 4
  else if mask &&& inMovedTo ≠ 0 then 5
  else 3

/-- Group events by watch descriptor; an event without a name makes the client re-enumerate. -/
def groupEvents (events : List InotifyEvent) : FinMap ℕ (List (UInt32 × Str)) :=
  events.foldl (fun g e =>
    if e.mask &&& inGone ≠ 0 then g
    else
      let old := (g.lookup e.wd).getD []
      g.insert e.wd (if e.name.isEmpty then old else old ++ [(notifyAction e.mask, e.name)])) ∅

/-- The watches of a descriptor fire with these events. -/
def fireWatches (wd : ℕ) (events : List (UInt32 × Str)) (c : Conn) :
    List (NotifyPend × List (UInt32 × Str)) × Conn :=
  ((c.watches.filter (·.wd = wd)).map fun w => (w.pend, events),
    { c with watches := c.watches.filter (·.wd ≠ wd) })

/-- The watches that a batch of inotify events takes off: those that saw activity, whose kernel
watches go with them, and those whose directory is gone. -/
def takeFired (os : Os σ) (events : List InotifyEvent) (s : σ) (c : Conn) :
    List (NotifyPend × List (UInt32 × Str)) × σ × Conn :=
  let fireGroup (acc : List (NotifyPend × List (UInt32 × Str)) × σ × Conn)
      (g : Sigma fun _ : ℕ => List (UInt32 × Str)) :=
    let (fired, c) := fireWatches g.1 g.2 acc.2.2
    (acc.1 ++ fired, rmWatch os c.inotifyFd g.1 acc.2.1, c)
  let fireGone (acc : List (NotifyPend × List (UInt32 × Str)) × σ × Conn) (e : InotifyEvent) :=
    let (fired, c) := fireWatches e.wd [] acc.2.2
    (acc.1 ++ fired, acc.2.1, c)
  (events.filter fun e => e.mask &&& inGone ≠ 0).foldl fireGone
    ((groupEvents events).entries.foldl fireGroup ([], s, c))

/-- A batch of inotify events: complete every watch that saw activity. -/
def onInotify (srv : Srv σ) (s : σ) (c : Conn) (buf : Bytes) : σ × Conn :=
  let events := inotifyEvents srv.env.fromUtf8Lossy buf.length buf
  let (fired, s, c) := takeFired srv.env.os events s c
  (s, fired.foldl (fun c f => completeNotify srv.env.crypto c f.1 Status.success f.2) c)

/-! ### Events of the server -/

def maxFrame : ℕ := 4263936
/-- Largest frame accepted before any session on the connection is established. -/
def preauthMaxFrame : ℕ := 131072

inductive Event
  | accept (id : ConnId)
  | frame (id : ConnId) (bytes : Bytes)
  | sent (id : ConnId)
  | zcDone (id : ConnId)
  | inotify (id : ConnId) (bytes : Bytes)
  | inotifyDied (id : ConnId)
  | wake (wid : ℕ)
  | hangup (id : ConnId)
  | finalize (id : ConnId)
  deriving DecidableEq

/-- The connection takes part in events: it is not being torn down. -/
def World.active (w : World σ) (id : ConnId) : Option Conn :=
  (w.conns.lookup id).filter fun c => ¬ c.closing

def World.setConn (w : World σ) (id : ConnId) (c : Conn) : World σ :=
  { w with conns := w.conns.insert id c }

def World.withOs (w : World σ) (s : σ) : World σ :=
  { w with shared := { w.shared with host := { w.shared.host with os := s } } }

/-- A new connection in a free slot. -/
def onAccept (srv : Srv σ) (w : World σ) (id : ConnId) : World σ :=
  if id ∈ w.conns then w
  else
    let gen := (w.gens.lookup id).getD 1
    { w with
      conns := w.conns.insert id { gen, proto := ProtoConn.new srv id.1 id.2 gen }
      gens := w.gens.insert id gen }

/-- The frame is over the limit for the state of its connection. -/
def oversized (c : Conn) (bytes : Bytes) : Prop :=
  (if 0 < c.proto.channels.count (fun _ ch => ch.established) then maxFrame
    else preauthMaxFrame) < bytes.length

instance (c : Conn) (bytes : Bytes) : Decidable (oversized c bytes) :=
  inferInstanceAs (Decidable (_ < _))

/-- What the reactor does with the action of a frame. -/
def applyAction (c : Conn) : FrameAction → Conn
  | .respond => c
  | .zcRead p => { c with zc := some p }
  | .respondClose => { c with closeAfterSend := true }
  | .close => { c with closing := true }

/-- Process one complete frame and the notify queues it filled. -/
def onFrame (srv : Srv σ) (w : World σ) (id : ConnId) (c : Conn) (bytes : Bytes) : World σ :=
  let out := processFrame srv w.shared c.proto bytes c.tx
  let c := { c with proto := out.pc, tx := out.tx }
  let (s, c) := serviceNotify srv.env.crypto srv.env.os out.shared.host.os c
  ({ w with shared := out.shared }.withOs s).setConn id (applyAction c out.action)

/-- Deliver one lease break to its connection, if that is still there. -/
def deliverBreak (cr : Crypto) (wid : ℕ) (w : World σ) (b : BreakMsg) : World σ :=
  match w.active (wid, b.connIdx) with
  | none => w
  | some c =>
    if c.gen ≠ b.connGen then w
    else
      let sign := (c.proto.channels.lookup b.sessionId).bind ChannelState.sign
      w.setConn (wid, b.connIdx) { c with deferred := c.deferred ++ [buildLeaseBreak cr b sign] }

/-- A worker's mailbox fired: drain it and deliver its breaks. -/
def onWake (srv : Srv σ) (w : World σ) (wid : ℕ) : World σ :=
  let (breaks, mailboxes) := Mailboxes.drain w.shared.host.mailboxes wid
  breaks.foldl (deliverBreak srv.env.crypto wid)
    { w with shared := { w.shared with host := { w.shared.host with mailboxes } } }

/-- The descriptors a dropped connection still owns. -/
def closeConnFds (os : Os σ) (c : Conn) (s : σ) : σ :=
  let s := match c.inotifyFd with
    | some ifd => os.close ifd s
    | none => s
  match c.zc with
  | some p => os.close p.fd s
  | none => s

/-- Drop a connection: release its sessions, opens, locks and leases, and recycle its slot. -/
def finalizeClose (srv : Srv σ) (w : World σ) (id : ConnId) (c : Conn) : World σ :=
  let (sh, _) := teardownConn srv.env.os w.shared c.proto
  let host := sh.host.act (closeConnFds srv.env.os c)
  let host := { host with leases := LeaseTable.releaseConn id.1 id.2 c.gen host.leases }
  { shared := { sh with host }
    conns := w.conns.erase id
    gens := w.gens.insert id (if c.gen + 1 = 0 then 1 else c.gen + 1) }

/-- One event.  A frame is processed only while no zero-copy READ holds the transmit side and the
connection is not closing. -/
def World.step (srv : Srv σ) (w : World σ) : Event → World σ
  | .accept id => onAccept srv w id
  | .frame id bytes =>
    match w.active id with
    | none => w
    | some c =>
      if c.zc.isSome ∨ c.closeAfterSend then w
      else if oversized c bytes then w.setConn id { c with closing := true }
      else onFrame srv w id c bytes
  | .sent id =>
    match w.active id with
    | none => w
    | some c => w.setConn id { c with tx := [], deferred := [], closing := c.closeAfterSend }
  | .zcDone id =>
    match w.active id with
    | none => w
    | some c =>
      match c.zc with
      | none => w
      | some p =>
        (w.setConn id { c with zc := none }).withOs (srv.env.os.close p.fd w.shared.host.os)
  | .inotify id bytes =>
    match w.active id with
    | none => w
    | some c =>
      let (s, c) := onInotify srv w.shared.host.os c bytes
      (w.withOs s).setConn id c
  | .inotifyDied id =>
    match w.active id with
    | none => w
    | some c =>
      match c.inotifyFd with
      | none => w
      | some ifd =>
        (w.setConn id { c with inotifyFd := none }).withOs (srv.env.os.close ifd w.shared.host.os)
  | .wake wid => onWake srv w wid
  | .hangup id =>
    match w.active id with
    | none => w
    | some c => w.setConn id { c with closing := true }
  | .finalize id =>
    match w.conns.lookup id with
    | none => w
    | some c => if c.closing then finalizeClose srv w id c else w

/-- A run of the server. -/
def World.run (srv : Srv σ) (w : World σ) (es : List Event) : World σ := es.foldl (World.step srv) w

end RocketSmbd
