import RocketSmbd.Ring.State

/-!
# The handlers of completions (`uring.rs`)

The functions of the reactor, each on the connection it is called for.  What a handler asks the
system for directly comes with the event (`Answers`): whether a pipe can be created and how large
it is, and how much each blocking read of the pipe returns.  `AsyncCancel` and `shutdown` only make
the kernel complete what is outstanding, which it may do at any time.
-/

namespace RocketSmbd.Ring

open ByteString Vfs

variable {σ : Type}

/-- The answers to the system calls of one handler.  A pipe of size `0` is one whose size could not
be read back. -/
structure Answers where
  pipe : Option ℕ
  read : ℕ → ℕ

/-- What the handlers of a worker read: the server, and whether the kernel has `send_zc`. -/
structure Ctx (σ : Type) where
  srv : Srv σ
  sendZcOk : Bool

/-! ### Teardown -/

/-- The descriptors a dropped connection still owns. -/
def closeConnFds (os : Os σ) (c : Conn) (s : σ) : σ :=
  let s := match c.inotifyFd with
    | some ifd => os.close ifd s
    | none => s
  let s := match c.zc with
    | some zc => os.close zc.plan.fd s
    | none => s
  match c.pendingZc with
  | some plan => os.close plan.fd s
  | none => s

/-- Drop the connection: release its sessions, opens, locks and leases. -/
def finalizeClose (ctx : Ctx σ) (s : State σ) : State σ :=
  if ¬ s.live then s
  else
    let s := s.touch .conn
    let (sh, _) := teardownConn ctx.srv.env.os s.shared s.conn.proto
    let host := sh.host.act (closeConnFds ctx.srv.env.os s.conn)
    let host := { host with
      leases := LeaseTable.releaseConn s.id.1 s.id.2 s.conn.gen host.leases }
    { s with shared := { sh with host }, live := false }

/-- Begin to tear down: no new operations, and the drop once all of them have completed. -/
def closeConnRing (ctx : Ctx σ) (s : State σ) : State σ :=
  let c := s.conn
  let s := { s with conn := { c with
    closing := true
    inotifyCancelled := c.inotifyCancelled ∨ c.inotifyFd.isSome } }
  if c.inflight = 0 then finalizeClose ctx s else s

/-! ### Receiving -/

/-- The largest frame that the connection accepts. -/
def frameCap (pc : ProtoConn) : ℕ :=
  if 0 < pc.channels.count (fun _ ch => ch.established) then maxFrame else preauthMaxFrame

/-- Size of the frame at the start of `b` with its prefix, if the prefix is there; an error if the
stream is not synchronized or the frame is too large. -/
def nbtTotal (cap : ℕ) : Bytes → Except Unit (Option ℕ)
  | b0 :: b1 :: b2 :: b3 :: _ =>
    let flen := (b1.toNat <<< 16) ||| (b2.toNat <<< 8) ||| b3.toNat
    if b0 ≠ 0 then .error ()
    else if cap < flen then .error ()
    else .ok (some (4 + flen))
  | _ => .ok none

/-- The limit for the frame after one with the given outcome; no frame follows one that ends the
connection. -/
def limitAfter (pc : ProtoConn) : FrameAction → Option ℕ
  | .respond | .zcRead _ => some (frameCap pc)
  | .close | .respondClose => none

/-- The bytes received and not consumed. -/
def Conn.buffered (c : Conn) : Bytes := c.rx.extract c.rxOff c.rxLen

def frameTotal (c : Conn) : Except Unit (Option ℕ) := nbtTotal (frameCap c.proto) c.buffered

/-- `Vec::resize` -/
def resize (b : Bytes) (n : ℕ) : Bytes := b.take n ++ zeros (n - b.length)

/-- Move the unconsumed bytes to the front. -/
def compact (s : State σ) : State σ :=
  if 0 < s.conn.rxOff then
    let s' := s.setRx (patch s.conn.rx 0 s.conn.buffered)
    { s' with conn := { s'.conn with rxLen := s.conn.rxLen - s.conn.rxOff, rxOff := 0 } }
  else s

/-- The size that the receive buffer should have. -/
def rxNeeded (c : Conn) : Option ℕ → ℕ
  | some total => max total (c.rxLen + rxMinRoom)
  | none => c.rxLen + rxMinRoom

/-- Grow for a known large frame, or to keep minimum room available. -/
def grow (needed : ℕ) (s : State σ) : State σ :=
  if s.conn.rx.length < needed then
    s.setRx (resize s.conn.rx (min needed (maxFrame + 4 + rxMinRoom)))
  else s

/-- Post a recv into the room there is, if there is any. -/
def postRecv (s : State σ) : State σ :=
  if s.conn.rx.length ≤ s.conn.rxLen then s
  else
    { s with conn := { s.conn with recvInflight := true } }.submitRecv
      ⟨s.conn.rxLen, s.conn.rx.length - s.conn.rxLen⟩

/-- Keep a recv posted whenever there is, or can be made, room. -/
def maybeArmRecv (ctx : Ctx σ) (s : State σ) : State σ :=
  if s.conn.recvInflight ∨ s.conn.closing ∨ s.conn.closeAfterSend then s
  else
    let s := compact s
    match frameTotal s.conn with
    | .error _ => closeConnRing ctx s
    | .ok total => postRecv (grow (rxNeeded s.conn total) s)

/-! ### Sending -/

/-- Send the rest of the transmit buffer; `more` is `MSG_MORE`. -/
def submitSend (ctx : Ctx σ) (more : Bool) (s : State σ) : State σ :=
  let c := s.conn
  let len := c.tx.length - c.txOff
  let isZc : Bool := ctx.sendZcOk ∧ ¬ c.copyNext ∧ ¬ more ∧ zcSendMin ≤ len
  { s with conn := { c with sendIsZc := isZc, copyNext := false } }.submitSendOp
    ⟨isZc, c.txOff, len⟩

def startSend (ctx : Ctx σ) (s : State σ) : State σ :=
  submitSend ctx false { s with conn := { s.conn with txm := .send } }

/-! ### The zero-copy READ path, submissions -/

def submitSpliceIn (s : State σ) : State σ :=
  match s.conn.zc with
  | none => s.panic
  | some zc =>
    s.submitSpliceInOp ⟨zc.plan.fd, zc.plan.offset + UInt64.ofNat zc.got, zc.want - zc.got⟩

def submitSpliceOut (s : State σ) : State σ :=
  match s.conn.zc with
  | none => s.panic
  | some zc => s.submitSpliceOutOp zc.outLeft

/-- The whole READ as one chain: splice in, send the header, splice out. -/
def submitZcLinked (s : State σ) : State σ :=
  match s.conn.zc with
  | none => s.panic
  | some zc =>
    s.submitChain (.spliceIn ⟨zc.plan.fd, zc.plan.offset, zc.want⟩)
      (.send ⟨false, 0, s.conn.tx.length⟩) (.spliceOut zc.want)

/-- Put a response of its own into the empty transmit buffer. -/
def replaceTx (tx : Bytes) (s : State σ) : State σ :=
  let s := s.setTx tx
  { s with conn := { s.conn with txOff := 0 } }

/-- The pipe could not be created. -/
def refuseZc (ctx : Ctx σ) (plan : ZcReadPlan) (s : State σ) : State σ :=
  let s := replaceTx (buildReadErr plan Status.insufficientResources) s
  let s := s.closeFd ctx.srv.env.os plan.fd
  submitSend ctx false { s with conn := { s.conn with txm := .send } }

/-- The capacity of the pipe: that of the one there is, or of a new one. -/
def pipeCapacity (ans : Answers) (c : Conn) : Option ℕ :=
  c.pipeCap.or (ans.pipe.map fun got => if 0 < got then got else 65536)

def startZc (ctx : Ctx σ) (ans : Answers) (plan : ZcReadPlan) (s : State σ) : State σ :=
  let reading (linked : Bool) : Hist :=
    { s.hist with reading := some { plan, linked, mark := s.kern.wire.length } }
  match pipeCapacity ans s.conn with
  | none => refuseZc ctx plan { s with hist := reading false }
  | some cap =>
    let s := { s with conn := { s.conn with pipeCap := some cap } }
    let want := min plan.length.toNat cap
    if plan.linked ∧ plan.length.toNat ≤ cap then
      let s := replaceTx (buildReadRespPrefix plan plan.length) { s with hist := reading true }
      let zc : Zc :=
        { plan, want, got := want, outLeft := plan.length.toNat, linked := true, chain := 3
          err := false }
      submitZcLinked { s with conn := { s.conn with zc := some zc, txm := .zcOut } }
    else
      let s := { s with hist := reading false }
      let zc : Zc :=
        { plan, want, got := 0, outLeft := 0, linked := false, chain := 0, err := false }
      submitSpliceIn { s with conn := { s.conn with zc := some zc, txm := .zcIn } }

/-! ### Change notification -/

def armInotify (s : State σ) : State σ :=
  if s.conn.closing then s else s.submitInotify s.conn.ibuf.length

/-- Drain the notify queues; the first pend creates the inotify instance and arms its read. -/
def serviceNotify (ctx : Ctx σ) (s : State σ) : State σ :=
  let env := ctx.srv.env
  let (os, f) := RocketSmbd.serviceNotify env.crypto env.os s.shared.host.os s.conn.front
  let fresh := s.conn.inotifyFd.isNone ∧ f.inotifyFd.isSome
  let s := { s.withOs os with conn := s.conn.withFront f }
  if fresh then armInotify (s.setIbuf (zeros 4096)) else s

/-! ### Driving -/

/-- Completed async responses go out ahead of new work. -/
def takeDeferred : Bytes → List Bytes → Bytes × List Bytes
  | tx, [] => (tx, [])
  | tx, d :: ds => if txFlush ≤ (tx ++ d).length then (tx ++ d, ds) else takeDeferred (tx ++ d) ds

def queueDeferred (s : State σ) : State σ :=
  if s.conn.deferred.isEmpty then s
  else
    let (tx, deferred) := takeDeferred s.conn.tx s.conn.deferred
    let s := s.setTx tx
    { s with conn := { s.conn with deferred } }

/-- Process the frame of `total` bytes, prefix included, at the front of the received bytes. -/
def oneFrame (ctx : Ctx σ) (total : ℕ) (s : State σ) : FrameAction × State σ :=
  let frame := s.conn.rx.extract (s.conn.rxOff + 4) (s.conn.rxOff + total)
  let out := processFrame ctx.srv s.shared s.conn.proto frame s.conn.tx
  let s := s.setTx out.tx
  let s := { s with
    shared := out.shared
    conn := { s.conn with proto := out.pc, rxOff := s.conn.rxOff + total }
    hist := { s.hist with frames := s.hist.frames ++ [(frame, limitAfter out.pc out.action)] } }
  let q := out.pc.notify
  (out.action, if q.new.isEmpty ∧ q.done.isEmpty then s else serviceNotify ctx s)

/-- The end of `drive`: send what was collected, and keep a recv posted. -/
def kick (ctx : Ctx σ) (s : State σ) : State σ :=
  maybeArmRecv ctx (if s.conn.tx.isEmpty then s else startSend ctx s)

/-- Process complete frames until one has to wait.  Each takes four bytes at least, so as many
rounds as there are bytes are enough. -/
def driveFrames (ctx : Ctx σ) (ans : Answers) : ℕ → State σ → State σ
  | 0, s => kick ctx s
  | fuel + 1, s =>
    if txFlush ≤ s.conn.tx.length - s.conn.txOff then kick ctx s
    else
      match frameTotal s.conn with
      | .error _ => closeConnRing ctx s
      | .ok none => kick ctx s
      | .ok (some total) =>
        if s.conn.rxLen - s.conn.rxOff < total then kick ctx s
        else
          match oneFrame ctx total s with
          | (.respond, s) => driveFrames ctx ans fuel s
          | (.close, s) => closeConnRing ctx s
          | (.respondClose, s) =>
            let s := { s with conn := { s.conn with closeAfterSend := true } }
            if s.conn.tx.isEmpty then closeConnRing ctx s else startSend ctx s
          | (.zcRead plan, s) =>
            if s.conn.tx.isEmpty then maybeArmRecv ctx (startZc ctx ans plan s)
            else
              -- flush buffered responses first, then run the splice sequence
              let s := { s with conn := { s.conn with pendingZc := some plan } }
              maybeArmRecv ctx (startSend ctx s)

/-- Process complete frames, batch their responses, and start to send them. -/
def drive (ctx : Ctx σ) (ans : Answers) (s : State σ) : State σ :=
  let s := queueDeferred s
  driveFrames ctx ans (s.conn.rxLen - s.conn.rxOff + 1) s

/-! ### Handlers of receiving and notification -/

/-- Bytes came in. -/
def received (ctx : Ctx σ) (ans : Answers) (n : ℕ) (s : State σ) : State σ :=
  let s := { s with conn := { s.conn with rxLen := s.conn.rxLen + n } }
  if s.conn.txm = .idle then drive ctx ans s else maybeArmRecv ctx s

def onRecv (ctx : Ctx σ) (ans : Answers) (res : Except ℕ ℕ) (s : State σ) : State σ :=
  let s := { s with conn := { s.conn with recvInflight := false } }
  match res with
  | .error e => if e = eintr then maybeArmRecv ctx s else closeConnRing ctx s
  | .ok 0 => closeConnRing ctx s
  | .ok n => received ctx ans n s

/-- The inotify instance died. -/
def inotifyDied (ctx : Ctx σ) (s : State σ) : State σ :=
  match s.conn.inotifyFd with
  | none => s
  | some ifd =>
    { s with conn := { s.conn with inotifyFd := none } }.closeFd ctx.srv.env.os ifd

/-- Events came in. -/
def notified (ctx : Ctx σ) (ans : Answers) (n : ℕ) (s : State σ) : State σ :=
  let (os, f) := RocketSmbd.onInotify ctx.srv s.shared.host.os s.conn.front (s.conn.ibuf.take n)
  let s := armInotify { s.withOs os with conn := s.conn.withFront f }
  if s.conn.txm = .idle ∧ ¬ s.conn.deferred.isEmpty then drive ctx ans s else s

def onInotify (ctx : Ctx σ) (ans : Answers) (res : Except ℕ ℕ) (s : State σ) : State σ :=
  match res with
  | .error e => if e = eintr ∨ e = eagain then armInotify s else inotifyDied ctx s
  | .ok 0 => inotifyDied ctx s
  | .ok n => notified ctx ans n s

/-- Queue a lease break for the connection it is meant for, and flush if nothing is on the wire. -/
def deliverBreak (ctx : Ctx σ) (ans : Answers) (b : BreakMsg) (s : State σ) : State σ :=
  if ¬ s.live ∨ s.conn.gen ≠ b.connGen ∨ s.conn.closing then s
  else
    let sign := (s.conn.proto.channels.lookup b.sessionId).bind ChannelState.sign
    let frame := buildLeaseBreak ctx.srv.env.crypto b sign
    let s := { s with conn := { s.conn with deferred := s.conn.deferred ++ [frame] } }
    if s.conn.txm = .idle then drive ctx ans s else s

/-! ### Handlers of sending -/

/-- The transmit buffer is sent and released: go on with the next response, or with a READ that
waits behind it. -/
def finishSend (ctx : Ctx σ) (ans : Answers) (s : State σ) : State σ :=
  if s.conn.closeAfterSend then closeConnRing ctx s
  else
    let s := replaceTx [] s
    match s.conn.pendingZc with
    | some plan => startZc ctx ans plan { s with conn := { s.conn with pendingZc := none } }
    | none => drive ctx ans s.goIdle

def onSendNotif (ctx : Ctx σ) (ans : Answers) (s : State σ) : State σ :=
  let s := { s with conn := { s.conn with notifPending := s.conn.notifPending - 1 } }
  if s.conn.notifPending = 0 ∧ s.conn.txm = .drain then finishSend ctx ans s else s

/-- The READ is over: release its descriptor and the transmit side. -/
def finishZc (ctx : Ctx σ) (ans : Answers) (zc : Zc) (s : State σ) : State σ :=
  let s := { s with conn := { s.conn with zc := none } }.closeFd ctx.srv.env.os zc.plan.fd
  drive ctx ans (replaceTx [] s).goIdle

/-- Retire one completion of a linked chain; the last one decides. -/
def onLinkedCqe (ctx : Ctx σ) (ans : Answers) (op : OpKind) (res : Except ℕ ℕ) (s : State σ) :
    State σ :=
  match s.conn.zc with
  | none => s.panic
  | some zc =>
    let zc := { zc with
      chain := zc.chain - 1
      outLeft := if op = .spliceOut then zc.outLeft - moved res else zc.outLeft
      -- includes ECANCELED from a broken link
      err := zc.err ∨ res.toOption.isNone }
    let s := { s with conn := { s.conn with zc := some zc } }
    if 0 < zc.chain then s
    else if zc.err then closeConnRing ctx s
    else if 0 < zc.outLeft then
      -- the socket took a part; the rest of the pipe goes out on the sequential path
      submitSpliceOut { s with conn := { s.conn with
        zc := some { zc with linked := false }, txm := .zcOut } }
    else finishZc ctx ans zc s

/-- Bytes of the transmit buffer were sent. -/
def sent (ctx : Ctx σ) (ans : Answers) (n : ℕ) (s : State σ) : State σ :=
  let s := { s with conn := { s.conn with txOff := s.conn.txOff + n } }
  let done := s.conn.tx.length ≤ s.conn.txOff
  if s.conn.txm = .zcHdr then
    if done then submitSpliceOut { s with conn := { s.conn with txm := .zcOut } }
    else submitSend ctx true s
  else if done then
    -- a `send_zc` still refers to the buffer until its notifications are there
    if 0 < s.conn.notifPending then { s with conn := { s.conn with txm := .drain } }
    else finishSend ctx ans s
  else submitSend ctx false s

def onSend (ctx : Ctx σ) (ans : Answers) (res : Except ℕ ℕ) (s : State σ) : State σ :=
  if s.conn.zc.any (·.linked) then onLinkedCqe ctx ans .send res s
  else
    match res with
    | .error e =>
      if e = eintr then submitSend ctx (s.conn.txm = .zcHdr) s
      else if (e = enomem ∨ e = enobufs) ∧ s.conn.sendIsZc then
        -- no memory to pin: send this one by copy
        submitSend ctx false { s with conn := { s.conn with copyNext := true } }
      else closeConnRing ctx s
    | .ok 0 => closeConnRing ctx s
    | .ok n => sent ctx ans n s

/-! ### Handlers of the zero-copy READ path -/

/-- Read up to `left` bytes off the pipe, 16 KiB at a time. -/
def drainPipe (read : ℕ → ℕ) : ℕ → ℕ → ℕ → Bytes → Bytes
  | 0, _, _, pipe => pipe
  | fuel + 1, i, left, pipe =>
    let n := min (read i) (min (min 16384 left) pipe.length)
    if left = 0 ∨ n = 0 then pipe else drainPipe read fuel (i + 1) (left - n) (pipe.drop n)

/-- Abort: drain what landed in the pipe, then send an error response instead. -/
def zcFail (ctx : Ctx σ) (ans : Answers) (st : UInt32) (s : State σ) : State σ :=
  match s.conn.zc with
  | none => s.panic
  | some zc =>
    let s := { s with
      conn := { s.conn with zc := none }
      kern := { s.kern with pipe := drainPipe ans.read zc.got 0 zc.got s.kern.pipe } }
    let s := (replaceTx (buildReadErr zc.plan st) s).closeFd ctx.srv.env.os zc.plan.fd
    submitSend ctx false { s with conn := { s.conn with txm := .send } }

/-- The pipe holds what there is to send: announce it. -/
def sendReadHdr (ctx : Ctx σ) (ans : Answers) (zc : Zc) (s : State σ) : State σ :=
  if zc.got = 0 ∨ zc.got < zc.plan.minCount.toNat then zcFail ctx ans Status.endOfFile s
  else
    let s := { s with conn := { s.conn with zc := some { zc with outLeft := zc.got } } }
    let s := replaceTx (buildReadRespPrefix zc.plan (UInt32.ofNat zc.got)) s
    submitSend ctx true { s with conn := { s.conn with txm := .zcHdr } }

/-- Bytes came into the pipe, or the file has no more. -/
def splicedIn (ctx : Ctx σ) (ans : Answers) (n : ℕ) (s : State σ) : State σ :=
  match s.conn.zc with
  | none => s.panic
  | some zc =>
    let zc := { zc with got := zc.got + n }
    let s := { s with conn := { s.conn with zc := some zc } }
    if 0 < n ∧ zc.got < zc.want then submitSpliceIn s else sendReadHdr ctx ans zc s

def onSpliceIn (ctx : Ctx σ) (ans : Answers) (res : Except ℕ ℕ) (s : State σ) : State σ :=
  if s.conn.zc.any (·.linked) then onLinkedCqe ctx ans .spliceIn res s
  else
    match res with
    | .error e =>
      if e = eintr ∨ e = eagain then submitSpliceIn s else zcFail ctx ans (Status.fromErrno e) s
    | .ok n => splicedIn ctx ans n s

/-- Bytes of the pipe were sent. -/
def splicedOut (ctx : Ctx σ) (ans : Answers) (n : ℕ) (s : State σ) : State σ :=
  match s.conn.zc with
  | none => s.panic
  | some zc =>
    let zc := { zc with outLeft := zc.outLeft - n }
    let s := { s with conn := { s.conn with zc := some zc } }
    if 0 < zc.outLeft then submitSpliceOut s else finishZc ctx ans zc s

def onSpliceOut (ctx : Ctx σ) (ans : Answers) (res : Except ℕ ℕ) (s : State σ) : State σ :=
  if s.conn.zc.any (·.linked) then onLinkedCqe ctx ans .spliceOut res s
  else
    match res with
    | .error e =>
      if e = eintr ∨ e = eagain then submitSpliceOut s else closeConnRing ctx s
    | .ok 0 => closeConnRing ctx s
    | .ok n => splicedOut ctx ans n s

/-! ### Completions and runs -/

/-- The count of operations in flight after a completion: one is over, and a notification that was
announced is one more. -/
def account (cqe : Cqe) (s : State σ) : State σ :=
  let c := s.conn
  let more := cqe.op = .send ∧ cqe.more
  { s with conn := { c with
    inflight := (if more then c.inflight + 1 else c.inflight) - 1
    notifPending := if more then c.notifPending + 1 else c.notifPending } }

/-- Record whether the socket failed. -/
def State.note (cqe : Cqe) (s : State σ) : State σ :=
  { s with hist := { s.hist with failed := cqe.fails } }

def handleCqe (ctx : Ctx σ) (ans : Answers) (cqe : Cqe) (s : State σ) : State σ :=
  if ¬ s.live then s
  else
    let s := account cqe s
    if s.conn.closing then
      -- draining: the result does not matter any more
      if s.conn.inflight = 0 then finalizeClose ctx s else s
    else
      let s := s.note cqe
      match cqe.op with
      | .recv => onRecv ctx ans cqe.res s
      | .send => if cqe.notif then onSendNotif ctx ans s else onSend ctx ans cqe.res s
      | .spliceIn => onSpliceIn ctx ans cqe.res s
      | .spliceOut => onSpliceOut ctx ans cqe.res s
      | .inotify => onInotify ctx ans cqe.res s

/-- What happens to a connection: the kernel completes something, a lease break comes for it, or
the rest of the server changes the state they share. -/
inductive Event (σ : Type)
  | kernel (d : Done) (ans : Answers)
  | lease (b : BreakMsg) (ans : Answers)
  | others (sh : Shared σ)

def step (ctx : Ctx σ) (s : State σ) : Event σ → State σ
  | .kernel d ans =>
    match s.complete d with
    | none => s
    | some (cqe, s) => handleCqe ctx ans cqe s
  | .lease b ans => deliverBreak ctx ans b s
  | .others sh => { s with shared := sh }

/-- A connection that was just accepted. -/
def start (ctx : Ctx σ) (id : ConnId) (gen : UInt16) (sh : Shared σ) : State σ :=
  maybeArmRecv ctx
    { id, shared := sh, conn := { gen, proto := ProtoConn.new ctx.srv id.1 id.2 gen } }

def run (ctx : Ctx σ) (s : State σ) (es : List (Event σ)) : State σ := es.foldl (step ctx) s

end RocketSmbd.Ring
