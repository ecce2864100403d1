import RocketSmbd.Reactor

/-!
# A connection on the ring (`struct Conn`, `uring.rs`)

`Reactor` takes frames whole and looks at neither buffers nor completions.  Here a connection has
its receive and transmit buffers, and beside it stands what the kernel holds of it: the operations
submitted and not completed, the buffer-release notifications announced and not received, the bytes
in the pipe and the bytes on the socket.

The history `Hist` is written and never read: the bytes received, the frames processed, every
write to a buffer with the use the kernel makes of it at that moment, and what each zero-copy READ
put on the socket.
-/

namespace RocketSmbd.Ring

open ByteString Vfs

variable {σ : Type}

/-! ### Constants -/

def rxInitial : ℕ := 69632
/-- Minimum spare tail room before re-arming a recv. -/
def rxMinRoom : ℕ := 16384
/-- Flush accumulated responses once the batch reaches this size. -/
def txFlush : ℕ := 1048576
/-- Buffered sends at or above this size use `send_zc`. -/
def zcSendMin : ℕ := 65536

def eintr : ℕ := 4
def eagain : ℕ := 11
def enomem : ℕ := 12
def enobufs : ℕ := 105
def ecanceled : ℕ := 125

/-! ### Connections -/

/-- Transmit-side state.  `drain` waits for the release of a buffer that is fully sent, the last
three are the stages of a zero-copy READ. -/
inductive Tx
  | idle
  | send
  | drain
  | zcIn
  | zcHdr
  | zcOut
  deriving DecidableEq

/-- A zero-copy READ in progress; `chain` counts the linked completions still pending and `err`
records a failure of one of them. -/
structure Zc where
  plan : ZcReadPlan
  want : ℕ
  got : ℕ
  outLeft : ℕ
  linked : Bool
  chain : ℕ
  err : Bool

structure Conn where
  gen : UInt16
  proto : ProtoConn
  rx : Bytes := zeros rxInitial
  rxOff : ℕ := 0
  rxLen : ℕ := 0
  recvInflight : Bool := false
  tx : Bytes := []
  txOff : ℕ := 0
  txm : Tx := .idle
  pendingZc : Option ZcReadPlan := none
  /-- The capacity of the pipe, once it is created. -/
  pipeCap : Option ℕ := none
  zc : Option Zc := none
  inotifyFd : Option Fd := none
  ibuf : Bytes := []
  watches : List Watch := []
  deferred : List Bytes := []
  inflight : ℕ := 0
  notifPending : ℕ := 0
  sendIsZc : Bool := false
  copyNext : Bool := false
  closeAfterSend : Bool := false
  closing : Bool := false
  inotifyCancelled : Bool := false

/-- The connection as `Reactor` sees it. -/
def Conn.front (c : Conn) : RocketSmbd.Conn where
  gen := c.gen
  proto := c.proto
  tx := c.tx
  zc := (c.zc.map Zc.plan).or c.pendingZc
  inotifyFd := c.inotifyFd
  watches := c.watches
  deferred := c.deferred
  closeAfterSend := c.closeAfterSend
  closing := c.closing

/-- Take over what the notify functions of `Reactor` change. -/
def Conn.withFront (c : Conn) (f : RocketSmbd.Conn) : Conn :=
  { c with
    proto := f.proto
    inotifyFd := f.inotifyFd
    watches := f.watches
    deferred := f.deferred }

/-! ### The kernel -/

/-- A recv into `rx[pos..pos + len]`. -/
structure RecvOp where
  pos : ℕ
  len : ℕ

/-- A send of `tx[pos..pos + len]`. -/
structure SendOp where
  zc : Bool
  pos : ℕ
  len : ℕ

/-- A splice from a file into the pipe. -/
structure SpliceInOp where
  fd : Fd
  off : UInt64
  len : ℕ
  deriving DecidableEq

/-- A member of a linked chain. -/
inductive LinkOp
  | spliceIn (op : SpliceInOp)
  | send (op : SendOp)
  | spliceOut (len : ℕ)

def LinkOp.isSend : LinkOp → Bool
  | .send _ => true
  | _ => false

/-- What the kernel holds of a connection: its operations by kind, a splice out of the pipe and an
inotify read being their lengths; the linked chain in its order, and whether it is broken; the
notifications announced; the contents of the pipe; and what was written to the socket. -/
structure Kernel where
  recvs : List RecvOp := []
  sends : List SendOp := []
  spliceIns : List SpliceInOp := []
  spliceOuts : List ℕ := []
  inotifies : List ℕ := []
  chain : List LinkOp := []
  broken : Bool := false
  notifs : ℕ := 0
  pipe : Bytes := []
  wire : Bytes := []

/-- Completions that are still to come. -/
def Kernel.outstanding (k : Kernel) : ℕ :=
  k.recvs.length + k.sends.length + k.spliceIns.length + k.spliceOuts.length +
    k.inotifies.length + k.chain.length + k.notifs

/-- What can be written or dropped under the kernel's hands. -/
inductive Buf
  | rx
  | tx
  | ibuf
  | conn
  deriving DecidableEq

/-- An operation or a notification that refers to the buffer is outstanding. -/
def Kernel.busy (k : Kernel) : Buf → Bool
  | .rx => ¬ k.recvs.isEmpty
  | .tx => ¬ k.sends.isEmpty ∨ k.chain.any LinkOp.isSend ∨ 0 < k.notifs
  | .ibuf => ¬ k.inotifies.isEmpty
  | .conn => 0 < k.outstanding

/-! ### History -/

/-- A buffer was moved, resized, replaced or appended to; `busy` if the kernel used it. -/
structure Touch where
  buf : Buf
  busy : Bool

/-- A zero-copy READ: how it is served, how much was on the socket before it, what each splice
put into the pipe, and how much of its header a linked send wrote. -/
structure Reading where
  plan : ZcReadPlan
  linked : Bool
  mark : ℕ
  splices : List (SpliceInOp × Bytes) := []
  hdr : ℕ := 0

/-- `frames` has each frame with the size limit in force after it, or none if it was to be the last
one; `failed` tells whether the completion handled last found the socket unusable; `served` has each
zero-copy READ with what was written to the socket for it. -/
structure Hist where
  stream : Bytes := []
  frames : List (Bytes × Option ℕ) := []
  failed : Bool := false
  touches : List Touch := []
  reading : Option Reading := none
  served : List (Reading × Bytes) := []

/-! ### States -/

/-- One connection of a worker, the state that all connections share, and the kernel.  `live` ends
when the connection is dropped, `panicked` records a failed `expect`. -/
structure State (σ : Type) where
  id : ConnId
  shared : Shared σ
  conn : Conn
  kern : Kernel := {}
  live : Bool := true
  panicked : Bool := false
  hist : Hist := {}

namespace State

def withOs (s : State σ) (os : σ) : State σ :=
  { s with shared := { s.shared with host := { s.shared.host with os } } }

/-- `libc::close` -/
def closeFd (os : Os σ) (fd : Fd) (s : State σ) : State σ :=
  s.withOs (os.close fd s.shared.host.os)

def panic (s : State σ) : State σ := { s with panicked := true }

/-- Record a write to a buffer. -/
def touch (b : Buf) (s : State σ) : State σ :=
  { s with hist := { s.hist with
    touches := s.hist.touches ++ [⟨b, ¬ s.live ∨ s.kern.busy b⟩] } }

def setTx (tx : Bytes) (s : State σ) : State σ :=
  let s := s.touch .tx
  { s with conn := { s.conn with tx } }

def setRx (rx : Bytes) (s : State σ) : State σ :=
  let s := s.touch .rx
  { s with conn := { s.conn with rx } }

def setIbuf (ibuf : Bytes) (s : State σ) : State σ :=
  let s := s.touch .ibuf
  { s with conn := { s.conn with ibuf } }

/-- The transmit side returns to `Idle`: a zero-copy READ that was being served is over. -/
def goIdle (s : State σ) : State σ :=
  { s with
    conn := { s.conn with txm := .idle }
    hist := { s.hist with
      reading := none
      served := s.hist.served ++
        (s.hist.reading.map fun r => (r, s.kern.wire.drop r.mark)).toList } }

/-! ### Submissions -/

def submitRecv (op : RecvOp) (s : State σ) : State σ :=
  { s with
    conn := { s.conn with inflight := s.conn.inflight + 1 }
    kern := { s.kern with recvs := s.kern.recvs ++ [op] } }

def submitSendOp (op : SendOp) (s : State σ) : State σ :=
  { s with
    conn := { s.conn with inflight := s.conn.inflight + 1 }
    kern := { s.kern with sends := s.kern.sends ++ [op] } }

def submitSpliceInOp (op : SpliceInOp) (s : State σ) : State σ :=
  { s with
    conn := { s.conn with inflight := s.conn.inflight + 1 }
    kern := { s.kern with spliceIns := s.kern.spliceIns ++ [op] } }

def submitSpliceOutOp (len : ℕ) (s : State σ) : State σ :=
  { s with
    conn := { s.conn with inflight := s.conn.inflight + 1 }
    kern := { s.kern with spliceOuts := s.kern.spliceOuts ++ [len] } }

def submitInotify (len : ℕ) (s : State σ) : State σ :=
  { s with
    conn := { s.conn with inflight := s.conn.inflight + 1 }
    kern := { s.kern with inotifies := s.kern.inotifies ++ [len] } }

/-- Three operations at once, linked. -/
def submitChain (a b c : LinkOp) (s : State σ) : State σ :=
  { s with
    conn := { s.conn with inflight := s.conn.inflight + 3 }
    kern := { s.kern with chain := s.kern.chain ++ [a, b, c] } }

end State

/-! ### Completions -/

/-- The kind of an operation, as `user_data` carries it. -/
inductive OpKind
  | recv
  | send
  | spliceIn
  | spliceOut
  | inotify
  deriving DecidableEq

/-- A completion: `more` announces a notification, `notif` is one. -/
structure Cqe where
  op : OpKind
  res : Except ℕ ℕ
  more : Bool := false
  notif : Bool := false

/-- What the kernel does next: one of the operations of a kind, the `i`-th outstanding one,
completes, or the first one of the linked chain, or a notification comes. -/
inductive Done
  | recv (i : ℕ) (r : Except ℕ Bytes)
  | send (i : ℕ) (r : Except ℕ ℕ) (more : Bool)
  | notif
  | spliceIn (i : ℕ) (r : Except ℕ Bytes)
  | spliceOut (i : ℕ) (r : Except ℕ ℕ)
  | inotify (i : ℕ) (r : Except ℕ Bytes)
  | linkedIn (r : Except ℕ Bytes)
  | linkedSend (r : Except ℕ ℕ)
  | linkedOut (r : Except ℕ ℕ)

/-- The result as the completion carries it. -/
def count (r : Except ℕ Bytes) : Except ℕ ℕ := r.map List.length

/-- How many bytes an operation moved. -/
def moved (r : Except ℕ ℕ) : ℕ := (r.toOption).getD 0

/-- An operation on the socket failed or found its end, and was not merely interrupted. -/
def Cqe.fails (cqe : Cqe) : Bool :=
  (cqe.op = .recv ∨ cqe.op = .send ∨ cqe.op = .spliceOut) ∧ ¬ cqe.notif ∧ moved cqe.res = 0 ∧
    cqe.res ≠ .error eintr

/-- The bytes an operation moved. -/
def bytesOf (r : Except ℕ Bytes) : Bytes := (r.toOption).getD []

@[simp]
theorem bytesOf_error (e : ℕ) : bytesOf (.error e) = [] := rfl

@[simp]
theorem bytesOf_ok (d : Bytes) : bytesOf (.ok d) = d := rfl

/-- An operation of `len` bytes does not move more. -/
def within (r : Except ℕ ℕ) (len : ℕ) : Prop := moved r ≤ len

instance (r : Except ℕ ℕ) (len : ℕ) : Decidable (within r len) :=
  inferInstanceAs (Decidable (_ ≤ _))

/-- A member of a broken chain is cancelled. -/
def allowed (broken : Bool) (r : Except ℕ ℕ) : Prop := broken → r = .error ecanceled

instance (broken : Bool) (r : Except ℕ ℕ) : Decidable (allowed broken r) :=
  inferInstanceAs (Decidable (_ → _))

namespace State

/-- A recv or an inotify read puts its bytes into the connection's buffer. -/
def landRx (pos : ℕ) (data : Bytes) (s : State σ) : State σ :=
  { s with
    conn := { s.conn with rx := patch s.conn.rx pos data }
    hist := { s.hist with stream := s.hist.stream ++ data } }

def landIbuf (data : Bytes) (s : State σ) : State σ :=
  { s with conn := { s.conn with ibuf := patch s.conn.ibuf 0 data } }

/-- A send writes bytes of the transmit buffer to the socket. -/
def emitTx (op : SendOp) (n : ℕ) (s : State σ) : State σ :=
  { s with kern := { s.kern with
    wire := s.kern.wire ++ s.conn.tx.extract op.pos (op.pos + n) } }

/-- A splice fills the pipe. -/
def fillPipe (op : SpliceInOp) (data : Bytes) (s : State σ) : State σ :=
  { s with
    kern := { s.kern with pipe := s.kern.pipe ++ data }
    hist := { s.hist with
      reading := s.hist.reading.map fun r => { r with splices := r.splices ++ [(op, data)] } } }

/-- Record how much of its header a linked send wrote. -/
def logHdr (n : ℕ) (s : State σ) : State σ :=
  { s with hist := { s.hist with reading := s.hist.reading.map fun r => { r with hdr := n } } }

/-- A splice moves bytes of the pipe to the socket. -/
def emitPipe (n : ℕ) (s : State σ) : State σ :=
  { s with kern := { s.kern with
    pipe := s.kern.pipe.drop n
    wire := s.kern.wire ++ s.kern.pipe.take n } }

/-- The first operation of the chain is over; a failure, or a splice that moved too little, breaks
the rest. -/
def popChain (broken : Bool) (s : State σ) : State σ :=
  { s with kern := { s.kern with
    chain := s.kern.chain.tail
    broken := (s.kern.broken ∨ broken) ∧ s.kern.chain.tail ≠ [] } }

/-- The kernel's part of a completion, and the completion it posts; `none` if there is no such
operation or the result is not one it can have. -/
def complete (s : State σ) : Done → Option (Cqe × State σ)
  | .recv i r =>
    match s.kern.recvs[i]? with
    | none => none
    | some op =>
      if ¬ within (count r) op.len then none
      else
        let s := { s with kern := { s.kern with recvs := s.kern.recvs.eraseIdx i } }
        some (⟨.recv, count r, false, false⟩, s.landRx op.pos (bytesOf r))
  | .send i r more =>
    match s.kern.sends[i]? with
    | none => none
    | some op =>
      -- only a `send_zc` announces a notification
      if ¬ within r op.len ∨ (more ∧ ¬ op.zc) then none
      else
        let s := { s with kern := { s.kern with
          sends := s.kern.sends.eraseIdx i, notifs := s.kern.notifs + more.toNat } }
        some (⟨.send, r, more, false⟩, s.emitTx op (moved r))
  | .notif =>
    if s.kern.notifs = 0 then none
    else
      some (⟨.send, .ok 0, false, true⟩,
        { s with kern := { s.kern with notifs := s.kern.notifs - 1 } })
  | .spliceIn i r =>
    match s.kern.spliceIns[i]? with
    | none => none
    | some op =>
      if ¬ within (count r) op.len then none
      else
        let s := { s with kern := { s.kern with spliceIns := s.kern.spliceIns.eraseIdx i } }
        some (⟨.spliceIn, count r, false, false⟩, s.fillPipe op (bytesOf r))
  | .spliceOut i r =>
    match s.kern.spliceOuts[i]? with
    | none => none
    | some len =>
      if ¬ within r (min len s.kern.pipe.length) then none
      else
        let s := { s with kern := { s.kern with spliceOuts := s.kern.spliceOuts.eraseIdx i } }
        some (⟨.spliceOut, r, false, false⟩, s.emitPipe (moved r))
  | .inotify i r =>
    match s.kern.inotifies[i]? with
    | none => none
    | some len =>
      if ¬ within (count r) len then none
      else
        let s := { s with kern := { s.kern with inotifies := s.kern.inotifies.eraseIdx i } }
        some (⟨.inotify, count r, false, false⟩, s.landIbuf (bytesOf r))
  | .linkedIn r =>
    match s.kern.chain with
    | .spliceIn op :: _ =>
      if ¬ within (count r) op.len ∨ ¬ allowed s.kern.broken (count r) then none
      else
        let s := s.popChain (count r ≠ .ok op.len)
        some (⟨.spliceIn, count r, false, false⟩, s.fillPipe op (bytesOf r))
    | _ => none
  | .linkedSend r =>
    match s.kern.chain with
    | .send op :: _ =>
      if ¬ within r op.len ∨ ¬ allowed s.kern.broken r then none
      else
        -- a send that is merely short does not break the chain
        let s := (s.popChain r.toOption.isNone).logHdr (moved r)
        some (⟨.send, r, false, false⟩, s.emitTx op (moved r))
    | _ => none
  | .linkedOut r =>
    match s.kern.chain with
    | .spliceOut len :: _ =>
      if ¬ within r (min len s.kern.pipe.length) ∨ ¬ allowed s.kern.broken r then none
      else
        let s := s.popChain (r ≠ .ok len)
        some (⟨.spliceOut, r, false, false⟩, s.emitPipe (moved r))
    | _ => none

end State

end RocketSmbd.Ring
