import RocketSmbd.Lib.Framing
import RocketSmbd.Ring.Reactor

/-!
# What holds between completions

A connection is `Shut` from the moment its teardown begins.  Until then it is described in two
parts.  `Base` is about counting, receiving and change notification.  `TxInv` is about the transmit
side, mode by mode: which operations the kernel holds, what is in the buffer and the pipe, and what
was written to the socket.  It is a predicate on a `TxView`, the part of a state that it speaks of,
so that whatever leaves the view alone keeps it.

What is in the pipe after a READ that failed depends on the reads that drain it.  The facts that
follow only if these reads return something are stated under `L`, which a run may assume or not.
-/

namespace RocketSmbd.Ring

open ByteString Vfs Framing

variable {σ : Type} {L : Prop}

/-! ### Zero-copy READs -/

/-- All that was spliced into the pipe. -/
def Reading.data (r : Reading) : Bytes := (r.splices.map Prod.snd).flatten

/-- The splices read the file from `off` on, each where the one before it ended. -/
def Runs (fd : Fd) (off : UInt64) : List (SpliceInOp × Bytes) → Prop
  | [] => True
  | (op, d) :: rest => op.fd = fd ∧ op.off = off ∧ Runs fd (off + UInt64.ofNat d.length) rest

/-- What is sent ahead of the payload. -/
def Reading.head (r : Reading) : Bytes :=
  if r.linked then (buildReadRespPrefix r.plan r.plan.length).take r.hdr
  else buildReadRespPrefix r.plan (UInt32.ofNat r.data.length)

/-- One splice has read all that a plan asks for. -/
def Spliced (plan : ZcReadPlan) (r : Reading) : Prop :=
  ∃ data, r.splices = [(⟨plan.fd, plan.offset, plan.length.toNat⟩, data)] ∧
    data.length = plan.length.toNat

/-- The payload is what the plan asks for: all of it in one splice if the operations are linked,
and otherwise something, and not less than it requires. -/
structure Reading.Sound (r : Reading) : Prop where
  linked : r.linked = true → r.plan.linked = true ∧ Spliced r.plan r ∧
    r.hdr ≤ (buildReadRespPrefix r.plan r.plan.length).length
  enough : r.linked = false → 0 < r.data.length ∧ r.plan.minCount.toNat ≤ r.data.length
  runs : Runs r.plan.fd r.plan.offset r.splices
  length : r.data.length ≤ r.plan.length.toNat

/-- What a READ put on the socket: an error response, or its header and its payload. -/
def ServedRight (e : Reading × Bytes) : Prop :=
  (e.1.linked = false ∧ ∃ st, e.2 = buildReadErr e.1.plan st) ∨
    (e.1.Sound ∧ e.2 = e.1.head ++ e.1.data)

/-! ### The buffers that the kernel fills -/

/-- The bounds of the receive buffer. -/
structure Conn.RxOk (c : Conn) : Prop where
  off : c.rxOff ≤ c.rxLen
  len : c.rxLen ≤ c.rx.length
  cap : c.rx.length ≤ maxFrame + 4 + rxMinRoom

/-- The recv that should be outstanding. -/
def Conn.recvOps (c : Conn) : List RecvOp :=
  if c.recvInflight then [⟨c.rxLen, c.rx.length - c.rxLen⟩] else []

/-- The inotify read that should be outstanding. -/
def Conn.inotifyOps (c : Conn) : List ℕ := (c.inotifyFd.map fun _ => c.ibuf.length).toList

theorem Conn.recvOps_of_not {c : Conn} (h : c.recvInflight = false) : c.recvOps = [] := by
  simp [Conn.recvOps, h]

theorem Conn.inotifyOps_of_none {c : Conn} (h : c.inotifyFd = none) : c.inotifyOps = [] := by
  simp [Conn.inotifyOps, h]

/-! ### Teardown -/

/-- The history so far has nothing in it that should not be. -/
structure Past (L : Prop) (s : State σ) : Prop where
  calm : s.panicked = false
  touches : ∀ t ∈ s.hist.touches, t.busy = false
  served : L → ∀ e ∈ s.hist.served, ServedRight e

/-- Size of the next frame under a limit; without one there is no next frame. -/
def nbtNext : Option ℕ → Bytes → Except Unit (Option ℕ)
  | some cap, b => nbtTotal cap b
  | none, _ => .error ()

/-- The limit for the next frame. -/
def Conn.limit (c : Conn) : Option ℕ := if c.closeAfterSend then none else some (frameCap c.proto)

theorem Conn.limit_of_not {c : Conn} (h : c.closeAfterSend = false) :
    c.limit = some (frameCap c.proto) := by
  rw [limit, h]
  rfl

/-- Why a connection is given up: a prefix that is not acceptable, or a frame that was to be the
last one; otherwise the socket failed, or an operation of a linked chain. -/
def Over (s : State σ) (limit : Option ℕ) (rest : Bytes) : Prop :=
  nbtNext limit rest = .error () ∨ s.hist.failed = true ∨ s.conn.zc.any (·.err) = true

/-- The frames that were processed are the first ones of the stream, and there is a reason why no
other was. -/
def Ended (s : State σ) : Prop :=
  ∃ limit rest, Split nbtNext 4 (some preauthMaxFrame) s.hist.stream s.hist.frames limit rest ∧
    Over s limit rest

/-- The connection is being torn down, or it is gone and nothing is outstanding. -/
structure Shut (L : Prop) (s : State σ) : Prop where
  past : Past L s
  ended : Ended s
  closing : s.live = true → s.conn.closing = true
  count : s.live = true → s.conn.inflight = s.kern.outstanding
  gone : s.live = false → s.kern.outstanding = 0
  rx : s.conn.RxOk
  recvs : ∀ op ∈ s.kern.recvs, op = ⟨s.conn.rxLen, s.conn.rx.length - s.conn.rxLen⟩

/-! ### Counting, receiving, change notification -/

/-- The state of an open connection, with the limit for its next frame. -/
structure BaseAt (L : Prop) (limit : Option ℕ) (s : State σ) : Prop where
  past : Past L s
  live : s.live = true
  opened : s.conn.closing = false
  count : s.conn.inflight = s.kern.outstanding
  notifs : s.conn.notifPending = s.kern.notifs
  recvs : s.kern.recvs = s.conn.recvOps
  inotifies : s.kern.inotifies = s.conn.inotifyOps
  rx : s.conn.RxOk
  sync : Split nbtNext 4 (some preauthMaxFrame) s.hist.stream s.hist.frames limit s.conn.buffered

abbrev Base (L : Prop) (s : State σ) : Prop := BaseAt L s.conn.limit s

/-- What `Base` depends on. -/
structure BaseView where
  panicked : Bool
  touches : List Touch
  served : List (Reading × Bytes)
  live : Bool
  closing : Bool
  inflight : ℕ
  outstanding : ℕ
  notifPending : ℕ
  notifs : ℕ
  recvs : List RecvOp
  recvInflight : Bool
  rx : Bytes
  rxOff : ℕ
  rxLen : ℕ
  inotifies : List ℕ
  inotifyFd : Option Fd
  ibuf : Bytes
  stream : Bytes
  frames : List (Bytes × Option ℕ)
  limit : Option ℕ

def State.baseView (s : State σ) : BaseView where
  panicked := s.panicked
  touches := s.hist.touches
  served := s.hist.served
  live := s.live
  closing := s.conn.closing
  inflight := s.conn.inflight
  outstanding := s.kern.outstanding
  notifPending := s.conn.notifPending
  notifs := s.kern.notifs
  recvs := s.kern.recvs
  recvInflight := s.conn.recvInflight
  rx := s.conn.rx
  rxOff := s.conn.rxOff
  rxLen := s.conn.rxLen
  inotifies := s.kern.inotifies
  inotifyFd := s.conn.inotifyFd
  ibuf := s.conn.ibuf
  stream := s.hist.stream
  frames := s.hist.frames
  limit := s.conn.limit

/-- Whatever leaves the view alone, but for the operations in flight, keeps `Base`. -/
theorem Base.recount {s s' : State σ} (h : Base L s)
    (hcount : s'.conn.inflight = s'.kern.outstanding)
    (hview : s'.baseView = { s.baseView with
      inflight := s'.conn.inflight, outstanding := s'.kern.outstanding }) : Base L s' := by
  have hops : s'.conn.recvOps = s.conn.recvOps := by
    show (if s'.baseView.recvInflight then
      [RecvOp.mk s'.baseView.rxLen (s'.baseView.rx.length - s'.baseView.rxLen)] else []) = _
    rw [hview]
    rfl
  have hinotify : s'.conn.inotifyOps = s.conn.inotifyOps := by
    show (s'.baseView.inotifyFd.map fun _ => s'.baseView.ibuf.length).toList = _
    rw [hview]
    rfl
  have hbuffered : s'.conn.buffered = s.conn.buffered := by
    show s'.baseView.rx.extract s'.baseView.rxOff s'.baseView.rxLen = _
    rw [hview]
    rfl
  simp only [State.baseView, BaseView.mk.injEq] at hview
  obtain ⟨hcalm, htouches, hserved, hlive, hclosing, -, -, hpending, hnotifs, hrecvs, -, hrx, hoff,
    hlen, hinotifies, -, -, hstream, hframes, hlimit⟩ := hview
  refine ⟨⟨hcalm ▸ h.past.calm, htouches ▸ h.past.touches, hserved ▸ h.past.served⟩,
    hlive ▸ h.live, hclosing ▸ h.opened, hcount, ?_, ?_, ?_, ⟨?_, ?_, ?_⟩, ?_⟩
  · rw [hpending, hnotifs, h.notifs]
  · rw [hrecvs, hops, h.recvs]
  · rw [hinotifies, hinotify, h.inotifies]
  · rw [hoff, hlen]
    exact h.rx.off
  · rw [hlen, hrx]
    exact h.rx.len
  · rw [hrx]
    exact h.rx.cap
  · rw [hstream, hframes, hlimit, hbuffered]
    exact h.sync

/-- Whatever leaves the view alone keeps `Base`. -/
theorem Base.of_view {s s' : State σ} (h : Base L s) (hview : s'.baseView = s.baseView) :
    Base L s' := by
  have hinflight : s'.conn.inflight = s.conn.inflight := congrArg BaseView.inflight hview
  have hout : s'.kern.outstanding = s.kern.outstanding := congrArg BaseView.outstanding hview
  refine h.recount (by rw [hinflight, hout, h.count]) ?_
  rw [hinflight, hout]
  exact hview

/-! ### The transmit side -/

/-- What the transmit side depends on. -/
structure TxView where
  tx : Bytes
  txOff : ℕ
  txm : Tx
  pendingZc : Option ZcReadPlan
  zc : Option Zc
  sendIsZc : Bool
  sends : List SendOp
  spliceIns : List SpliceInOp
  spliceOuts : List ℕ
  chain : List LinkOp
  broken : Bool
  notifs : ℕ
  pipe : Bytes
  wire : Bytes
  reading : Option Reading
  buffered : Bytes
  cap : ℕ
  last : Bool

variable {v : TxView}

def State.txView (s : State σ) : TxView where
  tx := s.conn.tx
  txOff := s.conn.txOff
  txm := s.conn.txm
  pendingZc := s.conn.pendingZc
  zc := s.conn.zc
  sendIsZc := s.conn.sendIsZc
  sends := s.kern.sends
  spliceIns := s.kern.spliceIns
  spliceOuts := s.kern.spliceOuts
  chain := s.kern.chain
  broken := s.kern.broken
  notifs := s.kern.notifs
  pipe := s.kern.pipe
  wire := s.kern.wire
  reading := s.hist.reading
  buffered := s.conn.buffered
  cap := frameCap s.conn.proto
  last := s.conn.closeAfterSend

theorem BaseAt.base {s s' : State σ} (h : BaseAt L s.conn.limit s')
    (hview : s'.txView = s.txView) : Base L s' := by
  have hlimit : s'.conn.limit = s.conn.limit := by
    show (if s'.txView.last then none else some s'.txView.cap) = _
    rw [hview]
    rfl
  rw [Base, hlimit]
  exact h

/-- No complete frame is buffered, and no prefix is bad. -/
def Waits (v : TxView) : Prop :=
  nbtTotal v.cap v.buffered = .ok none ∨
    ∃ total, nbtTotal v.cap v.buffered = .ok (some total) ∧ v.buffered.length < total

/-- No zero-copy READ uses the pipe. -/
structure NoZc (L : Prop) (v : TxView) : Prop where
  zc : v.zc = none
  spliceIns : v.spliceIns = []
  spliceOuts : v.spliceOuts = []
  chain : v.chain = []
  broken : v.broken = false
  pipe : L → v.pipe = []

theorem NoZc.congr {v v' : TxView} (h : NoZc L v)
    (hsame : (v'.zc, v'.spliceIns, v'.spliceOuts, v'.chain, v'.broken, v'.pipe) =
      (v.zc, v.spliceIns, v.spliceOuts, v.chain, v.broken, v.pipe)) : NoZc L v' := by
  simp only [Prod.mk.injEq] at hsame
  obtain ⟨hzc, hins, houts, hchain, hbroken, hpipe⟩ := hsame
  exact ⟨hzc.trans h.zc, hins.trans h.spliceIns, houts.trans h.spliceOuts, hchain.trans h.chain,
    hbroken.trans h.broken, fun hlaw => hpipe.trans (h.pipe hlaw)⟩

/-- The transmit buffer is in the hands of the server. -/
structure Free (L : Prop) (v : TxView) : Prop where
  noZc : NoZc L v
  sends : v.sends = []
  notifs : v.notifs = 0
  txOff : v.txOff = 0
  reading : v.reading = none

/-- The buffer holds the error response to a READ, part of which has been written. -/
structure ErrAnswer (v : TxView) (r : Reading) : Prop where
  linked : r.linked = false
  mark : r.mark ≤ v.wire.length
  tx : ∃ st, v.tx = buildReadErr r.plan st
  written : v.wire.drop r.mark = v.tx.take v.txOff
  notifs : v.notifs = 0
  copied : v.sendIsZc = false
  pending : v.pendingZc = none

structure Idle (L : Prop) (v : TxView) : Prop where
  free : Free L v
  tx : v.tx = []
  pending : v.pendingZc = none
  goesOn : v.last = false
  waits : Waits v

structure Sending (L : Prop) (v : TxView) : Prop where
  noZc : NoZc L v
  sends : v.sends = [⟨v.sendIsZc, v.txOff, v.tx.length - v.txOff⟩]
  rest : v.txOff < v.tx.length
  answer : ∀ r, v.reading = some r → ErrAnswer v r

structure Draining (L : Prop) (v : TxView) : Prop where
  noZc : NoZc L v
  sends : v.sends = []
  notifs : 0 < v.notifs
  reading : v.reading = none

/-- A zero-copy READ `z` is in progress, with `r` its history. -/
structure Serves (v : TxView) (z : Zc) (r : Reading) : Prop where
  zc : v.zc = some z
  reading : v.reading = some r
  plan : r.plan = z.plan
  notifs : v.notifs = 0
  pending : v.pendingZc = none
  goesOn : v.last = false
  mark : r.mark ≤ v.wire.length

/-- The pipe is being filled. -/
structure Filling (L : Prop) (v : TxView) (z : Zc) (r : Reading) : Prop extends Serves v z r where
  sequential : z.linked = false
  unlinked : r.linked = false
  sends : v.sends = []
  spliceIns : v.spliceIns =
    [⟨z.plan.fd, z.plan.offset + UInt64.ofNat z.got, z.want - z.got⟩]
  spliceOuts : v.spliceOuts = []
  chain : v.chain = []
  broken : v.broken = false
  pipe : L → v.pipe = r.data
  got : z.got = r.data.length
  room : z.got ≤ z.want
  want : z.want ≤ z.plan.length.toNat
  runs : Runs z.plan.fd z.plan.offset r.splices
  written : v.wire.drop r.mark = []

/-- The header is being sent. -/
structure Heading (L : Prop) (v : TxView) (z : Zc) (r : Reading) : Prop extends Serves v z r where
  sequential : z.linked = false
  unlinked : r.linked = false
  sends : v.sends = [⟨false, v.txOff, v.tx.length - v.txOff⟩]
  copied : v.sendIsZc = false
  rest : v.txOff < v.tx.length
  spliceIns : v.spliceIns = []
  spliceOuts : v.spliceOuts = []
  chain : v.chain = []
  broken : v.broken = false
  pipe : L → v.pipe = r.data
  outLeft : z.outLeft = r.data.length
  sound : r.Sound
  tx : v.tx = r.head
  written : v.wire.drop r.mark = v.tx.take v.txOff

/-- The pipe is being emptied. -/
structure Emptying (L : Prop) (v : TxView) (z : Zc) (r : Reading) : Prop extends Serves v z r where
  sequential : z.linked = false
  sends : v.sends = []
  spliceIns : v.spliceIns = []
  spliceOuts : v.spliceOuts = [z.outLeft]
  chain : v.chain = []
  broken : v.broken = false
  outLeft : L → z.outLeft = v.pipe.length
  sound : r.Sound
  written : L → v.wire.drop r.mark ++ v.pipe = r.head ++ r.data

/-- How far a linked chain has come.  Unless it is broken, the whole payload is in the pipe after
the first operation, and after the second the socket has what the send took of the header. -/
inductive Stage (L : Prop) (v : TxView) (z : Zc) (r : Reading) : Prop
  | three (chain : v.chain = [.spliceIn ⟨z.plan.fd, z.plan.offset, z.plan.length.toNat⟩,
        .send ⟨false, 0, v.tx.length⟩, .spliceOut z.plan.length.toNat])
      (left : z.chain = 3) (whole : v.broken = false) (splices : r.splices = [])
      (pipe : L → v.pipe = []) (written : v.wire.drop r.mark = [])
  | two (chain : v.chain = [.send ⟨false, 0, v.tx.length⟩, .spliceOut z.plan.length.toNat])
      (left : z.chain = 2)
      (good : v.broken = false → Spliced z.plan r ∧ (L → v.pipe = r.data) ∧
        v.wire.drop r.mark = [])
  | one (chain : v.chain = [.spliceOut z.plan.length.toNat]) (left : z.chain = 1)
      (good : v.broken = false → Spliced z.plan r ∧ (L → v.pipe = r.data) ∧
        v.wire.drop r.mark = v.tx.take r.hdr ∧ r.hdr ≤ v.tx.length)

/-- The operations are linked. -/
structure Chained (L : Prop) (v : TxView) (z : Zc) (r : Reading) : Prop extends Serves v z r where
  together : z.linked = true
  linked : r.linked = true
  asked : z.plan.linked = true
  sends : v.sends = []
  spliceIns : v.spliceIns = []
  spliceOuts : v.spliceOuts = []
  tx : v.tx = buildReadRespPrefix z.plan z.plan.length
  outLeft : z.outLeft = z.plan.length.toNat
  stage : Stage L v z r

inductive TxInv (L : Prop) (v : TxView) : Prop
  | idle (htxm : v.txm = .idle) (h : Idle L v)
  | send (htxm : v.txm = .send) (h : Sending L v)
  | drain (htxm : v.txm = .drain) (h : Draining L v)
  | zcIn (htxm : v.txm = .zcIn) {z : Zc} {r : Reading} (h : Filling L v z r)
  | zcHdr (htxm : v.txm = .zcHdr) {z : Zc} {r : Reading} (h : Heading L v z r)
  | zcOut (htxm : v.txm = .zcOut) {z : Zc} {r : Reading} (h : Emptying L v z r)
  | chained (htxm : v.txm = .zcOut) {z : Zc} {r : Reading} (h : Chained L v z r)

theorem TxInv.of_idle (h : TxInv L v) (hidle : v.txm = .idle) : Idle L v := by
  cases h with
  | idle _ h => exact h
  | _ htxm => exact absurd (htxm.symm.trans hidle) (by simp)

/-- The invariant of a connection between completions. -/
def Settled (L : Prop) (s : State σ) : Prop := Shut L s ∨ (Base L s ∧ TxInv L s.txView)

end RocketSmbd.Ring
