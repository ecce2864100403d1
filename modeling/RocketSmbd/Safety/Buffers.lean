import RocketSmbd.Ring.Runs
import RocketSmbd.Sample

/-!
# Buffers that the kernel refers to, and the receive buffer

What `Settled` says of a connection at any point of any run: the count of its operations, the
buffers that are not written while the kernel uses them, and the frames that were cut off the
received stream.
-/

namespace RocketSmbd.Ring

open ByteString Vfs Framing

variable {σ : Type} {L : Prop} {s : State σ}

/-! ### Operations in flight -/

/-- The count of operations in flight is that of the completions to come, the connection is gone
only when none is to come, and no buffer was written, and no connection dropped, under the kernel's
hands. -/
structure Undisturbed (s : State σ) : Prop where
  count : s.live = true → s.conn.inflight = s.kern.outstanding
  gone : s.live = false → s.kern.outstanding = 0
  touches : ∀ t ∈ s.hist.touches, t.busy = false

theorem Settled.undisturbed (h : Settled L s) : Undisturbed s := by
  rcases h with h | ⟨h, -⟩
  · exact ⟨h.count, h.gone, h.past.touches⟩
  · exact ⟨fun _ => h.count, fun hdead => absurd (h.live.symm.trans hdead) (by simp),
      h.past.touches⟩

/-- **The kernel's buffers**: whatever completes in whatever order and with whatever result, no
buffer is moved, resized, replaced or appended to while an operation or a notification refers to
it, and the count by which the server knows is right. -/
theorem buffers_undisturbed (ctx : Ctx σ) (id : ConnId) (gen : UInt16) (sh : Shared σ)
    (es : List (Event σ)) : Undisturbed (run ctx (start ctx id gen sh) es) := by
  have hsettled : Settled False (run ctx (start ctx id gen sh) es) :=
    run_settled ctx (start_settled ctx id gen sh) es False.elim
  exact hsettled.undisturbed

/-! ### Reassembly -/

/-- Neither torn down nor about to be. -/
def State.Open (s : State σ) : Prop := s.live = true ∧ s.conn.closing = false

/-- No complete frame is buffered, and no prefix is bad. -/
def Conn.NoFrame (c : Conn) : Prop :=
  frameTotal c = .ok none ∨ ∃ total, frameTotal c = .ok (some total) ∧ c.buffered.length < total

/-- The frames that were processed are the first ones of the stream, each cut off under the limit
in force after the ones before it, and none after a frame that ends the connection.  While the
connection is open the buffer holds the rest of the stream, and in that no complete frame is left
once the transmit side is idle.  The connection is given up only for a reason: the next prefix is
not acceptable, or the last frame ends the connection; otherwise the socket has failed. -/
structure Reassembled (s : State σ) : Prop where
  bounds : s.conn.rxOff ≤ s.conn.rxLen ∧ s.conn.rxLen ≤ s.conn.rx.length
  rest : s.Open → Split nbtNext 4 (some preauthMaxFrame) s.hist.stream s.hist.frames s.conn.limit
    s.conn.buffered
  bytes : s.Open → s.hist.stream =
    (s.hist.frames.flatMap fun e => nbtPrefix e.1.length ++ e.1) ++ s.conn.buffered
  processed : s.Open → s.conn.txm = .idle → s.conn.NoFrame
  ended : ¬ s.Open → Ended s

/-- A frame with its prefix is what the server would send for it. -/
theorem nbtPrefix_take {limit : Option ℕ} {b : Bytes} {n : ℕ} (h : nbtNext limit b = .ok (some n))
    (hn : n ≤ b.length) :
    nbtPrefix ((b.take n).drop 4).length ++ (b.take n).drop 4 = b.take n := by
  cases limit with
  | none => cases h
  | some cap =>
    obtain ⟨len, rest, rfl, -, -, rfl⟩ := nbtTotal_some_iff.1 h
    have hfour : (nbtPrefix len).length = 4 := rfl
    have htake : (nbtPrefix len ++ rest).take (4 + len) = nbtPrefix len ++ rest.take len := by
      rw [← hfour, List.take_length_add_append]
    rw [List.length_append, hfour] at hn
    rw [htake, ← hfour, List.drop_left, List.length_take, Nat.min_eq_left (by omega)]

theorem Settled.base (h : Settled L s) (hopen : s.Open) : Base L s ∧ TxInv L s.txView := by
  rcases h with h | h
  · exact absurd ((h.closing hopen.1).symm.trans hopen.2) (by simp)
  · exact h

theorem Settled.reassembled (h : Settled L s) : Reassembled s := by
  refine ⟨?_, fun hopen => (h.base hopen).1.sync, fun hopen => ?_, fun hopen hidle => ?_,
    fun hover => ?_⟩
  · rcases h with h | ⟨h, -⟩
    · exact ⟨h.rx.off, h.rx.len⟩
    · exact ⟨h.rx.off, h.rx.len⟩
  · exact (h.base hopen).1.sync.flatMap (fun f => nbtPrefix f.length ++ f) fun _ _ _ =>
      nbtPrefix_take
  · exact ((h.base hopen).2.of_idle hidle).waits
  · rcases h with h | ⟨h, -⟩
    · exact h.ended
    · exact absurd ⟨h.live, h.opened⟩ hover

theorem frameCap_le (pc : ProtoConn) : frameCap pc ≤ maxFrame := by
  unfold frameCap
  split_ifs
  · exact le_rfl
  · decide

/-- What is buffered without being a frame leaves room in the largest buffer. -/
theorem Conn.NoFrame.length_lt {c : Conn} (h : c.NoFrame) : c.buffered.length < maxFrame + 4 := by
  rcases h with h | ⟨total, h, hlt⟩
  · have := nbtTotal_none_iff.1 h
    have : maxFrame = 4263936 := rfl
    omega
  · obtain ⟨len, -, -, -, hcap, rfl⟩ := nbtTotal_some_iff.1 h
    have := frameCap_le c.proto
    omega

/-- Compaction keeps the unconsumed bytes and puts them to the front. -/
theorem compact_front (hoff : s.conn.rxOff ≤ s.conn.rxLen)
    (hlen : s.conn.rxLen ≤ s.conn.rx.length) :
    (compact s).conn.buffered = s.conn.buffered ∧
      (compact s).conn.rxLen = s.conn.buffered.length := by
  have hbuffered : s.conn.buffered.length = s.conn.rxLen - s.conn.rxOff := by
    rw [Conn.buffered, List.extract_eq_take_drop, List.length_take, List.length_drop]
    omega
  unfold compact
  split_ifs with hpos
  · refine ⟨?_, hbuffered.symm⟩
    show (patch s.conn.rx 0 s.conn.buffered).extract 0 (s.conn.rxLen - s.conn.rxOff) = _
    rw [← hbuffered, extract_patch_zero]
  · refine ⟨rfl, ?_⟩
    rw [hbuffered]
    omega

theorem frameTotal_congr {c c' : Conn} (hb : c'.buffered = c.buffered)
    (hcap : frameCap c'.proto = frameCap c.proto) : frameTotal c' = frameTotal c := by
  unfold frameTotal
  rw [hb, hcap]

/-- The buffer grows until there is room for what is missing. -/
theorem postRecv_grow {needed : ℕ} (hneeded : s.conn.rxLen < needed)
    (hlen : s.conn.rxLen < maxFrame + 4) (hrecvs : s.kern.recvs = []) :
    ∃ op, (postRecv (grow needed s)).kern.recvs = [op] ∧ 0 < op.len := by
  have hroom : (grow needed s).conn.rxLen < (grow needed s).conn.rx.length := by
    unfold grow
    split_ifs with hgrow
    · show s.conn.rxLen < (resize s.conn.rx (min needed (maxFrame + 4 + rxMinRoom))).length
      rw [resize, List.length_append, List.length_take, zeros_length]
      omega
    · omega
  have hrecvs' : (grow needed s).kern.recvs = [] := by
    unfold grow
    split_ifs
    · exact hrecvs
    · exact hrecvs
  unfold postRecv
  rw [if_neg (Nat.not_le.2 hroom)]
  refine ⟨_, congrArg (· ++ _) hrecvs', ?_⟩
  exact Nat.sub_pos_of_lt hroom

/-- A recv with room for at least one byte is posted. -/
theorem maybeArmRecv_posts (ctx : Ctx σ) (hoff : s.conn.rxOff ≤ s.conn.rxLen)
    (hlen : s.conn.rxLen ≤ s.conn.rx.length) (hnone : s.conn.NoFrame)
    (hidle : s.conn.recvInflight = false) (hrecvs : s.kern.recvs = [])
    (hopen : s.conn.closing = false) (hafter : s.conn.closeAfterSend = false) :
    ∃ op, (maybeArmRecv ctx s).kern.recvs = [op] ∧ 0 < op.len := by
  obtain ⟨hbuffered, hfront⟩ := compact_front hoff hlen
  have hproto : (compact s).conn.proto = s.conn.proto := by
    unfold compact
    split_ifs
    · rfl
    · rfl
  have hrecvs' : (compact s).kern.recvs = [] := by
    unfold compact
    split_ifs
    · exact hrecvs
    · exact hrecvs
  have htotal := frameTotal_congr hbuffered (congrArg frameCap hproto)
  have hsmall : (compact s).conn.rxLen < maxFrame + 4 := by
    rw [hfront]
    exact hnone.length_lt
  unfold maybeArmRecv
  rw [if_neg (by simp [hidle, hopen, hafter])]
  dsimp only
  rw [htotal]
  rcases hnone with hnext | ⟨total, hnext, hlt⟩
  · rw [hnext]
    refine postRecv_grow ?_ hsmall hrecvs'
    exact Nat.lt_add_of_pos_right (by decide)
  · rw [hnext]
    refine postRecv_grow ?_ hsmall hrecvs'
    exact lt_of_lt_of_le (Nat.lt_add_of_pos_right (by decide)) (Nat.le_max_right _ _)

/-- A server, and the state it starts from. -/
def sampleCtx : Ctx Sample.Disk := ⟨Sample.srv false false, false⟩

def sampleShared : Shared Sample.Disk := (World.start 1 {}).shared

/-- Answers of a system in which everything works. -/
def sampleAnswers : Answers := ⟨some 65536, fun _ => 1⟩

/-- A connection that has received less than a prefix, before it posts its recv. -/
def sampleEmpty (d : Bytes) : State Sample.Disk where
  id := Sample.conn
  shared := sampleShared
  conn :=
    { gen := 0, proto := ProtoConn.new sampleCtx.srv 0 0 0, rx := patch (zeros rxInitial) 0 d
      rxLen := d.length }
  hist := { stream := d }

/-- The connection with its recv posted. -/
def sampleWaiting (d : Bytes) : State Sample.Disk :=
  { sampleEmpty d with
    conn := { (sampleEmpty d).conn with recvInflight := true, inflight := 1 }
    kern := { recvs := [⟨d.length, rxInitial - d.length⟩] } }

theorem sampleEmpty_buffered (d : Bytes) : (sampleEmpty d).conn.buffered = d :=
  extract_patch_zero _ _

theorem sampleEmpty_frameTotal {d : Bytes} (hd : d.length < 4) :
    frameTotal (sampleEmpty d).conn = .ok none := by
  rw [frameTotal, sampleEmpty_buffered]
  exact nbtTotal_none_iff.2 hd

theorem sampleEmpty_length {d : Bytes} (hd : d.length < 4) :
    (sampleEmpty d).conn.rx.length = rxInitial := by
  refine (patch_length ?_).trans (zeros_length _)
  rw [zeros_length, rxInitial]
  omega

theorem maybeArmRecv_sampleEmpty {d : Bytes} (hd : d.length < 4) :
    maybeArmRecv sampleCtx (sampleEmpty d) = sampleWaiting d := by
  have hlen := sampleEmpty_length hd
  have hrxLen : (sampleEmpty d).conn.rxLen = d.length := rfl
  have hgrown : ¬ (sampleEmpty d).conn.rx.length < rxNeeded (sampleEmpty d).conn none := by
    rw [hlen, rxNeeded, hrxLen, rxMinRoom, rxInitial]
    omega
  have hroom : ¬ (sampleEmpty d).conn.rx.length ≤ (sampleEmpty d).conn.rxLen := by
    rw [hlen, hrxLen, rxInitial]
    omega
  have hfront : ¬ 0 < (sampleEmpty d).conn.rxOff := Nat.lt_irrefl 0
  unfold maybeArmRecv compact
  rw [if_neg (by simp [sampleEmpty]), if_neg hfront]
  dsimp only
  rw [sampleEmpty_frameTotal hd]
  unfold grow postRecv
  dsimp only
  rw [if_neg hgrown, if_neg hroom, hlen]
  rfl

/-- It is what a connection is right after it was accepted. -/
theorem start_eq_sampleWaiting : start sampleCtx Sample.conn 0 sampleShared = sampleWaiting [] :=
  maybeArmRecv_sampleEmpty (d := []) (by decide)

/-- There is nothing to drive. -/
theorem drive_quiet (ctx : Ctx σ) (ans : Answers) (hdeferred : s.conn.deferred = [])
    (htx : s.conn.tx = []) (hnone : frameTotal s.conn = .ok none) :
    drive ctx ans s = maybeArmRecv ctx s := by
  have hflush : ¬ txFlush ≤ s.conn.tx.length - s.conn.txOff := by
    rw [htx, List.length_nil, Nat.zero_sub]
    decide
  unfold drive queueDeferred
  rw [if_pos (by simp [hdeferred])]
  dsimp only
  unfold driveFrames
  rw [if_neg hflush, hnone]
  unfold kick
  rw [if_pos (by simp [htx])]

theorem sampleWaiting_recv :
    step sampleCtx (sampleWaiting []) (.kernel (.recv 0 (.ok [0, 0])) sampleAnswers) =
      sampleWaiting [0, 0] := by
  have hnil : patch (zeros rxInitial) 0 [] = zeros rxInitial := by simp [patch]
  have hdrive : step sampleCtx (sampleWaiting []) (.kernel (.recv 0 (.ok [0, 0])) sampleAnswers) =
      drive sampleCtx sampleAnswers (sampleEmpty [0, 0]) := by
    simp only [step, State.complete, sampleWaiting, sampleEmpty, hnil, List.getElem?_cons_zero]
    simp [within, moved, count, Except.map, Except.toOption, handleCqe, account, State.note,
      Cqe.fails, onRecv, received, State.landRx, rxInitial, bytesOf]
  rw [hdrive, drive_quiet sampleCtx sampleAnswers rfl rfl (sampleEmpty_frameTotal (by decide)),
    maybeArmRecv_sampleEmpty (by decide)]

/-- A NEGOTIATE, another one, which ends the connection, and an ECHO. -/
def sampleStream : Bytes :=
  [Sample.negotiateReq 0 0 0 0, Sample.negotiateReq 0 0 1 0, Sample.echoReq 0 0 2 0].flatMap
    fun f => nbtPrefix f.length ++ f

/-- They come in two pieces, the first one half a prefix. -/
def sampleTalk : List (Event Sample.Disk) :=
  [.kernel (.recv 0 (.ok [0, 0])) sampleAnswers,
    .kernel (.recv 0 (.ok (sampleStream.drop 2))) sampleAnswers]

end RocketSmbd.Ring
