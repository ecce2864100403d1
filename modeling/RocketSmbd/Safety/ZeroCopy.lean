import RocketSmbd.Safety.Buffers

/-!
# Zero-copy READs on the socket

What a READ that was served without closing the connection has put on the socket.  The sequential
path sends what it announces: the header is computed from what the pipe holds, and the pipe is
emptied before the next READ.  The linked chain announces the whole range in advance, and relies on
the kernel to cancel the rest when an operation falls short; the kernel does so for a splice and not
for a send.
-/

namespace RocketSmbd.Ring

open ByteString Vfs Framing

variable {σ : Type} {s : State σ}
variable {e : Reading × Bytes}

/-! ### The sequential path -/

/-- How the sequential path begins its answer, with `n` bytes in the pipe. -/
def sequentialHead (plan : ZcReadPlan) (n : ℕ) : Bytes :=
  if n = 0 ∨ n < plan.minCount.toNat then buildReadErr plan Status.endOfFile
  else buildReadRespPrefix plan (UInt32.ofNat n)

/-- What the sequential path sends if the pipe holds `data`. -/
def sequentialAnswer (plan : ZcReadPlan) (data : Bytes) : Bytes :=
  if data.length = 0 ∨ data.length < plan.minCount.toNat then sequentialHead plan data.length
  else sequentialHead plan data.length ++ data

/-- What a READ served one operation at a time put on the socket: one error response, or the header
for as many bytes as were spliced, and these bytes, which the file had from the offset of the plan
on. -/
def SequentialRight (e : Reading × Bytes) : Prop :=
  (∃ st, e.2 = buildReadErr e.1.plan st) ∨
    (e.1.data.length ≤ e.1.plan.length.toNat ∧
      Runs e.1.plan.fd e.1.plan.offset e.1.splices ∧
      e.2 = buildReadRespPrefix e.1.plan (UInt32.ofNat e.1.data.length) ++ e.1.data ∧
      e.2 = sequentialAnswer e.1.plan e.1.data)

/-- Header and payload on the sequential path are its answer for what was spliced. -/
theorem Reading.Sound.answer {r : Reading} (h : r.Sound) (hlinked : r.linked = false) :
    r.head ++ r.data = sequentialAnswer r.plan r.data := by
  have henough := h.enough hlinked
  have hlong : ¬ (r.data.length = 0 ∨ r.data.length < r.plan.minCount.toNat) := by omega
  rw [sequentialAnswer, if_neg hlong, sequentialHead, if_neg hlong, Reading.head, hlinked]
  rfl

theorem ServedRight.sequential (h : ServedRight e)
    (hlinked : e.1.linked = false) : SequentialRight e := by
  rcases h with ⟨-, herr⟩ | ⟨hsound, hsent⟩
  · exact Or.inl herr
  · refine Or.inr ⟨hsound.length, hsound.runs, ?_, hsent.trans (hsound.answer hlinked)⟩
    rw [hsent, Reading.head, hlinked]
    rfl

/-- Only a plan that asks for it is served as a chain. -/
theorem ServedRight.unlinked (h : ServedRight e)
    (hplan : e.1.plan.linked = false) : e.1.linked = false := by
  rcases h with ⟨hlinked, -⟩ | ⟨hsound, -⟩
  · exact hlinked
  · rw [← Bool.not_eq_true]
    intro hlinked
    exact absurd ((hsound.linked hlinked).1.symm.trans hplan) (by simp)

theorem Settled.served (h : Settled True s) : ∀ e ∈ s.hist.served, ServedRight e := by
  rcases h with h | ⟨h, -⟩
  · exact h.past.served trivial
  · exact h.past.served trivial

theorem Settled.pipe_nil (h : Settled True s) (hopen : s.Open) (hidle : s.conn.txm = .idle) :
    s.kern.pipe = [] :=
  ((h.base hopen).2.of_idle hidle).free.noZc.pipe trivial

/-- **The sequential path**: header and payload agree, and nothing of one READ is left in the pipe
for the next, in every run from a settled state, such as that of a connection just accepted
(`start_settled`). -/
theorem sequential_read_served (ctx : Ctx σ) (hs : Settled True s) (es : List (Event σ))
    (hes : ∀ e ∈ es, e.Reads) :
    (∀ e ∈ (run ctx s es).hist.served,
        (e.1.plan.linked = false → e.1.linked = false) ∧
          (e.1.linked = false → SequentialRight e)) ∧
      ((run ctx s es).Open → (run ctx s es).conn.txm = .idle → (run ctx s es).kern.pipe = []) := by
  have hsettled : Settled True (run ctx s es) := run_settled ctx hs es fun _ => hes
  refine ⟨fun e he => ⟨?_, ?_⟩, hsettled.pipe_nil⟩
  · exact (hsettled.served e he).unlinked
  · exact (hsettled.served e he).sequential

/-- A READ of 64 KiB that lies within the file. -/
def samplePlan : ZcReadPlan where
  fd := 0
  offset := 0
  length := 65536
  minCount := 0
  msgId := 4
  creditCharge := 1
  credits := 1
  treeId := 1
  sessionId := 1
  linked := true

/-- A READ of six bytes, to be served one operation at a time. -/
def sampleShortPlan : ZcReadPlan := { samplePlan with length := 6, linked := false }

/-- A connection right after it was accepted. -/
def sampleIdle : State Sample.Disk := sampleWaiting []

theorem sampleIdle_settled (plan : ZcReadPlan) :
    Settled True (startZc sampleCtx sampleAnswers plan sampleIdle) := by
  have hsettled : Settled True sampleIdle := by
    rw [sampleIdle, ← start_eq_sampleWaiting]
    exact start_settled sampleCtx Sample.conn 0 sampleShared
  obtain ⟨hbase, hinv⟩ := hsettled.base ⟨rfl, rfl⟩
  exact Or.inr (startZc_inv _ _ _ hbase (hinv.of_idle rfl).free rfl rfl)

/-- The answers to every system call of a handler are the usual ones. -/
def sampleEvents (ds : List Done) : List (Event Sample.Disk) := ds.map (.kernel · sampleAnswers)

theorem sampleEvents_reads (ds : List Done) : ∀ e ∈ sampleEvents ds, e.Reads := by
  intro e he
  obtain ⟨d, -, rfl⟩ := List.mem_map.1 he
  exact fun i => Nat.one_pos

/-- Three of the six bytes, in two splices up to the end of the file; the header goes out in two
sends, and the bytes in two splices. -/
def sampleShort : State Sample.Disk :=
  run sampleCtx (startZc sampleCtx sampleAnswers sampleShortPlan sampleIdle)
    (sampleEvents [.spliceIn 0 (.ok [1, 2]), .spliceIn 0 (.ok [3]), .spliceIn 0 (.ok []),
      .send 0 (.ok 40) false, .send 0 (.ok 44) false, .spliceOut 0 (.ok 1), .spliceOut 0 (.ok 2)])

theorem sequential_read_served_short :
    sampleShort.hist.served.map Prod.snd =
        [buildReadRespPrefix sampleShortPlan 3 ++ [1, 2, 3]] ∧
      (∀ e ∈ sampleShort.hist.served, SequentialRight e) ∧ sampleShort.kern.pipe = [] := by
  obtain ⟨hserved, hpipe⟩ := sequential_read_served sampleCtx (sampleIdle_settled sampleShortPlan) _
    (sampleEvents_reads _)
  have hplans : ∀ e ∈ sampleShort.hist.served, e.1.plan.linked = false := by decide +kernel
  refine ⟨by decide +kernel, fun e he => ?_, hpipe ⟨?_, ?_⟩ ?_⟩
  · exact (hserved e he).2 ((hserved e he).1 (hplans e he))
  · decide +kernel
  · decide +kernel
  · decide +kernel

/-! ### The linked chain -/

/-- What a linked READ should put on the socket: the header for the whole range and the range, as
the sequential path would. -/
def LinkedRight (e : Reading × Bytes) : Prop :=
  Spliced e.1.plan e.1 ∧
    e.2 = buildReadRespPrefix e.1.plan e.1.plan.length ++ e.1.data ∧
    e.2 = sequentialAnswer e.1.plan e.1.data

theorem Spliced.length {plan : ZcReadPlan} {r : Reading} (h : Spliced plan r) :
    r.data.length = plan.length.toNat := by
  obtain ⟨data, hsplices, hlen⟩ := h
  simp [Reading.data, hsplices, hlen]

/-- A READ served by a chain has its whole payload, and as much of its header as was sent. -/
theorem ServedRight.linked_iff (h : ServedRight e) (hlinked : e.1.linked = true) :
    LinkedRight e ↔
      e.1.hdr = (buildReadRespPrefix e.1.plan e.1.plan.length).length ∧
        0 < e.1.plan.length ∧ e.1.plan.minCount ≤ e.1.plan.length := by
  obtain ⟨r, sent⟩ := e
  rcases h with ⟨hunlinked, -⟩ | ⟨hsound, hsent⟩
  · exact absurd (hunlinked.symm.trans hlinked) (by simp)
  dsimp only at hlinked hsound hsent ⊢
  obtain ⟨-, hspliced, hhdr⟩ := hsound.linked hlinked
  have hlen := hspliced.length
  have hfull := buildReadRespPrefix_length r.plan r.plan.length
  rw [Reading.head, hlinked, if_pos rfl] at hsent
  constructor
  · rintro ⟨-, hwhole, hseq⟩
    dsimp only at hwhole hseq
    have hsize : sent.length = 84 + r.data.length := by
      rw [hwhole, List.length_append, hfull]
    refine ⟨?_, ?_⟩
    · rw [hsent, List.length_append, List.length_take] at hsize
      omega
    · have hlong : ¬ (r.data.length = 0 ∨ r.data.length < r.plan.minCount.toNat) := by
        intro hshort
        rw [hseq, sequentialAnswer, if_pos hshort, sequentialHead, if_pos hshort,
          buildReadErr_length] at hsize
        omega
      rw [hlen] at hlong
      push Not at hlong
      exact ⟨UInt32.lt_iff_toNat_lt.2 (Nat.pos_of_ne_zero hlong.1),
        UInt32.le_iff_toNat_le.2 hlong.2⟩
  · rintro ⟨hhead, hpos, hmin⟩
    have hlong : ¬ (r.data.length = 0 ∨ r.data.length < r.plan.minCount.toNat) := by
      rw [hlen]
      have hpos := UInt32.lt_iff_toNat_lt.1 hpos
      have hmin := UInt32.le_iff_toNat_le.1 hmin
      rintro (hzero | hshort)
      · rw [hzero] at hpos
        exact absurd hpos (Nat.not_lt_zero _)
      · omega
    have hwhole : sent = buildReadRespPrefix r.plan r.plan.length ++ r.data := by
      rw [hsent, hhead, List.take_length]
    refine ⟨hspliced, hwhole, ?_⟩
    rw [sequentialAnswer, if_neg hlong, sequentialHead, if_neg hlong, hlen, UInt32.ofNat_toNat]
    exact hwhole

/-- **The linked chain** is right if the whole header was sent, and the READ asks for something and
for no more than it allows. -/
theorem linked_read_served (ctx : Ctx σ) (hs : Settled True s) (es : List (Event σ))
    (hes : ∀ e ∈ es, e.Reads) (e : Reading × Bytes) (he : e ∈ (run ctx s es).hist.served)
    (hlinked : e.1.linked = true) :
    LinkedRight e ↔
      e.1.hdr = (buildReadRespPrefix e.1.plan e.1.plan.length).length ∧
        0 < e.1.plan.length ∧ e.1.plan.minCount ≤ e.1.plan.length := by
  have hsettled : Settled True (run ctx s es) := run_settled ctx hs es fun _ => hes
  exact (hsettled.served e he).linked_iff hlinked

/-- A connection that waits for more has nothing to drive. -/
theorem drive_armed (ctx : Ctx σ) (ans : Answers) (hdeferred : s.conn.deferred = [])
    (htx : s.conn.tx = []) (hrx : s.conn.rxLen = s.conn.rxOff)
    (harmed : s.conn.recvInflight = true) : drive ctx ans s = s := by
  have hempty : s.conn.buffered = [] := by
    rw [Conn.buffered, hrx, List.extract_eq_take_drop, Nat.sub_self, List.take_zero]
  rw [drive_quiet ctx ans hdeferred htx (by rw [frameTotal, hempty]; rfl), maybeArmRecv,
    if_pos (Or.inl harmed)]

/-- The chain completes: it reads `d`, and sends `n` bytes of the header. -/
def sampleChain (d : Bytes) (n : ℕ) : List (Event Sample.Disk) :=
  sampleEvents [.linkedIn (.ok d), .linkedSend (.ok n), .linkedOut (.ok 65536)]

/-- The READ as such a chain serves it. -/
def sampleServed (d : Bytes) (n : ℕ) : Reading × Bytes :=
  ({ plan := samplePlan, linked := true, mark := 0, splices := [(⟨0, 0, 65536⟩, d)]
     hdr := n }, (buildReadRespPrefix samplePlan 65536).take n ++ d)

theorem sampleChain_served {d : Bytes} (hd : d.length = 65536) {n : ℕ} (hn : n ≤ 84) :
    (run sampleCtx (startZc sampleCtx sampleAnswers samplePlan sampleIdle)
      (sampleChain d n)).hist.served = [sampleServed d n] := by
  have hcount : count (.ok d) = .ok 65536 := congrArg Except.ok hd
  have hhdr : (buildReadRespPrefix samplePlan 65536).length = 84 :=
    buildReadRespPrefix_length _ _
  have hmoved : ∀ n : ℕ, moved (.ok n) = n := fun _ => rfl
  have htake : d.take 65536 = d := List.take_of_length_le (le_of_eq hd)
  have hlength : samplePlan.length = 65536 := rfl
  have hlinked : samplePlan.linked = true := rfl
  have hfd : samplePlan.fd = 0 := rfl
  have hoffset : samplePlan.offset = 0 := rfl
  simp [run, sampleChain, sampleEvents, step, State.complete, sampleIdle, sampleWaiting,
    sampleEmpty, startZc, pipeCapacity, sampleAnswers, submitZcLinked, State.submitChain, replaceTx,
    State.setTx, State.touch, within, allowed, handleCqe, account, State.note, onSpliceIn, onSend,
    onSpliceOut, onLinkedCqe, State.popChain, State.fillPipe, State.logHdr, State.emitTx,
    State.emitPipe, finishZc, State.goIdle, State.closeFd, State.withOs, drive_armed,
    Except.toOption, hmoved, hcount, hd, hhdr, hn, htake, hlength, hlinked, hfd, hoffset,
    sampleServed]

/-- With the whole header sent the answer is right. -/
theorem linked_read_served_whole : LinkedRight (sampleServed (zeros 65536) 84) := by
  refine (linked_read_served sampleCtx (sampleIdle_settled samplePlan)
    (sampleChain (zeros 65536) 84) (sampleEvents_reads _) _ ?_ rfl).2 ⟨?_, by decide, by decide⟩
  · rw [sampleChain_served (zeros_length _) le_rfl]
    exact List.mem_singleton_self _
  · exact (buildReadRespPrefix_length _ _).symm

/-- A short send of the header goes unnoticed: the client gets 40 bytes of it and then the file. -/
theorem linked_read_short_header :
    ∃ e ∈ (run sampleCtx (startZc sampleCtx sampleAnswers samplePlan sampleIdle)
        (sampleChain (zeros 65536) 40)).hist.served,
      e.1.linked = true ∧ ¬ LinkedRight e := by
  rw [sampleChain_served (zeros_length _) (by decide)]
  refine ⟨_, List.mem_singleton_self _, rfl, ?_⟩
  rintro ⟨-, hwhole, -⟩
  have hlen := congrArg List.length hwhole
  have hhdr := buildReadRespPrefix_length samplePlan 65536
  have hplan : samplePlan.length = 65536 := rfl
  simp only [sampleServed, List.length_append, List.length_take, hplan, hhdr, Reading.data,
    List.map_cons, List.map_nil, List.flatten_cons, List.flatten_nil, List.append_nil] at hlen
  omega

end RocketSmbd.Ring
