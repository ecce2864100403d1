import RocketSmbd.Ring.Notify

/-!
# Driving and sending keep the invariants
-/

namespace RocketSmbd.Ring

open ByteString Vfs Framing

variable {σ : Type} {L : Prop}
variable {s : State σ} {z : Zc}

/-! ### Submissions -/

theorem Base.submitSendOp (h : Base L s) (op : SendOp) : Base L (s.submitSendOp op) := by
  refine h.recount ?_ rfl
  have := h.count
  simp only [State.submitSendOp, Kernel.outstanding, List.length_append, List.length_singleton]
    at this ⊢
  omega

theorem Base.submitSpliceInOp (h : Base L s) (op : SpliceInOp) :
    Base L (s.submitSpliceInOp op) := by
  refine h.recount ?_ rfl
  have := h.count
  simp only [State.submitSpliceInOp, Kernel.outstanding, List.length_append, List.length_singleton]
    at this ⊢
  omega

theorem Base.submitSpliceOutOp (h : Base L s) (len : ℕ) :
    Base L (s.submitSpliceOutOp len) := by
  refine h.recount ?_ rfl
  have := h.count
  simp only [State.submitSpliceOutOp, Kernel.outstanding, List.length_append, List.length_singleton]
    at this ⊢
  omega

theorem Base.submitChain (h : Base L s) (a b c : LinkOp) :
    Base L (s.submitChain a b c) := by
  refine h.recount ?_ rfl
  have := h.count
  simp only [State.submitChain, Kernel.outstanding, List.length_append, List.length_cons,
    List.length_nil] at this ⊢
  omega

section

variable (hz : s.conn.zc = some z)
include hz

theorem submitSpliceIn_base (h : Base L s) :
    Base L (submitSpliceIn s) := by
  unfold submitSpliceIn
  rw [hz]
  exact h.submitSpliceInOp _

theorem submitSpliceOut_base (h : Base L s) :
    Base L (submitSpliceOut s) := by
  unfold submitSpliceOut
  rw [hz]
  exact h.submitSpliceOutOp _

theorem submitSpliceIn_view :
    (submitSpliceIn s).txView = { s.txView with
      spliceIns := s.txView.spliceIns ++
        [⟨z.plan.fd, z.plan.offset + UInt64.ofNat z.got, z.want - z.got⟩] } := by
  unfold submitSpliceIn
  rw [hz]
  rfl

theorem submitSpliceOut_view :
    (submitSpliceOut s).txView =
      { s.txView with spliceOuts := s.txView.spliceOuts ++ [z.outLeft] } := by
  unfold submitSpliceOut
  rw [hz]
  rfl

theorem submitZcLinked_base (h : Base L s) :
    Base L (submitZcLinked s) := by
  unfold submitZcLinked
  rw [hz]
  exact h.submitChain _ _ _

end

variable (ctx : Ctx σ)

theorem submitSend_base (more : Bool) (h : Base L s) :
    Base L (submitSend ctx more s) := by
  unfold submitSend
  refine Base.submitSendOp (h.of_view ?_) _
  rfl

/-- A send is submitted for the rest of the buffer, by copy if it announces more or is short. -/
theorem submitSend_view (more : Bool) (s : State σ) :
    ∃ z : Bool, (submitSend ctx more s).txView =
        { s.txView with
          sendIsZc := z
          sends := s.txView.sends ++
            [⟨z, s.txView.txOff, s.txView.tx.length - s.txView.txOff⟩] } ∧
      (more = true ∨ s.conn.tx.length < zcSendMin → z = false) := by
  refine ⟨_, rfl, fun h => ?_⟩
  rcases h with h | h
  · simp [submitSend, State.submitSendOp, h]
  · have hlt : ¬ zcSendMin ≤ s.conn.tx.length - s.conn.txOff := by omega
    simp [submitSend, State.submitSendOp, hlt]

theorem Free.not_busy (h : Free L s.txView) : s.kern.busy .tx = false :=
  not_busy_tx h.sends h.noZc.chain h.notifs

theorem replaceTx_base (h : Base L s) (hbusy : s.kern.busy .tx = false) (tx : Bytes) :
    Base L (replaceTx tx s) :=
  (h.touch hbusy).of_view rfl

theorem buildReadErr_length (plan : ZcReadPlan) (st : UInt32) :
    (buildReadErr plan st).length = 77 := by
  have hlen : (beginResp (zeros 4) (readPlanHdr plan) st false plan.treeId plan.sessionId ++
      errBody).length = 77 := by
    simp [beginResp, errBody]
  unfold buildReadErr finishNbtWith
  dsimp only
  rw [patch_length, hlen]
  rw [hlen]
  decide

theorem buildReadRespPrefix_length (plan : ZcReadPlan) (n : UInt32) :
    (buildReadRespPrefix plan n).length = 84 := by
  have hlen : (beginResp (zeros 4) (readPlanHdr plan) Status.success false plan.treeId
      plan.sessionId ++ p16 17 ++ p8 80 ++ p8 0 ++ p32 n ++ p32 0 ++ p32 0).length = 84 := by
    simp [beginResp]
  unfold buildReadRespPrefix finishNbtWith
  dsimp only
  rw [patch_length, hlen]
  rw [hlen]
  exact Nat.le_add_left _ _

/-- The rest of the buffer is on its way; an error response to a READ is sent by copy. -/
theorem submitSend_sending (htxm : s.conn.txm = .send)
    (hzc : NoZc L s.txView) (hsends : s.kern.sends = []) (hrest : s.conn.txOff < s.conn.tx.length)
    (hanswer : ∀ r, s.hist.reading = some r → ErrAnswer { s.txView with sendIsZc := false } r) :
    TxInv L (submitSend ctx false s).txView := by
  obtain ⟨z, hview, hz⟩ := submitSend_view ctx false s
  rw [hview]
  refine .send htxm ⟨hzc.congr rfl, ?_, hrest, fun r hr => ?_⟩
  · simp [hsends, State.txView]
  · have h := hanswer r hr
    obtain ⟨st, htx⟩ := h.tx
    have hlen : s.conn.tx.length = 77 := by
      rw [← buildReadErr_length r.plan st, ← htx]
      rfl
    exact { h with copied := hz (Or.inr (by rw [hlen]; decide)) }

/-- A buffered response is on its way. -/
theorem startSend_sending (h : Base L s) (hfree : Free L s.txView)
    (htx : s.conn.tx ≠ []) : Base L (startSend ctx s) ∧ TxInv L (startSend ctx s).txView := by
  refine ⟨submitSend_base ctx false (h.of_view rfl), ?_⟩
  have hzc := hfree.noZc
  refine submitSend_sending ctx rfl (hzc.congr rfl) hfree.sends ?_ fun r hr => ?_
  · have hoff : s.conn.txOff = 0 := hfree.txOff
    show s.conn.txOff < s.conn.tx.length
    rw [hoff]
    exact List.length_pos_iff.2 htx
  · exact absurd (hfree.reading.symm.trans hr) (by simp)

/-! ### The start of a zero-copy READ -/

/-- The error response to a READ, about to be sent. -/
theorem sendErr_inv {r : Reading} (hzc : NoZc L s.txView)
    (hsends : s.kern.sends = []) (hnotifs : s.kern.notifs = 0) (hpend : s.conn.pendingZc = none)
    (hr : s.hist.reading = some r) (hlinked : r.linked = false)
    (hmark : r.mark ≤ s.kern.wire.length) (hwire : s.kern.wire.drop r.mark = [])
    (htx : ∃ st, s.conn.tx = buildReadErr r.plan st) (hoff : s.conn.txOff = 0)
    (htxm : s.conn.txm = .send) : TxInv L (submitSend ctx false s).txView := by
  refine submitSend_sending ctx htxm hzc hsends ?_ fun r' hr' => ?_
  · obtain ⟨st, htx⟩ := htx
    rw [hoff, htx, buildReadErr_length]
    decide
  · obtain rfl : r = r' := Option.some.inj (hr.symm.trans hr')
    refine ⟨hlinked, hmark, htx, ?_, hnotifs, rfl, hpend⟩
    show s.kern.wire.drop r.mark = s.conn.tx.take s.conn.txOff
    rw [hwire, hoff, List.take_zero]

theorem startZc_inv (ans : Answers) (plan : ZcReadPlan)
    (h : Base L s) (hfree : Free L s.txView) (hpend : s.conn.pendingZc = none)
    (hgoes : s.conn.closeAfterSend = false) :
    Base L (startZc ctx ans plan s) ∧ TxInv L (startZc ctx ans plan s).txView := by
  have hbusy := hfree.not_busy
  have hzc := hfree.noZc
  have hdrop : s.kern.wire.drop s.kern.wire.length = [] := List.drop_length
  unfold startZc
  dsimp only
  cases pipeCapacity ans s.conn with
  | none =>
    refine ⟨submitSend_base ctx false ((h.touch hbusy).of_view rfl), ?_⟩
    exact sendErr_inv ctx (hzc.congr rfl)
      hfree.sends hfree.notifs hpend rfl rfl le_rfl hdrop ⟨_, rfl⟩ rfl rfl
  | some cap =>
    dsimp only
    split_ifs with hlinked
    · have hmin : min plan.length.toNat cap = plan.length.toNat := Nat.min_eq_left hlinked.2
      have hchain : s.kern.chain = [] := hzc.chain
      refine ⟨submitZcLinked_base rfl ((h.touch hbusy).of_view rfl), ?_⟩
      refine .chained rfl ⟨⟨rfl, rfl, rfl, hfree.notifs, hpend, hgoes, le_rfl⟩, rfl, rfl,
        hlinked.1, hfree.sends, hzc.spliceIns, hzc.spliceOuts, rfl, rfl,
        .three ?_ rfl hzc.broken rfl hzc.pipe hdrop⟩
      simp only [State.txView, submitZcLinked, State.submitChain, replaceTx, State.setTx,
        State.touch, hchain, hmin, List.nil_append]
    · have hins : s.kern.spliceIns = [] := hzc.spliceIns
      refine ⟨submitSpliceIn_base rfl (h.of_view rfl), ?_⟩
      refine .zcIn rfl ⟨⟨rfl, rfl, rfl, hfree.notifs, hpend, hgoes, le_rfl⟩, rfl, rfl, hfree.sends,
        ?_, hzc.spliceOuts, hzc.chain, hzc.broken, hzc.pipe, rfl, Nat.zero_le _,
        Nat.min_le_left _ _,
        trivial, hdrop⟩
      simp [State.txView, submitSpliceIn, State.submitSpliceInOp, hins]

/-! ### Driving -/

/-- The server has worked on a frame, and the transmit buffer is in its hands. -/
structure ReadyAt (L : Prop) (limit : Option ℕ) (s : State σ) : Prop where
  base : BaseAt L limit s
  free : Free L s.txView
  txm : s.conn.txm = .idle
  pending : s.conn.pendingZc = none
  goesOn : s.conn.closeAfterSend = false

/-- The server may work on the next frame. -/
abbrev Ready (L : Prop) (s : State σ) : Prop := ReadyAt L s.conn.limit s

theorem ReadyAt.of_view {limit : Option ℕ} {s s' : State σ} (h : ReadyAt L limit s)
    (hbase : BaseAt L limit s') (hview : s'.txView = s.txView) : ReadyAt L limit s' := by
  refine ⟨hbase, hview ▸ h.free, ?_, ?_, ?_⟩
  · exact (congrArg TxView.txm hview).trans h.txm
  · exact (congrArg TxView.pendingZc hview).trans h.pending
  · exact (congrArg TxView.last hview).trans h.goesOn

theorem ReadyAt.ready (h : ReadyAt L (some (frameCap s.conn.proto)) s) : Ready L s := by
  have hlimit := Conn.limit_of_not h.goesOn
  rw [← hlimit] at h
  exact h

/-- Completed responses are appended to a free buffer. -/
theorem queueDeferred_ready (h : Ready L s) : Ready L (queueDeferred s) := by
  unfold queueDeferred
  split_ifs with hempty
  · exact h
  · obtain ⟨hbase, hfree, htxm, hpend, hgoes⟩ := h
    exact ⟨(Base.touch hbase hfree.not_busy).of_view rfl,
      { hfree with noZc := { hfree.noZc with } }, htxm, hpend, hgoes⟩

theorem extract_frame {b : Bytes} {off len total : ℕ} (htotal : total ≤ len - off) :
    b.extract (off + 4) (off + total) = ((b.extract off len).take total).drop 4 := by
  simp only [List.extract_eq_take_drop, List.take_take, List.drop_take, List.drop_drop]
  congr 1
  omega

theorem extract_rest (b : Bytes) (off len total : ℕ) :
    b.extract (off + total) len = (b.extract off len).drop total := by
  simp only [List.extract_eq_take_drop, List.drop_take, List.drop_drop]
  congr 1
  omega

section

variable (ctx : Ctx σ)

theorem limitAfter_congr {pc pc' : ProtoConn} (h : frameCap pc' = frameCap pc) (a : FrameAction) :
    limitAfter pc' a = limitAfter pc a := by
  cases a <;> simp [limitAfter, h]

/-- A complete frame is cut off the received bytes; its response is in the buffer, and its outcome
tells whether another one may follow. -/
theorem oneFrame_ready {total : ℕ} (h : Ready L s)
    (hnext : frameTotal s.conn = .ok (some total))
    (htotal : total ≤ s.conn.rxLen - s.conn.rxOff) :
    ReadyAt L (limitAfter (oneFrame ctx total s).2.conn.proto (oneFrame ctx total s).1)
        (oneFrame ctx total s).2 ∧
      (oneFrame ctx total s).2.conn.buffered = s.conn.buffered.drop total := by
  obtain ⟨hbase, hfree, htxm, hpend, hgoes⟩ := h
  have hrx := hbase.rx
  have hoff := hrx.off
  have hlen := length_buffered hrx
  have hlimit : nbtNext s.conn.limit s.conn.buffered = .ok (some total) := by
    rw [Conn.limit_of_not hgoes]
    exact hnext
  have hsync := hbase.sync.snoc hlimit (by rw [hlen]; exact htotal)
  unfold oneFrame
  dsimp only
  generalize hout : processFrame ctx.srv s.shared s.conn.proto
    (s.conn.rx.extract (s.conn.rxOff + 4) (s.conn.rxOff + total)) s.conn.tx = out
  have htouch := Base.touch hbase hfree.not_busy
  have hready : ReadyAt L (limitAfter out.pc out.action) { s.setTx out.tx with
      shared := out.shared
      conn := { (s.setTx out.tx).conn with proto := out.pc, rxOff := s.conn.rxOff + total }
      hist := { (s.setTx out.tx).hist with
        frames := s.hist.frames ++
          [(s.conn.rx.extract (s.conn.rxOff + 4) (s.conn.rxOff + total),
            limitAfter out.pc out.action)] } } := by
    refine ⟨{ hbase with past := { htouch.past with }, rx := ⟨?_, hrx.len, hrx.cap⟩, sync := ?_ },
      ⟨hfree.noZc.congr rfl, hfree.sends, hfree.notifs, hfree.txOff,
        hfree.reading⟩, htxm, hpend, hgoes⟩
    · show s.conn.rxOff + total ≤ s.conn.rxLen
      omega
    · have hsync := hsync (limitAfter out.pc out.action)
      dsimp only [State.setTx, State.touch, Conn.buffered] at hsync ⊢
      rw [extract_frame htotal, extract_rest]
      exact hsync
  have hrest := extract_rest s.conn.rx s.conn.rxOff s.conn.rxLen total
  split_ifs
  · exact ⟨hready, hrest⟩
  · obtain ⟨hbase', hview⟩ := serviceNotify_base ctx hready.base
    have hafter := limitAfter_congr (congrArg TxView.cap hview) out.action
    refine ⟨(congrArg (ReadyAt L · _) hafter).mpr ?_, (congrArg TxView.buffered hview).trans hrest⟩
    exact hready.of_view hbase' hview

/-- The responses are sent, or there are none and nothing is left to do. -/
theorem kick_settled (h : Ready L s)
    (hwaits : s.conn.tx = [] → Waits s.txView) : Settled L (kick ctx s) := by
  unfold kick
  split_ifs with hempty
  · have htx : s.conn.tx = [] := List.isEmpty_iff.1 hempty
    refine maybeArmRecv_settled ctx h.base ?_
    exact .idle h.txm ⟨h.free, htx, h.pending, h.goesOn, hwaits htx⟩
  · have htx : s.conn.tx ≠ [] := fun h => hempty (List.isEmpty_iff.2 h)
    obtain ⟨hbase, hinv⟩ := startSend_sending ctx h.base h.free htx
    exact maybeArmRecv_settled ctx hbase hinv

/-- After a frame that announces the end of the connection. -/
theorem respondClose_settled (h : ReadyAt L none s) :
    Settled L (if s.conn.tx.isEmpty then
        closeConnRing ctx { s with conn := { s.conn with closeAfterSend := true } }
      else startSend ctx { s with conn := { s.conn with closeAfterSend := true } }) := by
  have hbase : Base L { s with conn := { s.conn with closeAfterSend := true } } :=
    { h.base with past := { h.base.past with }, rx := { h.base.rx with } }
  have hfree : Free L (State.txView { s with conn := { s.conn with closeAfterSend := true } }) :=
    { h.free with noZc := { h.free.noZc with } }
  split_ifs with hempty
  · exact Or.inl (hbase.close ctx (Or.inl rfl))
  · have htx : s.conn.tx ≠ [] := fun h => hempty (List.isEmpty_iff.2 h)
    exact Or.inr (startSend_sending ctx hbase hfree htx)

/-- After a frame that is answered by a zero-copy READ. -/
theorem zcRead_settled (ans : Answers) (plan : ZcReadPlan) (h : Ready L s) :
    Settled L (if s.conn.tx.isEmpty then maybeArmRecv ctx (startZc ctx ans plan s)
      else maybeArmRecv ctx
        (startSend ctx { s with conn := { s.conn with pendingZc := some plan } })) := by
  split_ifs with hempty
  · obtain ⟨hbase, hinv⟩ := startZc_inv ctx ans plan h.base h.free h.pending h.goesOn
    exact maybeArmRecv_settled ctx hbase hinv
  · have htx : s.conn.tx ≠ [] := fun h => hempty (List.isEmpty_iff.2 h)
    have hfree := h.free
    have hbase : Base L { s with conn := { s.conn with pendingZc := some plan } } :=
      Base.of_view h.base rfl
    obtain ⟨hbase', hinv⟩ := startSend_sending ctx hbase
      { hfree with noZc := { hfree.noZc with } } htx
    exact maybeArmRecv_settled ctx hbase' hinv

/-- The loop ends with everything that can be processed processed: each round takes the prefix of a
frame at least, so the fuel outlasts the bytes. -/
theorem driveFrames_settled (ans : Answers) (fuel : ℕ) (h : Ready L s)
    (hfuel : s.conn.buffered.length < fuel) : Settled L (driveFrames ctx ans fuel s) := by
  induction fuel generalizing s with
  | zero => omega
  | succ fuel ih =>
    have hlen := length_buffered h.base.rx
    have hoff : s.conn.txOff = 0 := h.free.txOff
    unfold driveFrames
    split_ifs with hflush
    · refine kick_settled ctx h fun htx => ?_
      rw [htx, hoff] at hflush
      exact absurd hflush (by decide)
    cases hnext : frameTotal s.conn with
    | error e => exact Or.inl (h.base.close ctx (over_of_bad h.goesOn hnext))
    | ok next =>
      cases next with
      | none => exact kick_settled ctx h fun _ => Or.inl hnext
      | some total =>
        dsimp only
        split_ifs with hshort
        · refine kick_settled ctx h fun _ => Or.inr ⟨total, hnext, ?_⟩
          show s.conn.buffered.length < total
          omega
        · obtain ⟨hready, hrest⟩ := oneFrame_ready ctx h hnext (by omega)
          have hfour := four_le_nbtTotal hnext
          generalize oneFrame ctx total s = out at hready hrest ⊢
          obtain ⟨action, s'⟩ := out
          cases action with
          | respond =>
            refine ih hready.ready ?_
            rw [hrest, List.length_drop]
            omega
          | close => exact Or.inl (hready.base.close ctx (Or.inl rfl))
          | respondClose => exact respondClose_settled ctx hready
          | zcRead plan => exact zcRead_settled ctx ans plan hready.ready

theorem drive_settled (ans : Answers) (h : Ready L s) :
    Settled L (drive ctx ans s) := by
  have hready := queueDeferred_ready h
  refine driveFrames_settled ctx ans _ hready ?_
  rw [length_buffered hready.base.rx]
  exact Nat.lt_succ_self _

end

end RocketSmbd.Ring
