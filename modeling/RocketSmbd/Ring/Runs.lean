import RocketSmbd.Ring.Complete
import RocketSmbd.Ring.Splice

/-!
# Every run keeps the invariants

A step is the completion of an operation, with the handler it calls, a lease break, or a change of
the state that connections share.  The kernel may complete what it holds in any order and with any
result that the operation can have.
-/

namespace RocketSmbd.Ring

open ByteString Vfs Framing

variable {σ : Type} {L : Prop} {s s' : State σ} {cqe : Cqe}
variable {i : ℕ} {r : Except ℕ Bytes}

/-! ### A connection that is being torn down -/

/-- What still arrives on a connection that is given up changes nothing. -/
theorem Ended.completed (h : Ended s) (hc : Completed s cqe s') : Ended s' := by
  obtain ⟨limit, rest, hsplit, hover⟩ := h
  obtain ⟨d, hstream⟩ := hc.stream
  refine ⟨limit, rest ++ d, ?_, ?_⟩
  · rw [hstream, hc.frames]
    exact hsplit.append nbtNext_append d
  · unfold Over
    rw [hc.failed, hc.zc]
    exact hover.imp_left fun hbad => nbtNext_append_error hbad d

/-- A recv stays within the buffer, whoever reads what it brings. -/
theorem Shut.rx_completed (h : Shut L s) (hc : Completed s cqe s') :
    s'.conn.RxOk ∧
      ∀ op ∈ s'.kern.recvs, op = ⟨s'.conn.rxLen, s'.conn.rx.length - s'.conn.rxLen⟩ := by
  have hrx := h.rx
  have hlen : s'.conn.rx.length = s.conn.rx.length := by
    rcases hc.rx with hsame | ⟨op, hop, d, hd, hrx'⟩
    · rw [hsame]
    · rw [hrx']
      refine patch_length ?_
      rw [h.recvs op hop] at hd ⊢
      have := hrx.len
      dsimp only at hd ⊢
      omega
  refine ⟨⟨?_, ?_, ?_⟩, fun op hop => ?_⟩
  · rw [hc.rxOff, hc.rxLen]
    exact hrx.off
  · rw [hc.rxLen, hlen]
    exact hrx.len
  · rw [hlen]
    exact hrx.cap
  · rw [hlen, hc.rxLen]
    exact h.recvs op (hc.recvs op hop)

theorem Past.completed (h : Past L s) (hc : Completed s cqe s') : Past L s' :=
  ⟨hc.panicked.trans h.calm, hc.touches ▸ h.touches, hc.served ▸ h.served⟩

variable (ctx : Ctx σ) (ans : Answers)

/-- Completions are counted down, and the last one drops the connection. -/
theorem handleCqe_shut (h : Shut L s) (hc : Completed s cqe s') :
    Shut L (handleCqe ctx ans cqe s') := by
  have hpast := h.past.completed hc
  have hended := h.ended.completed hc
  obtain ⟨hrx, hrecvs⟩ := h.rx_completed hc
  unfold handleCqe
  cases hlive : s'.live with
  | true =>
    have hlive' : s.live = true := hc.live.symm.trans hlive
    have hclosing : s'.conn.closing = true := hc.closing.trans (h.closing hlive')
    have hcount := hc.inflight_account (h.count hlive')
    rw [if_neg (by simp)]
    dsimp only
    rw [if_pos (show (account cqe s').conn.closing = true from hclosing)]
    split_ifs with hzero
    · exact finalizeClose_shut ctx ⟨hpast.calm, hpast.touches, hpast.served⟩ hended
        ⟨hrx.off, hrx.len, hrx.cap⟩ hrecvs (hcount.symm.trans hzero)
    · exact ⟨⟨hpast.calm, hpast.touches, hpast.served⟩, hended, fun _ => hclosing,
        fun _ => hcount, fun hdead => absurd (hlive.symm.trans hdead) (by simp),
        ⟨hrx.off, hrx.len, hrx.cap⟩, hrecvs⟩
  | false =>
    rw [if_pos (by simp)]
    refine ⟨hpast, hended, fun h => absurd (hlive.symm.trans h) (by simp),
      fun h => absurd (hlive.symm.trans h) (by simp), fun _ => ?_, hrx, hrecvs⟩
    have hgone := h.gone (hc.live.symm.trans hlive)
    have hcount := hc.count
    split_ifs at hcount <;> omega

/-! ### The parts of a step -/

/-- The only operation of its kind. -/
theorem of_getElem?_singleton {α : Type} {a b : α} {l : List α} (hl : l = [a])
    (h : l[i]? = some b) : b = a ∧ l.eraseIdx i = [] := by
  subst hl
  cases i with
  | zero => exact ⟨(Option.some.inj h).symm, rfl⟩
  | succ i => simp at h

theorem ne_nil_of_getElem? {α : Type} {a : α} {l : List α} (h : l[i]? = some a) :
    l ≠ [] := by
  rintro rfl
  simp at h

/-- A completion goes to its handler, and the count of the connection is right again. -/
theorem Base.handleCqe (h : Base L s) {d : Done} (hc : s.complete d = some (cqe, s')) :
    (account cqe s').conn.inflight = s'.kern.outstanding ∧ handleCqe ctx ans cqe s' =
      match cqe.op with
      | .recv => onRecv ctx ans cqe.res ((account cqe s').note cqe)
      | .send =>
        if cqe.notif then onSendNotif ctx ans ((account cqe s').note cqe)
        else onSend ctx ans cqe.res ((account cqe s').note cqe)
      | .spliceIn => onSpliceIn ctx ans cqe.res ((account cqe s').note cqe)
      | .spliceOut => onSpliceOut ctx ans cqe.res ((account cqe s').note cqe)
      | .inotify => onInotify ctx ans cqe.res ((account cqe s').note cqe) := by
  have hcompleted := complete_completed hc
  have hlive := hcompleted.live.trans h.live
  have hopened : ¬ (account cqe s').conn.closing = true := by
    simp [account, hcompleted.closing.trans h.opened]
  refine ⟨hcompleted.inflight_account h.count, ?_⟩
  unfold Ring.handleCqe
  rw [if_neg (by simp [hlive])]
  dsimp only
  cases cqe.op <;> exact if_neg hopened

/-- A socket that moves nothing has failed, unless the operation was interrupted. -/
theorem fails_of_moved {op : OpKind} {r : Except ℕ ℕ} {more : Bool}
    (hop : op = .recv ∨ op = .send ∨ op = .spliceOut) (hzero : moved r = 0)
    (hne : r ≠ .error eintr) : Cqe.fails ⟨op, r, more, false⟩ = true := by
  simp [Cqe.fails, hop, hzero, hne]

/-- Received bytes do not matter to a transmit side that is at work. -/
theorem TxInv.buffered {v : TxView} (h : TxInv L v) (hbusy : v.txm ≠ .idle) (b : Bytes) :
    TxInv L { v with buffered := b } := by
  cases h with
  | idle htxm _ => exact absurd htxm hbusy
  | send htxm h =>
    exact .send htxm { h with
      noZc := { h.noZc with }, answer := fun r hr => { h.answer r hr with } }
  | drain htxm h => exact .drain htxm { h with noZc := { h.noZc with } }
  | zcIn htxm h => exact .zcIn htxm { h with }
  | zcHdr htxm h => exact .zcHdr htxm { h with }
  | zcOut htxm h => exact .zcOut htxm { h with }
  | chained htxm h =>
    refine .chained htxm { h with stage := ?_ }
    cases h.stage with
    | three chain left whole splices pipe written =>
      exact .three chain left whole splices pipe written
    | two chain left good => exact .two chain left good
    | one chain left good => exact .one chain left good

/-- An idle connection whose buffer may be used. -/
theorem TxInv.ready (h : TxInv L s.txView) (hidle : s.conn.txm = .idle) {s' : State σ}
    (hbase : Base L s') {b : Bytes} (hview : s'.txView = { s.txView with buffered := b }) :
    Ready L s' := by
  have hv := h.of_idle hidle
  refine ⟨hbase, ?_, ?_, ?_, ?_⟩
  · rw [hview]
    exact { hv.free with noZc := { hv.free.noZc with } }
  · exact (congrArg TxView.txm hview).trans hidle
  · exact (congrArg TxView.pendingZc hview).trans hv.pending
  · exact (congrArg TxView.last hview).trans hv.goesOn

/-! ### Receiving -/

theorem extract_patch_append {b d : Bytes} {off len : ℕ} (hoff : off ≤ len)
    (hlen : len ≤ b.length) :
    (patch b len d).extract off (len + d.length) = b.extract off len ++ d := by
  have htake : (b.take len).length = len := List.length_take_of_le hlen
  have hcut : (b.take len ++ d ++ b.drop (len + d.length)).take (len + d.length) =
      b.take len ++ d := by
    rw [List.take_append_of_le_length (by rw [List.length_append, htake])]
    exact List.take_of_length_le (by rw [List.length_append, htake])
  unfold patch
  rw [List.extract_eq_drop_take', List.extract_eq_drop_take', hcut,
    List.drop_append_of_le_length (by omega)]

/-- A connection with a recv completed: its bytes follow those that are buffered. -/
def landed (d : Bytes) (failed : Bool) (s : State σ) : State σ :=
  { s with
    conn := { s.conn with
      inflight := s.conn.inflight - 1
      recvInflight := false
      rx := patch s.conn.rx s.conn.rxLen d
      rxLen := s.conn.rxLen + d.length }
    kern := { s.kern with recvs := [] }
    hist := { s.hist with stream := s.hist.stream ++ d, failed } }

theorem landed_base (h : Base L s) (harmed : s.conn.recvInflight = true) {d : Bytes}
    (hd : d.length ≤ s.conn.rx.length - s.conn.rxLen) (failed : Bool) :
    Base L (landed d failed s) ∧
      (landed d failed s).txView = { s.txView with buffered := s.conn.buffered ++ d } := by
  have hrx := h.rx
  have hoff := hrx.off
  have hlen := hrx.len
  have hbuffered : (landed d failed s).conn.buffered = s.conn.buffered ++ d :=
    extract_patch_append hoff hlen
  have hpatch : (patch s.conn.rx s.conn.rxLen d).length = s.conn.rx.length := by
    refine patch_length ?_
    omega
  have hops : s.kern.recvs.length = 1 := by
    rw [h.recvs, Conn.recvOps, if_pos harmed]
    rfl
  refine ⟨{ h with
    past := { h.past with }, count := ?_, recvs := ?_, rx := ⟨?_, ?_, ?_⟩, sync := ?_ }, ?_⟩
  · have := h.count
    simp only [landed, Kernel.outstanding, List.length_nil] at this ⊢
    omega
  · exact (Conn.recvOps_of_not rfl).symm
  · exact Nat.le_add_right_of_le hoff
  · show s.conn.rxLen + d.length ≤ (patch s.conn.rx s.conn.rxLen d).length
    omega
  · show (patch s.conn.rx s.conn.rxLen d).length ≤ _
    rw [hpatch]
    exact hrx.cap
  · rw [hbuffered]
    exact h.sync.append nbtNext_append d
  · show { s.txView with buffered := (landed d failed s).conn.buffered } = _
    rw [hbuffered]

theorem recv_settled (h : Base L s) (hinv : TxInv L s.txView)
    (hc : s.complete (.recv i r) = some (cqe, s')) :
    Settled L (handleCqe ctx ans cqe s') := by
  obtain ⟨-, hopen⟩ := h.handleCqe ctx ans hc
  obtain ⟨op, hop, hwithin, hcqe, hs'⟩ := complete_recv hc
  have harmed : s.conn.recvInflight = true := by
    rw [← Bool.not_eq_false]
    intro hidle
    rw [h.recvs, Conn.recvOps_of_not hidle] at hop
    simp at hop
  have hops : s.kern.recvs = [⟨s.conn.rxLen, s.conn.rx.length - s.conn.rxLen⟩] := by
    rw [h.recvs, Conn.recvOps, if_pos harmed]
  obtain ⟨rfl, herase⟩ := of_getElem?_singleton hops hop
  rw [hopen]
  rw [herase] at hs'
  subst hcqe hs'
  cases r with
  | error e =>
    obtain ⟨hbase, hview⟩ := landed_base h harmed (d := []) (Nat.zero_le _)
      (Cqe.fails ⟨.recv, count (.error e), false, false⟩)
    rw [List.append_nil] at hview
    show Settled L (if e = eintr then maybeArmRecv ctx (landed [] _ s) else
      closeConnRing ctx (landed [] _ s))
    split_ifs with heintr
    · refine maybeArmRecv_settled ctx hbase ?_
      rw [hview]
      exact hinv
    · refine Or.inl (hbase.close ctx (Or.inr (Or.inl ?_)))
      exact fails_of_moved (Or.inl rfl) rfl fun h => heintr (Except.error.inj h)
  | ok d =>
    obtain ⟨hbase, hview⟩ := landed_base h harmed (d := d) hwithin
      (Cqe.fails ⟨.recv, count (.ok d), false, false⟩)
    cases d with
    | nil => exact Or.inl (hbase.close ctx (Or.inr (Or.inl rfl)))
    | cons x d =>
      show Settled L (if s.conn.txm = .idle then drive ctx ans (landed (x :: d) _ s)
        else maybeArmRecv ctx (landed (x :: d) _ s))
      split_ifs with hidle
      · exact drive_settled ctx ans (hinv.ready hidle hbase hview)
      · refine maybeArmRecv_settled ctx hbase ?_
        rw [hview]
        exact hinv.buffered hidle _

/-! ### Sending -/

theorem send_settled (h : Base L s) (hinv : TxInv L s.txView)
    {r : Except ℕ ℕ} {more : Bool} (hc : s.complete (.send i r more) = some (cqe, s')) :
    Settled L (handleCqe ctx ans cqe s') := by
  obtain ⟨hcount, hopen⟩ := h.handleCqe ctx ans hc
  obtain ⟨op, hop, hwithin, hmore, hcqe, hs'⟩ := complete_send hc
  rw [hopen]
  have hnotifs : (account cqe s').conn.notifPending = s'.kern.notifs := by
    have := h.notifs
    subst hcqe hs'
    cases more <;> simpa [account, State.emitTx] using this
  have hbase : Base L ((account cqe s').note cqe) := by
    subst hcqe hs'
    exact { h with
      past := { h.past with }, count := hcount, notifs := hnotifs, rx := { h.rx with } }
  rcases hinv.of_sends (ne_nil_of_getElem? hop) with ⟨htxm, hv⟩ | ⟨htxm, z, rd, hv⟩
  · obtain ⟨rfl, herase⟩ := of_getElem?_singleton hv.sends hop
    rw [show s.kern.sends.eraseIdx i = [] from herase] at hs'
    subst hcqe hs'
    refine onSend_sending_settled ctx ans hbase htxm (hv.noZc.congr rfl) rfl hv.rest hwithin
      (fails_of_moved (Or.inr (Or.inl rfl))) fun rd hrd => ?_
    have herr := hv.answer rd hrd
    have hcopied : more = false := by
      rw [← Bool.not_eq_true]
      intro h
      exact absurd (herr.copied.symm.trans (hmore h)) (by simp)
    subst hcopied
    exact { herr with
      mark := le_length_append herr.mark _
      written := written_send herr.mark herr.written (moved r) }
  · obtain ⟨rfl, herase⟩ := of_getElem?_singleton hv.sends hop
    rw [show s.kern.sends.eraseIdx i = [] from herase] at hs'
    have hcopied : more = false := by
      rw [← Bool.not_eq_true]
      exact fun h => absurd (hmore h) (by simp)
    subst hcqe hs' hcopied
    exact onSend_heading_settled ctx ans hbase hv htxm hwithin
      (fails_of_moved (Or.inr (Or.inl rfl))) rfl

theorem notif_settled (h : Base L s) (hinv : TxInv L s.txView)
    (hc : s.complete .notif = some (cqe, s')) : Settled L (handleCqe ctx ans cqe s') := by
  obtain ⟨hcount, hopen⟩ := h.handleCqe ctx ans hc
  obtain ⟨hpos, hcqe, hs'⟩ := complete_notif hc
  rw [hopen]
  subst hcqe hs'
  have hpending := h.notifs
  have hbase : Base L { s with
      conn := { s.conn with
        inflight := s.conn.inflight - 1, notifPending := s.conn.notifPending - 1 }
      kern := { s.kern with notifs := s.kern.notifs - 1 }
      hist := { s.hist with failed := false } } := by
    refine { h with past := { h.past with }, count := hcount, notifs := ?_, rx := { h.rx with } }
    exact congrArg (· - 1) hpending
  show Settled L (if s.conn.notifPending - 1 = 0 ∧ s.conn.txm = .drain then _ else _)
  rcases hinv.of_notifs hpos with ⟨htxm, hv⟩ | ⟨htxm, hv⟩
  · have hdrain : ¬ (s.conn.notifPending - 1 = 0 ∧ s.conn.txm = .drain) := by
      rintro ⟨-, hdrain⟩
      exact absurd (htxm.symm.trans hdrain) (by simp)
    rw [if_neg hdrain]
    refine Or.inr ⟨hbase, .send htxm ⟨hv.noZc.congr rfl, hv.sends, hv.rest, fun r hr => ?_⟩⟩
    exact absurd (hv.answer r hr).notifs (Nat.pos_iff_ne_zero.1 hpos)
  · have hzc : NoZc L s.txView := hv.noZc
    split_ifs with hlast
    · refine finishSend_settled ctx ans hbase (hzc.congr rfl) hv.sends ?_ fun r hr => ?_
      · show s.kern.notifs - 1 = 0
        rw [← hpending]
        exact hlast.1
      · exact absurd (hv.reading.symm.trans hr) (by simp)
    · refine Or.inr ⟨hbase, .drain htxm ⟨hzc.congr rfl, hv.sends, ?_, hv.reading⟩⟩
      show 0 < s.kern.notifs - 1
      rw [← hpending]
      exact Nat.pos_of_ne_zero fun hzero => hlast ⟨hzero, htxm⟩

/-! ### Zero-copy READs -/

theorem spliceIn_settled {ans : Answers} (hread : L → ∀ i, 0 < ans.read i)
    (h : Base L s) (hinv : TxInv L s.txView)
    (hc : s.complete (.spliceIn i r) = some (cqe, s')) : Settled L (handleCqe ctx ans cqe s') := by
  obtain ⟨hcount, hopen⟩ := h.handleCqe ctx ans hc
  obtain ⟨op, hop, hwithin, hcqe, hs'⟩ := complete_spliceIn hc
  rw [hopen]
  obtain ⟨htxm, z, rd, hv⟩ := hinv.of_spliceIns (ne_nil_of_getElem? hop)
  obtain ⟨rfl, herase⟩ := of_getElem?_singleton hv.spliceIns hop
  rw [show s.kern.spliceIns.eraseIdx i = [] from herase] at hs'
  subst hcqe hs'
  refine onSpliceIn_settled ctx hread (h.recount hcount rfl) hv
    htxm (length_bytesOf_le hwithin) ?_
  have hreading : s.hist.reading = some rd := hv.reading
  simp only [State.txView, State.fillPipe, account, hreading, Option.map_some]
  rfl

section

variable (ctx : Ctx σ) (ans : Answers) (h : Base L s) (hinv : TxInv L s.txView)
include h hinv

theorem spliceOut_settled {r : Except ℕ ℕ} (hc : s.complete (.spliceOut i r) = some (cqe, s')) :
    Settled L (handleCqe ctx ans cqe s') := by
  obtain ⟨hcount, hopen⟩ := h.handleCqe ctx ans hc
  obtain ⟨len, hop, -, hcqe, hs'⟩ := complete_spliceOut hc
  rw [hopen]
  obtain ⟨htxm, z, rd, hv⟩ := hinv.of_spliceOuts (ne_nil_of_getElem? hop)
  obtain ⟨rfl, herase⟩ := of_getElem?_singleton hv.spliceOuts hop
  rw [show s.kern.spliceOuts.eraseIdx i = [] from herase] at hs'
  subst hcqe hs'
  exact onSpliceOut_settled ctx ans (h.recount hcount rfl) hv htxm
    (fails_of_moved (Or.inr (Or.inr rfl))) rfl

/-- The first operation of a chain tells how far it has come. -/
theorem spliceIn_linked_settled
    (hc : s.complete (.linkedIn r) = some (cqe, s')) : Settled L (handleCqe ctx ans cqe s') := by
  obtain ⟨hcount, hopen⟩ := h.handleCqe ctx ans hc
  rw [hopen]
  obtain ⟨op, rest, hhead, -, hcqe, hs'⟩ := complete_linkedIn hc
  obtain ⟨htxm, z, rd, hv⟩ := hinv.of_chain (show s.kern.chain ≠ [] by simp [hhead])
  have hreading : s.hist.reading = some rd := hv.reading
  cases hv.stage with
  | three chain left whole splices pipe written =>
    obtain ⟨hop, -⟩ := List.cons.inj (hhead.symm.trans chain)
    cases hop
    subst hcqe hs'
    refine linkedIn_settled ctx ans (h.recount hcount rfl) hv htxm chain left splices pipe
      written ?_
    simp only [State.txView, State.fillPipe, State.popChain, account, hreading, Option.map_some,
      decide_eq_true_eq]
    rfl
  | two chain left good | one chain left good => exact absurd (hhead.symm.trans chain) (by simp)

theorem send_linked_settled {r : Except ℕ ℕ} (hc : s.complete (.linkedSend r) = some (cqe, s')) :
    Settled L (handleCqe ctx ans cqe s') := by
  obtain ⟨hcount, hopen⟩ := h.handleCqe ctx ans hc
  rw [hopen]
  obtain ⟨op, rest, hhead, hwithin, hcqe, hs'⟩ := complete_linkedSend hc
  obtain ⟨htxm, z, rd, hv⟩ := hinv.of_chain (show s.kern.chain ≠ [] by simp [hhead])
  have hreading : s.hist.reading = some rd := hv.reading
  cases hv.stage with
  | three chain left whole splices pipe written | one chain left good =>
    exact absurd (hhead.symm.trans chain) (by simp)
  | two chain left good =>
    obtain ⟨hop, -⟩ := List.cons.inj (hhead.symm.trans chain)
    cases hop
    subst hcqe hs'
    refine linkedSend_settled ctx ans (h.recount hcount rfl) hv htxm chain left good hwithin ?_
    simp only [State.txView, State.emitTx, State.logHdr, State.popChain, account, hreading,
      Option.map_some]
    rfl

theorem spliceOut_linked_settled
    {r : Except ℕ ℕ} (hc : s.complete (.linkedOut r) = some (cqe, s')) :
    Settled L (handleCqe ctx ans cqe s') := by
  obtain ⟨hcount, hopen⟩ := h.handleCqe ctx ans hc
  rw [hopen]
  obtain ⟨len, rest, hhead, -, hallowed, hcqe, hs'⟩ := complete_linkedOut hc
  obtain ⟨htxm, z, rd, hv⟩ := hinv.of_chain (show s.kern.chain ≠ [] by simp [hhead])
  cases hv.stage with
  | three chain left whole splices pipe written | two chain left good =>
    exact absurd (hhead.symm.trans chain) (by simp)
  | one chain left good =>
    obtain ⟨hop, -⟩ := List.cons.inj (hhead.symm.trans chain)
    cases hop
    subst hcqe hs'
    refine linkedOut_settled ctx ans (h.recount hcount rfl) hv chain left good hallowed ?_
    simp only [State.txView, State.emitPipe, State.popChain, account, decide_eq_true_eq]
    rfl

end

/-! ### Change notification -/

/-- A connection with a read of its inotify instance completed. -/
def notifiedOf (d : Bytes) (s : State σ) : State σ :=
  { s with
    conn := { s.conn with inflight := s.conn.inflight - 1, ibuf := patch s.conn.ibuf 0 d }
    kern := { s.kern with inotifies := [] }
    hist := { s.hist with failed := false } }

/-- Events were read: what they complete is queued, and the read is armed again. -/
theorem notified_settled (n : ℕ) {t : State σ} {ifd : Fd}
    (hifd : t.conn.inotifyFd = some ifd)
    (h : Base L { t with conn := { t.conn with inotifyFd := none } }) (hinv : TxInv L t.txView) :
    Settled L (notified ctx ans n t) := by
  have halike := onInotify_alike ctx.srv t.shared.host.os t.conn.front (t.conn.ibuf.take n)
  unfold notified
  generalize RocketSmbd.onInotify ctx.srv t.shared.host.os t.conn.front (t.conn.ibuf.take n) = out
    at halike ⊢
  obtain ⟨os, f⟩ := out
  dsimp only at halike ⊢
  have hcap : frameCap f.proto = frameCap t.conn.proto := frameCap_alike halike
  have hfd : f.inotifyFd = some ifd := (halike.inotifyFd (by simp [Conn.front, hifd])).trans hifd
  obtain ⟨hbase, hview⟩ := armInotify_base (L := L)
    (s := { t.withOs os with conn := t.conn.withFront f })
    { h with past := { h.past with }, rx := { h.rx with } } (by simp [Conn.withFront, hfd])
  have hview : (armInotify { t.withOs os with conn := t.conn.withFront f }).txView = t.txView := by
    rw [hview]
    dsimp only [State.txView, Conn.withFront, State.withOs]
    rw [hcap]
    rfl
  have hbase := BaseAt.base hbase hview
  generalize armInotify { t.withOs os with conn := t.conn.withFront f } = t' at hbase hview ⊢
  split_ifs with hflush
  · have hidle : t.conn.txm = .idle := (congrArg TxView.txm hview).symm.trans hflush.1
    exact drive_settled ctx ans (hinv.ready hidle hbase hview)
  · refine Or.inr ⟨hbase, ?_⟩
    rw [hview]
    exact hinv

theorem inotify_settled (h : Base L s) (hinv : TxInv L s.txView)
    (hc : s.complete (.inotify i r) = some (cqe, s')) :
    Settled L (handleCqe ctx ans cqe s') := by
  obtain ⟨hcount, hopen⟩ := h.handleCqe ctx ans hc
  rw [hopen]
  obtain ⟨len, hop, -, hcqe, hs'⟩ := complete_inotify hc
  obtain ⟨ifd, hifd⟩ : ∃ ifd, s.conn.inotifyFd = some ifd := by
    cases hfd : s.conn.inotifyFd with
    | some ifd => exact ⟨ifd, rfl⟩
    | none =>
      rw [h.inotifies, Conn.inotifyOps_of_none hfd] at hop
      simp at hop
  have hops : s.kern.inotifies = [s.conn.ibuf.length] := by
    simp [h.inotifies, Conn.inotifyOps, hifd]
  obtain ⟨-, herase⟩ := of_getElem?_singleton hops hop
  rw [herase] at hs'
  subst hcqe hs'
  have hbase : Base L { notifiedOf (bytesOf r) s with
      conn := { (notifiedOf (bytesOf r) s).conn with inotifyFd := none } } :=
    { h with past := { h.past with }, count := hcount, inotifies := rfl, rx := { h.rx with } }
  have hdied : Settled L (inotifyDied ctx (notifiedOf (bytesOf r) s)) := by
    unfold inotifyDied
    rw [show (notifiedOf (bytesOf r) s).conn.inotifyFd = some ifd from hifd]
    exact Or.inr ⟨hbase.of_view rfl, hinv⟩
  show Settled L (onInotify ctx ans (count r) (notifiedOf (bytesOf r) s))
  cases r with
  | error e =>
    show Settled L (if e = eintr ∨ e = eagain then armInotify (notifiedOf [] s)
      else inotifyDied ctx (notifiedOf [] s))
    split_ifs with hretry
    · obtain ⟨harmed, hview⟩ := armInotify_base hbase (by simp [notifiedOf, hifd])
      exact Or.inr ⟨harmed.base hview, (congrArg (TxInv L) hview).mpr hinv⟩
    · exact hdied
  | ok d =>
    cases d with
    | nil => exact hdied
    | cons x d => exact notified_settled ctx ans _ hifd hbase hinv

/-! ### Steps and runs -/

/-- What a run may assume of the reads that drain a pipe. -/
def Event.Reads : Event σ → Prop
  | .kernel _ ans => ∀ i, 0 < ans.read i
  | _ => True

theorem kernel_settled {ans : Answers} (hread : L → ∀ i, 0 < ans.read i)
    (h : Base L s) (hinv : TxInv L s.txView) {d : Done} (hc : s.complete d = some (cqe, s')) :
    Settled L (handleCqe ctx ans cqe s') := by
  cases d with
  | recv i r => exact recv_settled ctx ans h hinv hc
  | send i r more => exact send_settled ctx ans h hinv hc
  | notif => exact notif_settled ctx ans h hinv hc
  | spliceIn i r => exact spliceIn_settled ctx hread h hinv hc
  | spliceOut i r => exact spliceOut_settled ctx ans h hinv hc
  | inotify i r => exact inotify_settled ctx ans h hinv hc
  | linkedIn r => exact spliceIn_linked_settled ctx ans h hinv hc
  | linkedSend r => exact send_linked_settled ctx ans h hinv hc
  | linkedOut r => exact spliceOut_linked_settled ctx ans h hinv hc

theorem deliverBreak_settled (b : BreakMsg) (h : Settled L s) :
    Settled L (deliverBreak ctx ans b s) := by
  unfold deliverBreak
  split_ifs with hskip
  · exact h
  · push Not at hskip
    rcases h with hshut | ⟨hbase, hinv⟩
    · exact absurd (hshut.closing hskip.1) hskip.2.2
    · dsimp only
      split_ifs with hidle
      · exact drive_settled ctx ans (hinv.ready hidle (hbase.of_view rfl) rfl)
      · exact Or.inr ⟨hbase.of_view rfl, hinv⟩

/-- **One step.** -/
theorem step_settled (h : Settled L s) {e : Event σ} (he : L → e.Reads) :
    Settled L (step ctx s e) := by
  cases e with
  | kernel d ans =>
    unfold step
    dsimp only
    cases hc : s.complete d with
    | none => exact h
    | some out =>
      obtain ⟨cqe, s'⟩ := out
      rcases h with hshut | ⟨hbase, hinv⟩
      · exact Or.inl (handleCqe_shut ctx ans hshut (complete_completed hc))
      · exact kernel_settled ctx he hbase hinv hc
  | lease b ans => exact deliverBreak_settled ctx ans b h
  | others sh =>
    rcases h with hshut | ⟨hbase, hinv⟩
    · exact Or.inl { hshut with past := { hshut.past with } }
    · exact Or.inr ⟨hbase.of_view rfl, hinv⟩

theorem start_settled (id : ConnId) (gen : UInt16) (sh : Shared σ) :
    Settled L (start ctx id gen sh) := by
  have hlen : (zeros rxInitial).length = rxInitial := zeros_length _
  have hnil : (zeros rxInitial).extract 0 0 = [] := by simp [List.extract_eq_take_drop]
  have hcap : frameCap (ProtoConn.new ctx.srv id.1 id.2 gen) = preauthMaxFrame := rfl
  refine maybeArmRecv_settled ctx ⟨⟨rfl, fun t ht => ?_, fun _ e he => ?_⟩, rfl, rfl, rfl, rfl, rfl,
    rfl, ⟨le_rfl, Nat.zero_le _, ?_⟩, ?_⟩ (.idle ?_ ⟨⟨⟨rfl, rfl, rfl, rfl, rfl,
      fun _ => rfl⟩, rfl, rfl, rfl, rfl⟩, rfl, rfl, rfl, Or.inl ?_⟩)
  · cases ht
  · cases he
  · show (zeros rxInitial).length ≤ _
    rw [hlen]
    decide
  · show Split nbtNext 4 (some preauthMaxFrame) [] [] (some (frameCap _)) _
    rw [hcap]
    exact hnil ▸ .nil _ _
  · rfl
  · show nbtTotal _ ((zeros rxInitial).extract 0 0) = _
    rw [hnil]
    rfl

/-- **Every run.** -/
theorem run_settled (h : Settled L s) (es : List (Event σ))
    (hes : L → ∀ e ∈ es, e.Reads) : Settled L (run ctx s es) := by
  induction es generalizing s with
  | nil => exact h
  | cons e es ih =>
    refine ih (step_settled ctx h fun hlaw => hes hlaw e List.mem_cons_self) fun hlaw e' he' => ?_
    exact hes hlaw e' (List.mem_cons_of_mem e he')

end RocketSmbd.Ring
