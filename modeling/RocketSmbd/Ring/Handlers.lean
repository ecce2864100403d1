import RocketSmbd.Ring.Transmit

/-!
# The handlers of completions keep the invariants

Each handler is called when the kernel has done its part: the operation that completed is no longer
outstanding, and what it moved is on the socket or in the pipe.
-/

namespace RocketSmbd.Ring

open ByteString Vfs Framing

variable {σ : Type} {L : Prop}
variable {s : State σ}

/-! ### The end of a response -/

theorem goIdle_base (h : Base L s)
    (hserved : L → ∀ r, s.hist.reading = some r → ServedRight (r, s.kern.wire.drop r.mark)) :
    Base L s.goIdle := by
  refine { h with past := { h.past with served := fun hlaw e he => ?_ }, rx := { h.rx with } }
  rcases List.mem_append.1 he with he | he
  · exact h.past.served hlaw e he
  · cases hr : s.hist.reading with
    | none => simp [hr] at he
    | some r =>
      simp only [hr, Option.map_some, Option.toList_some, List.mem_singleton] at he
      rw [he]
      exact hserved hlaw r hr

/-- The buffer has been sent and released. -/
theorem finishSend_settled (ctx : Ctx σ) (ans : Answers) (h : Base L s)
    (hzc : NoZc L s.txView) (hsends : s.kern.sends = []) (hnotifs : s.kern.notifs = 0)
    (hanswer : ∀ r, s.hist.reading = some r → r.linked = false ∧
      (∃ st, s.kern.wire.drop r.mark = buildReadErr r.plan st) ∧ s.conn.pendingZc = none) :
    Settled L (finishSend ctx ans s) := by
  have hbusy := not_busy_tx hsends hzc.chain hnotifs
  have hbase : Base L (replaceTx [] s) := replaceTx_base h hbusy []
  unfold finishSend
  split_ifs with hclose
  · -- the last frame has been answered
    exact Or.inl (h.close ctx (Or.inl (by rw [Conn.limit, if_pos hclose]; rfl)))
  have hgoes : s.conn.closeAfterSend = false := Bool.eq_false_iff.2 hclose
  dsimp only
  cases hpend : (replaceTx [] s).conn.pendingZc with
  | some plan =>
    -- no READ is being answered while another one waits
    have hreading : s.hist.reading = none := by
      cases hr : s.hist.reading with
      | none => rfl
      | some r => exact absurd ((hanswer r hr).2.2.symm.trans hpend) (by simp)
    refine Or.inr (startZc_inv ctx ans plan (hbase.of_view rfl) ?_ rfl hgoes)
    exact ⟨hzc.congr rfl, hsends, hnotifs, rfl, hreading⟩
  | none =>
    refine drive_settled ctx ans ⟨goIdle_base hbase fun _ r hr => ?_, ?_, rfl, hpend, hgoes⟩
    · obtain ⟨hlinked, herr, -⟩ := hanswer r hr
      exact Or.inl ⟨hlinked, herr⟩
    · exact ⟨hzc.congr rfl, hsends, hnotifs, rfl, rfl⟩

/-- Header and payload of a READ have been sent. -/
structure Emptied (L : Prop) (v : TxView) (r : Reading) : Prop where
  reading : v.reading = some r
  notifs : v.notifs = 0
  pending : v.pendingZc = none
  goesOn : v.last = false
  sends : v.sends = []
  spliceIns : v.spliceIns = []
  spliceOuts : v.spliceOuts = []
  chain : v.chain = []
  broken : v.broken = false
  pipe : L → v.pipe = []
  sound : r.Sound
  written : L → v.wire.drop r.mark = r.head ++ r.data

theorem finishZc_settled (ctx : Ctx σ) (ans : Answers) {z : Zc} {v : TxView} {r : Reading}
    (h : Base L s) (hview : s.txView = v) (hv : Emptied L v r) :
    Settled L (finishZc ctx ans z s) := by
  subst hview
  have hbusy : s.kern.busy .tx = false := not_busy_tx hv.sends hv.chain hv.notifs
  refine drive_settled ctx ans ⟨goIdle_base ((h.touch hbusy).of_view rfl) fun hlaw r' hr' => ?_,
    ?_, rfl, hv.pending, hv.goesOn⟩
  · obtain rfl : r = r' := Option.some.inj (hv.reading.symm.trans hr')
    exact Or.inr ⟨hv.sound, hv.written hlaw⟩
  · exact ⟨⟨rfl, hv.spliceIns, hv.spliceOuts, hv.chain, hv.broken, hv.pipe⟩, hv.sends, hv.notifs,
      rfl, rfl⟩

/-! ### Sends -/

/-- The bytes that a send moved follow those before it. -/
theorem take_append_extract (b : Bytes) (off n : ℕ) :
    b.take off ++ b.extract off (off + n) = b.take (off + n) := by
  rw [List.extract_eq_take_drop, Nat.add_sub_cancel_left, List.take_add]

theorem written_send {wire tx : Bytes} {mark off : ℕ} (hmark : mark ≤ wire.length)
    (h : wire.drop mark = tx.take off) (n : ℕ) :
    (wire ++ tx.extract off (off + n)).drop mark = tx.take (off + n) := by
  rw [List.drop_append_of_le_length hmark, h, take_append_extract]

/-- A send of a buffered response completed. -/
theorem onSend_sending_settled (ctx : Ctx σ) (ans : Answers) {res : Except ℕ ℕ}
    (h : Base L s) (htxm : s.conn.txm = .send) (hzc : NoZc L s.txView) (hsends : s.kern.sends = [])
    (hrest : s.conn.txOff < s.conn.tx.length) (hmoved : moved res ≤ s.conn.tx.length - s.conn.txOff)
    (hfail : moved res = 0 → res ≠ .error eintr → s.hist.failed = true)
    (hanswer : ∀ r, s.hist.reading = some r →
      ErrAnswer { s.txView with txOff := s.conn.txOff + moved res } r) :
    Settled L (onSend ctx ans res s) := by
  have hnone : s.conn.zc = none := hzc.zc
  have hplain : ¬ (s.conn.zc.any (·.linked)) = true := by simp [hnone]
  -- the send is submitted again: nothing was moved
  have hagain : moved res = 0 → ∀ s' : State σ, Base L s' → s'.txView = s.txView →
      Settled L (submitSend ctx false s') := by
    intro hzero s' hbase hview
    have hread : s'.hist.reading = s.hist.reading := congrArg TxView.reading hview
    have htx : s'.conn.tx = s.conn.tx := congrArg TxView.tx hview
    have hoff : s'.conn.txOff = s.conn.txOff := congrArg TxView.txOff hview
    refine Or.inr ⟨submitSend_base ctx false hbase, submitSend_sending ctx ?_ (hview ▸ hzc) ?_ ?_
      fun r hr => ?_⟩
    · exact (congrArg TxView.txm hview).trans htxm
    · exact (congrArg TxView.sends hview).trans hsends
    · rw [htx, hoff]
      exact hrest
    · have herr := hanswer r (hread ▸ hr)
      rw [hzero] at herr
      rw [hview]
      exact { herr with copied := rfl }
  unfold onSend
  rw [if_neg hplain]
  cases res with
  | error e =>
    dsimp only
    have hmore : decide (s.conn.txm = .zcHdr) = false := by simp [htxm]
    split_ifs with heintr hnomem
    · rw [hmore]
      exact hagain rfl s h rfl
    · exact hagain rfl _ (h.of_view rfl) rfl
    · exact Or.inl (h.close ctx (Or.inr (Or.inl (hfail rfl (by simpa using heintr)))))
  | ok n =>
    have hn : n ≤ s.conn.tx.length - s.conn.txOff := hmoved
    cases n with
    | zero => exact Or.inl (h.close ctx (Or.inr (Or.inl (hfail rfl (by simp)))))
    | succ n =>
      have hnot : ¬ s.conn.txm = .zcHdr := by simp [htxm]
      have hbase : Base L { s with conn := { s.conn with txOff := s.conn.txOff + (n + 1) } } :=
        h.of_view rfl
      have hzc' : NoZc L (State.txView
          { s with conn := { s.conn with txOff := s.conn.txOff + (n + 1) } }) := hzc.congr rfl
      show Settled L (sent ctx ans (n + 1) s)
      unfold sent
      dsimp only
      rw [if_neg hnot]
      split_ifs with hdone hpending
      · -- released only when the notifications are there
        refine Or.inr ⟨h.of_view rfl, ?_⟩
        have hnotifs : 0 < s.kern.notifs := h.notifs ▸ hpending
        have hreading : s.hist.reading = none := by
          cases hr : s.hist.reading with
          | none => rfl
          | some r => exact absurd (hanswer r hr).notifs (Nat.pos_iff_ne_zero.1 hnotifs)
        exact .drain rfl ⟨hzc.congr rfl, hsends, hnotifs, hreading⟩
      · have hnotifs : s.kern.notifs = 0 := by
          have := h.notifs
          omega
        refine finishSend_settled ctx ans hbase hzc' hsends hnotifs fun r hr => ?_
        have herr := hanswer r hr
        obtain ⟨st, htx⟩ := herr.tx
        refine ⟨herr.linked, ⟨st, ?_⟩, herr.pending⟩
        have hwritten : s.kern.wire.drop r.mark = s.conn.tx.take (s.conn.txOff + (n + 1)) :=
          herr.written
        rw [List.take_of_length_le hdone] at hwritten
        exact hwritten.trans htx
      · refine Or.inr ⟨submitSend_base ctx false hbase,
          submitSend_sending ctx htxm hzc' hsends ?_ fun r hr => ?_⟩
        · exact Nat.lt_of_not_le hdone
        · have herr := hanswer r hr
          exact { herr with copied := rfl }

/-- The rest of the pipe is on its way to the socket. -/
theorem submitSpliceOut_settled {v : TxView} {z : Zc} {r : Reading} (h : Base L s)
    (hz : s.conn.zc = some z) (hview : s.txView = v) (htxm : v.txm = .zcOut)
    (hv : Emptying L { v with spliceOuts := v.spliceOuts ++ [z.outLeft] } z r) :
    Settled L (submitSpliceOut s) := by
  refine Or.inr ⟨submitSpliceOut_base hz h, ?_⟩
  rw [submitSpliceOut_view hz, hview]
  exact .zcOut htxm hv

/-- A send of the header of a READ completed. -/
theorem onSend_heading_settled (ctx : Ctx σ) (ans : Answers) {res : Except ℕ ℕ} {v : TxView}
    {z : Zc} {r : Reading} (h : Base L s) (hv : Heading L v z r) (htxm : v.txm = .zcHdr)
    (hmoved : moved res ≤ v.tx.length - v.txOff)
    (hfail : moved res = 0 → res ≠ .error eintr → s.hist.failed = true)
    (hview : s.txView = { v with
      sends := [], wire := v.wire ++ v.tx.extract v.txOff (v.txOff + moved res) }) :
    Settled L (onSend ctx ans res s) := by
  have hz : s.conn.zc = some z := (congrArg TxView.zc hview).trans hv.zc
  have hmode : s.conn.txm = .zcHdr := (congrArg TxView.txm hview).trans htxm
  have htx : s.conn.tx = v.tx := congrArg TxView.tx hview
  have hoff : s.conn.txOff = v.txOff := congrArg TxView.txOff hview
  have hplain : ¬ (s.conn.zc.any (·.linked)) = true := by simp [hz, hv.sequential]
  have hmark : r.mark ≤ (v.wire ++ v.tx.extract v.txOff (v.txOff + moved res)).length := by
    rw [List.length_append]
    exact Nat.le_add_right_of_le hv.mark
  have hwritten := written_send hv.mark hv.written (moved res)
  -- the rest of the header is submitted
  have hagain : ∀ s' : State σ, Base L s' →
      s'.txView = { v with
        txOff := v.txOff + moved res
        sends := []
        wire := v.wire ++ v.tx.extract v.txOff (v.txOff + moved res) } →
      v.txOff + moved res < v.tx.length → Settled L (submitSend ctx true s') := by
    intro s' hbase hview' hrest
    refine Or.inr ⟨submitSend_base ctx true hbase, ?_⟩
    obtain ⟨c, hsend, hc⟩ := submitSend_view ctx true s'
    obtain rfl := hc (Or.inl rfl)
    rw [hsend, hview']
    exact .zcHdr htxm { hv with
      mark := hmark, sends := rfl, copied := rfl, rest := hrest, written := hwritten }
  unfold onSend
  rw [if_neg hplain]
  cases res with
  | error e =>
    dsimp only
    have hmore : decide (s.conn.txm = .zcHdr) = true := by simp [hmode]
    have hrest : v.txOff + moved (.error e) < v.tx.length := hv.rest
    split_ifs with heintr hnomem
    · rw [hmore]
      exact hagain s h hview hrest
    · have hcopied : s.conn.sendIsZc = false := (congrArg TxView.sendIsZc hview).trans hv.copied
      exact absurd (hcopied.symm.trans hnomem.2) (by simp)
    · exact Or.inl (h.close ctx (Or.inr (Or.inl (hfail rfl (by simpa using heintr)))))
  | ok n =>
    cases n with
    | zero => exact Or.inl (h.close ctx (Or.inr (Or.inl (hfail rfl (by simp)))))
    | succ n =>
      have hbase : Base L { s with conn := { s.conn with txOff := s.conn.txOff + (n + 1) } } :=
        h.of_view rfl
      show Settled L (sent ctx ans (n + 1) s)
      unfold sent
      dsimp only
      rw [if_pos hmode]
      split_ifs with hdone
      · -- the whole header is on the socket: the payload follows
        rw [htx, hoff] at hdone
        have hall : v.tx.take (v.txOff + (n + 1)) = v.tx := List.take_of_length_le hdone
        have hnow := congrArg
          (fun w : TxView => { w with txOff := w.txOff + (n + 1), txm := .zcOut }) hview
        refine submitSpliceOut_settled (h.of_view rfl) hz hnow rfl
          ⟨⟨hv.zc, hv.reading, hv.plan, hv.notifs, hv.pending, hv.goesOn, hmark⟩, hv.sequential,
            rfl, hv.spliceIns, ?_, hv.chain, hv.broken, ?_, hv.sound, ?_⟩
        · simp [hv.spliceOuts]
        · exact fun hlaw => hv.outLeft.trans (congrArg List.length (hv.pipe hlaw)).symm
        · intro hlaw
          refine (congrArg (· ++ v.pipe) (hwritten.trans hall)).trans ?_
          rw [hv.tx, hv.pipe hlaw]
      · rw [htx, hoff] at hdone
        refine hagain _ (h.of_view rfl) ?_ (Nat.lt_of_not_le hdone)
        exact congrArg (fun w : TxView => { w with txOff := w.txOff + (n + 1) }) hview

end RocketSmbd.Ring
