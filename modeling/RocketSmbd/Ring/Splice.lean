import RocketSmbd.Ring.Handlers

/-!
# The zero-copy READ path keeps the invariants

A READ either fills the pipe, sends a header for what is in it and empties it, one operation at a
time, or submits the three operations as one chain, in which the kernel cancels what follows a
failure.
-/

namespace RocketSmbd.Ring

open ByteString Vfs Framing

variable {σ : Type} {L : Prop}
variable {r : Reading} {res : Except ℕ ℕ} {s : State σ} {v : TxView} {z : Zc}

/-! ### Splices -/

theorem Reading.data_splice (r : Reading) (op : SpliceInOp) (d : Bytes) :
    Reading.data { r with splices := r.splices ++ [(op, d)] } = r.data ++ d := by
  simp [Reading.data]

/-- A splice that goes on where the ones before it ended. -/
theorem Runs.snoc {fd : Fd} {off : UInt64} {l : List (SpliceInOp × Bytes)} (h : Runs fd off l)
    (len : ℕ) (d : Bytes) :
    Runs fd off (l ++ [(⟨fd, off + UInt64.ofNat (l.map Prod.snd).flatten.length, len⟩, d)]) := by
  induction l generalizing off with
  | nil => simp [Runs]
  | cons e l ih =>
    obtain ⟨op, d'⟩ := e
    obtain ⟨hfd, hoff, hrest⟩ := h
    refine ⟨hfd, hoff, ?_⟩
    have hsum : off + UInt64.ofNat (((op, d') :: l).map Prod.snd).flatten.length =
        off + UInt64.ofNat d'.length + UInt64.ofNat (l.map Prod.snd).flatten.length := by
      simp [UInt64.ofNat_add, UInt64.add_assoc]
    rw [hsum]
    exact ih hrest

/-- Draining takes everything, as long as each read returns something. -/
theorem drainPipe_nil {read : ℕ → ℕ} (hread : ∀ i, 0 < read i) (fuel i left : ℕ) {pipe : Bytes}
    (hleft : pipe.length = left) (hfuel : left ≤ fuel) :
    drainPipe read fuel i left pipe = [] := by
  induction fuel generalizing i left pipe with
  | zero =>
    have hzero : pipe.length = 0 := by omega
    simpa [drainPipe] using hzero
  | succ fuel ih =>
    have hpos := hread i
    unfold drainPipe
    dsimp only
    split_ifs with hdone
    · have hzero : pipe.length = 0 := by omega
      simpa using hzero
    · refine ih (i + 1) _ ?_ ?_
      · rw [List.length_drop]
        omega
      · omega

/-! ### Filling the pipe -/

variable (ctx : Ctx σ)

/-- The READ is given up: its answer is an error response. -/
theorem zcFail_settled {ans : Answers} (hread : L → ∀ i, 0 < ans.read i) (st : UInt32)
    (h : Base L s) (hview : s.txView = v)
    (hv : Serves v z r) (hlinked : r.linked = false) (hsends : v.sends = [])
    (hins : v.spliceIns = []) (houts : v.spliceOuts = []) (hchain : v.chain = [])
    (hbroken : v.broken = false) (hpipe : L → v.pipe.length = z.got)
    (hwire : v.wire.drop r.mark = []) : Settled L (zcFail ctx ans st s) := by
  subst hview
  have hz : s.conn.zc = some z := hv.zc
  have hbusy : s.kern.busy .tx = false := not_busy_tx hsends hchain hv.notifs
  have hdrained : L → drainPipe ans.read z.got 0 z.got s.kern.pipe = [] := fun hlaw =>
    drainPipe_nil (hread hlaw) z.got 0 z.got (hpipe hlaw) le_rfl
  unfold zcFail
  rw [hz]
  dsimp only
  refine Or.inr ⟨submitSend_base ctx false ((h.touch hbusy).of_view rfl), ?_⟩
  exact sendErr_inv ctx ⟨rfl, hins, houts, hchain, hbroken, hdrained⟩ hsends hv.notifs hv.pending
    hv.reading hlinked hv.mark hwire ⟨st, by rw [hv.plan]; rfl⟩ rfl rfl

/-- The pipe is filled as far as it will be. -/
theorem sendReadHdr_settled {ans : Answers} (hread : L → ∀ i, 0 < ans.read i)
    (h : Base L s) (hview : s.txView = v)
    (hv : Serves v z r) (hseq : z.linked = false) (hlinked : r.linked = false)
    (hsends : v.sends = []) (hins : v.spliceIns = []) (houts : v.spliceOuts = [])
    (hchain : v.chain = []) (hbroken : v.broken = false) (hpipe : L → v.pipe = r.data)
    (hgot : z.got = r.data.length) (hlen : z.got ≤ z.plan.length.toNat)
    (hruns : Runs z.plan.fd z.plan.offset r.splices)
    (hwire : v.wire.drop r.mark = []) : Settled L (sendReadHdr ctx ans z s) := by
  unfold sendReadHdr
  split_ifs with hshort
  · exact zcFail_settled ctx hread _ h hview hv hlinked hsends hins houts hchain hbroken
      (fun hlaw => (congrArg List.length (hpipe hlaw)).trans hgot.symm) hwire
  · subst hview
    have hbusy : s.kern.busy .tx = false := not_busy_tx hsends hchain hv.notifs
    have hhdr := buildReadRespPrefix_length z.plan (UInt32.ofNat z.got)
    dsimp only
    refine Or.inr ⟨submitSend_base ctx true ((h.touch hbusy).of_view rfl), ?_⟩
    obtain ⟨c, hsend, hc⟩ := submitSend_view ctx true
      { replaceTx (buildReadRespPrefix z.plan (UInt32.ofNat z.got))
          { s with conn := { s.conn with zc := some { z with outLeft := z.got } } } with
        conn := { (replaceTx (buildReadRespPrefix z.plan (UInt32.ofNat z.got))
          { s with conn := { s.conn with zc := some { z with outLeft := z.got } } }).conn with
            txm := .zcHdr } }
    obtain rfl := hc (Or.inl rfl)
    rw [hsend]
    refine .zcHdr rfl (z := { z with outLeft := z.got }) (r := r)
      ⟨⟨rfl, hv.reading, hv.plan, hv.notifs, hv.pending, hv.goesOn, hv.mark⟩, hseq, hlinked, ?_,
        rfl,
        ?_, hins, houts, hchain, hbroken, hpipe, hgot, ⟨fun h => ?_, fun _ => ?_, ?_, ?_⟩, ?_, ?_⟩
    · exact congrArg (· ++ _) hsends
    · show 0 < (buildReadRespPrefix z.plan (UInt32.ofNat z.got)).length
      omega
    · exact absurd (hlinked.symm.trans h) (by simp)
    · rw [hv.plan, ← hgot]
      omega
    · rw [hv.plan]
      exact hruns
    · rw [hv.plan, ← hgot]
      exact hlen
    · show buildReadRespPrefix z.plan (UInt32.ofNat z.got) = r.head
      unfold Reading.head
      rw [hlinked, hv.plan, hgot]
      rfl
    · exact hwire

/-- The next splice into the pipe is on its way. -/
theorem submitSpliceIn_settled (h : Base L s)
    (hz : s.conn.zc = some z) (hview : s.txView = v) (htxm : v.txm = .zcIn)
    (hv : Filling L { v with spliceIns := v.spliceIns ++
      [⟨z.plan.fd, z.plan.offset + UInt64.ofNat z.got, z.want - z.got⟩] } z r) :
    Settled L (submitSpliceIn s) := by
  refine Or.inr ⟨submitSpliceIn_base hz h, ?_⟩
  rw [submitSpliceIn_view hz, hview]
  exact .zcIn htxm hv

/-- A splice into the pipe completed. -/
theorem onSpliceIn_settled {ans : Answers} (hread : L → ∀ i, 0 < ans.read i)
    {res : Except ℕ Bytes} (h : Base L s)
    (hv : Filling L v z r) (htxm : v.txm = .zcIn) (hd : (bytesOf res).length ≤ z.want - z.got)
    (hview : s.txView = { v with
      spliceIns := []
      pipe := v.pipe ++ bytesOf res
      reading := some { r with splices := r.splices ++
        [(⟨z.plan.fd, z.plan.offset + UInt64.ofNat z.got, z.want - z.got⟩, bytesOf res)] } }) :
    Settled L (onSpliceIn ctx ans (count res) s) := by
  have hz : s.conn.zc = some z := (congrArg TxView.zc hview).trans hv.zc
  have hplain : ¬ (s.conn.zc.any (·.linked)) = true := by simp [hz, hv.sequential]
  have hruns := hv.runs.snoc (z.want - z.got) (bytesOf res)
  rw [← Reading.data, ← hv.got] at hruns
  have hdata := r.data_splice ⟨z.plan.fd, z.plan.offset + UInt64.ofNat z.got, z.want - z.got⟩
    (bytesOf res)
  have hpipe : L → v.pipe ++ bytesOf res = r.data ++ bytesOf res := fun hlaw => by
    rw [hv.pipe hlaw]
  unfold onSpliceIn
  rw [if_neg hplain]
  cases res with
  | error e =>
    dsimp only [count, Except.map]
    split_ifs with hretry
    · refine submitSpliceIn_settled h hz hview htxm
        { hv with
          reading := rfl, spliceIns := rfl, pipe := fun hlaw => (hpipe hlaw).trans hdata.symm
          got := ?_, runs := hruns }
      rw [hdata]
      simpa using hv.got
    · refine zcFail_settled ctx hread _ h hview ⟨hv.zc, rfl, hv.plan, hv.notifs, hv.pending,
        hv.goesOn, hv.mark⟩ hv.unlinked hv.sends rfl hv.spliceOuts hv.chain hv.broken ?_ hv.written
      intro hlaw
      simp [hv.pipe hlaw, hv.got]
  | ok d =>
    show Settled L (splicedIn ctx ans d.length s)
    have hgot : z.got + d.length = (r.data ++ d).length := by
      rw [List.length_append, hv.got]
    have hroom : z.got + d.length ≤ z.want := by
      have := hv.room
      have hd : d.length ≤ z.want - z.got := hd
      omega
    have hnow := congrArg
      (fun w : TxView => { w with zc := some { z with got := z.got + d.length } }) hview
    unfold splicedIn
    rw [hz]
    dsimp only
    split_ifs with hmore
    · exact submitSpliceIn_settled (h.of_view rfl) rfl hnow htxm
        { hv with
          zc := rfl, reading := rfl, spliceIns := rfl
          pipe := fun hlaw => (hpipe hlaw).trans hdata.symm
          got := hgot.trans (congrArg List.length hdata.symm), room := hroom, runs := hruns }
    · exact sendReadHdr_settled ctx hread (h.of_view rfl) hnow
        ⟨rfl, rfl, hv.plan, hv.notifs, hv.pending, hv.goesOn, hv.mark⟩ hv.sequential hv.unlinked
        hv.sends rfl hv.spliceOuts hv.chain hv.broken (fun hlaw => (hpipe hlaw).trans hdata.symm)
        (hgot.trans (congrArg List.length hdata.symm)) (hroom.trans hv.want) hruns hv.written

/-! ### Emptying the pipe -/

/-- What a splice moved is on the socket, and the rest is still in the pipe. -/
theorem written_splice {wire pipe : Bytes} {mark : ℕ} (hmark : mark ≤ wire.length) (n : ℕ) :
    (wire ++ pipe.take n).drop mark ++ pipe.drop n = wire.drop mark ++ pipe := by
  rw [List.drop_append_of_le_length hmark, List.append_assoc, List.take_append_drop]

theorem le_length_append {wire : Bytes} {mark : ℕ} (hmark : mark ≤ wire.length) (d : Bytes) :
    mark ≤ (wire ++ d).length := by
  rw [List.length_append]
  exact Nat.le_add_right_of_le hmark

variable (ans : Answers)

/-- A splice out of the pipe completed. -/
theorem onSpliceOut_settled (h : Base L s) (hv : Emptying L v z r) (htxm : v.txm = .zcOut)
    (hfail : moved res = 0 → res ≠ .error eintr → s.hist.failed = true) (hview : s.txView = { v with
      spliceOuts := []
      pipe := v.pipe.drop (moved res)
      wire := v.wire ++ v.pipe.take (moved res) }) :
    Settled L (onSpliceOut ctx ans res s) := by
  have hz : s.conn.zc = some z := (congrArg TxView.zc hview).trans hv.zc
  have hplain : ¬ (s.conn.zc.any (·.linked)) = true := by simp [hz, hv.sequential]
  have hmark := le_length_append hv.mark (v.pipe.take (moved res))
  have hwritten := fun hlaw => (written_splice hv.mark (moved res)).trans (hv.written hlaw)
  have hleft : L → z.outLeft - moved res = (v.pipe.drop (moved res)).length := fun hlaw => by
    rw [List.length_drop, hv.outLeft hlaw]
  unfold onSpliceOut
  rw [if_neg hplain]
  cases res with
  | error e =>
    dsimp only
    split_ifs with hretry
    · exact submitSpliceOut_settled h hz hview htxm
        { hv with mark := hmark, spliceOuts := rfl, outLeft := hleft, written := hwritten }
    · exact Or.inl (h.close ctx (Or.inr (Or.inl
        (hfail rfl (by simpa using fun h => hretry (Or.inl h))))))
  | ok n =>
    cases n with
    | zero => exact Or.inl (h.close ctx (Or.inr (Or.inl (hfail rfl (by simp)))))
    | succ n =>
      show Settled L (splicedOut ctx ans (n + 1) s)
      have hnow := congrArg
        (fun w : TxView => { w with zc := some { z with outLeft := z.outLeft - (n + 1) } }) hview
      unfold splicedOut
      rw [hz]
      dsimp only
      split_ifs with hmore
      · exact submitSpliceOut_settled (h.of_view rfl) rfl hnow htxm
          { hv with
            zc := rfl, mark := hmark, spliceOuts := rfl, outLeft := hleft, written := hwritten }
      · have hempty : L → v.pipe.drop (n + 1) = [] := by
          intro hlaw
          have hleft : z.outLeft - (n + 1) = (v.pipe.drop (n + 1)).length := hleft hlaw
          refine List.length_eq_zero_iff.1 ?_
          omega
        have hwire : L → (v.wire ++ v.pipe.take (n + 1)).drop r.mark = r.head ++ r.data := by
          intro hlaw
          have hwritten : (v.wire ++ v.pipe.take (n + 1)).drop r.mark ++ v.pipe.drop (n + 1) =
            r.head ++ r.data := hwritten hlaw
          rwa [hempty hlaw, List.append_nil] at hwritten
        exact finishZc_settled ctx ans (h.of_view rfl) hnow
          ⟨hv.reading, hv.notifs, hv.pending, hv.goesOn, hv.sends, hv.spliceIns, rfl, hv.chain,
            hv.broken, hempty, hv.sound, hwire⟩

/-! ### Linked chains -/

/-- An operation of a chain completed, and others follow. -/
theorem onLinkedCqe_pending (op : OpKind) (res : Except ℕ ℕ)
    (h : Base L s) (hview : s.txView = v)
    (htxm : v.txm = .zcOut) (hz : v.zc = some z) (_hr : v.reading = some r)
    (hpending : 1 < z.chain) (hop : op ≠ .spliceOut)
    (hv : ∀ err, Chained L { v with zc := some { z with chain := z.chain - 1, err } }
      { z with chain := z.chain - 1, err } r) : Settled L (onLinkedCqe ctx ans op res s) := by
  have hz' : s.conn.zc = some z := (congrArg TxView.zc hview).trans hz
  unfold onLinkedCqe
  rw [hz']
  dsimp only
  rw [if_pos (by omega), if_neg hop]
  refine Or.inr ⟨h.of_view rfl, ?_⟩
  have hnow := congrArg (fun w : TxView => { w with zc := some { z with
    chain := z.chain - 1, err := z.err ∨ res.toOption.isNone } }) hview
  exact (congrArg (TxInv L) hnow).mpr (.chained htxm (hv _))

/-- The first splice of a chain completed. -/
theorem linkedIn_settled {res : Except ℕ Bytes}
    (h : Base L s) (hv : Chained L v z r) (htxm : v.txm = .zcOut)
    (hthree : v.chain = [.spliceIn ⟨z.plan.fd, z.plan.offset, z.plan.length.toNat⟩,
      .send ⟨false, 0, v.tx.length⟩, .spliceOut z.plan.length.toNat])
    (hleft : z.chain = 3) (hsplices : r.splices = []) (hpipe : L → v.pipe = [])
    (hwritten : v.wire.drop r.mark = [])
    (hview : s.txView = { v with
      chain := v.chain.tail
      broken := (v.broken ∨ count res ≠ .ok z.plan.length.toNat) ∧ v.chain.tail ≠ []
      pipe := v.pipe ++ bytesOf res
      reading := some { r with splices := r.splices ++
        [(⟨z.plan.fd, z.plan.offset, z.plan.length.toNat⟩, bytesOf res)] } }) :
    Settled L (onSpliceIn ctx ans (count res) s) := by
  have hz : s.conn.zc = some z := (congrArg TxView.zc hview).trans hv.zc
  have hlinked : (s.conn.zc.any (·.linked)) = true := by simp [hz, hv.together]
  unfold onSpliceIn
  rw [if_pos hlinked]
  refine onLinkedCqe_pending ctx ans _ _ h hview htxm hv.zc rfl (by omega) (by simp)
    fun err => ?_
  refine { hv with
    zc := rfl, reading := rfl, stage := .two ?_ (by simp [hleft]) fun hwhole => ?_ }
  · simp [hthree]
  · have hcount : count res = .ok z.plan.length.toNat := by
      simp [hthree] at hwhole
      exact hwhole.2
    cases res with
    | error e => cases hcount
    | ok d =>
      refine ⟨⟨d, ?_, Except.ok.inj hcount⟩, fun hlaw => ?_, hwritten⟩
      · simp [hsplices]
      · simp [Reading.data, hsplices, hpipe hlaw]

/-- The send of a chain completed. -/
theorem linkedSend_settled (h : Base L s) (hv : Chained L v z r) (htxm : v.txm = .zcOut)
    (htwo : v.chain = [.send ⟨false, 0, v.tx.length⟩, .spliceOut z.plan.length.toNat])
    (hleft : z.chain = 2)
    (hgood : v.broken = false → Spliced z.plan r ∧ (L → v.pipe = r.data) ∧
      v.wire.drop r.mark = [])
    (hmoved : moved res ≤ v.tx.length)
    (hview : s.txView = { v with
      chain := v.chain.tail
      broken := (v.broken ∨ res.toOption.isNone) ∧ v.chain.tail ≠ []
      wire := v.wire ++ v.tx.extract 0 (0 + moved res)
      reading := some { r with hdr := moved res } }) :
    Settled L (onSend ctx ans res s) := by
  have hz : s.conn.zc = some z := (congrArg TxView.zc hview).trans hv.zc
  have hlinked : (s.conn.zc.any (·.linked)) = true := by simp [hz, hv.together]
  unfold onSend
  rw [if_pos hlinked]
  refine onLinkedCqe_pending ctx ans _ _ h hview htxm hv.zc rfl (by omega) (by simp)
    fun err => ?_
  refine { hv with
    zc := rfl, reading := rfl, mark := le_length_append hv.mark _
    stage := .one ?_ (by simp [hleft]) fun hwhole => ?_ }
  · simp [htwo]
  · have hunbroken : v.broken = false := by
      simp [htwo] at hwhole
      exact hwhole.1
    obtain ⟨hspliced, hpipe, hwritten⟩ := hgood hunbroken
    refine ⟨hspliced, hpipe, ?_, hmoved⟩
    show (v.wire ++ v.tx.extract 0 (0 + moved res)).drop r.mark = v.tx.take (moved res)
    rw [List.drop_append_of_le_length hv.mark, hwritten]
    simp

/-- A chain that was not broken has served what the plan asks for. -/
theorem Chained.whole (hv : Chained L v z r)
    (hspliced : Spliced z.plan r) (hhdr : r.hdr ≤ v.tx.length) :
    r.Sound ∧ r.head = v.tx.take r.hdr ∧ r.data.length = z.plan.length.toNat := by
  obtain ⟨data, hsplices, hlen⟩ := hspliced
  rw [hv.tx] at hhdr
  have hdata : r.data.length = z.plan.length.toNat := by simp [Reading.data, hsplices, hlen]
  refine ⟨⟨fun _ => ⟨?_, ⟨data, ?_, ?_⟩, ?_⟩, fun h => ?_, ?_, ?_⟩, ?_, hdata⟩
  · rw [hv.plan, hv.asked]
  · rw [hv.plan, hsplices]
  · rw [hv.plan, hlen]
  · rw [hv.plan]
    exact hhdr
  · exact absurd (hv.linked.symm.trans h) (by simp)
  · rw [hv.plan, hsplices]
    exact ⟨rfl, rfl, trivial⟩
  · rw [hv.plan, hdata]
  · unfold Reading.head
    rw [hv.linked, hv.plan, hv.tx]
    rfl

/-- The last splice of a chain completed; it was not cancelled only if the payload is whole. -/
theorem linkedOut_settled (h : Base L s) (hv : Chained L v z r)
    (hone : v.chain = [.spliceOut z.plan.length.toNat]) (hleft : z.chain = 1)
    (hgood : v.broken = false → Spliced z.plan r ∧ (L → v.pipe = r.data) ∧
      v.wire.drop r.mark = v.tx.take r.hdr ∧ r.hdr ≤ v.tx.length)
    (hallowed : allowed v.broken res)
    (hview : s.txView = { v with
      chain := v.chain.tail
      broken := (v.broken ∨ res ≠ .ok z.plan.length.toNat) ∧ v.chain.tail ≠ []
      pipe := v.pipe.drop (moved res)
      wire := v.wire ++ v.pipe.take (moved res) }) :
    Settled L (onSpliceOut ctx ans res s) := by
  have hz : s.conn.zc = some z := (congrArg TxView.zc hview).trans hv.zc
  have hlinked : (s.conn.zc.any (·.linked)) = true := by simp [hz, hv.together]
  unfold onSpliceOut
  rw [if_pos hlinked]
  unfold onLinkedCqe
  rw [hz]
  dsimp only
  rw [if_neg (by omega), if_pos rfl]
  by_cases herr : z.err = true ∨ res.toOption.isNone = true
  · rw [if_pos (by simpa using herr)]
    have hbase : Base L { s with conn := { s.conn with zc := some { z with
        chain := z.chain - 1
        outLeft := z.outLeft - moved res
        err := z.err ∨ res.toOption.isNone } } } := h.of_view rfl
    exact Or.inl (hbase.close ctx (Or.inr (Or.inr (by simpa using herr))))
  rw [if_neg (by simpa using herr)]
  have hwhole : v.broken = false := by
    rw [Bool.eq_false_iff]
    intro hbroken
    refine herr (Or.inr ?_)
    rw [hallowed hbroken]
    rfl
  obtain ⟨hspliced, hdata, hwritten, hhdr⟩ := hgood hwhole
  obtain ⟨hsound, hhead, hlen⟩ := hv.whole hspliced hhdr
  have hall : L → (v.wire ++ v.pipe.take (moved res)).drop r.mark ++ v.pipe.drop (moved res) =
      r.head ++ r.data := by
    intro hlaw
    rw [written_splice hv.mark, hwritten, hhead, hdata hlaw]
  have hmark := le_length_append hv.mark (v.pipe.take (moved res))
  have hpipe : L → z.outLeft - moved res = (v.pipe.drop (moved res)).length := by
    intro hlaw
    rw [List.length_drop, hv.outLeft, hdata hlaw, hlen]
  have hchain : v.chain.tail = [] := by simp [hone]
  split_ifs with hmore
  · -- the socket took a part
    have hnow := congrArg (fun w : TxView => { w with
      txm := .zcOut
      zc := some { z with
        outLeft := z.outLeft - moved res
        linked := false
        chain := z.chain - 1
        err := z.err ∨ res.toOption.isNone } }) hview
    refine submitSpliceOut_settled (h.of_view rfl) rfl hnow rfl
      ⟨⟨rfl, hv.reading, hv.plan, hv.notifs, hv.pending, hv.goesOn, hmark⟩, rfl, hv.sends,
        hv.spliceIns, ?_, hchain, ?_, hpipe, hsound, hall⟩
    · simp [hv.spliceOuts]
    · simp [hchain]
  · have hempty : L → v.pipe.drop (moved res) = [] := by
      intro hlaw
      have := hpipe hlaw
      exact List.length_eq_zero_iff.1 (by omega)
    have hwire : L → (v.wire ++ v.pipe.take (moved res)).drop r.mark = r.head ++ r.data := by
      intro hlaw
      have hall := hall hlaw
      rwa [hempty hlaw, List.append_nil] at hall
    have hnow := congrArg (fun w : TxView => { w with
      zc := some { z with
        outLeft := z.outLeft - moved res
        chain := z.chain - 1
        err := z.err ∨ res.toOption.isNone } }) hview
    refine finishZc_settled ctx ans (h.of_view rfl) hnow
      ⟨hv.reading, hv.notifs, hv.pending, hv.goesOn, hv.sends, hv.spliceIns, hv.spliceOuts, hchain,
        ?_, hempty, hsound, hwire⟩
    simp [hchain]

end RocketSmbd.Ring
