import RocketSmbd.Ring.Inv

/-!
# What the kernel does when an operation completes

One inversion lemma for each kind of completion, what they have in common, and which mode of the
transmit side an outstanding operation belongs to.
-/

namespace RocketSmbd.Ring

open ByteString Vfs Framing

variable {σ : Type} {L : Prop} {s s' : State σ} {cqe : Cqe}
variable {i : ℕ} {r : Except ℕ Bytes} {v : TxView}

/-! ### Inversions -/

theorem complete_recv (h : s.complete (.recv i r) = some (cqe, s')) :
    ∃ op, s.kern.recvs[i]? = some op ∧ within (count r) op.len ∧
      cqe = ⟨.recv, count r, false, false⟩ ∧
      s' = { s with kern := { s.kern with recvs := s.kern.recvs.eraseIdx i } }.landRx op.pos
        (bytesOf r) := by
  simp only [State.complete] at h
  split at h
  · cases h
  · next op hop =>
    split_ifs at h with hbad
    · cases h
      exact ⟨op, hop, hbad, rfl, rfl⟩

theorem complete_send {r : Except ℕ ℕ} {more : Bool}
    (h : s.complete (.send i r more) = some (cqe, s')) :
    ∃ op, s.kern.sends[i]? = some op ∧ within r op.len ∧ (more = true → op.zc = true) ∧
      cqe = ⟨.send, r, more, false⟩ ∧
      s' = { s with kern := { s.kern with
        sends := s.kern.sends.eraseIdx i, notifs := s.kern.notifs + more.toNat } }.emitTx op
          (moved r) := by
  simp only [State.complete] at h
  split at h
  · cases h
  · next op hop =>
    split_ifs at h with hbad
    · cases h
      push Not at hbad
      exact ⟨op, hop, hbad.1, hbad.2, rfl, rfl⟩

theorem complete_notif (h : s.complete .notif = some (cqe, s')) :
    0 < s.kern.notifs ∧ cqe = ⟨.send, .ok 0, false, true⟩ ∧
      s' = { s with kern := { s.kern with notifs := s.kern.notifs - 1 } } := by
  simp only [State.complete] at h
  split_ifs at h with hzero
  · cases h
    exact ⟨Nat.pos_of_ne_zero hzero, rfl, rfl⟩

theorem complete_spliceIn (h : s.complete (.spliceIn i r) = some (cqe, s')) :
    ∃ op, s.kern.spliceIns[i]? = some op ∧ within (count r) op.len ∧
      cqe = ⟨.spliceIn, count r, false, false⟩ ∧
      s' = { s with kern := { s.kern with spliceIns := s.kern.spliceIns.eraseIdx i } }.fillPipe op
        (bytesOf r) := by
  simp only [State.complete] at h
  split at h
  · cases h
  · next op hop =>
    split_ifs at h with hbad
    · cases h
      exact ⟨op, hop, hbad, rfl, rfl⟩

theorem complete_spliceOut {r : Except ℕ ℕ} (h : s.complete (.spliceOut i r) = some (cqe, s')) :
    ∃ len, s.kern.spliceOuts[i]? = some len ∧ within r (min len s.kern.pipe.length) ∧
      cqe = ⟨.spliceOut, r, false, false⟩ ∧
      s' = { s with kern := { s.kern with spliceOuts := s.kern.spliceOuts.eraseIdx i } }.emitPipe
        (moved r) := by
  simp only [State.complete] at h
  split at h
  · cases h
  · next op hop =>
    split_ifs at h with hbad
    · cases h
      exact ⟨op, hop, hbad, rfl, rfl⟩

theorem complete_inotify (h : s.complete (.inotify i r) = some (cqe, s')) :
    ∃ len, s.kern.inotifies[i]? = some len ∧ within (count r) len ∧
      cqe = ⟨.inotify, count r, false, false⟩ ∧
      s' = { s with kern := { s.kern with inotifies := s.kern.inotifies.eraseIdx i } }.landIbuf
        (bytesOf r) := by
  simp only [State.complete] at h
  split at h
  · cases h
  · next op hop =>
    split_ifs at h with hbad
    · cases h
      exact ⟨op, hop, hbad, rfl, rfl⟩

theorem complete_linkedIn (h : s.complete (.linkedIn r) = some (cqe, s')) :
    ∃ op rest, s.kern.chain = .spliceIn op :: rest ∧ within (count r) op.len ∧
      cqe = ⟨.spliceIn, count r, false, false⟩ ∧
      s' = (s.popChain (count r ≠ .ok op.len)).fillPipe op (bytesOf r) := by
  simp only [State.complete] at h
  split at h
  · next op rest hchain =>
    split_ifs at h with hbad
    · cases h
      push Not at hbad
      exact ⟨op, rest, hchain, hbad.1, rfl, rfl⟩
  · cases h

theorem complete_linkedSend {r : Except ℕ ℕ} (h : s.complete (.linkedSend r) = some (cqe, s')) :
    ∃ op rest, s.kern.chain = .send op :: rest ∧ within r op.len ∧
      cqe = ⟨.send, r, false, false⟩ ∧
      s' = ((s.popChain r.toOption.isNone).logHdr (moved r)).emitTx op (moved r) := by
  simp only [State.complete] at h
  split at h
  · next op rest hchain =>
    split_ifs at h with hbad
    · cases h
      push Not at hbad
      exact ⟨op, rest, hchain, hbad.1, rfl, rfl⟩
  · cases h

theorem complete_linkedOut {r : Except ℕ ℕ} (h : s.complete (.linkedOut r) = some (cqe, s')) :
    ∃ len rest, s.kern.chain = .spliceOut len :: rest ∧ within r (min len s.kern.pipe.length) ∧
      allowed s.kern.broken r ∧ cqe = ⟨.spliceOut, r, false, false⟩ ∧
      s' = (s.popChain (r ≠ .ok len)).emitPipe (moved r) := by
  simp only [State.complete] at h
  split at h
  · next len rest hchain =>
    split_ifs at h with hbad
    · cases h
      push Not at hbad
      exact ⟨len, rest, hchain, hbad.1, hbad.2, rfl, rfl⟩
  · cases h

/-! ### What completions have in common -/

/-- One operation less is outstanding, or as many if a notification was announced.  The kernel
writes to the receive buffer and to the event buffer, and to no other part of the connection: what
it leaves alone is there by definition. -/
structure Completed (s : State σ) (cqe : Cqe) (s' : State σ) : Prop where
  live : s'.live = s.live := by rfl
  closing : s'.conn.closing = s.conn.closing := by rfl
  inflight : s'.conn.inflight = s.conn.inflight := by rfl
  panicked : s'.panicked = s.panicked := by rfl
  touches : s'.hist.touches = s.hist.touches := by rfl
  served : s'.hist.served = s.hist.served := by rfl
  frames : s'.hist.frames = s.hist.frames := by rfl
  failed : s'.hist.failed = s.hist.failed := by rfl
  zc : s'.conn.zc = s.conn.zc := by rfl
  stream : ∃ d, s'.hist.stream = s.hist.stream ++ d := by exact ⟨[], (List.append_nil _).symm⟩
  rxOff : s'.conn.rxOff = s.conn.rxOff := by rfl
  rxLen : s'.conn.rxLen = s.conn.rxLen := by rfl
  rx : s'.conn.rx = s.conn.rx ∨ ∃ op ∈ s.kern.recvs, ∃ d : Bytes, d.length ≤ op.len ∧
    s'.conn.rx = patch s.conn.rx op.pos d := by exact Or.inl rfl
  recvs : ∀ op ∈ s'.kern.recvs, op ∈ s.kern.recvs := by exact fun _ h => h
  count : s'.kern.outstanding + 1 =
    s.kern.outstanding + if cqe.op = .send ∧ cqe.more = true then 1 else 0

theorem length_eraseIdx_add_one {α : Type} {l : List α} {a : α} (h : l[i]? = some a) :
    (l.eraseIdx i).length + 1 = l.length := by
  obtain ⟨hi, -⟩ := List.getElem?_eq_some_iff.1 h
  exact List.length_eraseIdx_add_one hi

theorem length_bytesOf_le {n : ℕ} (h : within (count r) n) :
    (bytesOf r).length ≤ n := by
  cases r with
  | error e => exact Nat.zero_le _
  | ok d => exact h

theorem complete_completed {d : Done} (h : s.complete d = some (cqe, s')) : Completed s cqe s' := by
  cases d with
  | recv i r =>
    obtain ⟨op, hop, hwithin, rfl, rfl⟩ := complete_recv h
    have := length_eraseIdx_add_one hop
    refine
      { stream := ⟨_, rfl⟩
        rx := Or.inr ⟨op, List.mem_of_getElem? hop, _, length_bytesOf_le hwithin, rfl⟩
        recvs := fun _ h => List.mem_of_mem_eraseIdx h
        count := ?_ }
    simp only [State.landRx, Kernel.outstanding, reduceCtorEq, false_and, if_false]
    omega
  | send i r more =>
    obtain ⟨op, hop, -, -, rfl, rfl⟩ := complete_send h
    have := length_eraseIdx_add_one hop
    refine { count := ?_ }
    cases more <;> simp only [State.emitTx, Kernel.outstanding, Bool.toNat_true, Bool.toNat_false,
      true_and, if_true, Bool.false_eq_true, and_false, if_false] <;> omega
  | notif =>
    obtain ⟨hpos, rfl, rfl⟩ := complete_notif h
    refine { count := ?_ }
    simp only [Kernel.outstanding, Bool.false_eq_true, and_false, if_false]
    omega
  | spliceIn i r =>
    obtain ⟨op, hop, -, rfl, rfl⟩ := complete_spliceIn h
    have := length_eraseIdx_add_one hop
    refine { count := ?_ }
    simp only [State.fillPipe, Kernel.outstanding, reduceCtorEq, false_and, if_false]
    omega
  | spliceOut i r =>
    obtain ⟨op, hop, -, rfl, rfl⟩ := complete_spliceOut h
    have := length_eraseIdx_add_one hop
    refine { count := ?_ }
    simp only [State.emitPipe, Kernel.outstanding, reduceCtorEq, false_and, if_false]
    omega
  | inotify i r =>
    obtain ⟨op, hop, -, rfl, rfl⟩ := complete_inotify h
    have := length_eraseIdx_add_one hop
    refine { count := ?_ }
    simp only [State.landIbuf, Kernel.outstanding, reduceCtorEq, false_and, if_false]
    omega
  | linkedIn r =>
    obtain ⟨op, rest, hchain, -, rfl, rfl⟩ := complete_linkedIn h
    refine { count := ?_ }
    simp only [State.fillPipe, State.popChain, Kernel.outstanding, hchain, List.tail_cons,
      List.length_cons, reduceCtorEq, false_and, if_false]
    omega
  | linkedSend r =>
    obtain ⟨op, rest, hchain, -, rfl, rfl⟩ := complete_linkedSend h
    refine { count := ?_ }
    simp only [State.emitTx, State.logHdr, State.popChain, Kernel.outstanding, hchain,
      List.tail_cons, List.length_cons, Bool.false_eq_true, and_false, if_false]
    omega
  | linkedOut r =>
    obtain ⟨op, rest, hchain, -, -, rfl, rfl⟩ := complete_linkedOut h
    refine { count := ?_ }
    simp only [State.emitPipe, State.popChain, Kernel.outstanding, hchain, List.tail_cons,
      List.length_cons, reduceCtorEq, false_and, if_false]
    omega

/-- The count of a connection is right again after a completion. -/
theorem Completed.inflight_account (h : Completed s cqe s')
    (hcount : s.conn.inflight = s.kern.outstanding) :
    (account cqe s').conn.inflight = s'.kern.outstanding := by
  have hout := h.count
  have hin := h.inflight
  unfold account
  dsimp only
  split_ifs at hout ⊢ <;> omega

/-! ### Modes -/

section

variable (h : TxInv L v)
include h

/-- A send is outstanding for a response or for the header of a READ. -/
theorem TxInv.of_sends (hsends : v.sends ≠ []) :
    (v.txm = .send ∧ Sending L v) ∨ (v.txm = .zcHdr ∧ ∃ z r, Heading L v z r) := by
  cases h with
  | idle _ h => exact absurd h.free.sends hsends
  | send htxm h => exact Or.inl ⟨htxm, h⟩
  | zcHdr htxm h => exact Or.inr ⟨htxm, _, _, h⟩
  | _ _ h => exact absurd h.sends hsends

/-- A notification is outstanding for a response. -/
theorem TxInv.of_notifs (hnotifs : 0 < v.notifs) :
    (v.txm = .send ∧ Sending L v) ∨ (v.txm = .drain ∧ Draining L v) := by
  have hne := Nat.pos_iff_ne_zero.1 hnotifs
  cases h with
  | idle _ h => exact absurd h.free.notifs hne
  | send htxm h => exact Or.inl ⟨htxm, h⟩
  | drain htxm h => exact Or.inr ⟨htxm, h⟩
  | _ _ h => exact absurd h.notifs hne

theorem TxInv.of_spliceIns (hins : v.spliceIns ≠ []) :
    v.txm = .zcIn ∧ ∃ z r, Filling L v z r := by
  cases h with
  | idle _ h => exact absurd h.free.noZc.spliceIns hins
  | send _ h | drain _ h => exact absurd h.noZc.spliceIns hins
  | zcIn htxm h => exact ⟨htxm, _, _, h⟩
  | _ _ h => exact absurd h.spliceIns hins

theorem TxInv.of_spliceOuts (houts : v.spliceOuts ≠ []) :
    v.txm = .zcOut ∧ ∃ z r, Emptying L v z r := by
  cases h with
  | idle _ h => exact absurd h.free.noZc.spliceOuts houts
  | send _ h | drain _ h => exact absurd h.noZc.spliceOuts houts
  | zcOut htxm h => exact ⟨htxm, _, _, h⟩
  | _ _ h => exact absurd h.spliceOuts houts

theorem TxInv.of_chain (hchain : v.chain ≠ []) :
    v.txm = .zcOut ∧ ∃ z r, Chained L v z r := by
  cases h with
  | idle _ h => exact absurd h.free.noZc.chain hchain
  | send _ h | drain _ h => exact absurd h.noZc.chain hchain
  | chained htxm h => exact ⟨htxm, _, _, h⟩
  | _ _ h => exact absurd h.chain hchain

end

end RocketSmbd.Ring
