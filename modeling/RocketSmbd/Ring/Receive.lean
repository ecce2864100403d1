import RocketSmbd.Ring.Inv

/-!
# Teardown, receiving and change notification keep the invariants
-/

namespace RocketSmbd.Ring

open ByteString Vfs Framing

variable {σ : Type} {L : Prop}
variable {k : Kernel} {s : State σ}

/-! ### The prefix of a frame -/

/-- Three bytes as a number, the most significant first. -/
theorem be24_eq (b1 b2 b3 : UInt8) :
    (b1.toNat <<< 16) ||| (b2.toNat <<< 8) ||| b3.toNat =
      65536 * b1.toNat + 256 * b2.toNat + b3.toNat := by
  have h2 := b2.toNat_lt
  have h3 := b3.toNat_lt
  have hlow : (b2.toNat <<< 8) ||| b3.toNat = 256 * b2.toNat + b3.toNat := by
    rw [← Nat.shiftLeft_add_eq_or_of_lt (by omega), Nat.shiftLeft_eq]
    omega
  rw [Nat.or_assoc, hlow, ← Nat.shiftLeft_add_eq_or_of_lt (by omega), Nat.shiftLeft_eq]
  omega

theorem nbtTotal_none_iff {cap : ℕ} {b : Bytes} : nbtTotal cap b = .ok none ↔ b.length < 4 := by
  rcases b with _ | ⟨b0, _ | ⟨b1, _ | ⟨b2, _ | ⟨b3, rest⟩⟩⟩⟩
  · exact ⟨fun _ => by decide, fun _ => rfl⟩
  · exact ⟨fun _ => by simp, fun _ => rfl⟩
  · exact ⟨fun _ => by simp, fun _ => rfl⟩
  · exact ⟨fun _ => by simp, fun _ => rfl⟩
  · unfold nbtTotal
    dsimp only
    split_ifs <;> simp

/-- What announces a frame is the prefix that the server puts before its own messages. -/
theorem nbtTotal_some_iff {cap n : ℕ} {b : Bytes} :
    nbtTotal cap b = .ok (some n) ↔
      ∃ len rest, b = nbtPrefix len ++ rest ∧ len < 2 ^ 24 ∧ len ≤ cap ∧ n = 4 + len := by
  constructor
  · intro h
    unfold nbtTotal at h
    split at h
    · next b0 b1 b2 b3 rest =>
      have h1 := b1.toNat_lt
      have h2 := b2.toNat_lt
      have h3 := b3.toNat_lt
      rw [be24_eq] at h
      dsimp only at h
      split_ifs at h with hzero hcap
      refine ⟨_, rest, ?_, ?_, Nat.not_lt.1 hcap, (Option.some.inj (Except.ok.inj h)).symm⟩
      · rw [not_not.1 hzero]
        simp only [nbtPrefix, List.cons_append, List.nil_append, List.cons.injEq, true_and,
          and_true]
        refine ⟨?_, ?_, ?_⟩ <;> rw [← UInt8.toNat_inj, UInt8.toNat_ofNat'] <;> omega
      · omega
    · cases h
  · rintro ⟨len, rest, rfl, hlen, hcap, rfl⟩
    have hbe : 65536 * (UInt8.ofNat (len / 65536)).toNat + 256 * (UInt8.ofNat (len / 256)).toNat +
        (UInt8.ofNat len).toNat = len := by
      simp only [UInt8.toNat_ofNat']
      omega
    simp only [nbtPrefix, List.cons_append, List.nil_append, nbtTotal, be24_eq, hbe]
    rw [if_neg (by simp), if_neg (Nat.not_lt.2 hcap)]

/-- The prefix counts. -/
theorem four_le_nbtTotal {cap n : ℕ} {b : Bytes} (h : nbtTotal cap b = .ok (some n)) : 4 ≤ n := by
  obtain ⟨len, -, -, -, -, rfl⟩ := nbtTotal_some_iff.1 h
  exact Nat.le_add_right 4 len

theorem nbtNext_append (limit : Option ℕ) (b d : Bytes) (n : ℕ)
    (h : nbtNext limit b = .ok (some n)) : nbtNext limit (b ++ d) = .ok (some n) := by
  cases limit with
  | none => cases h
  | some cap =>
    obtain ⟨len, rest, rfl, hlen⟩ := nbtTotal_some_iff.1 h
    exact nbtTotal_some_iff.2 ⟨len, rest ++ d, List.append_assoc .., hlen⟩

/-- A prefix that is not acceptable stays so. -/
theorem nbtNext_append_error {limit : Option ℕ} {b : Bytes} (h : nbtNext limit b = .error ())
    (d : Bytes) : nbtNext limit (b ++ d) = .error () := by
  cases limit with
  | none => rfl
  | some cap =>
    match b, h with
    | b0 :: b1 :: b2 :: b3 :: rest, h => exact h

/-! ### Writes to buffers -/

theorem Past.touch (h : Past L s) {b : Buf} (hlive : s.live = true)
    (hbusy : s.kern.busy b = false) : Past L (s.touch b) := by
  refine ⟨h.calm, fun t ht => ?_, h.served⟩
  rcases List.mem_append.1 ht with ht | ht
  · exact h.touches t ht
  · rw [List.mem_singleton.1 ht]
    simp [hlive, hbusy]

theorem Base.touch (h : Base L s) {b : Buf} (hbusy : s.kern.busy b = false) :
    Base L (s.touch b) :=
  { h with past := h.past.touch h.live hbusy }

theorem not_busy_conn (h : k.outstanding = 0) : k.busy .conn = false := by
  simp [Kernel.busy, h]

theorem not_busy_rx (h : k.recvs = []) : k.busy .rx = false := by
  simp [Kernel.busy, h]

theorem not_busy_ibuf (h : k.inotifies = []) : k.busy .ibuf = false := by
  simp [Kernel.busy, h]

theorem not_busy_tx (hs : k.sends = []) (hc : k.chain = []) (hn : k.notifs = 0) :
    k.busy .tx = false := by
  simp [Kernel.busy, hs, hc, hn]

/-! ### Teardown -/

variable (ctx : Ctx σ)

/-- The drop of a connection of which the kernel holds nothing. -/
theorem finalizeClose_shut (hpast : Past L s) (hended : Ended s) (hrx : s.conn.RxOk)
    (hrecvs : ∀ op ∈ s.kern.recvs, op = ⟨s.conn.rxLen, s.conn.rx.length - s.conn.rxLen⟩)
    (hnone : s.kern.outstanding = 0) : Shut L (finalizeClose ctx s) := by
  unfold finalizeClose
  split_ifs with hlive
  · have hpast' := hpast.touch hlive (not_busy_conn hnone)
    exact ⟨⟨hpast'.calm, hpast'.touches, hpast'.served⟩, hended, fun h => absurd h (by simp),
      fun h => absurd h (by simp), fun _ => hnone, hrx, hrecvs⟩
  · exact ⟨hpast, hended, fun h => absurd h hlive, fun h => absurd h hlive, fun _ => hnone, hrx,
      hrecvs⟩

theorem closeConnRing_shut (hpast : Past L s) (hended : Ended s)
    (hlive : s.live = true) (hcount : s.conn.inflight = s.kern.outstanding) (hrx : s.conn.RxOk)
    (hrecvs : ∀ op ∈ s.kern.recvs, op = ⟨s.conn.rxLen, s.conn.rx.length - s.conn.rxLen⟩) :
    Shut L (closeConnRing ctx s) := by
  have hpast' : Past L { s with conn := { s.conn with
      closing := true
      inotifyCancelled := s.conn.inotifyCancelled ∨ s.conn.inotifyFd.isSome } } :=
    ⟨hpast.calm, hpast.touches, hpast.served⟩
  unfold closeConnRing
  dsimp only
  split_ifs with hzero
  · exact finalizeClose_shut ctx hpast' hended ⟨hrx.off, hrx.len, hrx.cap⟩ hrecvs
      (hcount.symm.trans hzero)
  · exact ⟨hpast', hended, fun _ => rfl, fun _ => hcount,
      fun h => absurd (hlive.symm.trans h) (by simp), ⟨hrx.off, hrx.len, hrx.cap⟩, hrecvs⟩

theorem Conn.mem_recvOps {c : Conn} {op : RecvOp} (h : op ∈ c.recvOps) :
    op = ⟨c.rxLen, c.rx.length - c.rxLen⟩ := by
  unfold Conn.recvOps at h
  split_ifs at h
  · exact List.mem_singleton.1 h
  · cases h

theorem BaseAt.close {limit : Option ℕ} (h : BaseAt L limit s)
    (hover : Over s limit s.conn.buffered) : Shut L (closeConnRing ctx s) :=
  closeConnRing_shut ctx h.past ⟨_, _, h.sync, hover⟩ h.live h.count h.rx fun _ hop =>
    Conn.mem_recvOps (h.recvs ▸ hop)

theorem over_of_bad {e : Unit} (hgoes : s.conn.closeAfterSend = false)
    (hbad : frameTotal s.conn = .error e) : Over s s.conn.limit s.conn.buffered := by
  rw [Conn.limit_of_not hgoes]
  exact Or.inl hbad

/-! ### The receive buffer -/

theorem length_buffered {c : Conn} (h : c.RxOk) : c.buffered.length = c.rxLen - c.rxOff := by
  have := h.off
  have := h.len
  rw [Conn.buffered, List.extract_eq_take_drop, List.length_take, List.length_drop]
  omega

theorem extract_patch_zero (b v : Bytes) : (patch b 0 v).extract 0 v.length = v := by
  simp [patch, List.extract_eq_take_drop]

theorem extract_resize {b : Bytes} {i j n : ℕ} (hj : j ≤ b.length) (hn : b.length ≤ n) :
    (resize b n).extract i j = b.extract i j := by
  rw [resize, List.take_of_length_le hn, extract_append_left _ _ _ _ hj]

section

variable (h : Base L s) (hidle : s.conn.recvInflight = false)
include h hidle

/-- Compaction moves the unconsumed bytes and changes none of them. -/
theorem compact_base :
    Base L (compact s) ∧ (compact s).txView = s.txView ∧ (compact s).conn.recvInflight = false := by
  have hrecvs : s.kern.recvs = [] := h.recvs.trans (Conn.recvOps_of_not hidle)
  unfold compact
  split_ifs with hoff
  · have hlen := length_buffered h.rx
    have hsame : (patch s.conn.rx 0 s.conn.buffered).extract 0 (s.conn.rxLen - s.conn.rxOff) =
        s.conn.buffered := by
      rw [← hlen, extract_patch_zero]
    have hpatch : (patch s.conn.rx 0 s.conn.buffered).length = s.conn.rx.length := by
      have := h.rx.len
      refine patch_length ?_
      omega
    have hrx := h.rx
    have hpast := h.past.touch h.live (not_busy_rx hrecvs)
    refine ⟨{ h with
      past := { hpast with }, recvs := ?_, rx := ⟨Nat.zero_le _, ?_, ?_⟩, sync := ?_ }, ?_, hidle⟩
    · refine hrecvs.trans (Eq.symm (Conn.recvOps_of_not ?_))
      exact hidle
    · have := hrx.len
      dsimp only [State.setRx, State.touch]
      omega
    · have := hrx.cap
      dsimp only [State.setRx, State.touch]
      omega
    · have hsync := h.sync
      dsimp only [State.setRx, State.touch, Conn.buffered] at hsync hsame ⊢
      rw [hsame]
      exact hsync
    · dsimp only [State.setRx, State.touch, State.txView, Conn.buffered] at hsame ⊢
      rw [hsame]
  · exact ⟨h, rfl, hidle⟩

theorem grow_base (needed : ℕ) :
    Base L (grow needed s) ∧ (grow needed s).txView = s.txView ∧
      (grow needed s).conn.recvInflight = false := by
  have hrecvs : s.kern.recvs = [] := h.recvs.trans (Conn.recvOps_of_not hidle)
  have hrx := h.rx
  have := hrx.len
  have := hrx.cap
  unfold grow
  split_ifs with hgrow
  · have hle : s.conn.rx.length ≤ min needed (maxFrame + 4 + rxMinRoom) := by omega
    have hlen : (resize s.conn.rx (min needed (maxFrame + 4 + rxMinRoom))).length =
        min needed (maxFrame + 4 + rxMinRoom) := by
      rw [resize, List.length_append, List.length_take, zeros_length]
      omega
    have hsame : (resize s.conn.rx (min needed (maxFrame + 4 + rxMinRoom))).extract s.conn.rxOff
        s.conn.rxLen = s.conn.buffered := extract_resize hrx.len hle
    have hpast := h.past.touch h.live (not_busy_rx hrecvs)
    refine ⟨{ h with past := { hpast with }, recvs := ?_, rx := ⟨hrx.off, ?_, ?_⟩, sync := ?_ },
      ?_, hidle⟩
    · refine hrecvs.trans (Eq.symm (Conn.recvOps_of_not ?_))
      exact hidle
    · dsimp only [State.setRx, State.touch]
      omega
    · dsimp only [State.setRx, State.touch]
      omega
    · have hsync := h.sync
      dsimp only [State.setRx, State.touch, Conn.buffered] at hsync hsame ⊢
      rw [hsame]
      exact hsync
    · dsimp only [State.setRx, State.touch, State.txView, Conn.buffered] at hsame ⊢
      rw [hsame]
  · exact ⟨h, rfl, hidle⟩

theorem postRecv_base :
    Base L (postRecv s) ∧ (postRecv s).txView = s.txView := by
  have hrecvs : s.kern.recvs = [] := h.recvs.trans (Conn.recvOps_of_not hidle)
  unfold postRecv
  split_ifs with hfull
  · exact ⟨h, rfl⟩
  · refine ⟨{ h with past := { h.past with }, count := ?_, recvs := ?_, rx := { h.rx with } }, rfl⟩
    · have := h.count
      simp only [State.submitRecv, Kernel.outstanding, List.length_append, List.length_singleton]
        at this ⊢
      omega
    · simp [State.submitRecv, hrecvs, Conn.recvOps]

end

/-- `maybeArmRecv` leaves the transmit side alone, unless it closes the connection. -/
theorem maybeArmRecv_base (h : Base L s) :
    Shut L (maybeArmRecv ctx s) ∨
      (Base L (maybeArmRecv ctx s) ∧ (maybeArmRecv ctx s).txView = s.txView) := by
  unfold maybeArmRecv
  split_ifs with hbusy
  · exact Or.inr ⟨h, rfl⟩
  · have hidle : s.conn.recvInflight = false := by
      rw [Bool.eq_false_iff]
      exact fun hr => hbusy (Or.inl hr)
    obtain ⟨hcompact, hview, hidle⟩ := compact_base h hidle
    have hgoes : (compact s).conn.closeAfterSend = false := by
      refine (congrArg TxView.last hview).trans (Bool.eq_false_iff.2 fun hr => ?_)
      exact hbusy (Or.inr (Or.inr hr))
    dsimp only
    generalize compact s = s1 at hcompact hview hidle hgoes ⊢
    cases hnext : frameTotal s1.conn with
    | error e => exact Or.inl (hcompact.close ctx (over_of_bad hgoes hnext))
    | ok total =>
      obtain ⟨hgrow, hview2, hidle⟩ := grow_base hcompact hidle (rxNeeded s1.conn total)
      obtain ⟨hpost, hview3⟩ := postRecv_base hgrow hidle
      exact Or.inr ⟨hpost, hview3.trans (hview2.trans hview)⟩

/-- What `maybeArmRecv` does to a settled state. -/
theorem maybeArmRecv_settled (h : Base L s) (htx : TxInv L s.txView) :
    Settled L (maybeArmRecv ctx s) := by
  rcases maybeArmRecv_base ctx h with hshut | ⟨hbase, hview⟩
  · exact Or.inl hshut
  · exact Or.inr ⟨hbase, hview ▸ htx⟩

end RocketSmbd.Ring
