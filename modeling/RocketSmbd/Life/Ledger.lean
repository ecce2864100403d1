import RocketSmbd.Lib.Pending
import RocketSmbd.Life.Notify
import RocketSmbd.Safety.Completions
import RocketSmbd.Smb2.Fields

/-!
# The books of the pended notifies

A CHANGE_NOTIFY that is accepted is in three lists of its connection: the queue of new ones or the
watches, the list of those that can be cancelled, and, once it is cancelled or its handle closed,
the queue of completions.  `ProtoConn.ledger` reads these lists as a state of `Pending`.  Every
request of a frame keeps it sound (`Member.booked`), and so does a final response that takes its
request off the lists (`ProtoConn.Booked.completes`).

The AsyncIds do not come round: each accepted request has used up a MessageId of its own, and there
are no more than `2 ^ 64` of these.
-/

namespace RocketSmbd

open ByteString Vfs

variable {σ : Type}

/-! ### The books of a connection -/

/-- The message of the frame, in the clear or sealed, names the request `info`. -/
def NamesRequest (cr : Crypto) (info : AsyncMeta) (frame : Bytes) : Prop :=
  ∃ msg : Bytes, respMsgId msg = info.msgId ∧ respAsyncId msg = info.asyncId ∧
    (frame = nbtPrefix msg.length ++ msg ∨
      ∃ enc : EncCtx, frame = sealedFrame cr msg enc enc.nonceCtr info.sessionId)

/-- The lists of a connection: `log` is what was pended on it, `watched` its watches, and `new` and
`done` the queues that its frames fill. -/
def ProtoConn.ledger (log : List AsyncMeta) (watched new : List NotifyPend)
    (done : List NotifyDone) (pc : ProtoConn) : Pending.State AsyncMeta UInt64 where
  issued := log
  finals := pc.hist.finals.map Prod.fst
  watched := watched.map NotifyPend.info
  fresh := new.map NotifyPend.info
  done := done.map NotifyDone.asyncId
  active := pc.notify.active.map ActivePend.asyncId

/-- The books of a connection are right. -/
structure ProtoConn.Booked (cr : Crypto) (log : List AsyncMeta) (watched new : List NotifyPend)
    (done : List NotifyDone) (pc : ProtoConn) : Prop where
  sound : (pc.ledger log watched new done).Sound AsyncMeta.asyncId
  own : ∀ p ∈ watched ++ new, p.info.asyncId = p.asyncId
  numbered : log.map AsyncMeta.asyncId =
    (List.range log.length).map fun i => UInt64.ofNat (i + 1)
  next : pc.notify.nextAsyncId = UInt64.ofNat (log.length + 1)
  window : WindowOk pc
  used : log.length ≤ (usedIds pc.msgLow pc.msgSeen).ncard
  carried : ∀ f ∈ pc.hist.finals, NamesRequest cr f.1 f.2

variable (cr : Crypto)

theorem booked_new (srv : Srv σ) (wid idx : ℕ) (gen : UInt16) :
    (ProtoConn.new srv wid idx gen).Booked cr [] [] [] [] where
  sound := .empty _
  own := fun _ h => absurd h List.not_mem_nil
  numbered := rfl
  next := rfl
  window := windowOk_new srv wid idx gen
  used := Nat.zero_le _
  carried := fun _ h => absurd h List.not_mem_nil

namespace ProtoConn.Booked

variable {cr : Crypto} {log : List AsyncMeta} {watched new : List NotifyPend}
  {done : List NotifyDone} {pc pc' : ProtoConn}

/-- The books depend on the tally only. -/
theorem congr (h : pc.Booked cr log watched new done) (hsame : pc'.tally = pc.tally) :
    pc'.Booked cr log watched new done := by
  have hnotify : pc'.notify = pc.notify := congrArg (fun t => t.1) hsame
  have hfinals : pc'.hist.finals = pc.hist.finals := congrArg (fun t => t.2.1) hsame
  have hlow : pc'.msgLow = pc.msgLow := congrArg (fun t => t.2.2.1) hsame
  have hseen : pc'.msgSeen = pc.msgSeen := congrArg (fun t => t.2.2.2) hsame
  have hledger : pc'.ledger log watched new done = pc.ledger log watched new done := by
    unfold ProtoConn.ledger
    rw [hnotify, hfinals]
  refine ⟨hledger ▸ h.sound, h.own, h.numbered, hnotify ▸ h.next, h.window.congr hlow hseen, ?_,
    hfinals ▸ h.carried⟩
  rw [hlow, hseen]
  exact h.used

/-- The next AsyncId is a new one, while there are MessageIds left for its request. -/
theorem next_fresh (h : pc.Booked cr log watched new done) (hlt : log.length < 2 ^ 64) :
    pc.notify.nextAsyncId ∉ log.map AsyncMeta.asyncId := by
  rw [h.numbered, h.next]
  intro hmem
  obtain ⟨i, hi, heq⟩ := List.mem_map.1 hmem
  have hi := List.mem_range.1 hi
  have hnat := congrArg UInt64.toNat heq
  rw [UInt64.toNat_ofNat', UInt64.toNat_ofNat'] at hnat
  omega

/-! ### Requests -/

/-- A claim of MessageIds, which leaves room for one more request. -/
theorem claim (h : pc.Booked cr log watched new done) (hdr : ReqHdr) :
    (claimIds hdr pc).2.Booked cr log watched new done ∧
      ((claimIds hdr pc).1 = true → hdr.command ≠ cmdCancel →
        log.length + 1 ≤
          (usedIds (claimIds hdr pc).2.msgLow (claimIds hdr pc).2.msgSeen).ncard) := by
  unfold claimIds
  split_ifs with hcmd
  · exact ⟨h, fun _ hne => absurd hcmd hne⟩
  · cases hacc : (consumeMsgIds pc hdr.msgId hdr.creditCharge).1 with
    | false =>
      rw [consumeMsgIds_refused pc _ _ hacc]
      exact ⟨h, fun hc => absurd hc (by simp)⟩
    | true =>
      have hgrows := consumeMsgIds_grows h.window _ _ hacc
      obtain ⟨-, -, -, hwindow⟩ := consumeMsgIds_accepted h.window _ _ hacc
      obtain ⟨msgLow, msgSeen, hpc⟩ := claimIds_fields hdr pc
      rw [claimIds, if_neg hcmd] at hpc
      have hused := h.used
      rw [hpc] at hgrows hwindow ⊢
      exact ⟨⟨h.sound, h.own, h.numbered, h.next, hwindow, (hused.trans_lt hgrows).le, h.carried⟩,
        fun _ _ => hused.trans_lt hgrows⟩

/-- The pends of a handle are called off. -/
theorem cleanup (h : pc.Booked cr log watched pc.notify.new pc.notify.done) (fid : UInt64) :
    { pc with notify := notifyCleanup pc.notify fid }.Booked cr log watched
      (notifyCleanup pc.notify fid).new (notifyCleanup pc.notify fid).done := by
  have hnodup : (pc.notify.active.map ActivePend.asyncId).Nodup := h.sound.active_nodup
  have hsound := h.sound.callOff
    ((pc.notify.active.filter fun a => a.fid = fid).map ActivePend.asyncId) fun k hk => by
      obtain ⟨a, ha, rfl⟩ := List.mem_map.1 hk
      exact List.mem_map_of_mem (List.mem_of_mem_filter ha)
  refine ⟨?_, h.own, h.numbered, h.next, h.window.congr rfl rfl, h.used, h.carried⟩
  have hactive := Pending.filter_notMem_map ActivePend.asyncId pc.notify.active
    (fun a => a.fid = fid) hnodup
  have hledger : ({ pc with notify := notifyCleanup pc.notify fid } : ProtoConn).ledger log watched
      (notifyCleanup pc.notify fid).new (notifyCleanup pc.notify fid).done =
      { pc.ledger log watched pc.notify.new pc.notify.done with
        active := (pc.notify.active.map ActivePend.asyncId).filter
          (· ∉ (pc.notify.active.filter fun a => a.fid = fid).map ActivePend.asyncId)
        done := pc.notify.done.map NotifyDone.asyncId ++
          (pc.notify.active.filter fun a => a.fid = fid).map ActivePend.asyncId } := by
    rw [hactive]
    simp only [ProtoConn.ledger, notifyCleanup, List.map_append, List.map_map, decide_eq_true_eq]
    rfl
  rw [hledger]
  exact hsound

theorem cleanups (fids : List UInt64) {pc : ProtoConn}
    (h : pc.Booked cr log watched pc.notify.new pc.notify.done) :
    { pc with notify := fids.foldl notifyCleanup pc.notify }.Booked cr log watched
      (fids.foldl notifyCleanup pc.notify).new (fids.foldl notifyCleanup pc.notify).done := by
  induction fids generalizing pc with
  | nil => exact h
  | cons fid fids ih => exact @ih { pc with notify := notifyCleanup pc.notify fid } (h.cleanup fid)

theorem removeActive_eq {aid : UInt64} {active rest : List ActivePend}
    (hnodup : (active.map ActivePend.asyncId).Nodup) (h : removeActive aid active = some rest) :
    aid ∈ active.map ActivePend.asyncId ∧
      rest.map ActivePend.asyncId = (active.map ActivePend.asyncId).filter (· ∉ [aid]) := by
  induction active generalizing rest with
  | nil => simp [removeActive] at h
  | cons a active ih =>
    rw [List.map_cons, List.nodup_cons] at hnodup
    unfold removeActive at h
    split_ifs at h with haid
    · obtain rfl := Option.some.inj h
      refine ⟨by simp [haid], ?_⟩
      rw [List.map_cons, List.filter_cons_of_neg (by simp [haid])]
      refine (List.filter_eq_self.2 fun k hk => ?_).symm
      have hne : k ≠ aid := fun heq => hnodup.1 (haid ▸ heq ▸ hk)
      simpa using hne
    · obtain ⟨rest', hrest, rfl⟩ := Option.map_eq_some_iff.1 h
      obtain ⟨hmem, heq⟩ := ih hnodup.2 hrest
      refine ⟨List.mem_cons_of_mem _ hmem, ?_⟩
      rw [List.map_cons, List.map_cons, List.filter_cons_of_pos (by simpa using haid), heq]

/-- A CANCEL calls off at most one pend. -/
theorem cancel (h : pc.Booked cr log watched pc.notify.new pc.notify.done) (hdr : ReqHdr) :
    { pc with notify := RocketSmbd.cancel pc.notify hdr }.Booked cr log watched
      (RocketSmbd.cancel pc.notify hdr).new (RocketSmbd.cancel pc.notify hdr).done := by
  unfold RocketSmbd.cancel
  split
  · exact h
  · next aid _ =>
    split
    · exact h
    · next rest hrest =>
      obtain ⟨hmem, hactive⟩ := removeActive_eq h.sound.active_nodup hrest
      have hsound := h.sound.callOff [aid] fun k hk => List.mem_singleton.1 hk ▸ hmem
      refine ⟨?_, h.own, h.numbered, h.next, h.window.congr rfl rfl, h.used, h.carried⟩
      have hledger : ({ pc with notify := { pc.notify with
            active := rest
            done := pc.notify.done ++ [⟨aid, Status.cancelled⟩] } } : ProtoConn).ledger
          log watched pc.notify.new (pc.notify.done ++ [⟨aid, Status.cancelled⟩]) =
          { pc.ledger log watched pc.notify.new pc.notify.done with
            active := (pc.notify.active.map ActivePend.asyncId).filter (· ∉ [aid])
            done := pc.notify.done.map NotifyDone.asyncId ++ [aid] } := by
        simp only [ProtoConn.ledger, List.map_append, List.map_singleton, hactive]
      rw [hledger]
      exact hsound

/-- A request is pended. -/
theorem accept (h : pc.Booked cr log watched pc.notify.new pc.notify.done)
    (hroom : log.length + 1 ≤ (usedIds pc.msgLow pc.msgSeen).ncard) {p : NotifyPend}
    {a : ActivePend} (hp : p.asyncId = pc.notify.nextAsyncId)
    (hinfo : p.info.asyncId = pc.notify.nextAsyncId) (ha : a.asyncId = pc.notify.nextAsyncId) :
    { pc with notify := { pc.notify with
      nextAsyncId := pc.notify.nextAsyncId + 1, new := pc.notify.new ++ [p]
      active := pc.notify.active ++ [a] } }.Booked cr (log ++ [p.info]) watched
      (pc.notify.new ++ [p]) pc.notify.done := by
  have hlt : log.length < 2 ^ 64 := hroom.trans h.window.ncard_used_le
  have hsound := h.sound.issue (a := p.info) (by rw [hinfo]; exact h.next_fresh hlt)
  refine ⟨?_, ?_, ?_, ?_, h.window.congr rfl rfl, ?_, h.carried⟩
  · have hledger : ({ pc with notify := { pc.notify with
          nextAsyncId := pc.notify.nextAsyncId + 1, new := pc.notify.new ++ [p]
          active := pc.notify.active ++ [a] } } : ProtoConn).ledger (log ++ [p.info]) watched
        (pc.notify.new ++ [p]) pc.notify.done =
        { pc.ledger log watched pc.notify.new pc.notify.done with
          issued := log ++ [p.info]
          fresh := pc.notify.new.map NotifyPend.info ++ [p.info]
          active := pc.notify.active.map ActivePend.asyncId ++ [p.info.asyncId] } := by
      simp only [ProtoConn.ledger, List.map_append, List.map_singleton, ha, hinfo]
    rw [hledger]
    exact hsound
  · intro p' hp'
    rw [← List.append_assoc] at hp'
    rcases List.mem_append.1 hp' with hp' | hp'
    · exact h.own p' hp'
    · obtain rfl := List.mem_singleton.1 hp'
      rw [hinfo, hp]
  · rw [List.map_append, h.numbered, List.length_append, List.length_singleton, List.range_succ,
      List.map_append, List.map_singleton, List.map_singleton, hinfo, h.next]
  · show pc.notify.nextAsyncId + 1 = _
    rw [h.next, List.length_append, List.length_singleton, ← UInt64.ofNat_one, ← UInt64.ofNat_add]
  · rw [List.length_append, List.length_singleton]
    exact hroom

end ProtoConn.Booked

/-- The books after a request. -/
theorem Member.booked {srv : Srv σ} {cr : Crypto} {log : List AsyncMeta}
    {watched : List NotifyPend} (m : Member σ)
    (h : m.px.pc.Booked cr log watched m.px.pc.notify.new m.px.pc.notify.done) :
    let pc := (dispatch srv m.hdr m.msg m.px).1.pc
    pc.Booked cr (log ++ m.pended srv) watched pc.notify.new pc.notify.done := by
  intro pc
  obtain ⟨hclaim, hroom⟩ := h.claim m.hdr
  obtain ⟨hnoted, hfinals, hids, hclaimed⟩ := m.dispatches srv
  have hsame : (claimIds m.hdr m.px.pc).2.notify = m.px.pc.notify ∧
      (claimIds m.hdr m.px.pc).2.hist = m.px.pc.hist := by
    obtain ⟨msgLow, msgSeen, hpc⟩ := claimIds_fields m.hdr m.px.pc
    rw [hpc]
    exact ⟨rfl, rfl⟩
  rw [← hsame.1] at hclaim hnoted
  have htally : pc.tally =
      { (claimIds m.hdr m.px.pc).2 with notify := pc.notify }.tally := by
    show (_, pc.hist.finals, pc.msgLow, pc.msgSeen) = (_, _, _, _)
    rw [hsame.2, hfinals, Prod.mk.injEq, Prod.mk.injEq]
    exact ⟨rfl, rfl, hids⟩
  refine ProtoConn.Booked.congr ?_ htally
  have hlog : m.pended srv ≠ [] → m.hdr.command ≠ cmdCancel → log.length + 1 ≤ _ :=
    fun hne => hroom (hclaimed hne)
  change Noted m.hdr _ pc.notify _ at hnoted
  generalize m.pended srv = pended at hnoted hlog ⊢
  generalize (claimIds m.hdr m.px.pc).2 = pc₀ at hclaim hnoted hlog ⊢
  generalize pc.notify = q at hnoted ⊢
  cases hnoted with
  | closed fids =>
    rw [List.append_nil]
    exact hclaim.cleanups fids
  | cancelled =>
    rw [List.append_nil]
    exact hclaim.cancel m.hdr
  | accepted p a hcmd hp hinfo _ ha =>
    exact hclaim.accept (hlog (by simp) (by rw [hcmd]; decide)) hp hinfo ha

/-! ### Completions -/

/-- A completion, in the clear, names its request. -/
theorem finalizeAsync_names (channels : FinMap UInt64 ChannelState)
    (info : AsyncMeta) (st : UInt32) (events : List (UInt32 × Str)) (outLen : UInt32) :
    ∃ msg : Bytes, respMsgId msg = info.msgId ∧ respAsyncId msg = info.asyncId ∧
      finalizeAsync cr channels info (notifyFinalMsg info st events outLen) 4 =
        nbtPrefix msg.length ++ msg := by
  obtain ⟨st', body, hmsg⟩ := notifyFinalMsg_eq info st events outLen
  have hlen : 64 ≤ (respHdrAsync info st' 0 cmdChangeNotify ++ body).length := by simp
  have hid := respMsgId_respHdrAsync info st' 0 cmdChangeNotify body
  have haid := respAsyncId_respHdrAsync info st' 0 cmdChangeNotify body
  obtain ⟨msg, rfl | ⟨sc, rfl⟩, hframe⟩ := finalizeAsync_cases cr channels info hlen
  · exact ⟨_, hid, haid, hmsg ▸ hframe⟩
  · refine ⟨_, ?_, ?_, hmsg ▸ hframe⟩
    · rw [respMsgId, extract_signed cr sc hlen (by decide) (by decide)]
      exact hid
    · rw [respAsyncId, extract_signed cr sc hlen (by decide) (by decide)]
      exact haid

/-- A final response names its request, and is added to those built. -/
theorem buildNotifyFinal_names (pc : ProtoConn) (info : AsyncMeta) (st : UInt32)
    (events : List (UInt32 × Str)) (outLen : UInt32) :
    let out := buildNotifyFinal cr pc info st events outLen
    NamesRequest cr info out.2 ∧
      out.1.tally = (pc.notify, pc.hist.finals ++ [(info, out.2)], pc.msgLow, pc.msgSeen) := by
  obtain ⟨msg, hid, haid, hframe⟩ := finalizeAsync_names cr pc.channels info st events outLen
  unfold buildNotifyFinal
  dsimp only
  split
  · exact ⟨⟨msg, hid, haid, Or.inl hframe⟩, rfl⟩
  · split
    · rw [wrapTransform_eq, hframe]
      refine ⟨⟨msg, hid, haid, Or.inr ⟨_, rfl⟩⟩, rfl⟩
    · exact ⟨⟨msg, hid, haid, Or.inl hframe⟩, rfl⟩

/-- Final responses for `infos`, one after the other. -/
structure ProtoConn.Completes (cr : Crypto) (infos : List AsyncMeta) (pc pc' : ProtoConn) :
    Prop where
  next : pc'.notify.nextAsyncId = pc.notify.nextAsyncId
  msgLow : pc'.msgLow = pc.msgLow
  msgSeen : pc'.msgSeen = pc.msgSeen
  finals : pc'.hist.finals.map Prod.fst = pc.hist.finals.map Prod.fst ++ infos
  named : ∀ f ∈ pc'.hist.finals, f ∈ pc.hist.finals ∨ NamesRequest cr f.1 f.2

theorem ProtoConn.Completes.refl (pc : ProtoConn) : pc.Completes cr [] pc :=
  ⟨rfl, rfl, rfl, (List.append_nil _).symm, fun _ hf => Or.inl hf⟩

theorem ProtoConn.Completes.trans {cr : Crypto} {infos infos' : List AsyncMeta}
    {pc pc' pc'' : ProtoConn} (h : pc.Completes cr infos pc') (h' : pc'.Completes cr infos' pc'') :
    pc.Completes cr (infos ++ infos') pc'' where
  next := h'.next.trans h.next
  msgLow := h'.msgLow.trans h.msgLow
  msgSeen := h'.msgSeen.trans h.msgSeen
  finals := by rw [h'.finals, h.finals, List.append_assoc]
  named := fun f hf => (h'.named f hf).elim (h.named f) Or.inr

/-- The books after final responses, if the lists are again in order. -/
theorem ProtoConn.Booked.completes {cr : Crypto} {log infos : List AsyncMeta}
    {watched watched' new new' : List NotifyPend} {done done' : List NotifyDone}
    {pc pc' : ProtoConn} (h : pc.Booked cr log watched new done)
    (hc : pc.Completes cr infos pc') (hsub : ∀ p ∈ watched' ++ new', p ∈ watched ++ new)
    (hsound : (pc'.ledger log watched' new' done').Sound AsyncMeta.asyncId) :
    pc'.Booked cr log watched' new' done' where
  sound := hsound
  own := fun p hp => h.own p (hsub p hp)
  numbered := h.numbered
  next := hc.next.trans h.next
  window := h.window.congr hc.msgLow hc.msgSeen
  used := by
    rw [hc.msgLow, hc.msgSeen]
    exact h.used
  carried := fun f hf => (hc.named f hf).elim (h.carried f) fun hnamed => hnamed

theorem buildNotifyFinal_completes (pc : ProtoConn) (info : AsyncMeta) (st : UInt32)
    (events : List (UInt32 × Str)) (outLen : UInt32) :
    let out := buildNotifyFinal cr pc info st events outLen
    pc.Completes cr [info] out.1 ∧ out.1.notify = pc.notify := by
  obtain ⟨hnamed, htally⟩ := buildNotifyFinal_names cr pc info st events outLen
  generalize buildNotifyFinal cr pc info st events outLen = out at hnamed htally ⊢
  simp only [ProtoConn.tally, Prod.mk.injEq] at htally
  obtain ⟨hnotify, hfinals, hlow, hseen⟩ := htally
  refine ⟨⟨by rw [hnotify], hlow, hseen, by rw [hfinals, List.map_append]; rfl, ?_⟩, hnotify⟩
  intro f hf
  rw [hfinals] at hf
  rcases List.mem_append.1 hf with hf | hf
  · exact Or.inl hf
  · obtain rfl := List.mem_singleton.1 hf
    exact Or.inr hnamed

theorem completeNotify_completes (c : Conn) (p : NotifyPend) (st : UInt32)
    (events : List (UInt32 × Str)) :
    let c' := completeNotify cr c p st events
    c.proto.Completes cr [p.info] c'.proto ∧ c'.watches = c.watches ∧
      c'.proto.notify = { c.proto.notify with
        active := c.proto.notify.active.filter fun a => a.asyncId ≠ p.asyncId } := by
  obtain ⟨hc, hnotify⟩ := buildNotifyFinal_completes cr c.proto p.info st events p.outLen
  refine ⟨⟨hc.next, hc.msgLow, hc.msgSeen, hc.finals, hc.named⟩, rfl, ?_⟩
  unfold completeNotify
  dsimp only
  rw [hnotify]

end RocketSmbd
