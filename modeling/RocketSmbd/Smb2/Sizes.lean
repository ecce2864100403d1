import RocketSmbd.Smb2.LeaseCtx
import RocketSmbd.Smb2.SetupSizes

/-!
# How long a response can be

No response is longer than `maxResp`: its body holds at most one listing or one READ, one path name,
or a list of interfaces (`dispatch_bounded`).
-/

namespace RocketSmbd

open ByteString Vfs

variable {σ : Type}

/-! ### Requests of a session -/

section

open Eff (Returns)

variable (srv : Srv σ)

theorem parseCreate_lease {msg : Bytes} {req : CreateReq} {l : LeaseReq}
    (h : parseCreate msg = some req) (hl : req.lease = some l) :
    l.key.length ≤ 16 ∧ l.parent.length ≤ 16 := by
  obtain ⟨data, hkey, flags, duration, more, -, -, -, hmore⟩ := parseCreate_layout h hl
  refine ⟨hkey.le, ?_⟩
  cases hv : l.v2 with
  | true =>
    rw [hv] at hmore
    exact hmore.1.le
  | false =>
    rw [hv] at hmore
    rw [hmore.2.1, zeros_length]

theorem createBody_length_le (action : UInt32) (m : Meta) (attrs : UInt32) (fid : UInt64)
    {granted : Option LeaseReq} (state : UInt32)
    (hlease : ∀ l ∈ granted, l.key.length ≤ 16 ∧ l.parent.length ≤ 16) :
    (createBody action m attrs fid granted state).length ≤ maxBody := by
  have hreply : (leaseReply granted state).length ≤ 100 := by
    cases granted with
    | none => simp [leaseReply]
    | some l =>
      obtain ⟨hkey, hparent⟩ := hlease l rfl
      unfold leaseReply
      dsimp only
      split_ifs
      · simp only [List.length_append, p16_length, p32_length, p64_length, zeros_length,
          ctxNameRqls, List.length_cons, List.length_nil]
        omega
      · simp only [List.length_append, p16_length, p32_length, p64_length, zeros_length,
          ctxNameRqls, List.length_cons, List.length_nil]
        omega
  simp only [createBody, putFid, List.length_append, p8_length, p16_length, p32_length, p64_length,
    maxBody]
  omega

variable (msg : Bytes)

theorem create_returns (share : ShareCfg) (tree : Tree) (cid : ℕ × ℕ × UInt16)
    (allowOplock : Bool) :
    Returns (create srv msg share tree cid allowOplock) fun b => b.2.length ≤ maxBody := by
  refine .bind (.need _ _ fun req hreq => hreq) fun req hreq => .after fun ⟨path, rel⟩ =>
    .after fun o => .after fun m => .after fun _ => .after fun _ => .after fun fid => .ret ?_
  refine createBody_length_le _ _ _ _ _ fun l hl => parseCreate_lease hreq ?_
  exact (Option.filter_eq_some_iff.1 hl).1

theorem close_returns (body : Bytes) :
    Returns (close srv body) fun b => b.2.length ≤ maxBody := by
  refine .after fun s => .after fun ⟨flags, fid⟩ => .after fun of => .after fun m =>
    .after fun st => .after fun _ => .after fun _ => .ret ?_
  cases m with
  | none | some m => simp [closeAttrs, maxBody]

theorem flush_returns (body : Bytes) :
    Returns (flush srv body) fun b => b.2.length ≤ maxBody :=
  .after fun _ => .after fun _ => .after fun _ => .after fun _ => .ret (by simp [maxBody])

theorem write_returns (tree : Tree) :
    Returns (write srv msg tree) fun b => b.2.length ≤ maxBody :=
  .after fun _ => .after fun _ => .after fun _ => .after fun _ => .after fun _ => .after fun _ =>
    .after fun _ => .after fun _ => .ret (by simp [maxBody])

theorem lock_returns (body : Bytes) : Returns (lock srv body) fun b => b.2.length ≤ maxBody :=
  .after fun _ => .after fun _ => .after fun _ => .after fun _ => .after fun _ =>
    .ite (.after fun _ => .fail _) (.ret (by simp [maxBody]))

theorem treeConnect_returns :
    Returns (treeConnect srv msg) fun b => b.2.length ≤ maxBody :=
  .after fun _ => .after fun _ => .after fun _ => .after fun _ => .after fun _ =>
    .ret (by simp [maxBody])

theorem treeDisconnect_returns (os : Os σ) :
    Returns (treeDisconnect os) fun b => b.2.length ≤ maxBody :=
  .after fun _ => .ret (by simp [maxBody])

theorem setInfo_returns (share : ShareCfg) (readOnly : Bool) :
    Returns (setInfo srv msg share readOnly) fun b => b.2.length ≤ maxBody :=
  .after fun _ => .after fun _ => .after fun _ => .after fun _ => .after fun _ => .after fun _ =>
    .after fun _ => .after fun _ => .ret (by simp [maxBody])

/-! ### QUERY_DIRECTORY -/

theorem four_le_alignEntry (entry : Bytes) : 4 ≤ (alignEntry entry).length := by
  unfold alignEntry
  dsimp only
  rw [patch32, patch, List.length_append, List.length_append, p32_length]
  omega

/-- The listing stays within the client's buffer, and its last entry within the listing. -/
theorem listEntries_fits {infoClass : UInt8} {single : Bool} {outLen : ℕ} {es : List DirEnt}
    {l l' : Listing} (h : listEntries infoClass single outLen es l = some l')
    (hfits : l.data.length ≤ outLen)
    (hlast : l.emitted ≠ 0 → l.lastEntryStart + 4 ≤ l.data.length) :
    l'.data.length ≤ outLen ∧ (l'.emitted ≠ 0 → l'.lastEntryStart + 4 ≤ l'.data.length) := by
  induction es generalizing l with
  | nil =>
    obtain rfl := Option.some.inj h
    exact ⟨hfits, hlast⟩
  | cons e es ih =>
    unfold listEntries at h
    split at h
    · exact nomatch h
    · next entry _ =>
      have hentry := four_le_alignEntry entry
      dsimp only at h
      split at h
      · obtain rfl := Option.some.inj h
        exact ⟨hfits, hlast⟩
      · next hroom =>
        have hnew : (l.data ++ alignEntry entry).length ≤ outLen := by
          rw [List.length_append]
          omega
        have hstart : l.data.length + 4 ≤ (l.data ++ alignEntry entry).length := by
          rw [List.length_append]
          omega
        split at h
        · obtain rfl := Option.some.inj h
          exact ⟨hnew, fun _ => hstart⟩
        · exact ih h hnew fun _ => hstart

theorem queryDirectory_returns :
    Returns (queryDirectory srv msg) fun b => b.2.length ≤ maxBody := by
  refine .after fun s => .after fun r => .after fun of => .after fun _ => .after fun d =>
    .after fun _ => .bind (.need _ _ fun l hl => listEntries_fits hl (Nat.zero_le _) (by simp))
    fun l hl => .after fun _ => .bind (.refuse _ _) fun _ hne => .ret ?_
  have hlen : (min r.outLen maxTransact).toNat ≤ 4194304 := by
    rw [UInt32.toNat_min]
    exact min_le_right _ _
  have hdata := patch32_length_le 0 hl.1 ((hl.2 hne).trans hl.1)
  simp only [List.length_append, p16_length, p32_length, maxBody]
  omega

/-! ### QUERY_INFO -/

theorem fileInfoData_length_le {of : OpenFile} (hof : of.rel.length < 65536) {m : Meta}
    {infoClass : UInt8} {d : Bytes} (h : fileInfoData of m infoClass = some d) :
    d.length ≤ 300000 := by
  have hname := utf16le_length_le ('\\' :: of.rel)
  have hstream := utf16le_length_le [':', ':', '$', 'D', 'A', 'T', 'A']
  rw [List.length_cons] at hname
  unfold fileInfoData at h
  dsimp only at h
  split at h
  -- the classes with a fixed layout and at most one name
  iterate 12
    · obtain rfl := Option.some.inj h
      simp only [List.length_append, putBasicInfo, putStandardInfo, putName, p8_length, p16_length,
        p32_length, p64_length]
      omega
  · split_ifs at h
    · obtain rfl := Option.some.inj h
      simp
    · obtain rfl := Option.some.inj h
      simp only [List.length_append, p32_length, p64_length]
      exact (Nat.add_le_add_left hstream 24).trans (by decide)
  · exact nomatch h

theorem fsInfo_returns (hnames : srv.NamesShort) (of : OpenFile) (infoClass : UInt8) :
    Returns (fsInfo srv of infoClass) fun d => d.length ≤ 300000 := by
  unfold fsInfo
  split
  · refine .ret ?_
    have hlabel : ((srv.cfg.shares[of.shareIdx.toNat]?.map ShareCfg.name).getD []).length <
        65536 := by
      cases hshare : srv.cfg.shares[of.shareIdx.toNat]? with
      | none => simp
      | some share => exact hnames.shares share (List.mem_of_getElem? hshare)
    have hutf := utf16le_length_le
      ((srv.cfg.shares[of.shareIdx.toNat]?.map ShareCfg.name).getD [])
    simp only [List.length_append, p8_length, p32_length, p64_length]
    omega
  · exact .after fun _ => .ret (by simp)
  · exact .ret (by simp)
  · have hutf := utf16le_length_le ['N', 'T', 'F', 'S']
    refine .ret ?_
    simp only [List.length_append, p32_length, List.length_cons, List.length_nil] at hutf ⊢
    omega
  · exact .after fun _ => .ret (by simp)
  · exact .fail _

theorem queryInfo_length_le (hnames : srv.NamesShort) (body : Bytes) {s : Sx σ}
    (hs : s.sess.NamesShort) {b : Body} (hb : (queryInfo srv body s).1 = .ok b) :
    b.2.length ≤ maxBody := by
  unfold queryInfo at hb
  rw [Eff.bind_run_ok (Eff.read_run s)] at hb
  cases hparse : Rdr.parse (queryInfoFields s.chain) body with
  | none =>
    rw [hparse] at hb
    exact nomatch hb
  | some r =>
    rw [hparse, Eff.bind_run_ok (show Eff.need Status.invalidParameter (some r) s = (.ok r, s) from
      rfl)] at hb
    cases hget : s.sess.handles.get r.fid s.chain.treeId with
    | none =>
      have hfail : (Handler.getHandle r.fid : Handler σ OpenFile) s =
          (.error Status.fileClosed, s) := by
        rw [Handler.getHandle, Eff.bind_run_ok (Eff.read_run s), hget]
        rfl
      rw [Eff.bind_run_error hfail] at hb
      exact nomatch hb
    | some of =>
      have hfound : (Handler.getHandle r.fid : Handler σ OpenFile) s = (.ok of, s) := by
        rw [Handler.getHandle, Eff.bind_run_ok (Eff.read_run s), hget]
        rfl
      rw [Eff.bind_run_ok hfound] at hb
      have hof := hs of (HandleTable.get_mem_live hget).1
      refine (?_ : Returns _ fun b : Body => b.2.length ≤ maxBody) s b hb
      refine .bind (Q := fun d => d.length ≤ 300000) (.ite (.after fun m => .need _ _
        fun d hd => fileInfoData_length_le hof hd) (.ite (fsInfo_returns srv hnames of _)
        (.ite (.ret (by decide)) (.fail _)))) fun d hd => .ret ?_
      simp only [List.length_append, p16_length, p32_length, List.length_take, maxBody]
      omega

/-! ### READ -/

/-- What a READ may come to: a body within the bound, or a plan within the read limit. -/
def ReadOut.Bounded (maxRead : UInt32) : ReadOut → Prop
  | .plan p => p.length ≤ maxRead
  | .body b => b.2.length ≤ maxBody

theorem trySys_returns {A : Type} {m : Eff σ ℕ A} {Q : Except ℕ A → Prop} (h : ∀ o, Q (m o).1) :
    Returns (Handler.trySys m : Handler σ (Except ℕ A)) Q := by
  intro s r hr
  obtain rfl := Except.ok.inj hr
  exact h s.host.os

theorem readBuffered_returns (hsized : srv.Sized) (fd : Fd) {length : UInt32}
    (hlen : length.toNat ≤ 1048576) (offset : UInt64) (minCount : UInt32) :
    Returns (readBuffered srv.env.os fd length offset minCount) fun b => b.2.length ≤ maxBody := by
  refine .bind (Q := fun r => ∀ d, r = .ok d → d.length ≤ length.toNat)
    (trySys_returns fun o d hd => hsized.pread fd _ offset o d hd) fun r hr => .after fun _ => ?_
  cases r with
  | error e => exact .fail _
  | ok d =>
    have hd := hr d rfl
    refine .after fun _ => .after fun _ => .ret ?_
    simp only [List.length_append, p8_length, p16_length, p32_length, maxBody]
    omega

theorem read_returns (hsized : srv.Sized) {maxRead : UInt32} (hmax : maxRead ≤ 1048576)
    (channels : FinMap UInt64 ChannelState) (h : ReqHdr) (body : Bytes) :
    Returns (read srv maxRead channels h body) (ReadOut.Bounded maxRead) := by
  refine .after fun s => .after fun r => .after fun of => .after fun _ => .after fun dup => ?_
  have hmin : (min r.length maxRead).toNat ≤ maxRead.toNat := by
    rw [UInt32.toNat_min]
    exact min_le_right _ _
  refine .ite (.after fun m => .ret (UInt32.le_iff_toNat_le.2 hmin)) ?_
  exact .bind (readBuffered_returns srv hsized dup (hmin.trans (UInt32.le_iff_toNat_le.1 hmax)) _ _)
    fun b hb => .ret hb

/-! ### IOCTL -/

theorem interfaceInfo_length_le (next : UInt32) {i : Iface} (h : i.addr.octets.length ≤ 16) :
    (interfaceInfo next i).length ≤ 152 := by
  unfold interfaceInfo
  cases haddr : i.addr with
  | v4 octets | v6 octets =>
    rw [haddr] at h
    have h' : octets.length ≤ 16 := h
    simp only [List.length_append, p16_length, p32_length, p64_length, zeros_length]
    omega

theorem encodeInterfaceInfo_length_le {is : List Iface}
    (h : ∀ i ∈ is, i.addr.octets.length ≤ 16) :
    (encodeInterfaceInfo is).length ≤ 152 * is.length := by
  induction is with
  | nil => simp [encodeInterfaceInfo]
  | cons i is ih =>
    have hi := fun next => interfaceInfo_length_le next (h i List.mem_cons_self)
    have his := ih fun j hj => h j (List.mem_cons_of_mem _ hj)
    cases is with
    | nil => exact hi 0
    | cons j is =>
      rw [encodeInterfaceInfo, List.length_append, List.length_cons]
      · have hnext := hi 152
        omega
      · simp

theorem ioctl_length_le (hsized : srv.Sized) (pc : ProtoConn) (msg : Bytes) {b : Body}
    (h : ioctl srv pc msg = .reply (.ok b)) : b.2.length ≤ maxBody := by
  have hbody : ∀ ctl (out : Bytes), out.length ≤ 1000000 →
      (ioctlBody ctl out).length ≤ maxBody := by
    intro ctl out hout
    simp only [ioctlBody, List.length_append, p16_length, p32_length, p64_length, maxBody]
    omega
  unfold ioctl at h
  split at h
  · simp at h
  · split_ifs at h
    · obtain rfl := Except.ok.inj (IoctlOut.reply.inj h)
      exact hbody _ _ (by simp [hsized.guid])
    · obtain rfl := Except.ok.inj (IoctlOut.reply.inj h)
      refine hbody _ _ ((encodeInterfaceInfo_length_le fun i hi =>
        hsized.octets i (List.mem_of_mem_filter hi)).trans ?_)
      have hfilter := List.length_filter_le (fun i : Iface => decide ¬ i.loopback = true)
        srv.interfaces
      have hcount := hsized.interfaces
      omega
    · simp at h

end

/-! ### Requests -/

/-- What a request leaves is within the bounds: what it wrote, and the plan it left. -/
structure Px.Bounded (px : Px σ) (out : Px σ × Option ZcReadPlan) : Prop where
  grows : px.Grows maxResp out.1
  plan : ∀ p ∈ out.2, p.length ≤ px.pc.maxRead

theorem Px.Grows.bounded {px px' : Px σ} (h : px.Grows maxResp px') : px.Bounded (px', none) :=
  ⟨h, fun _ hp => nomatch hp⟩

section

variable (srv : Srv σ) (h : ReqHdr) (msg : Bytes) (px : Px σ)

theorem putReply_length_le (tx : Bytes) (chain : Chain) {r : Except UInt32 Body}
    (hr : ∀ b, r = .ok b → b.2.length ≤ maxBody) :
    (putReply tx h chain r).length ≤ tx.length + maxResp := by
  cases r with
  | ok b =>
    have hb := hr b rfl
    simp only [putReply, beginResp, List.length_append, respHdr_length, maxResp]
    omega
  | error st => exact errResp_length_le tx h st chain

theorem answer_grows (sess : SessionInner) (m : Handler σ Body)
    (hm : ∀ b, (m (px.enter sess)).1 = .ok b →
      b.2.length ≤ maxBody) : px.Grows maxResp (answer h px sess m) :=
  ⟨putReply_length_le h px.tx _ hm, rfl⟩

theorem answerRead_bounded (hsized : srv.Sized) (hmax : px.pc.maxRead ≤ 1048576)
    (sess : SessionInner) : px.Bounded (answerRead srv h msg px sess) := by
  have hread := read_returns srv hsized hmax px.pc.channels h (msg.drop 64)
    (px.enter sess)
  refine answerRead_cases srv h msg px sess (fun p hp => ?_) fun r hr => ?_
  · refine ⟨⟨Nat.le_add_right _ _, rfl⟩, fun q hq => ?_⟩
    obtain rfl := Option.some.inj hq
    exact hread _ hp
  · exact Px.Grows.bounded ⟨putReply_length_le h px.tx _ fun b hb => hread _ (hr b hb), rfl⟩

theorem answerNotify_grows (sess : SessionInner) :
    px.Grows maxResp (answerNotify h msg px sess) := by
  refine ⟨?_, rfl⟩
  unfold answerNotify
  dsimp only
  cases (runHandler px sess (changeNotify (px.pc.channels.lookup px.chain.sessionId) h
    (msg.drop 64))).1 with
  | error st => exact errResp_length_le px.tx h st _
  | ok info =>
    have hlen : (putNotifyReply px.tx h (runHandler px sess (changeNotify (px.pc.channels.lookup
        px.chain.sessionId) h (msg.drop 64))).2.chain (.ok info)).length = px.tx.length + 73 := by
      simp [putNotifyReply, beginRespAsync, errBody]
    exact hlen.le.trans (Nat.add_le_add_left (by decide) _)

theorem answerIoctl_grows (hsized : srv.Sized) : px.Grows maxResp (answerIoctl srv h msg px) := by
  unfold answerIoctl
  cases hr : ioctl srv px.pc msg with
  | disconnect => exact px.grows_disconnect
  | reply r =>
    refine ⟨putReply_length_le h px.tx _ fun b hb => ?_, rfl⟩
    subst hb
    exact ioctl_length_le srv hsized px.pc msg hr

section

variable (hsized : srv.Sized) (hnames : srv.NamesShort) (hmax : px.pc.maxRead ≤ 1048576)

include hsized hnames hmax

theorem routeFile_bounded {sess : SessionInner} (hsess : sess.NamesShort) (tree : Tree)
    (share : ShareCfg) : px.Bounded (routeFile srv h msg px sess tree share) := by
  have hite := @ite_rule σ px.Bounded
  have hanswer : ∀ m : Handler σ Body, Eff.Returns m (fun b => b.2.length ≤ maxBody) →
      px.Bounded (answer h px sess m, none) := fun m hm =>
    (answer_grows h px sess m fun b => hm _ b).bounded
  unfold routeFile
  dsimp only
  refine hite (fun _ => hanswer _ (create_returns srv msg share tree _ _)) fun _ =>
    hite (fun _ => hanswer _ (close_returns srv _)) fun _ =>
    hite (fun _ => hanswer _ (flush_returns srv _)) fun _ =>
    hite (fun _ => answerRead_bounded srv h msg px hsized hmax sess) fun _ =>
    hite (fun _ => hanswer _ (write_returns srv msg tree)) fun _ =>
    hite (fun _ => hanswer _ (queryDirectory_returns srv msg)) fun _ =>
    hite (fun _ => (answer_grows h px sess _ fun b hb => ?_).bounded) fun _ =>
    hite (fun _ => hanswer _ (setInfo_returns srv msg share _)) fun _ =>
    hite (fun _ => (answerIoctl_grows srv h msg px hsized).bounded) fun _ =>
    hite (fun _ => hanswer _ (lock_returns srv _)) fun _ =>
    hite (fun _ => (answerNotify_grows h msg px sess).bounded) fun _ => (px.grows_err h _).bounded
  exact queryInfo_length_le srv hnames _ hsess hb

theorem routeSession_bounded (hshared : px.shared.NamesShort) :
    px.Bounded (routeSession srv h msg px) := by
  have hite := @ite_rule σ px.Bounded
  unfold routeSession
  refine hite (fun _ => (px.grows_err h _).bounded) fun _ => ?_
  cases hs : px.shared.sessions.lookup px.chain.sessionId with
  | none => exact (px.grows_err h _).bounded
  | some sess =>
    dsimp only
    refine hite (fun _ => (answer_grows h px sess _
      (treeConnect_returns srv msg ⟨sess, _, _, _⟩)).bounded) fun _ => ?_
    cases sess.trees.lookup px.chain.treeId with
    | none => exact (px.grows_err h _).bounded
    | some tree =>
      dsimp only
      unfold routeTree
      refine hite (fun _ => (answer_grows h px sess _
        (treeDisconnect_returns srv.env.os ⟨sess, _, _, _⟩)).bounded) fun _ =>
        hite (fun _ => hite (fun _ => (answerIoctl_grows srv h msg px hsized).bounded)
          fun _ => (px.grows_err h _).bounded) fun _ => ?_
      cases srv.cfg.shares[tree.shareIdx.toNat]? with
      | none => exact px.grows_disconnect.bounded
      | some share =>
        exact routeFile_bounded srv h msg px hsized hnames hmax (hshared _ _ hs) tree share

theorem route_bounded (hshared : px.shared.NamesShort) : px.Bounded (route srv h msg px) := by
  have hite := @ite_rule σ px.Bounded
  unfold route
  exact hite (fun _ => (negotiate_grows srv h msg px hsized).bounded) fun _ =>
    hite (fun _ => (px.grows_simpleResp h _).bounded) fun _ =>
    hite (fun _ => Px.Grows.bounded ⟨Nat.le_add_right _ _, rfl⟩) fun _ =>
    hite (fun _ => (sessionSetup_grows srv h msg px hsized hnames).bounded) fun _ =>
    hite (fun _ => (logoff_grows srv h px).bounded) fun _ =>
    routeSession_bounded srv h msg px hsized hnames hmax hshared

/-- **No request writes more than `maxResp` bytes, or leaves a plan over the read limit.** -/
theorem dispatch_bounded (hshared : px.shared.NamesShort) :
    px.Bounded (dispatch srv h msg px) := by
  have hout := dispatch_dispatched srv h msg px
  generalize dispatch srv h msg px = out at hout ⊢
  cases hout with
  | replayed => exact px.grows_disconnect.bounded
  | foreign => exact Px.Grows.bounded (.after (px.ready h).grows_disconnect rfl rfl)
  | refused => exact Px.Grows.bounded (.after ((px.ready h).grows_err _ _) rfl rfl)
  | routed =>
    have hroute := route_bounded srv (h.paid px) msg (px.ready h) hsized hnames hmax hshared
    exact ⟨hroute.grows.after rfl rfl, hroute.plan⟩

end

end

end RocketSmbd
