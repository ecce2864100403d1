import RocketSmbd.Smb2.Process

/-!
# Batching is invisible

Responses of pipelined requests are collected in one transmit buffer.  `process_frame` appends to
it: it writes placeholders, pads, and patches them later at positions in the whole buffer, so an
offset that is not relative to the frame would damage an earlier response.  Here a state of the
processing is put *behind* bytes `p` that are already in the buffer, with all remembered positions
moved by their number, and every step of the processing is shown to commute with that.
-/

namespace RocketSmbd

open ByteString Vfs

variable {σ : Type}

/-! ### Requests -/

/-- The state with `p` in the transmit buffer before everything else. -/
def Px.behind (p : Bytes) (px : Px σ) : Px σ := { px with tx := p ++ px.tx }

theorem behind_shared (p : Bytes) (px : Px σ) : (px.behind p).shared = px.shared := rfl

theorem behind_pc (p : Bytes) (px : Px σ) : (px.behind p).pc = px.pc := rfl

theorem behind_chain (p : Bytes) (px : Px σ) : (px.behind p).chain = px.chain := rfl

section

variable (p : Bytes) (srv : Srv σ) (h : ReqHdr) (msg : Bytes) (px : Px σ) (tx : Bytes)

theorem errResp_append (st : UInt32) (chain : Chain) :
    errResp (p ++ tx) h st chain = p ++ errResp tx h st chain := by
  simp only [errResp, beginResp, List.append_assoc]

theorem simpleResp_append (chain : Chain) :
    simpleResp (p ++ tx) h chain = p ++ simpleResp tx h chain := by
  simp only [simpleResp, beginResp, List.append_assoc]

theorem putReply_append (chain : Chain) (r : Except UInt32 Body) :
    putReply (p ++ tx) h chain r = p ++ putReply tx h chain r := by
  cases r with
  | error st => exact errResp_append p h tx st chain
  | ok b => simp only [putReply, beginResp, List.append_assoc]

theorem putNotifyReply_append (chain : Chain) (r : Except UInt32 AsyncMeta) :
    putNotifyReply (p ++ tx) h chain r = p ++ putNotifyReply tx h chain r := by
  cases r with
  | error st => exact errResp_append p h tx st chain
  | ok info => simp only [putNotifyReply, beginRespAsync, List.append_assoc]

variable {sh : Shared σ} {pc : ProtoConn} {chain : Chain}

theorem err_append (st : UInt32) : Px.err ⟨sh, pc, chain, p ++ tx⟩ h st =
    (Px.err ⟨sh, pc, chain, tx⟩ h st).behind p :=
  congrArg (Px.mk sh pc chain) (errResp_append p h tx st chain)

theorem err_behind (st : UInt32) : (px.behind p).err h st = (px.err h st).behind p :=
  err_append p h px.tx st

theorem ss_append (st : UInt32) (sid : UInt64) (flags : UInt16) (blob : Bytes) :
    Px.ss ⟨sh, pc, chain, p ++ tx⟩ h st sid flags blob =
      (Px.ss ⟨sh, pc, chain, tx⟩ h st sid flags blob).behind p := by
  simp only [Px.ss, Px.behind, ssResp, beginResp, List.append_assoc]

/-! ### NEGOTIATE -/

theorem negotiateResp_behind (dialect cipher : UInt16) :
    negotiateResp srv h dialect cipher (px.behind p) =
      (negotiateResp srv h dialect cipher px).behind p := by
  have hbody : ∀ (maxRead : UInt32) (now : UInt64) (salt : Bytes),
      negotiateBody srv maxRead dialect cipher now salt (p ++ px.tx).length
          (beginResp (p ++ px.tx) h Status.success false 0 0) =
        p ++ negotiateBody srv maxRead dialect cipher now salt px.tx.length
          (beginResp px.tx h Status.success false 0 0) := by
    intro maxRead now salt
    rw [beginResp, List.append_assoc, List.length_append, negotiateBody_append]
    rfl
  unfold negotiateResp
  dsimp only [Px.ask, Px.withOs, Px.behind]
  split_ifs
  · rw [hbody]
  · rw [hbody]

theorem negotiate_behind :
    negotiate srv h msg (px.behind p) = (negotiate srv h msg px).behind p := by
  unfold negotiate
  rw [behind_pc]
  split_ifs
  · rfl
  · cases negotiateParams srv.cfg msg with
    | error st => exact err_behind p h px st
    | ok r => exact negotiateResp_behind p srv h { px with pc := _ } r.1 r.2.1

/-! ### SESSION_SETUP with NTLM -/

theorem ntlmSession_behind (binding : Bool) :
    ntlmSession srv h binding (px.behind p) =
      ((ntlmSession srv h binding px).1, (ntlmSession srv h binding px).2.behind p) := by
  unfold ntlmSession
  rw [behind_pc, behind_shared]
  dsimp only
  split_ifs <;> rfl

theorem ntlmNegotiate_behind (spnego binding : Bool) :
    ntlmNegotiate srv h msg spnego binding (px.behind p) =
      (ntlmNegotiate srv h msg spnego binding px).behind p := by
  unfold ntlmNegotiate
  rw [ntlmSession_behind]
  generalize ntlmSession srv h binding px = out
  obtain ⟨r, px⟩ := out
  cases r with
  | error st => exact err_behind p h px st
  | ok sid =>
    cases sid with
    | none => rfl
    | some sid => exact ss_append p h px.tx _ _ _ _

section

variable (sid : UInt64) (s : SessionInner) (ch : ChannelState) (auth : Option Ntlm.Authenticate)
  (challenge done : Bytes) (signingRequired : Bool)

theorem ntlmBind_behind :
    ntlmBind srv h sid s ch auth challenge done signingRequired (px.behind p) =
      (ntlmBind srv h sid s ch auth challenge done signingRequired px).behind p := by
  unfold ntlmBind
  rw [behind_pc]
  split_ifs
  · exact err_append p h px.tx _
  · exact ss_append p h px.tx _ _ _ _

theorem ntlmFirst_behind :
    ntlmFirst srv h sid s ch auth challenge done signingRequired (px.behind p) =
      (ntlmFirst srv h sid s ch auth challenge done signingRequired px).behind p := by
  unfold ntlmFirst
  cases verdict srv auth challenge with
  | user key user =>
    dsimp only
    rw [behind_pc]
    split_ifs
    · exact err_append p h px.tx _
    · exact ss_append p h px.tx _ _ _ _
  | guest =>
    dsimp only
    split_ifs
    · exact err_append p h px.tx _
    · exact ss_append p h px.tx _ _ _ _
  | reject => exact err_append p h px.tx _

end

theorem ntlmAuthenticate_behind (r : SetupReq) :
    ntlmAuthenticate srv h msg r (px.behind p) = (ntlmAuthenticate srv h msg r px).behind p := by
  have hon : (px.behind p).onSession h.sessionId = (px.onSession h.sessionId).behind p := rfl
  unfold ntlmAuthenticate
  dsimp only
  rw [hon, behind_pc]
  generalize px.onSession h.sessionId = px
  cases px.pc.channels.lookup h.sessionId with
  | none => exact err_append p h px.tx _
  | some ch =>
    dsimp only
    cases ch.pending with
    | none => exact ss_append p h px.tx _ _ _ _
    | some pending =>
      dsimp only [Px.setChannels]
      rw [behind_shared]
      cases px.shared.sessions.lookup h.sessionId with
      | none => exact err_append p h px.tx _
      | some s =>
        dsimp only
        by_cases hbinding : pending.binding = true
        · rw [if_pos hbinding, if_pos hbinding]
          exact ntlmBind_behind p srv h ⟨_, _, _, px.tx⟩ _ s _ _ _ _ _
        · rw [if_neg hbinding, if_neg hbinding]
          exact ntlmFirst_behind p srv h ⟨_, _, _, px.tx⟩ _ s _ _ _ _ _

theorem ntlmOther_behind : ntlmOther srv h (px.behind p) = (ntlmOther srv h px).behind p := by
  unfold ntlmOther
  split_ifs
  · exact err_append p h px.tx _
  · have hcreate : (px.behind p).create srv.env.os =
        ((px.create srv.env.os).1, (px.create srv.env.os).2.behind p) := rfl
    rw [hcreate]
    generalize px.create srv.env.os = out
    obtain ⟨sid, px⟩ := out
    cases sid with
    | none => rfl
    | some sid => exact ss_append p h px.tx _ _ _ _
  · exact err_append p h px.tx _

theorem ntlmSessionSetup_behind :
    ntlmSessionSetup srv h msg (px.behind p) = (ntlmSessionSetup srv h msg px).behind p := by
  unfold ntlmSessionSetup
  cases parseSetup msg with
  | none => exact err_behind p h px _
  | some r =>
    dsimp only
    cases Ntlm.classify r.blob with
    | negotiate => exact ntlmNegotiate_behind p srv h msg px _ _
    | authenticate => exact ntlmAuthenticate_behind p srv h msg px r
    | other => exact ntlmOther_behind p srv h px

/-! ### SESSION_SETUP with Kerberos -/

theorem krbAcquire_behind :
    krbAcquire srv (px.behind p) = ((krbAcquire srv px).1, (krbAcquire srv px).2.behind p) := by
  have hask : (px.behind p).ask (srv.env.gss.acceptor srv.cfg.krbAcceptorName) =
      ((px.ask (srv.env.gss.acceptor srv.cfg.krbAcceptorName)).1,
        (px.ask (srv.env.gss.acceptor srv.cfg.krbAcceptorName)).2.behind p) := rfl
  unfold krbAcquire
  rw [behind_pc]
  cases px.pc.krbAcceptor with
  | some acc => rfl
  | none =>
    dsimp only
    split_ifs
    · rfl
    · rw [hask]
      generalize px.ask (srv.env.gss.acceptor srv.cfg.krbAcceptorName) = out
      obtain ⟨r, px⟩ := out
      cases r <;> rfl

theorem krbLeg_behind (acc : ℕ) (token : Bytes) :
    krbLeg srv h msg acc token (px.behind p) =
      ((krbLeg srv h msg acc token px).1, (krbLeg srv h msg acc token px).2.behind p) := by
  unfold krbLeg
  rw [behind_pc]
  by_cases hsome :
      ((px.pc.channels.lookup h.sessionId).bind ChannelState.krbPending).isSome = true
  · simp only [if_pos hsome]
    rfl
  · simp only [if_neg hsome]
    rfl

theorem krbAbandon_behind (existing : Option UInt64) :
    krbAbandon existing (px.behind p) = (krbAbandon existing px).behind p := by
  cases existing <;> rfl

theorem krbContinue_behind (wrapped : Bool) (leg : KrbLeg) (out : Bytes) :
    krbContinue srv h wrapped leg out (px.behind p) =
      (krbContinue srv h wrapped leg out px).behind p := by
  unfold krbContinue
  rw [behind_pc]
  split_ifs
  · exact err_append p h px.tx _
  · cases leg.existing with
    | some sid => exact ss_append p h px.tx _ _ _ _
    | none =>
      have hcreate : (px.behind p).create srv.env.os =
          ((px.create srv.env.os).1, (px.create srv.env.os).2.behind p) := rfl
      dsimp only
      rw [hcreate]
      generalize px.create srv.env.os = made
      obtain ⟨sid, px⟩ := made
      cases sid with
      | none => rfl
      | some sid => exact ss_append p h px.tx _ _ _ _

theorem krbDone_behind (wrapped signingRequired : Bool) (leg : KrbLeg) (est : Established) :
    krbDone srv h wrapped signingRequired leg est (px.behind p) =
      (krbDone srv h wrapped signingRequired leg est px).behind p := by
  have htarget : krbTarget srv.env.os leg.existing (px.behind p) =
      ((krbTarget srv.env.os leg.existing px).1,
        (krbTarget srv.env.os leg.existing px).2.behind p) := by
    unfold krbTarget
    rw [behind_shared]
    cases leg.existing.filter (· ∈ px.shared.sessions) <;> rfl
  unfold krbDone
  rw [behind_pc]
  split_ifs
  · rw [krbAbandon_behind]
    exact err_behind p h (krbAbandon leg.existing px) _
  · rw [htarget]
    generalize krbTarget srv.env.os leg.existing px = out
    obtain ⟨sid, px⟩ := out
    cases sid with
    | none => rfl
    | some sid => exact ss_append p h px.tx _ _ _ _

theorem kerberosSessionSetup_behind :
    kerberosSessionSetup srv h msg (px.behind p) =
      (kerberosSessionSetup srv h msg px).behind p := by
  unfold kerberosSessionSetup
  cases parseSetup msg with
  | none => exact err_behind p h px _
  | some r =>
    dsimp only
    rw [krbAcquire_behind]
    generalize krbAcquire srv px = out
    obtain ⟨acc, px⟩ := out
    cases acc with
    | error st => exact err_behind p h px st
    | ok acc =>
      dsimp only
      rw [krbLeg_behind]
      generalize krbLeg srv h msg acc _ px = out
      obtain ⟨leg, px⟩ := out
      dsimp only
      cases leg.step with
      | done est => exact krbDone_behind p srv h px _ _ _ est
      | «continue» out => exact krbContinue_behind p srv h px _ _ out
      | failed e =>
        dsimp only
        rw [krbAbandon_behind]
        exact err_behind p h (krbAbandon leg.existing px) _

theorem sessionSetup_behind :
    sessionSetup srv h msg (px.behind p) = (sessionSetup srv h msg px).behind p := by
  unfold sessionSetup
  cases Rdr.parse (setupBlob msg) (msg.drop 64) with
  | none => exact err_behind p h px _
  | some blob =>
    dsimp only
    rw [behind_pc]
    cases setupMech srv px.pc h blob with
    | krb5 =>
      dsimp only
      split_ifs
      · exact kerberosSessionSetup_behind p srv h msg px
      · exact err_behind p h px _
    | ntlmssp | unknown =>
      dsimp only
      split_ifs
      · exact ntlmSessionSetup_behind p srv h msg px
      · exact err_behind p h px _

theorem logoff_behind : logoff srv h (px.behind p) = (logoff srv h px).behind p := by
  unfold logoff
  rw [behind_pc, behind_chain]
  dsimp only
  split_ifs
  · dsimp only [Px.setChannels]
    rw [behind_shared]
    cases px.shared.sessions.lookup px.chain.sessionId with
    | none | some s => exact congrArg (Px.mk _ _ _) (simpleResp_append p h px.tx px.chain)
  · exact err_behind p h px _

/-! ### Requests of a session -/

variable (sess : SessionInner)

theorem answer_behind (m : Handler σ Body) :
    answer h (px.behind p) sess m = (answer h px sess m).behind p :=
  congrArg (Px.mk _ _ _) (putReply_append p h px.tx _ _)

theorem answerRead_behind :
    answerRead srv h msg (px.behind p) sess =
      ((answerRead srv h msg px sess).1.behind p, (answerRead srv h msg px sess).2) := by
  unfold answerRead runHandler
  dsimp only [Px.behind]
  generalize read srv px.pc.maxRead px.pc.channels h (msg.drop 64)
    (px.enter sess) = out
  obtain ⟨r, s⟩ := out
  cases r with
  | error st => exact congrArg (fun tx => (Px.mk _ _ _ tx, none)) (errResp_append p h px.tx _ _)
  | ok o =>
    cases o with
    | plan z => rfl
    | body b => exact congrArg (fun tx => (Px.mk _ _ _ tx, none)) (putReply_append p h px.tx _ _)

theorem answerNotify_behind :
    answerNotify h msg (px.behind p) sess = (answerNotify h msg px sess).behind p :=
  congrArg (Px.mk _ _ _) (putNotifyReply_append p h px.tx _ _)

theorem answerIoctl_behind :
    answerIoctl srv h msg (px.behind p) = (answerIoctl srv h msg px).behind p := by
  unfold answerIoctl
  rw [behind_pc]
  cases ioctl srv px.pc msg with
  | reply r => exact congrArg (Px.mk _ _ _) (putReply_append p h px.tx _ _)
  | disconnect => rfl

/-- What a request does, with `p` in the buffer before everything else. -/
abbrev Routed.behind (out : Px σ × Option ZcReadPlan) : Px σ × Option ZcReadPlan :=
  (out.1.behind p, out.2)

theorem routeFile_behind (tree : Tree) (share : ShareCfg) :
    routeFile srv h msg (px.behind p) sess tree share =
      Routed.behind p (routeFile srv h msg px sess tree share) := by
  unfold routeFile
  rw [behind_pc]
  simp only [apply_ite (Routed.behind p), answer_behind, answerRead_behind, answerIoctl_behind,
    answerNotify_behind, err_behind]

theorem routeTree_behind (tree : Tree) :
    routeTree srv h msg (px.behind p) sess tree =
      Routed.behind p (routeTree srv h msg px sess tree) := by
  unfold routeTree
  simp only [answer_behind, answerIoctl_behind, err_behind]
  split_ifs
  · rfl
  · rfl
  · rfl
  · cases srv.cfg.shares[tree.shareIdx.toNat]? with
    | none => rfl
    | some share => exact routeFile_behind p srv h msg px sess tree share

theorem routeSession_behind :
    routeSession srv h msg (px.behind p) = Routed.behind p (routeSession srv h msg px) := by
  unfold routeSession
  rw [behind_pc, behind_chain, behind_shared]
  simp only [err_behind, answer_behind]
  cases px.shared.sessions.lookup px.chain.sessionId with
  | none => simp only [apply_ite (Routed.behind p)]
  | some sess =>
    dsimp only
    split_ifs
    · rfl
    · cases sess.trees.lookup px.chain.treeId with
      | none => rfl
      | some tree => exact routeTree_behind p srv h msg px sess tree
    · rfl

theorem route_behind : route srv h msg (px.behind p) = Routed.behind p (route srv h msg px) := by
  unfold route
  split_ifs
  · rw [negotiate_behind]
  · exact congrArg (fun tx => (Px.mk _ _ _ tx, none)) (simpleResp_append p h px.tx _)
  · rfl
  · rw [sessionSetup_behind]
  · rw [logoff_behind]
  · exact routeSession_behind p srv h msg px

/-- A request does the same whatever is in the buffer before its response. -/
theorem dispatch_behind :
    dispatch srv h msg (px.behind p) = Routed.behind p (dispatch srv h msg px) := by
  have hprepare : prepare h (px.behind p) = ((prepare h px).1, (prepare h px).2.behind p) := rfl
  have hclaim : claimIds h (px.behind p).pc = claimIds h px.pc := rfl
  have hpc : ((prepare h px).2.behind p).pc = (prepare h px).2.pc := rfl
  have hchain : ((prepare h px).2.behind p).chain = (prepare h px).2.chain := rfl
  unfold dispatch
  simp only [hclaim, hprepare, hpc, hchain, err_behind, route_behind]
  split_ifs <;> rfl

end

/-! ### Compounds -/

/-- The record of a response with `n` more bytes before it. -/
def RespRec.behind (n : ℕ) (r : RespRec) : RespRec := { r with start := n + r.start }

/-- The walk with `p` in the buffer before everything else. -/
def Walk.behind (p : Bytes) (w : Walk σ) : Walk σ :=
  { w with
    px := w.px.behind p
    prevStart := w.prevStart.map (p.length + ·)
    recs := w.recs.map (RespRec.behind p.length) }

/-- The member with `p` in the buffer before everything else. -/
def Member.behind (p : Bytes) (m : Member σ) : Member σ :=
  { m with px := m.px.behind p, respStart := p.length + m.respStart }

section

variable (p : Bytes) (srv : Srv σ) (frame : Bytes) (base : ℕ) (w : Walk σ)

theorem linkResponse_append (prevStart : Option ℕ) (tx : Bytes) :
    linkResponse (p.length + base) (prevStart.map (p.length + ·)) (p ++ tx) =
      p ++ linkResponse base prevStart tx := by
  cases prevStart with
  | none => rfl
  | some q =>
    simp only [linkResponse, Option.map_some]
    rw [Nat.add_assoc, pad8_append, List.length_append, Nat.add_sub_add_left, Nat.add_assoc,
      patch32_append]

theorem tooLarge_behind : tooLarge (p.length + base) (w.behind p) ↔ tooLarge base w := by
  unfold tooLarge
  simp only [Walk.behind, Px.behind, List.length_append, Nat.add_sub_add_left]

theorem memberAt_behind :
    memberAt frame (p.length + base) (w.behind p) =
      (memberAt frame base w).map (Member.behind p) := by
  have hoff : (w.behind p).off = w.off := rfl
  have hlarge := tooLarge_behind p base w
  unfold memberAt
  rw [hoff]
  cases parseHdr (frame.drop w.off) with
  | none => rfl
  | some h =>
    dsimp only
    by_cases hend : tooLarge base w ∨ messageEnd frame w.off h < w.off + hdrLen
    · rw [if_pos hend, if_pos (by rwa [hlarge])]
      rfl
    · rw [if_neg hend, if_neg (by rwa [hlarge])]
      have hlink : linkResponse (p.length + base) (w.behind p).prevStart (w.behind p).px.tx =
          p ++ linkResponse base w.prevStart w.px.tx := linkResponse_append p base _ _
      rw [hlink, List.length_append]
      rfl

theorem endWalk_behind :
    endWalk frame (p.length + base) (w.behind p) = (endWalk frame base w).behind p := by
  have hoff : (w.behind p).off = w.off := rfl
  have hlarge := tooLarge_behind p base w
  unfold endWalk
  rw [hoff]
  by_cases hend : (parseHdr (frame.drop w.off)).isSome ∧ tooLarge base w
  · rw [if_pos hend, if_pos ⟨hend.1, hlarge.mpr hend.2⟩]
    rfl
  · rw [if_neg hend, if_neg (fun h => hend ⟨h.1, hlarge.mp h.2⟩)]

theorem afterMember_behind (m : Member σ) :
    afterMember srv (w.behind p) (m.behind p) = (afterMember srv w m).behind p := by
  have hdispatch : dispatch srv (m.behind p).hdr (m.behind p).msg (m.behind p).px =
      Routed.behind p (dispatch srv m.hdr m.msg m.px) := dispatch_behind p srv m.hdr m.msg m.px
  unfold afterMember
  rw [hdispatch]
  generalize dispatch srv m.hdr m.msg m.px = out
  obtain ⟨px, z⟩ := out
  dsimp only
  -- a response was written behind `p` just when one was written at all
  have hanswered : (m.behind p).respStart < (px.behind p).tx.length ↔
      m.respStart < px.tx.length := by
    simp only [Member.behind, Px.behind, List.length_append, Nat.add_lt_add_iff_left]
  by_cases ha : m.respStart < px.tx.length
  · simp only [if_pos ha, if_pos (hanswered.mpr ha)]
    simp only [Walk.behind, List.map_append, List.map_cons, List.map_nil, Option.map_some]
    rfl
  · simp only [if_neg ha, if_neg (mt hanswered.mp ha)]
    rfl

theorem walkFrom_behind (fuel : ℕ) :
    walkFrom srv frame (p.length + base) fuel (w.behind p) =
      (walkFrom srv frame base fuel w).behind p := by
  induction fuel generalizing w with
  | zero => rfl
  | succ fuel ih =>
    unfold walkFrom
    rw [memberAt_behind]
    cases memberAt frame base w with
    | none => exact endWalk_behind p frame base w
    | some m =>
      have hgoes : (m.behind p).goesOn frame (w.behind p) ↔ m.goesOn frame w := Iff.rfl
      dsimp only [Option.map_some]
      rw [afterMember_behind, ih]
      by_cases hm : m.goesOn frame w
      · rw [if_pos hm, if_pos (hgoes.mpr hm)]
      · rw [if_neg hm, if_neg (mt hgoes.mp hm)]

/-! ### Post-passes -/

theorem withEnds_behind (n len : ℕ) (recs : List RespRec) :
    withEnds (n + len) (recs.map (RespRec.behind n)) =
      (withEnds len recs).map fun re => (re.1.behind n, n + re.2) := by
  fun_induction withEnds len recs with
  | case1 => rfl
  | case2 r => rfl
  | case3 r r' rs ih =>
    simp only [List.map_cons, withEnds] at ih ⊢
    rw [ih]
    rfl

variable (cr : Crypto)

theorem signInPlace_append (tx : Bytes) (start stop : ℕ) (sc : SignCtx) :
    signInPlace cr (p ++ tx) (p.length + start) (p.length + stop) sc =
      p ++ signInPlace cr tx start stop sc := by
  unfold signInPlace
  dsimp only
  rw [Nat.add_assoc, Nat.add_assoc, extract_append_right, patch32_append, extract_append_right,
    Nat.add_assoc, patch_append_right]

theorem signPass_append (pc : ProtoConn) (recs : List (RespRec × ℕ)) (tx : Bytes) :
    signPass cr pc (recs.map fun re => (re.1.behind p.length, p.length + re.2)) (p ++ tx) =
      p ++ signPass cr pc recs tx := by
  unfold signPass
  induction recs generalizing tx with
  | nil => rfl
  | cons re recs ih =>
    have hkey : signKey pc (re.1.behind p.length) = signKey pc re.1 := rfl
    simp only [List.map_cons, List.foldl_cons]
    rw [hkey]
    cases signKey pc re.1 with
    | none => exact ih tx
    | some sc =>
      have hsign := signInPlace_append p cr tx re.1.start re.2 sc
      dsimp only [RespRec.behind]
      rw [hsign]
      exact ih _

theorem chainPreauth_append (tx : Bytes) (pc : ProtoConn) (re : RespRec × ℕ) :
    chainPreauth cr frame (p ++ tx) pc (re.1.behind p.length, p.length + re.2) =
      chainPreauth cr frame tx pc re := by
  obtain ⟨r, stop⟩ := re
  unfold chainPreauth
  simp only [RespRec.behind, Nat.add_assoc, extract_append_right]

theorem preauthPass_append (tx : Bytes) (recs : List (RespRec × ℕ))
    (pc : ProtoConn) :
    preauthPass cr frame (p ++ tx) (recs.map fun re => (re.1.behind p.length, p.length + re.2)) pc =
      preauthPass cr frame tx recs pc := by
  unfold preauthPass
  simp only [List.foldl_map, chainPreauth_append]

/-! ### Frames -/

/-- What a frame leaves behind, with `p` in the buffer before everything else. -/
def FrameOut.behind (out : FrameOut σ) : FrameOut σ := { out with tx := p ++ out.tx }

theorem finishNbtWith_append (tx : Bytes) (len : ℕ) :
    finishNbtWith (p ++ tx) (p.length + base) len = p ++ finishNbtWith tx base len :=
  patch_append_right p tx _ base

theorem finishWalk_behind (sealed : Bool) :
    finishWalk srv frame (p.length + base) sealed (w.behind p) =
      (finishWalk srv frame base sealed w).behind p := by
  have hends : withEnds (w.behind p).px.tx.length (w.behind p).recs =
      (withEnds w.px.tx.length w.recs).map fun re => (re.1.behind p.length, p.length + re.2) := by
    simp only [Walk.behind, Px.behind, List.length_append]
    exact withEnds_behind p.length w.px.tx.length w.recs
  have htake : ∀ tx : Bytes, (p ++ tx).take (p.length + base) = p ++ tx.take base :=
    fun tx => List.take_length_add_append base
  unfold finishWalk
  dsimp only
  rw [hends]
  by_cases hclose : w.px.pc.close = true
  · rw [if_pos hclose, if_pos (show (w.behind p).px.pc.close = true from hclose)]
    exact congrArg (fun tx => FrameOut.mk _ _ tx _) (htake _)
  · rw [if_neg hclose, if_neg (show ¬ (w.behind p).px.pc.close = true from hclose)]
    have hplan : (w.behind p).plan = w.plan := rfl
    rw [hplan]
    cases w.plan with
    | some z => exact congrArg (fun tx => FrameOut.mk _ _ tx _) (htake _)
    | none =>
      have hsigned : (if sealed then (w.behind p).px.tx else
          signPass srv.env.crypto (w.behind p).px.pc
            ((withEnds w.px.tx.length w.recs).map fun re => (re.1.behind p.length, p.length + re.2))
            (w.behind p).px.tx) =
          p ++ (if sealed then w.px.tx else
            signPass srv.env.crypto w.px.pc (withEnds w.px.tx.length w.recs) w.px.tx) := by
        split_ifs
        · rfl
        · exact signPass_append p srv.env.crypto w.px.pc _ w.px.tx
      dsimp only
      rw [hsigned, preauthPass_append, List.length_append, Nat.add_sub_add_left]
      generalize (if sealed then w.px.tx else
        signPass srv.env.crypto w.px.pc (withEnds w.px.tx.length w.recs) w.px.tx) = tx
      split_ifs
      · exact congrArg (fun tx => FrameOut.mk _ _ tx _) (htake tx)
      · exact congrArg (fun tx => FrameOut.mk _ _ tx _) (finishNbtWith_append p base tx _)

section

variable (sh : Shared σ) (pc : ProtoConn) (tx : Bytes) (transformSid : Option UInt64)

theorem processSmb1_behind :
    processSmb1 srv sh pc frame (p ++ tx) transformSid =
      (processSmb1 srv sh pc frame tx transformSid).behind p := by
  have hbase : (p ++ tx).length = p.length + tx.length := List.length_append
  unfold processSmb1
  split_ifs
  · rfl
  · cases smb1NegotiateDialects frame with
    | none => rfl
    | some dialects =>
      dsimp only
      split_ifs
      · have hwildcard : negotiateRespSmb1Wildcard srv
              ⟨sh, pc, { transformSid }, p ++ tx ++ zeros 4⟩ =
            (negotiateRespSmb1Wildcard srv ⟨sh, pc, { transformSid }, tx ++ zeros 4⟩).behind p := by
          rw [List.append_assoc]
          exact negotiateResp_behind p srv wildcardHdr ⟨sh, pc, { transformSid }, tx ++ zeros 4⟩ _ _
        rw [hwildcard, hbase]
        generalize negotiateRespSmb1Wildcard srv ⟨sh, pc, { transformSid }, tx ++ zeros 4⟩ = px
        simp only [Px.behind, List.length_append, Nat.add_sub_add_left, finishNbtWith_append]
        rfl
      · have hrefuse : smb1NegotiateRefuse frame (p ++ tx ++ zeros 4) =
            p ++ smb1NegotiateRefuse frame (tx ++ zeros 4) := by
          simp only [smb1NegotiateRefuse, List.append_assoc]
        rw [hrefuse, hbase, List.length_append, Nat.add_sub_add_left, finishNbtWith_append]
        rfl

theorem processPlain_behind :
    processPlain srv sh pc frame (p ++ tx) transformSid =
      (processPlain srv sh pc frame tx transformSid).behind p := by
  have hstart : startWalk sh pc (p ++ tx) transformSid =
      (startWalk sh pc tx transformSid).behind p := by
    rw [startWalk, List.append_assoc]
    rfl
  unfold processPlain
  split_ifs
  · exact processSmb1_behind p srv frame sh pc tx transformSid
  · rw [hstart, List.length_append, walk, walkFrom_behind, finishWalk_behind]
    rfl

end

theorem sealResponse_append (pc : ProtoConn) (sid : UInt64) (enc : EncCtx)
    (inner tx : Bytes) :
    sealResponse cr pc sid enc inner (p ++ tx) =
      ((sealResponse cr pc sid enc inner tx).1, p ++ (sealResponse cr pc sid enc inner tx).2) := by
  unfold sealResponse
  simp only [wrapTransform_eq, List.append_assoc]
  generalize pc.logSeal _ = pc
  cases pc.channels.lookup sid with
  | none => rfl
  | some c =>
    dsimp only
    split_ifs <;> rfl

theorem processSealed_behind (sh : Shared σ) (pc : ProtoConn) (sid : UInt64) (enc : EncCtx)
    (plain tx : Bytes) :
    processSealed srv sh pc sid enc plain (p ++ tx) =
      (processSealed srv sh pc sid enc plain tx).behind p := by
  unfold processSealed
  generalize processPlain srv sh (startEncrypting pc sid) plain [] (some sid) = out
  obtain ⟨sh, pc, inner, action⟩ := out
  cases action with
  | close => rfl
  | respondClose => rfl
  | respond | zcRead z =>
    dsimp only
    rw [sealResponse_append]
    split_ifs <;> rfl

/-- **Batching is invisible**: a frame processed with `p` in the transmit buffer ends in the same
state and asks for the same action as with an empty one, and leaves `p` followed by exactly the
bytes it produces from an empty one. -/
theorem processFrame_batched (sh : Shared σ) (pc : ProtoConn) :
    let alone := processFrame srv sh pc frame []
    let batched := processFrame srv sh pc frame p
    batched.shared = alone.shared ∧ batched.pc = alone.pc ∧ batched.action = alone.action ∧
      batched.tx = p ++ alone.tx := by
  have hbehind : processFrame srv sh pc frame p = (processFrame srv sh pc frame []).behind p := by
    unfold processFrame
    split_ifs
    · cases openFrame srv.env.crypto pc frame with
      | none => exact congrArg (fun tx => FrameOut.mk sh pc tx .close) (List.append_nil p).symm
      | some content =>
        have hsealed := processSealed_behind p srv sh pc (transformSessionId frame) content.1
          content.2 []
        rwa [List.append_nil] at hsealed
    · have hplain := processPlain_behind p srv frame sh pc [] none
      rwa [List.append_nil] at hplain
  intro alone batched
  have hbatched : batched = alone.behind p := hbehind
  rw [hbatched]
  exact ⟨rfl, rfl, rfl, rfl⟩

end

end RocketSmbd
