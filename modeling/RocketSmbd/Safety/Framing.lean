import RocketSmbd.Safety.FrameLengths

/-!
# Every frame carries its length

What `Safety.FrameLengths` says about frames is joined with the completions of pended requests,
which a run builds from the bound on the client's buffer.  The length of the server's own name has
no bound in the configuration, and a name that is long enough breaks the framing of a challenge.
-/

namespace RocketSmbd

open ByteString Vfs

variable {σ : Type}

/-! ### Completions -/

/-- A completion before it is sealed: a prefix and a message as long as what it was built from. -/
theorem finalizeAsync_framed (cr : Crypto) (channels : FinMap UInt64 ChannelState)
    (info : AsyncMeta) {resp : Bytes} (hresp : IsReply resp) :
    ∃ msg : Bytes, msg.length = resp.length ∧
      finalizeAsync cr channels info (zeros 4 ++ resp) 4 = nbtPrefix msg.length ++ msg := by
  obtain ⟨msg, hmsg, hframe⟩ := finalizeAsync_cases cr channels info hresp.length_le
  refine ⟨msg, ?_, hframe⟩
  rcases hmsg with rfl | ⟨sc, rfl⟩
  · rfl
  · exact signed_length cr sc hresp.length_le

theorem notifyFinalMsg_length_le (info : AsyncMeta) (st : UInt32) (events : List (UInt32 × Str))
    {outLen : UInt32} (h : outLen ≤ maxTransact) :
    (notifyFinalMsg info st events outLen).length ≤ 76 + maxTransact.toNat := by
  have hout : outLen.toNat ≤ maxTransact.toNat := UInt32.le_iff_toNat_le.1 h
  unfold notifyFinalMsg
  dsimp only
  generalize (if st = Status.success then notifyEntries events else []) = data
  generalize (if st = Status.success then Status.notifyEnumDir else st) = st'
  split_ifs with hfits
  · have hdata := hfits.2.2
    simp only [beginRespAsync, List.length_append, zeros_length, respHdrAsync_length, p16_length,
      p32_length] at hdata ⊢
    omega
  · simp only [beginRespAsync, List.length_append, zeros_length, respHdrAsync_length]
    decide

/-- What the completions of a connection need to be framed, and that they are. -/
structure Core.Framing (k : Core) : Prop where
  pends : ∀ p ∈ k.pends, p.outLen ≤ maxTransact
  finals : ∀ x ∈ k.hist.finals, IsFrame x.2

section

variable {srv : Srv σ} {l : Label} {k k' : Core}

theorem Core.Completes.isFrame {cr : Crypto} {x : AsyncMeta × Bytes} (h : k.Completes cr x)
    (hk : k.Framing) : IsFrame x.2 := by
  have hfinal : ∀ p ∈ k.pends, ∀ st events, ∃ msg : Bytes,
      transformHdrLen + msg.length < 2 ^ 24 ∧
        k.finalFrame cr p st events = nbtPrefix msg.length ++ msg := by
    intro p hp st events
    obtain ⟨resp, hresp, hmsg⟩ := notifyFinalMsg_reply p.info st events p.outLen
    obtain ⟨msg, hlen, hframe⟩ := finalizeAsync_framed cr k.channels p.info hresp
    have hle := notifyFinalMsg_length_le p.info st events (hk.pends p hp)
    rw [hmsg, List.length_append, zeros_length] at hle
    have hsmall : transformHdrLen + (76 + maxTransact.toNat) < 2 ^ 24 := by decide
    refine ⟨msg, by omega, ?_⟩
    rw [Core.finalFrame, hmsg]
    exact hframe
  cases h with
  | clear st events hp _ =>
    obtain ⟨msg, hlen, hframe⟩ := hfinal _ hp st events
    rw [hframe]
    exact isFrame_nbt rfl (by omega)
  | @sealed p st events ch e hp _ _ =>
    obtain ⟨msg, hlen, hframe⟩ := hfinal _ hp st events
    rw [hframe]
    exact isFrame_sealed cr _ _ _ hlen

theorem Move.framing (h : Move srv l k k') (hk : k.Framing) : k'.Framing := by
  refine ⟨fun p hp => ?_, fun x hx => ?_⟩
  · rcases h.pend_cases hp with hold | ⟨-, ch, -, -, hdr, hacc⟩
    · exact hk.pends p hold
    · exact hacc.2.2.2
  · rcases h.final_cases x hx with hold | hnew
    · exact hk.finals x hold
    · exact hnew.isFrame hk

theorem World.run_framing (srv : Srv σ) (workers : ℕ) (os : σ) (es : List Event) :
    ((World.start workers os).run srv es).Each Core.Framing := by
  refine World.run_own ⟨fun a b _ hpends hhist _ ha => ?_, fun k _ hpends hhist _ => ?_⟩
    (fun h => h.induct fun _ _ _ _ hm hk => hm.framing hk) workers os es
  · exact ⟨hpends ▸ ha.pends, hhist ▸ ha.finals⟩
  · exact ⟨by simp [hpends], by simp [hhist]⟩

end

/-- The challenge carries the server's name. -/
theorem length_le_challenge (name : Str) (chal : Bytes) :
    (utf16le name).length ≤ (Ntlm.challenge name chal).length := by
  unfold Ntlm.challenge
  simp only [List.length_append]
  omega

/-- The first leg of an NTLM setup is answered with a challenge. -/
theorem length_le_ntlmNegotiate (srv : Srv σ) (h : ReqHdr) (msg : Bytes) (binding : Bool)
    (px px' : Px σ) (sid : UInt64)
    (hs : ntlmSession srv h binding px = (.ok (some sid), px')) :
    (utf16le srv.cfg.serverName).length + 64 ≤
        (ntlmNegotiate srv h msg false binding px).tx.length ∧
      (ntlmNegotiate srv h msg false binding px).pc.close = px'.pc.close := by
  have hname := length_le_challenge srv.cfg.serverName
    ((px'.onSession sid).ask (srv.env.os.urandom 8)).1
  unfold ntlmNegotiate
  rw [hs]
  refine ⟨?_, rfl⟩
  simp only [Px.ss, ssResp, List.length_append, beginResp, respHdr_length, Bool.false_eq_true,
    if_false]
  omega

namespace Sample

/-- The server under another name. -/
def namedSrv (name : Str) : Srv Disk :=
  { srv false false with cfg := { cfg false false with serverName := name } }

theorem namedSrv_sized (name : Str) : (namedSrv name).Sized where
  guid := rfl
  interfaces := Nat.zero_le _
  octets := by simp [namedSrv, srv]
  urandom := by
    intro n s
    exact (leBytes_length n _).le
  pread := by
    intro fd len off s d hd
    change (s.ofFd fd _).1 = .ok d at hd
    unfold Disk.ofFd at hd
    split at hd
    · simp at hd
    · obtain rfl := Except.ok.inj hd
      rw [List.length_take]
      exact min_le_left _ _
  tokens := by
    intro acc ctx token s
    simp [namedSrv, srv, env, gss, GssStep.token]

/-- What is shared before the first frame. -/
def fresh : Shared Disk := (World.start 1 {}).shared

end Sample

namespace Sample

/-- What the first frame of a connection is, up to the challenge that it asks for. -/
theorem hello_member : ∃ m ∈ memberAt (setupReq 0 0 0 ntlmHello) 0
      (startWalk fresh (ProtoConn.new (srv false false) 0 0 1) [] none),
    ¬ m.goesOn (setupReq 0 0 0 ntlmHello)
      (startWalk fresh (ProtoConn.new (srv false false) 0 0 1) [] none) ∧
    (claimIds m.hdr m.px.pc).1 = true ∧ (prepare m.hdr m.px).2.chain.foreign = false ∧
    admitted crypto (prepare m.hdr m.px).2.pc (prepare m.hdr m.px).1 m.msg
      (prepare m.hdr m.px).2.chain = true ∧
    (prepare m.hdr m.px).1.command = cmdSessionSetup ∧
    ∃ blob ∈ Rdr.parse (setupBlob m.msg) (m.msg.drop 64),
      setupMech (srv false false) (prepare m.hdr m.px).2.pc (prepare m.hdr m.px).1 blob
        = .ntlmssp ∧
      ∃ r ∈ parseSetup m.msg, Ntlm.classify r.blob = .negotiate ∧ Ntlm.isSpnego r.blob = false ∧
        r.flags &&& sessionFlagBinding = 0 ∧
        (prepare m.hdr m.px).2.pc.close = false ∧ pendingSetups (prepare m.hdr m.px).2.pc = 0 ∧
        ((prepare m.hdr m.px).2.create os).1 = some 1 := by
  decide +kernel

/-- A setup without a mechanism of its own comes to the first NTLM leg. -/
theorem route_hello (name : Str) {h : ReqHdr} {msg blob : Bytes} {px : Px Disk} {r : SetupReq}
    (hcmd : h.command = cmdSessionSetup)
    (hblob : Rdr.parse (setupBlob msg) (msg.drop 64) = some blob)
    (hmech : setupMech (srv false false) px.pc h blob = .ntlmssp) (hr : parseSetup msg = some r)
    (hclass : Ntlm.classify r.blob = .negotiate) (hspnego : Ntlm.isSpnego r.blob = false)
    (hflags : r.flags &&& sessionFlagBinding = 0) :
    route (namedSrv name) h msg px =
      (ntlmNegotiate (namedSrv name) h msg false false px, none) := by
  have hmech' : setupMech (namedSrv name) px.pc h blob = .ntlmssp := hmech
  have hallowed : (namedSrv name).cfg.auth.allowsNtlm ∧ (namedSrv name).env.ntlm := ⟨rfl, rfl⟩
  rw [route_setup _ msg px hcmd]
  unfold sessionSetup ntlmSessionSetup
  rw [hblob]
  dsimp only
  rw [hmech']
  dsimp only
  rw [if_pos hallowed, hr]
  dsimp only
  rw [hclass, hspnego]
  simp [hflags]

theorem ntlmSession_hello (name : Str) {h : ReqHdr} {px : Px Disk}
    (hpending : pendingSetups px.pc = 0) (hcreate : (px.create os).1 = some 1) :
    ntlmSession (namedSrv name) h false px = (.ok (some 1), (px.create os).2) := by
  have hos : (namedSrv name).env.os = os := rfl
  unfold ntlmSession
  rw [if_neg Bool.false_ne_true, hpending, if_neg (by decide), hos]
  dsimp only
  rw [hcreate]

theorem create_close {σ : Type} (px : Px σ) (os : Os σ) :
    (px.create os).2.pc.close = px.pc.close := rfl

/-- The response to the first frame carries the server's name. -/
theorem hello_dispatch (name : Str) : ∃ m,
    memberAt (setupReq 0 0 0 ntlmHello) 0
      (startWalk fresh (ProtoConn.new (srv false false) 0 0 1) [] none) = some m ∧
    ¬ m.goesOn (setupReq 0 0 0 ntlmHello)
      (startWalk fresh (ProtoConn.new (srv false false) 0 0 1) [] none) ∧
    (utf16le name).length + 64 ≤ (dispatch (namedSrv name) m.hdr m.msg m.px).1.tx.length ∧
    (dispatch (namedSrv name) m.hdr m.msg m.px).1.pc.close = false ∧
    (dispatch (namedSrv name) m.hdr m.msg m.px).2 = none := by
  obtain ⟨m, hm, hon, hclaim, hforeign, hadm, hcmd, blob, hblob, hmech, r, hr, hclass, hspnego,
    hflags, hclose, hpending, hcreate⟩ := hello_member
  have hadm' : admitted (namedSrv name).env.crypto (prepare m.hdr m.px).2.pc
      (prepare m.hdr m.px).1 m.msg (prepare m.hdr m.px).2.chain = true := hadm
  have hroute := route_hello name hcmd hblob hmech hr hclass hspnego hflags
  obtain ⟨hlen, hsame⟩ := length_le_ntlmNegotiate (namedSrv name) (prepare m.hdr m.px).1 m.msg
    false _ _ 1 (ntlmSession_hello name hpending hcreate)
  have hdispatch : dispatch (namedSrv name) m.hdr m.msg m.px =
      (ntlmNegotiate (namedSrv name) (prepare m.hdr m.px).1 m.msg false false
        (prepare m.hdr m.px).2, none) := by
    unfold dispatch
    rw [hclaim, if_neg (by simp)]
    dsimp only
    rw [hforeign, if_neg Bool.false_ne_true, if_neg (not_not.2 hadm'), hroute]
  have hname : (namedSrv name).cfg.serverName = name := rfl
  rw [hname] at hlen
  rw [create_close, hclose] at hsame
  refine ⟨m, hm, hon, ?_⟩
  rw [hdispatch]
  exact ⟨hlen, hsame, rfl⟩

/-- The walk at the start of the first frame. -/
def helloWalk : Walk Disk := startWalk fresh (ProtoConn.new (srv false false) 0 0 1) [] none

/-- The first frame has one member, and its answer carries the server's name. -/
theorem hello_frame (name : Str) :
    (∀ m ∈ frameMembers (namedSrv name) fresh (ProtoConn.new (namedSrv name) 0 0 1)
      (setupReq 0 0 0 ntlmHello) [], m.px.shared = fresh) ∧
    (processFrame (namedSrv name) fresh (ProtoConn.new (namedSrv name) 0 0 1)
      (setupReq 0 0 0 ntlmHello) []).action = .respond ∧
    ∃ msg, (processFrame (namedSrv name) fresh (ProtoConn.new (namedSrv name) 0 0 1)
      (setupReq 0 0 0 ntlmHello) []).tx = framed [] msg ∧
        (utf16le name).length + 60 ≤ msg.length := by
  have hnew : ProtoConn.new (namedSrv name) 0 0 1 = ProtoConn.new (srv false false) 0 0 1 := rfl
  have hplain : isTransform (setupReq 0 0 0 ntlmHello) = false := by decide
  have hsmb2 : (setupReq 0 0 0 ntlmHello).take 4 ≠ smb1ProtoId := by decide
  obtain ⟨m, hm, hon, hlen, hclose, hplan⟩ := hello_dispatch name
  change memberAt _ _ helloWalk = _ at hm
  change ¬ m.goesOn _ helloWalk at hon
  have hmembers : membersFrom (namedSrv name) (setupReq 0 0 0 ntlmHello) 0 (maxCompound + 1)
      helloWalk = [m] := by
    unfold membersFrom
    rw [hm]
    dsimp only
    rw [if_neg hon]
  have hwalk : walkFrom (namedSrv name) (setupReq 0 0 0 ntlmHello) 0 (maxCompound + 1) helloWalk =
      afterMember (namedSrv name) helloWalk m := by
    unfold walkFrom
    rw [hm]
    dsimp only
    rw [if_neg hon]
  have hwalked := walkFrom_walked (namedSrv name) (setupReq 0 0 0 ntlmHello) 0 (maxCompound + 1)
    helloWalk
  obtain ⟨linked, hlaid, -⟩ := hwalked.laid rfl (startWalk_laid ..)
  rw [hwalk] at hlaid
  have hnoplan : (afterMember (namedSrv name) helloWalk m).plan = none := by
    change (dispatch (namedSrv name) m.hdr m.msg m.px).2.or none = none
    rw [hplan]
    rfl
  obtain ⟨msg, htx, hmsg, hact⟩ := finishWalk_framed (namedSrv name) (setupReq 0 0 0 ntlmHello) []
    hlaid false hclose hnoplan
  change _ = (dispatch (namedSrv name) m.hdr m.msg m.px).1.tx.length at hmsg
  have hprocess : processFrame (namedSrv name) fresh (ProtoConn.new (namedSrv name) 0 0 1)
      (setupReq 0 0 0 ntlmHello) [] = finishWalk (namedSrv name) (setupReq 0 0 0 ntlmHello)
        ([] : Bytes).length false (afterMember (namedSrv name) helloWalk m) := by
    unfold processFrame processPlain walk
    rw [hplain, if_neg Bool.false_ne_true, if_neg hsmb2, hnew]
    change finishWalk _ _ _ _ (walkFrom _ _ 0 _ helloWalk) = _
    rw [hwalk]
    rfl
  refine ⟨fun m' hm' => ?_, hprocess ▸ hact, msg, hprocess ▸ htx, ?_⟩
  · unfold frameMembers plainMembers at hm'
    rw [hplain, if_neg Bool.false_ne_true, if_neg hsmb2, hnew] at hm'
    change m' ∈ membersFrom _ _ 0 _ helloWalk at hm'
    rw [hmembers, List.mem_singleton] at hm'
    subst hm'
    exact (memberAt_found hm).shared
  · rw [List.length_nil] at hmsg
    omega

theorem utf16le_replicate (n : ℕ) : (utf16le (List.replicate n 'a')).length = 2 * n := by
  have hunits : utf16Units 'a' = [97] := by decide
  induction n with
  | zero => rfl
  | succ n ih =>
    have hstep : utf16le (List.replicate (n + 1) 'a') =
        p16 97 ++ utf16le (List.replicate n 'a') := by
      simp [utf16le, List.replicate_succ, hunits]
    rw [hstep, List.length_append, p16_length, ih]
    ring

end Sample

end RocketSmbd
