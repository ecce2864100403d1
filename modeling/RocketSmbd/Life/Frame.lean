import RocketSmbd.Life.Setup
import RocketSmbd.Smb2.Process
import RocketSmbd.Smb2.Replies

/-!
# Frames make moves

`dispatch_move`: a request makes at most one move, with a label that its header determines.
`processFrame_moves`: a frame makes the moves of its members, framed by those of the transform and
followed by those of the preauth chaining.
-/

namespace RocketSmbd

open ByteString Vfs

variable {σ : Type}
variable {frame tx : Bytes} {m : Member σ} {pc : ProtoConn} {sh : Shared σ} {srv : Srv σ}

/-! ### Requests -/

theorem Host.Step.erase {grant : LeaseGrant → Prop} {m : Multiset ℕ} {a b : Host σ}
    (h : Host.Step grant m a b) : Host.Step grant m a.erase b.erase :=
  ⟨h.opened, h.finished, h.held, h.queued⟩

section

variable (os : Os σ) (sh : Shared σ) {sid : UInt64} {s : SessionInner}
  (h : sh.sessions.lookup sid = some s)
include h

theorem endSession_of_lookup :
    (endSession os sh sid).sessions = sh.sessions.erase sid ∧
      (endSession os sh sid).created = sh.created ∧
      Host.Step (fun _ => False) (serialsOf s.handles) sh.host.erase
        (endSession os sh sid).host.erase ∧
      ∀ key g, (endSession os sh sid).host.leases.HeldAt key g →
        sh.host.leases.HeldAt key g ∧ ∀ of ∈ s.handles.live, ¬ of.Frees key g := by
  unfold endSession
  rw [h]
  exact ⟨rfl, rfl, (closeFiles_step _ os s.handles.live sh.host).erase,
    fun _ _ => closeFiles_frees⟩

theorem dropChannel_dropped :
    Dropped sh.sessions sh.host.erase sid (dropChannel os sh sid s).sessions
        (dropChannel os sh sid s).host.erase ∧
      (dropChannel os sh sid s).created = sh.created := by
  unfold dropChannel
  dsimp only
  split_ifs with hc
  · obtain ⟨hsess, hcreated, hhost, hfree⟩ := endSession_of_lookup os
      { sh with sessions := sh.sessions.insert sid { s with channels := s.channels - 1 } }
      (AList.lookup_insert sh.sessions)
    rw [FinMap.insert_erase] at hsess
    rw [hsess, hcreated]
    exact ⟨.ended s _ h hc hhost hfree, rfl⟩
  · exact ⟨.kept s h hc, rfl⟩

end

/-- The labels of the moves that a request can make. -/
def requestLabel (h : ReqHdr) (pc : ProtoConn) (sid : UInt64) (k : Core) : Label → Prop
  | .negotiate => h.command = cmdNegotiate
  | .setup s => h.command = cmdSessionSetup ∧ (s = h.sessionId ∨ s ∉ k.sessions)
  | .preauth => h.command = cmdSessionSetup
  | .logoff s => h.command = cmdLogoff ∧ s = sid
  | .request s lease =>
    s = sid ∧ (lease = true → h.command = cmdCreate ∧ allowOplock pc h = true)
  | _ => False

section

open Eff (Keeps)

variable (srv : Srv σ) (h : ReqHdr) (msg : Bytes) (watched : List NotifyPend)
  (key : Option (UInt64 × EncCtx))

theorem logoff_move (hcmd : h.command = cmdLogoff) (px : Px σ) :
    MovesOnce srv (requestLabel h px.pc px.chain.sessionId) (px.core watched key)
      ((logoff srv h px).core watched key) := by
  unfold logoff
  dsimp only
  split_ifs with hany
  · obtain ⟨ch, hch, hest⟩ := any_eq_true.1 hany
    refine Or.inr ⟨.logoff px.chain.sessionId, ⟨hcmd, rfl⟩, ?_⟩
    dsimp only [Px.setChannels]
    cases hs : px.shared.sessions.lookup px.chain.sessionId with
    | none => exact .logoff px.chain.sessionId ch _ _ hch hest (.unknown hs)
    | some s =>
      obtain ⟨hdrop, hcreated⟩ := dropChannel_dropped srv.env.os px.shared hs
      have hmove : Move srv (.logoff px.chain.sessionId) (px.core watched key) _ :=
        .logoff px.chain.sessionId ch _ _ hch hest hdrop
      dsimp only [Px.core, Core.of]
      rw [hcreated]
      exact hmove
  · exact Or.inl rfl

/-- What a request may add: a CREATE a lease for its own connection, a CHANGE_NOTIFY a pend. -/
def requestAdds (h : ReqHdr) (pc : ProtoConn) (ch : Option ChannelState) : Adds :=
  ⟨fun g => (h.command = cmdCreate ∧ allowOplock pc h = true) ∧
    (g.wid, g.connIdx, g.connGen) = (pc.wid, pc.connIdx, pc.connGen), acceptedOn ch h⟩

theorem requestEffects_within {pc : ProtoConn} {sid : UInt64} {tree : Option Tree} {e : Effect}
    (he : requestEffects h pc sid tree e) :
    e.within (requestAdds h pc (pc.channels.lookup sid)) := by
  cases e with
  | insert of granted ino cid =>
    obtain ⟨hcmd, -, -, hgrant, rfl⟩ := he
    exact fun hsome g hg => ⟨⟨hcmd, hgrant hsome⟩, hg⟩
  | accept ch h' r of =>
    obtain ⟨-, rfl, rfl⟩ := he
    exact fun p hp => hp
  | _ => exact trivial

/-- Running a handler on the chain's session is a request move. -/
theorem runHandler_move {A : Type} {ch : ChannelState} {sess : SessionInner} (px : Px σ)
    {m : Handler σ A} (hm : Serves srv h px sess m) (hb : px.Bound ch sess) :
    MovesOnce srv (requestLabel h px.pc px.chain.sessionId) (px.core watched key)
      ((runHandler px sess m).2.core watched key) := by
  have hstep := (hm (px.enter sess)).step fun _ =>
    requestEffects_within h
  rw [hb.channel] at hstep
  refine Or.inr ⟨.request px.chain.sessionId (h.command = cmdCreate ∧ allowOplock px.pc h = true),
    ⟨rfl, by simp⟩, .request px.chain.sessionId ch _ sess _ _ _ hb.channel hb.established
      hb.session ⟨hstep.identity, hstep.serials, ?_, ?_, ?_⟩⟩
  · intro g hg
    exact (hstep.held g hg).imp_right fun ⟨hadd, hsid⟩ => ⟨by simpa using hadd.1, hadd.2, hsid⟩
  · intro b hb
    refine (hstep.queued b hb).imp_right fun ⟨g, hg, hbreak⟩ => ⟨g, hg.imp_right ?_, hbreak⟩
    exact fun ⟨hadd, hsid⟩ => ⟨by simpa using hadd.1, hadd.2, hsid⟩
  · intro p hp
    rcases List.mem_append.1 hp with hp | hp
    · exact Or.inl (List.mem_append_left _ hp)
    · rcases hstep.pends p hp with hp | ⟨hadd, hsid⟩
      · exact Or.inl (List.mem_append_right _ hp)
      · exact Or.inr ⟨⟨h, hadd⟩, hsid⟩

/-- A request that needs an established session. -/
theorem routeSession_move (px : Px σ) :
    MovesOnce srv (requestLabel h px.pc px.chain.sessionId) (px.core watched key)
      ((routeSession srv h msg px).1.core watched key) := by
  exact routeSession_state srv h msg px
    (P := fun px' => MovesOnce srv (requestLabel h px.pc px.chain.sessionId)
      (px.core watched key) (px'.core watched key)) (fun _ _ hP => hP) (Or.inl rfl) (Or.inl rfl)
    fun hb hm => runHandler_move srv h watched key px hm hb

theorem negotiate_move (hcmd : h.command = cmdNegotiate) (px : Px σ) :
    MovesOnce srv (requestLabel h px.pc px.chain.sessionId) (px.core watched key)
      ((negotiate srv h msg px).core watched key) := by
  unfold negotiate
  split_ifs with hneg
  · exact Or.inl rfl
  · cases negotiateParams srv.cfg msg with
    | error st => exact Or.inl rfl
    | ok r =>
      obtain ⟨dialect, cipher, clientNeg⟩ := r
      refine Or.inr ⟨.negotiate, hcmd, ?_⟩
      have hfirst : px.pc.negotiated = false := by simpa using hneg
      have hmove : Move srv .negotiate (px.core watched key) _ :=
        .negotiate dialect cipher clientNeg hfirst
      dsimp only [negotiateResp]
      split_ifs <;> exact hmove

theorem route_move (px : Px σ) :
    MovesOnce srv (requestLabel h px.pc px.chain.sessionId) (px.core watched key)
      ((route srv h msg px).1.core watched key) := by
  unfold route
  split_ifs with hneg hecho hcancel hsetup hlogoff
  · exact negotiate_move srv h msg watched key hneg px
  · exact Or.inl rfl
  · refine Or.inl ?_
    unfold cancel
    dsimp only
    split
    · rfl
    · split <;> rfl
  · refine (sessionSetup_move srv h msg watched key px).imp_right fun ⟨l, hl, hm⟩ => ⟨l, ?_, hm⟩
    cases l <;> first | exact ⟨hsetup, hl⟩ | exact hsetup | exact hl.elim
  · exact logoff_move srv h watched key hlogoff px
  · exact routeSession_move srv h msg watched key px

/-! ### Dispatch -/

/-- **A request makes at most one move**, and none unless it comes to its handler. -/
theorem dispatch_move (px : Px σ) :
    MovesOnce srv (fun k l => px.Reaches srv.env.crypto h msg ∧
      requestLabel h px.pc (effective h px.chain) k l) (px.core watched key)
      ((dispatch srv h msg px).1.core watched key) := by
  have hout := dispatch_dispatched srv h msg px
  generalize dispatch srv h msg px = out at hout ⊢
  cases hout with
  | replayed | foreign | refused => exact Or.inl rfl
  | routed hr =>
    refine (route_move srv (h.paid px) msg watched key _).imp_right fun ⟨l, hl, hm⟩ =>
      ⟨l, ⟨hr, ?_⟩, hm⟩
    cases l <;> exact hl

end

/-! ### Walks -/

/-- The members of a compound that are dispatched, each with the state its dispatch starts from. -/
def membersFrom (srv : Srv σ) (frame : Bytes) (base : ℕ) : ℕ → Walk σ → List (Member σ)
  | 0, _ => []
  | fuel + 1, w =>
    match memberAt frame base w with
    | none => []
    | some m =>
      m :: if m.goesOn frame w then membersFrom srv frame base fuel (afterMember srv w m) else []

/-- The member got a response. -/
def Member.answered (srv : Srv σ) (m : Member σ) : Prop :=
  m.respStart < (dispatch srv m.hdr m.msg m.px).1.tx.length

/-- The labels of the moves that the dispatch of the member can make. -/
def Member.moveLabel (srv : Srv σ) (m : Member σ) (k : Core) (l : Label) : Prop :=
  m.px.Reaches srv.env.crypto m.hdr m.msg ∧
    requestLabel m.hdr m.px.pc (effective m.hdr m.px.chain) k l

section

variable (srv : Srv σ) (frame : Bytes) (base : ℕ)
variable {m : Member σ} {w : Walk σ}

/-- What a member has from the walk that finds it; its response starts where the buffer ends. -/
structure Member.Found (w : Walk σ) (m : Member σ) : Prop where
  shared : m.px.shared = w.px.shared
  pc : m.px.pc = w.px.pc
  lastFid : m.px.chain.lastFid = w.px.chain.lastFid
  transform : m.px.chain.transformSid = w.px.chain.transformSid
  respStart : m.respStart = m.px.tx.length

theorem memberAt_found {frame : Bytes} {base : ℕ}
    (h : memberAt frame base w = some m) : m.Found w := by
  unfold memberAt at h
  split at h
  · simp at h
  · dsimp only at h
    split_ifs at h
    obtain rfl := Option.some.inj h
    exact ⟨rfl, rfl, rfl, rfl, rfl⟩

/-- A walk from `w` to `w'` over the members `ms`; one that finds the responses too large drops the
connection. -/
inductive Walked : Walk σ → List (Member σ) → Walk σ → Prop
  | out (w : Walk σ) : Walked w [] w
  | cut {w : Walk σ} (h : tooLarge base w) : Walked w [] { w with px := w.px.disconnect }
  | step {w w' : Walk σ} {m : Member σ} {ms : List (Member σ)}
      (h : memberAt frame base w = some m)
      (hon : m.goesOn frame w ∨ ms = [] ∧ w' = afterMember srv w m)
      (hrest : Walked (afterMember srv w m) ms w') : Walked w (m :: ms) w'

theorem walkFrom_walked (fuel : ℕ) (w : Walk σ) :
    Walked srv frame base w (membersFrom srv frame base fuel w)
      (walkFrom srv frame base fuel w) := by
  induction fuel generalizing w with
  | zero => exact .out w
  | succ fuel ih =>
    unfold walkFrom membersFrom
    cases hm : memberAt frame base w with
    | none =>
      unfold endWalk
      split_ifs with hlarge
      · exact .cut hlarge.2
      · exact .out w
    | some m =>
      dsimp only
      split_ifs with hon
      · exact .step hm (Or.inl hon) (ih _)
      · exact .step hm (Or.inr ⟨rfl, rfl⟩) (.out _)

variable {srv frame base} {w' : Walk σ} {ms : List (Member σ)}

theorem Walked.found (hw : Walked srv frame base w ms w') :
    ∀ m ∈ ms, ∃ w, memberAt frame base w = some m := by
  induction hw with
  | out | cut => simp
  | step h _ _ ih => exact List.forall_mem_cons.2 ⟨⟨_, h⟩, ih⟩

/-- What the dispatch of each member keeps, a walk keeps; it holds when each member is
dispatched. -/
theorem Walked.keeps (hw : Walked srv frame base w ms w') {P : Px σ → Prop}
    (hstart : ∀ w m, memberAt frame base w = some m → P w.px → P m.px)
    (hstep : ∀ m ∈ ms, P m.px → P (dispatch srv m.hdr m.msg m.px).1)
    (hend : ∀ px : Px σ, P px → P px.disconnect) (hP : P w.px) :
    P w'.px ∧ ∀ m ∈ ms, P m.px := by
  induction hw with
  | out => exact ⟨hP, fun m hm => absurd hm List.not_mem_nil⟩
  | cut => exact ⟨hend _ hP, fun m hm => absurd hm List.not_mem_nil⟩
  | step h _ _ ih =>
    have hm := hstart _ _ h hP
    obtain ⟨hlast, hrest⟩ := ih (fun m hm => hstep m (List.mem_cons_of_mem _ hm))
      (hstep _ List.mem_cons_self hm)
    exact ⟨hlast, List.forall_mem_cons.2 ⟨hm, hrest⟩⟩

/-- What the dispatch of each member keeps, where it may depend on the members before, last first,
holds when each member is dispatched. -/
theorem Walked.past (hw : Walked srv frame base w ms w') {P : List (Member σ) → Px σ → Prop}
    (hstart : ∀ past w m, memberAt frame base w = some m → P past w.px → P past m.px)
    (hstep : ∀ past (m : Member σ), P past m.px → P (m :: past) (dispatch srv m.hdr m.msg m.px).1)
    {past pre post : List (Member σ)} (hm : ms = pre ++ m :: post) (hP : P past w.px) :
    P (pre.reverse ++ past) m.px := by
  induction hw generalizing past pre with
  | out | cut => simp at hm
  | step hat _ _ ih =>
    have hm' := hstart past _ _ hat hP
    cases pre with
    | nil =>
      obtain ⟨rfl, -⟩ := List.cons.inj hm
      exact hm'
    | cons m₁ pre =>
      obtain ⟨rfl, hrest⟩ := List.cons.inj hm
      rw [List.reverse_cons, List.append_assoc]
      exact ih hrest (hstep past _ hm')

/-- The response of a member is recorded. -/
theorem mem_afterMember_recs {r : RespRec} (h : r ∈ (afterMember srv w m).recs) :
    r ∈ w.recs ∨ (m.answered srv ∧ r.cmd = m.hdr.command) := by
  dsimp only [afterMember] at h
  split_ifs at h with hans
  · rcases List.mem_append.1 h with hmem | hmem
    · exact Or.inl hmem
    · obtain rfl := List.mem_singleton.1 hmem
      exact Or.inr ⟨hans, rfl⟩
  · exact Or.inl h

/-- Every response of a walk answers one of its members. -/
theorem Walked.recs (hw : Walked srv frame base w ms w') {r : RespRec} (hr : r ∈ w'.recs) :
    r ∈ w.recs ∨ ∃ m ∈ ms, m.answered srv ∧ r.cmd = m.hdr.command := by
  induction hw with
  | out | cut => exact Or.inl hr
  | step _ _ _ ih =>
    rcases ih hr with hr | ⟨m, hm, h⟩
    · exact (mem_afterMember_recs hr).imp_right fun h => ⟨_, List.mem_cons_self, h⟩
    · exact Or.inr ⟨m, List.mem_cons_of_mem _ hm, h⟩

theorem memberAt_core (h : memberAt frame base w = some m)
    (watched : List NotifyPend) (key : Option (UInt64 × EncCtx)) :
    m.px.core watched key = w.px.core watched key := by
  unfold Px.core
  rw [(memberAt_found h).shared, (memberAt_found h).pc]

/-- The moves of a walk, and those up to the dispatch of a member. -/
theorem Walked.moves (hw : Walked srv frame base w ms w') {ok : Label → Core → Prop}
    (watched : List NotifyPend) (key : Option (UInt64 × EncCtx))
    (hok : ∀ m ∈ ms, ∀ l,
      m.moveLabel srv (m.px.core watched key) l → ok l (m.px.core watched key)) :
    Moves srv ok (w.px.core watched key) (w'.px.core watched key) ∧
      ∀ m ∈ ms, Moves srv ok (w.px.core watched key) (m.px.core watched key) :=
  hw.keeps (P := fun px => Moves srv ok (w.px.core watched key) (px.core watched key))
    (fun _ _ hm hP => memberAt_core hm watched key ▸ hP)
    (fun m hm hP => hP.trans ((dispatch_move srv m.hdr m.msg watched key m.px).moves (hok m hm)))
    (fun _ hP => hP) (.refl _)

end

/-! ### Frames -/

/-- The members of the plaintext `frame` that are dispatched. -/
def plainMembers (srv : Srv σ) (sh : Shared σ) (pc : ProtoConn) (frame tx : Bytes)
    (transformSid : Option UInt64) : List (Member σ) :=
  if frame.take 4 = smb1ProtoId then []
  else membersFrom srv frame tx.length (maxCompound + 1) (startWalk sh pc tx transformSid)

/-- The members of a frame that are dispatched; those of a transform frame are inside it. -/
def frameMembers (srv : Srv σ) (sh : Shared σ) (pc : ProtoConn) (frame tx : Bytes) :
    List (Member σ) :=
  if isTransform frame then
    match openFrame srv.env.crypto pc frame with
    | none => []
    | some (_, plain) =>
      let sid := transformSessionId frame
      plainMembers srv sh (startEncrypting pc sid) plain [] (some sid)
  else plainMembers srv sh pc frame tx none

/-- The session and the keys with which a frame is opened, if it is a transform frame that
decrypts. -/
def frameKey (cr : Crypto) (pc : ProtoConn) (frame : Bytes) : Option (UInt64 × EncCtx) :=
  if isTransform frame then (openFrame cr pc frame).map fun r => (transformSessionId frame, r.1)
  else none

/-- A plaintext frame is an SMB1 message, which has no members, or walked over. -/
@[elab_as_elim]
theorem processPlain_cases {P : List (Member σ) → FrameOut σ → Prop} (srv : Srv σ) (sh : Shared σ)
    (pc : ProtoConn) (frame tx : Bytes) (tsid : Option UInt64)
    (hsmb1 : frame.take 4 = smb1ProtoId → P [] (processSmb1 srv sh pc frame tx tsid))
    (hsmb2 : frame.take 4 ≠ smb1ProtoId → ∀ ms w,
      Walked srv frame tx.length (startWalk sh pc tx tsid) ms w →
      P ms (finishWalk srv frame tx.length tsid.isSome w)) :
    P (plainMembers srv sh pc frame tx tsid) (processPlain srv sh pc frame tx tsid) := by
  unfold plainMembers processPlain
  split_ifs with h
  · exact hsmb1 h
  · exact hsmb2 h _ _ (walkFrom_walked srv frame tx.length (maxCompound + 1) _)

/-- A frame is a plaintext one, or a transform frame that does not decrypt and drops the connection,
or one with a plaintext frame in it. -/
@[elab_as_elim]
theorem processFrame_cases {P : Option (UInt64 × EncCtx) → List (Member σ) → FrameOut σ → Prop}
    (srv : Srv σ) (sh : Shared σ) (pc : ProtoConn) (frame tx : Bytes)
    (hplain : isTransform frame = false →
      P none (plainMembers srv sh pc frame tx none) (processPlain srv sh pc frame tx none))
    (hshut : isTransform frame = true → P none [] ⟨sh, pc, tx, .close⟩)
    (hsealed : ∀ enc plain, isTransform frame = true →
      openFrame srv.env.crypto pc frame = some (enc, plain) →
      let sid := transformSessionId frame
      P (some (sid, enc)) (plainMembers srv sh (startEncrypting pc sid) plain [] (some sid))
        (processSealed srv sh pc sid enc plain tx)) :
    P (frameKey srv.env.crypto pc frame) (frameMembers srv sh pc frame tx)
      (processFrame srv sh pc frame tx) := by
  unfold frameKey frameMembers processFrame
  split_ifs with ht
  · cases hopen : openFrame srv.env.crypto pc frame with
    | none => exact hshut ht
    | some r => exact hsealed r.1 r.2 ht hopen
  · exact hplain (by simpa using ht)

/-- The content of a sealed frame drops the connection, has no response, or has one that is
sealed. -/
theorem processSealed_cases (srv : Srv σ) (sh : Shared σ) (pc : ProtoConn) (tx : Bytes)
    (sid : UInt64) (enc : EncCtx) (plain : Bytes) :
    let out := processPlain srv sh (startEncrypting pc sid) plain [] (some sid)
    let resp := sealResponse srv.env.crypto out.pc sid enc out.tx tx
    let r := processSealed srv sh pc sid enc plain tx
    r = ⟨out.shared, out.pc, tx, .close⟩ ∨ ∃ plan,
      let sh' := closePlan srv.env.os out.shared plan
      r = ⟨sh', out.pc, tx, .respond⟩ ∨ r = ⟨sh', resp.1, resp.2, .respond⟩ := by
  unfold processSealed
  generalize processPlain srv sh (startEncrypting pc sid) plain [] (some sid) = out
  obtain ⟨sh, pc, inner, action⟩ := out
  dsimp only
  cases action with
  | close | respondClose => exact Or.inl rfl
  | respond =>
    refine Or.inr ⟨none, ?_⟩
    split_ifs
    · exact Or.inl rfl
    · exact Or.inr rfl
  | zcRead p =>
    refine Or.inr ⟨some p, ?_⟩
    split_ifs
    · exact Or.inl rfl
    · exact Or.inr rfl

/-- The members of a plaintext frame are walked over. -/
theorem plainMembers_walked (srv : Srv σ) (sh : Shared σ) (pc : ProtoConn) (frame tx : Bytes)
    (tsid : Option UInt64) : ∃ w, Walked srv frame tx.length (startWalk sh pc tx tsid)
      (plainMembers srv sh pc frame tx tsid) w :=
  processPlain_cases srv sh pc frame tx tsid (fun _ => ⟨_, .out _⟩) fun _ _ w hw => ⟨w, hw⟩

/-- The members of a frame are walked over, or those of the frame in it: from the shared state and
the connection, which may begin to encrypt, and with no FileId remembered. -/
theorem frameMembers_walked (srv : Srv σ) (sh : Shared σ) (pc : ProtoConn) (frame tx : Bytes) :
    ∃ frame' base w w', Walked srv frame' base w (frameMembers srv sh pc frame tx) w' ∧
      w.px.shared = sh ∧ w.px.chain.lastFid = none ∧
      (w.px.pc = pc ∨ ∃ sid, w.px.pc = startEncrypting pc sid) ∧
      w.px.chain.transformSid =
        if isTransform frame then some (transformSessionId frame) else none := by
  refine processFrame_cases srv sh pc frame tx (fun ht => ?_) (fun ht => ?_) fun _ plain ht _ => ?_
  · obtain ⟨w, hw⟩ := plainMembers_walked srv sh pc frame tx none
    exact ⟨_, _, _, w, hw, rfl, rfl, Or.inl rfl, by simp [ht, startWalk]⟩
  · exact ⟨frame, 0, startWalk sh pc tx (some (transformSessionId frame)), _, .out _, rfl, rfl,
      Or.inl rfl, by simp [ht, startWalk]⟩
  · obtain ⟨w, hw⟩ := plainMembers_walked srv sh _ plain [] (some (transformSessionId frame))
    exact ⟨_, _, _, w, hw, rfl, rfl, Or.inr ⟨_, rfl⟩, by simp [ht, startWalk]⟩

/-- Every member of a frame was found by a walk over the frame or over what is sealed in it. -/
theorem mem_frameMembers (h : m ∈ frameMembers srv sh pc frame tx) :
    ∃ frame' base w, memberAt frame' base w = some m := by
  obtain ⟨frame', base, _, _, hw, -⟩ := frameMembers_walked srv sh pc frame tx
  exact ⟨frame', base, hw.found m h⟩

/-- `Walked.past` for a frame. -/
theorem frameMembers_past {P : List (Member σ) → Px σ → Prop}
    (hstart : ∀ past frame base w m, memberAt frame base w = some m → P past w.px → P past m.px)
    (hstep : ∀ past (m : Member σ), P past m.px → P (m :: past) (dispatch srv m.hdr m.msg m.px).1)
    (hP : ∀ px : Px σ, px.shared = sh → px.chain.lastFid = none →
      (px.pc = pc ∨ ∃ sid, px.pc = startEncrypting pc sid) → P [] px) {pre post : List (Member σ)}
    (hm : frameMembers srv sh pc frame tx = pre ++ m :: post) : P pre.reverse m.px := by
  obtain ⟨frame', base, w, _, hw, hsh, hfid, hpc, -⟩ := frameMembers_walked srv sh pc frame tx
  have hpast := hw.past (fun past => hstart past frame' base) hstep hm (hP w.px hsh hfid hpc)
  rwa [List.append_nil] at hpast

/-- The members of a frame know the transform they arrived in. -/
theorem frameMembers_transform (h : m ∈ frameMembers srv sh pc frame tx) :
    m.px.chain.transformSid =
      if isTransform frame then some (transformSessionId frame) else none := by
  obtain ⟨_, _, w, _, hw, -, -, -, htransform⟩ := frameMembers_walked srv sh pc frame tx
  exact (hw.keeps (P := fun px => px.chain.transformSid = _)
    (fun w m hm hw => (memberAt_found hm).transform.trans hw)
    (fun m _ hm => (dispatch_answers srv m.hdr m.msg m.px).transform.trans hm)
    (fun _ hP => hP) htransform).2 m h

section

variable (srv : Srv σ) (watched : List NotifyPend) (key : Option (UInt64 × EncCtx))
  {ok : Label → Core → Prop}

theorem mem_withEnds {len : ℕ} {recs : List RespRec} {re : RespRec × ℕ}
    (h : re ∈ withEnds len recs) : re.1 ∈ recs := by
  induction recs with
  | nil => simp [withEnds] at h
  | cons r recs ih =>
    cases recs with
    | nil =>
      obtain rfl := List.mem_singleton.1 h
      exact List.mem_cons_self
    | cons r' rs =>
      rcases List.mem_cons.1 h with rfl | h
      · exact List.mem_cons_self
      · exact List.mem_cons_of_mem r (ih h)

section

variable (sh : Shared σ) (pc : ProtoConn) (frame tx : Bytes)

theorem chainPreauth_moves (re : RespRec × ℕ)
    (hpre : ∀ k, ok .preauth k) (hneg : re.1.cmd = cmdNegotiate → ∀ k, ok .chainNeg k) :
    Moves srv ok (Core.of sh pc watched key)
      (Core.of sh (chainPreauth srv.env.crypto frame tx pc re) watched key) := by
  obtain ⟨r, stop⟩ := re
  unfold chainPreauth
  dsimp only
  split_ifs with hcmd hmore
  · exact .single (hneg hcmd _) (.chainNeg _)
  · cases hch : pc.channels.lookup r.sessId with
    | none =>
      have hsame : FinMap.modify r.sessId (fun ch => { ch with
          preauth := srv.env.crypto.sha512 (ch.preauth ++ tx.extract r.start stop) })
          pc.channels = pc.channels := by
        rw [FinMap.modify, hch]
      rw [hsame]
      exact .refl _
    | some ch =>
      rw [FinMap.modify_eq_insert hch]
      exact .single (hpre _) (.extend r.sessId ch _ hch)
  · exact .refl _

theorem preauthPass_moves (recs : List (RespRec × ℕ)) (hpre : ∀ k, ok .preauth k)
    (hneg : (∃ re ∈ recs, re.1.cmd = cmdNegotiate) → ∀ k, ok .chainNeg k) :
    Moves srv ok (Core.of sh pc watched key)
      (Core.of sh (preauthPass srv.env.crypto frame tx recs pc) watched key) := by
  have hfold : ∀ pc : ProtoConn, Moves srv ok (Core.of sh pc watched key)
      (Core.of sh (recs.foldl (chainPreauth srv.env.crypto frame tx) pc) watched key) := by
    induction recs with
    | nil => exact fun pc => .refl _
    | cons re recs ih =>
      refine fun pc => (chainPreauth_moves srv watched key sh pc frame tx re hpre fun hcmd =>
        hneg ⟨re, List.mem_cons_self, hcmd⟩).trans (ih ?_ _)
      exact fun ⟨re', hmem, hcmd⟩ => hneg ⟨re', List.mem_cons_of_mem re hmem, hcmd⟩
  unfold preauthPass
  split_ifs
  · exact hfold pc
  · exact .refl _

end

theorem closePlan_core (os : Os σ) (sh : Shared σ) (plan : Option ZcReadPlan) (pc : ProtoConn) :
    Core.of (closePlan os sh plan) pc watched key = Core.of sh pc watched key := by
  cases plan <;> rfl

theorem processSmb1_core (sh : Shared σ) (pc : ProtoConn) (frame tx : Bytes)
    (transformSid : Option UInt64) :
    let out := processSmb1 srv sh pc frame tx transformSid
    Core.of out.shared out.pc watched key = Core.of sh pc watched key := by
  unfold processSmb1
  dsimp only
  split_ifs
  · rfl
  · split
    · rfl
    · split_ifs
      · rfl
      · rfl

section

variable (sh : Shared σ) (pc : ProtoConn) (frame tx : Bytes) (transformSid : Option UInt64)
  (hmembers : ∀ m ∈ plainMembers srv sh pc frame tx transformSid, ∀ l,
    m.moveLabel srv (m.px.core watched key) l → ok l (m.px.core watched key))

include hmembers

/-- **A plaintext frame makes the moves of its members**, followed by the preauth chaining. -/
theorem processPlain_moves (hpre : ∀ k, ok .preauth k)
    (hneg : (∃ m ∈ plainMembers srv sh pc frame tx transformSid,
      m.answered srv ∧ m.hdr.command = cmdNegotiate) → ∀ k, ok .chainNeg k) :
    let out := processPlain srv sh pc frame tx transformSid
    Moves srv ok (Core.of sh pc watched key) (Core.of out.shared out.pc watched key) := by
  revert hmembers hneg
  refine processPlain_cases srv sh pc frame tx transformSid (fun _ _ _ => ?_)
    fun _ ms w hw hmembers hneg => ?_
  · dsimp only
    rw [processSmb1_core]
    exact .refl _
  · have hwalk := (hw.moves watched key hmembers).1
    unfold finishWalk
    dsimp only
    split_ifs
    · rw [closePlan_core]
      exact hwalk
    all_goals
      split
      · exact hwalk
      · refine hwalk.trans (preauthPass_moves srv watched key _ _ _ _ _ hpre ?_)
        rintro ⟨re, hre, hcmd⟩
        rcases hw.recs (mem_withEnds hre) with hr | ⟨m, hm, hans, hm'⟩
        · exact absurd hr List.not_mem_nil
        · exact hneg ⟨m, hm, hans, hm' ▸ hcmd⟩

theorem plainMembers_moves :
    ∀ m ∈ plainMembers srv sh pc frame tx transformSid,
      Moves srv ok (Core.of sh pc watched key) (m.px.core watched key) := by
  obtain ⟨w, hw⟩ := plainMembers_walked srv sh pc frame tx transformSid
  exact (hw.moves watched key hmembers).2

end

theorem sealResponse_move (sh : Shared σ) (pc : ProtoConn) (sid : UInt64) (enc : EncCtx)
    (inner tx : Bytes) :
    Move srv .encrypt (Core.of sh pc watched (some (sid, enc)))
      (Core.of sh (sealResponse srv.env.crypto pc sid enc inner tx).1 watched none) := by
  unfold sealResponse
  dsimp only [wrapTransform, ProtoConn.logSeal]
  cases hch : pc.channels.lookup sid with
  | none =>
    have hgone : (pc.channels.lookup sid).bind ChannelState.enc = none := by rw [hch]; rfl
    exact .sealGone sid enc rfl hgone
  | some c =>
    cases he : c.enc with
    | none =>
      have hgone : (pc.channels.lookup sid).bind ChannelState.enc = none := by
        rw [hch]
        exact he
      simp only [Option.bind_some, he, Option.getD_none, Option.any_none]
      exact .sealGone sid enc rfl hgone
    | some e =>
      simp only [Option.bind_some, he, Option.getD_some, Option.any_some, decide_true, if_true]
      exact .sealHeld sid c e hch he

theorem openFrame_enc {cr : Crypto} {pc : ProtoConn} {frame plain : Bytes} {enc : EncCtx}
    (h : openFrame cr pc frame = some (enc, plain)) :
    ∃ ch, pc.channels.lookup (transformSessionId frame) = some ch ∧ ch.enc = some enc := by
  unfold openFrame frameKeys at h
  split_ifs at h
  obtain ⟨e, hkeys, hdec⟩ := Option.bind_eq_some_iff.1 h
  obtain ⟨p, -, heq⟩ := Option.map_eq_some_iff.1 hdec
  obtain ⟨ch, hch, he⟩ := Option.bind_eq_some_iff.1 hkeys
  obtain ⟨rfl, rfl⟩ := Prod.mk.injEq .. ▸ heq
  exact ⟨ch, hch, he⟩

/-- A transform frame that decrypts makes its session encrypt. -/
theorem startEncrypting_moves (sh : Shared σ) (pc : ProtoConn) {frame plain : Bytes}
    {enc : EncCtx} (hopen : openFrame srv.env.crypto pc frame = some (enc, plain))
    (hdecrypt : ok (.decrypt (transformSessionId frame)) (Core.of sh pc watched none)) :
    Moves srv ok (Core.of sh pc watched none)
      (Core.of sh (startEncrypting pc (transformSessionId frame)) watched
        (some (transformSessionId frame, enc))) := by
  obtain ⟨ch, hch, he⟩ := openFrame_enc hopen
  unfold startEncrypting
  rw [FinMap.modify_eq_insert hch]
  exact .single hdecrypt (.decrypt _ ch enc hch he rfl)

section

variable (sh : Shared σ) (pc : ProtoConn) (frame tx : Bytes)
  (hdecrypt : (frameKey srv.env.crypto pc frame).isSome →
    ok (.decrypt (transformSessionId frame)) (Core.of sh pc watched none))
  (hmembers : ∀ m ∈ frameMembers srv sh pc frame tx, ∀ l,
    let k := m.px.core watched (frameKey srv.env.crypto pc frame)
    m.moveLabel srv k l → ok l k)

include hdecrypt hmembers

/-- **A frame makes the moves of its members**, framed by those of the transform. -/
theorem processFrame_moves (hpre : ∀ k, ok .preauth k) (hseal : ∀ k, ok .encrypt k)
    (hneg : (∃ m ∈ frameMembers srv sh pc frame tx,
      m.answered srv ∧ m.hdr.command = cmdNegotiate) → ∀ k, ok .chainNeg k) :
    let out := processFrame srv sh pc frame tx
    Moves srv ok (Core.of sh pc watched none) (Core.of out.shared out.pc watched none) := by
  revert hdecrypt hmembers hneg
  refine processFrame_cases srv sh pc frame tx
    (fun _ _ hmembers => processPlain_moves srv watched none sh pc frame tx none hmembers hpre)
    (fun _ _ _ _ => .refl _) (fun enc plain _ hopen hdecrypt hmembers hneg => ?_)
  have hfirst := startEncrypting_moves srv watched sh pc hopen (hdecrypt rfl)
  have hplain := processPlain_moves srv watched _ sh _ plain [] _ hmembers hpre hneg
  have hsilent : ∀ k : Core, Moves srv ok k { k with key := none } :=
    fun k => .single (hseal _) .silent
  refine (hfirst.trans hplain).trans ?_
  rcases processSealed_cases srv sh pc tx (transformSessionId frame) enc plain with
    hr | ⟨plan, hr | hr⟩
  · rw [hr]
    exact hsilent _
  · rw [hr, closePlan_core]
    exact hsilent _
  · rw [hr, closePlan_core]
    exact .single (hseal _) (sealResponse_move srv watched _ _ _ _ _ _)

/-- **The moves of a frame up to the dispatch of one of its members.** -/
theorem frameMembers_moves : ∀ m ∈ frameMembers srv sh pc frame tx,
    Moves srv ok (Core.of sh pc watched none)
      (m.px.core watched (frameKey srv.env.crypto pc frame)) := by
  revert hdecrypt hmembers
  exact processFrame_cases srv sh pc frame tx
    (fun _ _ => plainMembers_moves srv watched none sh pc frame tx none)
    (fun _ _ _ m hm => absurd hm List.not_mem_nil) fun _ plain _ hopen hdecrypt hmembers m hm =>
      (startEncrypting_moves srv watched sh pc hopen (hdecrypt rfl)).trans
        (plainMembers_moves srv watched _ sh _ plain [] _ hmembers m hm)

end

end

end RocketSmbd
