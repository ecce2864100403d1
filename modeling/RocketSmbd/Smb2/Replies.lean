import RocketSmbd.Smb2.Routes
import RocketSmbd.Smb2.SetupOutcome

/-!
# What a request leaves in the transmit buffer

A request is answered with one message or with none, and the session of the transform it arrived in
stays that of the compound: `dispatch_answers`.  There is no answer to a CANCEL, to a READ that the
reactor serves, and to a request that drops the connection.  An answer is not signed and not linked
to another one until the frame is finished.
-/

namespace RocketSmbd

open ByteString Vfs

variable {σ : Type}

/-- A response message as a handler writes it: a 64-byte header, not signed, and a body. -/
def IsReply (resp : Bytes) : Prop :=
  ∃ hdr body, hdr.length = 48 ∧ resp = hdr ++ zeros 16 ++ body

/-- A response message before the frame is finished: not signed, and NextCommand is zero. -/
structure IsFresh (resp : Bytes) : Prop where
  reply : IsReply resp
  unsigned : UInt32.ofNat (leNat (resp.extract 16 20)) &&& flagSigned = 0
  next : resp.extract 20 24 = p32 0

/-- A header with known flags and a zero NextCommand. -/
theorem isFresh_of_parts {a b : Bytes} (flags : UInt32) (body : Bytes) (ha : a.length = 16)
    (hb : b.length = 24) (hflags : flags &&& flagSigned = 0) :
    IsFresh (a ++ p32 flags ++ p32 0 ++ b ++ zeros 16 ++ body) where
  reply := ⟨a ++ p32 flags ++ p32 0 ++ b, body, by simp [ha, hb], rfl⟩
  unsigned := by
    have h := extract_part a (p32 flags) (p32 0 ++ b ++ zeros 16 ++ body)
    rw [ha, p32_length, ← List.append_assoc, ← List.append_assoc, ← List.append_assoc] at h
    rw [h, ofNat_leNat_p32, hflags]
  next := by
    have h := extract_part (a ++ p32 flags) (p32 0) (b ++ zeros 16 ++ body)
    have hlen : (a ++ p32 flags).length = 20 := by simp [ha]
    rw [hlen, p32_length, ← List.append_assoc, ← List.append_assoc] at h
    exact h

theorem isFresh_respHdr (h : ReqHdr) (st : UInt32) (related : Bool) (treeId : UInt32)
    (sid : UInt64) (body : Bytes) : IsFresh (respHdr h st related treeId sid ++ body) := by
  have hfresh := @isFresh_of_parts
    (protoId ++ p16 64 ++ p16 h.creditCharge ++ p32 st ++ p16 h.command ++ p16 h.credits)
    (p64 h.msgId ++ p32 0 ++ p32 treeId ++ p64 sid)
    (flagResponse ||| (if related then flagRelated else 0)) body (by simp [protoId]) (by simp)
    (by cases related <;> decide)
  simpa only [respHdr, List.append_assoc] using hfresh

theorem isFresh_respHdrAsync (info : AsyncMeta) (st : UInt32) (credits cmd : UInt16)
    (body : Bytes) : IsFresh (respHdrAsync info st credits cmd ++ body) := by
  have hfresh := @isFresh_of_parts
    (protoId ++ p16 64 ++ p16 info.creditCharge ++ p32 st ++ p16 cmd ++ p16 credits)
    (p64 info.msgId ++ p64 info.asyncId ++ p64 info.sessionId)
    (flagResponse ||| flagAsync) body (by simp [protoId]) (by simp) (by decide)
  simpa only [respHdrAsync, List.append_assoc] using hfresh

/-- A handler answered the request with one message, or dropped the connection. -/
structure Px.Answers (px px' : Px σ) : Prop where
  transform : px'.chain.transformSid = px.chain.transformSid
  handle : px'.chain.lastFid = px.chain.lastFid
  notify : px'.pc.notify = px.pc.notify
  close : px.pc.close = true → px'.pc.close = true
  tx : (px'.pc.close = true ∧ px'.tx = px.tx) ∨ ∃ resp, IsFresh resp ∧ px'.tx = px.tx ++ resp

namespace Px

variable {px px₁ px' : Px σ}

/-- What was done before the answer left buffer and connection alone. -/
theorem Answers.quiet {srv : Srv σ} (h : px₁.Answers px') (hq : px.Quiet srv px₁) :
    px.Answers px' :=
  have hclose : px₁.pc.close = px.pc.close := (congrArg ProtoConn.close hq.outside :)
  have hnotify : px₁.pc.notify = px.pc.notify := (congrArg ProtoConn.notify hq.outside :)
  ⟨h.transform.trans hq.transform, h.handle.trans hq.handle, h.notify.trans hnotify,
    hclose ▸ h.close, hq.tx ▸ h.tx⟩

theorem answers_err (px : Px σ) (h : ReqHdr) (st : UInt32) : px.Answers (px.err h st) :=
  ⟨rfl, rfl, rfl, id, Or.inr ⟨_, isFresh_respHdr h st _ _ _ errBody, List.append_assoc ..⟩⟩

theorem answers_ss (px : Px σ) (h : ReqHdr) (st : UInt32) (sid : UInt64) (flags : UInt16)
    (blob : Bytes) : px.Answers (px.ss h st sid flags blob) := by
  refine ⟨rfl, rfl, rfl, id, Or.inr ⟨_, isFresh_respHdr h st px.chain.related 0 sid (p16 9 ++
    p16 flags ++
    p16 72 ++ p16 (UInt16.ofNat blob.length) ++ blob), ?_⟩⟩
  simp only [Px.ss, ssResp, beginResp, List.append_assoc]

theorem answers_disconnect (px : Px σ) : px.Answers px.disconnect :=
  ⟨rfl, rfl, rfl, fun _ => rfl, Or.inl ⟨rfl, rfl⟩⟩

end Px

section

variable (srv : Srv σ) (h : ReqHdr) (msg : Bytes) (px : Px σ)

theorem sessionSetup_answers : px.Answers (sessionSetup srv h msg px) := by
  have hout := sessionSetup_outcome srv h msg px
  generalize sessionSetup srv h msg px = px' at hout ⊢
  cases hout with
  | refused hq => exact (Px.answers_err _ h _).quiet hq
  | answered hq _ => exact (Px.answers_ss _ h _ _ _ _).quiet hq
  | dropped hq => exact (Px.answers_disconnect _).quiet hq

theorem negotiate_answers : px.Answers (negotiate srv h msg px) := by
  unfold negotiate
  split
  · exact px.answers_disconnect
  · cases negotiateParams srv.cfg msg with
    | error st => exact px.answers_err h st
    | ok r =>
      obtain ⟨dialect, cipher, clientNeg⟩ := r
      have htx : ∀ (salt : Bytes) (now : UInt64), ∃ resp, IsFresh resp ∧
          negotiateBody srv px.pc.maxRead dialect cipher now salt px.tx.length
            (beginResp px.tx h Status.success false 0 0) = px.tx ++ resp := by
        intro salt now
        obtain ⟨body, hbody⟩ := negotiateBody_eq srv px.pc.maxRead dialect cipher now salt px.tx
          (respHdr h Status.success false 0 0) (respHdr_length ..)
        exact ⟨_, isFresh_respHdr h _ _ _ _ body, hbody⟩
      dsimp only [negotiateResp]
      split
      · exact ⟨rfl, rfl, rfl, id, Or.inr (htx _ _)⟩
      · exact ⟨rfl, rfl, rfl, id, Or.inr (htx _ _)⟩

theorem answers_simpleResp {px' : Px σ}
    (htransform : px'.chain.transformSid = px.chain.transformSid)
    (hhandle : px'.chain.lastFid = px.chain.lastFid)
    (htx : px'.tx = px.tx) (hclose : px'.pc.close = px.pc.close)
    (hnotify : px'.pc.notify = px.pc.notify) :
    px.Answers { px' with tx := simpleResp px'.tx h px'.chain } := by
  refine ⟨htransform, hhandle, hnotify, hclose ▸ id, Or.inr ⟨_, isFresh_respHdr h Status.success
    px'.chain.related px'.chain.treeId px'.chain.sessionId (p16 4 ++ p16 0), ?_⟩⟩
  simp only [simpleResp, beginResp, htx, List.append_assoc]

theorem logoff_answers : px.Answers (logoff srv h px) := by
  unfold logoff
  dsimp only
  split
  · split
    · exact answers_simpleResp h px rfl rfl rfl rfl rfl
    · exact answers_simpleResp h px rfl rfl rfl rfl rfl
  · exact px.answers_err h _

theorem putReply_answers (r : Except UInt32 (UInt32 × Bytes)) :
    px.Answers { px with tx := putReply px.tx h px.chain r } := by
  refine ⟨rfl, rfl, rfl, id, Or.inr ?_⟩
  cases r with
  | ok b =>
    exact ⟨_, isFresh_respHdr h b.1 px.chain.related px.chain.treeId px.chain.sessionId b.2, by
      simp only [putReply, beginResp, List.append_assoc]⟩
  | error st =>
    exact ⟨_, isFresh_respHdr h st px.chain.related px.chain.treeId px.chain.sessionId errBody,
      by simp only [putReply, errResp, beginResp, List.append_assoc]⟩

/-! ### Requests -/

/-- The request with command `cmd` was answered with one message or none; without one it dropped
the connection, goes on as a plan, or is a CANCEL. -/
structure Px.Answered (cmd : UInt16) (px : Px σ) (out : Px σ × Option ZcReadPlan) : Prop where
  transform : out.1.chain.transformSid = px.chain.transformSid
  close : px.pc.close = true → out.1.pc.close = true
  tx : ((out.1.pc.close = true ∨ out.2.isSome ∨ cmd = cmdCancel) ∧ out.1.tx = px.tx) ∨
    ∃ resp, IsFresh resp ∧ out.1.tx = px.tx ++ resp

theorem Px.Answers.answered {px px' : Px σ} (h : px.Answers px') (cmd : UInt16)
    (plan : Option ZcReadPlan) : px.Answered cmd (px', plan) :=
  ⟨h.transform, h.close, h.tx.imp_left fun ⟨hclose, htx⟩ => ⟨Or.inl hclose, htx⟩⟩

/-- What was done before the answer left the buffer alone. -/
theorem Px.Answered.after {px px₁ : Px σ} {cmd : UInt16} {out : Px σ × Option ZcReadPlan}
    (h : px₁.Answered cmd out) (htransform : px₁.chain.transformSid = px.chain.transformSid)
    (htx : px₁.tx = px.tx) (hclose : px₁.pc.close = px.pc.close) : px.Answered cmd out :=
  ⟨h.transform.trans htransform, hclose ▸ h.close, htx ▸ h.tx⟩

/-- A handler leaves the buffer to its caller and keeps the session of the compound. -/
theorem runHandler_chain {A : Type} {sess : SessionInner} {m : Handler σ A}
    (hm : Serves srv h px sess m) :
    (runHandler px sess m).2.chain.transformSid = px.chain.transformSid ∧
      (runHandler px sess m).2.chain.sessionId = px.chain.sessionId ∧
      (runHandler px sess m).2.tx = px.tx ∧ (runHandler px sess m).2.pc.close = px.pc.close :=
  have hstep : Sx.Step ⟨fun _ => True, fun _ => True⟩ _ _ :=
    (hm (px.enter sess)).step fun e _ => e.within_all
  ⟨hstep.transform, hstep.session, rfl, rfl⟩

/-- A session-scoped request keeps the session of the compound. -/
theorem routeSession_answers (cmd : UInt16) :
    px.Answered cmd (routeSession srv h msg px) ∧
      (routeSession srv h msg px).1.chain.sessionId = px.chain.sessionId := by
  refine routeSession_rule srv h msg px (P := fun out => px.Answered cmd out ∧
    out.1.chain.sessionId = px.chain.sessionId)
    (fun r => ⟨(putReply_answers h px r).answered cmd none, rfl⟩)
    ⟨px.answers_disconnect.answered cmd none, rfl⟩ (fun ch sess _ m hm => ?_)
    (fun ch sess _ _ hm => ?_) fun ch sess _ hm => ?_
  · obtain ⟨htransform, hsid, htx, hclose⟩ := runHandler_chain srv h px hm
    refine ⟨?_, hsid⟩
    exact ((putReply_answers h _ _).answered cmd none).after htransform htx hclose
  · obtain ⟨htransform, hsid, htx, hclose⟩ := runHandler_chain srv h px hm
    refine answerRead_cases srv h msg px sess (fun p _ => ⟨?_, hsid⟩) fun r _ => ⟨?_, hsid⟩
    · exact ⟨htransform, hclose ▸ id, Or.inl ⟨Or.inr (Or.inl rfl), htx⟩⟩
    · exact ((putReply_answers h _ r).answered cmd none).after htransform htx hclose
  · obtain ⟨htransform, hsid, htx, hclose⟩ := runHandler_chain srv h px hm
    unfold answerNotify
    cases hr : runHandler px sess
      (changeNotify (px.pc.channels.lookup px.chain.sessionId) h (msg.drop 64)) with
    | mk r px' =>
      rw [hr] at htransform hsid htx hclose
      dsimp only at htx hclose
      refine ⟨⟨htransform, hclose ▸ id, Or.inr ?_⟩, hsid⟩
      cases r with
      | ok info =>
        refine ⟨_, isFresh_respHdrAsync info Status.pending h.credits cmdChangeNotify errBody, ?_⟩
        simp only [putNotifyReply, beginRespAsync, htx, List.append_assoc]
      | error st =>
        refine ⟨_, isFresh_respHdr h st px'.chain.related px'.chain.treeId px'.chain.sessionId
          errBody, ?_⟩
        simp only [putNotifyReply, errResp, beginResp, htx, List.append_assoc]

theorem route_answers : px.Answered h.command (route srv h msg px) := by
  unfold route
  refine ite_rule (P := px.Answered h.command)
    (fun _ => (negotiate_answers srv h msg px).answered _ none) fun _ =>
    ite_rule (P := px.Answered h.command)
      (fun _ => (answers_simpleResp h px rfl rfl rfl rfl rfl).answered _ none) fun _ => ?_
  refine ite_rule (P := px.Answered h.command)
    (fun hcancel => ⟨rfl, id, Or.inl ⟨Or.inr (Or.inr hcancel), rfl⟩⟩) fun _ =>
    ite_rule (P := px.Answered h.command)
      (fun _ => (sessionSetup_answers srv h msg px).answered _ none) fun _ =>
      ite_rule (P := px.Answered h.command)
        (fun _ => (logoff_answers srv h px).answered _ none)
        fun _ => (routeSession_answers srv h msg px h.command).1

/-- **A request is answered with one message or none.** -/
theorem dispatch_answers : px.Answered h.command (dispatch srv h msg px) := by
  have htransform : (px.ready h).chain.transformSid = px.chain.transformSid := by
    change (resolveChain h px.chain).transformSid = _
    unfold resolveChain
    split <;> rfl
  have hout := dispatch_dispatched srv h msg px
  generalize dispatch srv h msg px = out at hout ⊢
  cases hout with
  | replayed => exact px.answers_disconnect.answered _ none
  | foreign => exact ((Px.answers_disconnect _).answered _ none).after htransform rfl rfl
  | refused => exact ((Px.answers_err _ _ _).answered _ none).after htransform rfl rfl
  | routed => exact (route_answers srv (h.paid px) msg (px.ready h)).after htransform rfl rfl

end

end RocketSmbd
