import RocketSmbd.Smb2.Fields
import RocketSmbd.Smb2.Signing

/-!
# Credits in responses

The credits granted to a request are accounted before it is known what becomes of it
(`accountCredits`), and every response to it carries them: error and success responses, the interim
response of an asynchronous request, and the plan of a READ that the reactor serves
(`dispatch_settled`).  Final responses and lease breaks carry none.
-/

namespace RocketSmbd

open ByteString Vfs Eff

variable {σ : Type}

/-- The handler of `h` answered with one message that carries the credits of `h`, or dropped the
connection. -/
structure Px.Pays (h : ReqHdr) (px px' : Px σ) : Prop where
  ledger : px'.pc.creditsOut = px.pc.creditsOut
  tx : (px'.pc.close = true ∧ px'.tx = px.tx) ∨
    ∃ resp, resp ≠ [] ∧ respCredits resp = h.credits ∧ px'.tx = px.tx ++ resp

/-- What was done left buffer and ledger alone. -/
structure Px.Idle (px px' : Px σ) : Prop where
  tx : px'.tx = px.tx
  ledger : px'.pc.creditsOut = px.pc.creditsOut

namespace Px

variable {h : ReqHdr} {px px₁ px' : Px σ}

theorem Pays.after (hp : px₁.Pays h px') (hi : px.Idle px₁) : px.Pays h px' :=
  ⟨hp.ledger.trans hi.ledger, hi.tx ▸ hp.tx⟩

/-- A response with the header of the request. -/
theorem pays_hdr {st : UInt32} {related : Bool} {treeId : UInt32} {sid : UInt64} {body : Bytes}
    (hledger : px'.pc.creditsOut = px.pc.creditsOut)
    (htx : px'.tx = px.tx ++ (respHdr h st related treeId sid ++ body)) : px.Pays h px' := by
  refine ⟨hledger, Or.inr ⟨_, ?_, respCredits_respHdr h st related treeId sid body, htx⟩⟩
  intro hnil
  have hlen := congrArg List.length hnil
  rw [List.length_append, respHdr_length] at hlen
  simp at hlen

section

variable (px : Px σ) (h : ReqHdr)

theorem pays_err (st : UInt32) : px.Pays h (px.err h st) :=
  pays_hdr rfl (List.append_assoc ..)

theorem pays_ss (st : UInt32) (sid : UInt64) (flags : UInt16)
    (blob : Bytes) : px.Pays h (px.ss h st sid flags blob) := by
  have htx : (px.ss h st sid flags blob).tx = px.tx ++ (respHdr h st px.chain.related 0 sid ++
      (p16 9 ++ p16 flags ++ p16 72 ++ p16 (UInt16.ofNat blob.length) ++ blob)) := by
    simp only [Px.ss, ssResp, beginResp, List.append_assoc]
  exact pays_hdr rfl htx

theorem pays_disconnect : px.Pays h px.disconnect :=
  ⟨rfl, Or.inl ⟨rfl, rfl⟩⟩

end

end Px

section

variable (srv : Srv σ) (h : ReqHdr) (msg : Bytes) (px : Px σ)

theorem sessionSetup_pays : px.Pays h (sessionSetup srv h msg px) := by
  have hidle : ∀ {px₁ : Px σ}, px.Quiet srv px₁ → px.Idle px₁ := fun hq =>
    ⟨hq.tx, (congrArg ProtoConn.creditsOut hq.outside :)⟩
  have hout := sessionSetup_outcome srv h msg px
  generalize sessionSetup srv h msg px = px' at hout ⊢
  cases hout with
  | refused hq => exact (Px.pays_err _ h _).after (hidle hq)
  | answered hq _ => exact (Px.pays_ss _ h _ _ _ _).after (hidle hq)
  | dropped hq => exact (Px.pays_disconnect _ h).after (hidle hq)

theorem negotiate_pays : px.Pays h (negotiate srv h msg px) := by
  unfold negotiate
  split
  · exact px.pays_disconnect h
  · cases negotiateParams srv.cfg msg with
    | error st => exact px.pays_err h st
    | ok r =>
      obtain ⟨dialect, cipher, clientNeg⟩ := r
      have hbody := fun salt now => negotiateBody_eq srv px.pc.maxRead dialect cipher now salt
        px.tx (respHdr h Status.success false 0 0) (respHdr_length ..)
      dsimp only [negotiateResp]
      split
      · obtain ⟨body, hbody⟩ := hbody (srv.env.os.urandom 32
          (filetimeNow srv.env.os px.shared.host.os).2).1
          (filetimeNow srv.env.os px.shared.host.os).1
        exact Px.pays_hdr rfl hbody
      · obtain ⟨body, hbody⟩ := hbody [] (filetimeNow srv.env.os px.shared.host.os).1
        exact Px.pays_hdr rfl hbody

theorem pays_simpleResp {px' : Px σ} (hi : px.Idle px') :
    px.Pays h { px' with tx := simpleResp px'.tx h px'.chain } := by
  have htx : simpleResp px'.tx h px'.chain = px'.tx ++ (respHdr h Status.success
      px'.chain.related px'.chain.treeId px'.chain.sessionId ++ (p16 4 ++ p16 0)) := by
    simp only [simpleResp, beginResp, List.append_assoc]
  have hpays : px'.Pays h { px' with tx := simpleResp px'.tx h px'.chain } := Px.pays_hdr rfl htx
  exact hpays.after hi

theorem logoff_pays : px.Pays h (logoff srv h px) := by
  unfold logoff
  dsimp only
  split
  · split
    · exact pays_simpleResp h px ⟨rfl, rfl⟩
    · exact pays_simpleResp h px ⟨rfl, rfl⟩
  · exact px.pays_err h _

theorem putReply_pays (r : Except UInt32 (UInt32 × Bytes)) :
    px.Pays h { px with tx := putReply px.tx h px.chain r } := by
  cases r with
  | ok b => exact Px.pays_hdr rfl (List.append_assoc ..)
  | error st => exact px.pays_err h st

/-! ### Requests -/

/-- What became of the request `h`, whose credits are in the ledger already. -/
inductive Px.Settled (h : ReqHdr) (px : Px σ) : Px σ × Option ZcReadPlan → Prop
  | dropped {px' : Px σ} (hclose : px'.pc.close = true) (htx : px'.tx = px.tx) :
    Settled h px (px', none)
  | answered {px' : Px σ} (resp : Bytes) (hledger : px'.pc.creditsOut = px.pc.creditsOut)
      (hne : resp ≠ []) (hcredits : respCredits resp = h.credits)
      (htx : px'.tx = px.tx ++ resp) : Settled h px (px', none)
  | planned {px' : Px σ} (p : ZcReadPlan) (hledger : px'.pc.creditsOut = px.pc.creditsOut)
      (htx : px'.tx = px.tx) (hcredits : p.credits = h.credits)
      (hsingle : px.chain.single = true)
      (hplain : mustSign px.pc.channels px.chain.sessionId h = false) :
    Settled h px (px', some p)
  | silent {px' : Px σ} (hledger : px'.pc.creditsOut = px.pc.creditsOut)
      (hcmd : h.command = cmdCancel) (htx : px'.tx = px.tx) : Settled h px (px', none)

theorem Px.Pays.settled {h : ReqHdr} {px px' : Px σ} (hp : px.Pays h px') :
    px.Settled h (px', none) := by
  rcases hp.tx with ⟨hclose, htx⟩ | ⟨resp, hne, hcredits, htx⟩
  · exact .dropped hclose htx
  · exact .answered resp hp.ledger hne hcredits htx

/-- A READ is left to the reactor only if it is alone in its frame and its response is neither
signed nor sealed. -/
theorem read_planned (maxRead : UInt32) (channels : FinMap UInt64 ChannelState) (body : Bytes)
    (s : Sx σ) (p : ZcReadPlan) (hp : (read srv maxRead channels h body s).1 = .ok (.plan p)) :
    p.credits = h.credits ∧ s.chain.single = true ∧
      mustSign channels s.chain.sessionId h = false ∧
      p.msgId = h.msgId ∧ p.sessionId = s.chain.sessionId := by
  unfold read at hp
  rw [Eff.bind_run_ok (Eff.read_run s)] at hp
  refine (?_ : Returns _ fun out => ∀ p, out = .plan p → p.credits = h.credits ∧
    s.chain.single = true ∧ mustSign channels s.chain.sessionId h = false ∧
    p.msgId = h.msgId ∧ p.sessionId = s.chain.sessionId) s _ hp p rfl
  refine .after fun r => .after fun of => .after fun _ => .after fun dup => ?_
  dsimp only
  split_ifs with hzc
  · refine .after fun m => .ret fun p hp => ?_
    obtain rfl := ReadOut.plan.inj hp
    exact ⟨rfl, hzc.1, Bool.eq_false_iff.2 hzc.2.2, rfl, rfl⟩
  · exact .bind (Q := fun _ => True) (fun _ _ _ => trivial) fun b _ => .ret fun p hp => nomatch hp

theorem runHandler_idle {A : Type} (sess : SessionInner) (m : Handler σ A) :
    px.Idle (runHandler px sess m).2 := ⟨rfl, rfl⟩

theorem answerRead_settled (sess : SessionInner) : px.Settled h (answerRead srv h msg px sess) := by
  have hidle := runHandler_idle px sess (read srv px.pc.maxRead px.pc.channels h (msg.drop 64))
  refine answerRead_cases srv h msg px sess (fun p hp => ?_)
    fun r _ => ((putReply_pays h _ r).after hidle).settled
  obtain ⟨hcredits, hsingle, hplain, -⟩ := read_planned srv h _ _ _ _ _ hp
  exact .planned p hidle.ledger hidle.tx hcredits hsingle hplain

theorem answerNotify_settled (sess : SessionInner) :
    px.Settled h (answerNotify h msg px sess, none) := by
  have hidle := runHandler_idle px sess
    (changeNotify (px.pc.channels.lookup px.chain.sessionId) h (msg.drop 64))
  unfold answerNotify
  cases hr : runHandler px sess
    (changeNotify (px.pc.channels.lookup px.chain.sessionId) h (msg.drop 64)) with
  | mk r px' =>
    rw [hr] at hidle
    cases r with
    | error st => exact ((px'.pays_err h st).after hidle).settled
    | ok info =>
      -- the interim response has an async header, with the credits of the request
      refine .answered (respHdrAsync info Status.pending h.credits cmdChangeNotify ++ errBody)
        hidle.ledger ?_ (respCredits_respHdrAsync ..) ?_
      · intro hnil
        have hlen := congrArg List.length hnil
        rw [List.length_append, respHdrAsync_length] at hlen
        simp at hlen
      · have htx : px'.tx = px.tx := hidle.tx
        simp only [putNotifyReply, beginRespAsync, htx, List.append_assoc]

theorem routeSession_settled : px.Settled h (routeSession srv h msg px) := by
  exact routeSession_rule srv h msg px (P := px.Settled h) (fun r => (putReply_pays h px r).settled)
    (px.pays_disconnect h).settled
    (fun ch sess _ m _ => ((putReply_pays h _ _).after (runHandler_idle px sess m)).settled)
    (fun ch sess _ _ _ => answerRead_settled srv h msg px sess)
    fun ch sess _ _ => answerNotify_settled h msg px sess

theorem route_settled : px.Settled h (route srv h msg px) := by
  unfold route
  refine ite_rule (P := px.Settled h) (fun _ => (negotiate_pays srv h msg px).settled) fun _ =>
    ite_rule (P := px.Settled h) (fun _ => (pays_simpleResp h px ⟨rfl, rfl⟩).settled) fun _ => ?_
  refine ite_rule (P := px.Settled h) (fun hcancel => .silent rfl hcancel rfl) fun _ =>
    ite_rule (P := px.Settled h) (fun _ => (sessionSetup_pays srv h msg px).settled) fun _ =>
      ite_rule (P := px.Settled h) (fun _ => (logoff_pays srv h px).settled)
        fun _ => routeSession_settled srv h msg px

/-- **Every response carries the credits that were granted to its request.** -/
theorem dispatch_settled :
    (px.ready h).Settled (h.paid px) (dispatch srv h msg px) := by
  have hout := dispatch_dispatched srv h msg px
  generalize dispatch srv h msg px = out at hout ⊢
  cases hout with
  | replayed | foreign => exact .dropped rfl rfl
  | refused => exact (Px.pays_err _ _ _).settled
  | routed => exact route_settled srv _ msg _

end

/-! ### Other responses -/

theorem respCredits_signed (cr : Crypto) (sc : SignCtx) {msg : Bytes} (h : 64 ≤ msg.length) :
    respCredits (signed cr sc msg) = respCredits msg := by
  rw [respCredits, extract_signed_head cr sc h le_rfl, respCredits]

theorem respCredits_finishNbt (msg : Bytes) (len : ℕ) :
    respCredits ((finishNbtWith (zeros 4 ++ msg) 0 len).drop 4) = respCredits msg := by
  rw [finishNbtWith_frame]
  rfl

/-- The final response of an asynchronous request carries no credits. -/
theorem respCredits_final (cr : Crypto) (channels : FinMap UInt64 ChannelState) (info : AsyncMeta)
    (st : UInt32) (events : List (UInt32 × Str)) (outLen : UInt32) :
    respCredits ((finalizeAsync cr channels info (notifyFinalMsg info st events outLen) 4).drop 4) =
      0 := by
  obtain ⟨st', body, hmsg⟩ := notifyFinalMsg_eq info st events outLen
  have hlen : 64 ≤ (respHdrAsync info st' 0 cmdChangeNotify ++ body).length := by simp
  have hnone := respCredits_respHdrAsync info st' 0 cmdChangeNotify body
  obtain ⟨msg, hsent, hframe⟩ := finalizeAsync_cases cr channels info hlen
  have hdrop : (nbtPrefix msg.length ++ msg).drop 4 = msg := rfl
  rw [hmsg, hframe, hdrop]
  rcases hsent with rfl | ⟨sc, rfl⟩
  · exact hnone
  · rw [respCredits_signed cr sc hlen, hnone]

/-- A lease break carries no credits. -/
theorem respCredits_leaseBreak (cr : Crypto) (b : BreakMsg) (sign : Option SignCtx) :
    respCredits ((buildLeaseBreak cr b sign).drop 4) = 0 := by
  obtain ⟨rest, hrest, hmsg⟩ : ∃ rest : Bytes, 48 ≤ rest.length ∧
      zeros 4 ++ protoId ++ p16 64 ++ p16 0 ++ p32 0 ++ p16 cmdOplockBreak ++ p16 0 ++
        p32 flagResponse ++ p32 0 ++ p64 0xFFFFFFFFFFFFFFFF ++ p32 0 ++ p32 0 ++ p64 b.sessionId ++
        zeros 16 ++ p16 44 ++ p16 b.epoch ++ p32 0 ++ b.leaseKey ++ p32 b.curState ++
        p32 b.newState ++ p32 0 ++ p32 0 ++ p32 0 =
      zeros 4 ++ (protoId ++ p16 64 ++ p16 0 ++ p32 0 ++ p16 cmdOplockBreak ++ p16 0 ++ rest) := by
    refine ⟨_, ?_, by simp only [List.append_assoc]; rfl⟩
    simp
    omega
  have hlen : 64 ≤ (protoId ++ p16 64 ++ p16 0 ++ p32 0 ++ p16 cmdOplockBreak ++ p16 0 ++
      rest).length := by
    simp [protoId]
    omega
  have hnone : respCredits (protoId ++ p16 64 ++ p16 0 ++ p32 0 ++ p16 cmdOplockBreak ++ p16 0 ++
      rest) = 0 := by
    simp [respCredits, protoId, p16, p32, leBytes, leNat]
  unfold buildLeaseBreak
  dsimp only
  rw [hmsg]
  split
  · rw [signInPlace_frame cr _ hlen, respCredits_finishNbt, respCredits_signed cr _ hlen, hnone]
  · rw [respCredits_finishNbt, hnone]

/-- Both responses that the reactor builds for a plan carry its credits. -/
theorem respCredits_plan (p : ZcReadPlan) (n st : UInt32) :
    respCredits ((buildReadRespPrefix p n).drop 4) = p.credits ∧
      respCredits ((buildReadErr p st).drop 4) = p.credits := by
  constructor
  · unfold buildReadRespPrefix beginResp
    simp only [List.append_assoc]
    rw [respCredits_finishNbt, respCredits_respHdr]
    rfl
  · unfold buildReadErr beginResp
    simp only [List.append_assoc]
    rw [respCredits_finishNbt, respCredits_respHdr]
    rfl

end RocketSmbd
