import RocketSmbd.Life.Frame

/-!
# What frames do to the pended notifies of a connection

`ProtoConn.tally` is what the bookkeeping of CHANGE_NOTIFY looks at: the queues, the final
responses, and the MessageIds in use, of which every request but CANCEL takes at least one.
`dispatch_noted` says what a request does to it, and `processFrame_tallied` that a frame does
nothing else than its members do.
-/

namespace RocketSmbd

open ByteString Vfs

variable {σ : Type}

/-- The notify queues, the final responses and the MessageIds in use. -/
def ProtoConn.tally (pc : ProtoConn) :
    NotifyQueues × List (AsyncMeta × Bytes) × ℕ × Finset ℕ :=
  (pc.notify, pc.hist.finals, pc.msgLow, pc.msgSeen)

section

variable (srv : Srv σ) (h : ReqHdr) (msg : Bytes) (px : Px σ)

theorem sessionSetup_tally : (sessionSetup srv h msg px).pc.tally = px.pc.tally := by
  have hout := sessionSetup_outcome srv h msg px
  generalize sessionSetup srv h msg px = px' at hout ⊢
  cases hout with
  | refused hq | answered hq _ | dropped hq => exact (congrArg ProtoConn.tally hq.outside :)

theorem negotiateResp_tally (dialect cipher : UInt16) :
    (negotiateResp srv h dialect cipher px).pc.tally = px.pc.tally := by
  unfold negotiateResp
  dsimp only
  split <;> rfl

theorem negotiate_tally : (negotiate srv h msg px).pc.tally = px.pc.tally := by
  unfold negotiate
  split
  · rfl
  · cases negotiateParams srv.cfg msg with
    | error st => rfl
    | ok r => exact negotiateResp_tally srv h _ _ _

theorem logoff_tally : (logoff srv h px).pc.tally = px.pc.tally := by
  unfold logoff
  dsimp only
  split
  · split <;> rfl
  · rfl

/-- What the request `h` does to the notify queues, and the requests that are pended by it. -/
inductive Noted (h : ReqHdr) (q : NotifyQueues) : NotifyQueues → List AsyncMeta → Prop
  /-- The pends of some handles are called off, if any. -/
  | closed (fids : List UInt64) : Noted h q (fids.foldl notifyCleanup q) []
  | cancelled (hcmd : h.command = cmdCancel) : Noted h q (cancel q h) []
  | accepted (p : NotifyPend) (a : ActivePend) (hcmd : h.command = cmdChangeNotify)
      (hp : p.asyncId = q.nextAsyncId) (hinfo : p.info.asyncId = q.nextAsyncId)
      (hmsg : p.info.msgId = h.msgId) (ha : a.asyncId = q.nextAsyncId) :
    Noted h q { q with
      nextAsyncId := q.nextAsyncId + 1, new := q.new ++ [p], active := q.active ++ [a] } [p.info]

theorem Noted.refl (h : ReqHdr) (q : NotifyQueues) : Noted h q q [] := .closed []

/-- What a request does to the tally, its MessageIds apart. -/
structure Px.Notes (h : ReqHdr) (px px' : Px σ) (log : List AsyncMeta) : Prop where
  noted : Noted h px.pc.notify px'.pc.notify log
  finals : px'.pc.hist.finals = px.pc.hist.finals
  ids : (px'.pc.msgLow, px'.pc.msgSeen) = (px.pc.msgLow, px.pc.msgSeen)

theorem Px.notes_of_tally {h : ReqHdr} {px px' : Px σ} (hsame : px'.pc.tally = px.pc.tally) :
    px.Notes h px' [] := by
  have hnotify : px'.pc.notify = px.pc.notify := congrArg Prod.fst hsame
  exact ⟨hnotify ▸ .refl h _, congrArg (fun t => t.2.1) hsame, congrArg (fun t => t.2.2) hsame⟩

/-- Effects that accept nothing call off the pends of handles. -/
theorem Sx.Acts.closed {os : Os σ} {P : Effect → Prop} {s t : Sx σ} (hacts : Sx.Acts os P s t)
    (hP : ∀ ch h r of, ¬ P (.accept ch h r of)) :
    ∃ fids : List UInt64, t.notify = fids.foldl notifyCleanup s.notify := by
  induction hacts with
  | refl => exact ⟨[], rfl⟩
  | tail _ hstep ih =>
    obtain ⟨fids, hfids⟩ := ih
    obtain ⟨e, he, hdoes⟩ := hstep
    cases hdoes with
    | @close fid | cleanup fid => exact ⟨fids ++ [fid], by simp [hfids]⟩
    | insert of granted ino cid =>
      refine ⟨fids, ?_⟩
      rw [← hfids]
      unfold insertHandle
      dsimp only
    | accept => exact absurd he (hP _ _ _ _)
    | call | breaks | touch | connect | disconnect => exact ⟨fids, hfids⟩

/-- Running a handler that accepts nothing. -/
theorem runHandler_notes {A : Type} {sess : SessionInner} {m : Handler σ A}
    (hm : Serves srv h px sess m) (hcmd : h.command ≠ cmdChangeNotify) :
    px.Notes h (runHandler px sess m).2 [] := by
  obtain ⟨fids, hfids⟩ := (hm (px.enter sess)).closed
    fun _ _ _ _ he => hcmd he.1
  refine ⟨?_, rfl, rfl⟩
  have hnotify : (runHandler px sess m).2.pc.notify =
      (m (px.enter sess)).2.notify := rfl
  rw [hnotify, hfids]
  exact .closed fids

/-- A CHANGE_NOTIFY is pended once, or not at all. -/
theorem changeNotify_cases (ch : Option ChannelState) (body : Bytes) (s : Sx σ) :
    (changeNotify ch h body s).2 = s ∨
      ∃ r of, (changeNotify ch h body s).2 = (acceptNotify ch h r of s).2 := by
  have hkeeps : Eff.Keeps (fun s t => t = s ∨ ∃ r of, t = (acceptNotify ch h r of s).2)
      (changeNotify ch h body : Handler σ AsyncMeta) := by
    refine .readBind fun s₀ => ?_
    refine .bind (Q := fun _ s => s = s₀)
      (.need _ _ (fun s hs => Or.inl hs) fun _ s hs _ => hs) fun r => ?_
    refine .bind (Q := fun _ s => s = s₀)
      (.refuse _ _ (fun s hs => Or.inl hs) fun s hs _ => hs) fun _ => ?_
    refine .bind ((getHandle_holds r.fid s₀).mono (fun _ hs => hs) (fun _ _ h => h)
      fun s hs => Or.inl hs) fun of => ?_
    refine .bind (Q := fun _ s => s = s₀ ∧ s₀.sess.handles.get r.fid s₀.chain.treeId = some of)
      (.refuse _ _ (fun s hs => Or.inl hs.1) fun s hs _ => hs) fun _ => .total _ fun s hs => ?_
    obtain ⟨rfl, -⟩ := hs
    exact Or.inr ⟨r, of, rfl⟩
  exact hkeeps s

theorem answerNotify_notes (hcmd : h.command = cmdChangeNotify) (sess : SessionInner) :
    ∃ log, px.Notes h (answerNotify h msg px sess) log := by
  have hnotify : (answerNotify h msg px sess).pc.notify = (changeNotify
      (px.pc.channels.lookup px.chain.sessionId) h (msg.drop 64)
      (px.enter sess)).2.notify := rfl
  rcases changeNotify_cases h (px.pc.channels.lookup px.chain.sessionId) (msg.drop 64)
    (px.enter sess) with hsame | ⟨r, of, hacc⟩
  · refine ⟨[], ?_, rfl, rfl⟩
    rw [hnotify, hsame]
    exact .refl h _
  · refine ⟨[(acceptNotify (px.pc.channels.lookup px.chain.sessionId) h r of
      (px.enter sess)).1], ?_, rfl, rfl⟩
    rw [hnotify, hacc]
    exact .accepted _ _ hcmd rfl rfl rfl rfl

/-- A request other than CHANGE_NOTIFY pends nothing. -/
theorem routeSession_notes_other (hcmd : h.command ≠ cmdChangeNotify) :
    px.Notes h (routeSession srv h msg px).1 [] := by
  exact routeSession_state srv h msg px (P := fun px' => px.Notes h px' [])
    (fun _ _ hP => ⟨hP.noted, hP.finals, hP.ids⟩) (Px.notes_of_tally rfl) (Px.notes_of_tally rfl)
    fun _ hm => runHandler_notes srv h px hm hcmd

theorem routeSession_notes_notify (hcmd : h.command = cmdChangeNotify) :
    ∃ log, px.Notes h (routeSession srv h msg px).1 log := by
  have herr : ∀ st, ∃ log, px.Notes h (px.err h st) log := fun _ => ⟨[], Px.notes_of_tally rfl⟩
  unfold routeSession
  split
  · exact herr _
  · split
    · exact herr _
    · next sess hsess =>
      rw [if_neg (by rw [hcmd]; decide)]
      split
      · exact herr _
      · next tree htree =>
        unfold routeTree
        rw [if_neg (by rw [hcmd]; decide)]
        split
        · rw [if_neg (by rw [hcmd]; decide)]
          exact herr _
        · split
          · exact ⟨[], Px.notes_of_tally rfl⟩
          · unfold routeFile
            simp only [hcmd, cmdChangeNotify, cmdCreate, cmdClose, cmdFlush, cmdRead, cmdWrite,
              cmdQueryDirectory, cmdQueryInfo, cmdSetInfo, cmdIoctl, cmdLock]
            exact answerNotify_notes h msg px hcmd sess

theorem route_notes : ∃ log, px.Notes h (route srv h msg px).1 log := by
  unfold route
  split_ifs with hneg hecho hcancel hsetup hlogoff
  · exact ⟨[], Px.notes_of_tally (negotiate_tally srv h msg px)⟩
  · exact ⟨[], Px.notes_of_tally rfl⟩
  · exact ⟨[], .cancelled hcancel, rfl, rfl⟩
  · exact ⟨[], Px.notes_of_tally (sessionSetup_tally srv h msg px)⟩
  · exact ⟨[], Px.notes_of_tally (logoff_tally srv h px)⟩
  · by_cases hcmd : h.command = cmdChangeNotify
    · exact routeSession_notes_notify srv h msg px hcmd
    · exact ⟨[], routeSession_notes_other srv h msg px hcmd⟩

/-- A refused claim leaves the connection as it is. -/
theorem claimIds_refused {pc : ProtoConn} (hc : (claimIds h pc).1 = false) :
    (claimIds h pc).2 = pc := by
  unfold claimIds at hc ⊢
  split_ifs at hc ⊢
  exact consumeMsgIds_refused pc h.msgId h.creditCharge hc

/-- What the dispatch of the request `h` does to the tally: its MessageIds are claimed, and
nothing is pended otherwise. -/
structure Px.Dispatches (h : ReqHdr) (px px' : Px σ) (log : List AsyncMeta) : Prop where
  noted : Noted h px.pc.notify px'.pc.notify log
  finals : px'.pc.hist.finals = px.pc.hist.finals
  ids : (px'.pc.msgLow, px'.pc.msgSeen) =
    ((claimIds h px.pc).2.msgLow, (claimIds h px.pc).2.msgSeen)
  claimed : log ≠ [] → (claimIds h px.pc).1 = true

/-- The credits of a request do not matter to its notifies. -/
theorem Noted.credits {credits : UInt16} {q q' : NotifyQueues} {log : List AsyncMeta}
    (hn : Noted { h with credits } q q' log) : Noted h q q' log := by
  cases hn with
  | closed fids => exact .closed fids
  | cancelled hcmd => exact .cancelled hcmd
  | accepted p a hcmd hp hinfo hmsg ha => exact .accepted p a hcmd hp hinfo hmsg ha

/-- **What a request does to the tally.** -/
theorem dispatch_noted : ∃ log, px.Dispatches h (dispatch srv h msg px).1 log := by
  have hout := dispatch_dispatched srv h msg px
  generalize dispatch srv h msg px = out at hout ⊢
  cases hout with
  | replayed hids =>
    exact ⟨[], .refl h _, rfl, by rw [claimIds_refused h hids]; rfl, fun hne => absurd rfl hne⟩
  | foreign | refused => exact ⟨[], .refl h _, rfl, rfl, fun hne => absurd rfl hne⟩
  | routed hr =>
    obtain ⟨log, hnoted, hfinals, hids⟩ := route_notes srv (h.paid px) msg (px.ready h)
    exact ⟨log, hnoted.credits h, hfinals, hids, fun _ => hr.1⟩

end

/-! ### What was pended -/

/-- The requests that the dispatch of a member pends: a CHANGE_NOTIFY that is accepted. -/
def Member.pended (srv : Srv σ) (m : Member σ) : List AsyncMeta :=
  ((dispatch srv m.hdr m.msg m.px).1.pc.notify.new.drop m.px.pc.notify.new.length).map
    NotifyPend.info

theorem foldl_notifyCleanup_new (fids : List UInt64) (q : NotifyQueues) :
    (fids.foldl notifyCleanup q).new = q.new := by
  induction fids generalizing q with
  | nil => rfl
  | cons fid fids ih => exact ih (notifyCleanup q fid)

theorem Noted.log_eq {h : ReqHdr} {q q' : NotifyQueues} {log : List AsyncMeta}
    (hn : Noted h q q' log) : log = (q'.new.drop q.new.length).map NotifyPend.info := by
  cases hn with
  | closed fids => simp [foldl_notifyCleanup_new]
  | cancelled =>
    have hnew : (cancel q h).new = q.new := by
      unfold cancel
      split
      · rfl
      · split <;> rfl
    simp [hnew]
  | accepted => simp

theorem Member.dispatches (srv : Srv σ) (m : Member σ) :
    m.px.Dispatches m.hdr (dispatch srv m.hdr m.msg m.px).1 (m.pended srv) := by
  obtain ⟨log, hlog⟩ := dispatch_noted srv m.hdr m.msg m.px
  rw [Member.pended, ← hlog.noted.log_eq]
  exact hlog

/-- A member pends at most one request: a CHANGE_NOTIFY, under its own MessageId. -/
theorem Member.pended_own (srv : Srv σ) (m : Member σ) :
    (m.pended srv).length ≤ 1 ∧
      ∀ info ∈ m.pended srv, m.hdr.command = cmdChangeNotify ∧ info.msgId = m.hdr.msgId := by
  have hnoted := (m.dispatches srv).noted
  generalize m.pended srv = log at hnoted ⊢
  generalize (dispatch srv m.hdr m.msg m.px).1.pc.notify = q' at hnoted
  cases hnoted with
  | closed | cancelled => exact ⟨Nat.zero_le 1, fun _ hi => absurd hi List.not_mem_nil⟩
  | accepted p a hcmd _ _ hmsg =>
    refine ⟨le_rfl, fun info hi => ?_⟩
    obtain rfl := List.mem_singleton.1 hi
    exact ⟨hcmd, hmsg⟩

/-! ### Frames -/

/-- The connection apart from what the end of a frame works on: channels, preauth hash and the
history of sealed frames. -/
def ProtoConn.steady (pc : ProtoConn) : ProtoConn :=
  { pc with channels := ∅, preauthNeg := [], hist := { finals := pc.hist.finals } }

section

variable (srv : Srv σ) (sh : Shared σ) (pc : ProtoConn) (frame tx : Bytes)

theorem preauthPass_steady (cr : Crypto) (recs : List (RespRec × ℕ)) :
    (preauthPass cr frame tx recs pc).steady = pc.steady := by
  unfold preauthPass
  split_ifs with hdialect
  · clear hdialect
    induction recs generalizing pc with
    | nil => rfl
    | cons re recs ih =>
      have hone : (chainPreauth cr frame tx pc re).steady = pc.steady := by
        unfold chainPreauth
        dsimp only
        split_ifs <;> rfl
      rw [List.foldl_cons, ih, hone]
  · rfl

theorem sealResponse_steady (cr : Crypto) (sid : UInt64) (enc : EncCtx) (inner : Bytes) :
    (sealResponse cr pc sid enc inner tx).1.steady = pc.steady := by
  unfold sealResponse
  dsimp only
  split
  · split_ifs <;> rfl
  · rfl

theorem finishWalk_steady (base : ℕ) (sealed : Bool) (w : Walk σ) :
    (finishWalk srv frame base sealed w).pc.steady = w.px.pc.steady := by
  unfold finishWalk
  dsimp only
  split
  · rfl
  · split
    · rfl
    · exact preauthPass_steady _ _ _ _ _

/-- An SMB1 NEGOTIATE may set the advertised capabilities, before the negotiation. -/
theorem processSmb1_steady (tsid : Option UInt64) :
    (processSmb1 srv sh pc frame tx tsid).pc.steady = pc.steady ∨
      pc.negotiated = false ∧ ∃ serverCaps, (processSmb1 srv sh pc frame tx tsid).pc.steady =
        { pc.steady with serverCaps } := by
  unfold processSmb1
  split_ifs with hneg
  · exact Or.inl rfl
  · split
    · exact Or.inl rfl
    · split
      · exact Or.inl rfl
      · exact Or.inr ⟨by simpa using (not_or.1 hneg).1, _, rfl⟩

/-- The members `ms` make of the connection `pc` what `pc'` is, but for the end of the frame; or
there are none, and the frame is an SMB1 NEGOTIATE. -/
def Framed (srv : Srv σ) (pc : ProtoConn) (ms : List (Member σ)) (pc' : ProtoConn) : Prop :=
  (∃ frame base w w', Walked srv frame base w ms w' ∧ w.px.pc.steady = pc.steady ∧
    pc'.steady = w'.px.pc.steady) ∨
  ms = [] ∧ pc.negotiated = false ∧ ∃ serverCaps, pc'.steady = { pc.steady with serverCaps }

theorem processPlain_steady (tsid : Option UInt64) :
    Framed srv pc (plainMembers srv sh pc frame tx tsid)
      (processPlain srv sh pc frame tx tsid).pc := by
  refine processPlain_cases srv sh pc frame tx tsid (fun _ => ?_) fun _ ms w hw =>
    Or.inl ⟨_, _, _, w, hw, rfl, finishWalk_steady srv frame _ _ _⟩
  rcases processSmb1_steady srv sh pc frame tx tsid with hsame | ⟨hneg, hcaps⟩
  · exact Or.inl ⟨frame, 0, startWalk sh pc tx tsid, _, .out _, rfl, hsame⟩
  · exact Or.inr ⟨rfl, hneg, hcaps⟩

theorem processSealed_steady (sid : UInt64) (enc : EncCtx) (plain : Bytes) :
    Framed srv pc (plainMembers srv sh (startEncrypting pc sid) plain [] (some sid))
      (processSealed srv sh pc sid enc plain tx).pc := by
  have hplain := processPlain_steady srv sh (startEncrypting pc sid) plain [] (some sid)
  have hend : (processSealed srv sh pc sid enc plain tx).pc.steady =
      (processPlain srv sh (startEncrypting pc sid) plain [] (some sid)).pc.steady := by
    rcases processSealed_cases srv sh pc tx sid enc plain with hr | ⟨plan, hr | hr⟩
    · rw [hr]
    · rw [hr]
    · rw [hr]
      exact sealResponse_steady _ _ _ _ _ _
  unfold Framed
  rw [hend]
  exact hplain

/-- **A frame does to a connection what its members do**, but for its end. -/
theorem processFrame_steady :
    Framed srv pc (frameMembers srv sh pc frame tx) (processFrame srv sh pc frame tx).pc := by
  exact processFrame_cases srv sh pc frame tx
    (fun _ => processPlain_steady srv sh pc frame tx none)
    (fun _ => Or.inl ⟨frame, 0, startWalk sh pc tx none, _, .out _, rfl, rfl⟩)
    (fun enc plain _ _ => processSealed_steady srv sh pc tx _ enc plain)

/-- The members `ms` make of the tally of `pc` that of `pc'`. -/
def Tallied (srv : Srv σ) (pc : ProtoConn) (ms : List (Member σ)) (pc' : ProtoConn) : Prop :=
  ∃ frame base w w', Walked srv frame base w ms w' ∧ w.px.pc.tally = pc.tally ∧
    pc'.tally = w'.px.pc.tally

/-- **A frame does to the tally what its members do.** -/
theorem processFrame_tallied :
    Tallied srv pc (frameMembers srv sh pc frame tx) (processFrame srv sh pc frame tx).pc := by
  have htally : ∀ {a b : ProtoConn}, a.steady = b.steady → a.tally = b.tally :=
    fun h => (congrArg ProtoConn.tally h :)
  rcases processFrame_steady srv sh pc frame tx with
    ⟨frame', base, w, w', hw, hstart, hend⟩ | ⟨hms, -, caps, hend⟩
  · exact ⟨frame', base, w, w', hw, htally hstart, htally hend⟩
  · rw [hms]
    exact ⟨frame, 0, startWalk sh pc tx none, _, .out _, rfl, (congrArg ProtoConn.tally hend :)⟩

end

end RocketSmbd
