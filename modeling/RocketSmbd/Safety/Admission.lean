import RocketSmbd.Safety.Encryption

/-!
# Who a request comes from

A request on a channel comes to its handler only if the client has proved that it holds the keys
of the session it is served under, and the handler keeps to that session:

* `Member.Authentic`: by the seal of the frame or by the signature of the request;
* `Px.Twin`: two states that differ in the other sessions only.  The requests of a session lead
  from such states to such states (`dispatch_twin`).
-/

namespace RocketSmbd

open ByteString Vfs

variable {σ : Type}
variable {frame tx : Bytes} {srv : Srv σ}

/-! ### The checks -/

/-- The request was turned away: the connection closes, or the answer is ACCESS_DENIED. -/
structure Px.TurnedAway (px : Px σ) (out : Px σ × Option ZcReadPlan) : Prop where
  plan : out.2 = none
  shared : out.1.shared = px.shared
  channels : out.1.pc.channels = px.pc.channels
  notify : out.1.pc.notify = px.pc.notify
  answer : (out.1.pc.close = true ∧ out.1.tx = px.tx) ∨
    ∃ h chain, out.1.tx = errResp px.tx h Status.accessDenied chain

theorem dispatch_turnedAway {h : ReqHdr} {msg : Bytes} {px : Px σ}
    (hr : ¬ px.Reaches srv.env.crypto h msg) : px.TurnedAway (dispatch srv h msg px) := by
  have hout := dispatch_dispatched srv h msg px
  generalize dispatch srv h msg px = out at hout ⊢
  cases hout with
  | replayed | foreign => exact ⟨rfl, rfl, rfl, rfl, Or.inl ⟨rfl, rfl⟩⟩
  | refused => exact ⟨rfl, rfl, rfl, rfl, Or.inr ⟨_, _, rfl⟩⟩
  | routed hreach => exact absurd hreach hr

/-- The client has proved that it holds the keys of the channel `ch` of session `sid`.  Either the
frame is sealed: it names the session and opens under the key with which the session's clients
seal.  Or it is plaintext: then the channel does not encrypt, and if it requires signing the bytes
of this one request carry a signature under its key. -/
def Member.Authentic (cr : Crypto) (pc : ProtoConn) (frame : Bytes) (m : Member σ) (sid : UInt64)
    (ch : ChannelState) : Prop :=
  (isTransform frame = true ∧ transformSessionId frame = sid ∧
    ∃ ch₀ enc plain, pc.channels.lookup sid = some ch₀ ∧ ch₀.enc = some enc ∧
      decryptTransform cr frame enc = some plain) ∨
  (isTransform frame = false ∧ ch.encrypt = false ∧
    (ch.signingRequired = true → m.hdr.has flagSigned ∧
      ∃ sc, ch.sign = some sc ∧ verifySignature cr m.msg sc = true))

section

variable {sh : Shared σ} {pc : ProtoConn} {m : Member σ} (h : m ∈ frameMembers srv sh pc frame tx)
include h

/-- A transform frame with members was opened with the keys of the session it names. -/
theorem frameMembers_opened (ht : isTransform frame = true) :
    ∃ ch enc plain, pc.channels.lookup (transformSessionId frame) = some ch ∧
      ch.enc = some enc ∧ decryptTransform srv.env.crypto frame enc = some plain := by
  unfold frameMembers at h
  rw [if_pos ht] at h
  cases ho : openFrame srv.env.crypto pc frame with
  | none => simp [ho] at h
  | some ep =>
    unfold openFrame at ho
    split at ho
    · exact absurd ho (by simp)
    · obtain ⟨enc, hkeys, hplain⟩ := Option.bind_eq_some_iff.1 ho
      obtain ⟨plain, hdec, -⟩ := Option.map_eq_some_iff.1 hplain
      obtain ⟨ch, hch, henc⟩ := Option.bind_eq_some_iff.1 hkeys
      exact ⟨ch, enc, plain, hch, henc, hdec⟩

/-- The bytes of a member of a plaintext frame: from its header to the next one. -/
theorem frameMembers_msg (ht : isTransform frame = false) :
    ∃ off, parseHdr (frame.drop off) = some m.hdr ∧
      m.msg = frame.extract off (messageEnd frame off m.hdr) := by
  unfold frameMembers at h
  rw [if_neg (by simp [ht])] at h
  obtain ⟨_, hwalked⟩ := plainMembers_walked srv sh pc frame tx none
  obtain ⟨w, hw⟩ := hwalked.found m h
  unfold memberAt at hw
  cases hp : parseHdr (frame.drop w.off) with
  | none => simp [hp] at hw
  | some hdr =>
    simp only [hp] at hw
    split at hw
    · exact absurd hw (by simp)
    · obtain rfl := Option.some.inj hw
      exact ⟨w.off, hp, rfl⟩

end

/-! ### Other sessions -/

/-- The two states differ in sessions other than `sid` only. -/
structure Px.Twin (sid : UInt64) (px px' : Px σ) : Prop where
  pc : px'.pc = px.pc
  chain : px'.chain = px.chain
  tx : px'.tx = px.tx
  host : px'.shared.host = px.shared.host
  created : px'.shared.created = px.shared.created
  session : px'.shared.sessions.lookup sid = px.shared.sessions.lookup sid

/-- Two outcomes that differ in sessions other than `sid` only. -/
def TwinOut (sid : UInt64) (out out' : Px σ × Option ZcReadPlan) : Prop :=
  out.1.Twin sid out'.1 ∧ out'.2 = out.2

section

variable (srv : Srv σ) (h : ReqHdr) (px : Px σ)

theorem logoff_unbound
    (hest : ¬ (px.pc.channels.lookup px.chain.sessionId).any (·.established) = true) :
    logoff srv h px = px.err h Status.userSessionDeleted := by
  simp [logoff, hest]

variable (hest : (px.pc.channels.lookup px.chain.sessionId).any (·.established) = true)

include hest

theorem logoff_unknown (hs : px.shared.sessions.lookup px.chain.sessionId = none) :
    logoff srv h px = { px with
      pc := { px.pc with channels := px.pc.channels.erase px.chain.sessionId }
      tx := simpleResp px.tx h px.chain } := by
  simp [logoff, hest, hs, Px.setChannels]

theorem logoff_session {s : SessionInner}
    (hs : px.shared.sessions.lookup px.chain.sessionId = some s) :
    logoff srv h px = { px with
      shared := dropChannel srv.env.os px.shared px.chain.sessionId s
      pc := { px.pc with channels := px.pc.channels.erase px.chain.sessionId }
      tx := simpleResp px.tx h px.chain } := by
  simp [logoff, hest, hs, Px.setChannels]

end

section

variable (srv : Srv σ) (h : ReqHdr) (msg : Bytes) (px : Px σ) (r : Registry)

theorem twin_ite {sid : UInt64} {c : Prop} [Decidable c] {a a' b b' : Px σ × Option ZcReadPlan}
    (ha : TwinOut sid a a') (hb : TwinOut sid b b') :
    TwinOut sid (if c then a else b) (if c then a' else b') := by
  split
  · exact ha
  · exact hb

theorem answer_twin (sess : SessionInner) (m : Handler σ Body) :
    TwinOut px.chain.sessionId (answer h px sess m, none)
      (answer h (px.setSessions r) sess m, none) :=
  ⟨⟨rfl, rfl, rfl, rfl, rfl, by simp [answer, runHandler, Px.setSessions]⟩, rfl⟩

theorem answerRead_twin (sess : SessionInner) :
    TwinOut px.chain.sessionId (answerRead srv h msg px sess)
      (answerRead srv h msg (px.setSessions r) sess) := by
  unfold answerRead runHandler
  dsimp only [Px.setSessions, Px.enter]
  split <;> exact ⟨⟨rfl, rfl, rfl, rfl, rfl, by simp [Px.err]⟩, rfl⟩

theorem answerNotify_twin (sess : SessionInner) :
    TwinOut px.chain.sessionId (answerNotify h msg px sess, none)
      (answerNotify h msg (px.setSessions r) sess, none) :=
  ⟨⟨rfl, rfl, rfl, rfl, rfl, by simp [answerNotify, runHandler, Px.setSessions]⟩, rfl⟩

variable (hr : r.lookup px.chain.sessionId = px.shared.sessions.lookup px.chain.sessionId)

include hr

theorem err_twin (st : UInt32) :
    TwinOut px.chain.sessionId (px.err h st, none) ((px.setSessions r).err h st, none) :=
  ⟨⟨rfl, rfl, rfl, rfl, rfl, hr⟩, rfl⟩

theorem disconnect_twin :
    TwinOut px.chain.sessionId (px.disconnect, none) ((px.setSessions r).disconnect, none) :=
  ⟨⟨rfl, rfl, rfl, rfl, rfl, hr⟩, rfl⟩

theorem answerIoctl_twin :
    TwinOut px.chain.sessionId (answerIoctl srv h msg px, none)
      (answerIoctl srv h msg (px.setSessions r), none) := by
  unfold answerIoctl
  dsimp only [Px.setSessions]
  split <;> exact ⟨⟨rfl, rfl, rfl, rfl, rfl, hr⟩, rfl⟩

theorem routeFile_twin (sess : SessionInner) (tree : Tree) (share : ShareCfg) :
    TwinOut px.chain.sessionId (routeFile srv h msg px sess tree share)
      (routeFile srv h msg (px.setSessions r) sess tree share) := by
  have hanswer := answer_twin h px r sess
  unfold routeFile
  exact twin_ite (hanswer _) <| twin_ite (hanswer _) <| twin_ite (hanswer _) <|
    twin_ite (answerRead_twin srv h msg px r sess) <| twin_ite (hanswer _) <|
    twin_ite (hanswer _) <| twin_ite (hanswer _) <| twin_ite (hanswer _) <|
    twin_ite (answerIoctl_twin srv h msg px r hr) <| twin_ite (hanswer _) <|
    twin_ite (answerNotify_twin h msg px r sess) (err_twin h px r hr _)

theorem routeTree_twin (sess : SessionInner) (tree : Tree) :
    TwinOut px.chain.sessionId (routeTree srv h msg px sess tree)
      (routeTree srv h msg (px.setSessions r) sess tree) := by
  unfold routeTree
  refine twin_ite (answer_twin h px r sess _) <| twin_ite (twin_ite
    (answerIoctl_twin srv h msg px r hr) (err_twin h px r hr _)) ?_
  cases srv.cfg.shares[tree.shareIdx.toNat]? with
  | none => exact disconnect_twin px r hr
  | some share => exact routeFile_twin srv h msg px r hr sess tree share

theorem routeSession_twin :
    TwinOut px.chain.sessionId (routeSession srv h msg px)
      (routeSession srv h msg (px.setSessions r)) := by
  have hr' : (px.setSessions r).shared.sessions.lookup (px.setSessions r).chain.sessionId =
    px.shared.sessions.lookup px.chain.sessionId := hr
  unfold routeSession
  rw [hr']
  refine twin_ite (err_twin h px r hr _) ?_
  cases px.shared.sessions.lookup px.chain.sessionId with
  | none => exact err_twin h px r hr _
  | some sess =>
    refine twin_ite (answer_twin h px r sess _) ?_
    dsimp only [Px.setSessions]
    cases sess.trees.lookup px.chain.treeId with
    | none => exact err_twin h px r hr _
    | some tree => exact routeTree_twin srv h msg px r hr sess tree

theorem logoff_twin :
    TwinOut px.chain.sessionId (logoff srv h px, none) (logoff srv h (px.setSessions r), none) := by
  have hr' : (px.setSessions r).shared.sessions.lookup (px.setSessions r).chain.sessionId =
    px.shared.sessions.lookup px.chain.sessionId := hr
  by_cases hest : (px.pc.channels.lookup px.chain.sessionId).any (·.established) = true
  · cases hs : px.shared.sessions.lookup px.chain.sessionId with
    | none =>
      rw [logoff_unknown srv h px hest hs,
        logoff_unknown srv h (px.setSessions r) hest (hr'.trans hs)]
      exact ⟨⟨rfl, rfl, rfl, rfl, rfl, hr⟩, rfl⟩
    | some s =>
      rw [logoff_session srv h px hest hs,
        logoff_session srv h (px.setSessions r) hest (hr'.trans hs)]
      -- the last channel takes the session with it, in both registries
      by_cases hlast : s.channels - 1 = 0
      · refine ⟨⟨rfl, rfl, rfl, ?_, ?_, ?_⟩, rfl⟩ <;>
          simp [dropChannel, hlast, endSession, Px.setSessions]
      · refine ⟨⟨rfl, rfl, rfl, ?_, ?_, ?_⟩, rfl⟩ <;> simp [dropChannel, hlast, Px.setSessions]
  · rw [logoff_unbound srv h px hest, logoff_unbound srv h (px.setSessions r) hest]
    exact err_twin h px r hr _

end

/-- The command acts on the session it is sent on, and in no other way on the connection. -/
def actsInside (cmd : UInt16) : Prop :=
  cmd ≠ cmdNegotiate ∧ cmd ≠ cmdSessionSetup ∧ cmd ≠ cmdCancel

instance (cmd : UInt16) : Decidable (actsInside cmd) := inferInstanceAs (Decidable (_ ∧ _ ∧ _))

section

variable (srv : Srv σ) (h : ReqHdr) (msg : Bytes) (px : Px σ)

section

variable (hcmd : actsInside h.command)
include hcmd

theorem route_twin (r : Registry)
    (hr : r.lookup px.chain.sessionId = px.shared.sessions.lookup px.chain.sessionId) :
    TwinOut px.chain.sessionId (route srv h msg px) (route srv h msg (px.setSessions r)) := by
  obtain ⟨hneg, hsetup, hcancel⟩ := hcmd
  unfold route
  rw [if_neg hneg, if_neg hneg, if_neg hcancel, if_neg hcancel, if_neg hsetup, if_neg hsetup]
  exact twin_ite ⟨⟨rfl, rfl, rfl, rfl, rfl, hr⟩, rfl⟩ <|
    twin_ite (logoff_twin srv h px r hr) (routeSession_twin srv h msg px r hr)

/-- What a request does does not depend on the sessions other than its own. -/
theorem dispatch_twin (r : Registry)
    (hr : r.lookup (effective h px.chain) = px.shared.sessions.lookup (effective h px.chain)) :
    TwinOut (effective h px.chain) (dispatch srv h msg px)
      (dispatch srv h msg (px.setSessions r)) := by
  have hprep : prepare h (px.setSessions r) = (h.paid px, (px.ready h).setSessions r) :=
    congrArg (fun p => (p.1, p.2.setSessions r)) (prepare_eq h px)
  unfold dispatch
  rw [prepare_eq h px, hprep]
  refine twin_ite ⟨⟨rfl, rfl, rfl, rfl, rfl, hr⟩, rfl⟩ <|
    twin_ite ⟨⟨rfl, rfl, rfl, rfl, rfl, hr⟩, rfl⟩ <|
    twin_ite ⟨⟨rfl, rfl, rfl, rfl, rfl, hr⟩, rfl⟩ ?_
  exact route_twin srv (h.paid px) msg (px.ready h) hcmd r hr

theorem route_other {sid : UInt64} (hsid : sid ≠ px.chain.sessionId) :
    (route srv h msg px).1.shared.sessions.lookup sid = px.shared.sessions.lookup sid := by
  obtain ⟨hneg, hsetup, hcancel⟩ := hcmd
  let Same : Px σ × Option ZcReadPlan → Prop := fun out =>
    out.1.shared.sessions.lookup sid = px.shared.sessions.lookup sid
  have hite := @ite_rule σ Same
  unfold route
  rw [if_neg hneg, if_neg hcancel, if_neg hsetup]
  refine hite (fun _ => rfl) fun _ => hite (fun _ => ?_) fun _ => ?_
  · change (logoff srv h px).shared.sessions.lookup sid = px.shared.sessions.lookup sid
    by_cases hest : (px.pc.channels.lookup px.chain.sessionId).any (·.established) = true
    · cases hs : px.shared.sessions.lookup px.chain.sessionId with
      | none => rw [logoff_unknown srv h px hest hs]
      | some s =>
        obtain ⟨hdrop, -⟩ := dropChannel_dropped srv.env.os px.shared hs
        rw [logoff_session srv h px hest hs]
        dsimp only
        generalize (dropChannel srv.env.os px.shared px.chain.sessionId s).sessions = sessions at *
        generalize (dropChannel srv.env.os px.shared px.chain.sessionId s).host.erase = host at *
        cases hdrop with
        | unknown => rfl
        | kept => exact AList.lookup_insert_ne hsid
        | ended => exact AList.lookup_erase_ne hsid
    · rw [logoff_unbound srv h px hest]
      rfl
  · exact routeSession_state srv h msg px
      (P := fun px' => px'.shared.sessions.lookup sid = px.shared.sessions.lookup sid)
      (fun _ _ hP => hP) rfl rfl fun _ _ => AList.lookup_insert_ne hsid

/-- A request leaves the sessions other than its own alone. -/
theorem dispatch_other {sid : UInt64}
    (hsid : sid ≠ effective h px.chain) :
    (dispatch srv h msg px).1.shared.sessions.lookup sid = px.shared.sessions.lookup sid := by
  have hout := dispatch_dispatched srv h msg px
  generalize dispatch srv h msg px = out at hout ⊢
  cases hout with
  | replayed | foreign | refused => rfl
  | routed => exact route_other srv (h.paid px) msg _ hcmd hsid

end

end

/-! ### Requests on a connection -/

theorem Member.authentic {sh : Shared σ} {pc : ProtoConn}
    {m : Member σ} (hm : m ∈ frameMembers srv sh pc frame tx) (hcmd : actsInside m.hdr.command)
    (hr : m.px.Reaches srv.env.crypto m.hdr m.msg) {ch : ChannelState}
    (hch : m.px.pc.channels.lookup (effective m.hdr m.px.chain) = some ch)
    (harmed : ch.Armed srv.cfg) :
    m.Authentic srv.env.crypto pc frame (effective m.hdr m.px.chain) ch := by
  obtain ⟨hneg, hsetup, hcancel⟩ := hcmd
  obtain ⟨-, hforeign, hadm⟩ := hr
  have htransform : (resolveChain m.hdr m.px.chain).transformSid = m.px.chain.transformSid := by
    unfold resolveChain
    split <;> rfl
  rw [frameMembers_transform hm] at htransform
  cases ht : isTransform frame with
  | true =>
    obtain ⟨ch₀, enc, plain, hch₀, henc, hdec⟩ := frameMembers_opened hm ht
    have hsid : effective m.hdr m.px.chain = transformSessionId frame := by
      simpa [Chain.foreign, htransform, ht, effective] using hforeign
    exact Or.inl ⟨ht, hsid.symm, ch₀, enc, plain, hsid ▸ hch₀, henc, hdec⟩
  | false =>
    have hch' : m.px.pc.channels.lookup (resolveChain m.hdr m.px.chain).sessionId = some ch := hch
    have hen : ch.encrypt = false := by
      by_contra hen
      simp [admitted, hch', htransform, ht, hneg, hsetup, hen] at hadm
    refine Or.inr ⟨ht, hen, fun hreq => ?_⟩
    obtain ⟨sc, hsc⟩ := Option.isSome_iff_exists.1 (harmed.sign hreq)
    by_cases hsigned : m.hdr.has flagSigned
    · simp [admitted, hch', htransform, ht, hen, hsc, hsigned] at hadm
      exact ⟨hsigned, sc, hsc, hadm⟩
    · simp [admitted, hch', htransform, ht, hneg, hsetup, hcancel, hen, hsc, hsigned, hreq] at hadm

/-- **Requests are authenticated and keep to their session.**  Take any state a server can get
into, any frame that comes in then and any request of it other than NEGOTIATE, SESSION_SETUP and
CANCEL, and let `sid` be the session it is served under.  If the request comes to its handler and
`sid` has a channel here, then its client has proved to hold the keys of that channel; in a
plaintext frame the signature is over the bytes from its own header to the next.  If it does not
come to its handler, the connection closes or the answer is ACCESS_DENIED.  The request changes no
session other than `sid`, and what it does to everything else does not depend on the others. -/
theorem requests_authenticated (srv : Srv σ) (workers : ℕ) (os : σ) (es : List Event)
    (id : ConnId) (bytes : Bytes) (c : Conn) (m : Member σ)
    (hc : ((World.start workers os).run srv es).taker id bytes = some c)
    (hm : m ∈ frameMembers srv ((World.start workers os).run srv es).shared c.proto bytes c.tx)
    (hcmd : actsInside m.hdr.command) :
    (m.px.Reaches srv.env.crypto m.hdr m.msg →
      dispatch srv m.hdr m.msg m.px =
        route srv (prepare m.hdr m.px).1 m.msg (prepare m.hdr m.px).2 ∧
      ∀ ch, m.px.pc.channels.lookup (effective m.hdr m.px.chain) = some ch →
        m.Authentic srv.env.crypto c.proto bytes (effective m.hdr m.px.chain) ch) ∧
    (isTransform bytes = false → ∃ off, parseHdr (bytes.drop off) = some m.hdr ∧
      m.msg = bytes.extract off (messageEnd bytes off m.hdr)) ∧
    (¬ m.px.Reaches srv.env.crypto m.hdr m.msg →
      m.px.TurnedAway (dispatch srv m.hdr m.msg m.px)) ∧
    (∀ sid, sid ≠ effective m.hdr m.px.chain →
      (dispatch srv m.hdr m.msg m.px).1.shared.sessions.lookup sid =
        m.px.shared.sessions.lookup sid) ∧
    (∀ r : Registry, r.lookup (effective m.hdr m.px.chain) =
        m.px.shared.sessions.lookup (effective m.hdr m.px.chain) →
      TwinOut (effective m.hdr m.px.chain) (dispatch srv m.hdr m.msg m.px)
        (dispatch srv m.hdr m.msg (m.px.setSessions r))) := by
  rw [prepare_eq]
  refine ⟨fun hr => ⟨dispatch_reaches hr, fun ch hch => ?_⟩, frameMembers_msg hm,
    dispatch_turnedAway, fun sid hsid => dispatch_other srv m.hdr m.msg m.px hcmd hsid,
    fun r hr => dispatch_twin srv m.hdr m.msg m.px hcmd r hr⟩
  have harmed := (member_moves srv _ c bytes hm id).1.channels
    (fun _ _ _ _ h hk => Became.armed h hk)
    (World.run_armed srv workers os es id c (World.taker_lookup hc))
  exact Member.authentic hm hcmd hr hch (harmed _ ch hch)

open Sample in
/-- A client of a server that requires signing, and its signed TREE_CONNECT. -/
theorem requests_authenticated_treeConnect :
    ∃ c ∈ ((World.start 1 {}).run signingSrv logIn).taker conn (signed (treeReq 0 0 2 2)),
      ∃ m ∈ frameMembers signingSrv ((World.start 1 {}).run signingSrv logIn).shared c.proto
          (signed (treeReq 0 0 2 2)) c.tx,
        m.hdr.command = cmdTreeConnect ∧ effective m.hdr m.px.chain = 2 ∧
          m.px.Reaches crypto m.hdr m.msg ∧
          ∃ ch ∈ m.px.pc.channels.lookup 2, ch.signingRequired = true ∧
            m.Authentic crypto c.proto (signed (treeReq 0 0 2 2)) 2 ch := by
  obtain ⟨c, hc, m, hm, hcmd, hsid, hr, ch, hch, hreq⟩ :
      ∃ c ∈ ((World.start 1 {}).run signingSrv logIn).taker conn (signed (treeReq 0 0 2 2)),
        ∃ m ∈ frameMembers signingSrv ((World.start 1 {}).run signingSrv logIn).shared c.proto
            (signed (treeReq 0 0 2 2)) c.tx,
          m.hdr.command = cmdTreeConnect ∧ effective m.hdr m.px.chain = 2 ∧
            m.px.Reaches crypto m.hdr m.msg ∧
            ∃ ch ∈ m.px.pc.channels.lookup 2, ch.signingRequired = true := by decide +kernel
  obtain ⟨hauth, -⟩ := requests_authenticated signingSrv 1 {} logIn conn
    (signed (treeReq 0 0 2 2)) c m hc hm (by rw [hcmd]; decide)
  refine ⟨c, hc, m, hm, hcmd, hsid, hr, ch, hch, hreq, ?_⟩
  have hkeys := (hauth hr).2 ch (by rw [hsid]; exact hch)
  rwa [hsid] at hkeys

end RocketSmbd
