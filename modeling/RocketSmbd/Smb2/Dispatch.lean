import RocketSmbd.Smb2.Create
import RocketSmbd.Smb2.Io
import RocketSmbd.Smb2.MsgIds
import RocketSmbd.Smb2.SessionSetup
import RocketSmbd.Smb2.SetInfo

/-!
# The dispatcher (`dispatch`, `smb2/handlers.rs`)

One request of a compound: its MessageIds are consumed, the effective session and tree resolved,
credits granted, a foreign session in a sealed frame refused, and signature and encryption
checked (`admitted`); then it goes to its handler (`route`).
-/

namespace RocketSmbd

open ByteString Vfs

variable {σ : Type}

/-! ### Before the checks -/

/-- The effective session and tree of a request: those of its header, or in a related compound
those of the previous member where the header has a sentinel. -/
def resolveChain (h : ReqHdr) (chain : Chain) : Chain :=
  if h.has flagRelated then
    { chain with
      related := true
      sessionId := if h.sessionId ≠ 0 ∧ h.sessionId ≠ 0xFFFFFFFFFFFFFFFF then h.sessionId
        else chain.sessionId
      treeId := if h.treeId ≠ 0 ∧ h.treeId ≠ 0xFFFFFFFF then h.treeId else chain.treeId }
  else { chain with related := false, sessionId := h.sessionId, treeId := h.treeId }

/-- Max credits a connection may hold. -/
def creditWindow : ℤ := 512

/-- Credits left after the charge of a request. -/
def creditsAfterCharge (creditsOut : ℤ) (h : ReqHdr) : ℤ :=
  max (creditsOut - (idCount h.creditCharge : ℤ)) 0

/-- Credits granted to a request, within the window. -/
def creditGrant (creditsOut : ℤ) (h : ReqHdr) : ℤ :=
  let avail := max (creditWindow - creditsAfterCharge creditsOut h) 1
  max 1 (min (h.credits.toNat : ℤ) avail)

/-- Consume the charge, grant within the window. -/
def accountCredits (pc : ProtoConn) (h : ReqHdr) : ProtoConn × ReqHdr :=
  let grant := creditGrant pc.creditsOut h
  ({ pc with creditsOut := creditsAfterCharge pc.creditsOut h + grant },
    { h with credits := UInt16.ofNat grant.toNat })

/-! ### The checks -/

/-- The request passes the encryption and signature checks of its effective session's channel.
A sealed request is authenticated by its AEAD tag.  A channel that encrypts takes nothing in
plaintext but NEGOTIATE and SESSION_SETUP; a signed request must verify; a channel that requires
signing takes only signed requests, those two and CANCEL apart. -/
def admitted (cr : Crypto) (pc : ProtoConn) (h : ReqHdr) (msg : Bytes) (chain : Chain) : Bool :=
  match pc.channels.lookup chain.sessionId with
  | none => true
  | some ch =>
    if chain.transformSid.isSome then true
    else if ch.encrypt ∧ h.command ≠ cmdNegotiate ∧ h.command ≠ cmdSessionSetup then false
    else
      match ch.sign with
      | none => true
      | some sc =>
        if h.has flagSigned then verifySignature cr msg sc
        else
          ¬ (ch.signingRequired ∧ h.command ≠ cmdNegotiate ∧ h.command ≠ cmdSessionSetup ∧
            h.command ≠ cmdCancel)

/-! ### Session-scoped requests -/

/-- What a handler starts from in the session `sess`. -/
abbrev Px.enter (px : Px σ) (sess : SessionInner) : Sx σ :=
  ⟨sess, px.shared.host, px.chain, px.pc.notify⟩

/-- Run a session-scoped handler on the session `sess` of the chain and store what it changed. -/
def runHandler {A : Type} (px : Px σ) (sess : SessionInner) (m : Handler σ A) :
    Except UInt32 A × Px σ :=
  let (r, s) := m (px.enter sess)
  (r, { px with
    shared := { px.shared with
      sessions := px.shared.sessions.insert px.chain.sessionId s.sess
      host := s.host }
    pc := { px.pc with notify := s.notify }
    chain := s.chain })

/-- Run a handler and write its response. -/
def answer (h : ReqHdr) (px : Px σ) (sess : SessionInner) (m : Handler σ Body) : Px σ :=
  let (r, px) := runHandler px sess m
  { px with tx := putReply px.tx h px.chain r }

/-- READ: a plan for the reactor, or a buffered response. -/
def answerRead (srv : Srv σ) (h : ReqHdr) (msg : Bytes) (px : Px σ) (sess : SessionInner) :
    Px σ × Option ZcReadPlan :=
  let (r, px) := runHandler px sess (read srv px.pc.maxRead px.pc.channels h (msg.drop 64))
  match r with
  | .ok (.plan p) => (px, some p)
  | .ok (.body b) => ({ px with tx := putReply px.tx h px.chain (.ok b) }, none)
  | .error st => (px.err h st, none)

/-- The run of a READ. -/
abbrev runRead (srv : Srv σ) (h : ReqHdr) (msg : Bytes) (px : Px σ) (sess : SessionInner) :
    Except UInt32 ReadOut × Px σ :=
  runHandler px sess (read srv px.pc.maxRead px.pc.channels h (msg.drop 64))

@[elab_as_elim]
theorem answerRead_cases {P : Px σ × Option ZcReadPlan → Prop} (srv : Srv σ) (h : ReqHdr)
    (msg : Bytes) (px : Px σ) (sess : SessionInner)
    (hplan : ∀ p, (runRead srv h msg px sess).1 = .ok (.plan p) →
      P ((runRead srv h msg px sess).2, some p))
    (hreply : ∀ r, (∀ b, r = .ok b → (runRead srv h msg px sess).1 = .ok (.body b)) →
      let px' := (runRead srv h msg px sess).2
      P ({ px' with tx := putReply px'.tx h px'.chain r }, none)) :
    P (answerRead srv h msg px sess) := by
  unfold runRead at hplan hreply
  unfold answerRead
  generalize runHandler px sess (read srv px.pc.maxRead px.pc.channels h (msg.drop 64)) = run at *
  obtain ⟨r, px'⟩ := run
  cases r with
  | error st => exact hreply (.error st) fun b hb => nomatch hb
  | ok out =>
    cases out with
    | plan p => exact hplan p rfl
    | body b => exact hreply (.ok b) fun b' hb => by rw [Except.ok.inj hb]

/-- CHANGE_NOTIFY: the interim response, or an error. -/
def answerNotify (h : ReqHdr) (msg : Bytes) (px : Px σ) (sess : SessionInner) : Px σ :=
  let (r, px) := runHandler px sess
    (changeNotify (px.pc.channels.lookup px.chain.sessionId) h (msg.drop 64))
  { px with tx := putNotifyReply px.tx h px.chain r }

/-- IOCTL: a response, or a disconnect. -/
def answerIoctl (srv : Srv σ) (h : ReqHdr) (msg : Bytes) (px : Px σ) : Px σ :=
  match ioctl srv px.pc msg with
  | .reply r => { px with tx := putReply px.tx h px.chain r }
  | .disconnect => px.disconnect

/-- Leases are only granted where the channel of the header's session does not encrypt. -/
def allowOplock (pc : ProtoConn) (h : ReqHdr) : Bool :=
  ¬ (pc.channels.lookup h.sessionId).any (·.encrypt)

/-- A request on a connected disk tree. -/
def routeFile (srv : Srv σ) (h : ReqHdr) (msg : Bytes) (px : Px σ) (sess : SessionInner)
    (tree : Tree) (share : ShareCfg) : Px σ × Option ZcReadPlan :=
  let body := msg.drop 64
  let cid := (px.pc.wid, px.pc.connIdx, px.pc.connGen)
  if h.command = cmdCreate then
    (answer h px sess (create srv msg share tree cid (allowOplock px.pc h)), none)
  else if h.command = cmdClose then (answer h px sess (close srv body), none)
  else if h.command = cmdFlush then (answer h px sess (flush srv body), none)
  else if h.command = cmdRead then answerRead srv h msg px sess
  else if h.command = cmdWrite then (answer h px sess (write srv msg tree), none)
  else if h.command = cmdQueryDirectory then (answer h px sess (queryDirectory srv msg), none)
  else if h.command = cmdQueryInfo then (answer h px sess (queryInfo srv body), none)
  else if h.command = cmdSetInfo then
    (answer h px sess (setInfo srv msg share tree.readOnly), none)
  else if h.command = cmdIoctl then (answerIoctl srv h msg px, none)
  else if h.command = cmdLock then (answer h px sess (lock srv body), none)
  else if h.command = cmdChangeNotify then (answerNotify h msg px sess, none)
  else (px.err h Status.notSupported, none)

/-- A request on a connected tree.  TREE_CONNECT stores indices of configured shares only, so the
share of a disk tree is there. -/
def routeTree (srv : Srv σ) (h : ReqHdr) (msg : Bytes) (px : Px σ) (sess : SessionInner)
    (tree : Tree) : Px σ × Option ZcReadPlan :=
  if h.command = cmdTreeDisconnect then (answer h px sess (treeDisconnect srv.env.os), none)
  else if tree.ipc then
    if h.command = cmdIoctl then (answerIoctl srv h msg px, none)
    else (px.err h Status.accessDenied, none)
  else
    match srv.cfg.shares[tree.shareIdx.toNat]? with
    | none => (px.disconnect, none)
    | some share => routeFile srv h msg px sess tree share

/-- A request that needs an established session: the channel proves that this connection is bound
to it, the registry holds its trees and handles. -/
def routeSession (srv : Srv σ) (h : ReqHdr) (msg : Bytes) (px : Px σ) :
    Px σ × Option ZcReadPlan :=
  if ¬ (px.pc.channels.lookup px.chain.sessionId).any (·.established) then
    (px.err h Status.userSessionDeleted, none)
  else
    match px.shared.sessions.lookup px.chain.sessionId with
    | none => (px.err h Status.userSessionDeleted, none)
    | some sess =>
      if h.command = cmdTreeConnect then (answer h px sess (treeConnect srv msg), none)
      else
        match sess.trees.lookup px.chain.treeId with
        | none => (px.err h Status.networkNameDeleted, none)
        | some tree => routeTree srv h msg px sess tree

/-! ### Dispatch -/

/-- The handler of a command. -/
def route (srv : Srv σ) (h : ReqHdr) (msg : Bytes) (px : Px σ) : Px σ × Option ZcReadPlan :=
  if h.command = cmdNegotiate then (negotiate srv h msg px, none)
  else if h.command = cmdEcho then ({ px with tx := simpleResp px.tx h px.chain }, none)
  else if h.command = cmdCancel then
    ({ px with pc := { px.pc with notify := cancel px.pc.notify h } }, none)
  else if h.command = cmdSessionSetup then (sessionSetup srv h msg px, none)
  else if h.command = cmdLogoff then (logoff srv h px, none)
  else routeSession srv h msg px

theorem route_setup (srv : Srv σ) {h : ReqHdr} (msg : Bytes) (px : Px σ)
    (hcmd : h.command = cmdSessionSetup) :
    route srv h msg px = (sessionSetup srv h msg px, none) := by
  have hne : ¬ cmdSessionSetup = cmdNegotiate ∧ ¬ cmdSessionSetup = cmdEcho ∧
      ¬ cmdSessionSetup = cmdCancel := by decide
  unfold route
  rw [hcmd, if_neg hne.1, if_neg hne.2.1, if_neg hne.2.2, if_pos rfl]

/-- The request's MessageIds are free; CANCEL reuses the id of the request it cancels. -/
def claimIds (h : ReqHdr) (pc : ProtoConn) : Bool × ProtoConn :=
  if h.command = cmdCancel then (true, pc) else consumeMsgIds pc h.msgId h.creditCharge

/-- The state and header with which a request comes to the checks: ids claimed, chain resolved,
credits accounted. -/
def prepare (h : ReqHdr) (px : Px σ) : ReqHdr × Px σ :=
  let pc := (claimIds h px.pc).2
  let (pc, h') := accountCredits pc h
  (h', { px with pc, chain := resolveChain h px.chain })

/-- A sealed compound may only carry its own session's requests. -/
def Chain.foreign (chain : Chain) : Bool :=
  match chain.transformSid with
  | some tsid => chain.sessionId ≠ tsid
  | none => false

def dispatch (srv : Srv σ) (h : ReqHdr) (msg : Bytes) (px : Px σ) : Px σ × Option ZcReadPlan :=
  if ¬ (claimIds h px.pc).1 then (px.disconnect, none)
  else
    let (h, px) := prepare h px
    if px.chain.foreign then (px.disconnect, none)
    else if ¬ admitted srv.env.crypto px.pc h msg px.chain then
      (px.err h Status.accessDenied, none)
    else route srv h msg px

/-! ### What comes to the handlers -/

/-- The effective session of a request: that of its header, or in a related compound that of the
previous member. -/
def effective (h : ReqHdr) (chain : Chain) : UInt64 := (resolveChain h chain).sessionId

theorem claimIds_fields (h : ReqHdr) (pc : ProtoConn) :
    ∃ msgLow msgSeen, (claimIds h pc).2 = { pc with msgLow, msgSeen } := by
  unfold claimIds consumeMsgIds
  dsimp only
  split_ifs <;> exact ⟨_, _, rfl⟩

/-- The header of a request with the credits granted to it. -/
abbrev ReqHdr.paid (h : ReqHdr) (px : Px σ) : ReqHdr :=
  { h with credits := (prepare h px).1.credits }

/-- The state in which a request comes to the checks. -/
abbrev Px.ready (px : Px σ) (h : ReqHdr) : Px σ :=
  { px with
    pc := { px.pc with
      creditsOut := (prepare h px).2.pc.creditsOut
      msgLow := (prepare h px).2.pc.msgLow
      msgSeen := (prepare h px).2.pc.msgSeen }
    chain := resolveChain h px.chain }

/-- Claiming ids and accounting credits touches nothing else of the connection. -/
theorem prepare_eq (h : ReqHdr) (px : Px σ) : prepare h px = (h.paid px, px.ready h) := by
  obtain ⟨msgLow, msgSeen, hpc⟩ := claimIds_fields h px.pc
  unfold ReqHdr.paid Px.ready prepare accountCredits
  rw [hpc]

/-- The request passes all checks of `dispatch` and comes to its handler. -/
def Px.Reaches (cr : Crypto) (h : ReqHdr) (msg : Bytes) (px : Px σ) : Prop :=
  (claimIds h px.pc).1 = true ∧ (resolveChain h px.chain).foreign = false ∧
    admitted cr px.pc h msg (resolveChain h px.chain) = true

instance (cr : Crypto) (h : ReqHdr) (msg : Bytes) (px : Px σ) : Decidable (px.Reaches cr h msg) :=
  inferInstanceAs (Decidable (_ ∧ _ ∧ _))

theorem dispatch_reaches {srv : Srv σ} {h : ReqHdr} {msg : Bytes} {px : Px σ}
    (hr : px.Reaches srv.env.crypto h msg) :
    dispatch srv h msg px = route srv (h.paid px) msg (px.ready h) := by
  obtain ⟨hids, hforeign, hadm⟩ := hr
  unfold dispatch
  rw [prepare_eq, if_neg (not_not.2 hids)]
  exact (if_neg (Bool.eq_false_iff.1 hforeign)).trans (if_neg (not_not.2 hadm))

/-- What `dispatch` does with a request. -/
inductive Dispatched (srv : Srv σ) (h : ReqHdr) (msg : Bytes) (px : Px σ) :
    Px σ × Option ZcReadPlan → Prop
  | replayed (hids : (claimIds h px.pc).1 = false) : Dispatched srv h msg px (px.disconnect, none)
  | foreign (hf : (resolveChain h px.chain).foreign = true) :
    Dispatched srv h msg px ((px.ready h).disconnect, none)
  | refused (ha : admitted srv.env.crypto px.pc h msg (resolveChain h px.chain) = false) :
    Dispatched srv h msg px ((px.ready h).err (h.paid px) Status.accessDenied, none)
  | routed (hr : px.Reaches srv.env.crypto h msg) :
    Dispatched srv h msg px (route srv (h.paid px) msg (px.ready h))

theorem dispatch_dispatched (srv : Srv σ) (h : ReqHdr) (msg : Bytes) (px : Px σ) :
    Dispatched srv h msg px (dispatch srv h msg px) := by
  unfold dispatch
  rw [prepare_eq]
  by_cases hids : (claimIds h px.pc).1 = true
  · rw [if_neg (not_not.2 hids)]
    dsimp only
    split_ifs with hf ha
    · exact .foreign hf
    · exact .routed ⟨hids, Bool.eq_false_iff.2 hf, ha⟩
    · exact .refused (Bool.eq_false_iff.2 ha)
  · rw [if_pos hids]
    exact .replayed (Bool.eq_false_iff.2 hids)

end RocketSmbd
