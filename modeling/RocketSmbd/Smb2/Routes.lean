import RocketSmbd.Smb2.Dispatch
import RocketSmbd.Smb2.Steps

/-!
# What a session-scoped request comes to

`requestEffects` lists the effects that a request may have, by its command.  `routeSession_rule`: a
property of what `routeSession` returns follows from the same property of an error, a disconnect,
an IOCTL, and a handler with these effects that is run on the request's own session.
-/

namespace RocketSmbd

open ByteString Vfs

variable {σ : Type}

/-- The tree, if there is one, is not read-only. -/
def mayWrite (tree : Option Tree) : Prop := ∀ t ∈ tree, t.readOnly = false

/-- The effects of a request on the session `sid`, whose tree is `tree`. -/
def requestEffects (h : ReqHdr) (pc : ProtoConn) (sid : UInt64) (tree : Option Tree) :
    Effect → Prop
  | .call .look => True
  | .call (.lock _) => h.command = cmdLock
  | .call (.close _) =>
    h.command = cmdCreate ∨ h.command = cmdClose ∨ h.command = cmdTreeDisconnect
  | .call (.openFile _ _) => h.command = cmdCreate
  | .call (.mkdir _) => h.command = cmdCreate
  | .call (.pwrite _ _ _) => h.command = cmdWrite ∧ mayWrite tree
  | .call (.ftruncate _ _) => h.command = cmdSetInfo ∧ mayWrite tree
  | .call (.rename _ _) => h.command = cmdSetInfo ∧ mayWrite tree
  | .call (.remove _) => False
  | .breaks _ _ => h.command = cmdCreate ∨ h.command = cmdWrite ∨ h.command = cmdSetInfo
  | .touch _ (.list _) => h.command = cmdQueryDirectory
  | .touch _ (.mark _) => h.command = cmdSetInfo ∧ mayWrite tree
  | .touch _ (.rename _ _) => h.command = cmdSetInfo ∧ mayWrite tree
  | .connect _ => h.command = cmdTreeConnect
  | .disconnect => h.command = cmdTreeDisconnect
  | .close _ _ => h.command = cmdClose ∨ h.command = cmdTreeDisconnect
  | .cleanup _ => h.command = cmdTreeDisconnect
  | .insert of granted ino cid =>
    h.command = cmdCreate ∧ (∀ t ∈ tree, of.shareIdx = t.shareIdx) ∧ of.Leased granted ino ∧
      (granted.isSome → allowOplock pc h = true) ∧ cid = (pc.wid, pc.connIdx, pc.connGen)
  | .accept ch h' _ _ =>
    h.command = cmdChangeNotify ∧ ch = pc.channels.lookup sid ∧ h' = h

/-- The channel and the registered session with which a request is served. -/
structure Px.Bound (px : Px σ) (ch : ChannelState) (sess : SessionInner) : Prop where
  channel : px.pc.channels.lookup px.chain.sessionId = some ch
  established : ch.established = true
  session : px.shared.sessions.lookup px.chain.sessionId = some sess

/-- The handler has no effects but those of the request. -/
def Serves {A : Type} (srv : Srv σ) (h : ReqHdr) (px : Px σ) (sess : SessionInner)
    (m : Handler σ A) : Prop :=
  Eff.Keeps (Sx.Acts srv.env.os (requestEffects h px.pc px.chain.sessionId
    (sess.trees.lookup px.chain.treeId))) m

section

variable (srv : Srv σ) (h : ReqHdr) (msg : Bytes) (px : Px σ)
  {P : Px σ × Option ZcReadPlan → Prop}

/-- The two branches of a condition. -/
theorem ite_rule {c : Prop} [Decidable c] {a b : Px σ × Option ZcReadPlan} (ha : c → P a)
    (hb : ¬ c → P b) : P (if c then a else b) := by
  split
  · next hc => exact ha hc
  · next hc => exact hb hc

section

variable {sess : SessionInner}
  (hput : ∀ r, P ({ px with tx := putReply px.tx h px.chain r }, none))
  (hdisconnect : P (px.disconnect, none))
  (hanswer : ∀ m : Handler σ Body, Serves srv h px sess m → P (answer h px sess m, none))
  (hread : h.command = cmdRead →
    Serves srv h px sess (read srv px.pc.maxRead px.pc.channels h (msg.drop 64)) →
    P (answerRead srv h msg px sess))
  (hnotify : Serves srv h px sess
      (changeNotify (px.pc.channels.lookup px.chain.sessionId) h (msg.drop 64)) →
    P (answerNotify h msg px sess, none))

include hput hdisconnect

theorem answerIoctl_rule : P (answerIoctl srv h msg px, none) := by
  unfold answerIoctl
  cases ioctl srv px.pc msg with
  | reply r => exact hput r
  | disconnect => exact hdisconnect

include hanswer hread hnotify

theorem routeFile_rule {tree : Tree} (htree : sess.trees.lookup px.chain.treeId = some tree)
    (share : ShareCfg) : P (routeFile srv h msg px sess tree share) := by
  unfold routeFile
  dsimp only
  have hite := @ite_rule σ P
  have hioctl := answerIoctl_rule srv h msg px hput hdisconnect
  unfold Serves at hanswer hread hnotify
  rw [htree] at hanswer hread hnotify
  have hwritable : tree.readOnly = false → mayWrite (some tree) := fun hro t ht => by
    obtain rfl := Option.some.inj ht
    exact hro
  refine hite (fun hcmd => ?_) fun _ => hite (fun hcmd => ?_) fun _ => hite (fun hcmd => ?_)
    fun _ => hite (fun hcmd => ?_) fun _ => hite (fun hcmd => ?_) fun _ => hite (fun hcmd => ?_)
    fun _ => hite (fun hcmd => ?_) fun _ => hite (fun hcmd => ?_) fun _ => hite (fun _ => hioctl)
    fun _ => hite (fun hcmd => ?_) fun _ => hite (fun hcmd => ?_) fun _ => hput (.error _)
  · refine hanswer _ (create_acts trivial srv rfl msg share tree _ _ (fun _ => Or.inl hcmd)
      (fun _ => hcmd) (fun _ _ => hcmd) (fun _ _ => Or.inl hcmd)
      fun of granted ino hshare hleased hgrant =>
        ⟨hcmd, fun t ht => ?_, hleased, hgrant, rfl⟩)
    obtain rfl := Option.some.inj ht
    exact hshare
  · exact hanswer _ (close_acts srv rfl _ (fun _ => Or.inr (Or.inl hcmd))
      fun _ _ => Or.inl hcmd)
  · exact hanswer _ (flush_acts trivial srv rfl _)
  · exact hread hcmd (read_acts trivial srv rfl _ _ _ _)
  · exact hanswer _ (write_acts trivial srv rfl msg tree
      (fun hro _ _ _ => ⟨hcmd, hwritable hro⟩) fun _ _ => Or.inr (Or.inl hcmd))
  · exact hanswer _ (queryDirectory_acts trivial srv rfl msg fun _ _ => hcmd)
  · exact hanswer _ (queryInfo_acts trivial srv rfl _)
  · exact hanswer _ (setInfo_acts trivial srv rfl msg share _
      (fun _ _ => Or.inr (Or.inr hcmd)) (fun hro _ _ => ⟨hcmd, hwritable hro⟩)
      (fun hro _ _ => ⟨hcmd, hwritable hro⟩) (fun hro _ _ => ⟨hcmd, hwritable hro⟩)
      fun hro _ _ _ => ⟨hcmd, hwritable hro⟩)
  · exact hanswer _ (lock_acts srv rfl _ fun _ => hcmd)
  · exact hnotify (changeNotify_acts _ _ _ fun _ _ => ⟨hcmd, rfl, rfl⟩)

theorem routeTree_rule {tree : Tree} (htree : sess.trees.lookup px.chain.treeId = some tree) :
    P (routeTree srv h msg px sess tree) := by
  unfold routeTree
  refine ite_rule (fun hcmd => hanswer _ ?_) fun _ =>
    ite_rule (fun _ => ite_rule (fun _ => answerIoctl_rule srv h msg px hput hdisconnect)
      fun _ => hput (.error _)) fun _ => ?_
  · exact treeDisconnect_acts hcmd (fun _ => Or.inr (Or.inr hcmd)) (fun _ _ => Or.inr hcmd)
      fun _ => hcmd
  · cases srv.cfg.shares[tree.shareIdx.toNat]? with
    | none => exact hdisconnect
    | some share =>
      exact routeFile_rule srv h msg px hput hdisconnect hanswer hread hnotify htree share

end

theorem routeSession_rule
    (hput : ∀ r, P ({ px with tx := putReply px.tx h px.chain r }, none))
    (hdisconnect : P (px.disconnect, none))
    (hanswer : ∀ ch sess, px.Bound ch sess → ∀ m : Handler σ Body, Serves srv h px sess m →
      P (answer h px sess m, none))
    (hread : ∀ ch sess, px.Bound ch sess → h.command = cmdRead →
      Serves srv h px sess (read srv px.pc.maxRead px.pc.channels h (msg.drop 64)) →
      P (answerRead srv h msg px sess))
    (hnotify : ∀ ch sess, px.Bound ch sess →
      Serves srv h px sess
        (changeNotify (px.pc.channels.lookup px.chain.sessionId) h (msg.drop 64)) →
      P (answerNotify h msg px sess, none)) :
    P (routeSession srv h msg px) := by
  unfold routeSession
  refine ite_rule (fun _ => hput (.error _)) fun hany => ?_
  cases hch : px.pc.channels.lookup px.chain.sessionId with
  | none => simp [hch] at hany
  | some ch =>
    have hest : ch.established = true := by simpa [hch] using hany
    cases hs : px.shared.sessions.lookup px.chain.sessionId with
    | none => exact hput (.error _)
    | some sess =>
      have hbound : px.Bound ch sess := ⟨hch, hest, hs⟩
      dsimp only
      refine ite_rule (fun hcmd => hanswer ch sess hbound _
        (treeConnect_acts srv msg fun _ => hcmd)) fun _ => ?_
      cases htree : sess.trees.lookup px.chain.treeId with
      | none => exact hput (.error _)
      | some tree =>
        exact routeTree_rule srv h msg px hput hdisconnect (hanswer ch sess hbound)
          (hread ch sess hbound) (hnotify ch sess hbound) htree

/-- The rule for a property that the answer does not matter to. -/
theorem routeSession_state {P : Px σ → Prop} (htx : ∀ (px : Px σ) tx, P px → P { px with tx })
    (hpx : P px) (hdisconnect : P px.disconnect)
    (hrun : ∀ {A : Type} {ch sess} {m : Handler σ A}, px.Bound ch sess → Serves srv h px sess m →
      P (runHandler px sess m).2) : P (routeSession srv h msg px).1 := by
  refine routeSession_rule srv h msg px (P := fun out => P out.1) (fun _ => htx px _ hpx)
    hdisconnect (fun ch sess hb m hm => htx _ _ (hrun hb hm)) (fun ch sess hb _ hm => ?_)
    fun ch sess hb hm => htx _ _ (hrun hb hm)
  exact answerRead_cases srv h msg px sess (fun _ _ => hrun hb hm) fun _ _ => htx _ _ (hrun hb hm)

end

end RocketSmbd
