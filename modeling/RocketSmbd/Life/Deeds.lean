import RocketSmbd.Life.Frame
import RocketSmbd.Reactor

/-!
# What runs do to the shared state

Unlike a `Move` a `Deed` keeps the state outside, and it looks at no connection.  `dispatch_deeds`
says which deeds a request does, `World.step_deeds` those of an event.
-/

namespace RocketSmbd

open ByteString Vfs

variable {σ : Type}

/-! ### Requests -/

/-- The tree in which a request works, as its session has it before. -/
def Px.tree (px : Px σ) : Option Tree :=
  (px.shared.sessions.lookup px.chain.sessionId).bind fun s => s.trees.lookup px.chain.treeId

/-- The deeds of a request whose chain is resolved. -/
def requestDeed (h : ReqHdr) (px : Px σ) (l : DeedLabel) (_ : Shared σ) : Prop :=
  match l with
  | .aside => True
  | .revise _ => True
  | .register _ => h.command = cmdSessionSetup
  | .drop _ => h.command = cmdSessionSetup
  | .effect sid tree e =>
    sid = px.chain.sessionId ∧ (h.command ≠ cmdTreeConnect → tree = px.chain.treeId) ∧
      requestEffects h px.pc sid px.tree e
  | .ended sid => h.command = cmdLogoff ∧ sid = px.chain.sessionId
  | _ => False

/-- The session of a request stays, and so does its tree unless a TREE_CONNECT changes it. -/
theorem Sx.Does.chain {os : Os σ} {e : Effect} {s t : Sx σ} (h : Sx.Does os e s t) :
    t.chain.sessionId = s.chain.sessionId ∧
      ((∀ tree, e ≠ .connect tree) → t.chain.treeId = s.chain.treeId) := by
  cases h with
  | connect tree => exact ⟨rfl, fun hne => absurd rfl (hne tree)⟩
  | _ => exact ⟨rfl, fun _ => rfl⟩

section

variable (srv : Srv σ) (h : ReqHdr) (msg : Bytes) (px : Px σ)

/-- The effects of a handler are deeds of the request. -/
theorem runHandler_deeds {A : Type} {ch : ChannelState} {sess : SessionInner} {m : Handler σ A}
    (hm : Serves srv h px sess m) (hb : px.Bound ch sess) :
    Deeds srv (requestDeed h px) px.shared (runHandler px sess m).2.shared := by
  have htree : px.tree = sess.trees.lookup px.chain.treeId := by rw [Px.tree, hb.session]; rfl
  have hacts := hm (px.enter sess)
  unfold runHandler
  dsimp only
  generalize (m (px.enter sess)).2 = sx at hacts ⊢
  suffices hgoal : Deeds srv (requestDeed h px) px.shared { px.shared with
      sessions := px.shared.sessions.insert px.chain.sessionId sx.sess, host := sx.host } ∧
      sx.chain.sessionId = px.chain.sessionId ∧
      (h.command ≠ cmdTreeConnect → sx.chain.treeId = px.chain.treeId) from hgoal.1
  induction hacts with
  | refl => exact ⟨.single (.revise hb.session rfl rfl rfl) trivial, rfl, fun _ => rfl⟩
  | tail _ hstep ih =>
    obtain ⟨e, he, hdoes⟩ := hstep
    obtain ⟨ih, hsid, htreeId⟩ := ih
    obtain ⟨hsid', htreeId'⟩ := hdoes.chain
    refine ⟨ih.trans ?_, hsid'.trans hsid, fun hcmd => ?_⟩
    · have hdeed := @Deed.effect σ srv { px.shared with
        sessions := px.shared.sessions.insert px.chain.sessionId _, host := _ }
        px.chain.sessionId _ _ _ e _ (AList.lookup_insert _) hsid hdoes
      dsimp only at hdeed
      rw [FinMap.insert_insert] at hdeed
      exact .single hdeed ⟨rfl, htreeId, htree ▸ he⟩
    · refine (htreeId' fun tree heq => hcmd ?_).trans (htreeId hcmd)
      rw [heq] at he
      exact he

theorem routeSession_deeds :
    Deeds srv (requestDeed h px) px.shared (routeSession srv h msg px).1.shared := by
  exact routeSession_state srv h msg px
    (P := fun px' => Deeds srv (requestDeed h px) px.shared px'.shared) (fun _ _ hP => hP)
    (.refl _) (.refl _) fun hb hm => runHandler_deeds srv h px hm hb

/-- One channel of a session goes: the session stays, or ends. -/
theorem dropChannel_deeds {ok : DeedLabel → Shared σ → Prop} {sh : Shared σ} {sid : UInt64}
    {s : SessionInner} (hs : sh.sessions.lookup sid = some s) (hrevise : ∀ sh, ok (.revise sid) sh)
    (hended : ∀ sh, ok (.ended sid) sh) :
    Deeds srv ok sh (dropChannel srv.env.os sh sid s) := by
  have hrev : Deeds srv ok sh { sh with
      sessions := sh.sessions.insert sid { s with channels := s.channels - 1 } } :=
    .single (.revise hs rfl rfl rfl) (hrevise _)
  unfold dropChannel
  dsimp only
  split
  · exact hrev.trans (.single (.ended (AList.lookup_insert _)) (hended _))
  · exact hrev

theorem logoff_deeds (hcmd : h.command = cmdLogoff) :
    Deeds srv (requestDeed h px) px.shared (logoff srv h px).shared := by
  unfold logoff
  dsimp only
  split
  · dsimp only [Px.setChannels]
    cases hs : px.shared.sessions.lookup px.chain.sessionId with
    | none => exact .refl _
    | some s => exact dropChannel_deeds srv hs (fun _ => trivial) fun _ => ⟨hcmd, rfl⟩
  · exact .refl _

/-- The deeds of a NEGOTIATE response: the clock and the random source. -/
theorem negotiateResp_consults (dialect cipher : UInt16) :
    ∃ o, Relation.ReflTransGen (Consults srv.env) px.shared.host.os o ∧
      (negotiateResp srv h dialect cipher px).shared = px.shared.withOs o := by
  unfold negotiateResp
  dsimp only
  have hnow : Relation.ReflTransGen (Consults srv.env) px.shared.host.os
      (px.ask (filetimeNow srv.env.os)).2.shared.host.os := .single (.now _)
  split
  · exact ⟨_, hnow.trans (.single (.urandom 32 _)), rfl⟩
  · exact ⟨_, hnow, rfl⟩

theorem negotiate_consults : ∃ o, Relation.ReflTransGen (Consults srv.env) px.shared.host.os o ∧
    (negotiate srv h msg px).shared = px.shared.withOs o := by
  unfold negotiate
  split
  · exact ⟨_, .refl, rfl⟩
  · cases negotiateParams srv.cfg msg with
    | error st => exact ⟨_, .refl, rfl⟩
    | ok r =>
      exact negotiateResp_consults srv h { px with pc := { px.pc with
        dialect := r.1, cipher := r.2.1, negotiated := true, clientNeg := some r.2.2 } } r.1 r.2.1

theorem route_deeds : Deeds srv (requestDeed h px) px.shared (route srv h msg px).1.shared := by
  unfold route
  split_ifs with hneg hecho hcancel hsetup hlogoff
  · obtain ⟨o, hasks, ho⟩ := negotiate_consults srv h msg px
    exact ho ▸ .ofAsides (fun _ => trivial)
      (Relation.ReflTransGen.mono (fun _ _ => .consults) _ _ hasks)
  · exact .refl _
  · exact .refl _
  · refine (sessionSetup_outcome srv h msg px).deeds.mono fun l sh hl => ?_
    cases l with
    | aside => trivial
    | register sid => exact hsetup
    | revise sid => trivial
    | drop sid => exact hsetup
    | _ => exact hl.elim
  · exact logoff_deeds srv h px hlogoff
  · exact routeSession_deeds srv h msg px

/-- **The deeds of a request**: none unless it comes to its handler, which sees the credits that
`prepare` left. -/
theorem dispatch_deeds :
    Deeds srv (fun l sh => px.Reaches srv.env.crypto h msg ∧ ∃ credits,
      requestDeed { h with credits } { px with chain := resolveChain h px.chain } l sh) px.shared
      (dispatch srv h msg px).1.shared := by
  have hout := dispatch_dispatched srv h msg px
  generalize dispatch srv h msg px = out at hout ⊢
  cases hout with
  | replayed | foreign | refused => exact .refl _
  | routed hr =>
    refine (route_deeds srv (h.paid px) msg (px.ready h)).mono fun l sh hl =>
      ⟨hr, (prepare h px).1.credits, ?_⟩
    cases l with
    | effect sid tree e =>
      refine ⟨hl.1, hl.2.1, ?_⟩
      have he := hl.2.2
      cases e with
      | call c => cases c <;> exact he
      | touch fid t => cases t <;> exact he
      | _ => exact he
    | _ => exact hl

end

end RocketSmbd
