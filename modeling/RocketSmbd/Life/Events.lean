import RocketSmbd.Life.Deeds
import RocketSmbd.Life.World

/-!
# The deeds of events

`Event.deed` lists the deeds of an event: those of the members of a frame, the end of the channels
and leases of a dropped connection, a drained mailbox.  `World.step_deeds` says that an event does
no others; `World.run_shared` is the induction over a run.
-/

namespace RocketSmbd

open ByteString Vfs

variable {σ : Type}

/-- The deeds of the dispatch of a member. -/
def Member.deed (srv : Srv σ) (m : Member σ) (l : DeedLabel) (sh : Shared σ) : Prop :=
  m.px.Reaches srv.env.crypto m.hdr m.msg ∧ ∃ credits,
    requestDeed { m.hdr with credits } { m.px with chain := resolveChain m.hdr m.px.chain } l sh

/-- The deeds of the end of connection `id`. -/
def closeDeed (id : ConnId) (c : Conn) : DeedLabel → Prop
  | .revise sid => sid ∈ c.proto.channels
  | .ended sid => sid ∈ c.proto.channels
  | .released conn => conn = (id.1, id.2, c.gen)
  | _ => False

/-- The deeds of an event. -/
def Event.deed (srv : Srv σ) (w : World σ) (e : Event) (l : DeedLabel) (sh : Shared σ) : Prop :=
  l = .aside ∨
    match e with
    | .frame id bytes => ∃ c ∈ w.taker id bytes,
        ∃ m ∈ frameMembers srv w.shared c.proto bytes c.tx, m.deed srv l sh
    | .finalize id => ∃ c ∈ w.conns.lookup id, c.closing = true ∧ closeDeed id c l
    | .wake wid => l = .drained wid
    | _ => False

/-! ### Frames

A relation that is reflexive and transitive, and holds for calls outside and for what each request
does to the shared state, holds for what a frame does to it. -/

section

variable {srv : Srv σ} {R : Shared σ → Shared σ → Prop} (hrefl : ∀ sh, R sh sh)
  (htrans : ∀ {a b c}, R a b → R b c → R a c)
  (haside : ∀ {sh : Shared σ} {o : σ}, Aside srv.env sh.host.os o → R sh (sh.withOs o))

include haside

include hrefl in
theorem closePlan_shared (sh : Shared σ) (plan : Option ZcReadPlan) :
    R sh (closePlan srv.env.os sh plan) := by
  cases plan with
  | none => exact hrefl _
  | some p => exact haside (.close p.fd _)

include hrefl htrans

theorem asides_shared {sh : Shared σ} {o : σ} (h : Asides srv.env sh.host.os o) :
    R sh (sh.withOs o) := by
  induction h with
  | refl => exact hrefl _
  | @tail o o' _ hstep ih => exact htrans ih (haside hstep)

section

variable (sh : Shared σ) (pc : ProtoConn) (frame tx : Bytes)

theorem processPlain_shared (transformSid : Option UInt64)
    (hmember : ∀ m ∈ plainMembers srv sh pc frame tx transformSid,
      R m.px.shared (dispatch srv m.hdr m.msg m.px).1.shared) :
    R sh (processPlain srv sh pc frame tx transformSid).shared := by
  revert hmember
  refine processPlain_cases srv sh pc frame tx transformSid (fun _ _ => ?_)
    fun _ ms w hw hmember => ?_
  · unfold processSmb1
    dsimp only
    split_ifs
    · exact hrefl _
    · split
      · exact hrefl _
      · split_ifs
        · -- the multi-protocol negotiation asks for the time and draws a salt
          obtain ⟨o, hasks, ho⟩ := negotiateResp_consults srv wildcardHdr
            ⟨sh, pc, { transformSid }, tx ++ zeros 4⟩ 0x02FF 0
          exact ho ▸ asides_shared hrefl htrans haside
            (Relation.ReflTransGen.mono (fun _ _ => .consults) _ _ hasks)
        · exact hrefl _
  · have hwalk := (hw.keeps (P := fun px => R sh px.shared)
      (fun _ _ hm hP => (memberAt_found hm).shared ▸ hP)
      (fun m hm hP => htrans hP (hmember m hm)) (fun _ hP => hP) (hrefl _)).1
    unfold finishWalk
    dsimp only
    split_ifs
    · exact htrans hwalk (closePlan_shared hrefl haside _ _)
    all_goals
      split
      · exact hwalk
      · exact hwalk

theorem processFrame_shared (hmember : ∀ m ∈ frameMembers srv sh pc frame tx,
      R m.px.shared (dispatch srv m.hdr m.msg m.px).1.shared) :
    R sh (processFrame srv sh pc frame tx).shared := by
  revert hmember
  refine processFrame_cases srv sh pc frame tx
    (fun _ => processPlain_shared hrefl htrans haside sh pc frame tx none) (fun _ _ => hrefl _)
    (fun enc plain _ _ hmember => ?_)
  have hplain := processPlain_shared hrefl htrans haside sh _ plain [] _ hmember
  rcases processSealed_cases srv sh pc tx (transformSessionId frame) enc plain with
    hr | ⟨plan, hr | hr⟩
  · rw [hr]
    exact hplain
  all_goals
    rw [hr]
    exact htrans hplain (closePlan_shared hrefl haside _ plan)

end

end

/-! ### The reactor -/

section

variable (srv : Srv σ)

theorem closeConnFds_asides (s : σ) (c : Conn) :
    Asides srv.env s (closeConnFds srv.env.os c s) := by
  unfold closeConnFds
  cases c.inotifyFd <;> cases c.zc
  · exact .refl
  · exact .single (.close _ _)
  · exact .single (.close _ _)
  · exact .tail (.single (.close _ _)) (.close _ _)

end

/-! ### Events -/

/-- **What an event does to the shared state**, for a relation as above that holds for the drain of
a mailbox and the end of a connection. -/
theorem World.step_shared {srv : Srv σ} {R : Shared σ → Shared σ → Prop} (hrefl : ∀ sh, R sh sh)
    (htrans : ∀ {a b c}, R a b → R b c → R a c)
    (haside : ∀ {sh : Shared σ} {o : σ}, Aside srv.env sh.host.os o → R sh (sh.withOs o))
    (w : World σ) (e : Event)
    (hmember : ∀ id bytes c, e = .frame id bytes → w.taker id bytes = some c →
      ∀ m ∈ frameMembers srv w.shared c.proto bytes c.tx,
        R m.px.shared (dispatch srv m.hdr m.msg m.px).1.shared)
    (hdrained : ∀ wid, e = .wake wid → R w.shared { w.shared with host := { w.shared.host with
      mailboxes := (Mailboxes.drain w.shared.host.mailboxes wid).2 } })
    (hdropped : ∀ id c, e = .finalize id → w.conns.lookup id = some c → c.closing = true →
      R w.shared (teardownConn srv.env.os w.shared c.proto).1 ∧
        ∀ sh : Shared σ, R sh { sh with host := { sh.host with
          leases := LeaseTable.releaseConn id.1 id.2 c.gen sh.host.leases } }) :
    R w.shared (w.step srv e).shared := by
  have hstep := w.step_cases srv e
  generalize w.step srv e = w' at hstep ⊢
  cases hstep with
  | stays => exact hrefl _
  | accepts id hid =>
    rw [onAccept, if_neg hid]
    exact hrefl _
  | takes id bytes c htaker =>
    exact htrans (processFrame_shared hrefl htrans haside w.shared c.proto bytes c.tx
      (hmember id bytes c rfl htaker))
      (asides_shared hrefl htrans haside (serviceNotify_steps srv.env _ _).asides)
  | notifies id bytes c =>
    exact asides_shared hrefl htrans haside (onInotify_steps srv w.shared.host.os c bytes).asides
  | changes _ id c c' s _ _ hos =>
    rcases hos with rfl | ⟨fd, rfl⟩
    · exact hrefl _
    · exact haside (.close fd _)
  | wakes wid =>
    rw [(onWake_spec srv w wid).1]
    exact hdrained wid rfl
  | drops id c hc hclosing =>
    obtain ⟨hsessions, hleases⟩ := hdropped id c rfl hc hclosing
    exact htrans hsessions (htrans
      (asides_shared hrefl htrans haside (closeConnFds_asides srv _ c)) (hleases _))

section

variable {srv : Srv σ} {ok : DeedLabel → Shared σ → Prop}

variable (srv)

theorem teardownChannel_deeds {sid : UInt64} (ch : ChannelState) (sh : Shared σ)
    (hrevise : ∀ sh, ok (.revise sid) sh) (hended : ∀ sh, ok (.ended sid) sh) :
    Deeds srv ok sh (teardownChannel srv.env.os sh sid ch) := by
  unfold teardownChannel
  cases hs : sh.sessions.lookup sid with
  | none => exact .refl _
  | some s =>
    dsimp only
    split_ifs
    · exact dropChannel_deeds srv hs hrevise hended
    · exact .refl _
    · exact .single (.ended hs) (hended _)

theorem teardownConn_deeds (sh : Shared σ) (pc : ProtoConn)
    (hrevise : ∀ sid ∈ pc.channels, ∀ sh, ok (.revise sid) sh)
    (hended : ∀ sid ∈ pc.channels, ∀ sh, ok (.ended sid) sh) :
    Deeds srv ok sh (teardownConn srv.env.os sh pc).1 := by
  have hfold : ∀ (es : List (Sigma fun _ : UInt64 => ChannelState)) (sh : Shared σ),
      (∀ e ∈ es, e.1 ∈ pc.channels) →
      Deeds srv ok sh (es.foldl (fun sh e => teardownChannel srv.env.os sh e.1 e.2) sh) := by
    intro es
    induction es with
    | nil => exact fun sh _ => .refl _
    | cons e es ih =>
      intro sh hmem
      have he := hmem e (by simp)
      exact (teardownChannel_deeds srv e.2 sh (hrevise _ he) (hended _ he)).trans
        (ih _ fun e' he' => hmem e' (by simp [he']))
  exact hfold _ sh fun e he => AList.mem_keys.2 (List.mem_map_of_mem he)

/-- **The deeds of an event.** -/
theorem World.step_deeds (w : World σ) (e : Event) :
    Deeds srv (e.deed srv w) w.shared (w.step srv e).shared := by
  refine World.step_shared (R := Deeds srv (e.deed srv w)) .refl .trans
    (fun h => .single (.aside h) (Or.inl rfl)) w e ?_ ?_ ?_
  · rintro id bytes c rfl htaker m hm
    exact (dispatch_deeds srv m.hdr m.msg m.px).mono fun l sh hl => Or.inr ⟨c, htaker, m, hm, hl⟩
  · rintro wid rfl
    exact .single (.drained wid) (Or.inr rfl)
  · rintro id c rfl hc hclosing
    have hdeed : ∀ l, closeDeed id c l → ∀ sh, Event.deed srv w (.finalize id) l sh :=
      fun l hl sh => Or.inr ⟨c, hc, hclosing, hl⟩
    exact ⟨teardownConn_deeds srv w.shared c.proto (fun sid hsid => hdeed (.revise sid) hsid)
      fun sid hsid => hdeed (.ended sid) hsid,
      fun sh => .single (.released id.1 id.2 c.gen) (hdeed (.released _) rfl sh)⟩

/-- What every deed keeps, every run keeps. -/
theorem World.run_shared {P : Shared σ → Prop} (hP : ∀ l a b, Deed srv l a b → P a → P b)
    (es : List Event) (w : World σ) (hw : P w.shared) : P (w.run srv es).shared := by
  induction es generalizing w with
  | nil => exact hw
  | cons e es ih =>
    exact ih (w.step srv e) ((w.step_deeds srv e).induct (fun l a b _ => hP l a b) hw)

end

end RocketSmbd
