import RocketSmbd.Life.Channel
import RocketSmbd.Sample

/-!
# Required encryption

Every path that establishes a channel repeats the test for a cipher; `ChannelState.Armed` is what
they have in common.  With `encrypt` in the configuration no session-scoped request is served from
a plaintext frame.
-/

namespace RocketSmbd

open ByteString Vfs

variable {σ : Type}

/-- What the flags of a channel promise: a channel that encrypts has keys, an established one
encrypts if the server requires it, and one that requires signing has a key for it. -/
structure ChannelState.Armed (cfg : Config) (ch : ChannelState) : Prop where
  enc : ch.encrypt = true → ch.enc.isSome
  forced : cfg.encrypt = true → ch.established = true → ch.encrypt = true
  sign : ch.signingRequired = true → ch.sign.isSome

section

variable {srv : Srv σ} {k k' : Core} {sid : UInt64} {ch : ChannelState}

theorem Core.Keyed.armed {ch₀ : ChannelState} {hist₀ hist : ConnHist}
    (h : k.Keyed srv hist₀ ch₀ ch hist)
    (henc : ch₀.encrypt = true → ch₀.enc.isSome)
    (hsign : ch₀.signingRequired = true → ch₀.sign.isSome) : ch.Armed srv.cfg := by
  cases h with
  | user required key hseal =>
    refine ⟨fun hen => ?_, fun hcfg _ => ?_, fun _ => rfl⟩
    · simp only [authenticated, decide_eq_true_eq] at hen
      rcases hen with hen | ⟨hen, -⟩
      · simp [authenticated, henc hen]
      · simp [authenticated, hen]
    · have hsealable : sealable k.dialect k.cipher := by
        by_contra hno
        exact hseal ⟨hcfg, hno⟩
      simp [authenticated, deriveEnc, hsealable, hcfg]
  | guest hcfg => exact ⟨henc, fun h => absurd h (by simp [hcfg]), hsign⟩

theorem Became.armed (h : Became srv k k' sid ch)
    (hk : ∀ sid ch, k.channels.lookup sid = some ch → ch.Armed srv.cfg) : ch.Armed srv.cfg := by
  cases h with
  | same ch h => exact hk sid ch h
  | opened => exact ⟨by simp, by simp, by simp⟩
  | redrawn ch _ _ h | leg ch _ _ _ h =>
    exact ⟨(hk sid ch h).enc, (hk sid ch h).forced, (hk sid ch h).sign⟩
  | keyed ch ch₀ _ _ _ _ h _ h₀ hkey =>
    rcases h₀ with ⟨-, rfl⟩ | rfl
    · exact hkey.armed (hk sid ch h).enc (hk sid ch h).sign
    · exact hkey.armed (by simp) (by simp)
  | keyedNew _ _ _ _ hkey => exact hkey.armed (by simp) (by simp)
  | encrypting ch e h he => exact ⟨fun _ => by simp [he], fun _ _ => rfl, (hk sid ch h).sign⟩
  | counted ch e h he => exact ⟨fun _ => rfl, (hk sid ch h).forced, (hk sid ch h).sign⟩

end

/-- Every channel of every connection keeps its promises. -/
theorem World.run_armed (srv : Srv σ) (workers : ℕ) (os : σ) (es : List Event) :
    ∀ id c, ((World.start workers os).run srv es).conns.lookup id = some c →
      ∀ sid ch, c.proto.channels.lookup sid = some ch → ch.Armed srv.cfg :=
  World.run_channels (fun _ _ _ _ h hk => h.armed hk) workers os es

/-- So do they at every moment inside a frame. -/
theorem World.Sees.armed {srv : Srv σ} {workers : ℕ} {os : σ} {es es' : List Event} {id : ConnId}
    {pc : ProtoConn} (h : ((World.start workers os).run srv es).Sees srv id es' pc) :
    ∀ sid ch, pc.channels.lookup sid = some ch → ch.Armed srv.cfg := by
  obtain ⟨c, k, hc, hmoves, hchannels⟩ := h.moves
  have hk := hmoves.channels (fun _ _ _ _ h hk => Became.armed h hk)
    (World.run_armed srv workers os es id c hc)
  rwa [hchannels] at hk

/-! ### Plaintext requests -/

/-- The commands that run inside a session. -/
def sessionScoped (cmd : UInt16) : Prop :=
  cmd ≠ cmdNegotiate ∧ cmd ≠ cmdSessionSetup ∧ cmd ≠ cmdEcho ∧ cmd ≠ cmdCancel

instance (cmd : UInt16) : Decidable (sessionScoped cmd) :=
  inferInstanceAs (Decidable (_ ∧ _ ∧ _ ∧ _))

/-- The request was not served: the connection closes, or an error response says so, and nothing
that sessions, channels or notifies consist of has changed. -/
structure Px.Denied (px : Px σ) (out : Px σ × Option ZcReadPlan) : Prop where
  plan : out.2 = none
  shared : out.1.shared = px.shared
  channels : out.1.pc.channels = px.pc.channels
  notify : out.1.pc.notify = px.pc.notify
  answer : (out.1.pc.close = true ∧ out.1.tx = px.tx) ∨
    ∃ h st chain, (st = Status.accessDenied ∨ st = Status.userSessionDeleted) ∧
      out.1.tx = errResp px.tx h st chain

section

variable (srv : Srv σ) (h : ReqHdr) (msg : Bytes) (px : Px σ)

/-- A session-scoped request without an established channel is not served. -/
theorem route_denied (hcmd : sessionScoped h.command)
    (hest : ¬ (px.pc.channels.lookup px.chain.sessionId).any (·.established)) :
    route srv h msg px = (px.err h Status.userSessionDeleted, none) := by
  obtain ⟨hneg, hsetup, hecho, hcancel⟩ := hcmd
  unfold route
  rw [if_neg hneg, if_neg hecho, if_neg hcancel, if_neg hsetup]
  split
  · unfold logoff
    dsimp only
    rw [if_neg hest]
  · unfold routeSession
    rw [if_pos hest]

/-- A plaintext request is denied on a channel that encrypts if it is in use. -/
theorem dispatch_denied (hplain : px.chain.transformSid = none) (hcmd : sessionScoped h.command)
    (hch : ∀ ch, px.pc.channels.lookup (effective h px.chain) = some ch →
      ch.established = true → ch.encrypt = true) : px.Denied (dispatch srv h msg px) := by
  have hout := dispatch_dispatched srv h msg px
  generalize dispatch srv h msg px = out at hout ⊢
  cases hout with
  | replayed | foreign => exact ⟨rfl, rfl, rfl, rfl, Or.inl ⟨rfl, rfl⟩⟩
  | refused => exact ⟨rfl, rfl, rfl, rfl, Or.inr ⟨_, _, _, Or.inl rfl, rfl⟩⟩
  | routed hr =>
    have ha := hr.2.2
    have hest : ¬ (px.pc.channels.lookup (effective h px.chain)).any (·.established) := by
      intro hany
      obtain ⟨ch, hlook, hest⟩ := any_eq_true.1 hany
      have hlook' : px.pc.channels.lookup (resolveChain h px.chain).sessionId = some ch := hlook
      have htransform : (resolveChain h px.chain).transformSid = none := by
        unfold resolveChain
        split <;> exact hplain
      simp [admitted, hlook', htransform, hch ch hlook hest, hcmd.1, hcmd.2.1] at ha
    rw [route_denied srv (h.paid px) msg _ hcmd hest]
    exact ⟨rfl, rfl, rfl, rfl, Or.inr ⟨_, _, _, Or.inr rfl, rfl⟩⟩

end

/-! ### Channels that encrypt -/

/-- The event is not a LOGOFF of session `sid` on connection `id`. -/
def Event.StaysIn (srv : Srv σ) (id : ConnId) (sid : UInt64) (w : World σ) : Event → Prop
  | .frame id' bytes => id' = id → ∀ c ∈ w.taker id bytes,
    ∀ m ∈ frameMembers srv w.shared c.proto bytes c.tx,
      ¬ (m.hdr.command = cmdLogoff ∧ effective m.hdr m.px.chain = sid)
  | _ => True

instance (srv : Srv σ) (id : ConnId) (sid : UInt64) (w : World σ) :
    ∀ e : Event, Decidable (e.StaysIn srv id sid w)
  | .frame id' bytes => inferInstanceAs (Decidable (id' = id → ∀ c ∈ w.taker id bytes, _))
  | .accept _ | .sent _ | .zcDone _ | .inotify _ _ | .inotifyDied _ | .wake _ | .hangup _
  | .finalize _ => isTrue trivial

/-- The moves of connections of which `id` does not leave session `sid`. -/
def staysIn (id : ConnId) (sid : UInt64) (id' : ConnId) (l : Label) (_ : Core) : Prop :=
  id' = id → l ≠ .logoff sid

section

variable (srv : Srv σ)

theorem Event.StaysIn.permitted {id : ConnId} {sid : UInt64} {w : World σ} {e : Event}
    (he : e.StaysIn srv id sid w) : e.Permitted srv (staysIn id sid) w := by
  cases e with
  | frame id' bytes =>
    refine fun c hc => ⟨fun _ _ => by simp, fun m hm l hl hid hlabel => ?_, fun _ _ _ => by simp⟩
    subst hid hlabel
    exact he rfl c hc m hm ⟨hl.2.1, hl.2.2.symm⟩
  | _ => trivial

/-- An established channel stays in use until the client logs off or the connection goes. -/
theorem World.run_in_use {w : World σ} {es : List Event} {id : ConnId} {sid : UInt64}
    {c : Conn} {ch : ChannelState} (hknown : w.Known)
    (hquiet : w.shared.created.Nodup → w.Quiet) (hc : w.conns.lookup id = some c)
    (hch : c.proto.channels.lookup sid = some ch) (hest : ch.established = true)
    (hes : w.Always srv (fun w e => e.StaysIn srv id sid w) es) (hlive : .finalize id ∉ es)
    (hnodup : (w.run srv es).shared.created.Nodup) :
    ∃ c' ch', (w.run srv es).conns.lookup id = some c' ∧
      c'.proto.channels.lookup sid = some ch' ∧ ch.InUse ch' := by
  have hpermitted : w.Always srv (fun w e => e.Permitted srv (staysIn id sid) w) es :=
    World.always_mono (fun _ _ h => Event.StaysIn.permitted srv h) hes
  have hlenient : ∀ id', Lenient (staysIn id sid id') := fun id' =>
    ⟨fun _ _ => by simp, fun _ _ => by simp, fun _ _ => by simp⟩
  refine (World.run_induct srv (P := fun w' => w'.Known ∧ (w'.shared.created.Nodup →
    w'.Quiet ∧ ∃ c' ch', w'.conns.lookup id = some c' ∧ c'.proto.channels.lookup sid = some ch' ∧
      ch.InUse ch')) hlenient (fun a b hact ha => ?_) w es hpermitted
    (fun id' h (heq : id' = id) => hlive (heq ▸ h))
    ⟨hknown, fun hn => ⟨hquiet hn, c, ch, hc, hch, .refl hest⟩⟩).2 hnodup |>.2
  refine ⟨hact.known ha.1, fun hb => ?_⟩
  obtain ⟨hq, c₁, ch₁, hc₁, hch₁, huse⟩ := ha.2 (hact.created_prefix.sublist.nodup hb)
  refine ⟨hact.quiet ha.1 hq hb, ?_⟩
  obtain ⟨c₂, hc₂⟩ := hact.lookup_isSome hc₁ (fun h => h rfl)
  cases hact.fate hc₂ with
  | new hnone => exact absurd (hnone.symm.trans hc₁) (by simp)
  | same d hd hlife =>
    obtain rfl := Option.some.inj (hd.symm.trans hc₁)
    have hproto : c₂.proto = d.proto := congrArg (fun l => l.2.1) hlife
    exact ⟨c₂, ch₁, hc₂, hproto ▸ hch₁, huse⟩
  | moved d hd _ hmoves =>
    obtain rfl := Option.some.inj (hd.symm.trans hc₁)
    obtain ⟨ch₂, hch₂, huse₂⟩ := hmoves.in_use (fun l k h => h rfl) hb (ha.1.core hd) (hq id d hd)
      hch₁ huse.established
    exact ⟨c₂, ch₂, hc₂, hch₂, huse.trans huse₂⟩

/-- **Encryption is enforced.**  In every state that a connection passes through, also between the
requests of a frame, a channel that encrypts has keys, and with `encrypt` configured every
established channel has keys and encrypts.  An established channel that encrypts does so until the
client logs off or the connection goes, if no session id is drawn twice.  With `encrypt`
configured, no session-scoped request of a plaintext frame is served. -/
theorem encryption_enforced (workers : ℕ) (os : σ) (es es' : List Event) (id : ConnId)
    (pc : ProtoConn) (hpc : ((World.start workers os).run srv es).Sees srv id es' pc) :
    (∀ sid ch, pc.channels.lookup sid = some ch →
      (ch.encrypt = true → ch.enc.isSome) ∧
      (srv.cfg.encrypt = true → ch.established = true → ch.enc.isSome ∧ ch.encrypt = true)) ∧
    (∀ c sid ch, ((World.start workers os).run srv es).conns.lookup id = some c →
      c.proto.channels.lookup sid = some ch → ch.established = true → ch.encrypt = true →
      ((World.start workers os).run srv es).Always srv (fun w e => e.StaysIn srv id sid w) es' →
      .finalize id ∉ es' →
      ((World.start workers os).run srv (es ++ es')).shared.created.Nodup →
      ∃ c' ch', ((World.start workers os).run srv (es ++ es')).conns.lookup id = some c' ∧
        c'.proto.channels.lookup sid = some ch' ∧ ch'.established = true ∧ ch'.encrypt = true) ∧
    (srv.cfg.encrypt = true → ∀ bytes, isTransform bytes = false →
      ∀ c, ((World.start workers os).run srv es).taker id bytes = some c →
      ∀ m ∈ frameMembers srv ((World.start workers os).run srv es).shared c.proto bytes c.tx,
        sessionScoped m.hdr.command → m.px.Denied (dispatch srv m.hdr m.msg m.px)) := by
  refine ⟨fun sid ch hch => ?_, fun c sid ch hc hch hest hen hstays hlive hnodup => ?_,
    fun hcfg bytes hplain c hc m hm hcmd => ?_⟩
  · have harmed := hpc.armed sid ch hch
    exact ⟨harmed.enc, fun hcfg hest =>
      ⟨harmed.enc (harmed.forced hcfg hest), harmed.forced hcfg hest⟩⟩
  · rw [World.run, List.foldl_append] at hnodup ⊢
    obtain ⟨c', ch', hc', hch', huse⟩ := World.run_in_use srv (World.run_known workers os es)
      (World.run_quiet workers os es) hc hch hest hstays hlive hnodup
    exact ⟨c', ch', hc', hch', huse.established, huse.encrypt hen⟩
  · have harmed := (member_moves srv _ c bytes hm id).1.channels
      (fun _ _ _ _ h hk => Became.armed h hk)
      (World.run_armed srv workers os es id c (World.taker_lookup hc))
    have htransform := frameMembers_transform hm
    rw [hplain, if_neg (by simp)] at htransform
    exact dispatch_denied srv m.hdr m.msg m.px htransform hcmd fun ch hch hest =>
      (harmed _ ch hch).forced hcfg hest

end

open Sample in
/-- A client of a server that requires encryption, and its TREE_CONNECT in plaintext. -/
theorem encryption_enforced_treeConnect :
    ∃ c ∈ ((World.start 1 {}).run (srv true false) logIn).taker conn (treeReq 0 0 2 2),
      (∃ ch ∈ c.proto.channels.lookup 2, ch.established = true ∧ ch.enc.isSome ∧
        ch.encrypt = true) ∧
      ∃ m ∈ frameMembers (srv true false) ((World.start 1 {}).run (srv true false) logIn).shared
          c.proto (treeReq 0 0 2 2) c.tx,
        m.hdr.command = cmdTreeConnect ∧
          m.px.Denied (dispatch (srv true false) m.hdr m.msg m.px) := by
  obtain ⟨c, hc, ⟨ch, hch, hest⟩, m, hm, hcmd⟩ : ∃ c ∈ ((World.start 1 {}).run (srv true false)
      logIn).taker conn (treeReq 0 0 2 2),
      (∃ ch ∈ c.proto.channels.lookup 2, ch.established = true) ∧
      ∃ m ∈ frameMembers (srv true false) ((World.start 1 {}).run (srv true false) logIn).shared
        c.proto (treeReq 0 0 2 2) c.tx, m.hdr.command = cmdTreeConnect := by decide +kernel
  obtain ⟨harmed, -, hdenied⟩ := encryption_enforced (srv true false) 1 {} logIn [] conn c.proto
    (.now c [] (World.taker_lookup hc))
  obtain ⟨henc, hen⟩ := (harmed 2 ch hch).2 rfl hest
  exact ⟨c, hc, ⟨ch, hch, hest, henc, hen⟩, m, hm, hcmd,
    hdenied rfl _ rfl c hc m hm (by rw [hcmd]; decide)⟩

end RocketSmbd
