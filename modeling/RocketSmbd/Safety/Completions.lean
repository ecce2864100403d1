import RocketSmbd.Safety.Encryption
import RocketSmbd.Smb2.Signing

/-!
# Completions of pended notifies

A CHANGE_NOTIFY is answered twice: at once with an interim response, and whenever its directory
changes, its handle closes or it is cancelled with a completion.  The completion is built on the
channel as it is then.  While the channel is there it is as good as when the request was accepted:
it still encrypts and still has its signing key, so the completion is sealed or signed as the
request was.  LOGOFF removes the channel and leaves the pended requests behind.
-/

namespace RocketSmbd

open ByteString Vfs

variable {σ : Type}

/-! ### The frame of a completion -/

/-- The completion of a request keeps what its acceptance promised: on a channel that encrypted it
is sealed under the channel's key, and if it was to be signed on one that did not, the message
verifies, also if it is sealed by now. -/
structure Delivered (cr : Crypto) (info : AsyncMeta) (frame : Bytes) : Prop where
  sealed : ∀ key, info.sealedUnder = some key → ∃ plain enc, enc.s2c = key ∧
    frame = sealedFrame cr plain enc enc.nonceCtr info.sessionId
  signed : ∀ sc, info.signedUnder = some sc → ∃ msg, SignedBy cr sc msg ∧
    (frame = nbtPrefix msg.length ++ msg ∨
      ∃ enc, frame = sealedFrame cr msg enc enc.nonceCtr info.sessionId)

/-! ### Channels that can keep the promise -/

/-- The request was accepted on a channel that encrypted, or has to be signed. -/
def AsyncMeta.guarded (info : AsyncMeta) : Prop :=
  info.sealedUnder.isSome ∨ info.signedUnder.isSome

instance (info : AsyncMeta) : Decidable info.guarded := inferInstanceAs (Decidable (_ ∨ _))

/-- The channel has what the completion of the request needs. -/
structure ChannelState.Backs (ch : ChannelState) (info : AsyncMeta) : Prop where
  established : ch.established = true
  sealed : ∀ key, info.sealedUnder = some key → ch.encrypt = true ∧
    ch.enc.map EncCtx.s2c = some key
  signed : ∀ sc, info.signedUnder = some sc → info.wantSign = true ∧ ch.sign = some sc

namespace ChannelState

variable {ch ch' : ChannelState} {info : AsyncMeta}

theorem Backs.in_use (h : ch.Backs info) (huse : ch.InUse ch') : ch'.Backs info where
  established := huse.established
  sealed := fun key hkey =>
    ⟨huse.encrypt (h.sealed key hkey).1, huse.s2c.trans (h.sealed key hkey).2⟩
  signed := fun sc hsc => ⟨(h.signed sc hsc).1, huse.sign.trans (h.signed sc hsc).2⟩

theorem backs_of_accepted {h : ReqHdr} {p : NotifyPend} (hacc : acceptedOn (some ch) h p)
    (hest : ch.established = true) : ch.Backs p.info where
  established := hest
  sealed := by
    intro key hkey
    rw [hacc.2.1, Option.bind_some, sealKey] at hkey
    split_ifs at hkey with hen
    exact ⟨hen, hkey⟩
  signed := by
    intro sc hsc
    rw [hacc.2.2.1, Option.bind_some] at hsc
    split_ifs at hsc with hwant
    exact ⟨hacc.1.trans hwant.1, hsc⟩

end ChannelState

/-! ### Moves -/

/-- The pended requests of a connection can be completed as promised, and those completed were. -/
structure Core.Kept (cr : Crypto) (k : Core) : Prop where
  pends : ∀ p ∈ k.pends, p.info.guarded →
    ∃ ch, k.channels.lookup p.info.sessionId = some ch ∧ ch.Backs p.info
  finals : ∀ x ∈ k.hist.finals, Delivered cr x.1 x.2

/-- The client does not log off a session with guarded requests pended on it. -/
def noOrphans (_ : ConnId) (l : Label) (k : Core) : Prop :=
  ∀ sid, l = .logoff sid → ∀ p ∈ k.pends, p.info.guarded → p.info.sessionId ≠ sid

theorem lenient_noOrphans (id : ConnId) : Lenient (noOrphans id) :=
  ⟨fun _ _ h => by simp at h, fun _ _ h => by simp at h, fun _ _ h => by simp at h⟩

section

variable {srv : Srv σ} {l : Label} {k k' : Core}

/-- Where a pended request comes from. -/
theorem Move.pend_cases (h : Move srv l k k') {p : NotifyPend} (hp : p ∈ k'.pends) :
    p ∈ k.pends ∨ k'.channels = k.channels ∧
      ∃ ch, k.channels.lookup p.info.sessionId = some ch ∧ ch.established = true ∧
        ∃ hdr, acceptedOn (some ch) hdr p := by
  cases h with
  | request sid ch lease s s' host pends hch hest hs hserve =>
    rcases hserve.pends p hp with hp | ⟨hacc, hsid⟩
    · exact Or.inl hp
    · exact Or.inr ⟨rfl, ch, hsid ▸ hch, hest, hacc⟩
  | forget pends hsub => exact Or.inl (hsub p hp)
  | _ => exact Or.inl hp

/-- The completion of a request on its channel. -/
theorem completion_delivered (cr : Crypto) {p : NotifyPend} (st : UInt32)
    (events : List (UInt32 × Str))
    (hback : p.info.guarded →
      ∃ ch, k.channels.lookup p.info.sessionId = some ch ∧ ch.Backs p.info) :
    ∀ sc, p.info.signedUnder = some sc → ∃ msg, SignedBy cr sc msg ∧
      k.finalFrame cr p st events = nbtPrefix msg.length ++ msg := by
  intro sc hsc
  obtain ⟨ch, hch, hb⟩ := hback (Or.inr (by rw [hsc]; rfl))
  obtain ⟨hwant, hsign⟩ := hb.signed sc hsc
  obtain ⟨resp, hresp, hmsg⟩ := notifyFinalMsg_reply p.info st events p.outLen
  unfold Core.finalFrame
  rw [hmsg]
  exact finalizeAsync_signed cr hresp hwant (by rw [hch, Option.bind_some, hsign])

/-- A pended request completes: in the clear where its channel does not seal, and sealed under the
keys of its channel where it does. -/
inductive Core.Completes (cr : Crypto) (k : Core) : AsyncMeta × Bytes → Prop
  | clear {p : NotifyPend} (st : UInt32) (events : List (UInt32 × Str)) (hp : p ∈ k.pends)
      (hopen : ∀ ch e, k.channels.lookup p.info.sessionId = some ch → ¬ ch.sealsWith e) :
    Completes cr k (p.info, k.finalFrame cr p st events)
  | sealed {p : NotifyPend} (st : UInt32) (events : List (UInt32 × Str)) {ch : ChannelState}
      {e : EncCtx} (hp : p ∈ k.pends) (hch : k.channels.lookup p.info.sessionId = some ch)
      (hseal : ch.sealsWith e) :
    Completes cr k (p.info, sealedFrame cr ((k.finalFrame cr p st events).drop 4) e.next
      e.next.nonceCtr p.info.sessionId)

/-- Where a completion comes from. -/
theorem Move.final_cases (h : Move srv l k k') :
    ∀ x ∈ k'.hist.finals, x ∈ k.hist.finals ∨ k.Completes srv.env.crypto x := by
  have hlog : ∀ {info frame} {hist : ConnHist}, hist.finals = k.hist.finals →
      k.Completes srv.env.crypto (info, frame) →
      ∀ x ∈ (hist.logFinal info frame).finals,
        x ∈ k.hist.finals ∨ k.Completes srv.env.crypto x := by
    intro info frame hist hsame hd x hx
    rcases List.mem_append.1 hx with hx | hx
    · exact Or.inl (hsame ▸ hx)
    · obtain rfl := List.mem_singleton.1 hx
      exact Or.inr hd
  have hrest : ∀ {hist : ConnHist}, hist.rest = k.hist.rest → hist.finals = k.hist.finals :=
    fun hsame => congrArg (fun r => r.2.2) hsame
  have hsame : ∀ {hist : ConnHist}, hist.finals = k.hist.finals →
      ∀ x ∈ hist.finals, x ∈ k.hist.finals ∨ k.Completes srv.env.crypto x :=
    fun hfinals x hx => Or.inl (hfinals ▸ hx)
  have hkeyed : ∀ {hist₀ ch₀ ch hist}, k.Keyed srv hist₀ ch₀ ch hist →
      hist₀.rest = k.hist.rest → hist.finals = k.hist.finals := by
    intro hist₀ ch₀ ch hist hkey hsame
    cases hkey with
    | user => exact (hrest hsame : hist₀.finals = k.hist.finals)
    | guest => exact hrest hsame
  cases h with
  | begin _ _ _ _ _ hopen => exact hsame (hrest hopen.rest)
  | abandon _ _ _ _ _ hend => exact hsame (hrest hend.rest)
  | establish _ _ _ _ _ _ _ _ hist _ _ _ _ _ _ _ hend hkey => exact hsame (hkeyed hkey hend.rest)
  | establishNew _ _ _ _ hist _ _ _ _ _ _ hkey | bind _ _ _ _ _ _ hist _ _ _ _ _ hkey =>
    exact hsame (hkeyed hkey rfl)
  | completeOpen p st events hp _ hopen => exact hlog rfl (.clear st events hp hopen)
  | completeSealed p st events ch e hp _ hch hseal =>
    exact hlog rfl (.sealed st events hp hch hseal)
  | _ => exact fun x hx => Or.inl hx

/-- The completions of a connection that can keep its promises keep them. -/
theorem Core.Completes.delivered {cr : Crypto} {x : AsyncMeta × Bytes} (h : k.Completes cr x)
    (hk : k.Kept cr) : Delivered cr x.1 x.2 := by
  cases h with
  | clear st events hp hopen =>
    refine ⟨fun key hkey => ?_, fun sc hsc => ?_⟩
    · -- A request that was accepted on an encrypting channel has one still.
      obtain ⟨ch, hch, hb⟩ := hk.pends _ hp (Or.inl (by rw [hkey]; rfl))
      obtain ⟨hen, hs2c⟩ := hb.sealed key hkey
      obtain ⟨e, he, -⟩ := Option.map_eq_some_iff.1 hs2c
      exact absurd ⟨hen, he⟩ (hopen ch e hch)
    · obtain ⟨msg, hmsg, hframe⟩ := completion_delivered cr st events (hk.pends _ hp) sc hsc
      exact ⟨msg, hmsg, Or.inl hframe⟩
  | @sealed p st events ch e hp hch hseal =>
    refine ⟨fun key hkey => ?_, fun sc hsc => ?_⟩
    · obtain ⟨ch', hch', hb⟩ := hk.pends _ hp (Or.inl (by rw [hkey]; rfl))
      obtain rfl := Option.some.inj (hch.symm.trans hch')
      have hs2c := (hb.sealed key hkey).2
      rw [hseal.2] at hs2c
      exact ⟨_, e.next, Option.some.inj hs2c, rfl⟩
    · obtain ⟨msg, hmsg, hframe⟩ := completion_delivered cr st events (hk.pends _ hp) sc hsc
      refine ⟨msg, hmsg, Or.inr ⟨e.next, ?_⟩⟩
      rw [hframe]
      rfl

theorem Move.final_delivered (h : Move srv l k k') (hk : k.Kept srv.env.crypto) :
    ∀ x ∈ k'.hist.finals, Delivered srv.env.crypto x.1 x.2 := by
  intro x hx
  rcases h.final_cases x hx with hold | hnew
  · exact hk.finals x hold
  · exact hnew.delivered hk

theorem Move.kept {id : ConnId} (hok : Serving (noOrphans id) l k) (h : Move srv l k k')
    (hknown : k.Known) (hquiet : k.Quiet) (hnodup : k'.created.Nodup)
    (hk : k.Kept srv.env.crypto) : k'.Kept srv.env.crypto := by
  refine ⟨fun p hp hguard => ?_, h.final_delivered hk⟩
  rcases h.pend_cases hp with hp | ⟨hsame, ch, hch, hest, hdr, hacc⟩
  · obtain ⟨ch, hch, hb⟩ := hk.pends p hp hguard
    have hstays : l ≠ .logoff p.info.sessionId := fun hl => hok.1 _ hl p hp hguard rfl
    obtain ⟨ch', hch'⟩ := h.lookup_isSome hstays hok.2 hquiet hch hb.established
    exact ⟨ch', hch', hb.in_use ((h.became hch').in_use hch hb.established hquiet hknown hnodup)⟩
  · exact ⟨ch, hsame ▸ hch, ChannelState.backs_of_accepted hacc hest⟩

end

theorem ofConn_kept (cr : Crypto) : OfConn (Core.Kept cr) where
  own := by
    intro a b hchs hpends hhist _ ha
    exact ⟨by rw [hchs, hpends]; exact ha.pends, by rw [hhist]; exact ha.finals⟩
  new := by
    intro k hchs hpends hhist _
    exact ⟨by rw [hpends]; simp, by rw [hhist]; simp⟩

/-! ### Runs -/

/-- No LOGOFF that the event brings to its handler leaves a guarded request behind: none is pended
on the connection for the session that the LOGOFF ends there. -/
def Event.NoOrphans (srv : Srv σ) (w : World σ) : Event → Prop
  | .frame id bytes => ∀ c ∈ w.taker id bytes,
    ∀ m ∈ frameMembers srv w.shared c.proto bytes c.tx, m.hdr.command = cmdLogoff →
      m.px.Reaches srv.env.crypto m.hdr m.msg →
      ∀ p ∈ c.watched ++ m.px.pc.notify.new, p.info.guarded →
        p.info.sessionId ≠ effective m.hdr m.px.chain
  | _ => True

instance (srv : Srv σ) (w : World σ) : ∀ e : Event, Decidable (e.NoOrphans srv w)
  | .frame id bytes => inferInstanceAs (Decidable (∀ c ∈ w.taker id bytes, _))
  | .accept _ | .sent _ | .zcDone _ | .inotify _ _ | .inotifyDied _ | .wake _ | .hangup _
  | .finalize _ => isTrue trivial

section

variable (srv : Srv σ)

theorem Event.NoOrphans.permitted {w : World σ} {e : Event} (he : e.NoOrphans srv w) :
    e.Permitted srv noOrphans w := by
  cases e with
  | frame id bytes =>
    refine fun c hc => ⟨fun _ _ h => by simp at h, fun m hm l hl sid hlabel p hp hguard => ?_,
      fun _ _ _ h => by simp at h⟩
    subst hlabel
    obtain ⟨hreach, hcmd, rfl⟩ := hl
    exact he c hc m hm hcmd hreach p hp hguard
  | _ => trivial

/-- The channel on which the request was accepted, as the request remembers it. -/
structure ChannelState.Remembered (ch : ChannelState) (info : AsyncMeta) : Prop where
  encrypting : ch.encrypt = true → ∃ e, ch.enc = some e ∧ info.sealedUnder = some e.s2c
  signing : ch.encrypt = false → info.wantSign = true →
    ∃ sc, ch.sign = some sc ∧ info.signedUnder = some sc

theorem acceptedOn.remembered {ch : ChannelState} {hdr : ReqHdr} {p : NotifyPend}
    (h : acceptedOn (some ch) hdr p) (harmed : ch.Armed srv.cfg) : ch.Remembered p.info where
  encrypting := by
    intro hen
    obtain ⟨e, he⟩ := Option.isSome_iff_exists.1 (harmed.enc hen)
    refine ⟨e, he, ?_⟩
    rw [h.2.1, Option.bind_some, ChannelState.sealKey, if_pos hen, he]
    rfl
  signing := by
    intro hen hwant
    rw [h.1] at hwant
    have hsome : ch.sign.isSome = true := by
      simp only [wantSign, Option.any_some, decide_eq_true_eq] at hwant
      exact hwant.1
    obtain ⟨sc, hsc⟩ := Option.isSome_iff_exists.1 hsome
    refine ⟨sc, hsc, ?_⟩
    rw [h.2.2.1, Option.bind_some, if_pos ⟨hwant, by simp [hen]⟩, hsc]

/-- A request that a dispatch accepts remembers its channel. -/
theorem dispatch_remembered (h : ReqHdr) (msg : Bytes) (px : Px σ) {p : NotifyPend}
    (harmed : ∀ sid ch, px.pc.channels.lookup sid = some ch → ch.Armed srv.cfg)
    (hp : p ∈ (dispatch srv h msg px).1.pc.notify.new) (hnew : p ∉ px.pc.notify.new) :
    ∃ ch, px.pc.channels.lookup p.info.sessionId = some ch ∧ ch.Remembered p.info := by
  have hmem : p ∈ ((dispatch srv h msg px).1.core [] none).pends := hp
  rcases dispatch_move srv h msg [] none px with hsame | ⟨l, -, hmove⟩
  · rw [hsame] at hmem
    exact absurd hmem hnew
  · rcases hmove.pend_cases hmem with hold | ⟨-, ch, hch, -, hdr, hacc⟩
    · exact absurd hold hnew
    · exact ⟨ch, hch, hacc.remembered srv (harmed _ ch hch)⟩

/-- **Completions are guarded like their requests.**  A request remembers the keys of the channel
on which it is accepted.  If no client logs off a session while a request accepted under
encryption, or to be signed, is pended on it, and no session id is drawn twice, every completion
of a request that was accepted on an encrypting channel is sealed under the key of that channel,
and every completion of a request that was to be signed on a channel that did not encrypt is
signed with the key of that channel. -/
theorem completions_guarded (workers : ℕ) (os : σ) (es : List Event)
    (hes : (World.start workers os).Always srv (fun w e => e.NoOrphans srv w) es)
    (hnodup : ((World.start workers os).run srv es).shared.created.Nodup) (id : ConnId) :
    (∀ bytes c, ((World.start workers os).run srv es).taker id bytes = some c →
      ∀ m ∈ frameMembers srv ((World.start workers os).run srv es).shared c.proto bytes c.tx,
      ∀ p ∈ (dispatch srv m.hdr m.msg m.px).1.pc.notify.new, p ∉ m.px.pc.notify.new →
        ∃ ch, m.px.pc.channels.lookup p.info.sessionId = some ch ∧ ch.Remembered p.info) ∧
    ∀ c, ((World.start workers os).run srv es).conns.lookup id = some c →
      ∀ info frame, (info, frame) ∈ c.proto.hist.finals →
        Delivered srv.env.crypto info frame := by
  refine ⟨fun bytes c hc m hm p hp hnew => ?_, fun c hc info frame hfinal => ?_⟩
  · have harmed := (member_moves srv _ c bytes hm id).1.channels
      (fun _ _ _ _ h hk => Became.armed h hk)
      (World.run_armed srv workers os es id c (World.taker_lookup hc))
    exact dispatch_remembered srv m.hdr m.msg m.px harmed hp hnew
  · have hpermitted := World.always_mono (fun _ _ h => Event.NoOrphans.permitted srv h) hes
    have hkept := World.run_each lenient_noOrphans (ofConn_kept srv.env.crypto)
      (fun _ _ _ _ hok hm hknown hquiet hb hk => hm.kept hok hknown hquiet hb hk)
      workers os es hpermitted hnodup
    exact (hkept id c hc).finals (info, frame) hfinal

end

open Sample in
/-- A client of a server that encrypts waits for changes of a directory, and one comes. -/
theorem completions_guarded_watching :
    ∃ c, ((World.start 1 {}).run (srv true false)
        (watching ++ [.inotify conn createdEvent])).conns.lookup conn = some c ∧
      ∃ x ∈ c.proto.hist.finals, x.1.sealedUnder.isSome ∧ Delivered crypto x.1 x.2 := by
  obtain ⟨c, hc, x, hx, hsome⟩ : ∃ c ∈ ((World.start 1 {}).run (srv true false)
      (watching ++ [.inotify conn createdEvent])).conns.lookup conn,
      ∃ x ∈ c.proto.hist.finals, x.1.sealedUnder.isSome := by decide +kernel
  have hguarded := completions_guarded (srv true false) 1 {}
    (watching ++ [.inotify conn createdEvent]) (by decide +kernel) (by decide +kernel) conn
  exact ⟨c, Option.mem_def.1 hc, x, hx, hsome, hguarded.2 c (Option.mem_def.1 hc) x.1 x.2 hx⟩

theorem sealedFrame_proto (cr : Crypto) (plain : Bytes) (enc : EncCtx) (n : ℕ) (sid : UInt64) :
    ((sealedFrame cr plain enc n sid).drop 4).take 4 = transformProto := by
  simp [sealedFrame, nbtPrefix, transformProto]

open Sample in
/-- The client logs off before the change comes: the completion of its request, which was accepted
on an encrypting channel, leaves in cleartext. -/
theorem completion_in_cleartext :
    ∃ c, ((World.start 1 {}).run (srv true false)
        (watching ++ [.frame conn (sealed 2 (logoffReq 0 0 5 2)),
          .inotify conn createdEvent])).conns.lookup conn = some c ∧
      ∃ x ∈ c.proto.hist.finals, x.1.sealedUnder.isSome ∧ (x.2.drop 4).take 4 = protoId ∧
        ¬ Delivered crypto x.1 x.2 := by
  obtain ⟨c, hc, x, hx, hsome, hproto⟩ : ∃ c ∈ ((World.start 1 {}).run (srv true false)
      (watching ++ [.frame conn (sealed 2 (logoffReq 0 0 5 2)),
        .inotify conn createdEvent])).conns.lookup conn,
      ∃ x ∈ c.proto.hist.finals, x.1.sealedUnder.isSome ∧ (x.2.drop 4).take 4 = protoId := by
    decide +kernel
  refine ⟨c, hc, x, hx, hsome, hproto, fun hd => ?_⟩
  obtain ⟨key, hkey⟩ := Option.isSome_iff_exists.1 hsome
  obtain ⟨plain, enc, -, hframe⟩ := hd.sealed key hkey
  rw [hframe, sealedFrame_proto] at hproto
  exact absurd hproto (by decide)

end RocketSmbd
