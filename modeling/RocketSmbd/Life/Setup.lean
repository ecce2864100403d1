import RocketSmbd.Life.Move
import RocketSmbd.Smb2.SetupOutcome

/-!
# SESSION_SETUP makes one move

Every path through the NTLM and Kerberos handshakes leaves the core of the connection as it was,
or makes one of the setup moves.
-/

namespace RocketSmbd

open ByteString Vfs

variable {σ : Type}

/-- The core of a connection in the middle of a request. -/
def Px.core (px : Px σ) (watched : List NotifyPend) (key : Option (UInt64 × EncCtx)) : Core :=
  Core.of px.shared px.pc watched key

/-- The session of a setup is that of the request, or a fresh one. -/
def setupLabel (h : ReqHdr) (k : Core) : Label → Prop
  | .setup sid => sid = h.sessionId ∨ sid ∉ k.sessions
  | .preauth => True
  | _ => False

/-- The core is unchanged, or changed by one move with such a label. -/
def MovesOnce (srv : Srv σ) (label : Core → Label → Prop) (k k' : Core) : Prop :=
  k' = k ∨ ∃ l, label k l ∧ Move srv l k k'

theorem MovesOnce.moves {srv : Srv σ} {label : Core → Label → Prop} {ok : Label → Core → Prop}
    {k k' : Core} (h : MovesOnce srv label k k') (hok : ∀ l, label k l → ok l k) :
    Moves srv ok k k' := by
  rcases h with rfl | ⟨l, hl, hm⟩
  · exact .refl _
  · exact .single (hok l hl) hm

section

variable (srv : Srv σ) (h : ReqHdr) (msg : Bytes) (watched : List NotifyPend)
  (key : Option (UInt64 × EncCtx))

/-! ### NTLM -/

theorem ntlmNegotiate_move (spnego binding : Bool) (px : Px σ) :
    MovesOnce srv (setupLabel h) (px.core watched key)
      ((ntlmNegotiate srv h msg spnego binding px).core watched key) := by
  unfold ntlmNegotiate
  rcases ntlmSession_cases srv h binding px with ⟨st, -, hc⟩ | ⟨s, hc, -⟩ |
    ⟨hbind, hest, ⟨s, hs, hsess⟩, hc⟩ | ⟨hbind, hfew, sid, s, hfresh, hc, -⟩
  · rw [hc]
    exact Or.inl rfl
  · rw [hc]
    exact Or.inl rfl
  · rw [hc]
    exact Or.inr ⟨.setup h.sessionId, Or.inl rfl, .beginBind h.sessionId s _ _ hs hsess hest hbind⟩
  · rw [hc]
    exact Or.inr ⟨.setup sid, Or.inr hfresh,
      .begin sid _ _ hfresh hfew (Or.inl ⟨_, _, hbind, rfl, rfl⟩)⟩

section

variable (sid : UInt64) (s : SessionInner) (ch : ChannelState) (p : PendingAuth) (preauth : Bytes)
  (auth : Option Ntlm.Authenticate) (done : Bytes) (required : Bool) (px : Px σ)
  (hsid : sid = h.sessionId) (hch : px.pc.channels.lookup sid = some ch) (hp : ch.pending = some p)
include hsid hch hp

/-- The end of a binding. -/
theorem ntlmBind_move (hb : p.binding = true)
    (hs : px.shared.sessions.lookup sid = some s) :
    MovesOnce srv (setupLabel h) (px.core watched key)
      ((ntlmBind srv h sid s { ch with pending := none, preauth } auth p.challenge done required
        (px.spend sid ch p preauth)).core watched key) := by
  refine Or.inr ⟨.setup sid, Or.inl hsid, ?_⟩
  unfold ntlmBind
  split_ifs with hno
  · dsimp only [Px.core, Core.of, Px.spend, Px.setChannels, Px.err, ProtoConn.logChallenge]
    rw [FinMap.insert_erase]
    exact .unbind sid ch p hch hp hb
  · simp only [not_or, not_not] at hno
    have hest : s.established = true := by
      have hproof := hno.1
      unfold bindProof at hproof
      split_ifs at hproof with hcond
      simpa using (not_or.1 hcond).1
    dsimp only [Px.core, Core.of, Px.spend, Px.setChannels, Px.setSessions, Px.ss,
      ProtoConn.logSetup, ProtoConn.logChallenge]
    rw [FinMap.insert_insert]
    exact .bind sid ch _ p s preauth _ hch hp hb hs hest (.user required s.sessionKey hno.2)

/-- The end of a first authentication. -/
theorem ntlmFirst_move (hb : p.binding = false)
    (hs : px.shared.sessions.lookup sid = some s) :
    MovesOnce srv (setupLabel h) (px.core watched key)
      ((ntlmFirst srv h sid s { ch with pending := none, preauth } auth p.challenge done required
        (px.spend sid ch p preauth)).core watched key) := by
  refine Or.inr ⟨.setup sid, Or.inl hsid, ?_⟩
  have hset : ch.settingUp := Or.inl ⟨p, hp, hb⟩
  have hpend : ch.pending.isSome := by rw [hp]; rfl
  have hend : (px.core watched key).Ending sid ch ((px.core watched key).take sid p) :=
    Or.inl ⟨p, hp, rfl⟩
  have habandon : ∀ st, Move srv (.setup sid) (px.core watched key)
      ((((px.spend sid ch p preauth).abandon sid).err h st).core watched key) := by
    intro st
    dsimp only [Px.core, Core.of, Px.spend, Px.setChannels, Px.setSessions, Px.abandon, Px.err,
      ProtoConn.logChallenge]
    rw [FinMap.insert_erase]
    exact .abandon sid ch _ hch hset hend
  unfold ntlmFirst
  cases verdict srv auth p.challenge with
  | reject => exact habandon _
  | user k user =>
    dsimp only
    split_ifs with hno
    · exact habandon _
    · dsimp only [Px.core, Core.of, Px.spend, Px.setChannels, Px.setSessions, Px.ss,
        ProtoConn.logSetup, ProtoConn.logChallenge]
      rw [FinMap.insert_insert]
      exact .establish sid ch _ _ s _ preauth _ _ hch hset hs rfl rfl rfl (Or.inl ⟨hpend, rfl⟩) hend
        (.user required k hno)
  | guest =>
    dsimp only
    split_ifs with henc
    · exact habandon _
    · dsimp only [Px.core, Core.of, Px.spend, Px.setChannels, Px.setSessions, Px.ss,
        ProtoConn.logChallenge]
      rw [FinMap.insert_insert]
      exact .establish sid ch _ _ s _ preauth _ _ hch hset hs rfl rfl rfl (Or.inl ⟨hpend, rfl⟩) hend
        (.guest (by simpa using henc))

end

theorem ntlmAuthenticate_move (r : SetupReq) (px : Px σ) :
    MovesOnce srv (setupLabel h) (px.core watched key)
      ((ntlmAuthenticate srv h msg r px).core watched key) := by
  unfold ntlmAuthenticate
  dsimp only
  cases hch : px.pc.channels.lookup h.sessionId with
  | none =>
    simp only [Px.onSession, hch]
    exact Or.inl rfl
  | some ch =>
    simp only [Px.onSession, hch]
    cases hp : ch.pending with
    | none =>
      have hmove := fun preauth =>
        @Move.extend σ srv (px.core watched key) h.sessionId ch preauth hch
      rw [hp] at hmove
      exact Or.inr ⟨.preauth, trivial, hmove _⟩
    | some p =>
      simp only [Px.setChannels]
      cases hs : px.shared.sessions.lookup h.sessionId with
      | none =>
        refine Or.inr ⟨.setup h.sessionId, Or.inl rfl, ?_⟩
        exact .spent h.sessionId ch p _ hch hp (FinMap.notMem_iff.2 hs)
      | some s =>
        dsimp only
        by_cases hb : p.binding = true
        · rw [if_pos hb]
          exact ntlmBind_move srv h watched key h.sessionId s ch p _ _ _ _
            (px.onSession h.sessionId) rfl hch hp hb hs
        · rw [if_neg hb]
          exact ntlmFirst_move srv h watched key h.sessionId s ch p _ _ _ _
            (px.onSession h.sessionId) rfl hch hp (by simpa using hb) hs

variable (px : Px σ)

theorem ntlmOther_move :
    MovesOnce srv (setupLabel h) (px.core watched key) ((ntlmOther srv h px).core watched key) := by
  unfold ntlmOther
  split_ifs with hboth hguest
  · exact Or.inl rfl
  · rcases px.create_cases srv with ⟨s, hc, -⟩ | ⟨sid, s, hfresh, hc, -⟩
    · rw [hc]
      exact Or.inl rfl
    · rw [hc]
      refine Or.inr ⟨.setup sid, Or.inr hfresh, ?_⟩
      have henc : srv.cfg.encrypt = false := by simpa [hguest] using hboth
      dsimp only [Px.core, Core.of, Px.setChannels, Px.setSessions, Px.ss, Px.registered,
        Px.withOs, Px.onSession]
      rw [FinMap.insert_insert]
      exact .establishNew sid _ _ _ _ _ hfresh (Or.inl rfl) rfl rfl rfl (.guest henc)
  · exact Or.inl rfl

theorem ntlmSessionSetup_move :
    MovesOnce srv (setupLabel h) (px.core watched key)
      ((ntlmSessionSetup srv h msg px).core watched key) := by
  unfold ntlmSessionSetup
  cases parseSetup msg with
  | none => exact Or.inl rfl
  | some r =>
    dsimp only
    cases Ntlm.classify r.blob with
    | negotiate => exact ntlmNegotiate_move srv h msg watched key _ _ px
    | authenticate => exact ntlmAuthenticate_move srv h msg watched key r px
    | other => exact ntlmOther_move srv h watched key px

/-! ### Kerberos -/

theorem krbAbandon_move (leg : KrbLeg) (st : UInt32) (px : Px σ) (s : σ)
    (hleg : leg.existing = none ∨ (leg.existing = some h.sessionId ∧
      ∃ ch, px.pc.channels.lookup h.sessionId = some ch ∧ ch.krbPending.isSome)) :
    MovesOnce srv (setupLabel h) (px.core watched key)
      (((krbAbandon leg.existing ((px.legTaken leg.existing).withOs s)).err h st).core
        watched key) := by
  rcases hleg with hnone | ⟨hsome, ch, hch, hkrb⟩
  · rw [hnone]
    exact Or.inl rfl
  · rw [hsome]
    refine Or.inr ⟨.setup h.sessionId, Or.inl rfl, ?_⟩
    dsimp only [krbAbandon, Px.legTaken, Px.core, Core.of, Px.setChannels, Px.setSessions,
      Px.abandon, Px.err, Px.withOs]
    rw [FinMap.modify_eq_insert hch, FinMap.insert_erase]
    exact .abandon h.sessionId ch _ hch (Or.inr hkrb) (Or.inr ⟨hkrb, rfl⟩)

theorem krbContinue_move (wrapped : Bool) (leg : KrbLeg) (out : Bytes) (px : Px σ) (s : σ)
    (hleg : leg.existing = none ∨ (leg.existing = some h.sessionId ∧
      ∃ ch, px.pc.channels.lookup h.sessionId = some ch ∧ ch.krbPending.isSome)) :
    MovesOnce srv (setupLabel h) (px.core watched key)
      ((krbContinue srv h wrapped leg out ((px.legTaken leg.existing).withOs s)).core
        watched key) := by
  unfold krbContinue
  split
  · next hmany =>
    rw [hmany.1]
    exact Or.inl rfl
  · next hfew =>
    rcases hleg with hnone | ⟨hsome, ch, hch, hkrb⟩
    · rw [hnone] at hfew ⊢
      rcases (px.withOs s).create_cases srv with ⟨s', hc, -⟩ | ⟨sid, s', hfresh, hc, -⟩
      · dsimp only [Px.legTaken]
        rw [hc]
        exact Or.inl rfl
      · dsimp only [Px.legTaken]
        rw [hc]
        refine Or.inr ⟨.setup sid, Or.inr hfresh, ?_⟩
        exact .begin sid _ _ hfresh (not_le.1 fun hle => hfew ⟨rfl, hle⟩)
          (Or.inr ⟨leg.ctx, leg.preauth, rfl, rfl⟩)
    · rw [hsome]
      refine Or.inr ⟨.setup h.sessionId, Or.inl rfl, ?_⟩
      dsimp only [Px.legTaken, Px.core, Core.of, Px.setChannels, Px.ss, Px.withOs, Px.onSession]
      rw [FinMap.modify_eq_insert hch, FinMap.insert_insert, AList.lookup_insert]
      exact .further h.sessionId ch leg.ctx leg.preauth hch hkrb

theorem krbTarget_registered (os : Os σ) {sid : UInt64} {px : Px σ}
    (hreg : sid ∈ px.shared.sessions) : krbTarget os (some sid) px = (some sid, px) := by
  unfold krbTarget
  rw [Option.filter_some, if_pos (decide_eq_true hreg)]

theorem krbTarget_gone (os : Os σ) {sid : UInt64} {px : Px σ} (hreg : sid ∉ px.shared.sessions) :
    krbTarget os (some sid) px = px.create os := by
  unfold krbTarget
  rw [Option.filter_some, if_neg (by simpa using hreg)]

theorem krbDone_move (wrapped required : Bool) (leg : KrbLeg) (est : Established) (px : Px σ)
    (s : σ) (hleg : leg.existing = none ∨ (leg.existing = some h.sessionId ∧
      ∃ ch, px.pc.channels.lookup h.sessionId = some ch ∧ ch.krbPending.isSome)) :
    MovesOnce srv (setupLabel h) (px.core watched key)
      ((krbDone srv h wrapped required leg est ((px.legTaken leg.existing).withOs s)).core
        watched key) := by
  unfold krbDone
  split
  · exact krbAbandon_move srv h watched key leg _ px s hleg
  · next hno =>
    rcases hleg with hnone | ⟨hsome, ch, hch, hkrb⟩
    · rw [hnone] at hno ⊢
      rcases (px.withOs s).create_cases srv with ⟨s', hc, -⟩ | ⟨sid, s', hfresh, hc, -⟩
      · dsimp only [krbTarget, Option.filter, Px.legTaken]
        rw [hc]
        exact Or.inl rfl
      · dsimp only [krbTarget, Option.filter, Px.legTaken]
        rw [hc]
        refine Or.inr ⟨.setup sid, Or.inr hfresh, ?_⟩
        dsimp only [krbEstablish, Px.core, Core.of, Px.setChannels, Px.setSessions, Px.ss,
          Px.registered, Px.withOs, Px.onSession, ProtoConn.logSetup]
        rw [FinMap.insert_insert, AList.lookup_insert]
        exact .establishNew sid _ _ leg.preauth _ _ hfresh (Or.inl rfl) rfl rfl rfl
          (.user required _ hno)
    · rw [hsome] at hno ⊢
      by_cases hreg : h.sessionId ∈ px.shared.sessions
      · -- the session of the first leg is established
        obtain ⟨s₀, hs₀⟩ := Option.isSome_iff_exists.1 (AList.lookup_isSome.2 hreg)
        rw [krbTarget_registered srv.env.os
          (show h.sessionId ∈ ((px.legTaken (some h.sessionId)).withOs s).shared.sessions
            from hreg)]
        refine Or.inr ⟨.setup h.sessionId, Or.inl rfl, ?_⟩
        dsimp only [krbEstablish, Px.core, Core.of, Px.legTaken, Px.setChannels, Px.setSessions,
          Px.ss, Px.withOs, Px.onSession, ProtoConn.logSetup]
        rw [FinMap.modify_eq_insert hch, FinMap.insert_insert, hs₀]
        exact .establish h.sessionId ch _ _ s₀ _ leg.preauth _ _ hch (Or.inr hkrb) hs₀ rfl rfl rfl
          (Or.inr rfl) (Or.inr ⟨hkrb, rfl⟩) (.user required _ hno)
      · -- it is gone: a fresh one takes its place
        have hlost : (px.core watched key).Lost
            (px.pc.channels.insert h.sessionId { ch with krbPending := none }) :=
          ⟨h.sessionId, ch, hch, hkrb, hreg, rfl⟩
        rw [krbTarget_gone srv.env.os
          (show h.sessionId ∉ ((px.legTaken (some h.sessionId)).withOs s).shared.sessions
            from hreg)]
        rcases ((px.legTaken (some h.sessionId)).withOs s).create_cases srv with
          ⟨s', hc, -⟩ | ⟨sid, s', hfresh, hc, -⟩
        · rw [hc]
          refine Or.inr ⟨.setup h.sessionId, Or.inl rfl, ?_⟩
          dsimp only [Px.core, Core.of, Px.legTaken, Px.setChannels, Px.withOs, Px.disconnect]
          rw [FinMap.modify_eq_insert hch]
          exact .lost h.sessionId _ hlost
        · rw [hc]
          refine Or.inr ⟨.setup sid, Or.inr hfresh, ?_⟩
          dsimp only [krbEstablish, Px.core, Core.of, Px.legTaken, Px.setChannels,
            Px.setSessions, Px.ss, Px.registered, Px.withOs, Px.onSession, ProtoConn.logSetup]
          rw [FinMap.modify_eq_insert hch, FinMap.insert_insert, AList.lookup_insert]
          exact .establishNew sid _ _ leg.preauth _ _ hfresh (Or.inr hlost) rfl rfl rfl
            (.user required _ hno)

/-- Acquiring the acceptor credential does not touch the core. -/
theorem krbAcquire_core :
    (krbAcquire srv px).2.core watched key = px.core watched key := by
  unfold krbAcquire
  split
  · rfl
  · split_ifs
    · rfl
    · dsimp only
      split <;> rfl

theorem kerberosSessionSetup_move :
    MovesOnce srv (setupLabel h) (px.core watched key)
      ((kerberosSessionSetup srv h msg px).core watched key) := by
  unfold kerberosSessionSetup
  cases parseSetup msg with
  | none => exact Or.inl rfl
  | some r =>
    dsimp only
    rw [← krbAcquire_core srv watched key px]
    cases hacq : krbAcquire srv px with
    | mk res px₁ =>
      cases res with
      | error st => exact Or.inl rfl
      | ok acc =>
        obtain ⟨leg, s, hleg, hexist, -⟩ :=
          krbLeg_cases srv h msg acc (Spnego.classify r.blob).token px₁
        dsimp only
        rw [hleg]
        cases leg.step with
        | done est => exact krbDone_move srv h watched key _ _ leg est px₁ s hexist
        | «continue» out => exact krbContinue_move srv h watched key _ leg out px₁ s hexist
        | failed e => exact krbAbandon_move srv h watched key leg _ px₁ s hexist

/-- **A SESSION_SETUP makes at most one move.** -/
theorem sessionSetup_move :
    MovesOnce srv (setupLabel h) (px.core watched key)
      ((sessionSetup srv h msg px).core watched key) := by
  unfold sessionSetup
  cases Rdr.parse (setupBlob msg) (msg.drop 64) with
  | none => exact Or.inl rfl
  | some blob =>
    dsimp only
    cases setupMech srv px.pc h blob with
    | krb5 =>
      dsimp only
      split_ifs
      · exact kerberosSessionSetup_move srv h msg watched key px
      · exact Or.inl rfl
    | ntlmssp | unknown =>
      dsimp only
      split_ifs
      · exact ntlmSessionSetup_move srv h msg watched key px
      · exact Or.inl rfl

end

end RocketSmbd
