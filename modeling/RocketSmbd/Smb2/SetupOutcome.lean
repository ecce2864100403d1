import RocketSmbd.Smb2.Deed
import RocketSmbd.Smb2.SessionSetup

/-!
# What a SESSION_SETUP can do

Whatever the mechanism and the leg, a SESSION_SETUP works on the registry, and of its connection on
the channels, the acceptor and the history of logins; what else there is of the connection stays
(`Px.Quiet`).  Then it answers with an error or a setup response, or drops the connection.  A
response with SUCCESS is for a session that the client can use, or acknowledges a
re-authentication.

The statements about what requests leave alone, do to the shared state and answer use only
`sessionSetup_outcome`.
-/

namespace RocketSmbd

open ByteString Vfs

variable {σ : Type}

/-- The connection apart from its channels, its acceptor and its logins. -/
def ProtoConn.outside (pc : ProtoConn) : ProtoConn :=
  { pc with
    channels := ∅
    krbAcceptor := none
    hist := { seals := pc.hist.seals, finals := pc.hist.finals } }

/-- What was done is part of a setup, and left the buffer and the connection alone, its logins
apart. -/
structure Px.Quiet (srv : Srv σ) (px px' : Px σ) : Prop where
  outside : px'.pc.outside = px.pc.outside
  tx : px'.tx = px.tx
  transform : px'.chain.transformSid = px.chain.transformSid
  handle : px'.chain.lastFid = px.chain.lastFid
  deeds : Deeds srv setupDeed px.shared px'.shared

/-- The token that a step of the GSS library hands out. -/
def GssStep.token : GssStep → Bytes
  | .continue out => out
  | .done est => est.out
  | .failed _ => []

/-- The security buffers of setup responses. -/
inductive SetupBlob (srv : Srv σ) : Bytes → Prop
  | none : SetupBlob srv []
  | completed : SetupBlob srv Ntlm.spnegoAcceptCompleted
  | challenge (s : σ) :
    SetupBlob srv (Ntlm.challenge srv.cfg.serverName (srv.env.os.urandom 8 s).1)
  | wrapped (s : σ) : SetupBlob srv
    (Ntlm.spnegoWrapChallenge (Ntlm.challenge srv.cfg.serverName (srv.env.os.urandom 8 s).1))
  | kerberos (wrapped : Bool) (state : UInt8) (acc ctx : ℕ) (token : Bytes) (s : σ) :
    SetupBlob srv (krbToken wrapped state (srv.env.gss.step acc ctx token s).1.1.token)

/-- The connection holds an established channel of session `sid`, which is registered and
established. -/
def Px.Usable (px : Px σ) (sid : UInt64) : Prop :=
  (∃ ch, px.pc.channels.lookup sid = some ch ∧ ch.established = true) ∧
    ∃ s, px.shared.sessions.lookup sid = some s ∧ s.established = true

/-- The request is taken for a re-authentication: an NTLM AUTHENTICATE, on a channel that has no
challenge to answer. -/
def Acknowledges (srv : Srv σ) (h : ReqHdr) (msg : Bytes) (pc : ProtoConn) : Prop :=
  (∃ blob, Rdr.parse (setupBlob msg) (msg.drop 64) = some blob ∧ setupMech srv pc h blob ≠ .krb5) ∧
    (srv.cfg.auth.allowsNtlm ∧ srv.env.ntlm) ∧
    (∃ r, parseSetup msg = some r ∧ Ntlm.classify r.blob = .authenticate) ∧
    ∃ ch, pc.channels.lookup h.sessionId = some ch ∧ ch.pending = none

/-- What a SESSION_SETUP leaves. -/
inductive Px.SetupOutcome (srv : Srv σ) (h : ReqHdr) (msg : Bytes) (px : Px σ) : Px σ → Prop
  | refused {px₁ : Px σ} {st : UInt32} (hq : px.Quiet srv px₁) (hst : st ≠ Status.success) :
    SetupOutcome srv h msg px (px₁.err h st)
  | answered {px₁ : Px σ} {st : UInt32} {sid : UInt64} {flags : UInt16} {blob : Bytes}
    (hq : px.Quiet srv px₁) (hblob : SetupBlob srv blob)
    (husable : st = Status.success → px₁.Usable sid ∨ Acknowledges srv h msg px.pc) :
    SetupOutcome srv h msg px (px₁.ss h st sid flags blob)
  | dropped {px₁ : Px σ} (hq : px.Quiet srv px₁) : SetupOutcome srv h msg px px₁.disconnect

namespace Px

variable {srv : Srv σ} {px px₁ px' : Px σ}

theorem Quiet.refl (px : Px σ) : px.Quiet srv px := ⟨rfl, rfl, rfl, rfl, .refl _⟩

theorem Quiet.trans (h₁ : px.Quiet srv px₁) (h₂ : px₁.Quiet srv px') : px.Quiet srv px' :=
  ⟨h₂.outside.trans h₁.outside, h₂.tx.trans h₁.tx, h₂.transform.trans h₁.transform,
    h₂.handle.trans h₁.handle, h₁.deeds.trans h₂.deeds⟩

theorem SetupOutcome.deeds {h : ReqHdr} {msg : Bytes} (ho : px.SetupOutcome srv h msg px') :
    Deeds srv setupDeed px.shared px'.shared := by
  cases ho with
  | refused hq | answered hq | dropped hq => exact hq.deeds

end Px

/-! ### Fresh sessions -/

theorem Registry.draw_available (os : Os σ) (sessions : Registry) (fuel : ℕ) (s : σ) (id : UInt64)
    (h : (Registry.draw os sessions fuel s).1 = some id) : sessions.available id := by
  induction fuel generalizing s with
  | zero => simp [Registry.draw] at h
  | succ fuel ih =>
    unfold Registry.draw at h
    dsimp only at h
    split_ifs at h with hav
    · obtain rfl := Option.some.inj h
      exact hav
    · exact ih _ h

theorem Registry.draw_asides (env : Env σ) (sessions : Registry) (fuel : ℕ) (s : σ) :
    Asides env s (Registry.draw env.os sessions fuel s).2 := by
  induction fuel generalizing s with
  | zero => exact .refl
  | succ fuel ih =>
    have hdraw : Asides env s (env.os.urandom 8 s).2 := .single (.consults (.urandom 8 s))
    unfold Registry.draw
    dsimp only
    split_ifs
    · exact hdraw
    · exact hdraw.trans (ih _)

/-- The state after a fresh session was registered. -/
def Px.registered (px : Px σ) (sid : UInt64) : Px σ :=
  { px with shared := { px.shared with
      sessions := px.shared.sessions.insert sid {}
      created := px.shared.created ++ [sid] } }

section

variable (srv : Srv σ) (h : ReqHdr) (msg : Bytes) (px : Px σ)

theorem Px.create_cases :
    (∃ s, px.create srv.env.os = (none, px.withOs s) ∧ px.Quiet srv (px.withOs s)) ∨
      ∃ sid s, sid ∉ px.shared.sessions ∧
        px.create srv.env.os = (some sid, (px.registered sid).withOs s) ∧
        px.Quiet srv ((px.registered sid).withOs s) := by
  have hdraw := Registry.draw_asides srv.env px.shared.sessions maxDraws px.shared.host.os
  unfold Px.create Registry.create
  cases hd : Registry.draw srv.env.os px.shared.sessions maxDraws px.shared.host.os with
  | mk id s =>
    rw [hd] at hdraw
    have hasides : Deeds srv setupDeed px.shared (px.shared.withOs s) :=
      .ofAsides (fun _ => trivial) hdraw
    cases id with
    | none => exact Or.inl ⟨s, rfl, rfl, rfl, rfl, rfl, hasides⟩
    | some id =>
      have hav := Registry.draw_available srv.env.os px.shared.sessions maxDraws
        px.shared.host.os id (by rw [hd])
      exact Or.inr ⟨id, s, hav.2.2, rfl, rfl, rfl, rfl, rfl,
        hasides.trans (.single (.register id hav.2.2) trivial)⟩

/-! ### NTLM -/

theorem any_eq_true {A : Type} {o : Option A} {p : A → Bool} :
    o.any p = true ↔ ∃ a, o = some a ∧ p a = true := by
  cases o <;> simp

theorem ntlmSession_cases (binding : Bool) (px : Px σ) :
    (∃ st, st ≠ Status.success ∧ ntlmSession srv h binding px = (.error st, px)) ∨
      (∃ s, ntlmSession srv h binding px = (.ok none, px.withOs s) ∧
        px.Quiet srv (px.withOs s)) ∨
      (binding = true ∧ ¬ (px.pc.channels.lookup h.sessionId).any (·.established) ∧
        (∃ s, px.shared.sessions.lookup h.sessionId = some s ∧ s.established = true) ∧
        ntlmSession srv h binding px = (.ok (some h.sessionId), px)) ∨
      (binding = false ∧ pendingSetups px.pc < maxPendingSetups ∧ ∃ sid s,
        sid ∉ px.shared.sessions ∧
        ntlmSession srv h binding px = (.ok (some sid), (px.registered sid).withOs s) ∧
        px.Quiet srv ((px.registered sid).withOs s)) := by
  unfold ntlmSession
  dsimp only
  split_ifs with hbind hmulti hnone hest hfew
  · exact Or.inl ⟨_, by decide, rfl⟩
  · exact Or.inl ⟨_, by decide, rfl⟩
  · exact Or.inl ⟨_, by decide, rfl⟩
  · simp only [not_or, not_not] at hnone
    obtain ⟨s, hs, hsess⟩ := any_eq_true.1 hnone.2
    have hsess := (decide_eq_true_iff.1 hsess).1
    exact Or.inr (Or.inr (Or.inl ⟨hbind, hest, ⟨s, hs, hsess⟩, rfl⟩))
  · exact Or.inl ⟨_, by decide, rfl⟩
  · rcases px.create_cases srv with ⟨s, hc, hq⟩ | ⟨sid, s, hfresh, hc, hq⟩
    · rw [hc]
      exact Or.inr (Or.inl ⟨s, rfl, hq⟩)
    · rw [hc]
      exact Or.inr (Or.inr (Or.inr ⟨by simpa using hbind, not_le.1 hfew, sid, s, hfresh, rfl, hq⟩))

theorem more_ne_success : Status.moreProcessingRequired ≠ Status.success := by decide

theorem ntlmNegotiate_outcome (spnego binding : Bool) (px : Px σ) :
    px.SetupOutcome srv h msg (ntlmNegotiate srv h msg spnego binding px) := by
  have hask : ∀ px : Px σ, Deeds srv setupDeed px.shared
      (px.ask (srv.env.os.urandom 8)).2.shared :=
    fun px => .single (.aside (.consults (.urandom 8 _))) trivial
  have hblob : ∀ s, SetupBlob srv
      (if spnego then Ntlm.spnegoWrapChallenge
        (Ntlm.challenge srv.cfg.serverName (srv.env.os.urandom 8 s).1)
      else Ntlm.challenge srv.cfg.serverName (srv.env.os.urandom 8 s).1) := by
    intro s
    split_ifs
    · exact .wrapped s
    · exact .challenge s
  unfold ntlmNegotiate
  rcases ntlmSession_cases srv h binding px with ⟨st, hst, hc⟩ | ⟨s, hc, hq⟩ | ⟨-, -, -, hc⟩ |
    ⟨-, -, sid, s, -, hc, hq⟩
  · rw [hc]
    exact .refused (.refl px) hst
  · rw [hc]
    exact .dropped hq
  · rw [hc]
    exact .answered ⟨rfl, rfl, rfl, rfl, hask px⟩ (hblob _) fun hst => absurd hst more_ne_success
  · rw [hc]
    exact .answered (hq.trans ⟨rfl, rfl, rfl, rfl, hask _⟩) (hblob _)
      fun hst => absurd hst more_ne_success

section

variable {h msg} {px₀ px : Px σ} (hq : px₀.Quiet srv px)

include hq

section

variable {sid : UInt64} {s : SessionInner} (hs : px.shared.sessions.lookup sid = some s)
  (ch : ChannelState) (auth : Option Ntlm.Authenticate) (challenge : Bytes) {done : Bytes}
  (required : Bool) (hdone : SetupBlob srv done)
include hs hdone

theorem ntlmBind_outcome :
    px₀.SetupOutcome srv h msg (ntlmBind srv h sid s ch auth challenge done required px) := by
  unfold ntlmBind
  split
  · exact .refused (hq.trans ⟨rfl, rfl, rfl, rfl, .refl _⟩) (by decide)
  · next hproof =>
    have hest : s.established = true := by
      by_contra hs
      refine hproof (Or.inl ?_)
      unfold bindProof
      rw [if_pos (Or.inl hs)]
      exact Bool.false_ne_true
    exact .answered (hq.trans ⟨rfl, rfl, rfl, rfl, .single (.revise hs rfl rfl rfl) trivial⟩) hdone
      fun _ => Or.inl ⟨⟨_, AList.lookup_insert _, rfl⟩, _, AList.lookup_insert _, hest⟩

theorem ntlmFirst_outcome :
    px₀.SetupOutcome srv h msg (ntlmFirst srv h sid s ch auth challenge done required px) := by
  have habandon : px₀.Quiet srv (px.abandon sid) :=
    hq.trans ⟨rfl, rfl, rfl, rfl, .single (.drop sid) trivial⟩
  unfold ntlmFirst
  cases verdict srv auth challenge with
  | user key user | guest =>
    dsimp only
    split
    · exact .refused habandon (by decide)
    · exact .answered (hq.trans ⟨rfl, rfl, rfl, rfl, .single (.revise hs rfl rfl rfl) trivial⟩)
        hdone fun _ => Or.inl ⟨⟨_, AList.lookup_insert _, rfl⟩, _, AList.lookup_insert _, rfl⟩
  | reject => exact .refused habandon (by decide)

end

end

/-- The challenge `p` of channel `ch` is taken. -/
def Px.spend (px : Px σ) (sid : UInt64) (ch : ChannelState) (p : PendingAuth) (preauth : Bytes) :
    Px σ :=
  let px := px.setChannels (px.pc.channels.insert sid { ch with pending := none, preauth })
  { px with pc := px.pc.logChallenge (.taken sid p.challenge) }

theorem ntlmAuthenticate_outcome (r : SetupReq) (px : Px σ)
    (hack : ∀ ch, px.pc.channels.lookup h.sessionId = some ch → ch.pending = none →
      Acknowledges srv h msg px.pc) :
    px.SetupOutcome srv h msg (ntlmAuthenticate srv h msg r px) := by
  have hdone : ∀ c : Prop, [Decidable c] →
      SetupBlob srv (if c then Ntlm.spnegoAcceptCompleted else []) := by
    intro c _
    split_ifs
    · exact .completed
    · exact .none
  unfold ntlmAuthenticate
  dsimp only
  split
  · exact .refused ⟨rfl, rfl, rfl, rfl, .refl _⟩ (by decide)
  · next ch hch =>
    split
    · next hp =>
      exact .answered ⟨rfl, rfl, rfl, rfl, .refl _⟩ .none fun _ => Or.inr (hack ch hch hp)
    · next p hp =>
      have hspend : ∀ preauth,
          px.Quiet srv ((px.onSession h.sessionId).spend h.sessionId ch p preauth) :=
        fun preauth => ⟨rfl, rfl, rfl, rfl, .refl _⟩
      split
      · exact .refused (hspend _) (by decide)
      · next s hs =>
        split
        · exact ntlmBind_outcome srv (hspend _) hs _ _ _ _ (hdone _)
        · exact ntlmFirst_outcome srv (hspend _) hs _ _ _ _ (hdone _)

theorem ntlmOther_outcome : px.SetupOutcome srv h msg (ntlmOther srv h px) := by
  unfold ntlmOther
  split
  · exact .refused (.refl px) (by decide)
  · split
    · rcases px.create_cases srv with ⟨s, hc, hq⟩ | ⟨sid, s, -, hc, hq⟩
      · rw [hc]
        exact .dropped hq
      · rw [hc]
        refine .answered (hq.trans ⟨rfl, rfl, rfl, rfl, ?_⟩) .none
          fun _ => Or.inl ⟨⟨_, AList.lookup_insert _, rfl⟩, _, AList.lookup_insert _, rfl⟩
        exact .single (.revise (s := {}) (AList.lookup_insert _) rfl rfl rfl) trivial
    · exact .refused (.refl px) (by decide)

theorem ntlmSessionSetup_outcome
    (hack : (∃ r, parseSetup msg = some r ∧ Ntlm.classify r.blob = .authenticate) →
      ∀ ch, px.pc.channels.lookup h.sessionId = some ch → ch.pending = none →
        Acknowledges srv h msg px.pc) :
    px.SetupOutcome srv h msg (ntlmSessionSetup srv h msg px) := by
  unfold ntlmSessionSetup
  cases hr : parseSetup msg with
  | none => exact .refused (.refl px) (by decide)
  | some r =>
    dsimp only
    cases hclass : Ntlm.classify r.blob with
    | negotiate => exact ntlmNegotiate_outcome srv h msg _ _ px
    | authenticate => exact ntlmAuthenticate_outcome srv h msg r px (hack ⟨r, hr, hclass⟩)
    | other => exact ntlmOther_outcome srv h msg px

/-! ### Kerberos -/

/-- A connection whose Kerberos exchange took a token: the channel of a later leg has lost its
context for the time of the leg. -/
def Px.legTaken (px : Px σ) : Option UInt64 → Px σ
  | some sid => px.setChannels (px.pc.channels.modify sid fun c => { c with krbPending := none })
  | none => px

theorem krbLeg_cases (acc : ℕ) (token : Bytes) (px : Px σ) :
    ∃ leg s, krbLeg srv h msg acc token px = (leg, (px.legTaken leg.existing).withOs s) ∧
      (leg.existing = none ∨ (leg.existing = some h.sessionId ∧
        ∃ ch, px.pc.channels.lookup h.sessionId = some ch ∧ ch.krbPending.isSome)) ∧
      px.Quiet srv ((px.legTaken leg.existing).withOs s) ∧
      ∀ wrapped state, SetupBlob srv (krbToken wrapped state leg.step.token) := by
  have hask : ∀ (px : Px σ) ctx, Deeds srv setupDeed px.shared
      (px.ask (srv.env.gss.step acc ctx token)).2.shared :=
    fun px ctx => .single (.aside (.step acc ctx token _)) trivial
  unfold krbLeg
  dsimp only
  cases hc : (px.pc.channels.lookup h.sessionId).bind ChannelState.krbPending with
  | none =>
    exact ⟨_, _, rfl, Or.inl rfl, ⟨rfl, rfl, rfl, rfl, hask px _⟩,
      fun wrapped state => .kerberos wrapped state acc _ _ _⟩
  | some ctx =>
    obtain ⟨ch, hch, hkrb⟩ := Option.bind_eq_some_iff.1 hc
    exact ⟨_, _, rfl, Or.inr ⟨rfl, ch, hch, by rw [hkrb]; rfl⟩, ⟨rfl, rfl, rfl, rfl, hask _ _⟩,
      fun wrapped state => .kerberos wrapped state acc _ _ _⟩

section

variable {h msg} {px₀ px : Px σ} (hq : px₀.Quiet srv px)

include hq

theorem krbAbandon_quiet (existing : Option UInt64) : px₀.Quiet srv (krbAbandon existing px) := by
  cases existing with
  | none => exact hq
  | some sid => exact hq.trans ⟨rfl, rfl, rfl, rfl, .single (.drop sid) trivial⟩

theorem krbContinue_outcome (wrapped : Bool) (leg : KrbLeg) {out : Bytes}
    (hout : SetupBlob srv (krbToken wrapped Spnego.acceptIncomplete out)) :
    px₀.SetupOutcome srv h msg (krbContinue srv h wrapped leg out px) := by
  unfold krbContinue
  split
  · exact .refused hq (by decide)
  · cases leg.existing with
    | some sid =>
      exact .answered (hq.trans ⟨rfl, rfl, rfl, rfl, .refl _⟩) hout
        fun hst => absurd hst more_ne_success
    | none =>
      rcases px.create_cases srv with ⟨s, hc, hq'⟩ | ⟨sid, s, -, hc, hq'⟩
      · dsimp only
        rw [hc]
        exact .dropped (hq.trans hq')
      · dsimp only
        rw [hc]
        exact .answered ((hq.trans hq').trans ⟨rfl, rfl, rfl, rfl, .refl _⟩) hout
          fun hst => absurd hst more_ne_success

theorem krbEstablish_outcome (wrapped required : Bool) (preauth : Bytes) {est : Established}
    {sid : UInt64} {s : SessionInner} (hs : px.shared.sessions.lookup sid = some s)
    (hout : SetupBlob srv (krbToken wrapped Spnego.acceptCompleted est.out)) :
    px₀.SetupOutcome srv h msg (krbEstablish srv h wrapped required preauth est sid px) := by
  refine .answered (hq.trans ⟨rfl, rfl, rfl, rfl, .single (.revise hs ?_ ?_ ?_) trivial⟩) hout
    fun _ => Or.inl ⟨⟨_, AList.lookup_insert _, rfl⟩, _, AList.lookup_insert _, rfl⟩
  all_goals
    dsimp only [Px.onSession]
    rw [hs]
    rfl

theorem krbDone_outcome (wrapped required : Bool) (leg : KrbLeg) {est : Established}
    (hout : SetupBlob srv (krbToken wrapped Spnego.acceptCompleted est.out)) :
    px₀.SetupOutcome srv h msg (krbDone srv h wrapped required leg est px) := by
  unfold krbDone krbTarget
  split
  · exact .refused (krbAbandon_quiet srv hq leg.existing) (by decide)
  · cases hreg : leg.existing.filter (· ∈ px.shared.sessions) with
    | some sid =>
      have hmem := of_decide_eq_true (Option.filter_eq_some_iff.1 hreg).2
      obtain ⟨s, hs⟩ := Option.isSome_iff_exists.1 (AList.lookup_isSome.2 hmem)
      exact krbEstablish_outcome srv hq _ _ _ hs hout
    | none =>
      dsimp only
      rcases px.create_cases srv with ⟨s, hc, hq'⟩ | ⟨sid, s, -, hc, hq'⟩
      · rw [hc]
        exact .dropped (hq.trans hq')
      · rw [hc]
        exact krbEstablish_outcome srv (hq.trans hq') _ _ _ (AList.lookup_insert _) hout

end

theorem krbAcquire_cases :
    px.Quiet srv (krbAcquire srv px).2 ∧
      ∀ st, (krbAcquire srv px).1 = .error st → st ≠ Status.success := by
  have hask : Deeds srv setupDeed px.shared
      (px.ask (srv.env.gss.acceptor srv.cfg.krbAcceptorName)).2.shared :=
    .single (.aside (.acceptor _ _)) trivial
  unfold krbAcquire
  split
  · exact ⟨.refl px, fun st hst => nomatch hst⟩
  · split
    · refine ⟨.refl px, fun st hst => ?_⟩
      cases hst
      decide
    · dsimp only
      split
      · exact ⟨⟨rfl, rfl, rfl, rfl, hask⟩, fun st hst => nomatch hst⟩
      · refine ⟨⟨rfl, rfl, rfl, rfl, hask⟩, fun st hst => ?_⟩
        cases hst
        decide

theorem statusForFailure_ne (reason : Str) : statusForFailure reason ≠ Status.success := by
  unfold statusForFailure
  dsimp only
  split <;> decide

theorem kerberosSessionSetup_outcome :
    px.SetupOutcome srv h msg (kerberosSessionSetup srv h msg px) := by
  unfold kerberosSessionSetup
  cases parseSetup msg with
  | none => exact .refused (.refl px) (by decide)
  | some r =>
    dsimp only
    obtain ⟨hacquire, hstatus⟩ := krbAcquire_cases srv px
    cases ha : krbAcquire srv px with
    | mk acc px₁ =>
      rw [ha] at hacquire hstatus
      cases acc with
      | error st => exact .refused hacquire (hstatus st rfl)
      | ok acc =>
        obtain ⟨leg, s, hleg, -, hquiet, htoken⟩ :=
          krbLeg_cases srv h msg acc (Spnego.classify r.blob).token px₁
        dsimp only
        rw [hleg]
        have hq := hacquire.trans hquiet
        cases hstep : leg.step with
        | done est =>
          rw [hstep] at htoken
          exact krbDone_outcome srv hq _ _ leg (htoken _ _)
        | «continue» out =>
          rw [hstep] at htoken
          exact krbContinue_outcome srv hq _ leg (htoken _ _)
        | failed e => exact .refused (krbAbandon_quiet srv hq leg.existing) (statusForFailure_ne e)

/-! ### The whole request -/

/-- **What a SESSION_SETUP leaves.** -/
theorem sessionSetup_outcome :
    px.SetupOutcome srv h msg (sessionSetup srv h msg px) := by
  unfold sessionSetup
  cases hblob : Rdr.parse (setupBlob msg) (msg.drop 64) with
  | none => exact .refused (.refl px) (by decide)
  | some blob =>
    -- the route of a blob that is not Kerberos
    have hntlm : setupMech srv px.pc h blob ≠ .krb5 → px.SetupOutcome srv h msg
        (if srv.cfg.auth.allowsNtlm ∧ srv.env.ntlm then ntlmSessionSetup srv h msg px
          else px.err h Status.notSupported) := by
      intro hmech
      split
      · next hon =>
        exact ntlmSessionSetup_outcome srv h msg px fun hauth ch hch hp =>
          ⟨⟨blob, hblob, hmech⟩, hon, hauth, ch, hch, hp⟩
      · exact .refused (.refl px) (by decide)
    dsimp only
    cases hmech : setupMech srv px.pc h blob with
    | krb5 =>
      dsimp only
      split
      · exact kerberosSessionSetup_outcome srv h msg px
      · exact .refused (.refl px) (by decide)
    | ntlmssp | unknown => exact hntlm (by simp [hmech])

end

end RocketSmbd
