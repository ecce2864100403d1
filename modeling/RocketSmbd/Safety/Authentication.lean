import RocketSmbd.Life.Channel
import RocketSmbd.Sample

/-!
# NTLM authentication

A challenge lives in the channel entry of one connection, from the NEGOTIATE leg that issues it to
the AUTHENTICATE leg that takes it.  The moves of a connection are steps of one-time tokens
(`Move.tokens`), so that whatever challenge an AUTHENTICATE message is checked against is the one
the connection issued latest for that session, and no message was checked against it before.

`ntlmSetup_established` says what a setup through NTLM has to come with for a channel to be
established; with the tokens this is `ntlm_authentication_sound`.
-/

namespace RocketSmbd

open ByteString Vfs OneTime

variable {σ : Type}

/-! ### Challenges are one-time tokens -/

/-- The challenge that a channel waits with. -/
def ChannelState.challenge (ch : ChannelState) : Option Bytes :=
  ch.pending.map PendingAuth.challenge

/-- The challenges of a connection, by session. -/
def Core.tokens (k : Core) : OneTime.State UInt64 Bytes where
  waiting sid := (k.channels.lookup sid).bind ChannelState.challenge
  uses := k.hist.challenges

section

variable {srv : Srv σ} {l : Label} {k k' : Core} {sid : UInt64} {ch : ChannelState}

theorem Core.waiting_of_lookup (h : k.channels.lookup sid = some ch) :
    k.tokens.waiting sid = ch.challenge := by
  simp [Core.tokens, h]

theorem Core.waiting_insert {o : Option Bytes} (h : k'.channels = k.channels.insert sid ch)
    (ho : ch.challenge = o) : k'.tokens.waiting = Function.update k.tokens.waiting sid o := by
  subst ho
  funext sid'
  simp only [Core.tokens, h, FinMap.lookup_insert, Function.update_apply]
  split_ifs with heq
  · rfl
  · rfl

theorem Core.waiting_erase (h : k'.channels = k.channels.erase sid) :
    k'.tokens.waiting = Function.update k.tokens.waiting sid none := by
  funext sid'
  simp only [Core.tokens, h, FinMap.lookup_erase, Function.update_apply]
  split_ifs with heq
  · rfl
  · rfl

/-- A challenge is issued. -/
theorem Core.tokens_issue {c : Bytes} (h : k'.tokens.waiting =
      Function.update k.tokens.waiting sid (some c))
    (hhist : k'.hist.challenges = k.hist.challenges ++ [.issued sid c]) :
    Step k.tokens k'.tokens := by
  have heq : k'.tokens =
      ⟨Function.update k.tokens.waiting sid (some c), k.tokens.uses ++ [.issued sid c]⟩ := by
    rw [← h, Core.tokens, hhist]
    rfl
  rw [heq]
  exact .issue sid c

/-- A challenge is taken. -/
theorem Core.tokens_take {p : PendingAuth} (hch : k.channels.lookup sid = some ch)
    (hp : ch.pending = some p)
    (h : k'.tokens.waiting = Function.update k.tokens.waiting sid none)
    (hhist : k'.hist.challenges = k.hist.challenges ++ [.taken sid p.challenge]) :
    Step k.tokens k'.tokens := by
  have heq : k'.tokens =
      ⟨Function.update k.tokens.waiting sid none, k.tokens.uses ++ [.taken sid p.challenge]⟩ := by
    rw [← h, Core.tokens, hhist]
    rfl
  rw [heq]
  refine .take sid p.challenge ?_
  rw [Core.waiting_of_lookup hch, ChannelState.challenge, hp]
  rfl

/-- No challenge is issued or taken. -/
theorem Core.tokens_drop
    (h : ∀ sid, k'.tokens.waiting sid = none ∨ k'.tokens.waiting sid = k.tokens.waiting sid)
    (hhist : k'.hist.challenges = k.hist.challenges) : Step k.tokens k'.tokens := by
  have heq : k'.tokens = { k.tokens with waiting := k'.tokens.waiting } := by
    rw [Core.tokens, hhist]
    rfl
  rw [heq]
  exact .drop _ h

/-- One channel changes, and waits with no other challenge than before. -/
theorem Core.tokens_insert (h : k'.channels = k.channels.insert sid ch)
    (hch : ch.challenge = none ∨ ch.challenge = k.tokens.waiting sid)
    (hhist : k'.hist.challenges = k.hist.challenges) : Step k.tokens k'.tokens := by
  refine Core.tokens_drop (fun sid' => ?_) hhist
  rw [Core.waiting_insert h rfl, Function.update_apply]
  split_ifs with heq
  · exact heq ▸ hch
  · exact Or.inr rfl

theorem Core.tokens_erase (h : k'.channels = k.channels.erase sid)
    (hhist : k'.hist.challenges = k.hist.challenges) : Step k.tokens k'.tokens := by
  refine Core.tokens_drop (fun sid' => ?_) hhist
  rw [Core.waiting_erase h, Function.update_apply]
  split_ifs with heq
  · exact Or.inl rfl
  · exact Or.inr rfl

/-- The setup on a channel comes to its end. -/
theorem Core.Ending.tokens {hist : ConnHist} (h : k.Ending sid ch hist)
    (hch : k.channels.lookup sid = some ch)
    (hnone : k'.tokens.waiting = Function.update k.tokens.waiting sid none)
    (hhist : k'.hist.challenges = hist.challenges) : Step k.tokens k'.tokens := by
  rcases h with ⟨p, hp, rfl⟩ | ⟨-, rfl⟩
  · exact Core.tokens_take hch hp hnone hhist
  · refine Core.tokens_drop (fun sid' => ?_) hhist
    rw [hnone, Function.update_apply]
    split_ifs
    · exact Or.inl rfl
    · exact Or.inr rfl

theorem Core.Keyed.challenges {ch' : ChannelState} {hist₀ hist : ConnHist}
    (h : k.Keyed srv hist₀ ch ch' hist) :
    ch'.challenge = ch.challenge ∧ hist.challenges = hist₀.challenges := by
  cases h with
  | user | guest => exact ⟨rfl, rfl⟩

theorem Core.Lost.waiting {channels : FinMap UInt64 ChannelState} (h : k.Lost channels)
    (sid' : UInt64) :
    (channels.lookup sid').bind ChannelState.challenge = k.tokens.waiting sid' := by
  obtain ⟨sid, ch, hch, -, -, rfl⟩ := h
  rw [FinMap.lookup_insert]
  split_ifs with heq
  · rw [heq, Core.waiting_of_lookup hch]
    rfl
  · rfl

/-- **The moves of a connection are steps of one-time tokens.** -/
theorem Move.tokens (h : Move srv l k k') : Step k.tokens k'.tokens := by
  have hsame : ∀ {k'' : Core}, k''.channels = k.channels →
      k''.hist.challenges = k.hist.challenges → Step k.tokens k''.tokens := by
    intro k'' hch
    refine Core.tokens_drop fun sid => Or.inr ?_
    rw [Core.tokens, hch]
    rfl
  cases h with
  | negotiate | request | chainNeg | completeOpen | forget | sealGone | silent =>
    exact hsame rfl rfl
  | begin sid ch hist _ _ hopen =>
    rcases hopen with ⟨p, preauth, -, rfl, rfl⟩ | ⟨ctx, preauth, rfl, rfl⟩
    · exact Core.tokens_issue (Core.waiting_insert rfl rfl) rfl
    · refine Core.tokens_insert rfl ?_ rfl
      cases hold : k.channels.lookup sid with
      | none => exact Or.inl rfl
      | some old => exact Or.inr (Core.waiting_of_lookup hold).symm
  | beginBind sid s p preauth => exact Core.tokens_issue (Core.waiting_insert rfl rfl) rfl
  | spent sid ch p _ hch hp => exact Core.tokens_take hch hp (Core.waiting_insert rfl rfl) rfl
  | extend sid ch _ hch | further sid ch _ _ hch | decrypt sid ch _ hch | sealHeld sid ch _ hch
  | completeSealed p _ _ ch _ _ _ hch =>
    exact Core.tokens_insert rfl (Or.inr (Core.waiting_of_lookup hch).symm) rfl
  | lost _ _ hlost => exact Core.tokens_drop (fun sid => Or.inr (hlost.waiting sid)) rfl
  | abandon sid ch _ hch _ hend => exact hend.tokens hch (Core.waiting_erase rfl) rfl
  | unbind sid ch p hch hp => exact Core.tokens_take hch hp (Core.waiting_erase rfl) rfl
  | logoff | teardown => exact Core.tokens_erase rfl rfl
  | establish sid ch ch₀ ch' _ _ _ _ _ hch _ _ _ _ _ h₀ hend hkey =>
    obtain ⟨hchal, hhist⟩ := hkey.challenges
    have hnone : ch₀.challenge = none := by
      rcases h₀ with ⟨-, rfl⟩ | rfl
      · rfl
      · rfl
    exact hend.tokens hch (Core.waiting_insert rfl (hchal.trans hnone)) hhist
  | bind sid ch ch' p _ _ _ hch hp _ _ _ hkey =>
    obtain ⟨hchal, hhist⟩ := hkey.challenges
    exact Core.tokens_take hch hp (Core.waiting_insert rfl hchal) hhist
  | establishNew sid ch' _ _ _ channels _ hchs _ _ _ hkey =>
    obtain ⟨hchal, hhist⟩ := hkey.challenges
    refine Core.tokens_drop (fun sid' => ?_) hhist
    dsimp only [Core.tokens]
    rw [FinMap.lookup_insert]
    split_ifs
    · exact Or.inl hchal
    · rcases hchs with rfl | hlost
      · exact Or.inr rfl
      · exact Or.inr (hlost.waiting sid')

theorem Moves.tokens_valid {ok : Label → Core → Prop} (h : Moves srv ok k k')
    (hk : k.tokens.Valid) : k'.tokens.Valid :=
  h.induct (P := fun a => a.tokens.Valid) (fun _ _ _ _ hm ha => hm.tokens.valid ha) hk

end

/-- The challenges of every connection of a reachable world. -/
theorem World.run_tokens (srv : Srv σ) (workers : ℕ) (os : σ) (es : List Event) :
    ((World.start workers os).run srv es).Each fun k => k.tokens.Valid := by
  refine World.run_own ⟨fun a b hchs _ hhist _ ha => ?_, fun k hchs _ hhist _ => ?_⟩
    (fun h => h.tokens_valid) workers os es
  · have hsame : b.tokens = a.tokens := by rw [Core.tokens, hchs, hhist, Core.tokens]
    exact hsame ▸ ha
  · have hnew : k.tokens = ⟨fun _ => none, []⟩ := by
      rw [Core.tokens, hchs, hhist]
      rfl
    rw [hnew]
    exact ⟨.nil, fun k a h => absurd h (by simp)⟩

/-! ### What establishes a channel -/

/-- The connection has an established channel of session `sid`. -/
def established (channels : FinMap UInt64 ChannelState) (sid : UInt64) : Bool :=
  (channels.lookup sid).any (·.established)

/-- The AUTHENTICATE message of a SESSION_SETUP. -/
def authenticateMsg (msg : Bytes) : Option Ntlm.Authenticate :=
  (parseSetup msg).bind fun r =>
    if Ntlm.classify r.blob = .authenticate then Ntlm.parseAuthenticate r.blob else none

/-- The message proves that its sender knows the password hash `nt` of the user it names. -/
def proves (srv : Srv σ) (nt : Bytes) (a : Ntlm.Authenticate) (challenge : Bytes) : Prop :=
  (Ntlm.verifyNtlmv2 srv.env.crypto srv.env.toUppercase nt a challenge).isSome

/-- With what a setup through NTLM establishes a channel of session `sid`: as a guest, without a
user that the server knows, or as a user, with a proof. -/
inductive NtlmEstablishes (srv : Srv σ) (h : ReqHdr) (msg : Bytes) (px px' : Px σ) (sid : UInt64) :
    Prop
  | guest (s : SessionInner) (hs : px'.shared.sessions.lookup sid = some s)
      (hguest : s.guest = true)
      (hno : ∀ a, authenticateMsg msg = some a → a.isAnonymous = true ∨
        srv.users.lookup (srv.env.toLowercase a.user) = none)
  | user (s : SessionInner) (ch : ChannelState) (p : PendingAuth) (a : Ntlm.Authenticate)
      (nt : Bytes) (hsid : sid = h.sessionId) (hch : px.pc.channels.lookup sid = some ch)
      (hp : ch.pending = some p) (ha : authenticateMsg msg = some a)
      (hnt : srv.users.lookup (srv.env.toLowercase a.user) = some nt)
      (hproof : proves srv nt a p.challenge) (hs : px'.shared.sessions.lookup sid = some s)
      (huser : eqIgnoreAsciiCase a.user s.user = true)
      (hhist : px'.pc.hist.challenges = px.pc.hist.challenges ++ [.taken sid p.challenge])

section

variable {srv : Srv σ} {h : ReqHdr} {msg : Bytes} {px : Px σ} {sid : UInt64}
variable {auth : Option Ntlm.Authenticate}

/-- Of the state before, only the channels and the history of challenges matter. -/
theorem NtlmEstablishes.change {h' : ReqHdr} {px₁ px₂ px' : Px σ}
    (hest : NtlmEstablishes srv h msg px₁ px' sid) (hsession : h.sessionId = h'.sessionId)
    (hchannels : px₁.pc.channels = px₂.pc.channels)
    (hchallenges : px₁.pc.hist.challenges = px₂.pc.hist.challenges) :
    NtlmEstablishes srv h' msg px₂ px' sid := by
  cases hest with
  | guest s hs hguest hno => exact .guest s hs hguest hno
  | user s ch p a nt hsid hch hp ha hnt hproof hs huser hhist =>
    exact .user s ch p a nt (hsid.trans hsession) (hchannels ▸ hch) hp ha hnt hproof hs huser
      (hchallenges ▸ hhist)

section

variable (channels : FinMap UInt64 ChannelState) (sid' : UInt64)

theorem established_insert (ch : ChannelState) : established (channels.insert sid' ch) sid =
      if sid = sid' then ch.established else established channels sid := by
  unfold established
  rw [FinMap.lookup_insert]
  split_ifs
  · rfl
  · rfl

theorem established_erase :
    established (channels.erase sid') sid =
      if sid = sid' then false else established channels sid := by
  unfold established
  rw [FinMap.lookup_erase]
  split_ifs
  · rfl
  · rfl

end

theorem established_of_lookup {channels : FinMap UInt64 ChannelState} {ch : ChannelState}
    (h : channels.lookup sid = some ch) : established channels sid = ch.established := by
  rw [established, h]
  rfl

/-- A first authentication as a user comes with a proof. -/
theorem verdict_user {challenge key : Bytes} {user : Str}
    (hv : verdict srv auth challenge = .user key user) :
    ∃ a nt, auth = some a ∧ user = a.user ∧
      srv.users.lookup (srv.env.toLowercase a.user) = some nt ∧ proves srv nt a challenge := by
  unfold verdict at hv
  cases auth with
  | none =>
    dsimp only at hv
    split_ifs at hv
  | some a =>
    dsimp only at hv
    split_ifs at hv
    all_goals
      unfold ntlmVerify at hv
      cases hnt : srv.users.lookup (srv.env.toLowercase a.user) with
      | none =>
        rw [hnt] at hv
        exact absurd hv (by simp)
      | some nt =>
        rw [hnt, Option.map_some] at hv
        cases hkey : Ntlm.verifyNtlmv2 srv.env.crypto srv.env.toUppercase nt a challenge with
        | none =>
          rw [hkey] at hv
          exact absurd hv (by simp)
        | some k =>
          rw [hkey] at hv
          obtain ⟨rfl, rfl⟩ := Verdict.user.inj hv
          exact ⟨a, nt, rfl, rfl, hnt, by rw [proves, hkey]; rfl⟩

/-- A guest names no user that the server knows. -/
theorem verdict_guest {challenge : Bytes} (hv : verdict srv auth challenge = .guest) :
    ∀ a, auth = some a → a.isAnonymous = true ∨
      srv.users.lookup (srv.env.toLowercase a.user) = none := by
  rintro a rfl
  by_contra hno
  obtain ⟨hanon, hknown⟩ := not_or.1 hno
  obtain ⟨nt, hnt⟩ := Option.ne_none_iff_exists'.1 hknown
  unfold verdict ntlmVerify at hv
  simp only [hanon, hnt, Option.map_some] at hv
  cases hkey : Ntlm.verifyNtlmv2 srv.env.crypto srv.env.toUppercase nt a challenge with
  | none => simp [hkey] at hv
  | some k => simp [hkey] at hv

/-- A binding comes with a proof by the user of its session. -/
theorem bindProof_user {s : SessionInner} {challenge : Bytes}
    (hb : bindProof srv s auth challenge = true) :
    ∃ a nt, auth = some a ∧ eqIgnoreAsciiCase a.user s.user = true ∧
      srv.users.lookup (srv.env.toLowercase a.user) = some nt ∧ proves srv nt a challenge := by
  unfold bindProof at hb
  split_ifs at hb
  cases auth with
  | none => exact absurd hb (by simp)
  | some a =>
    obtain ⟨-, huser, hverify⟩ := of_decide_eq_true hb
    unfold ntlmVerify at hverify
    cases hnt : srv.users.lookup (srv.env.toLowercase a.user) with
    | none =>
      rw [hnt] at hverify
      exact absurd hverify (by simp)
    | some nt =>
      rw [hnt] at hverify
      exact ⟨a, nt, rfl, huser, hnt, hverify⟩

theorem eqIgnoreAsciiCase_refl (s : Str) : eqIgnoreAsciiCase s s = true := by
  simp [eqIgnoreAsciiCase]

section Authenticate

variable {s : SessionInner} {ch : ChannelState} {p : PendingAuth} {preauth done : Bytes}
  {auth : Option Ntlm.Authenticate} {required : Bool}
  (hauth : authenticateMsg msg = auth) (hch : px.pc.channels.lookup h.sessionId = some ch)
  (hp : ch.pending = some p) (hbefore : established px.pc.channels sid = false)

include hauth hch hp hbefore

theorem ntlmBind_establishes
    (hafter : established (ntlmBind srv h h.sessionId s { ch with pending := none, preauth } auth
      p.challenge done required (px.spend h.sessionId ch p preauth)).pc.channels sid = true) :
    NtlmEstablishes srv h msg px (ntlmBind srv h h.sessionId s
      { ch with pending := none, preauth } auth p.challenge done required
      (px.spend h.sessionId ch p preauth)) sid := by
  unfold ntlmBind at hafter ⊢
  split_ifs at hafter ⊢ with hno
  · -- the channel is gone
    dsimp only [Px.spend, Px.setChannels, Px.err, ProtoConn.logChallenge] at hafter
    rw [FinMap.insert_erase, established_erase] at hafter
    split_ifs at hafter
    exact absurd (hafter.symm.trans hbefore) (by simp)
  · simp only [not_or, not_not] at hno
    obtain ⟨a, nt, rfl, huser, hnt, hproof⟩ := bindProof_user hno.1
    dsimp only [Px.spend, Px.setChannels, Px.setSessions, Px.ss, ProtoConn.logSetup,
      ProtoConn.logChallenge] at hafter
    rw [FinMap.insert_insert, established_insert] at hafter
    split_ifs at hafter with hsid
    · subst hsid
      exact .user _ ch p a nt rfl hch hp hauth hnt hproof (AList.lookup_insert _) huser rfl
    · exact absurd (hafter.symm.trans hbefore) (by simp)

theorem ntlmFirst_establishes
    (hafter : established (ntlmFirst srv h h.sessionId s { ch with pending := none, preauth } auth
      p.challenge done required (px.spend h.sessionId ch p preauth)).pc.channels sid = true) :
    NtlmEstablishes srv h msg px (ntlmFirst srv h h.sessionId s
      { ch with pending := none, preauth } auth p.challenge done required
      (px.spend h.sessionId ch p preauth)) sid := by
  have hgone : ∀ st, established (((px.spend h.sessionId ch p preauth).abandon h.sessionId).err h
      st).pc.channels sid = false := by
    intro st
    dsimp only [Px.spend, Px.abandon, Px.setChannels, Px.setSessions, Px.err,
      ProtoConn.logChallenge]
    rw [FinMap.insert_erase, established_erase]
    split_ifs
    · rfl
    · exact hbefore
  unfold ntlmFirst at hafter ⊢
  cases hv : verdict srv auth p.challenge with
  | reject =>
    rw [hv] at hafter
    exact absurd (hafter.symm.trans (hgone _)) (by simp)
  | user key user =>
    rw [hv] at hafter
    dsimp only at hafter ⊢
    obtain ⟨a, nt, rfl, rfl, hnt, hproof⟩ := verdict_user hv
    split_ifs at hafter ⊢ with hno
    · exact absurd (hafter.symm.trans (hgone _)) (by simp)
    · dsimp only [Px.spend, Px.setChannels, Px.setSessions, Px.ss, ProtoConn.logSetup,
        ProtoConn.logChallenge] at hafter
      rw [FinMap.insert_insert, established_insert] at hafter
      split_ifs at hafter with hsid
      · subst hsid
        exact .user _ ch p a nt rfl hch hp hauth hnt hproof (AList.lookup_insert _)
          (eqIgnoreAsciiCase_refl a.user) rfl
      · exact absurd (hafter.symm.trans hbefore) (by simp)
  | guest =>
    rw [hv] at hafter
    dsimp only at hafter ⊢
    split_ifs at hafter ⊢ with henc
    · exact absurd (hafter.symm.trans (hgone _)) (by simp)
    · dsimp only [Px.spend, Px.setChannels, Px.setSessions, Px.ss, ProtoConn.logChallenge] at hafter
      rw [FinMap.insert_insert, established_insert] at hafter
      split_ifs at hafter with hsid
      · subst hsid
        exact .guest _ (AList.lookup_insert _) rfl (hauth ▸ verdict_guest hv)
      · exact absurd (hafter.symm.trans hbefore) (by simp)

end Authenticate

theorem ntlmAuthenticate_establishes {r : SetupReq}
    (hauth : authenticateMsg msg = Ntlm.parseAuthenticate r.blob)
    (hbefore : established px.pc.channels sid = false)
    (hafter : established (ntlmAuthenticate srv h msg r px).pc.channels sid = true) :
    NtlmEstablishes srv h msg px (ntlmAuthenticate srv h msg r px) sid := by
  have hold : ¬ established px.pc.channels sid = true := by simp [hbefore]
  unfold ntlmAuthenticate at hafter ⊢
  dsimp only at hafter ⊢
  cases hch : px.pc.channels.lookup h.sessionId with
  | none =>
    simp only [Px.onSession, hch] at hafter
    exact absurd hafter hold
  | some ch =>
    simp only [Px.onSession, hch] at hafter ⊢
    have hsame : ∀ {pending : Option PendingAuth} {preauth : Bytes},
        established (px.pc.channels.insert h.sessionId { ch with pending, preauth }) sid =
          established px.pc.channels sid := by
      intro pending preauth
      rw [established_insert]
      split_ifs with hsid
      · rw [hsid, established_of_lookup hch]
      · rfl
    cases hp : ch.pending with
    | none =>
      simp only [hp] at hafter
      exact absurd (hsame.symm.trans hafter) hold
    | some p =>
      simp only [hp] at hafter ⊢
      cases hs : px.shared.sessions.lookup h.sessionId with
      | none =>
        simp only [Px.setChannels, hs] at hafter
        exact absurd (hsame.symm.trans hafter) hold
      | some s =>
        simp only [Px.setChannels, hs] at hafter ⊢
        by_cases hb : p.binding = true
        · simp only [if_pos hb] at hafter ⊢
          exact (@ntlmBind_establishes σ srv h msg (px.onSession h.sessionId) sid s ch p _ _ _ _
            hauth hch hp hbefore hafter).change rfl rfl rfl
        · simp only [if_neg hb] at hafter ⊢
          exact (@ntlmFirst_establishes σ srv h msg (px.onSession h.sessionId) sid s ch p _ _ _ _
            hauth hch hp hbefore hafter).change rfl rfl rfl

/-- **What a setup through NTLM establishes a channel with.** -/
theorem ntlmSetup_established (hbefore : established px.pc.channels sid = false)
    (hafter : established (ntlmSessionSetup srv h msg px).pc.channels sid = true) :
    NtlmEstablishes srv h msg px (ntlmSessionSetup srv h msg px) sid := by
  have hold : ¬ established px.pc.channels sid = true := by simp [hbefore]
  unfold ntlmSessionSetup at hafter ⊢
  cases hr : parseSetup msg with
  | none =>
    rw [hr] at hafter
    exact absurd hafter hold
  | some r =>
    rw [hr] at hafter
    dsimp only at hafter ⊢
    cases hclass : Ntlm.classify r.blob with
    | negotiate =>
      -- a challenge waits in the channel, which is not established
      rw [hclass] at hafter
      dsimp only at hafter
      exfalso
      unfold ntlmNegotiate at hafter
      rcases ntlmSession_cases srv h (r.flags &&& sessionFlagBinding ≠ 0) px with ⟨st, -, hc⟩ |
        ⟨s, hc, -⟩ | ⟨-, -, -, hc⟩ | ⟨-, -, sid', s, -, hc, -⟩
      · rw [hc] at hafter
        exact hold hafter
      · rw [hc] at hafter
        exact hold hafter
      · rw [hc] at hafter
        dsimp only [Px.ss, Px.setChannels, ProtoConn.logChallenge] at hafter
        rw [established_insert] at hafter
        split_ifs at hafter
        exact hold hafter
      · rw [hc] at hafter
        dsimp only [Px.ss, Px.setChannels, ProtoConn.logChallenge] at hafter
        rw [established_insert] at hafter
        split_ifs at hafter
        exact hold hafter
    | other =>
      rw [hclass] at hafter
      have hnone : authenticateMsg msg = none := by simp [authenticateMsg, hr, hclass]
      dsimp only at hafter ⊢
      unfold ntlmOther at hafter ⊢
      split_ifs at hafter ⊢
      · exact absurd hafter hold
      · rcases px.create_cases srv with ⟨s, hc, -⟩ | ⟨sid', s, -, hc, -⟩
        · rw [hc] at hafter
          exact absurd hafter hold
        · rw [hc] at hafter ⊢
          dsimp only [Px.ss, Px.setChannels, Px.setSessions, Px.onSession] at hafter
          rw [established_insert] at hafter
          split_ifs at hafter with hsid
          · subst hsid
            exact .guest _ (AList.lookup_insert _) rfl fun a ha =>
              absurd (hnone.symm.trans ha) (by simp)
          · exact absurd hafter hold
      · exact absurd hafter hold
    | authenticate =>
      rw [hclass] at hafter
      have hauth : authenticateMsg msg = Ntlm.parseAuthenticate r.blob := by
        simp [authenticateMsg, hr, hclass]
      exact ntlmAuthenticate_establishes hauth hbefore hafter

end

/-! ### Runs -/

/-- The SESSION_SETUP is left to NTLM. -/
def Member.viaNtlm (srv : Srv σ) (m : Member σ) : Prop :=
  m.hdr.command = cmdSessionSetup ∧
    ∃ blob ∈ Rdr.parse (setupBlob m.msg) (m.msg.drop 64), setupMech srv m.px.pc m.hdr blob ≠ .krb5

instance (srv : Srv σ) (m : Member σ) : Decidable (m.viaNtlm srv) :=
  inferInstanceAs (Decidable (_ ∧ _))

/-- The state after the dispatch of a member. -/
abbrev Member.after (srv : Srv σ) (m : Member σ) : Px σ := (dispatch srv m.hdr m.msg m.px).1

/-- With the member the channel of session `sid` becomes established. -/
def Member.establishes (srv : Srv σ) (m : Member σ) (sid : UInt64) : Prop :=
  established m.px.pc.channels sid = false ∧ established (m.after srv).pc.channels sid = true

instance (srv : Srv σ) (m : Member σ) (sid : UInt64) : Decidable (m.establishes srv sid) :=
  inferInstanceAs (Decidable (_ ∧ _))

/-- The member authenticates the user `s.user` for session `sid`: it proves the knowledge of the
hash stored for that user, with the challenge that this connection issued latest for this session,
and takes that challenge. -/
def Member.Authenticates (srv : Srv σ) (m : Member σ) (sid : UInt64) (s : SessionInner) : Prop :=
  ∃ a nt challenge, authenticateMsg m.msg = some a ∧ sid = m.hdr.sessionId ∧
    srv.users.lookup (srv.env.toLowercase s.user) = some nt ∧ proves srv nt a challenge ∧
    outstanding sid m.px.pc.hist.challenges = some challenge ∧
    (m.after srv).pc.hist.challenges = m.px.pc.hist.challenges ++ [.taken sid challenge]

/-- The message names the user with the stored hash `nt`, without the anonymous flag. -/
def names (srv : Srv σ) (a : Ntlm.Authenticate) (nt : Bytes) : Prop :=
  a.user ≠ [] ∧ a.flags &&& Ntlm.flagAnonymous = 0 ∧
    srv.users.lookup (srv.env.toLowercase a.user) = some nt

theorem sessionSetup_ntlm {srv : Srv σ} {h : ReqHdr} {msg blob : Bytes} {px : Px σ} {sid : UInt64}
    (hblob : Rdr.parse (setupBlob msg) (msg.drop 64) = some blob)
    (hmech : setupMech srv px.pc h blob ≠ .krb5) (hbefore : established px.pc.channels sid = false)
    (hafter : established (sessionSetup srv h msg px).pc.channels sid = true) :
    NtlmEstablishes srv h msg px (sessionSetup srv h msg px) sid := by
  have hold : ¬ established px.pc.channels sid = true := by simp [hbefore]
  unfold sessionSetup at hafter ⊢
  rw [hblob] at hafter ⊢
  dsimp only at hafter ⊢
  cases hm : setupMech srv px.pc h blob with
  | krb5 => exact absurd hm hmech
  | ntlmssp | unknown =>
    rw [hm] at hafter
    dsimp only at hafter ⊢
    split_ifs at hafter ⊢
    · exact ntlmSetup_established hbefore hafter
    · exact absurd hafter hold

theorem Member.establishes_ntlm {srv : Srv σ} {m : Member σ} {sid : UInt64}
    (hvia : m.viaNtlm srv) (hest : m.establishes srv sid) :
    NtlmEstablishes srv m.hdr m.msg m.px (m.after srv) sid := by
  obtain ⟨hcmd, blob, hblob, hmech⟩ := hvia
  obtain ⟨hbefore, hafter⟩ := hest
  have hold : ¬ established m.px.pc.channels sid = true := by simp [hbefore]
  unfold Member.after at hafter ⊢
  have hout := dispatch_dispatched srv m.hdr m.msg m.px
  generalize dispatch srv m.hdr m.msg m.px = out at hout hafter ⊢
  cases hout with
  | replayed | foreign | refused => exact absurd hafter hold
  | routed =>
    rw [@route_setup σ srv (m.hdr.paid m.px) m.msg _ hcmd] at hafter ⊢
    exact (@sessionSetup_ntlm σ srv (m.hdr.paid m.px) m.msg blob (m.px.ready m.hdr) sid hblob
      hmech hbefore hafter).change rfl rfl rfl

/-- **NTLM authentication is sound.**  On every connection of every reachable world each challenge
that was taken was the latest one issued for its session and had not been taken before.  A request
that makes the channel of a session established through NTLM, other than as a guest, authenticates
the user recorded in the session; and a message that names a configured user, without the anonymous
flag, and whose proof does not verify establishes no channel.  Assumed of the Unicode tables: the
lower case of a name does not depend on the case of its ASCII letters. -/
theorem ntlm_authentication_sound (srv : Srv σ)
    (hlower : ∀ s t, eqIgnoreAsciiCase s t = true →
      srv.env.toLowercase s = srv.env.toLowercase t)
    (workers : ℕ) (os : σ) (es : List Event) (id : ConnId) (c : Conn)
    (hc : ((World.start workers os).run srv es).conns.lookup id = some c) :
    (∀ pre sid challenge post, c.proto.hist.challenges = pre ++ .taken sid challenge :: post →
      outstanding sid pre = some challenge) ∧
    ∀ bytes, ∀ m ∈ frameMembers srv ((World.start workers os).run srv es).shared c.proto bytes
        c.tx, m.viaNtlm srv → ∀ sid,
      (m.establishes srv sid → ∀ s, (m.after srv).shared.sessions.lookup sid = some s →
        s.guest = false → m.Authenticates srv sid s) ∧
      ∀ a nt, authenticateMsg m.msg = some a → names srv a nt →
        (∀ challenge, outstanding m.hdr.sessionId m.px.pc.hist.challenges = some challenge →
          ¬ proves srv nt a challenge) → ¬ m.establishes srv sid := by
  have hvalid := World.run_tokens srv workers os es id c hc
  refine ⟨hvalid.sound, fun bytes m hm hvia sid => ?_⟩
  have hmember := (member_moves srv _ c bytes hm id).1.tokens_valid hvalid
  -- the challenge that a channel waits with is the one its connection issued latest
  have hlatest : ∀ {sid ch p}, m.px.pc.channels.lookup sid = some ch → ch.pending = some p →
      outstanding sid m.px.pc.hist.challenges = some p.challenge := by
    intro sid ch p hch hp
    refine hmember.waiting sid p.challenge ?_
    rw [Core.waiting_of_lookup hch, ChannelState.challenge, hp]
    rfl
  refine ⟨fun hest s hs hguest => ?_, fun a nt ha hnames hfails hest => ?_⟩
  · cases Member.establishes_ntlm hvia hest with
    | guest s' hs' hguest' =>
      obtain rfl := Option.some.inj (hs.symm.trans hs')
      exact absurd (hguest.symm.trans hguest') (by simp)
    | user s' ch p a nt hsid hch hp ha hnt hproof hs' huser hhist =>
      obtain rfl := Option.some.inj (hs.symm.trans hs')
      exact ⟨a, nt, p.challenge, ha, hsid, hlower _ _ huser ▸ hnt, hproof, hlatest hch hp, hhist⟩
  · obtain ⟨hname, hflag, hnt⟩ := hnames
    cases Member.establishes_ntlm hvia hest with
    | guest _ _ _ hno =>
      rcases hno a ha with hanon | hunknown
      · simp [Ntlm.Authenticate.isAnonymous, hflag, hname] at hanon
      · exact absurd (hunknown.symm.trans hnt) (by simp)
    | user s ch p a' nt' hsid hch hp ha' hnt' hproof =>
      obtain rfl := Option.some.inj (ha.symm.trans ha')
      obtain rfl := Option.some.inj (hnt.symm.trans hnt')
      exact hfails p.challenge (hsid ▸ hlatest hch hp) hproof

open Sample in
/-- The user `u` logs in with the answer to the challenge of the connection. -/
theorem ntlm_authentication_sound_login :
    ∃ c ∈ ((World.start 1 {}).run userSrv askChallenge).conns.lookup conn,
      ∃ m ∈ frameMembers userSrv ((World.start 1 {}).run userSrv askChallenge).shared c.proto
          (setupReq 0 2 2 (ntlmAnswer (leBytes 8 3))) c.tx,
        m.viaNtlm userSrv ∧ m.establishes userSrv 2 ∧
          ∃ s ∈ (m.after userSrv).shared.sessions.lookup 2, s.user = ['u'] ∧
            m.Authenticates userSrv 2 s := by
  obtain ⟨c, hc, m, hm, hvia, hest, s, hs, huser, hguest⟩ : ∃ c ∈ ((World.start 1 {}).run userSrv
      askChallenge).conns.lookup conn, ∃ m ∈ frameMembers userSrv
        ((World.start 1 {}).run userSrv askChallenge).shared c.proto
        (setupReq 0 2 2 (ntlmAnswer (leBytes 8 3))) c.tx,
      m.viaNtlm userSrv ∧ m.establishes userSrv 2 ∧
        ∃ s ∈ (m.after userSrv).shared.sessions.lookup 2, s.user = ['u'] ∧ s.guest = false := by
    decide +kernel
  have hlower : ∀ s t, eqIgnoreAsciiCase s t = true →
      userSrv.env.toLowercase s = userSrv.env.toLowercase t := fun s t h => eq_of_beq h
  have hsound := ntlm_authentication_sound userSrv hlower 1 {} askChallenge conn c hc
  exact ⟨c, hc, m, hm, hvia, hest, s, hs, huser, (hsound.2 _ m hm hvia 2).1 hest s hs hguest⟩

end RocketSmbd
