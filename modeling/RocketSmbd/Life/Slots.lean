import RocketSmbd.Lib.SharedLife
import RocketSmbd.Life.Channel

/-!
# Sessions as shared resources

A session is shared by connections as `SharedLife` describes it: a channel that is being set up
owns the session, one that is being bound joins it, and an established one is live (`Core.slot`).
Setup, binding, failure, LOGOFF and disconnect adjust registry and channels by hand; each of them
is a step there (`Move.slot`).
-/

namespace RocketSmbd

open ByteString Vfs
open SharedLife (Role Phase Step)

variable {σ : Type}

/-- What a connection with this channel has to do with the session. -/
def ChannelState.role (ch : ChannelState) : Role :=
  if ch.established then .live
  else if ch.krbPending.isSome then .owner
  else match ch.pending with
    | some p => if p.binding then .joiner else .owner
    | none => .stale

def roleOf (ch : Option ChannelState) : Role := ch.elim .none ChannelState.role

def phaseOf : Option SessionInner → Phase
  | none => .absent
  | some s => if s.established then .live s.channels else .fresh

/-- Session `sid` as connection `id` sees it among the connections with `roles`. -/
def Core.slot (k : Core) (id : ConnId) (roles : ConnId → Role) (sid : UInt64) :
    SharedLife.State ConnId :=
  ⟨phaseOf (k.sessions.lookup sid), Function.update roles id (roleOf (k.channels.lookup sid))⟩

section

variable {srv : Srv σ} {l : Label} {k k' : Core} {id : ConnId} {roles : ConnId → Role}
  {sid : UInt64} {ch : ChannelState} {s : SessionInner}

variable {sid' : UInt64}

theorem phaseOf_live (h : k.sessions.lookup sid = some s) (hest : s.established = true) :
    (k.slot id roles sid).phase = .live s.channels := by
  simp [Core.slot, h, phaseOf, hest]

theorem phaseOf_fresh (h : k.sessions.lookup sid = some s) (hest : s.established = false) :
    (k.slot id roles sid).phase = .fresh := by
  simp [Core.slot, h, phaseOf, hest]

theorem phaseOf_absent (h : sid ∉ k.sessions) : (k.slot id roles sid).phase = .absent := by
  simp [Core.slot, FinMap.notMem_iff.1 h, phaseOf]

theorem phaseOf_eq_live {n : ℕ} (h : phaseOf (some s) = .live n) :
    s.established = true ∧ s.channels = n := by
  simp only [phaseOf] at h
  split_ifs at h with hest
  exact ⟨hest, Phase.live.inj h⟩

theorem phaseOf_eq_fresh {o : Option SessionInner} (h : phaseOf o = .fresh) :
    ∃ s, o = some s ∧ s.established = false := by
  cases o with
  | none => exact absurd h (by simp [phaseOf])
  | some s =>
    simp only [phaseOf] at h
    split_ifs at h with hest
    exact ⟨s, rfl, by simpa using hest⟩

theorem slot_role (h : k.channels.lookup sid = some ch) :
    (k.slot id roles sid).role id = ch.role := by
  simp [Core.slot, h, roleOf]

theorem role_ne_none : ch.role ≠ .none := by
  unfold ChannelState.role
  split_ifs
  · simp
  · simp
  · split
    · split_ifs <;> simp
    · simp

theorem role_live_iff : ch.role = .live ↔ ch.established = true := by
  unfold ChannelState.role
  split_ifs with h
  · simp [h]
  · simp [h]
  · split
    · split_ifs <;> simp [h]
    · simp [h]

/-- A channel that is being set up is not in use. -/
theorem ChannelState.Quiet.idle (hq : ch.Quiet) (h : ch.pending.isSome ∨ ch.krbPending.isSome) :
    ch.established = false := by
  by_contra hest
  obtain ⟨hp, hkrb⟩ := hq.established (by simpa using hest)
  simp [hp, hkrb] at h

theorem role_owner (hq : ch.Quiet) (h : ch.settingUp) : ch.role = .owner := by
  have hidle := hq.idle h.isSome
  rcases h with ⟨p, hp, hb⟩ | hkrb
  · have hnone : ch.krbPending = none := by simpa [hp] using hq.single
    simp [ChannelState.role, hidle, hnone, hp, hb]
  · simp [ChannelState.role, hidle, hkrb]

theorem role_joiner {p : PendingAuth} (hq : ch.Quiet) (hp : ch.pending = some p)
    (hb : p.binding = true) : ch.role = .joiner := by
  have hidle := hq.idle (Or.inl (by simp [hp]))
  have hnone : ch.krbPending = none := by simpa [hp] using hq.single
  simp [ChannelState.role, hidle, hnone, hp, hb]

theorem Core.Keyed.established {ch₀ : ChannelState} {hist₀ hist : ConnHist}
    (h : k.Keyed srv hist₀ ch₀ ch hist) : ch.established = true := by
  cases h <;> rfl

/-- A step of the abstract session, given the entries it leads to. -/
theorem Core.slot_step {p : Phase} {r : Role}
    (h : Step id (k.slot id roles sid) ⟨p, Function.update (k.slot id roles sid).role id r⟩)
    (hp : phaseOf (k'.sessions.lookup sid) = p) (hr : roleOf (k'.channels.lookup sid) = r) :
    Step id (k.slot id roles sid) (k'.slot id roles sid) := by
  have heq : k'.slot id roles sid = ⟨p, Function.update (k.slot id roles sid).role id r⟩ := by
    simp only [Core.slot, hp, hr, Function.update_idem]
  rw [heq]
  exact h

theorem Core.slot_same (hp : phaseOf (k'.sessions.lookup sid) = phaseOf (k.sessions.lookup sid))
    (hr : roleOf (k'.channels.lookup sid) = roleOf (k.channels.lookup sid)) :
    k'.slot id roles sid = k.slot id roles sid := by
  simp only [Core.slot, hp, hr]

/-- The slot is as before, or makes a step. -/
def Core.Turns (k k' : Core) (id : ConnId) (roles : ConnId → Role) (sid : UInt64) : Prop :=
  k'.slot id roles sid = k.slot id roles sid ∨ Step id (k.slot id roles sid) (k'.slot id roles sid)

theorem Core.turns_elsewhere (hs : k'.sessions.lookup sid = k.sessions.lookup sid)
    (hc : k'.channels.lookup sid = k.channels.lookup sid) : k.Turns k' id roles sid :=
  Or.inl (Core.slot_same (by rw [hs]) (by rw [hc]))

/-- A step of one session. -/
theorem Core.turns_at {p : Phase} {r : Role} {s' : Option SessionInner} {ch' : Option ChannelState}
    (hs : k'.sessions.lookup sid = if sid = sid' then s' else k.sessions.lookup sid)
    (hc : k'.channels.lookup sid = if sid = sid' then ch' else k.channels.lookup sid)
    (hp : phaseOf s' = p) (hr : roleOf ch' = r) (h : sid = sid' →
      Step id (k.slot id roles sid) ⟨p, Function.update (k.slot id roles sid).role id r⟩) :
    k.Turns k' id roles sid := by
  by_cases heq : sid = sid'
  · rw [if_pos heq] at hs hc
    exact Or.inr (Core.slot_step (h heq) (by rw [hs, hp]) (by rw [hc, hr]))
  · rw [if_neg heq] at hs hc
    exact Core.turns_elsewhere hs hc

/-- A session that stays as it is. -/
theorem Core.stays_at (h : k'.sessions = k.sessions) : k'.sessions.lookup sid =
    if sid = sid' then k.sessions.lookup sid' else k.sessions.lookup sid := by
  split_ifs with heq
  · rw [h, heq]
  · rw [h]

/-- A change of one channel that leaves its role. -/
theorem Core.turns_insert {ch' : ChannelState} (hs : k'.sessions = k.sessions)
    (hc : k'.channels = k.channels.insert sid' ch') (hch : k.channels.lookup sid' = some ch)
    (hrole : ch'.role = ch.role) : k.Turns k' id roles sid := by
  refine Or.inl (Core.slot_same (by rw [hs]) ?_)
  rw [hc, FinMap.lookup_insert]
  split_ifs with heq
  · rw [heq, hch]
    exact hrole
  · rfl

/-- A setup whose session has gone is stale. -/
theorem Core.turns_stale {ch' : ChannelState} (hs : k'.sessions.lookup sid = k.sessions.lookup sid)
    (hc : k'.channels.lookup sid = (k.channels.insert sid' ch').lookup sid)
    (hch : k.channels.lookup sid' = some ch) (hidle : ch.established = false)
    (hgone : sid' ∉ k.sessions) (hrole : ch'.role = .stale) : k.Turns k' id roles sid := by
  refine Core.turns_at (hs.trans (Core.stays_at rfl)) (hc.trans (FinMap.lookup_insert ..)) rfl hrole
    fun heq => ?_
  subst heq
  refine .retire (phaseOf_absent hgone) ?_
  rw [slot_role hch, Ne, role_live_iff, hidle]
  simp

theorem Core.Lost.turns {channels : FinMap UInt64 ChannelState} (h : k.Lost channels)
    (hquiet : k.Quiet) (hs : k'.sessions.lookup sid = k.sessions.lookup sid)
    (hc : k'.channels.lookup sid = channels.lookup sid) : k.Turns k' id roles sid := by
  obtain ⟨sid', ch, hch, hkrb, hgone, rfl⟩ := h
  have hq := hquiet sid' ch hch
  have hidle := hq.idle (Or.inr hkrb)
  have hnone : ch.pending = none := by
    rcases hq.single with h | h
    · exact h
    · simp [h] at hkrb
  exact Core.turns_stale hs hc hch hidle hgone (by simp [ChannelState.role, hidle, hnone])

/-- A live channel goes. -/
theorem Dropped.turns {sessions : Registry} {host host' : Host Unit}
    (h : Dropped k.sessions host sid' sessions host') (hs : (k.slot id roles sid).Sound)
    (hch : k.channels.lookup sid' = some ch) (hest : ch.established = true)
    (hk' : k'.sessions = sessions) (hc : k'.channels = k.channels.erase sid') :
    k.Turns k' id roles sid := by
  by_cases heq : sid = sid'
  · subst heq
    have hrole : (k.slot id roles sid).role id = .live := by
      rw [slot_role hch, role_live_iff, hest]
    obtain ⟨n, hphase, -⟩ := hs.live_of_role hrole
    refine Or.inr (Core.slot_step (.leave hrole) ?_ (by rw [hc, AList.lookup_erase]; rfl))
    have hphase' : phaseOf (k.sessions.lookup sid) = .live n := hphase
    rw [hk', hphase, Phase.drop]
    cases h with
    | unknown h =>
      rw [h] at hphase'
      exact absurd hphase' (by simp [phaseOf])
    | kept s h hlast =>
      rw [h] at hphase'
      obtain ⟨hest, hn⟩ := phaseOf_eq_live hphase'
      rw [AList.lookup_insert, if_neg (hn ▸ hlast)]
      simp [phaseOf, hest, hn]
    | ended s _ h hlast =>
      rw [h] at hphase'
      obtain ⟨-, hn⟩ := phaseOf_eq_live hphase'
      rw [AList.lookup_erase, if_pos (hn ▸ hlast)]
      rfl
  · refine Core.turns_elsewhere ?_ (by rw [hc, AList.lookup_erase_ne heq])
    rw [hk']
    cases h with
    | unknown => rfl
    | kept => exact AList.lookup_insert_ne heq
    | ended => exact AList.lookup_erase_ne heq

theorem Torn.turns {sessions : Registry} {host host' : Host Unit}
    (h : Torn k.sessions host sid' ch sessions host') (hs : (k.slot id roles sid).Sound)
    (hch : k.channels.lookup sid' = some ch) (hk' : k'.sessions = sessions)
    (hc : k'.channels = k.channels.erase sid') : k.Turns k' id roles sid := by
  have hgone : k'.channels.lookup sid = if sid = sid' then none else k.channels.lookup sid := by
    rw [hc, FinMap.lookup_erase]
  cases h with
  | dropped _ _ hest h => exact h.turns hs hch hest hk' hc
  | ended s _ hidle hlook hsess =>
    refine Core.turns_at (by rw [hk', FinMap.lookup_erase]) hgone rfl rfl fun heq => ?_
    subst heq
    exact .fail (hs.owner_of_fresh (phaseOf_fresh hlook hsess) (i := id)
      (by rw [slot_role hch]; exact role_ne_none)).1
  | kept hidle hsess =>
    refine Core.turns_at (Core.stays_at hk') hgone rfl rfl fun heq => ?_
    subst heq
    refine .quit ?_ ?_
    · cases hlook : k.sessions.lookup sid with
      | none => simp [Core.slot, hlook, phaseOf]
      | some s => simp [Core.slot, hlook, phaseOf, hsess s hlook]
    · rw [slot_role hch, Ne, role_live_iff, hidle]
      simp

/-- The session of a setup is not established. -/
theorem session_of_owner (hs : (k.slot id roles sid).Sound)
    (hrole : (k.slot id roles sid).role id = .owner) (hlook : k.sessions.lookup sid = some s) :
    s.established = false := by
  by_contra hest
  rw [SharedLife.State.Sound, phaseOf_live hlook (by simpa using hest)] at hs
  exact hs.2.2 id hrole

/-- **The moves of a connection are steps of its sessions.** -/
theorem Move.slot (h : Move srv l k k') (hquiet : k.Quiet) (hknown : k.Known)
    (hnodup : k'.created.Nodup) (hroles : sid ∉ k.created → ∀ j, j ≠ id → roles j = .none)
    (hs : (k.slot id roles sid).Sound) : k.Turns k' id roles sid := by
  have hidle : ∀ {sid ch}, k.channels.lookup sid = some ch →
      (ch.pending.isSome ∨ ch.krbPending.isSome) → ch.established = false :=
    fun hch h => (hquiet _ _ hch).idle h
  -- nobody has to do with a session whose id is just drawn
  have hnew : ∀ {new}, new ∉ k.created → k.channels.lookup new = none ∧
      (sid = new → ∀ j, (k.slot id roles sid).role j = .none) := by
    intro new hfresh
    have hnone : k.channels.lookup new = none :=
      FinMap.notMem_iff.1 fun hmem => hfresh (hknown.channels new hmem)
    refine ⟨hnone, fun heq j => ?_⟩
    subst heq
    by_cases hj : j = id
    · simp [Core.slot, hj, hnone, roleOf]
    · simpa [Core.slot, Function.update_of_ne hj] using hroles hfresh j hj
  cases h with
  | negotiate | chainNeg | sealGone | silent | completeOpen | forget =>
    exact Core.turns_elsewhere rfl rfl
  | begin sid' ch _ hfresh _ hopen =>
    obtain ⟨hnone, hall⟩ := hnew (fresh_of_nodup hnodup)
    refine Core.turns_at (FinMap.lookup_insert ..) (FinMap.lookup_insert ..) rfl ?_
      fun heq => .create (phaseOf_absent (heq ▸ hfresh)) (hall heq)
    rcases hopen with ⟨p, preauth, hb, rfl, -⟩ | ⟨ctx, preauth, rfl, -⟩
    · simp [roleOf, ChannelState.role, hb]
    · simp [roleOf, ChannelState.role, hnone]
  | beginBind sid' s p preauth hsess hest hfree hp =>
    refine Core.turns_at (r := .joiner) (Core.stays_at rfl) (FinMap.lookup_insert ..) rfl
      (by simp [roleOf, ChannelState.role, hp]) fun heq => ?_
    subst heq
    refine .join s.channels (phaseOf_live hsess hest) ?_
    cases hch : k.channels.lookup sid with
    | none => simp [Core.slot, hch, roleOf]
    | some ch =>
      rw [slot_role hch, Ne, role_live_iff]
      simpa [hch] using hfree
  | extend sid' ch _ hch | decrypt sid' ch _ hch | sealHeld sid' ch _ hch
  | completeSealed p _ _ ch _ _ _ hch => exact Core.turns_insert rfl rfl hch rfl
  | spent sid' ch p _ hch hp hgone =>
    have hnone : ch.krbPending = none := by
      rcases (hquiet sid' ch hch).single with h | h
      · simp [h] at hp
      · exact h
    have hunused := hidle hch (Or.inl (by rw [hp]; rfl))
    exact Core.turns_stale rfl rfl hch hunused hgone (by simp [ChannelState.role, hunused, hnone])
  | lost _ _ hlost => exact hlost.turns hquiet rfl rfl
  | further sid' ch _ _ hch hkrb =>
    exact Core.turns_insert rfl rfl hch (by simp [ChannelState.role, hkrb])
  | abandon sid' ch _ hch hset =>
    refine Core.turns_at (FinMap.lookup_erase ..) (FinMap.lookup_erase ..) rfl rfl fun heq => ?_
    subst heq
    exact .fail ((slot_role hch).trans (role_owner (hquiet sid ch hch) hset))
  | unbind sid' ch p hch hp hb =>
    refine Core.turns_at (Core.stays_at rfl) (FinMap.lookup_erase ..) rfl rfl fun heq => ?_
    subst heq
    have hjoiner := role_joiner (hquiet sid ch hch) hp hb
    refine .quit (fun hfresh => ?_) ?_
    · have howner := (hs.owner_of_fresh hfresh (i := id)
        (by rw [slot_role hch]; exact role_ne_none)).1
      rw [slot_role hch, hjoiner] at howner
      exact absurd howner (by simp)
    · rw [slot_role hch, hjoiner]
      simp
  | establish sid' ch ch₀ ch' s s' _ _ _ hch hset hsess hest hone _ _ _ hkey =>
    refine Core.turns_at (p := .live 1) (FinMap.lookup_insert ..) (FinMap.lookup_insert ..)
      (by simp [phaseOf, hest, hone]) (role_live_iff.2 hkey.established) fun heq => ?_
    subst heq
    have howner : (k.slot id roles sid).role id = .owner :=
      (slot_role hch).trans (role_owner (hquiet sid ch hch) hset)
    exact .finish (phaseOf_fresh hsess (session_of_owner hs howner hsess)) howner
  | establishNew sid' ch' s' _ _ channels hfresh hchs hest hone _ hkey =>
    by_cases heq : sid = sid'
    · subst heq
      obtain ⟨-, hall⟩ := hnew (fresh_of_nodup hnodup)
      refine Or.inr (Core.slot_step (.createLive (phaseOf_absent hfresh) (hall rfl)) ?_ ?_)
      · dsimp only
        rw [AList.lookup_insert]
        simp [phaseOf, hest, hone]
      · dsimp only
        rw [AList.lookup_insert]
        exact role_live_iff.2 hkey.established
    · have hother : (channels.insert sid' ch').lookup sid = channels.lookup sid :=
        AList.lookup_insert_ne heq
      rcases hchs with rfl | hlost
      · exact Core.turns_elsewhere (AList.lookup_insert_ne heq) hother
      · exact hlost.turns hquiet (AList.lookup_insert_ne heq) hother
  | bind sid' ch ch' p s _ _ hch hp hb hsess hest hkey =>
    refine Core.turns_at (p := .live (s.channels + 1)) (FinMap.lookup_insert ..)
      (FinMap.lookup_insert ..) (by simp [phaseOf, hest]) (role_live_iff.2 hkey.established)
      fun heq => ?_
    subst heq
    exact .joined s.channels (phaseOf_live hsess hest)
      ((slot_role hch).trans (role_joiner (hquiet sid ch hch) hp hb))
  | logoff sid' ch _ _ hch hest hdrop => exact hdrop.turns hs hch hest rfl rfl
  | request sid' ch _ s s' _ _ hch _ hsess hserve =>
    refine Or.inl (Core.slot_same ?_ rfl)
    dsimp only
    rw [FinMap.lookup_insert]
    split_ifs with heq
    · rw [heq, hsess]
      simp [phaseOf, hserve.identity.established, hserve.identity.channels]
    · rfl
  | teardown sid' ch _ _ hch htorn => exact htorn.turns hs hch rfl rfl

/-- Only an established session is served. -/
theorem session_of_live (hs : (k.slot id roles sid).Sound)
    (hch : k.channels.lookup sid = some ch) (hest : ch.established = true) :
    ∃ s, k.sessions.lookup sid = some s ∧ s.established = true ∧ 0 < s.channels := by
  obtain ⟨n, hphase, hpos⟩ := hs.live_of_role ((slot_role hch).trans (role_live_iff.2 hest))
  replace hphase : phaseOf (k.sessions.lookup sid) = .live n := hphase
  cases hlook : k.sessions.lookup sid with
  | none =>
    rw [hlook] at hphase
    exact absurd hphase (by simp [phaseOf])
  | some s =>
    rw [hlook] at hphase
    obtain ⟨hest, hn⟩ := phaseOf_eq_live hphase
    exact ⟨s, rfl, hest, hn ▸ hpos⟩

end

end RocketSmbd
