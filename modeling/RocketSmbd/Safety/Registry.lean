import RocketSmbd.Life.Audit
import RocketSmbd.Sample

/-!
# The session registry

The audit of `Life.Audit` in the terms of the registry: it counts the channels of its sessions
right, so that LOGOFF and teardown never take one from nothing, a setup that is not finished belongs
to one connection, and everything goes with the last connection.
-/

namespace RocketSmbd

open ByteString Vfs
open SharedLife (Role Phase Step)

variable {σ : Type}

section

variable {srv : Srv σ} {w w' : World σ} {id : ConnId} {c : Conn}
variable {sid : UInt64}

/-- The connections with an established channel of session `sid`. -/
def World.holders (w : World σ) (sid : UInt64) : ℕ :=
  FinMap.count (fun _ c => (c.proto.channels.lookup sid).any (·.established)) w.conns

theorem World.lives_slot (w : World σ) (sid : UInt64) :
    (w.slot sid).lives.ncard = w.holders sid := by
  rw [World.holders, FinMap.count_eq_ncard]
  congr 1
  ext j
  show roleOf ((w.channelsAt j).lookup sid) = .live ↔ _
  constructor
  · intro hrole
    cases hc : w.conns.lookup j with
    | none => simp [World.channelsAt, hc, roleOf] at hrole
    | some c =>
      rw [World.channelsAt_eq hc] at hrole
      cases hch : c.proto.channels.lookup sid with
      | none => simp [hch, roleOf] at hrole
      | some ch =>
        rw [hch] at hrole
        exact ⟨c, hc, by rw [hch]; exact role_live_iff.1 hrole⟩
  · rintro ⟨c, hc, hany⟩
    obtain ⟨ch, hch, hest⟩ := any_eq_true.1 hany
    rw [World.channelsAt_eq hc, hch]
    exact role_live_iff.2 hest

theorem World.Audited.established (hw : w.Audited) {s : SessionInner}
    (hs : w.shared.sessions.lookup sid = some s) (hest : s.established = true) :
    s.channels = w.holders sid ∧ 1 ≤ s.channels := by
  have hsound := hw.slots sid
  have hphase : (w.slot sid).phase = .live s.channels := by simp [World.slot, hs, phaseOf, hest]
  rw [SharedLife.State.Sound, hphase] at hsound
  rw [← World.lives_slot]
  exact ⟨hsound.1, hsound.2.1⟩

theorem World.Audited.bound (hw : w.Audited) (hc : w.conns.lookup id = some c)
    {ch : ChannelState} (hch : c.proto.channels.lookup sid = some ch)
    (hest : ch.established = true) :
    ∃ s, w.shared.sessions.lookup sid = some s ∧ s.established = true ∧ 0 < s.channels :=
  session_of_live ((hw.core hc).slots sid) hch hest

theorem settingUp_of_role {ch : ChannelState} (h : ch.role = .owner) :
    ch.established = false ∧ ch.settingUp := by
  have hest : ch.established = false := by
    by_contra hest
    rw [role_live_iff.2 (by simpa using hest)] at h
    exact absurd h (by simp)
  refine ⟨hest, ?_⟩
  by_cases hkrb : ch.krbPending.isSome = true
  · exact Or.inr hkrb
  · simp only [ChannelState.role, hest, hkrb] at h
    cases hp : ch.pending with
    | none => simp [hp] at h
    | some p =>
      refine Or.inl ⟨p, hp, ?_⟩
      by_contra hb
      simp [hp, hb] at h

theorem World.Audited.unfinished (hw : w.Audited) {s : SessionInner}
    (hs : w.shared.sessions.lookup sid = some s) (hest : s.established = false) :
    ∃ id c ch, w.conns.lookup id = some c ∧ c.proto.channels.lookup sid = some ch ∧
      ch.established = false ∧ ch.settingUp ∧
      ∀ id' c', w.conns.lookup id' = some c' → sid ∈ c'.proto.channels → id' = id := by
  have hsound := hw.slots sid
  have hphase : (w.slot sid).phase = .fresh := by simp [World.slot, hs, phaseOf, hest]
  rw [SharedLife.State.Sound, hphase] at hsound
  obtain ⟨id, howner, hothers⟩ := hsound
  replace howner : roleOf ((w.channelsAt id).lookup sid) = .owner := howner
  cases hc : w.conns.lookup id with
  | none => simp [World.channelsAt, hc, roleOf] at howner
  | some c =>
    rw [World.channelsAt_eq hc] at howner
    cases hch : c.proto.channels.lookup sid with
    | none => simp [hch, roleOf] at howner
    | some ch =>
      rw [hch] at howner
      obtain ⟨hidle, hset⟩ := settingUp_of_role howner
      refine ⟨id, c, ch, hc, hch, hidle, hset, fun id' c' hc' hmem => ?_⟩
      by_contra hne
      have hnone : roleOf ((w.channelsAt id').lookup sid) = .none := hothers id' hne
      obtain ⟨ch', hch'⟩ := Option.isSome_iff_exists.1 (AList.lookup_isSome.2 hmem)
      rw [World.channelsAt_eq hc', hch'] at hnone
      exact role_ne_none hnone

/-- Taking down the channels of other sessions leaves a session alone. -/
theorem teardown_other (os : Os σ) (l : List (Sigma fun _ : UInt64 => ChannelState))
    (sh : Shared σ) (h : sid ∉ l.keys) :
    (l.foldl (fun sh e => teardownChannel os sh e.1 e.2) sh).sessions.lookup sid =
      sh.sessions.lookup sid := by
  induction l generalizing sh with
  | nil => rfl
  | cons e l ih =>
    rw [List.keys_cons, List.mem_cons, not_or] at h
    rw [List.foldl_cons, ih _ h.2]
    obtain ⟨htorn, -⟩ := teardownChannel_torn os sh e.1 e.2
    generalize (teardownChannel os sh e.1 e.2).sessions = sessions at htorn ⊢
    generalize (teardownChannel os sh e.1 e.2).host.erase = host at htorn
    cases htorn with
    | dropped _ _ _ hdrop =>
      cases hdrop with
      | unknown => rfl
      | kept => exact AList.lookup_insert_ne h.1
      | ended => exact AList.lookup_erase_ne h.1
    | ended => exact AList.lookup_erase_ne h.1
    | kept => rfl

/-- When every connection is gone, so are the sessions and their handles. -/
theorem World.Audited.empty (hw : w.Audited) (hconns : w.conns = ∅) :
    w.shared.sessions = ∅ ∧
      (w.shared.host.finished : Multiset ℕ) = Multiset.range w.shared.host.opened := by
  have hnone : ∀ sid, w.shared.sessions.lookup sid = none := by
    intro sid
    have habsent : phaseOf (w.shared.sessions.lookup sid) = .absent :=
      (hw.slots sid).absent fun j => by
        simp [World.slot, World.roles, World.channelsAt, hconns, roleOf]
    cases hs : w.shared.sessions.lookup sid with
    | none => rfl
    | some s =>
      rw [hs, phaseOf] at habsent
      split_ifs at habsent
  have hempty : w.shared.sessions = ∅ := by
    refine AList.ext (List.eq_nil_iff_forall_not_mem.2 fun e he => ?_)
    have hlook : w.shared.sessions.lookup e.1 = some e.2 := AList.mem_lookup_iff.2 he
    exact absurd ((hnone e.1).symm.trans hlook) (by simp)
  refine ⟨hempty, ?_⟩
  have hserials := hw.handles.serials
  rw [hempty, handlesOf, FinMap.total_empty, zero_add] at hserials
  exact hserials

/-- **The session registry is consistent.**  Assume that no session id is drawn twice.  Then, after
any events on any connections, an established session counts the connections with an established
channel of it, of which there is one; an established channel has an established session; a session
that is not established is the unfinished setup of one connection, and each has few of them.  A
LOGOFF and the teardown of a connection find a count to take one from.  With the last connection
the registry is empty and every handle has gone through `finishClose`. -/
theorem registry_consistent (srv : Srv σ) (workers : ℕ) (os : σ) (es : List Event)
    (hnodup : ((World.start workers os).run srv es).shared.created.Nodup) :
    let w := (World.start workers os).run srv es
    (∀ sid s, w.shared.sessions.lookup sid = some s → s.established = true →
      s.channels = w.holders sid ∧ 1 ≤ s.channels) ∧
    (∀ id c sid ch, w.conns.lookup id = some c → c.proto.channels.lookup sid = some ch →
      ch.established = true →
      ∃ s, w.shared.sessions.lookup sid = some s ∧ s.established = true) ∧
    (∀ sid s, w.shared.sessions.lookup sid = some s → s.established = false →
      ∃ id c ch, w.conns.lookup id = some c ∧ c.proto.channels.lookup sid = some ch ∧
        ch.established = false ∧ ch.settingUp ∧
        ∀ id' c', w.conns.lookup id' = some c' → sid ∈ c'.proto.channels → id' = id) ∧
    (∀ id c, w.conns.lookup id = some c →
      ownedSetups w.shared.sessions c.proto.channels ≤ maxPendingSetups) ∧
    (∀ id bytes c m, w.taker id bytes = some c →
      m ∈ frameMembers srv w.shared c.proto bytes c.tx → m.px.shared.created.Nodup →
      ∀ sid ch s, m.px.pc.channels.lookup sid = some ch → ch.established = true →
        m.px.shared.sessions.lookup sid = some s → 1 ≤ s.channels) ∧
    (∀ id c l sid ch r, w.conns.lookup id = some c →
      c.proto.channels.entries = l ++ ⟨sid, ch⟩ :: r → ch.established = true →
      ∀ s, (l.foldl (fun sh e => teardownChannel srv.env.os sh e.1 e.2) w.shared).sessions.lookup
        sid = some s → 1 ≤ s.channels) ∧
    (w.conns = ∅ → w.shared.sessions = ∅ ∧
      (w.shared.host.finished : Multiset ℕ) = Multiset.range w.shared.host.opened) := by
  intro w
  have hw : w.Audited := World.run_audited srv workers os es hnodup
  have hknown : w.Known := World.run_known workers os es
  have hquiet : w.Quiet := World.run_quiet workers os es hnodup
  refine ⟨fun sid s hs hest => hw.established hs hest, fun id c sid ch hc hch hest => ?_,
    fun sid s hs hest => hw.unfinished hs hest, fun id c hc => (hw.core hc).few,
    fun id bytes c m hc hm hn sid ch s hch hest hs => ?_,
    fun id c l sid ch r hc hentries hest s hs => ?_, hw.empty⟩
  · obtain ⟨s, hs, hs', -⟩ := hw.bound hc hch hest
    exact ⟨s, hs, hs'⟩
  · -- inside a frame the connection has made moves
    have hlook := World.taker_lookup hc
    have hmoves := (member_moves srv w.shared c bytes hm id).1
    obtain ⟨haudited, -⟩ := hmoves.audited hn (hknown.core hlook) (hquiet id c hlook)
      (fun sid hsid j _ => hknown.roles hsid j) (hw.core hlook)
    obtain ⟨s', hs', -, hpos⟩ := session_of_live (haudited.slots sid) hch hest
    obtain rfl := Option.some.inj (hs'.symm.trans hs)
    exact hpos
  · -- the session is as it was when the teardown began
    have hkeys : sid ∉ l.keys := by
      have hnodup := c.proto.channels.nodupKeys
      rw [hentries, List.NodupKeys, List.keys, List.map_append, List.nodup_append] at hnodup
      exact fun hmem => hnodup.2.2 sid hmem sid (by simp) rfl
    rw [teardown_other srv.env.os l w.shared hkeys] at hs
    have hch : c.proto.channels.lookup sid = some ch :=
      AList.mem_lookup_iff.2 (by rw [hentries]; simp)
    obtain ⟨s', hs', -, hpos⟩ := hw.bound hc hch hest
    obtain rfl := Option.some.inj (hs'.symm.trans hs)
    exact hpos

end

open Sample in
/-- A client that logs in, and one that has hung up. -/
theorem registry_consistent_logIn :
    (∃ s ∈ ((World.start 1 {}).run (srv false false) logIn).shared.sessions.lookup 2,
      s.channels = ((World.start 1 {}).run (srv false false) logIn).holders 2) ∧
    ((World.start 1 {}).run (srv false false)
      (logIn ++ [.hangup conn, .finalize conn])).shared.sessions = ∅ := by
  constructor
  · obtain ⟨s, hs, hest⟩ : ∃ s ∈
        ((World.start 1 {}).run (srv false false) logIn).shared.sessions.lookup 2,
        s.established = true := by decide +kernel
    have hall := registry_consistent (srv false false) 1 {} logIn (by decide +kernel)
    exact ⟨s, hs, (hall.1 2 s hs hest).1⟩
  · obtain ⟨-, -, -, -, -, -, hempty⟩ := registry_consistent (srv false false) 1 {}
      (logIn ++ [.hangup conn, .finalize conn]) (by decide +kernel)
    exact (hempty (AList.ext (List.isEmpty_iff.1 (by decide +kernel)))).1

end RocketSmbd
