import RocketSmbd.Life.Slots

/-!
# An audit of the registry

What holds of the registry in every reachable world, if no session id is drawn twice: its sessions
are shared as they should be (`SharedLife.State.Sound`), no handle is lost (`Balanced`), and no
connection has many unfinished setups (`ownedSetups`).
-/

namespace RocketSmbd

open ByteString Vfs
open SharedLife (Role Phase Step)

variable {σ : Type}

/-! ### Handles -/

/-- The handles of a registry. -/
def handlesOf (sessions : Registry) : Multiset ℕ :=
  FinMap.total (fun _ s => serialsOf s.handles) sessions

/-- The books on handles balance: a session that is not established has none, and every handle
that was opened is in the registry or went through `finishClose`, once. -/
structure Balanced (sessions : Registry) (host : Host Unit) : Prop where
  idle : ∀ sid s, sessions.lookup sid = some s → s.established = false → serialsOf s.handles = 0
  serials : handlesOf sessions + (host.finished : Multiset ℕ) = Multiset.range host.opened

section

variable {srv : Srv σ} {l : Label} {k k' : Core} {id : ConnId} {roles : UInt64 → ConnId → Role}
  {sid : UInt64} {ch : ChannelState} {s s' : SessionInner} {sessions : Registry}
  {host host' : Host Unit}

theorem handlesOf_insert (h : sessions.lookup sid = some s)
    (hsame : serialsOf s'.handles = serialsOf s.handles) :
    handlesOf (sessions.insert sid s') = handlesOf sessions := by
  rw [handlesOf, handlesOf, FinMap.total_insert, FinMap.total_of_lookup _ h, hsame]

theorem handlesOf_insert_new (h : sid ∉ sessions) (hnone : serialsOf s'.handles = 0) :
    handlesOf (sessions.insert sid s') = handlesOf sessions := by
  rw [handlesOf, handlesOf, FinMap.total_insert, hnone, zero_add,
    FinMap.erase_of_lookup_none (FinMap.notMem_iff.1 h)]

theorem handlesOf_erase (h : sessions.lookup sid = some s) :
    handlesOf sessions = serialsOf s.handles + handlesOf (sessions.erase sid) :=
  FinMap.total_of_lookup _ h

/-- One session changes, and keeps its handles. -/
theorem Balanced.insert (hb : Balanced sessions host)
    (hsame : handlesOf (sessions.insert sid s') = handlesOf sessions)
    (hidle : s'.established = false → serialsOf s'.handles = 0) :
    Balanced (sessions.insert sid s') host := by
  refine ⟨fun sid₁ s₁ hlook hs₁ => ?_, by rw [hsame]; exact hb.serials⟩
  rw [FinMap.lookup_insert] at hlook
  split_ifs at hlook
  · obtain rfl := Option.some.inj hlook
    exact hidle hs₁
  · exact hb.idle sid₁ s₁ hlook hs₁

/-- A session goes, and its handles go through `finishClose`. -/
theorem Balanced.ended (hb : Balanced sessions host) (h : sessions.lookup sid = some s)
    (hclose : Host.Step (fun _ => False) (serialsOf s.handles) host host') :
    Balanced (sessions.erase sid) host' := by
  refine ⟨fun sid₁ s₁ hlook hs₁ => ?_, ?_⟩
  · rw [FinMap.lookup_erase] at hlook
    split_ifs at hlook
    exact hb.idle sid₁ s₁ hlook hs₁
  · rw [hclose.opened, hclose.finished, ← hb.serials, handlesOf_erase h]
    abel

theorem Balanced.dropped (hb : Balanced sessions host)
    {sessions' : Registry} (h : Dropped sessions host sid sessions' host') :
    Balanced sessions' host' := by
  cases h with
  | unknown => exact hb
  | kept s h => exact hb.insert (handlesOf_insert h rfl) (hb.idle sid s h)
  | ended s _ h _ hclose => exact hb.ended h hclose

theorem Balanced.served {lease : Bool} {pends : List NotifyPend}
    (hb : Balanced k.sessions k.host) (hlook : k.sessions.lookup sid = some s)
    (hest : s.established = true) (hserve : k.Served sid ch lease s s' host pends) :
    Balanced (k.sessions.insert sid s') host := by
  refine ⟨fun sid₁ s₁ hlook₁ hs₁ => ?_, ?_⟩
  · rw [FinMap.lookup_insert] at hlook₁
    split_ifs at hlook₁
    · obtain rfl := Option.some.inj hlook₁
      rw [hserve.identity.established, hest] at hs₁
      exact absurd hs₁ (by simp)
    · exact hb.idle sid₁ s₁ hlook₁ hs₁
  · have hserials := hserve.serials
    rw [← hb.serials, handlesOf_erase hlook] at hserials
    rw [handlesOf, FinMap.total_insert]
    refine add_left_cancel (a := serialsOf s.handles + (k.host.finished : Multiset ℕ)) ?_
    rw [← hserials, handlesOf]
    abel

theorem Move.balanced (h : Move srv l k k') (hquiet : k.Quiet)
    (hs : ∀ sid, (k.slot id (roles sid) sid).Sound) (hb : Balanced k.sessions k.host) :
    Balanced k'.sessions k'.host := by
  cases h with
  | begin sid _ _ hfresh => exact hb.insert (handlesOf_insert_new hfresh rfl) fun _ => rfl
  | abandon sid ch _ hch hset =>
    cases hlook : k.sessions.lookup sid with
    | none => rwa [FinMap.erase_of_lookup_none hlook]
    | some s =>
      -- the session of a setup has no handles
      have hrole : (k.slot id (roles sid) sid).role id = .owner := by
        rw [slot_role hch]
        exact role_owner (hquiet sid ch hch) hset
      have hnone := hb.idle sid s hlook (session_of_owner (hs sid) hrole hlook)
      refine hb.ended hlook ?_
      rw [hnone]
      exact .refl k.host
  | establish sid _ _ _ s s' _ _ _ _ _ hlook hest _ hhandles =>
    exact hb.insert (handlesOf_insert hlook (by rw [hhandles])) fun h => by simp [hest] at h
  | establishNew sid _ s' _ _ _ hfresh _ hest _ hhandles =>
    exact hb.insert (handlesOf_insert_new hfresh (by rw [hhandles]; rfl)) fun h => by
      simp [hest] at h
  | bind sid _ _ _ s _ _ _ _ _ hlook hest =>
    exact hb.insert (handlesOf_insert hlook rfl) fun h => by simp [hest] at h
  | logoff sid _ _ _ _ _ hdrop => exact hb.dropped hdrop
  | request sid ch _ s s' host pends hch hest hlook hserve =>
    obtain ⟨s₀, hlook₀, hest₀, -⟩ := session_of_live (hs sid) hch hest
    obtain rfl := Option.some.inj (hlook₀.symm.trans hlook)
    exact hb.served hlook hest₀ hserve
  | teardown sid ch _ _ _ htorn =>
    cases htorn with
    | dropped _ _ _ hdrop => exact hb.dropped hdrop
    | ended s _ _ hlook _ hclose => exact hb.ended hlook hclose
    | kept => exact hb
  | _ => exact hb

end

/-! ### Unfinished setups -/

/-- The number of channels that own a session in the registry whose setup is not finished. -/
def ownedSetups (sessions : Registry) (channels : FinMap UInt64 ChannelState) : ℕ :=
  FinMap.count (fun sid ch =>
    ¬ ch.established ∧ (sessions.lookup sid).any fun s => ¬ s.established) channels

section

variable {srv : Srv σ} {l : Label} {k k' : Core} {sid : UInt64} {ch ch' : ChannelState}
  {s s' : SessionInner} {sessions sessions' : Registry} {host host' : Host Unit}
  {channels channels' : FinMap UInt64 ChannelState}

/-- The unfinished sessions of `sessions'` are unfinished in `sessions`. -/
def NoneBegun (sessions sessions' : Registry) : Prop :=
  ∀ sid s', sessions'.lookup sid = some s' → s'.established = false →
    ∃ s, sessions.lookup sid = some s ∧ s.established = false

theorem NoneBegun.refl (sessions : Registry) : NoneBegun sessions sessions :=
  fun _ s h hs => ⟨s, h, hs⟩

theorem NoneBegun.insert (h : s'.established = false →
    ∃ s, sessions.lookup sid = some s ∧ s.established = false) :
    NoneBegun sessions (sessions.insert sid s') := by
  intro sid₁ s₁ hlook hs₁
  rw [FinMap.lookup_insert] at hlook
  split_ifs at hlook with heq
  · obtain rfl := Option.some.inj hlook
    exact heq ▸ h hs₁
  · exact ⟨s₁, hlook, hs₁⟩

theorem NoneBegun.erase : NoneBegun sessions (sessions.erase sid) := by
  intro sid₁ s₁ hlook hs₁
  rw [FinMap.lookup_erase] at hlook
  split_ifs at hlook
  exact ⟨s₁, hlook, hs₁⟩

theorem Dropped.noneBegun (h : Dropped sessions host sid sessions' host') :
    NoneBegun sessions sessions' := by
  cases h with
  | unknown => exact .refl _
  | kept s h => exact .insert fun hs => ⟨s, h, hs⟩
  | ended => exact .erase

theorem ownedSetups_mono (h : ∀ sid ch' s', channels'.lookup sid = some ch' →
      ch'.established = false → sessions'.lookup sid = some s' → s'.established = false →
      ∃ ch s, channels.lookup sid = some ch ∧ ch.established = false ∧
        sessions.lookup sid = some s ∧ s.established = false) :
    ownedSetups sessions' channels' ≤ ownedSetups sessions channels := by
  refine FinMap.count_le_count fun sid ch' hlook hun => ?_
  simp only [Bool.not_eq_true, Bool.decide_and, Bool.and_eq_true, decide_eq_true_eq] at hun
  obtain ⟨s', hs', hest'⟩ := any_eq_true.1 hun.2
  obtain ⟨ch, s, hch, hidle, hs, hest⟩ := h sid ch' s' hlook hun.1 hs' (by simpa using hest')
  exact ⟨ch, hch, by simp [hidle, hs, hest]⟩

section

variable (hsess : NoneBegun sessions sessions')
include hsess

theorem ownedSetups_le (hch : ∀ sid ch', channels'.lookup sid = some ch' → ch'.established = false →
      (∃ s', sessions'.lookup sid = some s' ∧ s'.established = false) →
      ∃ ch, channels.lookup sid = some ch ∧ ch.established = false) :
    ownedSetups sessions' channels' ≤ ownedSetups sessions channels := by
  refine ownedSetups_mono fun sid ch' s' hlook hidle' hs' hest' => ?_
  obtain ⟨ch, hch, hidle⟩ := hch sid ch' hlook hidle' ⟨s', hs', hest'⟩
  obtain ⟨s, hs, hest⟩ := hsess sid s' hs' hest'
  exact ⟨ch, s, hch, hidle, hs, hest⟩

theorem ownedSetups_insert (hch : ch'.established = false →
      (∃ s', sessions'.lookup sid = some s' ∧ s'.established = false) →
      ∃ ch, channels.lookup sid = some ch ∧ ch.established = false) :
    ownedSetups sessions' (channels.insert sid ch') ≤ ownedSetups sessions channels := by
  refine ownedSetups_le hsess fun sid₁ ch₁ hlook hidle hun => ?_
  rw [FinMap.lookup_insert] at hlook
  split_ifs at hlook with heq
  · obtain rfl := Option.some.inj hlook
    subst heq
    exact hch hidle hun
  · exact ⟨ch₁, hlook, hidle⟩

theorem ownedSetups_erase :
    ownedSetups sessions' (channels.erase sid) ≤ ownedSetups sessions channels := by
  refine ownedSetups_le hsess fun sid₁ ch₁ hlook hidle _ => ?_
  rw [FinMap.lookup_erase] at hlook
  split_ifs at hlook
  exact ⟨ch₁, hlook, hidle⟩

end

/-- A new setup counts with the channels that are not established. -/
theorem ownedSetups_begin (sessions : Registry) (channels : FinMap UInt64 ChannelState)
    (sid : UInt64) (ch : ChannelState) :
    ownedSetups sessions (channels.insert sid ch) ≤
      FinMap.count (fun _ c => ¬ c.established) channels + 1 := by
  have hle : ∀ m : FinMap UInt64 ChannelState, ownedSetups sessions m ≤
      FinMap.count (fun _ c => ¬ c.established) m :=
    fun m => FinMap.count_mono (fun _ _ h => by simp at h ⊢; exact h.1) m
  calc ownedSetups sessions (channels.insert sid ch)
      ≤ FinMap.count (fun _ c => ¬ c.established) (channels.insert sid ch) := hle _
    _ ≤ FinMap.count (fun _ c => ¬ c.established) (channels.erase sid) + 1 := by
        rw [FinMap.count_insert]
        split_ifs <;> omega
    _ ≤ FinMap.count (fun _ c => ¬ c.established) channels + 1 :=
        Nat.succ_le_succ (FinMap.count_erase_le _ _ _)

theorem Core.Lost.idle (h : k.Lost channels) :
    ∀ sid ch', channels.lookup sid = some ch' → ch'.established = false →
      ∃ ch, k.channels.lookup sid = some ch ∧ ch.established = false := by
  obtain ⟨sid₀, ch₀, hch₀, -, -, rfl⟩ := h
  intro sid ch' hlook hidle
  rw [FinMap.lookup_insert] at hlook
  split_ifs at hlook with heq
  · obtain rfl := Option.some.inj hlook
    exact ⟨ch₀, heq ▸ hch₀, hidle⟩
  · exact ⟨ch', hlook, hidle⟩

/-- A connection has few unfinished setups. -/
theorem Move.few (h : Move srv l k k')
    (hk : ownedSetups k.sessions k.channels ≤ maxPendingSetups) :
    ownedSetups k'.sessions k'.channels ≤ maxPendingSetups := by
  have hsame := NoneBegun.refl k.sessions
  cases h with
  | begin sid ch _ _ hfew => exact (ownedSetups_begin _ _ _ _).trans hfew
  | beginBind sid s _ _ hs hest =>
    refine (ownedSetups_insert hsame fun _ ⟨s', hs', hest'⟩ => ?_).trans hk
    obtain rfl := Option.some.inj (hs.symm.trans hs')
    simp [hest] at hest'
  | extend sid ch _ hch | spent sid ch _ _ hch | further sid ch _ _ hch | decrypt sid ch _ hch
  | sealHeld sid ch _ hch | completeSealed p _ _ ch _ _ _ hch =>
    exact (ownedSetups_insert hsame fun h _ => ⟨ch, hch, h⟩).trans hk
  | lost _ _ hlost =>
    exact (ownedSetups_le hsame fun sid ch' h hidle _ => hlost.idle sid ch' h hidle).trans hk
  | abandon => exact (ownedSetups_erase .erase).trans hk
  | unbind => exact (ownedSetups_erase hsame).trans hk
  | establish sid ch _ _ _ s' _ _ _ _ _ _ hest _ _ _ _ hkey
  | bind sid ch _ _ s _ _ _ _ _ hs hest hkey =>
    refine (ownedSetups_insert (.insert fun h => ?_) fun h _ => ?_).trans hk
    · simp [hest] at h
    · simp [hkey.established] at h
  | establishNew sid ch' s' _ _ channels _ hchs hest _ _ hkey =>
    refine (ownedSetups_le (.insert fun h => ?_) fun sid₁ ch₁ hlook hidle _ => ?_).trans hk
    · simp [hest] at h
    · dsimp only at hlook
      rw [FinMap.lookup_insert] at hlook
      split_ifs at hlook
      · obtain rfl := Option.some.inj hlook
        simp [hkey.established] at hidle
      · rcases hchs with rfl | hlost
        · exact ⟨ch₁, hlook, hidle⟩
        · exact hlost.idle sid₁ ch₁ hlook hidle
  | logoff _ _ _ _ _ _ hdrop => exact (ownedSetups_erase hdrop.noneBegun).trans hk
  | request sid ch _ s s' _ _ _ _ hs hserve =>
    refine (ownedSetups_le (.insert fun h => ?_) fun _ ch hch h _ => ⟨ch, hch, h⟩).trans hk
    exact ⟨s, hs, by rwa [hserve.identity.established] at h⟩
  | teardown sid ch _ _ _ htorn =>
    cases htorn with
    | dropped _ _ _ hdrop => exact (ownedSetups_erase hdrop.noneBegun).trans hk
    | ended => exact (ownedSetups_erase .erase).trans hk
    | kept => exact (ownedSetups_erase hsame).trans hk
  | negotiate | chainNeg | sealGone | silent | completeOpen | forget => exact hk

end

/-! ### Worlds -/

/-- The channels of the connection in slot `id`. -/
def World.channelsAt (w : World σ) (id : ConnId) : FinMap UInt64 ChannelState :=
  ((w.conns.lookup id).map fun c => c.proto.channels).getD ∅

/-- What the connections have to do with session `sid`. -/
def World.roles (w : World σ) (sid : UInt64) (id : ConnId) : Role :=
  roleOf ((w.channelsAt id).lookup sid)

def World.slot (w : World σ) (sid : UInt64) : SharedLife.State ConnId :=
  ⟨phaseOf (w.shared.sessions.lookup sid), w.roles sid⟩

/-- The registry is consistent with the connections. -/
structure World.Audited (w : World σ) : Prop where
  slots : ∀ sid, (w.slot sid).Sound
  handles : Balanced w.shared.sessions w.shared.host.erase
  few : ∀ id, ownedSetups w.shared.sessions (w.channelsAt id) ≤ maxPendingSetups

/-- The same of a connection among the connections with `roles`. -/
structure Core.Audited (k : Core) (id : ConnId) (roles : UInt64 → ConnId → Role) : Prop where
  slots : ∀ sid, (k.slot id (roles sid) sid).Sound
  handles : Balanced k.sessions k.host
  few : ownedSetups k.sessions k.channels ≤ maxPendingSetups

section

variable {srv : Srv σ} {ok : Label → Core → Prop} {k k' : Core} {id : ConnId}
  {roles : UInt64 → ConnId → Role}

/-- The moves of a connection keep the registry consistent, and begin no setup for another. -/
theorem Moves.audited (h : Moves srv ok k k') (hnodup : k'.created.Nodup) (hknown : k.Known)
    (hquiet : k.Quiet) (hroles : ∀ sid, sid ∉ k.created → ∀ j, j ≠ id → roles sid j = .none)
    (hk : k.Audited id roles) :
    k'.Audited id roles ∧ ∀ sid j, j ≠ id → roles sid j ≠ .none →
      phaseOf (k'.sessions.lookup sid) = .fresh → phaseOf (k.sessions.lookup sid) = .fresh := by
  refine (h.induct_quiet (P := fun a => k.created <+: a.created ∧ a.Audited id roles ∧
    ∀ sid j, j ≠ id → roles sid j ≠ .none → phaseOf (a.sessions.lookup sid) = .fresh →
      phaseOf (k.sessions.lookup sid) = .fresh) (fun l a b _ hm hka hq hb ⟨hpre, ha, hother⟩ => ?_)
    hnodup hknown hquiet ⟨List.prefix_refl _, hk, fun _ _ _ _ h => h⟩).2.2.2
  have hturns : ∀ sid, a.Turns b id (roles sid) sid := fun sid =>
    hm.slot hq hka hb (fun hsid => hroles sid fun hmem => hsid (hpre.subset hmem)) (ha.slots sid)
  refine ⟨hpre.trans hm.created_prefix, ⟨fun sid => ?_, hm.balanced hq ha.slots ha.handles,
    hm.few ha.few⟩, fun sid j hj hrole hfresh => ?_⟩
  · rcases hturns sid with h | h
    · exact h ▸ ha.slots sid
    · exact h.sound (ha.slots sid)
  · refine hother sid j hj hrole ?_
    rcases hturns sid with h | h
    · exact (congrArg SharedLife.State.phase h).symm.trans hfresh
    · have hnone : Function.update (roles sid) id (roleOf (a.channels.lookup sid)) j = .none :=
        h.fresh (ha.slots sid) hfresh j
      rw [Function.update_of_ne hj] at hnone
      exact absurd hnone hrole

end

section

variable {srv : Srv σ} {w w' : World σ} {id : ConnId} {c : Conn}

theorem World.channelsAt_eq (hc : w.conns.lookup id = some c) :
    w.channelsAt id = c.proto.channels := by
  rw [World.channelsAt, hc]
  rfl

theorem World.Audited.core (hw : w.Audited) (hc : w.conns.lookup id = some c) :
    (c.core w.shared).Audited id w.roles := by
  have hchannels : c.proto.channels = w.channelsAt id := (World.channelsAt_eq hc).symm
  have hfew : ownedSetups w.shared.sessions c.proto.channels ≤ maxPendingSetups :=
    hchannels ▸ hw.few id
  refine ⟨fun sid => ?_, hw.handles, hfew⟩
  have hslot : (c.core w.shared).slot id (w.roles sid) sid = w.slot sid := by
    show (⟨_, Function.update (w.roles sid) id (roleOf (c.proto.channels.lookup sid))⟩ :
      SharedLife.State ConnId) = w.slot sid
    rw [hchannels, show roleOf ((w.channelsAt id).lookup sid) = w.roles sid id from rfl,
      Function.update_eq_self]
    rfl
  rw [hslot]
  exact hw.slots sid

/-- An id that was not drawn is nobody's session. -/
theorem World.Known.roles (hw : w.Known) {sid : UInt64} (hsid : sid ∉ w.shared.created)
    (j : ConnId) : w.roles sid j = .none := by
  have hnone : (w.channelsAt j).lookup sid = none := by
    cases hc : w.conns.lookup j with
    | none => simp [World.channelsAt, hc]
    | some c =>
      rw [World.channelsAt_eq hc]
      exact FinMap.notMem_iff.1 fun hmem => hsid (hw.channels j c hc sid hmem)
  rw [World.roles, hnone]
  rfl

/-- Connection `id` has made moves to `k'`, and the others are as before. -/
theorem World.Audited.of_core {k' : Core} (hw : w.Audited) (hk' : k'.Audited id w.roles)
    (hbegun : ∀ sid j, j ≠ id → w.roles sid j ≠ .none →
      phaseOf (k'.sessions.lookup sid) = .fresh → phaseOf (w.shared.sessions.lookup sid) = .fresh)
    (hsessions : w'.shared.sessions = k'.sessions)
    (hopened : w'.shared.host.opened = k'.host.opened)
    (hfinished : w'.shared.host.finished = k'.host.finished)
    (hmine : w'.channelsAt id = k'.channels)
    (hothers : ∀ j, j ≠ id → w'.channelsAt j = w.channelsAt j) : w'.Audited := by
  refine ⟨fun sid => ?_, ⟨?_, ?_⟩, fun j => ?_⟩
  · have hroles : w'.roles sid =
        Function.update (w.roles sid) id (roleOf (k'.channels.lookup sid)) := by
      funext j
      by_cases hj : j = id
      · rw [hj, Function.update_self, World.roles, hmine]
      · rw [Function.update_of_ne hj, World.roles, World.roles, hothers j hj]
    have hslot : w'.slot sid = k'.slot id (w.roles sid) sid := by
      rw [World.slot, hsessions, hroles]
      rfl
    rw [hslot]
    exact hk'.slots sid
  · rw [hsessions]
    exact hk'.handles.idle
  · have hserials := hk'.handles.serials
    rw [← hsessions, ← hopened, ← hfinished] at hserials
    exact hserials
  · by_cases hj : j = id
    · rw [hj, hsessions, hmine]
      exact hk'.few
    · rw [hothers j hj]
      refine (ownedSetups_mono fun sid ch s' hch hidle hs' hest' => ?_).trans (hw.few j)
      have hrole : w.roles sid j ≠ .none := by
        rw [World.roles, hch]
        exact role_ne_none
      have hfresh := hbegun sid j hj hrole (by rw [← hsessions, hs']; simp [phaseOf, hest'])
      obtain ⟨s, hs, hest⟩ := phaseOf_eq_fresh hfresh
      exact ⟨ch, s, hch, hidle, hs, hest⟩

/-- Nothing that the audit looks at has changed. -/
theorem World.Audited.same (hw : w.Audited) (hsessions : w'.shared.sessions = w.shared.sessions)
    (hopened : w'.shared.host.opened = w.shared.host.opened)
    (hfinished : w'.shared.host.finished = w.shared.host.finished)
    (hchannels : ∀ j, w'.channelsAt j = w.channelsAt j) : w'.Audited := by
  refine ⟨fun sid => ?_, ⟨?_, ?_⟩, fun j => ?_⟩
  · have hslot : w'.slot sid = w.slot sid := by
      have hroles : w'.roles sid = w.roles sid := by
        funext j
        rw [World.roles, World.roles, hchannels]
      rw [World.slot, World.slot, hsessions, hroles]
    rw [hslot]
    exact hw.slots sid
  · rw [hsessions]
    exact hw.handles.idle
  · have hserials := hw.handles.serials
    rw [← hsessions] at hserials
    show handlesOf _ + (w'.shared.host.finished : Multiset ℕ) =
      Multiset.range w'.shared.host.opened
    rw [hopened, hfinished]
    exact hserials
  · rw [hsessions, hchannels]
    exact hw.few j

theorem Act.audited (h : Act srv anyMove (fun _ => True) w w') (hknown : w.Known)
    (hquiet : w.Quiet) (hnodup : w'.shared.created.Nodup) (hw : w.Audited) : w'.Audited := by
  have hroles : ∀ (id : ConnId) (sid : UInt64), sid ∉ w.shared.created →
      ∀ j, j ≠ id → w.roles sid j = .none := fun _ sid hsid j _ => hknown.roles hsid j
  cases h with
  | accept id hid =>
    unfold onAccept
    rw [if_neg hid]
    refine hw.same rfl rfl rfl fun j => ?_
    by_cases hj : j = id
    · -- a new connection has no channels, and there was none in its place
      have hnone := FinMap.notMem_iff.1 hid
      rw [hj, World.channelsAt, World.channelsAt, AList.lookup_insert, hnone]
      rfl
    · rw [World.channelsAt, World.channelsAt, AList.lookup_insert_ne hj]
  | serve id c c' sh hc hgen hmoves =>
    obtain ⟨haudited, hbegun⟩ := hmoves.audited hnodup (hknown.core hc) (hquiet id c hc)
      (hroles id) (hw.core hc)
    refine hw.of_core haudited hbegun rfl rfl rfl (World.channelsAt_eq (AList.lookup_insert _))
      fun j hj => ?_
    rw [World.channelsAt, World.channelsAt, AList.lookup_insert_ne hj]
  | deliver mailboxes conns _ hconns =>
    refine hw.same rfl rfl rfl fun j => ?_
    have hlife := congrArg (Option.map fun l : UInt16 × ProtoConn × List Watch => l.2.1.channels)
      (hconns j)
    rw [Option.map_map, Option.map_map] at hlife
    exact congrArg (fun o => Option.getD o ∅) hlife
  | drop id c sh gen _ hc hmoves =>
    obtain ⟨haudited, hbegun⟩ := hmoves.audited hnodup (hknown.core hc) (hquiet id c hc)
      (hroles id) (hw.core hc)
    refine hw.of_core haudited hbegun rfl rfl rfl ?_ fun j hj => ?_
    · rw [World.channelsAt, AList.lookup_erase]
      rfl
    · rw [World.channelsAt, World.channelsAt, AList.lookup_erase_ne hj]

theorem World.audited_start (workers : ℕ) (os : σ) : (World.start workers os).Audited := by
  refine ⟨fun sid => ?_, ⟨fun sid s h => ?_, rfl⟩, fun id => Nat.zero_le _⟩
  · show SharedLife.State.lives _ = ∅
    exact Set.eq_empty_iff_forall_notMem.2 fun j hj => absurd hj (by
      simp [SharedLife.State.lives, World.slot, World.roles, World.channelsAt, World.start, roleOf])
  · exact absurd h (by simp [World.start])

theorem World.run_audited (srv : Srv σ) (workers : ℕ) (os : σ) (es : List Event)
    (hnodup : ((World.start workers os).run srv es).shared.created.Nodup) :
    ((World.start workers os).run srv es).Audited := by
  have hstep : ∀ a b : World σ, Act srv anyMove (fun _ => True) a b →
      a.Known ∧ (a.shared.created.Nodup → a.Quiet ∧ a.Audited) →
      b.Known ∧ (b.shared.created.Nodup → b.Quiet ∧ b.Audited) := by
    intro a b hact ⟨hknown, ha⟩
    refine ⟨hact.known hknown, fun hb => ?_⟩
    obtain ⟨hquiet, haudited⟩ := ha (hact.created_prefix.sublist.nodup hb)
    exact ⟨hact.quiet hknown hquiet hb, hact.audited hknown hquiet hb haudited⟩
  exact ((World.run_invariant hstep (World.start workers os) es ⟨World.known_start workers os,
    fun _ => ⟨fun id c hc => absurd hc (by simp [World.start]),
      World.audited_start workers os⟩⟩).2 hnodup).2

end

end RocketSmbd
