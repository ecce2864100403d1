import RocketSmbd.Life.World

/-!
# Session ids

`created` lists the session ids that were ever drawn.  It only grows (`Act.created_prefix`), and
whatever names a session names one of them (`World.Known`): registry, channels, pended notifies,
leases and queued breaks.  Under the assumption that no id is drawn twice, `created.Nodup`, a fresh
session is therefore unknown to all of them.
-/

namespace RocketSmbd

open ByteString Vfs

variable {σ : Type}

/-- Every session id in sight was drawn. -/
structure Core.Known (k : Core) : Prop where
  sessions : ∀ sid ∈ k.sessions, sid ∈ k.created
  channels : ∀ sid ∈ k.channels, sid ∈ k.created
  pends : ∀ p ∈ k.pends, p.info.sessionId ∈ k.created
  held : ∀ g, k.host.leases.Held g → g.sessionId ∈ k.created
  queued : ∀ b, k.host.mailboxes.Queued b → b.sessionId ∈ k.created

section

variable {srv : Srv σ} {l : Label} {k k' : Core}
variable {V : Type} {created : List UInt64} {host host' : Host Unit} {m : FinMap UInt64 V}
  {sid : UInt64}

theorem mem_of_lookup {v : V} (h : m.lookup sid = some v) : sid ∈ m := by
  rw [← AList.lookup_isSome, h]
  rfl

theorem Move.created_prefix (h : Move srv l k k') : k.created <+: k'.created := by
  cases h with
  | begin sid | establishNew sid => exact List.prefix_append _ _
  | _ => exact List.prefix_refl _

/-- A table whose keys were drawn, changed at such a key. -/
theorem known_insert (v : V) (hm : ∀ s ∈ m, s ∈ created) (hsid : sid ∈ created) :
    ∀ s ∈ m.insert sid v, s ∈ created := by
  intro s hs
  rcases (AList.mem_insert _).1 hs with rfl | hs
  · exact hsid
  · exact hm s hs

theorem known_erase (hm : ∀ s ∈ m, s ∈ created) : ∀ s ∈ m.erase sid, s ∈ created :=
  fun s hs => hm s (AList.mem_erase.1 hs).2

theorem Core.Lost.known {channels : FinMap UInt64 ChannelState} (h : k.Lost channels)
    (hk : k.Known) : ∀ sid ∈ channels, sid ∈ k.created := by
  obtain ⟨sid, ch, hch, -, -, rfl⟩ := h
  exact known_insert _ hk.channels (hk.channels sid (mem_of_lookup hch))

/-- The part of this that concerns the registry and the host. -/
structure Drawn (created : List UInt64) (sessions : Registry) (host : Host Unit) : Prop where
  sessions : ∀ s ∈ sessions, s ∈ created
  held : ∀ g, host.leases.Held g → g.sessionId ∈ created
  queued : ∀ b, host.mailboxes.Queued b → b.sessionId ∈ created

section

variable {sessions sessions' : Registry} (hk : Drawn created sessions host)
include hk

theorem Host.Step.known {m : Multiset ℕ} (h : Host.Step (fun _ => False) m host host')
    (hs : ∀ s ∈ sessions', s ∈ created) : Drawn created sessions' host' := by
  refine ⟨hs, fun g hg => (h.held g hg).elim (hk.held g) False.elim, fun b hb => ?_⟩
  rcases h.queued b hb with hb | ⟨g, hg, rfl⟩
  · exact hk.queued b hb
  · exact hg.elim (hk.held g) False.elim

theorem Dropped.known (h : Dropped sessions host sid sessions' host') :
    Drawn created sessions' host' := by
  cases h with
  | unknown => exact hk
  | kept s hlook =>
    exact { hk with sessions := known_insert _ hk.sessions (hk.sessions sid (mem_of_lookup hlook)) }
  | ended s _ _ _ hclose => exact Host.Step.known hk hclose (known_erase hk.sessions)

theorem Torn.known {ch : ChannelState} (h : Torn sessions host sid ch sessions' host') :
    Drawn created sessions' host' := by
  cases h with
  | dropped _ _ _ h => exact Dropped.known hk h
  | ended s _ _ _ _ hclose => exact Host.Step.known hk hclose (known_erase hk.sessions)
  | kept => exact hk

end

/-- What is known stays known when an id is drawn. -/
theorem Core.Known.draw (hk : k.Known) (sid : UInt64) :
    Core.Known { k with created := k.created ++ [sid] } where
  sessions := fun s hs => List.mem_append_left _ (hk.sessions s hs)
  channels := fun s hs => List.mem_append_left _ (hk.channels s hs)
  pends := fun p hp => List.mem_append_left _ (hk.pends p hp)
  held := fun g hg => List.mem_append_left _ (hk.held g hg)
  queued := fun b hb => List.mem_append_left _ (hk.queued b hb)

theorem Move.known (h : Move srv l k k') (hk : k.Known) : k'.Known := by
  have hchannel : ∀ {sid ch}, k.channels.lookup sid = some ch → sid ∈ k.created :=
    fun hch => hk.channels _ (mem_of_lookup hch)
  have hsession : ∀ {sid s}, k.sessions.lookup sid = some s → sid ∈ k.created :=
    fun hs => hk.sessions _ (mem_of_lookup hs)
  have hfresh : ∀ sid : UInt64, sid ∈ k.created ++ [sid] :=
    fun sid => List.mem_append_right _ (List.mem_singleton_self sid)
  cases h with
  | negotiate | chainNeg | sealGone | silent | completeOpen =>
    exact ⟨hk.sessions, hk.channels, hk.pends, hk.held, hk.queued⟩
  | begin sid ch =>
    exact { hk.draw sid with
      sessions := known_insert _ (hk.draw sid).sessions (hfresh sid)
      channels := known_insert _ (hk.draw sid).channels (hfresh sid) }
  | beginBind sid s _ _ hs =>
    exact { hk with channels := known_insert _ hk.channels (hsession hs) }
  | extend sid ch _ hch | spent sid ch _ _ hch | further sid ch _ _ hch | decrypt sid ch _ hch
  | sealHeld sid ch _ hch | completeSealed p _ _ ch _ _ _ hch =>
    exact { hk with channels := known_insert _ hk.channels (hchannel hch) }
  | lost sid channels h => exact { hk with channels := h.known hk }
  | abandon sid ch _ hch =>
    exact { hk with sessions := known_erase hk.sessions, channels := known_erase hk.channels }
  | unbind sid ch => exact { hk with channels := known_erase hk.channels }
  | establish sid ch _ _ _ _ _ _ _ hch | bind sid ch _ _ _ _ _ hch =>
    exact { hk with
      sessions := known_insert _ hk.sessions (hchannel hch)
      channels := known_insert _ hk.channels (hchannel hch) }
  | establishNew sid _ _ _ _ channels _ hchs =>
    have hkept : ∀ s ∈ channels, s ∈ k.created := by
      rcases hchs with rfl | hlost
      · exact hk.channels
      · exact hlost.known hk
    exact { hk.draw sid with
      sessions := known_insert _ (hk.draw sid).sessions (hfresh sid)
      channels := known_insert _ (fun s hs => List.mem_append_left _ (hkept s hs)) (hfresh sid) }
  | logoff sid ch _ _ _ _ hdrop =>
    obtain ⟨hs, hheld, hqueued⟩ := Dropped.known ⟨hk.sessions, hk.held, hk.queued⟩ hdrop
    exact ⟨hs, known_erase hk.channels, hk.pends, hheld, hqueued⟩
  | request sid ch lease s s' host pends hch _ _ hserve =>
    have hsid := hchannel hch
    refine ⟨known_insert _ hk.sessions hsid, hk.channels, fun p hp => ?_, fun g hg => ?_,
      fun b hb => ?_⟩
    · rcases hserve.pends p hp with hp | ⟨-, heq⟩
      · exact hk.pends p hp
      · rwa [heq]
    · rcases hserve.held g hg with hg | ⟨-, -, heq⟩
      · exact hk.held g hg
      · rwa [heq]
    · rcases hserve.queued b hb with hb | ⟨g, hg, rfl⟩
      · exact hk.queued b hb
      · show g.sessionId ∈ k.created
        rcases hg with hg | ⟨-, -, heq⟩
        · exact hk.held g hg
        · rwa [heq]
  | forget pends hp => exact { hk with pends := fun p h => hk.pends p (hp p h) }
  | teardown sid ch _ _ _ htorn =>
    obtain ⟨hs, hheld, hqueued⟩ := Torn.known ⟨hk.sessions, hk.held, hk.queued⟩ htorn
    exact ⟨hs, known_erase hk.channels, hk.pends, hheld, hqueued⟩

theorem Moves.known {ok : Label → Core → Prop} (h : Moves srv ok k k') (hk : k.Known) :
    k'.Known := h.induct (fun _ _ _ _ hm ha => hm.known ha) hk

theorem Moves.created_prefix {ok : Label → Core → Prop} (h : Moves srv ok k k') :
    k.created <+: k'.created :=
  h.induct (P := fun a => k.created <+: a.created)
    (fun _ _ _ _ hm ha => ha.trans hm.created_prefix) (List.prefix_refl _)

end

/-! ### Worlds -/

/-- Every session id in sight was drawn. -/
structure World.Known (w : World σ) : Prop where
  sessions : ∀ sid ∈ w.shared.sessions, sid ∈ w.shared.created
  held : ∀ g, w.shared.host.leases.Held g → g.sessionId ∈ w.shared.created
  queued : ∀ b, w.shared.host.mailboxes.Queued b → b.sessionId ∈ w.shared.created
  channels : ∀ id c, w.conns.lookup id = some c → ∀ sid ∈ c.proto.channels,
    sid ∈ w.shared.created
  pends : ∀ id c, w.conns.lookup id = some c → ∀ p ∈ c.pends,
    p.info.sessionId ∈ w.shared.created

section

variable {srv : Srv σ} {ok : ConnId → Label → Core → Prop} {gone : ConnId → Prop}
  {w w' : World σ}

theorem World.Known.core (hw : w.Known) {id : ConnId} {c : Conn}
    (hc : w.conns.lookup id = some c) : (c.core w.shared).Known :=
  ⟨hw.sessions, hw.channels id c hc, hw.pends id c hc, hw.held, hw.queued⟩

theorem Conn.pends_of_life {c c' : Conn} (h : c'.life = c.life) : c'.pends = c.pends := by
  have hproto : c'.proto = c.proto := congrArg (fun l => l.2.1) h
  have hwatches : c'.watches = c.watches := congrArg (fun l => l.2.2) h
  rw [Conn.pends, Conn.pends, hproto, hwatches]

theorem Act.created_prefix (h : Act srv ok gone w w') :
    w.shared.created <+: w'.shared.created := by
  cases h with
  | accept id hid =>
    unfold onAccept
    rw [if_neg hid]
  | serve id c c' sh hc _ hmoves | drop id c sh gen _ hc hmoves => exact hmoves.created_prefix
  | deliver => exact List.prefix_refl _

/-- What one connection's moves leave known to the rest of the world. -/
theorem World.Known.conns_of_fate (hw : w.Known) (h : Act srv ok gone w w') {id : ConnId}
    {c' : Conn} (hc' : w'.conns.lookup id = some c') :
    (∀ sid ∈ c'.proto.channels, sid ∈ w'.shared.created) ∧
      ∀ p ∈ c'.pends, p.info.sessionId ∈ w'.shared.created := by
  have hsub := h.created_prefix.subset
  cases h.fate hc' with
  | new hnone hproto hwatches =>
    refine ⟨fun sid hsid => ?_, fun p hp => ?_⟩
    · rw [hproto] at hsid
      exact absurd hsid (AList.notMem_empty _)
    · rw [Conn.pends, hwatches, hproto] at hp
      exact absurd hp List.not_mem_nil
  | same c hc hlife =>
    have hproto : c'.proto = c.proto := congrArg (fun l => l.2.1) hlife
    rw [Conn.pends_of_life hlife, hproto]
    exact ⟨fun sid hsid => hsub (hw.channels id c hc sid hsid),
      fun p hp => hsub (hw.pends id c hc p hp)⟩
  | moved c hc _ hmoves =>
    have hknown := hmoves.known (hw.core hc)
    exact ⟨hknown.channels, hknown.pends⟩

theorem Act.known (h : Act srv ok gone w w') (hw : w.Known) : w'.Known := by
  have hconns := fun (id : ConnId) (c' : Conn) (hc' : w'.conns.lookup id = some c') =>
    hw.conns_of_fate h hc'
  refine ⟨?_, ?_, ?_, fun id c hc => (hconns id c hc).1, fun id c hc => (hconns id c hc).2⟩
  all_goals
    cases h with
    | accept id hid =>
      unfold onAccept
      rw [if_neg hid]
      first | exact hw.sessions | exact hw.held | exact hw.queued
    | serve id c c' sh hc _ hmoves =>
      have hknown := hmoves.known (hw.core hc)
      first | exact hknown.sessions | exact hknown.held | exact hknown.queued
    | deliver mailboxes _ hmail =>
      first | exact hw.sessions | exact hw.held | exact fun b hb => hw.queued b (hmail b hb)
    | drop id c sh gen _ hc hmoves =>
      have hknown := hmoves.known (hw.core hc)
      first
        | exact hknown.sessions
        | exact fun g hg => hknown.held g (LeaseTable.held_releaseConn hg).1
        | exact hknown.queued

theorem World.known_start (workers : ℕ) (os : σ) : (World.start workers os).Known where
  sessions := fun _ h => absurd h (AList.notMem_empty _)
  held := fun g h => absurd h (LeaseTable.not_held_empty g)
  queued := by
    rintro b ⟨q, hq, hb⟩
    rw [List.eq_of_mem_replicate hq] at hb
    exact absurd hb List.not_mem_nil
  channels := fun _ _ h => absurd h (by simp [World.start])
  pends := fun _ _ h => absurd h (by simp [World.start])

/-- The moves of a run that nothing is required of. -/
def anyMove (_ : ConnId) (_ : Label) (_ : Core) : Prop := True

theorem lenient_anyMove (id : ConnId) : Lenient (anyMove id) :=
  ⟨fun _ => trivial, fun _ => trivial, fun _ => trivial⟩

theorem Event.permitted_anyMove (srv : Srv σ) (w : World σ) (e : Event) :
    e.Permitted srv anyMove w := by
  cases e with
  | frame id bytes =>
    exact fun c hc => ⟨fun _ => trivial, fun _ _ _ _ => trivial, fun _ _ => trivial⟩
  | _ => trivial

theorem World.always_of_forall {P : World σ → Event → Prop} (hP : ∀ w e, P w e) (w : World σ)
    (es : List Event) : w.Always srv P es := by
  induction es generalizing w with
  | nil => trivial
  | cons e es ih => exact ⟨hP w e, ih _⟩

/-- **What every act keeps holds in every reachable world.** -/
theorem World.run_invariant {P : World σ → Prop}
    (hP : ∀ a b, Act srv anyMove (fun _ => True) a b → P a → P b) (w : World σ)
    (es : List Event) (hw : P w) : P (w.run srv es) :=
  World.run_induct srv lenient_anyMove hP w es
    (World.always_of_forall (Event.permitted_anyMove srv) w es) (fun _ _ => trivial) hw

/-- The states of connection `id` that a run from `w` passes through before its first event is
over: the one in `w`, and those between the requests of a frame. -/
inductive World.Sees (srv : Srv σ) (w : World σ) (id : ConnId) : List Event → ProtoConn → Prop
  | now (c : Conn) (es : List Event) (hc : w.conns.lookup id = some c) : Sees srv w id es c.proto
  | within (bytes : Bytes) (es : List Event) (c : Conn) (m : Member σ)
      (hc : w.taker id bytes = some c)
      (hm : m ∈ frameMembers srv w.shared c.proto bytes c.tx) :
    Sees srv w id (.frame id bytes :: es) (dispatch srv m.hdr m.msg m.px).1.pc

/-- The moves up to the dispatch of a member, and in it. -/
theorem member_moves (srv : Srv σ) (sh : Shared σ) (c : Conn) (bytes : Bytes) {m : Member σ}
    (hm : m ∈ frameMembers srv sh c.proto bytes c.tx) (id : ConnId) :
    Moves srv (anyMove id) (c.core sh)
        (m.px.core c.watched (frameKey srv.env.crypto c.proto bytes)) ∧
      Moves srv (anyMove id) (c.core sh) ((dispatch srv m.hdr m.msg m.px).1.core c.watched
        (frameKey srv.env.crypto c.proto bytes)) := by
  have hbefore := @frameMembers_moves σ srv c.watched (anyMove id) sh c.proto bytes c.tx
    (fun _ => trivial) (fun _ _ _ _ => trivial) m hm
  exact ⟨hbefore, hbefore.trans
    ((dispatch_move srv m.hdr m.msg c.watched _ m.px).moves fun _ _ => trivial)⟩

/-- Every state that a run passes through is reached by moves. -/
theorem World.Sees.moves {id : ConnId} {es : List Event} {pc : ProtoConn}
    (h : w.Sees srv id es pc) :
    ∃ c k, w.conns.lookup id = some c ∧ Moves srv (anyMove id) (c.core w.shared) k ∧
      k.channels = pc.channels := by
  cases h with
  | now c es hc => exact ⟨c, _, hc, .refl _, rfl⟩
  | within bytes es c m hc hm =>
    exact ⟨c, _, World.taker_lookup hc, (member_moves srv w.shared c bytes hm id).2, rfl⟩

theorem World.run_known (workers : ℕ) (os : σ) (es : List Event) :
    ((World.start workers os).run srv es).Known :=
  World.run_invariant (fun _ _ h hw => h.known hw) _ es (World.known_start workers os)

end

end RocketSmbd
