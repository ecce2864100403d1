import RocketSmbd.Safety.Registry

/-!
# Leases and their sessions

A lease is granted on an established channel, and a connection that goes takes its leases with it.
What is left is LOGOFF: it removes the channel while the connection stays, and releases only the
leases of handles that it closes and that do not cache the handle.  In runs in which that accounts
for every lease of the session on the connection (`Event.LogsOffFree`), each lease names a live
connection with an established channel of a registered session.
-/

namespace RocketSmbd

open ByteString Vfs

variable {σ : Type}

/-- The connection that a grant names: its worker, its slot and the generation of that. -/
def LeaseGrant.conn (g : LeaseGrant) : ℕ × ℕ × UInt16 := (g.wid, g.connIdx, g.connGen)

/-- The end of session `sid` releases the grant `g` on file `key`: its last channel is about to go,
and one of its handles frees the grant. -/
def Registry.Frees (sessions : Registry) (sid : UInt64) (key : LeaseFile) (g : LeaseGrant) : Prop :=
  ∃ s ∈ sessions.lookup sid, s.channels = 1 ∧ ∃ of ∈ s.handles.live, of.Frees key g

instance (sessions : Registry) (sid : UInt64) (key : LeaseFile) (g : LeaseGrant) :
    Decidable (sessions.Frees sid key g) :=
  inferInstanceAs (Decidable (∃ s ∈ sessions.lookup sid, _))

/-! ### One connection -/

/-- The grants of a connection are on established channels of it; the others satisfy `rest`. -/
structure Core.Leased (k : Core) (rest : LeaseGrant → Prop) : Prop where
  own : ∀ g, k.host.leases.Held g → g.conn = k.conn →
    ∃ ch, k.channels.lookup g.sessionId = some ch ∧ ch.established = true
  others : ∀ g, k.host.leases.Held g → g.conn ≠ k.conn → rest g

/-- The end of session `sid` would release every grant to it on this connection. -/
def Core.LogsOffFree (k : Core) (sid : UInt64) : Prop :=
  ∀ key g, k.host.leases.HeldAt key g → g.conn = k.conn → g.sessionId = sid →
    k.sessions.Frees sid key g

section

variable {srv : Srv σ} {l : Label} {k k' : Core} {g : LeaseGrant}

theorem Move.conn_eq (h : Move srv l k k') : k'.conn = k.conn := by
  cases h <;> rfl

theorem Dropped.held {sessions sessions' : Registry} {host host' : Host Unit} {sid : UInt64}
    (h : Dropped sessions host sid sessions' host') (hg : host'.leases.Held g) :
    host.leases.Held g := by
  cases h with
  | unknown | kept => exact hg
  | ended _ _ _ _ hclose =>
    rcases hclose.held g hg with hg | hg
    · exact hg
    · exact hg.elim

/-- Only a request grants a lease, and only on an established channel. -/
theorem Move.held (h : Move srv l k k') (hg : k'.host.leases.Held g) :
    k.host.leases.Held g ∨ (g.conn = k.conn ∧
      ∃ ch, k.channels.lookup g.sessionId = some ch ∧ ch.established = true) := by
  cases h with
  | request sid ch _ _ _ _ _ hch hest _ hserve =>
    rcases hserve.held g hg with hg | ⟨-, hconn, hsid⟩
    · exact Or.inl hg
    · exact Or.inr ⟨hconn, ch, by rw [hsid]; exact hch, hest⟩
  | logoff _ _ _ _ _ _ hdrop => exact Or.inl (hdrop.held hg)
  | teardown _ _ _ _ _ htorn =>
    cases htorn with
    | dropped _ _ _ hdrop => exact Or.inl (hdrop.held hg)
    | ended _ _ _ _ _ hclose =>
      rcases hclose.held g hg with hg | hg
      · exact Or.inl hg
      · exact hg.elim
    | kept => exact Or.inl hg
  | _ => exact Or.inl hg

/-- A LOGOFF that releases the grants of its session on the connection leaves none of them. -/
theorem Move.not_held {sid : UInt64} (h : Move srv (.logoff sid) k k') (hfree : k.LogsOffFree sid)
    (hg : k'.host.leases.Held g) (hconn : g.conn = k.conn) : g.sessionId ≠ sid := by
  intro hsid
  obtain ⟨key, hat⟩ := hg
  cases h with
  | logoff _ _ sessions host _ _ hdrop =>
    cases hdrop with
    | unknown hnone =>
      obtain ⟨s, hs, -⟩ := hfree key g hat hconn hsid
      exact absurd (hnone.symm.trans hs) (by simp)
    | kept s hs hc =>
      obtain ⟨s', hs', hone, -⟩ := hfree key g hat hconn hsid
      obtain rfl := Option.some.inj (hs.symm.trans hs')
      exact hc (by rw [hone])
    | ended s _ hs _ _ hclosed =>
      obtain ⟨hbefore, hnone⟩ := hclosed key g hat
      obtain ⟨s', hs', -, of, hof, hfrees⟩ := hfree key g hbefore hconn hsid
      obtain rfl := Option.some.inj (hs.symm.trans hs')
      exact hnone of hof hfrees

theorem Move.leased {rest : LeaseGrant → Prop} (h : Move srv l k k')
    (hlogoff : ∀ sid, l = .logoff sid → k.LogsOffFree sid) (hteardown : l ≠ .teardown)
    (hknown : k.Known) (hquiet : k.Quiet) (hnodup : k'.created.Nodup) (hk : k.Leased rest) :
    k'.Leased rest := by
  constructor
  · intro g hg hconn
    rw [h.conn_eq] at hconn
    obtain ⟨ch, hch, hest⟩ : ∃ ch, k.channels.lookup g.sessionId = some ch ∧
        ch.established = true := by
      rcases h.held hg with hold | ⟨-, hnew⟩
      · exact hk.own g hold hconn
      · exact hnew
    have hstays : l ≠ .logoff g.sessionId := by
      rintro rfl
      exact h.not_held (hlogoff _ rfl) hg hconn rfl
    obtain ⟨ch', hch'⟩ := h.lookup_isSome hstays hteardown hquiet hch hest
    exact ⟨ch', hch', ((h.became hch').in_use hch hest hquiet hknown hnodup).established⟩
  · intro g hg hconn
    rw [h.conn_eq] at hconn
    rcases h.held hg with hold | ⟨hown, -⟩
    · exact hk.others g hold hconn
    · exact absurd hown hconn

theorem Moves.conn_eq {ok : Label → Core → Prop} (h : Moves srv ok k k') : k'.conn = k.conn :=
  h.induct (P := fun a => a.conn = k.conn) (fun _ _ _ _ hm ha => hm.conn_eq.trans ha) rfl

/-- A connection that is taken down is granted nothing. -/
theorem Moves.held_of_teardown (h : Moves srv (fun l _ => l = .teardown) k k')
    (hg : k'.host.leases.Held g) : k.host.leases.Held g := by
  refine h.induct (P := fun a => a.host.leases.Held g → k.host.leases.Held g)
    (fun l a b hl hm ha hb => ?_) id hg
  subst hl
  cases hm with
  | teardown _ _ _ _ _ htorn =>
    cases htorn with
    | dropped _ _ _ hdrop => exact ha (hdrop.held hb)
    | ended _ _ _ _ _ hclose =>
      rcases hclose.held g hb with hb | hb
      · exact ha hb
      · exact hb.elim
    | kept => exact ha hb

end

/-! ### Worlds -/

/-- Every connection knows the place it is in. -/
def World.Placed (w : World σ) : Prop :=
  ∀ id c, w.conns.lookup id = some c → (c.core w.shared).conn = (id.1, id.2, c.gen)

/-- Every grant names a live connection with an established channel of its session. -/
def World.Leased (w : World σ) : Prop :=
  ∀ g, w.shared.host.leases.Held g → ∃ c ch, w.conns.lookup (g.wid, g.connIdx) = some c ∧
    c.gen = g.connGen ∧ c.proto.channels.lookup g.sessionId = some ch ∧ ch.established = true

section

variable {srv : Srv σ} {ok : ConnId → Label → Core → Prop} {gone : ConnId → Prop}
  {w w' : World σ}

theorem Act.placed (h : Act srv ok gone w w') (hw : w.Placed) : w'.Placed := by
  intro id c' hc'
  cases h.fate hc' with
  | new _ hproto _ =>
    show (c'.proto.wid, c'.proto.connIdx, c'.proto.connGen) = _
    rw [hproto]
    rfl
  | same c hc hlife =>
    have hproto : c'.proto = c.proto := congrArg (fun l => l.2.1) hlife
    have hgen : c'.gen = c.gen := congrArg (fun l => l.1) hlife
    show (c'.proto.wid, c'.proto.connIdx, c'.proto.connGen) = _
    rw [hproto, hgen]
    exact hw id c hc
  | moved c hc hgen hmoves => rw [hmoves.conn_eq, hw id c hc, hgen]

/-- A grant that names the place of connection `c` names `c` itself. -/
theorem World.Placed.conn_iff (hw : w.Placed) {id : ConnId} {c : Conn}
    (hc : w.conns.lookup id = some c) (g : LeaseGrant) :
    g.conn = (c.core w.shared).conn ↔ (g.wid, g.connIdx) = id ∧ c.gen = g.connGen := by
  rw [hw id c hc]
  obtain ⟨i, j⟩ := id
  simp only [LeaseGrant.conn, Prod.mk.injEq]
  tauto

theorem World.Leased.core (hw : w.Leased) (hplaced : w.Placed) {id : ConnId} {c : Conn}
    (hc : w.conns.lookup id = some c) : (c.core w.shared).Leased w.shared.host.leases.Held where
  own := by
    intro g hg hconn
    obtain ⟨c₁, ch, hc₁, -, hch, hest⟩ := hw g hg
    rw [((hplaced.conn_iff hc g).1 hconn).1, hc] at hc₁
    obtain rfl := Option.some.inj hc₁
    exact ⟨ch, hch, hest⟩
  others := fun g hg _ => hg

theorem Act.leased (h : Act srv ok gone w w')
    (hok : ∀ id sid k, ok id (.logoff sid) k → k.LogsOffFree sid) (hknown : w.Known)
    (hquiet : w.Quiet) (hnodup : w'.shared.created.Nodup) (hplaced : w.Placed) (hw : w.Leased) :
    w'.Leased := by
  intro g hg
  cases h with
  | accept id hid =>
    unfold onAccept at hg ⊢
    rw [if_neg hid] at hg ⊢
    obtain ⟨c, ch, hc, hrest⟩ := hw g hg
    refine ⟨c, ch, ?_, hrest⟩
    dsimp only
    rw [FinMap.lookup_insert, if_neg, hc]
    rintro rfl
    exact hid (AList.lookup_isSome.1 (by rw [hc]; rfl))
  | serve id c c' sh hc hgen hmoves =>
    obtain ⟨-, -, hleased⟩ := hmoves.induct_quiet
      (P := fun k => k.Leased w.shared.host.leases.Held)
      (fun l a b hl hm ha hq hb hP => hm.leased
        (fun sid hlabel => hok id sid a (hlabel ▸ hl.1)) hl.2 ha hq hb hP)
      hnodup (hknown.core hc) (hquiet id c hc) (hw.core hplaced hc)
    have hsame := hmoves.conn_eq
    by_cases hown : g.conn = (c.core w.shared).conn
    · obtain ⟨ch, hch, hest⟩ := hleased.own g hg (hown.trans hsame.symm)
      obtain ⟨hid, hcgen⟩ := (hplaced.conn_iff hc g).1 hown
      refine ⟨c', ch, ?_, hgen.trans hcgen, hch, hest⟩
      dsimp only
      rw [FinMap.lookup_insert, if_pos hid]
    · obtain ⟨c₁, ch, hc₁, hgen₁, hrest⟩ := hw g (hleased.others g hg (hsame ▸ hown))
      refine ⟨c₁, ch, ?_, hgen₁, hrest⟩
      dsimp only
      rw [FinMap.lookup_insert, if_neg, hc₁]
      intro hid
      rw [hid, hc] at hc₁
      obtain rfl := Option.some.inj hc₁
      exact hown ((hplaced.conn_iff hc g).2 ⟨hid, hgen₁⟩)
  | deliver mailboxes conns _ hconns =>
    obtain ⟨c, ch, hc, hgen, hch, hest⟩ := hw g hg
    have hlife := hconns (g.wid, g.connIdx)
    rw [hc] at hlife
    obtain ⟨c', hc', hsame⟩ := Option.map_eq_some_iff.1 hlife
    have hproto : c'.proto = c.proto := congrArg (fun l => l.2.1) hsame
    have hgen' : c'.gen = c.gen := congrArg (fun l => l.1) hsame
    exact ⟨c', ch, hc', hgen'.trans hgen, hproto ▸ hch, hest⟩
  | drop id c sh gen _ hc hmoves =>
    obtain ⟨hheld, hother⟩ := LeaseTable.held_releaseConn hg
    obtain ⟨c₁, ch, hc₁, hgen₁, hrest⟩ := hw g (hmoves.held_of_teardown hheld)
    refine ⟨c₁, ch, ?_, hgen₁, hrest⟩
    dsimp only
    rw [FinMap.lookup_erase, if_neg, hc₁]
    intro hid
    rw [hid, hc] at hc₁
    obtain rfl := Option.some.inj hc₁
    refine hother ?_
    simp [LeaseTable.heldBy, ← hid, hgen₁]

end

/-! ### Runs -/

/-- A LOGOFF that comes to its handler finds no grant to its session on its connection but those
that the end of the session releases. -/
def Member.LogsOffFree (cr : Crypto) (m : Member σ) : Prop :=
  m.hdr.command = cmdLogoff → m.px.Reaches cr m.hdr m.msg →
    ∀ e ∈ m.px.shared.host.leases.entries, ∀ g ∈ e.2,
      g.conn = (m.px.pc.wid, m.px.pc.connIdx, m.px.pc.connGen) →
      g.sessionId = effective m.hdr m.px.chain →
      m.px.shared.sessions.Frees (effective m.hdr m.px.chain) e.1 g

instance (cr : Crypto) (m : Member σ) : Decidable (m.LogsOffFree cr) :=
  inferInstanceAs (Decidable (_ → _ → ∀ e ∈ m.px.shared.host.leases.entries, ∀ g ∈ e.2, _))

/-- Every LOGOFF of the event releases the grants to its session on its connection. -/
def Event.LogsOffFree (srv : Srv σ) (w : World σ) : Event → Prop
  | .frame id bytes => ∀ c ∈ w.taker id bytes,
    ∀ m ∈ frameMembers srv w.shared c.proto bytes c.tx, m.LogsOffFree srv.env.crypto
  | _ => True

instance (srv : Srv σ) (w : World σ) : ∀ e : Event, Decidable (e.LogsOffFree srv w)
  | .frame id bytes => inferInstanceAs (Decidable (∀ c ∈ w.taker id bytes, _))
  | .accept _ | .sent _ | .zcDone _ | .inotify _ _ | .inotifyDied _ | .wake _ | .hangup _
  | .finalize _ => isTrue trivial

/-- The moves of which every LOGOFF releases the grants to its session on its connection. -/
def logsOffFree (_ : ConnId) (l : Label) (k : Core) : Prop :=
  ∀ sid, l = .logoff sid → k.LogsOffFree sid

section

variable {srv : Srv σ}

theorem Event.LogsOffFree.permitted {w : World σ} {e : Event} (he : e.LogsOffFree srv w) :
    e.Permitted srv logsOffFree w := by
  cases e with
  | frame id bytes =>
    refine fun c hc => ⟨fun _ _ h => (nomatch h), fun m hm l hl sid hlabel => ?_,
      fun _ _ _ h => (nomatch h)⟩
    subst hlabel
    obtain ⟨hreach, hcmd, rfl⟩ := hl
    intro key g hat hconn hsid
    obtain ⟨v, hlook, hmem⟩ := hat
    exact he c hc m hm hcmd hreach ⟨key, v⟩ (AList.mem_lookup_iff.1 hlook) g hmem hconn hsid
  | _ => trivial

theorem World.run_leased (workers : ℕ) (os : σ) (es : List Event)
    (hes : (World.start workers os).Always srv (fun w e => e.LogsOffFree srv w) es)
    (hnodup : ((World.start workers os).run srv es).shared.created.Nodup) :
    ((World.start workers os).run srv es).Leased := by
  have hlenient : ∀ id : ConnId, Lenient (logsOffFree id) := fun id =>
    ⟨fun _ _ h => (nomatch h), fun _ _ h => (nomatch h), fun _ _ h => (nomatch h)⟩
  refine (World.run_induct srv (P := fun w => w.Known ∧ w.Placed ∧
    (w.shared.created.Nodup → w.Quiet ∧ w.Leased)) hlenient
    (fun a b (hact : Act srv logsOffFree (fun _ => True) a b) ha => ?_)
    (World.start workers os) es (World.always_mono (fun _ _ h => h.permitted) hes)
    (fun _ _ => trivial) ⟨World.known_start workers os, ?_, fun _ => ⟨?_, ?_⟩⟩).2.2 hnodup |>.2
  · obtain ⟨hknown, hplaced, hquiet⟩ := ha
    refine ⟨hact.known hknown, hact.placed hplaced, fun hb => ?_⟩
    obtain ⟨hq, hleased⟩ := hquiet (hact.created_prefix.sublist.nodup hb)
    exact ⟨hact.quiet hknown hq hb,
      hact.leased (fun id sid k h => h sid rfl) hknown hq hb hplaced hleased⟩
  · exact fun _ _ h => absurd h (by simp [World.start])
  · exact fun _ _ h => absurd h (by simp [World.start])
  · exact fun g hg => absurd hg (LeaseTable.not_held_empty g)

/-- **Leases do not outlive their sessions.**  In every run whose LOGOFFs release the grants to
their session on their connection, and that draws no session id twice, each grant in the lease
table names a session of the registry and a live connection with an established channel of it. -/
theorem leases_in_session (srv : Srv σ) (workers : ℕ) (os : σ) (es : List Event)
    (hes : (World.start workers os).Always srv (fun w e => e.LogsOffFree srv w) es)
    (hnodup : ((World.start workers os).run srv es).shared.created.Nodup) (g : LeaseGrant)
    (hg : ((World.start workers os).run srv es).shared.host.leases.Held g) :
    let w := (World.start workers os).run srv es
    g.sessionId ∈ w.shared.sessions ∧
      ∃ c ch, w.conns.lookup (g.wid, g.connIdx) = some c ∧ c.gen = g.connGen ∧
        c.proto.channels.lookup g.sessionId = some ch ∧ ch.established = true := by
  intro w
  obtain ⟨c, ch, hc, hgen, hch, hest⟩ := World.run_leased workers os es hes hnodup g hg
  obtain ⟨s, hs, -⟩ := (World.run_audited srv workers os es hnodup).bound hc hch hest
  exact ⟨mem_of_lookup hs, c, ch, hc, hgen, hch, hest⟩

end

namespace Sample

/-- The client connects to the share and opens the file `f` with a lease. -/
def openLeased (state : UInt32) (mid sid : UInt64) : List Event :=
  [.frame conn (treeReq 0 0 mid sid),
    .frame conn (createReq 0 0 (mid + 1) 1 sid 1 fileOpenIf 0 ['f'] (leaseCtx (zeros 16) state))]

/-- The client opens `f` with a read lease and logs off, logs in again and opens `f` with a lease
that caches the handle. -/
def leasedAgain : List Event :=
  logIn ++ openLeased leaseReadCaching 2 2 ++
    [.frame conn (logoffReq 0 0 4 2), .frame conn (setupReq 0 5 0 krbBlob)] ++
    openLeased (leaseReadCaching ||| leaseHandleCaching) 6 3

/-- The grant of the second login. -/
def secondGrant : LeaseGrant :=
  { leaseKey := zeros 16, state := leaseReadCaching ||| leaseHandleCaching, epoch := 0
    sessionId := 3, wid := 0, connIdx := 0, connGen := 1 }

theorem leases_in_session_again :
    let w := (World.start 1 {}).run (srv false false) leasedAgain
    w.shared.host.leases.Held secondGrant ∧ secondGrant.sessionId ∈ w.shared.sessions ∧
      ∃ c ch, w.conns.lookup (secondGrant.wid, secondGrant.connIdx) = some c ∧
        c.gen = secondGrant.connGen ∧
        c.proto.channels.lookup secondGrant.sessionId = some ch ∧ ch.established = true := by
  have hrun : ((World.start 1 {}).run (srv false false) leasedAgain).shared.host.leases.lookup
        (0, 1) = some [secondGrant] ∧
      ((World.start 1 {}).run (srv false false) leasedAgain).shared.created.Nodup := by
    decide +kernel
  have hheld : ((World.start 1 {}).run (srv false false) leasedAgain).shared.host.leases.Held
      secondGrant := ⟨(0, 1), [secondGrant], hrun.1, List.mem_singleton.2 rfl⟩
  exact ⟨hheld, leases_in_session (srv false false) 1 {} leasedAgain (by decide +kernel) hrun.2
    secondGrant hheld⟩

/-- A lease that caches the handle outlives the session: the client opens `f` with it and logs
off. -/
theorem lease_outlives_session :
    let w := (World.start 1 {}).run (srv false false)
      (logIn ++ openLeased (leaseReadCaching ||| leaseHandleCaching) 2 2 ++
        [.frame conn (logoffReq 0 0 4 2)])
    (∃ g, w.shared.host.leases.Held g ∧ g.sessionId = 2) ∧
      w.shared.sessions.lookup 2 = none := by
  intro w
  have hrun : w.shared.host.leases.lookup (0, 1) = some [{ secondGrant with sessionId := 2 }] ∧
      w.shared.sessions.lookup 2 = none := by
    decide +kernel
  exact ⟨⟨_, ⟨(0, 1), _, hrun.1, List.mem_singleton.2 rfl⟩, rfl⟩, hrun.2⟩

end Sample

end RocketSmbd
