import RocketSmbd.Life.Frame
import RocketSmbd.Life.Service

/-!
# The server makes moves

An event of the reactor is a sequence of acts (`Act`): a connection is accepted, makes moves, or is
dropped, or a mailbox is drained.  `World.step_act` says so for one event; the invariants of
runs are proved act by act (`World.run_induct`).
-/

namespace RocketSmbd

open ByteString Vfs

variable {σ : Type}

/-- The core of a connection with the pended notifies `pends`, between two frames. -/
def Core.at (sh : Shared σ) (pc : ProtoConn) (pends : List NotifyPend) : Core :=
  { Core.of sh pc [] none with pends }

/-- The pended notifies of a connection: watched, or about to be. -/
def Conn.pends (c : Conn) : List NotifyPend := c.watches.map Watch.pend ++ c.proto.notify.new

/-- The core of a connection. -/
def Conn.core (sh : Shared σ) (c : Conn) : Core := Core.at sh c.proto c.pends

/-! ### Notify completions -/

section

variable (srv : Srv σ) {ok : Label → Core → Prop} (hok : ∀ k, ok .complete k) (sh : Shared σ)

theorem buildNotifyFinal_move (pc : ProtoConn) {pends : List NotifyPend} {p : NotifyPend}
    (hp : p ∈ pends) (st : UInt32) (events : List (UInt32 × Str)) :
    Move srv .complete (Core.at sh pc pends)
      (Core.at sh (buildNotifyFinal srv.env.crypto pc p.info st events p.outLen).1 pends) := by
  unfold buildNotifyFinal
  dsimp only
  cases hch : pc.channels.lookup p.info.sessionId with
  | none =>
    refine .completeOpen p st events hp rfl fun ch e hlook => ?_
    have hlook : pc.channels.lookup p.info.sessionId = some ch := hlook
    rw [hch] at hlook
    exact absurd hlook (by simp)
  | some ch =>
    dsimp only
    split
    · next e henc he =>
      rw [wrapTransform_eq]
      exact .completeSealed p st events ch e hp rfl hch ⟨henc, he⟩
    · next hno =>
      refine .completeOpen p st events hp rfl fun ch' e hlook hseal => ?_
      obtain rfl : ch = ch' := Option.some.inj (hch.symm.trans hlook)
      exact hno e hseal.1 hseal.2

include hok

/-- The pended notifies can be reordered and forgotten. -/
theorem forget_moves (pc : ProtoConn) {pends pends' : List NotifyPend}
    (h : ∀ p ∈ pends', p ∈ pends) :
    Moves srv ok (Core.at sh pc pends) (Core.at sh pc pends') :=
  .single (hok _) (@Move.forget σ srv (Core.at sh pc pends) pends' h)

/-- A completion, after which some pends are forgotten. -/
theorem complete_moves (pc : ProtoConn) {pends pends' : List NotifyPend} {p : NotifyPend}
    (st : UInt32) (events : List (UInt32 × Str)) (hp : p ∈ pends) (h : ∀ q ∈ pends', q ∈ pends) :
    Moves srv ok (Core.at sh pc pends)
      (Core.at sh (buildNotifyFinal srv.env.crypto pc p.info st events p.outLen).1 pends') :=
  .trans (.single (hok _) (buildNotifyFinal_move srv sh pc hp st events))
    (forget_moves srv hok sh _ h)

/-- The notifies of a connection's watches. -/
def Conn.watched (c : Conn) : List NotifyPend := c.watches.map Watch.pend

/-- The core of a connection that is being serviced; `rest` are other pends of it. -/
def Desk.core (sh : Shared σ) (rest : List NotifyPend) (d : Desk σ) : Core :=
  Core.at sh d.conn.proto (d.conn.watched ++ d.new ++ d.fired.map Prod.fst ++ rest)

omit hok in
theorem takeWatch_eq {p : Watch → Bool} {ws rest : List Watch} {x : Watch}
    (h : takeWatch p ws = some (x, rest)) :
    p x = true ∧ ∃ l r, ws = l ++ x :: r ∧ rest = l ++ r := by
  induction ws generalizing rest with
  | nil => simp [takeWatch] at h
  | cons w ws ih =>
    unfold takeWatch at h
    split_ifs at h with hp
    · obtain ⟨rfl, rfl⟩ := Prod.mk.inj (Option.some.inj h)
      exact ⟨hp, [], ws, rfl, rfl⟩
    · obtain ⟨⟨y, ys⟩, hy, heq⟩ := Option.map_eq_some_iff.1 h
      obtain ⟨rfl, rfl⟩ := Prod.mk.inj heq
      obtain ⟨hpx, l, r, rfl, rfl⟩ := ih hy
      exact ⟨hpx, w :: l, r, rfl, rfl⟩

theorem Desk.Step.moves {d d' : Desk σ} (h : Desk.Step srv.env d d') (rest : List NotifyPend) :
    Moves srv ok (d.core sh rest) (d'.core sh rest) := by
  cases h with
  | asks | opens | skips => exact .refl _
  | rejects h =>
    refine complete_moves srv hok sh _ _ _ (by simp [h]) fun q hq => ?_
    simp only [h, List.mem_append, List.mem_cons] at hq ⊢
    exact hq.imp_left fun hq => hq.imp_left fun hq => hq.imp_right Or.inr
  | watches wd h =>
    refine forget_moves srv hok sh _ fun q hq => ?_
    simpa [h, Conn.watched] using hq
  | @finishes watch watches _ st done h =>
    obtain ⟨-, l, r, hwatches, rfl⟩ := takeWatch_eq h
    refine complete_moves srv hok sh _ _ _ (by simp [Conn.watched, hwatches]) fun q hq => ?_
    simp only [Conn.watched, hwatches, List.map_append, List.map_cons, List.mem_append,
      List.mem_cons] at hq ⊢
    exact hq.imp_left fun hq => hq.imp_left fun hq => hq.imp_left fun hq => hq.imp_right Or.inr
  | fires wd events =>
    have hpart : ∀ {p : Watch → Bool} {w : Watch}, w ∈ d.conn.watches.filter p →
        w.pend ∈ d.conn.watched := fun hw => List.mem_map_of_mem (List.mem_of_mem_filter hw)
    refine forget_moves srv hok sh _ fun q hq => ?_
    simp only [List.map_append, List.mem_append] at hq ⊢
    rcases hq with ((hq | hq) | hq | hq) | hq
    · obtain ⟨w, hw, rfl⟩ := List.mem_map.1 hq
      exact Or.inl (Or.inl (Or.inl (hpart hw)))
    · exact Or.inl (Or.inl (Or.inr hq))
    · exact Or.inl (Or.inr hq)
    · obtain ⟨f, hf, rfl⟩ := List.mem_map.1 hq
      obtain ⟨w, hw, rfl⟩ := List.mem_map.1 hf
      exact Or.inl (Or.inl (Or.inl (hpart hw)))
    · exact Or.inr hq
  | completes h =>
    refine complete_moves srv hok sh _ _ _ (by simp [h]) fun q hq => ?_
    simp only [h, List.map_cons, List.mem_append, List.mem_cons] at hq ⊢
    exact hq.imp_left fun hq => hq.imp_right Or.inr

theorem Desk.Steps.moves {d d' : Desk σ} (h : Desk.Steps srv.env d d') (rest : List NotifyPend) :
    Moves srv ok (d.core sh rest) (d'.core sh rest) := by
  induction h with
  | refl => exact .refl _
  | tail _ hstep ih => exact ih.trans (hstep.moves srv hok sh rest)

/-- Draining the notify queues makes completion moves. -/
theorem serviceNotify_moves (s : σ) (c : Conn) :
    Moves srv ok (c.core sh) ((serviceNotify srv.env.crypto srv.env.os s c).2.core sh) := by
  have hsteps := serviceNotify_steps srv.env s c
  have hmoves := hsteps.moves srv hok sh []
  have hnew := hsteps.alike.2
  simp only [Desk.core, List.map_nil, List.append_nil] at hmoves
  rw [Conn.core, Conn.core, Conn.pends, Conn.pends, hnew, List.append_nil]
  exact hmoves

/-- A batch of inotify events makes completion moves. -/
theorem onInotify_moves (s : σ) (c : Conn) (buf : Bytes) :
    Moves srv ok (c.core sh) ((onInotify srv s c buf).2.core sh) := by
  have hsteps := onInotify_steps srv s c buf
  have hmoves := hsteps.moves srv hok sh c.proto.notify.new
  have hnew := hsteps.alike.2
  simp only [Desk.core, List.map_nil, List.append_nil] at hmoves
  rw [Conn.core, Conn.core, Conn.pends, Conn.pends, hnew]
  exact hmoves

end

/-! ### The end of a connection -/

section

variable (srv : Srv σ) {ok : Label → Core → Prop} (hok : ∀ k, ok .teardown k)

theorem teardownChannel_torn (os : Os σ) (sh : Shared σ) (sid : UInt64) (ch : ChannelState) :
    Torn sh.sessions sh.host.erase sid ch (teardownChannel os sh sid ch).sessions
        (teardownChannel os sh sid ch).host.erase ∧
      (teardownChannel os sh sid ch).created = sh.created := by
  unfold teardownChannel
  cases hs : sh.sessions.lookup sid with
  | none =>
    refine ⟨?_, rfl⟩
    cases hest : ch.established with
    | true => exact .dropped _ _ hest (.unknown hs)
    | false => exact .kept hest fun s h => absurd (hs.symm.trans h) (by simp)
  | some s =>
    dsimp only
    split_ifs with hest hsess
    · obtain ⟨hdrop, hcreated⟩ := dropChannel_dropped os sh hs
      exact ⟨.dropped _ _ hest hdrop, hcreated⟩
    · refine ⟨.kept (by simpa using hest) fun s' h => ?_, rfl⟩
      obtain rfl := Option.some.inj (hs.symm.trans h)
      exact hsess
    · obtain ⟨hsessions, hcreated, hhost, -⟩ := endSession_of_lookup os sh hs
      rw [hsessions]
      exact ⟨.ended s _ (by simpa using hest) hs (by simpa using hsess) hhost, hcreated⟩

include hok in
/-- The channels of a connection that is gone go one by one. -/
theorem teardown_moves (k : Core) (sh : Shared σ) (hsessions : k.sessions = sh.sessions)
    (hhost : k.host = sh.host.erase) :
    let sh' := k.channels.entries.foldl (fun sh e => teardownChannel srv.env.os sh e.1 e.2) sh
    Moves srv ok k { k with sessions := sh'.sessions, host := sh'.host.erase, channels := ∅ } ∧
      sh'.created = sh.created := by
  induction hn : k.channels.entries generalizing k sh with
  | nil =>
    have hempty : k.channels = ∅ := AList.ext hn
    refine ⟨?_, rfl⟩
    rw [List.foldl_nil, ← hsessions, ← hhost, ← hempty]
    exact .refl k
  | cons e l ih =>
    obtain ⟨sid, ch⟩ := e
    have hch : k.channels.lookup sid = some ch :=
      AList.mem_lookup_iff.2 (hn ▸ List.mem_cons_self)
    have herase : (k.channels.erase sid).entries = l := by
      show k.channels.entries.kerase sid = l
      rw [hn]
      exact List.kerase_cons_eq rfl
    obtain ⟨htorn, hcreated⟩ := teardownChannel_torn srv.env.os sh sid ch
    rw [← hsessions, ← hhost] at htorn
    obtain ⟨hmoves, hcreated'⟩ := ih { k with
      sessions := (teardownChannel srv.env.os sh sid ch).sessions
      host := (teardownChannel srv.env.os sh sid ch).host.erase
      channels := k.channels.erase sid } (teardownChannel srv.env.os sh sid ch) rfl rfl herase
    exact ⟨(Moves.single (hok k) (.teardown sid ch _ _ hch htorn)).trans hmoves,
      hcreated'.trans hcreated⟩

end

/-! ### Events -/

/-- What an act on another connection, or the delivery of a lease break, leaves of a connection. -/
def Conn.life (c : Conn) : UInt16 × ProtoConn × List Watch := (c.gen, c.proto, c.watches)

/-- The connection in slot `id`, if it processes the frame `bytes`. -/
def World.taker (w : World σ) (id : ConnId) (bytes : Bytes) : Option Conn :=
  (w.active id).filter fun c => c.zc.isNone ∧ ¬ c.closeAfterSend ∧ ¬ oversized c bytes

/-- What becomes of the world in an event.  No connection takes its frame, if it has one, but in
the case `takes`. -/
inductive World.Stepped (srv : Srv σ) (w : World σ) : Event → World σ → Prop
  | stays (e : Event) (hframe : ∀ id bytes, e = .frame id bytes → w.taker id bytes = none) :
    Stepped srv w e w
  | accepts (id : ConnId) (h : id ∉ w.conns) : Stepped srv w (.accept id) (onAccept srv w id)
  | takes (id : ConnId) (bytes : Bytes) (c : Conn) (h : w.taker id bytes = some c) :
    Stepped srv w (.frame id bytes) (onFrame srv w id c bytes)
  | notifies (id : ConnId) (bytes : Bytes) (c : Conn) (h : w.active id = some c) :
    Stepped srv w (.inotify id bytes) ((w.withOs (onInotify srv w.shared.host.os c bytes).1).setConn
      id (onInotify srv w.shared.host.os c bytes).2)
  | changes (e : Event) (id : ConnId) (c c' : Conn) (s : σ) (h : w.active id = some c)
      (hlife : c'.life = c.life)
      (hos : s = w.shared.host.os ∨ ∃ fd, s = srv.env.os.close fd w.shared.host.os)
      (hframe : ∀ id bytes, e = .frame id bytes → w.taker id bytes = none) :
    Stepped srv w e ((w.withOs s).setConn id c')
  | wakes (wid : ℕ) : Stepped srv w (.wake wid) (onWake srv w wid)
  | drops (id : ConnId) (c : Conn) (h : w.conns.lookup id = some c) (hclosing : c.closing = true) :
    Stepped srv w (.finalize id) (finalizeClose srv w id c)

section

variable (srv : Srv σ)

theorem World.active_lookup {w : World σ} {id : ConnId} {c : Conn} (h : w.active id = some c) :
    w.conns.lookup id = some c := (Option.filter_eq_some_iff.1 h).1

theorem World.taker_lookup {w : World σ} {id : ConnId} {bytes : Bytes} {c : Conn}
    (h : w.taker id bytes = some c) : w.conns.lookup id = some c :=
  World.active_lookup (Option.filter_eq_some_iff.1 h).1

/-- **What an event does.** -/
theorem World.step_cases (w : World σ) (e : Event) : w.Stepped srv e (w.step srv e) := by
  cases e with
  | accept id =>
    by_cases hid : id ∈ w.conns
    · simp only [World.step, onAccept, if_pos hid]
      exact .stays _ fun _ _ he => nomatch he
    · exact .accepts id hid
  | frame id bytes =>
    have hnone : ∀ i b, Event.frame id bytes = .frame i b → w.taker id bytes = none →
        w.taker i b = none := by
      intro i b he htaker
      obtain ⟨rfl, rfl⟩ := Event.frame.inj he
      exact htaker
    simp only [World.step]
    cases hc : w.active id with
    | none => exact .stays _ fun i b he => hnone i b he (by simp [World.taker, hc])
    | some c =>
      dsimp only
      split_ifs with hbusy hover
      · refine .stays _ fun i b he => hnone i b he ?_
        rcases hbusy with hzc | hsend
        · simp [World.taker, hc, Option.isSome_iff_ne_none.1 hzc]
        · simp [World.taker, hc, hsend]
      · exact .changes _ id c _ w.shared.host.os hc rfl (Or.inl rfl) fun i b he =>
          hnone i b he (by simp [World.taker, hc, hover])
      · refine .takes id bytes c ?_
        simp only [not_or, Bool.not_eq_true, Option.isSome_eq_false_iff,
          Option.isNone_iff_eq_none] at hbusy
        simp [World.taker, hc, hbusy, hover]
  | sent id | hangup id =>
    simp only [World.step]
    cases hc : w.active id with
    | none => exact .stays _ fun _ _ he => nomatch he
    | some c =>
      exact .changes _ id c _ w.shared.host.os hc rfl (Or.inl rfl) fun _ _ he => nomatch he
  | zcDone id | inotifyDied id =>
    simp only [World.step]
    cases hc : w.active id with
    | none => exact .stays _ fun _ _ he => nomatch he
    | some c =>
      dsimp only
      split
      · exact .stays _ fun _ _ he => nomatch he
      · exact .changes _ id c _ _ hc rfl (Or.inr ⟨_, rfl⟩) fun _ _ he => nomatch he
  | inotify id bytes =>
    simp only [World.step]
    cases hc : w.active id with
    | none => exact .stays _ fun _ _ he => nomatch he
    | some c => exact .notifies id bytes c hc
  | wake wid => exact .wakes wid
  | finalize id =>
    simp only [World.step]
    cases hc : w.conns.lookup id with
    | none => exact .stays _ fun _ _ he => nomatch he
    | some c =>
      dsimp only
      split_ifs with hclosing
      · exact .drops id c hc hclosing
      · exact .stays _ fun _ _ he => nomatch he

/-- A delivery of lease breaks drains the mailbox, and changes nothing of a connection but what
waits to be sent. -/
theorem onWake_spec (w : World σ) (wid : ℕ) :
    (onWake srv w wid).shared = { w.shared with host := { w.shared.host with
        mailboxes := (Mailboxes.drain w.shared.host.mailboxes wid).2 } } ∧
      (onWake srv w wid).gens = w.gens ∧
      ∀ id, ((onWake srv w wid).conns.lookup id).map (fun c => { c with deferred := [] }) =
        (w.conns.lookup id).map fun c => { c with deferred := [] } := by
  have hall : ∀ (bs : List BreakMsg) (w : World σ),
      let w' := bs.foldl (deliverBreak srv.env.crypto wid) w
      w'.shared = w.shared ∧ w'.gens = w.gens ∧
        ∀ id, (w'.conns.lookup id).map (fun c => { c with deferred := [] }) =
          (w.conns.lookup id).map fun c => { c with deferred := [] } := by
    intro bs
    induction bs with
    | nil => exact fun w => ⟨rfl, rfl, fun _ => rfl⟩
    | cons b bs ih =>
      intro w
      obtain ⟨hsh, hgens, hconns⟩ := ih (deliverBreak srv.env.crypto wid w b)
      dsimp only
      rw [List.foldl_cons, hsh, hgens]
      simp only [hconns]
      unfold deliverBreak
      cases hc : w.active (wid, b.connIdx) with
      | none => exact ⟨rfl, rfl, fun _ => rfl⟩
      | some c =>
        dsimp only
        split_ifs
        · exact ⟨rfl, rfl, fun _ => rfl⟩
        · refine ⟨rfl, rfl, fun id => ?_⟩
          rw [World.setConn, FinMap.lookup_insert]
          split_ifs with hid
          · rw [hid, World.active_lookup hc]
            rfl
          · rfl
  exact hall _ _

end

/-! ### Acts -/

/-- The moves of a connection that stays. -/
def Serving (ok : Label → Core → Prop) (l : Label) (k : Core) : Prop := ok l k ∧ l ≠ .teardown

/-- What an event of the reactor does.  `ok id` permits the moves of connection `id`, and only the
connections in `gone` are dropped. -/
inductive Act (srv : Srv σ) (ok : ConnId → Label → Core → Prop) (gone : ConnId → Prop) :
    World σ → World σ → Prop
  | accept {w : World σ} (id : ConnId) (h : id ∉ w.conns) :
    Act srv ok gone w (onAccept srv w id)
  | serve {w : World σ} (id : ConnId) (c c' : Conn) (sh : Shared σ)
      (hc : w.conns.lookup id = some c) (hgen : c'.gen = c.gen)
      (hmoves : Moves srv (Serving (ok id)) (c.core w.shared) (c'.core sh)) :
    Act srv ok gone w { w with shared := sh, conns := w.conns.insert id c' }
  | deliver {w : World σ} (mailboxes : Mailboxes) (conns : FinMap ConnId Conn)
      (hmail : ∀ b, mailboxes.Queued b → w.shared.host.mailboxes.Queued b)
      (hconns : ∀ id, (conns.lookup id).map Conn.life = (w.conns.lookup id).map Conn.life) :
    Act srv ok gone w
      { w with shared := { w.shared with host := { w.shared.host with mailboxes } }, conns }
  | drop {w : World σ} (id : ConnId) (c : Conn) (sh : Shared σ) (gen : UInt16) (hid : gone id)
      (hc : w.conns.lookup id = some c)
      (hmoves : Moves srv (fun l _ => l = .teardown) (c.core w.shared)
        (Core.at sh { c.proto with channels := ∅ } c.pends)) :
    Act srv ok gone w
      { shared := { sh with host := { sh.host with
          leases := LeaseTable.releaseConn id.1 id.2 c.gen sh.host.leases } }
        conns := w.conns.erase id, gens := w.gens.insert id gen }

/-- `ok` permits every move of the frame `bytes` on connection `c`. -/
structure Permits (srv : Srv σ) (ok : Label → Core → Prop) (sh : Shared σ) (c : Conn)
    (bytes : Bytes) : Prop where
  opens : (frameKey srv.env.crypto c.proto bytes).isSome →
    ok (.decrypt (transformSessionId bytes)) (c.core sh)
  members : ∀ m ∈ frameMembers srv sh c.proto bytes c.tx, ∀ l,
    let k := m.px.core c.watched (frameKey srv.env.crypto c.proto bytes)
    m.moveLabel srv k l → ok l k
  negotiate : (∃ m ∈ frameMembers srv sh c.proto bytes c.tx,
    m.answered srv ∧ m.hdr.command = cmdNegotiate) → ∀ k, ok .chainNeg k

/-- `ok` permits the moves that no request asks for. -/
structure Lenient (ok : Label → Core → Prop) : Prop where
  preauth : ∀ k, ok .preauth k
  sealing : ∀ k, ok .encrypt k
  complete : ∀ k, ok .complete k

/-- The frames of an event are permitted. -/
def Event.Permitted (srv : Srv σ) (ok : ConnId → Label → Core → Prop) (w : World σ) : Event → Prop
  | .frame id bytes => ∀ c ∈ w.taker id bytes, Permits srv (ok id) w.shared c bytes
  | _ => True

section

variable (srv : Srv σ) {ok : ConnId → Label → Core → Prop} {gone : ConnId → Prop}
  (hok : ∀ id, Lenient (ok id))

variable {w : World σ}

include hok

theorem serving_complete (id : ConnId) (k : Core) : Serving (ok id) .complete k :=
  ⟨(hok id).complete k, by simp⟩

theorem onFrame_act {id : ConnId} {c : Conn} (hc : w.conns.lookup id = some c)
    (bytes : Bytes) (hp : Permits srv (ok id) w.shared c bytes) :
    Act srv ok gone w (onFrame srv w id c bytes) := by
  have hframe := @processFrame_moves σ srv c.watched (Serving (ok id)) w.shared c.proto bytes
    c.tx (fun h => ⟨hp.opens h, by simp⟩)
    (fun m hm l hl => ⟨hp.members m hm l hl, fun hlabel => by rw [hlabel] at hl; exact hl.2⟩)
    (fun k => ⟨(hok id).preauth k, by simp⟩) (fun k => ⟨(hok id).sealing k, by simp⟩)
    fun h k => ⟨hp.negotiate h k, by simp⟩
  unfold onFrame
  dsimp only
  generalize processFrame srv w.shared c.proto bytes c.tx = out at hframe ⊢
  have hnotify := serviceNotify_moves srv (serving_complete hok id) out.shared out.shared.host.os
    { c with proto := out.pc, tx := out.tx }
  have hgen := (serviceNotify_alike srv.env out.shared.host.os
    { c with proto := out.pc, tx := out.tx }).gen
  refine .serve id c _ _ hc ?_ ((hframe.trans hnotify).trans ?_)
  · unfold applyAction
    split <;> exact hgen
  · unfold applyAction
    split <;> exact .refl _

omit hok in
/-- A change that no statement about runs looks at. -/
theorem idle_act {id : ConnId} {c : Conn} (hc : w.conns.lookup id = some c)
    (c' : Conn) (s : σ) (hlife : c'.life = c.life) :
    Act srv ok gone w ((w.withOs s).setConn id c') := by
  have hproto : c'.proto = c.proto := congrArg (fun t => t.2.1) hlife
  have hwatches : c'.watches = c.watches := congrArg (fun t => t.2.2) hlife
  refine .serve id c c' _ hc (congrArg Prod.fst hlife) ?_
  have hcore : c'.core (w.withOs s).shared = c.core w.shared := by
    unfold Conn.core Conn.pends
    rw [hproto, hwatches]
    rfl
  rw [← hcore]
  exact .refl _

omit hok in
theorem finalizeClose_act {id : ConnId} {c : Conn}
    (hc : w.conns.lookup id = some c) (hid : gone id) :
    Act srv ok gone w (finalizeClose srv w id c) := by
  obtain ⟨hmoves, hcreated⟩ := @teardown_moves σ srv (fun l _ => l = .teardown)
    (fun _ => rfl) (c.core w.shared) w.shared rfl rfl
  have hsame : (teardownConn srv.env.os w.shared c.proto).1.created = (c.core w.shared).created :=
    hcreated
  refine .drop id c { (teardownConn srv.env.os w.shared c.proto).1 with
    host := (teardownConn srv.env.os w.shared c.proto).1.host.act (closeConnFds srv.env.os c) }
    _ hid hc ?_
  unfold Core.at
  dsimp only
  rw [hsame]
  exact hmoves

omit hok in
theorem onWake_act (w : World σ) (wid : ℕ) : Act srv ok gone w (onWake srv w wid) := by
  obtain ⟨hsh, hgens, hconns⟩ := onWake_spec srv w wid
  have hact : Act srv ok gone w _ := .deliver (Mailboxes.drain w.shared.host.mailboxes wid).2
    (onWake srv w wid).conns (fun b hb => Mailboxes.queued_drain hb) fun id => by
      have hlife := congrArg (Option.map Conn.life) (hconns id)
      rwa [Option.map_map, Option.map_map] at hlife
  generalize onWake srv w wid = w' at hsh hgens hact ⊢
  obtain ⟨sh, conns, gens⟩ := w'
  dsimp only at hsh hgens hact
  rw [hsh, hgens]
  exact hact

/-- **An event of the reactor is an act, or nothing.** -/
theorem World.step_act (w : World σ) (e : Event) (he : e.Permitted srv ok w)
    (hgone : ∀ id, e = .finalize id → gone id) :
    w.step srv e = w ∨ Act srv ok gone w (w.step srv e) := by
  have hstep := w.step_cases srv e
  generalize w.step srv e = w' at hstep ⊢
  cases hstep with
  | stays => exact Or.inl rfl
  | accepts id hid => exact Or.inr (.accept id hid)
  | takes id bytes c htaker =>
    exact Or.inr (onFrame_act srv hok (World.taker_lookup htaker) bytes (he c htaker))
  | notifies id bytes c hc =>
    exact Or.inr (.serve id c _ _ (World.active_lookup hc)
      (onInotify_alike srv w.shared.host.os c bytes).gen
      (onInotify_moves srv (serving_complete hok id) w.shared w.shared.host.os c bytes))
  | changes _ id c c' s hc hlife =>
    exact Or.inr (idle_act srv (World.active_lookup hc) c' s hlife)
  | wakes wid => exact Or.inr (onWake_act srv w wid)
  | drops id c hc => exact Or.inr (finalizeClose_act srv hc (hgone id rfl))

/-! ### Single connections -/

/-- Where the connection `c'` in slot `id` of `w'` comes from. -/
inductive Fate (srv : Srv σ) (ok : Label → Core → Prop) (w w' : World σ) (id : ConnId)
    (c' : Conn) : Prop
  | new (h : w.conns.lookup id = none) (hproto : c'.proto = ProtoConn.new srv id.1 id.2 c'.gen)
    (hwatches : c'.watches = [])
  | same (c : Conn) (h : w.conns.lookup id = some c) (hlife : c'.life = c.life)
  | moved (c : Conn) (h : w.conns.lookup id = some c) (hgen : c'.gen = c.gen)
    (hmoves : Moves srv (Serving ok) (c.core w.shared) (c'.core w'.shared))

section

variable {srv} {w w' : World σ} (h : Act srv ok gone w w')

include h

omit hok in
theorem Act.fate {id : ConnId} {c' : Conn} (hc' : w'.conns.lookup id = some c') :
    Fate srv (ok id) w w' id c' := by
  cases h with
  | accept id' hid =>
    unfold onAccept at hc'
    rw [if_neg hid] at hc'
    dsimp only at hc'
    rw [FinMap.lookup_insert] at hc'
    split_ifs at hc' with heq
    · obtain rfl := Option.some.inj hc'
      exact .new (heq ▸ FinMap.notMem_iff.1 hid) (heq ▸ rfl) rfl
    · exact .same c' hc' rfl
  | serve id' c c₁ sh hc hgen hmoves =>
    dsimp only at hc'
    rw [FinMap.lookup_insert] at hc'
    split_ifs at hc' with heq
    · obtain rfl := Option.some.inj hc'
      obtain rfl := heq
      exact .moved c hc hgen hmoves
    · exact .same c' hc' rfl
  | deliver mailboxes conns _ hconns =>
    have hlife := hconns id
    rw [hc'] at hlife
    obtain ⟨c, hc, hsame⟩ := Option.map_eq_some_iff.1 hlife.symm
    exact .same c hc hsame.symm
  | drop id' c sh gen hid hc hmoves =>
    dsimp only at hc'
    rw [FinMap.lookup_erase] at hc'
    split_ifs at hc'
    exact .same c' hc' rfl

omit hok in
theorem Act.lookup_isSome {id : ConnId} {c : Conn} (hc : w.conns.lookup id = some c)
    (hgone : ¬ gone id) : ∃ c', w'.conns.lookup id = some c' := by
  have hinsert : ∀ id' c', ∃ c'', (w.conns.insert id' c').lookup id = some c'' := by
    intro id' c'
    rw [FinMap.lookup_insert]
    split_ifs
    · exact ⟨c', rfl⟩
    · exact ⟨c, hc⟩
  cases h with
  | accept id' hid =>
    unfold onAccept
    rw [if_neg hid]
    exact hinsert _ _
  | serve => exact hinsert _ _
  | deliver mailboxes conns _ hconns =>
    have hlife := hconns id
    rw [hc] at hlife
    obtain ⟨c', hc', -⟩ := Option.map_eq_some_iff.1 hlife
    exact ⟨c', hc'⟩
  | drop id' c' sh gen hid hc' hmoves =>
    dsimp only
    rw [FinMap.lookup_erase, if_neg, hc]
    · exact ⟨c, rfl⟩
    · rintro rfl
      exact hgone hid

end

/-! ### Runs -/

/-- Every event of a run satisfies `P` in the world in which it happens. -/
def World.Always (srv : Srv σ) (P : World σ → Event → Prop) : World σ → List Event → Prop
  | _, [] => True
  | w, e :: es => P w e ∧ World.Always srv P (w.step srv e) es

instance instDecidableAlways (srv : Srv σ) (P : World σ → Event → Prop)
    [∀ w e, Decidable (P w e)] : ∀ (w : World σ) (es : List Event), Decidable (w.Always srv P es)
  | _, [] => isTrue trivial
  | w, e :: es =>
    have : Decidable ((w.step srv e).Always srv P es) :=
      instDecidableAlways srv P (w.step srv e) es
    inferInstanceAs (Decidable (_ ∧ _))

omit hok in
theorem World.always_append {P : World σ → Event → Prop} {es₁ es₂ : List Event} :
    w.Always srv P (es₁ ++ es₂) ↔ w.Always srv P es₁ ∧ (w.run srv es₁).Always srv P es₂ := by
  induction es₁ generalizing w with
  | nil => exact ⟨fun h => ⟨trivial, h⟩, And.right⟩
  | cons e es ih =>
    simp only [List.cons_append, World.Always, ih, and_assoc]
    rfl

omit hok in
theorem World.always_mono {srv : Srv σ} {P Q : World σ → Event → Prop}
    (h : ∀ w e, P w e → Q w e) {es : List Event} (hes : w.Always srv P es) :
    w.Always srv Q es := by
  induction es generalizing w with
  | nil => trivial
  | cons e es ih => exact ⟨h w e hes.1, ih hes.2⟩

/-- **What every act keeps, a run keeps.** -/
theorem World.run_induct {P : World σ → Prop} (hP : ∀ a b, Act srv ok gone a b → P a → P b)
    (w : World σ) (es : List Event) (hes : w.Always srv (fun w e => e.Permitted srv ok w) es)
    (hgone : ∀ id, .finalize id ∈ es → gone id) (hw : P w) : P (w.run srv es) := by
  induction es generalizing w with
  | nil => exact hw
  | cons e es ih =>
    refine ih (w.step srv e) hes.2 (fun id he => hgone id (List.mem_cons_of_mem e he)) ?_
    rcases World.step_act srv hok w e hes.1 fun id he => hgone id (he ▸ List.mem_cons_self) with
      hstep | hact
    · exact hstep.symm ▸ hw
    · exact hP _ _ hact hw

end

end RocketSmbd
