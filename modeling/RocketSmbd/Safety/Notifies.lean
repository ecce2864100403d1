import RocketSmbd.Life.Ledger
import RocketSmbd.Life.Visits

/-!
# Notifies, from request to final response

The reactor registers, finishes and completes what the frames of a connection pend and cancel.
Every event keeps the books of `Life.Ledger` (`World.Booked`), so each request that was pended is
watched or has its one final response, and after every event those that can be cancelled are the
watched ones.
-/

namespace RocketSmbd

open ByteString Vfs

variable {σ : Type}

/-! ### What the reactor does -/

/-- The books of a connection whose queues were taken off: `new` and `done` are left of them. -/
structure Conn.Booked (cr : Crypto) (log : List AsyncMeta) (new : List NotifyPend)
    (done : List NotifyDone) (c : Conn) : Prop where
  books : c.proto.Booked cr log (c.watches.map Watch.pend) new done
  new_eq : c.proto.notify.new = []
  done_eq : c.proto.notify.done = []

namespace Conn.Booked

variable {cr : Crypto} {log : List AsyncMeta} {new : List NotifyPend} {done : List NotifyDone}
  {c : Conn}

/-- The oldest new pend is turned away. -/
theorem reject {p : NotifyPend} (h : c.Booked cr log (p :: new) done) (st : UInt32) :
    (completeNotify cr c p st []).Booked cr log new done := by
  obtain ⟨hc, hwatches, hnotify⟩ := completeNotify_completes cr c p st []
  have hown : p.info.asyncId = p.asyncId := h.books.own p (by simp)
  have hsound := h.books.sound.reject (show _ = p.info :: new.map NotifyPend.info from rfl)
  refine ⟨?_, by rw [hnotify]; exact h.new_eq, by rw [hnotify]; exact h.done_eq⟩
  rw [hwatches]
  refine h.books.completes hc (fun q hq => ?_) ?_
  · rcases List.mem_append.1 hq with hq | hq
    · exact List.mem_append_left _ hq
    · exact List.mem_append_right _ (List.mem_cons_of_mem p hq)
  · have hledger : (completeNotify cr c p st []).proto.ledger log (c.watches.map Watch.pend) new
        done = { c.proto.ledger log (c.watches.map Watch.pend) (p :: new) done with
          fresh := new.map NotifyPend.info
          finals := c.proto.hist.finals.map Prod.fst ++ [p.info]
          active := (c.proto.notify.active.map ActivePend.asyncId).filter
            (· ≠ p.info.asyncId) } := by
      simp only [ProtoConn.ledger, hc.finals, hnotify, hown, List.filter_map]
      rfl
    rw [hledger]
    exact hsound

/-- The oldest new pend is watched. -/
theorem watch {p : NotifyPend} (h : c.Booked cr log (p :: new) done) (wd : ℕ) :
    ({ c with watches := c.watches ++ [⟨wd, p⟩] } : Conn).Booked cr log new done := by
  have hsound := h.books.sound.watch (show _ = p.info :: new.map NotifyPend.info from rfl)
  refine ⟨h.books.completes (.refl cr _) (fun q hq => ?_) ?_, h.new_eq, h.done_eq⟩
  · simpa using hq
  · simpa [ProtoConn.ledger] using hsound

/-- The queue of new pends is emptied. -/
theorem register (os : Os σ) (s : σ) (h : c.Booked cr log new done) :
    (new.foldl (registerPend cr os) (s, c)).2.Booked cr log [] done := by
  induction new generalizing s c with
  | nil => exact h
  | cons p new ih =>
    rw [List.foldl_cons]
    have hinst : ∀ r s' c', inotifyInstance os s c = (r, s', c') →
        c'.Booked cr log (p :: new) done := by
      intro r s' c' heq
      unfold inotifyInstance at heq
      split at heq
      · obtain ⟨-, -, rfl⟩ := heq
        exact h
      · split at heq
        · obtain ⟨-, -, rfl⟩ := heq
          exact ⟨h.books, h.new_eq, h.done_eq⟩
        · obtain ⟨-, -, rfl⟩ := heq
          exact h
    unfold registerPend
    split
    · next s' c' heq => exact ih _ ((hinst _ _ _ heq).reject _)
    · next ifd s' c' heq =>
      split
      · exact ih _ ((hinst _ _ _ heq).reject _)
      · exact ih _ ((hinst _ _ _ heq).watch _)

theorem takeWatch_none {p : Watch → Bool} {ws : List Watch} (h : takeWatch p ws = none) :
    ∀ w ∈ ws, p w = false := by
  induction ws with
  | nil => exact fun _ hw => absurd hw List.not_mem_nil
  | cons w ws ih =>
    unfold takeWatch at h
    split_ifs at h with hp
    intro x hx
    rcases List.mem_cons.1 hx with rfl | hx
    · simpa using hp
    · exact ih (Option.map_eq_none_iff.1 h) x hx

/-- The oldest completion that waits is sent, unless an event was first. -/
theorem finish (os : Os σ) (s : σ) {d : NotifyDone} (h : c.Booked cr log [] (d :: done)) :
    (finishPend cr os (s, c) d).2.Booked cr log [] done := by
  unfold finishPend
  dsimp only
  split
  · next hnone =>
    -- no watch has this AsyncId: its request has been completed
    have hout : d.asyncId ∉
        (c.proto.ledger log (c.watches.map Watch.pend) [] (d :: done)).waiting.map
          AsyncMeta.asyncId := by
      simp only [ProtoConn.ledger, Pending.State.waiting, List.map_nil, List.append_nil,
        List.map_map, List.mem_map, not_exists, not_and]
      intro w hw heq
      have hown := h.books.own w.pend (by simpa using ⟨w, hw, rfl⟩)
      have hne := takeWatch_none hnone w hw
      exact absurd (hown.symm.trans heq) (by simpa using hne)
    exact ⟨h.books.completes (.refl cr _) (fun _ hq => hq) (h.books.sound.skip rfl hout),
      h.new_eq, h.done_eq⟩
  · next watch watches hsome =>
    obtain ⟨haid, l, r, hwatches, rfl⟩ := takeWatch_eq hsome
    have haid : watch.pend.asyncId = d.asyncId := by simpa using haid
    obtain ⟨hc, hnotify⟩ :=
      buildNotifyFinal_completes cr c.proto watch.pend.info d.status [] watch.pend.outLen
    have hown : watch.pend.info.asyncId = watch.pend.asyncId :=
      h.books.own watch.pend (by simp [hwatches])
    have hsound := h.books.sound.finish (l := l.map (NotifyPend.info ∘ Watch.pend))
      (r := r.map (NotifyPend.info ∘ Watch.pend)) (a := watch.pend.info) rfl
      (by simp [ProtoConn.ledger, hwatches]) (hown.trans haid)
    refine ⟨h.books.completes hc (fun q hq => ?_) ?_, by rw [hnotify]; exact h.new_eq,
      by rw [hnotify]; exact h.done_eq⟩
    · simp only [hwatches, List.map_append, List.map_cons, List.append_nil, List.mem_append,
        List.mem_cons] at hq ⊢
      tauto
    · have hledger : (buildNotifyFinal cr c.proto watch.pend.info d.status []
            watch.pend.outLen).1.ledger log ((l ++ r).map Watch.pend) [] done =
          { c.proto.ledger log (c.watches.map Watch.pend) [] (d :: done) with
            watched := l.map (NotifyPend.info ∘ Watch.pend) ++ r.map (NotifyPend.info ∘ Watch.pend)
            finals := c.proto.hist.finals.map Prod.fst ++ [watch.pend.info]
            done := done.map NotifyDone.asyncId } := by
        simp only [ProtoConn.ledger, hc.finals, hnotify, List.map_append, List.map_map]
      rw [hledger]
      exact hsound

/-- **The queues that a frame filled are emptied.** -/
theorem service (os : Os σ) (s : σ) (h : c.proto.Booked cr log (c.watches.map Watch.pend)
      c.proto.notify.new c.proto.notify.done) :
    (serviceNotify cr os s c).2.Booked cr log [] [] := by
  have hfinish : ∀ (done : List NotifyDone) (s : σ) (c : Conn), c.Booked cr log [] done →
      (done.foldl (finishPend cr os) (s, c)).2.Booked cr log [] [] := by
    intro done
    induction done with
    | nil => exact fun _ _ h => h
    | cons d done ih => exact fun s c h => ih _ _ (h.finish os s)
  have htaken : ({ c with proto := { c.proto with notify := { c.proto.notify with
      new := [], done := [] } } } : Conn).Booked cr log c.proto.notify.new c.proto.notify.done :=
    ⟨h.completes ⟨rfl, rfl, rfl, (List.append_nil _).symm, fun _ hf => Or.inl hf⟩ (fun _ hq => hq)
      h.sound, rfl, rfl⟩
  exact hfinish _ _ _ (htaken.register os s)

end Conn.Booked

/-! ### Batches of inotify events -/

/-- The watches in `p` are taken off. -/
structure Conn.Fires (c : Conn) (p : Watch → Bool) (fired : List (NotifyPend × List (UInt32 × Str)))
    (c' : Conn) : Prop where
  conn : c' = { c with watches := c.watches.filter fun w => ¬ p w }
  fired : (fired.map Prod.fst).Perm ((c.watches.filter p).map Watch.pend)

/-- The watches of one more descriptor are taken off. -/
theorem Conn.Fires.more {c c' : Conn} {p : Watch → Bool}
    {fired : List (NotifyPend × List (UInt32 × Str))} (h : c.Fires p fired c') (wd : ℕ)
    (events : List (UInt32 × Str)) :
    ∃ p', c.Fires p' (fired ++ (fireWatches wd events c').1) (fireWatches wd events c').2 := by
  refine ⟨fun w => p w ∨ w.wd = wd, ?_, ?_⟩
  · rw [h.conn]
    simp only [fireWatches, List.filter_filter]
    congr 1
    refine List.filter_congr fun w _ => ?_
    by_cases hp : p w = true <;> simp [hp]
  · rw [h.conn]
    simp only [fireWatches, List.map_append, List.map_map, List.filter_filter]
    refine (h.fired.append_right _).trans ?_
    have hnew : (c.watches.filter fun w => decide (w.wd = wd) && decide ¬ p w = true).map
        (Prod.fst ∘ fun w : Watch => (w.pend, events)) =
        (c.watches.filter fun w => decide (w.wd = wd) && decide ¬ p w = true).map Watch.pend := rfl
    rw [hnew, ← List.map_append]
    refine List.Perm.map _ ?_
    have hparts := List.filter_append_perm p (c.watches.filter fun w => p w ∨ w.wd = wd)
    refine List.Perm.trans (.of_eq ?_) hparts
    rw [List.filter_filter, List.filter_filter]
    congr 1
    · refine List.filter_congr fun w _ => ?_
      by_cases hp : p w = true <;> simp [hp]
    · refine List.filter_congr fun w _ => ?_
      by_cases hp : p w = true <;> simp [hp]

theorem takeFired_fires (os : Os σ) (events : List InotifyEvent) (s : σ) (c : Conn) :
    ∃ p, c.Fires p (takeFired os events s c).1 (takeFired os events s c).2.2 := by
  have hfold : ∀ {β : Type} (wd : β → ℕ) (evs : β → List (UInt32 × Str))
      (f : List (NotifyPend × List (UInt32 × Str)) × σ × Conn → β →
        List (NotifyPend × List (UInt32 × Str)) × σ × Conn)
      (_ : ∀ acc b, (f acc b).1 = acc.1 ++ (fireWatches (wd b) (evs b) acc.2.2).1 ∧
        (f acc b).2.2 = (fireWatches (wd b) (evs b) acc.2.2).2) (bs : List β)
      (acc : List (NotifyPend × List (UInt32 × Str)) × σ × Conn),
      (∃ p, c.Fires p acc.1 acc.2.2) →
        ∃ p, c.Fires p (bs.foldl f acc).1 (bs.foldl f acc).2.2 := by
    intro β wd evs f hf bs
    induction bs with
    | nil => exact fun _ h => h
    | cons b bs ih =>
      rintro acc ⟨p, hp⟩
      refine ih (f acc b) ?_
      rw [(hf acc b).1, (hf acc b).2]
      exact hp.more (wd b) (evs b)
  unfold takeFired
  refine hfold InotifyEvent.wd (fun _ => []) _ (fun _ _ => ⟨rfl, rfl⟩) _ _ ?_
  refine hfold Sigma.fst Sigma.snd _ (fun _ _ => ⟨rfl, rfl⟩) _ _ ⟨fun _ => false, ?_, ?_⟩
  · simp
  · simp

/-- Pends that fired are completed one after the other. -/
theorem completeNotify_foldl (cr : Crypto) (fired : List (NotifyPend × List (UInt32 × Str)))
    (c : Conn) :
    let c' := fired.foldl (fun c f => completeNotify cr c f.1 Status.success f.2) c
    c.proto.Completes cr (fired.map fun f => f.1.info) c'.proto ∧ c'.watches = c.watches ∧
      c'.proto.notify = { c.proto.notify with
        active := c.proto.notify.active.filter
          fun a => a.asyncId ∉ fired.map fun f => f.1.asyncId } := by
  induction fired generalizing c with
  | nil => exact ⟨.refl cr _, rfl, by simp⟩
  | cons f fired ih =>
    obtain ⟨hc, hwatches, hnotify⟩ := completeNotify_completes cr c f.1 Status.success f.2
    obtain ⟨hc', hwatches', hnotify'⟩ := ih (completeNotify cr c f.1 Status.success f.2)
    refine ⟨hc.trans hc', hwatches'.trans hwatches, ?_⟩
    rw [List.foldl_cons, hnotify', hnotify]
    simp only [List.filter_filter, List.map_cons, List.mem_cons, not_or]
    congr 1
    refine List.filter_congr fun a _ => ?_
    by_cases ha : a.asyncId = f.1.asyncId <;> simp [ha]

/-- **A batch of inotify events keeps the books.** -/
theorem Conn.Booked.notified {srv : Srv σ} {log : List AsyncMeta} {c : Conn}
    (h : c.Booked srv.env.crypto log [] []) (s : σ) (buf : Bytes) :
    (onInotify srv s c buf).2.Booked srv.env.crypto log [] [] := by
  obtain ⟨p, hconn, hfired⟩ := takeFired_fires srv.env.os
    (inotifyEvents srv.env.fromUtf8Lossy buf.length buf) s c
  unfold onInotify
  dsimp only
  generalize takeFired srv.env.os (inotifyEvents srv.env.fromUtf8Lossy buf.length buf) s c =
    out at *
  obtain ⟨fired, s', c'⟩ := out
  dsimp only at hconn hfired ⊢
  obtain ⟨hc, hwatches, hnotify⟩ := completeNotify_foldl srv.env.crypto fired c'
  have hinfos : (fired.map fun f => f.1.info).Perm
      ((c.watches.filter p).map fun w => w.pend.info) := by
    have hmap := hfired.map NotifyPend.info
    rw [List.map_map, List.map_map] at hmap
    exact hmap
  have hsound := h.books.sound.fire rfl
    (show _ = c.watches.map (NotifyPend.info ∘ Watch.pend) by simp [ProtoConn.ledger]) p hinfos
  generalize fired.foldl (fun c f => completeNotify srv.env.crypto c f.1 Status.success f.2) c' =
    c'' at hc hwatches hnotify ⊢
  subst hconn
  refine ⟨?_, by rw [hnotify]; exact h.new_eq, by rw [hnotify]; exact h.done_eq⟩
  rw [hwatches]
  refine h.books.completes hc (fun q hq => ?_) ?_
  · rw [List.append_nil] at hq ⊢
    obtain ⟨w, hw, rfl⟩ := List.mem_map.1 hq
    exact List.mem_map_of_mem (List.mem_of_mem_filter hw)
  · have hown : ∀ f ∈ fired, f.1.info.asyncId = f.1.asyncId := by
      intro f hf
      obtain ⟨w, hw, heq⟩ := List.mem_map.1 (hfired.subset (List.mem_map_of_mem hf))
      rw [← heq]
      exact h.books.own w.pend (by simpa using ⟨w, List.mem_of_mem_filter hw, rfl⟩)
    have hkeys : (fired.map fun f => f.1.info).map AsyncMeta.asyncId =
        fired.map fun f => f.1.asyncId := by
      rw [List.map_map]
      exact List.map_congr_left hown
    rw [hkeys] at hsound
    simpa [ProtoConn.ledger, hc.finals, hnotify, List.filter_map, Function.comp_def] using hsound

/-! ### Frames -/

/-- The books after a walk over the members of a frame. -/
theorem Walked.booked {srv : Srv σ} {cr : Crypto} {frame : Bytes} {base : ℕ} {w w' : Walk σ}
    {ms : List (Member σ)} (hw : Walked srv frame base w ms w') {log : List AsyncMeta}
    {watched : List NotifyPend}
    (h : w.px.pc.Booked cr log watched w.px.pc.notify.new w.px.pc.notify.done) :
    w'.px.pc.Booked cr (log ++ ms.flatMap (Member.pended srv)) watched w'.px.pc.notify.new
      w'.px.pc.notify.done := by
  have hmember : ∀ {w : Walk σ} {m : Member σ} {log : List AsyncMeta},
      memberAt frame base w = some m →
      w.px.pc.Booked cr log watched w.px.pc.notify.new w.px.pc.notify.done →
      let pc := (afterMember srv w m).px.pc
      pc.Booked cr (log ++ m.pended srv) watched pc.notify.new pc.notify.done := by
    intro w m log hm h
    rw [← (memberAt_found hm).pc] at h
    exact m.booked h
  induction hw generalizing log with
  | out w => simpa using h
  | cut =>
    rw [List.flatMap_nil, List.append_nil]
    exact h.congr rfl
  | step hm _ _ ih =>
    rw [List.flatMap_cons, ← List.append_assoc]
    exact ih (hmember hm h)

/-- What a frame pends. -/
def framePended (srv : Srv σ) (sh : Shared σ) (c : Conn) (bytes : Bytes) : List AsyncMeta :=
  (frameMembers srv sh c.proto bytes c.tx).flatMap (Member.pended srv)

/-- **A frame keeps the books.** -/
theorem Conn.Booked.frame {srv : Srv σ} {log : List AsyncMeta} {c : Conn}
    (h : c.Booked srv.env.crypto log [] []) (sh : Shared σ) (bytes : Bytes) :
    (c.afterFrame srv sh bytes).Booked srv.env.crypto (log ++ framePended srv sh c bytes) []
      [] := by
  obtain ⟨frame, base, w, w', hw, hstart, hend⟩ :=
    processFrame_tallied srv sh c.proto bytes c.tx
  have hbefore : w.px.pc.Booked srv.env.crypto log (c.watches.map Watch.pend) w.px.pc.notify.new
      w.px.pc.notify.done := by
    have hnotify : w.px.pc.notify = c.proto.notify := congrArg (fun t => t.1) hstart
    rw [hnotify, h.new_eq, h.done_eq]
    exact h.books.congr hstart
  have hafter := (hw.booked hbefore).congr hend
  have hnotify : (processFrame srv sh c.proto bytes c.tx).pc.notify = w'.px.pc.notify :=
    congrArg (fun t => t.1) hend
  rw [← hnotify] at hafter
  unfold Conn.afterFrame
  dsimp only
  generalize processFrame srv sh c.proto bytes c.tx = out at hafter ⊢
  have hservice := Conn.Booked.service (c := { c with proto := out.pc, tx := out.tx })
    srv.env.os out.shared.host.os hafter
  generalize (serviceNotify srv.env.crypto srv.env.os out.shared.host.os
    { c with proto := out.pc, tx := out.tx }).2 = c' at hservice ⊢
  unfold applyAction
  split
  · exact hservice
  all_goals exact ⟨hservice.books, hservice.new_eq, hservice.done_eq⟩

/-! ### Runs -/

/-- What was pended on connection `id`, after an event. -/
def pendedAfter (srv : Srv σ) (id : ConnId) (w : World σ) (log : List AsyncMeta) :
    Event → List AsyncMeta
  | .accept i => if i = id ∧ id ∉ w.conns then [] else log
  | .frame i bytes =>
    if i = id then
      match w.taker id bytes with
      | some c => log ++ framePended srv w.shared c bytes
      | none => log
    else log
  | _ => log

/-- What was pended on connection `id` since it was accepted, after a run. -/
def World.pended (srv : Srv σ) (id : ConnId) : World σ → List AsyncMeta → List Event →
    List AsyncMeta
  | _, log, [] => log
  | w, log, e :: es => World.pended srv id (w.step srv e) (pendedAfter srv id w log e) es

/-- The books of the connection in slot `id` are right. -/
def World.Booked (cr : Crypto) (id : ConnId) (w : World σ) (log : List AsyncMeta) : Prop :=
  ∀ c, w.conns.lookup id = some c → c.Booked cr log [] []

section

variable {srv : Srv σ} {id : ConnId} {w : World σ} {log : List AsyncMeta}
  (h : w.Booked srv.env.crypto id log)
include h

/-- **An event keeps the books.** -/
theorem World.Booked.step (e : Event) :
    (w.step srv e).Booked srv.env.crypto id (pendedAfter srv id w log e) := by
  intro c' hc'
  have hlog : pendedAfter srv id w log e =
      frameLog id [] (fun sh c bytes log => log ++ framePended srv sh c bytes) w log e := by
    cases e <;> rfl
  rw [hlog]
  refine World.step_logged srv (P := fun c log => c.Booked srv.env.crypto log [] [])
    (fun gen => ⟨booked_new _ srv id.1 id.2 gen, rfl, rfl⟩)
    (fun c bytes _ _ hc => hc.frame w.shared bytes) (fun c bytes hc => hc.notified _ bytes)
    (fun c c' hlife _ hc => ?_) h hc'
  have hproto : c'.proto = c.proto := congrArg (fun l => l.2.1) hlife
  have hwatches : c'.watches = c.watches := congrArg (fun l => l.2.2) hlife
  obtain ⟨hbooks, hnew, hdone⟩ := hc
  exact ⟨by rw [hproto, hwatches]; exact hbooks, by rw [hproto]; exact hnew,
    by rw [hproto]; exact hdone⟩

/-- **A run keeps the books.** -/
theorem World.Booked.run (es : List Event) :
    (w.run srv es).Booked srv.env.crypto id (w.pended srv id log es) := by
  induction es generalizing w log with
  | nil => exact h
  | cons e es ih => exact ih (h.step e)

end

/-- **Notifies are kept in order.**  In every run, what was pended on a connection was pended by
CHANGE_NOTIFYs, each under an AsyncId of its own; each is completed or watched, and not both, and
none twice; a final response names the MessageId and the AsyncId of its request, and none is built
for another request; and after every event the AsyncIds that can be cancelled are those of the
watches, each once. -/
theorem notify_bookkeeping (srv : Srv σ) (workers : ℕ) (os : σ) (id : ConnId) (es : List Event) :
    (∀ m : Member σ, (m.pended srv).length ≤ 1 ∧ ∀ info ∈ m.pended srv,
      m.hdr.command = cmdChangeNotify ∧ info.msgId = m.hdr.msgId) ∧
    ∀ c, ((World.start workers os).run srv es).conns.lookup id = some c →
      let log := (World.start workers os).pended srv id [] es
      let watched := c.watches.map fun w => w.pend.info
      (log.map AsyncMeta.asyncId).Nodup ∧
      log.Perm (c.proto.hist.finals.map Prod.fst ++ watched) ∧
      (∀ f ∈ c.proto.hist.finals, NamesRequest srv.env.crypto f.1 f.2) ∧
      c.proto.notify.active.map ActivePend.asyncId = c.watches.map (fun w => w.pend.asyncId) ∧
      (c.proto.notify.active.map ActivePend.asyncId).Nodup := by
  refine ⟨fun m => m.pended_own srv, fun c hc => ?_⟩
  have hstart : (World.start workers os).Booked srv.env.crypto id [] := by
    intro c hc
    simp [World.start] at hc
  obtain ⟨hbooks, -, -⟩ := hstart.run es c hc
  have hsound := hbooks.sound
  refine ⟨hsound.nodup, ?_, hbooks.carried, ?_, hsound.active_nodup⟩
  · simpa [ProtoConn.ledger, Pending.State.waiting, Function.comp_def] using hsound.perm
  · have hactive := hsound.active_eq rfl rfl
    refine hactive.trans ?_
    simp only [ProtoConn.ledger, List.map_map]
    refine List.map_congr_left fun w hw => ?_
    exact hbooks.own w.pend (by simpa using ⟨w, hw, rfl⟩)

namespace Sample

/-- A directory is watched, and a file is created in it: the request is completed. -/
theorem notify_bookkeeping_fired :
    let es := watching ++ [.inotify conn createdEvent]
    ∃ c ∈ ((World.start 1 {}).run (srv false false) es).conns.lookup conn,
      c.proto.hist.finals.length = 1 ∧
      ((World.start 1 {}).pended (srv false false) conn [] es).Perm
        (c.proto.hist.finals.map Prod.fst ++ c.watches.map fun w => w.pend.info) := by
  intro es
  have hfired : ∃ c ∈ ((World.start 1 {}).run (srv false false) es).conns.lookup conn,
      c.proto.hist.finals.length = 1 := by
    decide +kernel
  obtain ⟨c, hc, hfinals⟩ := hfired
  exact ⟨c, hc, hfinals, ((notify_bookkeeping (srv false false) 1 {} conn es).2 c hc).2.1⟩

end Sample

end RocketSmbd
