import RocketSmbd.Life.World

/-!
# What an event does to one connection

`Visit` says where the connection in a slot comes from: it was accepted, processed a frame, took a
batch of inotify events, or is what it was but for its buffers and descriptors.  What is logged of
the frames of one connection over a run is followed with it.
-/

namespace RocketSmbd

open ByteString Vfs

variable {σ : Type}

/-- A connection after a frame that it takes. -/
def Conn.afterFrame (srv : Srv σ) (sh : Shared σ) (c : Conn) (bytes : Bytes) : Conn :=
  let out := processFrame srv sh c.proto bytes c.tx
  applyAction (serviceNotify srv.env.crypto srv.env.os out.shared.host.os
    { c with proto := out.pc, tx := out.tx }).2 out.action

/-- Where the connection `c'` that is in slot `id` after the event `e` comes from. -/
inductive Visit (srv : Srv σ) (w : World σ) (id : ConnId) : Event → Conn → Prop
  | accepted (gen : UInt16) (h : id ∉ w.conns) :
    Visit srv w id (.accept id) { gen, proto := ProtoConn.new srv id.1 id.2 gen }
  | framed (c : Conn) (bytes : Bytes) (h : w.taker id bytes = some c) :
    Visit srv w id (.frame id bytes) (c.afterFrame srv w.shared bytes)
  | notified (c : Conn) (bytes : Bytes) (h : w.active id = some c) :
    Visit srv w id (.inotify id bytes) (onInotify srv w.shared.host.os c bytes).2
  | kept (e : Event) (c c' : Conn) (h : w.conns.lookup id = some c) (hlife : c'.life = c.life)
    (hclosing : c.closing = true → c'.closing = true)
    (hframe : ∀ bytes, e = .frame id bytes → w.taker id bytes = none) : Visit srv w id e c'

/-- What the notify functions leave alone is after a frame what processing left. -/
theorem Conn.afterFrame_beside (srv : Srv σ) (sh : Shared σ) (c : Conn) (bytes : Bytes) :
    (c.afterFrame srv sh bytes).proto.beside =
      (processFrame srv sh c.proto bytes c.tx).pc.beside := by
  unfold Conn.afterFrame
  dsimp only
  generalize processFrame srv sh c.proto bytes c.tx = out
  have hservice := (serviceNotify_alike srv.env out.shared.host.os
    { c with proto := out.pc, tx := out.tx }).proto
  unfold applyAction
  split <;> exact hservice

section

variable (srv : Srv σ) {w : World σ} {id i : ConnId} {e : Event} {c c' c₁ : Conn}

/-- A connection that the event leaves alone. -/
theorem Visit.same (h : w.conns.lookup id = some c')
    (hframe : ∀ bytes, e = .frame id bytes → w.taker id bytes = none) : Visit srv w id e c' :=
  .kept e c' c' h rfl (fun hc => hc) hframe

/-- A change of one connection that keeps its life. -/
theorem Visit.change (hc : w.active i = some c)
    (h : (w.conns.insert i c₁).lookup id = some c') (hlife : c₁.life = c.life)
    (hframe : ∀ bytes, e = .frame id bytes → w.taker id bytes = none) : Visit srv w id e c' := by
  rw [FinMap.lookup_insert] at h
  split_ifs at h with hid
  · obtain rfl := Option.some.inj h
    obtain ⟨hlook, hopen⟩ := Option.filter_eq_some_iff.1 hc
    have hopen : c.closing = false := by simpa using hopen
    refine .kept e c c₁ (hid ▸ hlook) hlife (fun hclosing => ?_) hframe
    rw [hopen] at hclosing
    cases hclosing
  · exact .same srv h hframe

/-- **An event takes, changes or leaves alone the connection of a slot.** -/
theorem World.step_visit (h : (w.step srv e).conns.lookup id = some c') : Visit srv w id e c' := by
  have hstep := w.step_cases srv e
  generalize w.step srv e = w' at hstep h
  cases hstep with
  | stays _ hframe => exact .same srv h (hframe id)
  | accepts i hin =>
    rw [onAccept, if_neg hin, FinMap.lookup_insert] at h
    split_ifs at h with hid
    · obtain rfl := Option.some.inj h
      obtain rfl := hid
      exact .accepted _ hin
    · exact .same srv h fun _ he => by cases he
  | takes i bytes c htaker =>
    unfold onFrame at h
    dsimp only at h
    rw [World.setConn, FinMap.lookup_insert] at h
    split_ifs at h with hid
    · obtain rfl := Option.some.inj h
      obtain rfl := hid
      exact .framed c bytes htaker
    · refine .same srv h fun b he => ?_
      obtain ⟨rfl, -⟩ := Event.frame.inj he
      exact absurd rfl hid
  | notifies i bytes c hc =>
    rw [World.setConn, FinMap.lookup_insert] at h
    split_ifs at h with hid
    · obtain rfl := Option.some.inj h
      obtain rfl := hid
      exact .notified c bytes hc
    · exact .same srv h fun _ he => by cases he
  | changes _ i c c₁ s hc hlife _ hframe => exact .change srv hc h hlife (hframe id)
  | wakes wid =>
    have hwake := (onWake_spec srv w wid).2.2 id
    rw [h] at hwake
    obtain ⟨c, hc, heq⟩ := Option.map_eq_some_iff.1 hwake.symm
    have hlife := congrArg Conn.life heq
    have hclosing := congrArg Conn.closing heq
    exact .kept _ c c' hc hlife.symm (fun hcl => hclosing.symm.trans hcl) fun _ he => by cases he
  | drops i c =>
    unfold finalizeClose at h
    dsimp only at h
    rw [FinMap.lookup_erase] at h
    split_ifs at h
    exact .same srv h fun _ he => by cases he

/-! ### What is kept of the frames of a connection -/

/-- What is kept of the frames of connection `id`, after an event: `init` when it is accepted, and
what `f` makes of it when it takes a frame. -/
def frameLog {L : Type} (id : ConnId) (init : L) (f : Shared σ → Conn → Bytes → L → L)
    (w : World σ) (l : L) : Event → L
  | .accept i => if i = id ∧ id ∉ w.conns then init else l
  | .frame i bytes =>
    if i = id then
      match w.taker id bytes with
      | some c => f w.shared c bytes l
      | none => l
    else l
  | _ => l

/-- **An event keeps what holds of a connection and what is kept of its frames.** -/
theorem World.step_logged {L : Type} {init l : L} {f : Shared σ → Conn → Bytes → L → L}
    {P : Conn → L → Prop}
    (hnew : ∀ gen, P { gen, proto := ProtoConn.new srv id.1 id.2 gen } init)
    (hframe : ∀ c bytes, e = .frame id bytes → w.taker id bytes = some c → P c l →
      P (c.afterFrame srv w.shared bytes) (f w.shared c bytes l))
    (hnotified : ∀ c bytes, P c l → P (onInotify srv w.shared.host.os c bytes).2 l)
    (hkept : ∀ c c', c'.life = c.life → (c.closing = true → c'.closing = true) → P c l → P c' l)
    (h : ∀ c, w.conns.lookup id = some c → P c l)
    (hc' : (w.step srv e).conns.lookup id = some c') : P c' (frameLog id init f w l e) := by
  cases World.step_visit srv hc' with
  | accepted gen hid =>
    simp only [frameLog, hid, not_false_eq_true, and_self, if_true]
    exact hnew gen
  | framed c bytes htaker =>
    simp only [frameLog, if_true, htaker]
    exact hframe c bytes rfl htaker (h c (World.taker_lookup htaker))
  | notified c bytes hactive => exact hnotified c bytes (h c (World.active_lookup hactive))
  | kept _ c _ hc hlife hclosing hno =>
    have hlog : frameLog id init f w l e = l := by
      have hin : id ∈ w.conns := by
        by_contra hout
        rw [FinMap.notMem_iff.1 hout] at hc
        cases hc
      cases e with
      | accept i => simp [frameLog, hin]
      | frame i bytes =>
        by_cases hid : i = id
        · subst hid
          simp [frameLog, hno bytes rfl]
        · simp [frameLog, hid]
      | _ => rfl
    rw [hlog]
    exact hkept c c' hlife hclosing (h c hc)

end

end RocketSmbd
