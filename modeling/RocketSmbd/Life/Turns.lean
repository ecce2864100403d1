import RocketSmbd.Life.Events

/-!
# Runs as turns of the shared state

What the server does to the state that its connections share is a sequence of turns: one request
after the other, whichever connection and frame it comes from, the ends of connections, and in
between what concerns neither sessions nor handles.  `World.run_turns`: every run is one.
-/

namespace RocketSmbd

open ByteString Vfs

variable {σ : Type}

/-- A request as it comes to `dispatch`, but for the shared state. -/
structure Ask where
  pc : ProtoConn
  chain : Chain
  tx : Bytes
  hdr : ReqHdr
  msg : Bytes

def Ask.px (a : Ask) (sh : Shared σ) : Px σ := ⟨sh, a.pc, a.chain, a.tx⟩

/-- The session and the tree in which the request is served. -/
def Ask.place (a : Ask) : Chain := resolveChain a.hdr a.chain

/-- One turn of the shared state: a request, the end of a connection, or changes that concern
neither sessions nor handles. -/
inductive Turn (σ : Type)
  | ask (a : Ask)
  | teardown (pc : ProtoConn)
  | outside (os : σ) (leases : LeaseTable) (mailboxes : Mailboxes)

def Shared.take (srv : Srv σ) (sh : Shared σ) : Turn σ → Shared σ
  | .ask a => (dispatch srv a.hdr a.msg (a.px sh)).1.shared
  | .teardown pc => (teardownConn srv.env.os sh pc).1
  | .outside os leases mailboxes => { sh with host := { sh.host with os, leases, mailboxes } }

def Shared.turns (srv : Srv σ) (sh : Shared σ) (ts : List (Turn σ)) : Shared σ :=
  ts.foldl (Shared.take srv) sh

/-- Turns lead from `a` to `b`. -/
def Shared.Turned (srv : Srv σ) (a b : Shared σ) : Prop := ∃ ts, b = a.turns srv ts

namespace Shared.Turned

variable {srv : Srv σ} {a b c : Shared σ}

theorem refl (srv : Srv σ) (a : Shared σ) : a.Turned srv a := ⟨[], rfl⟩

theorem trans (h₁ : a.Turned srv b) (h₂ : b.Turned srv c) : a.Turned srv c := by
  obtain ⟨ts, rfl⟩ := h₁
  obtain ⟨ts', rfl⟩ := h₂
  exact ⟨ts ++ ts', (List.foldl_append ..).symm⟩

theorem one (srv : Srv σ) (a : Shared σ) (t : Turn σ) : a.Turned srv (a.take srv t) := ⟨[t], rfl⟩

end Shared.Turned

section

variable (srv : Srv σ)

/-- **An event is a sequence of turns.** -/
theorem World.step_turned (w : World σ) (e : Event) :
    w.shared.Turned srv (w.step srv e).shared := by
  refine World.step_shared (R := Shared.Turned srv) (.refl srv) .trans
    (fun {sh o} _ => .one srv sh (.outside o sh.host.leases sh.host.mailboxes)) w e ?_ ?_ ?_
  · rintro id bytes c - - m -
    exact .one srv m.px.shared (.ask ⟨m.px.pc, m.px.chain, m.px.tx, m.hdr, m.msg⟩)
  · rintro wid -
    exact .one srv w.shared (.outside w.shared.host.os w.shared.host.leases _)
  · rintro id c - - -
    exact ⟨.one srv w.shared (.teardown c.proto),
      fun sh => .one srv sh (.outside sh.host.os _ sh.host.mailboxes)⟩

/-- **Every run of the server is a sequence of turns of its shared state.** -/
theorem World.run_turns (w : World σ) (es : List Event) :
    ∃ ts, (w.run srv es).shared = w.shared.turns srv ts := by
  induction es generalizing w with
  | nil => exact ⟨[], rfl⟩
  | cons e es ih => exact (w.step_turned srv e).trans (ih (w.step srv e))

end

end RocketSmbd
