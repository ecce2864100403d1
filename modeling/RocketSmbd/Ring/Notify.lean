import RocketSmbd.Life.Service
import RocketSmbd.Ring.Receive

/-!
# Change notification keeps the invariants

The notify functions of `Reactor` change neither the size limit for frames nor an inotify instance
that is there; they may create one, and then its read is armed with a fresh buffer.
-/

namespace RocketSmbd.Ring

open ByteString Vfs Framing

variable {σ : Type} {L : Prop} {limit : Option ℕ}

theorem frameCap_alike {c c' : RocketSmbd.Conn} (h : c.Alike c') :
    frameCap c'.proto = frameCap c.proto := by
  unfold frameCap
  rw [show c'.proto.channels.count (fun _ ch => ch.established) = _ from h.established]
  rfl

/-! ### The invariants -/

/-- A connection that takes over what the notify functions changed. -/
theorem withFront_base {s : State σ} (h : BaseAt L limit s) (os : σ) {f : RocketSmbd.Conn}
    (hf : s.conn.front.Alike f) (hfd : f.inotifyFd = s.conn.inotifyFd) :
    BaseAt L limit { s.withOs os with conn := s.conn.withFront f } ∧
      State.txView { s.withOs os with conn := s.conn.withFront f } = s.txView := by
  have hcap : frameCap f.proto = frameCap s.conn.proto := frameCap_alike hf
  refine ⟨{ h with past := { h.past with }, inotifies := ?_, rx := { h.rx with } }, ?_⟩
  · have hops : (s.conn.withFront f).inotifyOps = s.conn.inotifyOps := by
      unfold Conn.inotifyOps
      dsimp only [Conn.withFront]
      rw [hfd]
    exact h.inotifies.trans hops.symm
  · dsimp only [State.txView, Conn.withFront, State.withOs]
    rw [hcap]
    rfl

/-- The read of an inotify instance is armed if none is outstanding. -/
theorem armInotify_base {s : State σ}
    (h : BaseAt L limit { s with conn := { s.conn with inotifyFd := none } })
    (hfd : s.conn.inotifyFd.isSome) :
    BaseAt L limit (armInotify s) ∧ (armInotify s).txView = s.txView := by
  have hopened : s.conn.closing = false := h.opened
  have hnone : s.kern.inotifies = [] := h.inotifies
  unfold armInotify
  rw [if_neg (by simp [hopened])]
  refine ⟨{ h with
    past := { h.past with }, opened := hopened, count := ?_, inotifies := ?_
    rx := { h.rx with } }, rfl⟩
  · have hcount := h.count
    simp only [State.submitInotify, Kernel.outstanding, List.length_append, List.length_singleton]
      at hcount ⊢
    omega
  · obtain ⟨ifd, hifd⟩ := Option.isSome_iff_exists.1 hfd
    simp [State.submitInotify, hnone, hifd, Conn.inotifyOps]

theorem serviceNotify_base (ctx : Ctx σ) {s : State σ} (h : BaseAt L limit s) :
    BaseAt L limit (serviceNotify ctx s) ∧ (serviceNotify ctx s).txView = s.txView := by
  have halike := serviceNotify_alike ctx.srv.env s.shared.host.os s.conn.front
  unfold serviceNotify
  dsimp only
  generalize RocketSmbd.serviceNotify ctx.srv.env.crypto ctx.srv.env.os s.shared.host.os
    s.conn.front = out at halike ⊢
  obtain ⟨os, f⟩ := out
  dsimp only at halike ⊢
  have hcap : frameCap f.proto = frameCap s.conn.proto := frameCap_alike halike
  split_ifs with hfresh
  · -- the first pend: no read of the instance can be outstanding
    have hnone : s.conn.inotifyFd = none := Option.isNone_iff_eq_none.1 hfresh.1
    have hinotifies : s.kern.inotifies = [] := h.inotifies.trans (Conn.inotifyOps_of_none hnone)
    have hpast := h.past.touch h.live (not_busy_ibuf hinotifies)
    obtain ⟨hbase, hview⟩ := armInotify_base (L := L)
      (s := State.setIbuf (zeros 4096) { s.withOs os with conn := s.conn.withFront f })
      { h with past := { hpast with }, inotifies := hinotifies, rx := { h.rx with } } hfresh.2
    refine ⟨hbase, hview.trans ?_⟩
    dsimp only [State.txView, State.setIbuf, State.touch, Conn.withFront, State.withOs]
    rw [hcap]
    rfl
  · have hfd : f.inotifyFd = s.conn.inotifyFd := by
      cases hs : s.conn.inotifyFd with
      | some ifd => exact (halike.inotifyFd (by simp [Conn.front, hs])).trans hs
      | none =>
        rw [hs] at hfresh
        simpa using hfresh
    exact withFront_base h os halike hfd

end RocketSmbd.Ring
