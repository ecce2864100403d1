import RocketSmbd.Smb2.Handle

/-!
# How the steps of a handler run

For each step that session-scoped handlers are built from, its outcome and the state after it.
-/

namespace RocketSmbd

open Vfs

variable {σ : Type}

/-- The same session on another state of the system. -/
def Sx.onOs (s : Sx σ) (o : σ) : Sx σ := { s with host := { s.host with os := o } }

theorem sys_run_ok {A : Type} {m : Eff σ ℕ A} {s : Sx σ} {a : A} {o : σ}
    (h : m s.host.os = (.ok a, o)) : Handler.sys m s = (.ok a, s.onOs o) := by
  unfold Handler.sys Handler.onHost Host.sys Eff.mapErr Eff.zoom
  dsimp only
  rw [h]
  rfl

theorem sys_run_error {A : Type} {m : Eff σ ℕ A} {s : Sx σ} {e : ℕ} {o : σ}
    (h : m s.host.os = (.error e, o)) :
    Handler.sys m s = (.error (Status.fromErrno e), s.onOs o) := by
  unfold Handler.sys Handler.onHost Host.sys Eff.mapErr Eff.zoom
  dsimp only
  rw [h]
  rfl

theorem trySys_run {A : Type} (m : Eff σ ℕ A) (s : Sx σ) :
    Handler.trySys m s = (.ok (m s.host.os).1, s.onOs (m s.host.os).2) := rfl

theorem need_run {A : Type} {e : UInt32} {x : Option A} {a : A} (h : x = some a) (s : Sx σ) :
    (Eff.need e x : Handler σ A) s = (.ok a, s) := by
  rw [h]
  rfl

theorem refuse_run {c : Prop} [Decidable c] {e : UInt32} (h : ¬ c) (s : Sx σ) :
    (Eff.refuse c e : Handler σ Unit) s = (.ok (), s) := by
  rw [Eff.refuse, if_neg h]
  rfl

theorem refuse_run_error {c : Prop} [Decidable c] {e : UInt32} (h : c) (s : Sx σ) :
    (Eff.refuse c e : Handler σ Unit) s = (.error e, s) := by
  rw [Eff.refuse, if_pos h]
  rfl

theorem getHandle_run {s : Sx σ} {fid : UInt64} {of : OpenFile}
    (h : s.sess.handles.get fid s.chain.treeId = some of) :
    (Handler.getHandle fid : Handler σ OpenFile) s = (.ok of, s) := by
  rw [Handler.getHandle, Eff.bind_run_ok (Eff.read_run s), h]
  rfl

end RocketSmbd
