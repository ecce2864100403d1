import RocketSmbd.Smb2.Effects

/-!
# The changes of the shared state

`Deed` lists every way in which the server changes what its connections share: the registry with
its handles, the leases and mailboxes, and the state outside.
-/

namespace RocketSmbd

open ByteString Vfs

variable {σ : Type}

/-- Calls of the random source and the clock. -/
inductive Consults (env : Env σ) : σ → σ → Prop
  | urandom (n : ℕ) (s : σ) : Consults env s (env.os.urandom n s).2
  | now (s : σ) : Consults env s (env.os.now s).2

/-- Calls that have nothing to do with the files of a share: the random source, the clock, GSS,
inotify, and closing a descriptor. -/
inductive Aside (env : Env σ) : σ → σ → Prop
  | consults {s t : σ} (h : Consults env s t) : Aside env s t
  | acceptor (name : AcceptorName) (s : σ) : Aside env s (env.gss.acceptor name s).2
  | step (acc ctx : ℕ) (token : Bytes) (s : σ) : Aside env s (env.gss.step acc ctx token s).2
  | inotifyInit (s : σ) : Aside env s (env.os.inotifyInit s).2
  | inotifyAddWatch (fd : Fd) (p : Path) (s : σ) : Aside env s (env.os.inotifyAddWatch fd p s).2
  | inotifyRmWatch (fd : Fd) (wd : ℕ) (s : σ) : Aside env s (env.os.inotifyRmWatch fd wd s)
  | close (fd : Fd) (s : σ) : Aside env s (env.os.close fd s)

/-- Calls that have nothing to do with the files of a share, one after the other. -/
abbrev Asides (env : Env σ) : σ → σ → Prop := Relation.ReflTransGen (Aside env)

/-- The shared state with another state outside. -/
def Shared.withOs (sh : Shared σ) (o : σ) : Shared σ :=
  { sh with host := { sh.host with os := o } }

inductive DeedLabel
  | aside
  | register (sid : UInt64)
  | revise (sid : UInt64)
  | drop (sid : UInt64)
  | effect (sid : UInt64) (tree : UInt32) (e : Effect)
  | ended (sid : UInt64)
  | released (conn : ℕ × ℕ × UInt16)
  | drained (wid : ℕ)

/-- Every change of the shared state. -/
inductive Deed (srv : Srv σ) : DeedLabel → Shared σ → Shared σ → Prop
  | aside {sh : Shared σ} {o : σ} (h : Aside srv.env sh.host.os o) :
    Deed srv .aside sh (sh.withOs o)
  /-- A fresh session. -/
  | register {sh : Shared σ} (sid : UInt64) (h : sid ∉ sh.sessions) :
    Deed srv (.register sid) sh { sh with
      sessions := sh.sessions.insert sid {}, created := sh.created ++ [sid] }
  /-- A session changes, but not its trees and handles. -/
  | revise {sh : Shared σ} {sid : UInt64} {s s' : SessionInner}
      (hs : sh.sessions.lookup sid = some s) (hhandles : s'.handles = s.handles)
      (htrees : s'.trees = s.trees) (hnext : s'.nextTreeId = s.nextTreeId) :
    Deed srv (.revise sid) sh { sh with sessions := sh.sessions.insert sid s' }
  /-- The session of a setup that failed. -/
  | drop {sh : Shared σ} (sid : UInt64) :
    Deed srv (.drop sid) sh { sh with sessions := sh.sessions.erase sid }
  /-- One effect of a request on a session. -/
  | effect {sh : Shared σ} {sid : UInt64} {s : SessionInner} {chain : Chain} {q : NotifyQueues}
      {e : Effect} {sx : Sx σ} (hs : sh.sessions.lookup sid = some s)
      (hchain : chain.sessionId = sid)
      (hdoes : Sx.Does srv.env.os e ⟨s, sh.host, chain, q⟩ sx) :
    Deed srv (.effect sid chain.treeId e) sh
      { sh with sessions := sh.sessions.insert sid sx.sess, host := sx.host }
  /-- A session ends and its handles close. -/
  | ended {sh : Shared σ} {sid : UInt64} {s : SessionInner}
      (hs : sh.sessions.lookup sid = some s) :
    Deed srv (.ended sid) sh (endSession srv.env.os sh sid)
  /-- The leases of a connection that is gone. -/
  | released {sh : Shared σ} (wid idx : ℕ) (gen : UInt16) :
    Deed srv (.released (wid, idx, gen)) sh { sh with
      host := { sh.host with leases := LeaseTable.releaseConn wid idx gen sh.host.leases } }
  | drained {sh : Shared σ} (wid : ℕ) :
    Deed srv (.drained wid) sh { sh with
      host := { sh.host with mailboxes := (Mailboxes.drain sh.host.mailboxes wid).2 } }

/-- Deeds, each of which satisfies `ok` for its label and the state before it. -/
def Deeds (srv : Srv σ) (ok : DeedLabel → Shared σ → Prop) : Shared σ → Shared σ → Prop :=
  Relation.ReflTransGen fun a b => ∃ l, ok l a ∧ Deed srv l a b

namespace Deeds

variable {srv : Srv σ} {ok ok' : DeedLabel → Shared σ → Prop} {a b c : Shared σ}

theorem refl (a : Shared σ) : Deeds srv ok a a := Relation.ReflTransGen.refl

theorem single {l : DeedLabel} (h : Deed srv l a b) (hok : ok l a) : Deeds srv ok a b :=
  Relation.ReflTransGen.single ⟨l, hok, h⟩

theorem trans (h₁ : Deeds srv ok a b) (h₂ : Deeds srv ok b c) : Deeds srv ok a c :=
  Relation.ReflTransGen.trans h₁ h₂

theorem mono (h : Deeds srv ok a b) (hok : ∀ l sh, ok l sh → ok' l sh) : Deeds srv ok' a b :=
  Relation.ReflTransGen.mono (fun sh _ ⟨l, ho, hd⟩ => ⟨l, hok l sh ho, hd⟩) _ _ h

/-- What every permitted deed keeps, a sequence of them keeps. -/
theorem induct {P : Shared σ → Prop} (hP : ∀ l a b, ok l a → Deed srv l a b → P a → P b)
    (h : Deeds srv ok a b) (ha : P a) : P b := by
  induction h with
  | refl => exact ha
  | tail _ hstep ih =>
    obtain ⟨l, hok, hd⟩ := hstep
    exact hP l _ _ hok hd ih

/-- Calls outside. -/
theorem ofAsides {sh : Shared σ} {o : σ} (hok : ∀ sh, ok .aside sh)
    (h : Asides srv.env sh.host.os o) : Deeds srv ok sh (sh.withOs o) := by
  induction h with
  | refl => exact .refl _
  | @tail o o' _ hstep ih => exact ih.trans (.single (.aside hstep) (hok _))

end Deeds

/-- The deeds of a setup. -/
def setupDeed (l : DeedLabel) (_ : Shared σ) : Prop :=
  match l with
  | .aside | .register _ | .revise _ | .drop _ => True
  | _ => False

end RocketSmbd
