import RocketSmbd.Smb2.Create
import RocketSmbd.Smb2.Io
import RocketSmbd.Smb2.Notify
import RocketSmbd.Smb2.SetInfo

/-!
# What a session-scoped handler does

`Sx.Does os e s s'` is one effect of a handler on its state: a system call, a lease break, a change
of the handle table, a pended notify.  What a handler does from start to end is a sequence of
effects, `Sx.Acts os P`, all of them permitted by `P`.  There is one lemma for each handler,
`<handler>_acts`, which says what it has to be permitted; every statement about requests is derived
from these sequences.
-/

namespace RocketSmbd

open ByteString Vfs

variable {σ : Type}

/-! ### System calls -/

/-- What a system call can do to the file system; `look` is any call that changes neither names
nor contents nor sizes nor locks. -/
inductive FsCall
  | look
  | lock (fd : Fd)
  | close (fd : Fd)
  | openFile (p : Path) (flags : OpenFlags)
  | mkdir (p : Path)
  | pwrite (fd : Fd) (b : Bytes) (off : UInt64)
  | ftruncate (fd : Fd) (len : UInt64)
  | rename (src dst : Path)
  | remove (p : Path)

/-- The system calls of the handlers.  A descriptor may be duplicated for a call that looks, and the
duplicate closed. -/
inductive Os.Call (os : Os σ) : FsCall → σ → σ → Prop
  | stat (p : Path) (s : σ) : Call os .look s (os.stat p s).2
  | fstat (fd : Fd) (s : σ) : Call os .look s (os.fstat fd s).2
  | clearNonblock (fd : Fd) (s : σ) : Call os .look s (os.clearNonblock fd s).2
  | dup (fd : Fd) (s : σ) : Call os .look s (os.dup fd s).2
  | fadviseSequential (fd : Fd) (s : σ) : Call os .look s (os.fadviseSequential fd s)
  | pread (fd : Fd) (len : ℕ) (off : UInt64) (s : σ) : Call os .look s (os.pread fd len off s).2
  | fsync (fd : Fd) (s : σ) : Call os .look s (os.fsync fd s).2
  | futimens (fd : Fd) (at' mt : Option (ℤ × ℤ)) (s : σ) :
    Call os .look s (os.futimens fd at' mt s).2
  | readDir (p : Path) (s : σ) : Call os .look s (os.readDir p s).2
  | fstatvfs (fd : Fd) (s : σ) : Call os .look s (os.fstatvfs fd s).2
  | spareFstat {fd fd' : Fd} {s t : σ} (hdup : os.dup fd s = (.ok fd', t)) :
    Call os .look s (os.close fd' (os.fstat fd' t).2)
  | sparePread {fd fd' : Fd} {s t : σ} (len : ℕ) (off : UInt64)
    (hdup : os.dup fd s = (.ok fd', t)) : Call os .look s (os.close fd' (os.pread fd' len off t).2)
  | ofdSetLock (fd : Fd) (kind : LockKind) (start len : ℕ) (s : σ) :
    Call os (.lock fd) s (os.ofdSetLock fd kind start len s).2
  | close (fd : Fd) (s : σ) : Call os (.close fd) s (os.close fd s)
  | openFile (p : Path) (flags : OpenFlags) (mode : ℕ) (s : σ) :
    Call os (.openFile p flags) s (os.openFile p flags mode s).2
  | mkdir (p : Path) (mode : ℕ) (s : σ) : Call os (.mkdir p) s (os.mkdir p mode s).2
  | pwrite (fd : Fd) (b : Bytes) (off : UInt64) (s : σ) :
    Call os (.pwrite fd b off) s (os.pwrite fd b off s).2
  | ftruncate (fd : Fd) (len : UInt64) (s : σ) :
    Call os (.ftruncate fd len) s (os.ftruncate fd len s).2
  | rename (src dst : Path) (s : σ) : Call os (.rename src dst) s (os.rename src dst s).2
  | renameNoreplace (src dst : Path) (s : σ) :
    Call os (.rename src dst) s (os.renameNoreplace src dst s).2
  | removeFile (p : Path) (s : σ) : Call os (.remove p) s (os.removeFile p s).2
  | removeDir (p : Path) (s : σ) : Call os (.remove p) s (os.removeDir p s).2

/-- A sequence of system calls with the property `Q`. -/
def Os.Calls (os : Os σ) (Q : FsCall → Prop) : σ → σ → Prop :=
  Relation.ReflTransGen fun s t => ∃ c, Q c ∧ os.Call c s t

/-- A sequence of calls that look only. -/
abbrev Os.Looks (os : Os σ) : σ → σ → Prop := os.Calls (· = .look)

instance (os : Os σ) (Q : FsCall → Prop) : Std.Refl (os.Calls Q) := ⟨fun _ => .refl⟩

instance (os : Os σ) (Q : FsCall → Prop) : IsTrans σ (os.Calls Q) := ⟨fun _ _ _ => .trans⟩

/-- A permitted call. -/
theorem Os.Calls.of {os : Os σ} {Q : FsCall → Prop} {c : FsCall} {s t : σ} (hc : os.Call c s t)
    (hQ : Q c) : os.Calls Q s t := .single ⟨c, hQ, hc⟩

/-! ### Effects -/

/-- How a handler changes a handle in place. -/
inductive Touch
  | list (d : DirState)
  | mark (delete : Bool)
  | rename (path : Path) (rel : Str)

def Touch.apply : Touch → OpenFile → OpenFile
  | .list d, of => { of with dir := some d }
  | .mark delete, of => { of with deleteOnClose := delete }
  | .rename path rel, of => { of with leaf := leafOf rel, path, rel }

/-- The effects of handlers. -/
inductive Effect
  | call (c : FsCall)
  | breaks (key : LeaseFile) (except : Option Bytes)
  | touch (fid : UInt64) (t : Touch)
  | connect (tree : Tree)
  | disconnect
  | close (fid : UInt64) (of : OpenFile)
  | cleanup (fid : UInt64)
  | insert (of : OpenFile) (granted : Option LeaseReq) (ino : UInt64) (cid : ℕ × ℕ × UInt16)
  | accept (ch : Option ChannelState) (h : ReqHdr) (r : NotifyReq) (of : OpenFile)

/-- The effect is on the host only, and not on the handles. -/
def Effect.outer : Effect → Prop
  | .call _ | .breaks _ _ => True
  | _ => False

/-- Add a tree to the session; the chain goes on with it. -/
def addTree (tree : Tree) (s : Sx σ) : Sx σ :=
  let treeId := s.sess.nextTreeId + 1
  { s with
    sess := { s.sess with nextTreeId := treeId, trees := s.sess.trees.insert treeId tree }
    chain := { s.chain with treeId } }

/-- The tree of the chain is disconnected. -/
def dropTree (s : Sx σ) : Sx σ :=
  { s with sess := { s.sess with trees := s.sess.trees.erase s.chain.treeId } }

/-- What an effect does to the state of a handler. -/
inductive Sx.Does (os : Os σ) : Effect → Sx σ → Sx σ → Prop
  | call {c : FsCall} {s : Sx σ} {o : σ} (h : os.Call c s.host.os o) :
    Does os (.call c) s { s with host := { s.host with os := o } }
  | breaks (key : LeaseFile) (except : Option Bytes) (s : Sx σ) :
    Does os (.breaks key except) s { s with host := breakLeases key except s.host }
  | touch (fid : UInt64) (t : Touch) (s : Sx σ) :
    Does os (.touch fid t) s { s with
      sess := { s.sess with handles := s.sess.handles.modify fid s.chain.treeId t.apply } }
  | connect (tree : Tree) (s : Sx σ) : Does os (.connect tree) s (addTree tree s)
  | disconnect (s : Sx σ) : Does os .disconnect s (dropTree s)
  | close {fid : UInt64} {of : OpenFile} {t : HandleTable} {o : σ} {s : Sx σ}
    (h : s.sess.handles.remove fid s.chain.treeId = some (of, t)) (ho : os.Looks s.host.os o) :
    Does os (.close fid of) s { s with
      sess := { s.sess with handles := t }
      notify := notifyCleanup s.notify fid
      host := (finishClose os of { s.host with os := o }).2 }
  | cleanup (fid : UInt64) (s : Sx σ) :
    Does os (.cleanup fid) s { s with notify := notifyCleanup s.notify fid }
  | insert (of : OpenFile) (granted : Option LeaseReq) (ino : UInt64) (cid : ℕ × ℕ × UInt16)
    (s : Sx σ) (hroom : s.sess.handles.len < maxOpensPerSession) :
    Does os (.insert of granted ino cid) s (insertHandle of granted ino cid s).2
  | accept {ch : Option ChannelState} {h : ReqHdr} {r : NotifyReq} {of : OpenFile} {s : Sx σ}
    (hof : s.sess.handles.get r.fid s.chain.treeId = some of) :
    Does os (.accept ch h r of) s (acceptNotify ch h r of s).2

/-- A sequence of effects with the property `P`. -/
def Sx.Acts (os : Os σ) (P : Effect → Prop) : Sx σ → Sx σ → Prop :=
  Relation.ReflTransGen fun s t => ∃ e, P e ∧ Sx.Does os e s t

instance (os : Os σ) (P : Effect → Prop) : Std.Refl (Sx.Acts os P) := ⟨fun _ => .refl⟩

instance (os : Os σ) (P : Effect → Prop) : IsTrans (Sx σ) (Sx.Acts os P) := ⟨fun _ _ _ => .trans⟩

namespace Sx.Acts

variable {os : Os σ} {P P' : Effect → Prop} {s t : Sx σ}

/-- A permitted effect. -/
theorem of {e : Effect} (he : Sx.Does os e s t) (hP : P e) : Sx.Acts os P s t := .single ⟨e, hP, he⟩

theorem mono (h : Sx.Acts os P s t) (hP : ∀ e, P e → P' e) : Sx.Acts os P' s t :=
  Relation.ReflTransGen.mono (fun _ _ ⟨e, he, hd⟩ => ⟨e, hP e he, hd⟩) _ _ h

/-- What every permitted effect keeps, the sequence keeps. -/
theorem rel {R : Sx σ → Sx σ → Prop} [Std.Refl R] [IsTrans (Sx σ) R]
    (hR : ∀ e, P e → ∀ s t, Sx.Does os e s t → R s t) (h : Sx.Acts os P s t) : R s t := by
  induction h with
  | refl => exact Std.Refl.refl _
  | tail _ hstep ih =>
    obtain ⟨e, he, hd⟩ := hstep
    exact IsTrans.trans _ _ _ ih (hR e he _ _ hd)

/-- Only calls were made. -/
theorem calls {Q : FsCall → Prop} (hQ : ∀ c, Q c → P (.call c)) {o : σ}
    (h : os.Calls Q s.host.os o) :
    Sx.Acts os P s { s with host := { s.host with os := o } } := by
  induction h with
  | refl => exact .refl
  | tail _ hstep ih =>
    obtain ⟨c, hc, hcall⟩ := hstep
    exact ih.tail ⟨_, hQ c hc, .call hcall⟩

end Sx.Acts

/-! ### The calls of the filesystem layer -/

section Calls

open Eff (Keeps)

variable {os : Os σ} {Q : FsCall → Prop}

theorem statMeta_calls (hlook : Q .look) (p : Path) : Keeps (os.Calls Q) (statMeta os p) :=
  .bind (fun s => .of (.stat p s) hlook) fun _ => .ret _

theorem fstatMeta_state (fd : Fd) (s : σ) : (fstatMeta os fd s).2 = (os.fstat fd s).2 :=
  Eff.bind_pure_state _ _ s

theorem fstatMeta_calls (hlook : Q .look) (fd : Fd) : Keeps (os.Calls Q) (fstatMeta os fd) :=
  fun s => .of (fstatMeta_state fd s ▸ .fstat fd s) hlook

theorem openRaw_calls (hlook : Q .look) (hclose : ∀ fd, Q (.close fd)) (p : Path)
    (flags : OpenFlags) (mode : ℕ) (hopen : Q (.openFile p flags)) :
    Keeps (os.Calls Q) (openRaw os p flags mode) := by
  refine .bind (.refuse _ _) fun _ => .bind (fun s => .of (.openFile p flags mode s) hopen)
    fun fd => .bind (.attempt (.bind (fun s => .of (.fstat fd s) hlook) fun _ =>
      .bind (.refuse _ _) fun _ => fun s => .of (.clearNonblock fd s) hlook)) fun r => ?_
  cases r with
  | ok _ => exact .ret _
  | error e => exact .bind (.update _ fun s => .of (.close fd s) (hclose fd)) fun _ => .fail e

theorem mkdir_calls (p : Path) (mode : ℕ) (h : Q (.mkdir p)) :
    Keeps (os.Calls Q) (Vfs.mkdir os p mode) :=
  .bind (.refuse _ _) fun _ => fun s => .of (.mkdir p mode s) h

theorem renameNoreplace_calls (a b : Path) (h : Q (.rename a b)) :
    Keeps (os.Calls Q) (renameNoreplace os a b) :=
  .bind (.refuse _ _) fun _ => fun s => .of (.renameNoreplace a b s) h

theorem pwriteLoop_calls (fd : Fd) (h : ∀ b off, Q (.pwrite fd b off)) (fuel : ℕ) (buf : Bytes)
    (off : UInt64) : Keeps (os.Calls Q) (pwriteLoop os fd fuel buf off) := by
  induction fuel generalizing buf off with
  | zero => exact .ret _
  | succ fuel ih =>
    exact .ite (.ret _) (.bind (fun s => .of (.pwrite fd buf off s) (h buf off)) fun _ => ih _ _)

theorem rangeLock_calls (fd : Fd) (h : Q (.lock fd)) (off len : UInt64) (kind : LockKind) :
    Keeps (os.Calls Q) (rangeLock os fd off len kind) :=
  .ite (.ret _) fun s => .of (.ofdSetLock fd kind _ _ s) h

theorem fsSizes_calls (hlook : Q .look) (fd : Fd) : Keeps (os.Calls Q) (fsSizes os fd) :=
  .bind (fun s => .of (.fstatvfs fd s) hlook) fun _ => .ret _

theorem dirSnapshot_calls (hlook : Q .look) (toLowercase : Str → Str) (of : OpenFile)
    (pattern : Str) : Keeps (os.Calls Q) (dirSnapshot os toLowercase of pattern) :=
  .bind (fstatMeta_calls hlook _) fun _ => .bind (fun s => .of (.readDir _ s) hlook) fun _ =>
    .ite (.ret _) (.ret _)

end Calls

/-! ### The building blocks of handlers -/

section Handlers

open Eff (Keeps Holds)

variable {os : Os σ} {P : Effect → Prop}

theorem hostSys_acts {E A : Type} {m : Eff σ E A} (h : Keeps (os.Calls fun c => P (.call c)) m) :
    Keeps (Sx.Acts os P) (Handler.onHost (Host.sys m)) :=
  fun s => Sx.Acts.calls (fun _ hc => hc) (h s.host.os)

section

variable {A : Type} {m : Eff σ ℕ A} (h : Keeps (os.Calls fun c => P (.call c)) m)
include h

theorem sys_acts :
    Keeps (Sx.Acts os P) (Handler.sys m) := .mapErr _ (hostSys_acts h)

theorem trySys_acts :
    Keeps (Sx.Acts os P) (Handler.trySys m) := .attempt (hostSys_acts h)

end

theorem breakLeases_acts (key : LeaseFile) (except : Option Bytes) (h : P (.breaks key except)) :
    Keeps (Sx.Acts os P) (Handler.onHost (Eff.update (breakLeases key except)) : Handler σ Unit) :=
  fun s => .of (.breaks key except s) h

theorem getHandle_acts (fid : UInt64) :
    Keeps (Sx.Acts os P) (Handler.getHandle fid : Handler σ OpenFile) :=
  .bind .read fun _ => .need _ _

/-- A handler gets a handle that is in the table. -/
theorem getHandle_holds (fid : UInt64) (s₀ : Sx σ) :
    Holds (· = s₀) (Handler.getHandle fid : Handler σ OpenFile)
      (fun of s => s = s₀ ∧ s₀.sess.handles.get fid s₀.chain.treeId = some of) (· = s₀) := by
  refine .bind (Q := fun r s => r = s₀ ∧ s = s₀) (.read fun s hs => ⟨hs, hs⟩) fun r => ?_
  exact .need _ _ (fun s hs => hs.2) fun of s hs hof => ⟨hs.2, hs.1 ▸ hof⟩

theorem closeFd_acts (fd : Fd) (h : P (.call (.close fd))) :
    Keeps (Sx.Acts os P) (Handler.act (os.close fd)) :=
  fun s => .of (.call (.close fd s.host.os)) h

theorem touch_acts (fid : UInt64) (t : Touch) (h : P (.touch fid t)) :
    Keeps (Sx.Acts os P) (Handler.setHandle fid t.apply : Handler σ Unit) :=
  fun s => .of (.touch fid t s) h

/-! ### TREE_CONNECT and TREE_DISCONNECT -/

theorem treeConnect_acts (srv : Srv σ) (msg : Bytes) (h : ∀ tree, P (.connect tree)) :
    Keeps (Sx.Acts os P) (treeConnect srv msg) := by
  refine .bind (.need _ _) fun path => .readBind fun s₀ => ?_
  refine .bind (Q := fun _ s => s = s₀) (.ofExcept _ (fun s hs => hs ▸ .refl) fun _ s hs _ => hs)
    fun tree => ?_
  refine .bind (Q := fun _ s => s = s₀) (.refuse _ _ (fun s hs => hs ▸ .refl) fun s hs _ => hs)
    fun _ => .bind (.update _ fun s hs => ?_) fun _ => .ret _ fun s hs => hs
  subst hs
  exact .of (.connect tree s) (h tree)

theorem disconnectHandle_acts {treeId : UInt32} {s : Sx σ} (htree : s.chain.treeId = treeId)
    (fid : UInt64) (hfd : ∀ fd, P (.call (.close fd))) (hclose : ∀ of, P (.close fid of))
    (hcleanup : P (.cleanup fid)) :
    Sx.Acts os P s (disconnectHandle os treeId s fid) := by
  subst htree
  unfold disconnectHandle
  cases h : s.sess.handles.remove fid s.chain.treeId with
  | none => exact .of (.cleanup fid s) hcleanup
  | some r =>
    obtain ⟨of, t⟩ := r
    exact (Sx.Acts.of (.close h .refl) (hclose of)).tail ⟨_, hfd _, .call (.close of.fd _)⟩

theorem treeDisconnect_acts (hdisconnect : P .disconnect) (hfd : ∀ fd, P (.call (.close fd)))
    (hclose : ∀ fid of, P (.close fid of)) (hcleanup : ∀ fid, P (.cleanup fid)) :
    Keeps (Sx.Acts os P) (treeDisconnect os) := by
  refine .bind (.update _ fun s => ?_) fun _ => .ret _
  have hfold : ∀ (fids : List UInt64) (t : Sx σ), t.chain.treeId = s.chain.treeId →
      Sx.Acts os P s t → Sx.Acts os P s (fids.foldl (disconnectHandle os s.chain.treeId) t) := by
    intro fids
    induction fids with
    | nil => exact fun t _ h => h
    | cons fid fids ih =>
      intro t htree h
      refine ih _ ?_ (h.trans (disconnectHandle_acts htree fid hfd (hclose fid) (hcleanup fid)))
      unfold disconnectHandle
      split <;> exact htree
  exact hfold _ (dropTree s) rfl (.of (.disconnect s) hdisconnect)

/-! ### CLOSE -/

theorem close_acts (srv : Srv σ) (hos : srv.env.os = os) (body : Bytes)
    (hfd : ∀ fd, P (.call (.close fd))) (hclose : ∀ fid of, P (.close fid of)) :
    Keeps (Sx.Acts os P) (close srv body) := by
  subst hos
  refine .bind .read fun s => .bind (.need _ _) fun ⟨flags, fid⟩ => .ofHolds fun s₀ => ?_
  -- Up to `finishClose` the handle is out of the table and calls only look.
  let taken (of : OpenFile) (s : Sx σ) : Prop := ∃ t o,
    s₀.sess.handles.remove fid s₀.chain.treeId = some (of, t) ∧ srv.env.os.Looks s₀.host.os o ∧
      s = { s₀ with sess := { s₀.sess with handles := t }, notify := notifyCleanup s₀.notify fid
                    host := { s₀.host with os := o } }
  have htake : Holds (· = s₀) (takeHandle fid) taken (Sx.Acts srv.env.os P s₀) := by
    refine .bind (Q := fun r s => r = s₀ ∧ s = s₀) (.read fun s hs => ⟨hs, hs⟩) fun r => ?_
    refine .bind (Q := fun x s => s = s₀ ∧ s₀.sess.handles.remove fid s₀.chain.treeId = some x)
      (.need _ _ (fun s hs => hs.2 ▸ .refl) fun x s hs hx => ⟨hs.2, hs.1 ▸ hx⟩) fun ⟨of, t⟩ => ?_
    refine .bind (.update _ fun s hs => ?_) fun _ => .ret _ fun s hs => hs
    exact ⟨t, s₀.host.os, hs.2, .refl, by rw [hs.1]⟩
  refine .bind htake fun of => .bind (Q := fun _ => taken of) ?_ fun m => ?_
  · split_ifs
    · refine .bind (Q := fun _ => taken of) ?_ fun r => .ret _ fun s hs => hs
      rintro _ ⟨t, o, hremove, ho, rfl⟩
      have hfstat : srv.env.os.Looks o (fstatMeta srv.env.os of.fd o).2 :=
        fstatMeta_calls (Q := (· = .look)) rfl of.fd o
      exact ⟨t, _, hremove, ho.trans hfstat, rfl⟩
    · exact .ret _ fun s hs => hs
  · refine .bind (Q := fun _ => Sx.Acts srv.env.os P s₀) ?_ fun st => ?_
    · rintro _ ⟨t, o, hremove, ho, rfl⟩
      exact .of (.close hremove ho) (hclose fid of)
    · refine .bind (.ofKeeps (closeFd_acts of.fd (hfd _)) (fun _ s s' h h' => h.trans h')
        fun s s' h h' => h.trans h') fun _ => ?_
      exact .bind (.refuse _ _ (fun s hs => hs) fun s hs _ => hs) fun _ => .ret _ fun s hs => hs

/-! ### FLUSH, READ, WRITE and LOCK -/

variable (hlook : P (.call .look))

include hlook

theorem fstat_acts (fd : Fd) : Keeps (Sx.Acts os P) (Handler.trySys (fstatMeta os fd)) :=
  trySys_acts (fstatMeta_calls hlook fd)

theorem flush_acts (srv : Srv σ) (hos : srv.env.os = os) (body : Bytes) :
    Keeps (Sx.Acts os P) (flush srv body) := by
  subst hos
  exact .bind .read fun _ => .bind (.need _ _) fun _ => .bind (getHandle_acts _) fun of =>
    .bind (sys_acts fun s => .of (.fsync of.fd s) hlook) fun _ => .ret _

/-- A descriptor has been duplicated in a state that permitted effects lead to. -/
def Sx.Dups (os : Os σ) (P : Effect → Prop) (s₀ : Sx σ) (fd : Fd) (r : Except ℕ Fd) (s : Sx σ) :
    Prop :=
  ∃ s₁, Sx.Acts os P s₀ s₁ ∧ ∃ t, os.dup fd s₁.host.os = (r, t) ∧
    s = { s₁ with host := { s₁.host with os := t } }

/-- Permitted effects lead to the state, and to the one where `fd` is closed. -/
def Sx.Spare (os : Os σ) (P : Effect → Prop) (s₀ : Sx σ) (fd : Fd) (s : Sx σ) : Prop :=
  Sx.Acts os P s₀ s ∧ Sx.Acts os P s₀ ((Handler.act (os.close fd)).after s)

theorem spare_holds {A : Type} {s₀ : Sx σ} {fd fd' : Fd} {m : Eff σ ℕ A}
    (hm : ∀ s, os.Call .look s (m s).2)
    (hspare : ∀ s t, os.dup fd s = (.ok fd', t) → os.Call .look s (os.close fd' (m t).2)) :
    Holds (Sx.Dups os P s₀ fd (.ok fd')) (Handler.trySys m) (fun _ => Sx.Spare os P s₀ fd')
      (Sx.Acts os P s₀) := by
  rintro _ ⟨s₁, hs₁, t, hdup, rfl⟩
  have hcall : os.Call .look s₁.host.os t := by
    simpa only [hdup] using @Os.Call.dup σ os fd s₁.host.os
  exact ⟨(hs₁.tail ⟨_, hlook, .call hcall⟩).tail ⟨_, hlook, .call (hm t)⟩,
    hs₁.tail ⟨_, hlook, .call (hspare _ t hdup)⟩⟩

/-- READ works on a duplicate of the descriptor.  It is closed, or left to the reactor in a plan. -/
theorem read_holds (srv : Srv σ) (hos : srv.env.os = os) (maxRead : UInt32)
    (channels : FinMap UInt64 ChannelState) (h : ReqHdr) (body : Bytes) (s₀ : Sx σ) :
    Holds (Sx.Acts os P s₀) (read srv maxRead channels h body)
      (fun out s => Sx.Acts os P s₀ s ∧ ∀ p, out = .plan p → Sx.Spare os P s₀ p.fd s)
      (Sx.Acts os P s₀) := by
  subst hos
  have keep {A : Type} {m : Handler σ A} (hm : Keeps (Sx.Acts srv.env.os P) m) :
      Holds (Sx.Acts srv.env.os P s₀) m (fun _ => Sx.Acts srv.env.os P s₀)
        (Sx.Acts srv.env.os P s₀) :=
    .ofKeeps hm (fun _ _ _ hs hs' => hs.trans hs') fun _ _ hs hs' => hs.trans hs'
  refine .bind (keep .read) fun s => .bind (keep (.need _ _)) fun r =>
    .bind (keep (getHandle_acts _)) fun of => .bind (keep (.refuse _ _)) fun _ =>
    .bind (Q := fun fd => Sx.Dups srv.env.os P s₀ of.fd (.ok fd))
      (.bind (Q := Sx.Dups srv.env.os P s₀ of.fd) (fun s hs => ⟨s, hs, _, rfl, rfl⟩) fun r => ?_)
      fun dup => ?_
  · cases r with
    | ok fd => exact .ret _ fun _ hs => hs
    | error e =>
      refine .fail _ fun _ ⟨s₁, hs₁, t, hdup, hs⟩ => hs ▸ hs₁.tail ⟨_, hlook, .call ?_⟩
      simpa only [hdup] using @Os.Call.dup σ srv.env.os of.fd s₁.host.os
  · dsimp only
    split_ifs
    · exact .bind (spare_holds hlook (fun s => fstatMeta_state dup s ▸ .fstat dup s)
        fun s t hdup => fstatMeta_state dup t ▸ .spareFstat hdup) fun m => .ret _ fun s hs =>
        ⟨hs.1, fun p hp => ReadOut.plan.inj hp ▸ hs⟩
    · refine .bind (Q := fun _ => Sx.Acts srv.env.os P s₀)
        (.bind (spare_holds hlook (fun s => .pread dup _ _ s) fun _ _ => .sparePread _ _) fun res =>
          .bind (Q := fun _ => Sx.Acts srv.env.os P s₀) (fun _ hs => hs.2) fun _ => keep ?_)
        fun b => .ret _ fun s hs => ⟨hs, fun p hp => absurd hp (by simp)⟩
      cases res with
      | ok data => exact .bind (.refuse _ _) fun _ => .bind (.refuse _ _) fun _ => .ret _
      | error e => exact .fail _

theorem read_acts (srv : Srv σ) (hos : srv.env.os = os) (maxRead : UInt32)
    (channels : FinMap UInt64 ChannelState) (h : ReqHdr) (body : Bytes) :
    Keeps (Sx.Acts os P) (read srv maxRead channels h body) :=
  .ofHolds fun s₀ => (read_holds hlook srv hos maxRead channels h body s₀).mono
    (fun _ hs => hs ▸ .refl) (fun _ _ hs => hs.1) fun _ hs => hs

theorem write_acts (srv : Srv σ) (hos : srv.env.os = os) (msg : Bytes) (tree : Tree)
    (hwrite : tree.readOnly = false → ∀ fd b off, P (.call (.pwrite fd b off)))
    (hbreak : ∀ key except, P (.breaks key except)) :
    Keeps (Sx.Acts os P) (write srv msg tree) := by
  subst hos
  refine .bind .read fun s => .bind (.need _ _) fun r => .refuseBind fun hro =>
    .bind (getHandle_acts _) fun of => .bind (.refuse _ _) fun _ =>
    .bind (fstat_acts hlook of.fd) fun m =>
    .bind (sys_acts (pwriteLoop_calls of.fd (hwrite (Bool.eq_false_iff.2 hro) of.fd) _ _ _))
    fun _ => .bind ?_ fun _ => .ret _
  cases m with
  | ok m => exact breakLeases_acts _ _ (hbreak _ _)
  | error e => exact .ret _

omit hlook in
theorem lockLoop_acts (fd : Fd) (h : P (.call (.lock fd))) (elems : List LockElem)
    (applied : List (UInt64 × UInt64)) : Keeps (Sx.Acts os P) (lockLoop os fd elems applied) := by
  induction elems generalizing applied with
  | nil => exact .ret _
  | cons e elems ih =>
    unfold lockLoop
    cases e.kind with
    | none => exact .ret _
    | some kind =>
      refine .bind (trySys_acts (rangeLock_calls fd h _ _ _)) fun r => ?_
      cases r with
      | ok _ => exact ih _
      | error _ => exact .ret _

omit hlook in
theorem unlockAll_acts (fd : Fd) (h : P (.call (.lock fd))) (locks : List (UInt64 × UInt64)) :
    Keeps (Sx.Acts os P) (unlockAll os fd locks) := by
  induction locks with
  | nil => exact .ret _
  | cons l locks ih =>
    exact .bind (.ignore (trySys_acts (rangeLock_calls fd h _ _ _))) fun _ => ih

omit hlook in
theorem lock_acts (srv : Srv σ) (hos : srv.env.os = os) (body : Bytes)
    (hlock : ∀ fd, P (.call (.lock fd))) :
    Keeps (Sx.Acts os P) (lock srv body) := by
  subst hos
  refine .bind .read fun s => .bind (.need _ _) fun ⟨fid, elems⟩ =>
    .bind (getHandle_acts _) fun of => .bind (.refuse _ _) fun _ =>
    .bind (lockLoop_acts _ (hlock _) _ _) fun ⟨st, applied⟩ => ?_
  exact .ite (.bind (unlockAll_acts _ (hlock _) _) fun _ => .fail _) (.ret _)

/-! ### QUERY_DIRECTORY, QUERY_INFO and SET_INFO -/

section

variable (srv : Srv σ) (hos : srv.env.os = os)
include hos

theorem dirState_acts (r : QueryDirReq) (of : OpenFile)
    (hlist : ∀ fid d, P (.touch fid (.list d))) : Keeps (Sx.Acts os P) (dirState srv r of) := by
  subst hos
  unfold dirState
  dsimp only
  split
  · exact .ret _
  · exact .bind (sys_acts (dirSnapshot_calls hlook _ _ _)) fun entries =>
      .bind (touch_acts _ (.list _) (hlist _ _)) fun _ => .ret _

theorem queryDirectory_acts (msg : Bytes)
    (hlist : ∀ fid d, P (.touch fid (.list d))) :
    Keeps (Sx.Acts os P) (queryDirectory srv msg) :=
  .bind .read fun _ => .bind (.need _ _) fun _ => .bind (getHandle_acts _) fun _ =>
    .bind (.refuse _ _) fun _ => .bind (dirState_acts hlook srv hos _ _ hlist) fun _ =>
    .bind (.refuse _ _) fun _ => .bind (.need _ _) fun _ =>
    .bind (touch_acts _ (.list _) (hlist _ _)) fun _ => .bind (.refuse _ _) fun _ => .ret _

theorem fsInfo_acts (of : OpenFile) (infoClass : UInt8) :
    Keeps (Sx.Acts os P) (fsInfo srv of infoClass) := by
  subst hos
  unfold fsInfo
  split
  · exact .ret _
  · exact .bind (sys_acts (fsSizes_calls hlook _)) fun _ => .ret _
  · exact .ret _
  · exact .ret _
  · exact .bind (sys_acts (fsSizes_calls hlook _)) fun _ => .ret _
  · exact .fail _

theorem queryInfo_acts (body : Bytes) :
    Keeps (Sx.Acts os P) (queryInfo srv body) := by
  refine .bind .read fun s => .bind (.need _ _) fun r => .bind (getHandle_acts _) fun of =>
    .bind (.ite ?_ (.ite (fsInfo_acts hlook srv hos _ _) (.ite (.ret _) (.fail _)))) fun _ => .ret _
  subst hos
  exact .bind (sys_acts (fstatMeta_calls hlook _)) fun _ => .need _ _

end

theorem setDisposition_acts (fid : UInt64) (of : OpenFile) (own : List LeaseFile) (data : Bytes)
    (hmark : ∀ fid d, P (.touch fid (.mark d))) :
    Keeps (Sx.Acts os P) (setDisposition os fid of own data) := by
  refine .bind (.need _ _) fun flag => .bind (.refuse _ _) fun _ => .bind ?_ fun _ =>
    .bind (touch_acts _ (.mark _) (hmark _ _)) fun _ => .ret _
  exact .ite (.bind (sys_acts fun s => .of (.readDir of.path s) hlook) fun _ => .refuse _ _)
    (.ret _)

theorem setBasicInfo_acts (of : OpenFile) (data : Bytes) :
    Keeps (Sx.Acts os P) (setBasicInfo os of data) := by
  refine .bind (.need _ _) fun ⟨at', mt⟩ =>
    .bind (trySys_acts fun s => .of (.futimens of.fd _ _ s) hlook) fun r => ?_
  cases r with
  | ok _ => exact .ret _
  | error e => exact .bind (.refuse _ _) fun _ => .ret _

theorem replacedFile_acts (of : OpenFile) (newPath : Path) :
    Keeps (Sx.Acts os P) (replacedFile os of newPath) := by
  refine .bind (trySys_acts (statMeta_calls hlook _)) fun r => ?_
  cases r with
  | error _ => exact .ret _
  | ok m =>
    refine .ite (.ret _) (.bind (fstat_acts hlook of.fd) fun r => ?_)
    cases r with
    | ok _ => exact .ret _
    | error _ => exact .ret _

theorem pathExists_acts (p : Path) : Keeps (Sx.Acts os P) (pathExists os p) := by
  refine .bind (trySys_acts fun s => .of (.stat p s) hlook) fun r => ?_
  cases r with
  | ok _ => exact .ret _
  | error _ => exact .ret _

theorem setRename_acts (fid : UInt64) (of : OpenFile) (own : List LeaseFile) (data : Bytes)
    (shareRoot : Path) (hcall : ∀ dst, P (.call (.rename of.path dst)))
    (hrename : ∀ fid path rel, P (.touch fid (.rename path rel))) :
    Keeps (Sx.Acts os P) (setRename os fid of own data shareRoot) := by
  refine .bind (.need _ _) fun ⟨replace, name⟩ => .bind (.ofExcept _) fun ⟨newPath, newRel⟩ =>
    .bind (.refuse _ _) fun _ => .bind (.ite (.ret _) (pathExists_acts hlook _)) fun _ =>
    .bind (.refuse _ _) fun _ => .bind (replacedFile_acts hlook _ _) fun _ =>
    .bind (trySys_acts (.ite (fun s => .of (.rename _ _ s) (hcall _))
      (renameNoreplace_calls _ _ (hcall _)))) fun r => ?_
  cases r with
  | ok _ => exact .bind (touch_acts _ (.rename newPath newRel) (hrename _ _ _)) fun _ => .ret _
  | error _ => exact .fail _

theorem setInfo_acts (srv : Srv σ) (hos : srv.env.os = os) (msg : Bytes) (share : ShareCfg)
    (readOnly : Bool) (hbreak : ∀ key except, P (.breaks key except))
    (htruncate : readOnly = false → ∀ fd len, P (.call (.ftruncate fd len)))
    (hmark : readOnly = false → ∀ fid d, P (.touch fid (.mark d)))
    (hcall : readOnly = false → ∀ src dst, P (.call (.rename src dst)))
    (hrename : readOnly = false → ∀ fid path rel, P (.touch fid (.rename path rel))) :
    Keeps (Sx.Acts os P) (setInfo srv msg share readOnly) := by
  subst hos
  refine .bind .read fun s => .bind (.need _ _) fun r => .bind (.refuse _ _) fun _ =>
    .refuseBind fun hro => .bind (getHandle_acts _) fun of =>
    .bind (.bind (fstat_acts hlook of.fd) fun m => ?_) fun own => .bind ?_ fun broken =>
    .bind (fun s => ?_) fun _ => .ret _
  · cases m with
    | ok _ => exact .ret _
    | error _ => exact .ret _
  · have hwritable : readOnly = false := Bool.eq_false_iff.2 hro
    unfold setInfoClass
    split
    · exact setBasicInfo_acts hlook _ _
    · exact setDisposition_acts hlook _ _ _ _ (hmark hwritable)
    · exact setRename_acts hlook _ _ _ _ _ (hcall hwritable of.path) (hrename hwritable)
    · exact .ret _
    · exact .bind (.need _ _) fun _ =>
        .bind (sys_acts fun s => .of (.ftruncate of.fd _ s) (htruncate hwritable _ _))
          fun _ => .ret _
    · exact .fail _
  · -- one break after the other
    have hfold : ∀ (host : Host σ), Sx.Acts srv.env.os P { s with host }
        { s with
          host := broken.foldl (fun host key => breakLeases key of.leaseKey host) host } := by
      induction broken with
      | nil => exact fun host => .refl
      | cons key broken ih =>
        exact fun host => (Sx.Acts.of (.breaks key of.leaseKey _) (hbreak _ _)).trans (ih _)
    exact hfold s.host

/-! ### CREATE -/

theorem openDirectory_acts (hclose : ∀ fd, P (.call (.close fd))) (path : Path) (exist : Bool)
    (hmkdir : exist = false → P (.call (.mkdir path)))
    (hopen : P (.call (.openFile path { directory := true }))) :
    Keeps (Sx.Acts os P) (openDirectory os path exist) := by
  refine .bind ?_ fun _ => .bind (sys_acts (openRaw_calls hlook hclose _ _ _ hopen)) fun _ => .ret _
  cases exist with
  | true => exact .ret _
  | false => exact .bind (sys_acts (mkdir_calls _ _ (hmkdir rfl))) fun _ => .ret _

theorem openRegular_acts (hclose : ∀ fd, P (.call (.close fd))) (req : CreateReq) (path : Path)
    (readOnly exist : Bool) (hopen : ∀ flags, P (.call (.openFile path flags))) :
    Keeps (Sx.Acts os P) (openRegular os req path readOnly exist) := by
  refine .bind (trySys_acts (openRaw_calls hlook hclose _ _ _ (hopen _))) fun r => ?_
  cases r with
  | ok _ => exact .ret _
  | error e =>
    exact .ite (.bind (sys_acts (openRaw_calls hlook hclose _ _ _ (hopen _))) fun _ => .ret _)
      (.fail _)

omit hlook in
/-- A CREATE gets past its first checks only where the session may open another file. -/
theorem createAllowed_holds (req : CreateReq) (readOnly : Bool) (s₀ : Sx σ) :
    Holds (· = s₀) (createAllowed req readOnly : Handler σ Unit)
      (fun _ s => s = s₀ ∧ s₀.sess.handles.len < maxOpensPerSession) (· = s₀) := by
  refine .bind (Q := fun r s => r = s₀ ∧ s = s₀) (.read fun s hs => ⟨hs, hs⟩) fun r => ?_
  refine .bind (Q := fun _ s => s = s₀ ∧ s₀.sess.handles.len < maxOpensPerSession)
    (.refuse _ _ (fun s hs => hs.2) fun s hs hroom => ⟨hs.2, ?_⟩) fun _ =>
    .refuse _ _ (fun s hs => hs.1) fun s hs _ => hs
  rw [hs.1] at hroom
  exact not_le.1 hroom

theorem createOpen_holds (hclose : ∀ fd, P (.call (.close fd))) (req : CreateReq) (path : Path)
    (rel : Str) (readOnly : Bool) (hmkdir : P (.call (.mkdir path)))
    (hopen : ∀ flags, P (.call (.openFile path flags))) (s₀ : Sx σ) :
    Holds (· = s₀) (createOpen os req path rel readOnly)
      (fun _ s => s₀.sess.handles.len < maxOpensPerSession ∧ Sx.Acts os P s₀ s)
      (Sx.Acts os P s₀) := by
  refine .bind ((createAllowed_holds req readOnly s₀).mono (fun _ hs => hs) (fun _ _ h => h)
    fun s hs => hs ▸ .refl) fun _ => ?_
  refine .ofKeeps (R := Sx.Acts os P) (.bind (trySys_acts (statMeta_calls hlook _))
    fun existing => .bind ?_ fun _ =>
      .ite (openDirectory_acts hlook hclose _ _ (fun _ => hmkdir) (hopen _))
      (openRegular_acts hlook hclose _ _ _ _ hopen)) (fun _ s s' hs h => ⟨hs.2, hs.1 ▸ h⟩)
    fun s s' hs h => hs.1 ▸ h
  exact .bind (.refuse _ _) fun _ => .bind (.refuse _ _) fun _ => .bind (.refuse _ _) fun _ =>
    .bind (.refuse _ _) fun _ => .bind (.refuse _ _) fun _ => .refuse _ _

theorem openedMeta_acts (fd : Fd) (hclose : P (.call (.close fd))) :
    Keeps (Sx.Acts os P) (openedMeta os fd) := by
  refine .bind (fstat_acts hlook fd) fun r => ?_
  cases r with
  | ok _ => exact .ret _
  | error _ => exact .bind (closeFd_acts fd hclose) fun _ => .fail _

/-- The lease fields of a new handle agree with the grant it comes with. -/
structure Vfs.OpenFile.Leased (of : OpenFile) (granted : Option LeaseReq) (ino : UInt64) :
    Prop where
  ino : of.oplockIno = granted.map fun _ => ino
  key : ∀ l ∈ granted, of.leaseKey = some l.key
  state : of.leaseGranted ≠ 0 ↔ granted.isSome

omit hlook in
/-- A granted lease always has read-caching. -/
theorem grantedState_ne_zero (cfg : Config) (allowOplock isDir : Bool) (lease : Option LeaseReq) :
    grantedState cfg allowOplock isDir lease ≠ 0 ↔
      (grantedLease cfg allowOplock isDir lease).isSome := by
  unfold grantedState grantedLease
  cases lease with
  | none => simp
  | some l =>
    have hread : leaseReadCaching ||| (l.state &&& leaseHandleCaching) ≠ 0 := fun h =>
      absurd (UInt32.or_eq_zero_iff.1 h).1 (by decide)
    dsimp only
    split_ifs with hc
    · rw [Option.filter_some, if_pos (decide_eq_true hc)]
      exact iff_of_true hread rfl
    · rw [Option.filter_some, if_neg (by rw [decide_eq_true_eq]; exact hc)]
      simp

omit hlook in
theorem Sx.Does.outer {e : Effect} {s t : Sx σ} (h : Sx.Does os e s t) (he : e.outer) :
    t.sess = s.sess ∧ t.chain = s.chain ∧ ∀ g, t.host.leases.Held g → s.host.leases.Held g := by
  cases h with
  | call => exact ⟨rfl, rfl, fun _ hg => hg⟩
  | breaks => exact ⟨rfl, rfl, fun _ hg => LeaseTable.held_breakConflicts hg⟩
  | _ => exact he.elim

omit hlook in
/-- Effects outside the session and the chain, which grant no lease. -/
theorem Sx.Acts.outer {s t : Sx σ} (h : Sx.Acts os P s t) (hP : ∀ e, P e → e.outer) :
    t.sess = s.sess ∧ t.chain = s.chain ∧ ∀ g, t.host.leases.Held g → s.host.leases.Held g := by
  induction h with
  | refl => exact ⟨rfl, rfl, fun _ hg => hg⟩
  | tail _ hstep ih =>
    obtain ⟨e, he, hd⟩ := hstep
    obtain ⟨hsess, hchain, hheld⟩ := hd.outer (hP e he)
    exact ⟨hsess.trans ih.1, hchain.trans ih.2.1, fun g hg => ih.2.2 g (hheld g hg)⟩

/-- What `create` may do up to the new handle, and the handle it inserts. -/
theorem create_acts (srv : Srv σ) (hos : srv.env.os = os) (msg : Bytes) (share : ShareCfg)
    (tree : Tree) (cid : ℕ × ℕ × UInt16) (allowOplock : Bool)
    (hclose : ∀ fd, P (.call (.close fd))) (hmkdir : ∀ path, P (.call (.mkdir path)))
    (hopen : ∀ path flags, P (.call (.openFile path flags)))
    (hbreak : ∀ key except, P (.breaks key except))
    (hinsert : ∀ of granted ino, of.shareIdx = tree.shareIdx → of.Leased granted ino →
      (granted.isSome → allowOplock = true) → P (.insert of granted ino cid)) :
    Keeps (Sx.Acts os P) (create srv msg share tree cid allowOplock) := by
  subst hos
  -- up to the new handle only the host changes, so that there is still room for it
  let P₁ (e : Effect) : Prop := P e ∧ e.outer
  refine .ofHolds fun s₀ => ?_
  let before (s : Sx σ) : Prop :=
    s₀.sess.handles.len < maxOpensPerSession ∧ Sx.Acts srv.env.os P₁ s₀ s
  have hfail : ∀ s, before s → Sx.Acts srv.env.os P s₀ s := fun s hs => hs.2.mono fun _ he => he.1
  have hkeep : ∀ {A : Type} {m : Handler σ A}, Keeps (Sx.Acts srv.env.os P₁) m →
      Holds before m (fun _ => before) (Sx.Acts srv.env.os P s₀) := fun hm =>
    .ofKeeps hm (fun _ s s' hs h => ⟨hs.1, hs.2.trans h⟩)
      fun s s' hs h => hfail s' ⟨hs.1, hs.2.trans h⟩
  have hlook₁ : P₁ (.call .look) := ⟨hlook, trivial⟩
  refine .bind (Q := fun _ s => s = s₀) (.need _ _ (fun s hs => hs ▸ .refl) fun _ s hs _ => hs)
    fun req => ?_
  refine .bind (Q := fun _ s => s = s₀) (.ofExcept _ (fun s hs => hs ▸ .refl) fun _ s hs _ => hs)
    fun ⟨path, rel⟩ => ?_
  refine .bind (Q := fun _ => before) ((createOpen_holds (P := P₁) hlook₁
    (fun _ => ⟨hclose _, trivial⟩) req path rel tree.readOnly ⟨hmkdir _, trivial⟩
    (fun _ => ⟨hopen _ _, trivial⟩) s₀).mono (fun _ hs => hs)
    (fun _ _ h => h) fun s hs => hs.mono fun _ he => he.1) fun o => ?_
  refine .bind (hkeep (openedMeta_acts hlook₁ _ ⟨hclose _, trivial⟩)) fun m => ?_
  refine .bind (hkeep (.ite (.ret _)
    fun s => .of (.call (.fadviseSequential o.fd s.host.os)) hlook₁)) fun _ => ?_
  refine .bind (hkeep (.ite (breakLeases_acts _ _ ⟨hbreak _ _, trivial⟩) (.ret _))) fun _ => ?_
  refine .bind (Q := fun _ => Sx.Acts srv.env.os P s₀) (.total _ fun s hs => ?_) fun _ =>
    .ret _ fun _ hs => hs
  have hroom : s.sess.handles.len < maxOpensPerSession := by
    rw [(hs.2.outer fun _ he => he.2).1]
    exact hs.1
  refine (hfail s hs).tail ⟨_, hinsert _ _ _ rfl ⟨rfl, fun l hl => ?_,
    grantedState_ne_zero _ _ _ _⟩ fun hg => ?_, .insert _ _ _ _ s hroom⟩
  · rw [(Option.filter_eq_some_iff.1 hl).1]
    rfl
  · obtain ⟨l, hl⟩ := Option.isSome_iff_exists.1 hg
    have hcond := (Option.filter_eq_some_iff.1 hl).2
    simp only [decide_eq_true_eq] at hcond
    exact hcond.2.1

/-! ### CHANGE_NOTIFY -/

omit hlook in
theorem changeNotify_acts (ch : Option ChannelState) (h : ReqHdr) (body : Bytes)
    (haccept : ∀ r of, P (.accept ch h r of)) :
    Keeps (Sx.Acts os P) (changeNotify ch h body : Handler σ AsyncMeta) := by
  refine .readBind fun s₀ => ?_
  refine .bind (Q := fun _ s => s = s₀) (.need _ _ (fun s hs => hs ▸ .refl) fun _ s hs _ => hs)
    fun r => ?_
  refine .bind (Q := fun _ s => s = s₀) (.refuse _ _ (fun s hs => hs ▸ .refl) fun s hs _ => hs)
    fun _ => ?_
  refine .bind ((getHandle_holds r.fid s₀).mono (fun _ hs => hs) (fun _ _ h => h)
    fun s hs => hs ▸ .refl) fun of => ?_
  refine .bind (Q := fun _ s => s = s₀ ∧ s₀.sess.handles.get r.fid s₀.chain.treeId = some of)
    (.refuse _ _ (fun s hs => hs.1 ▸ .refl) fun s hs _ => hs) fun _ => .total _ fun s hs => ?_
  obtain ⟨rfl, hof⟩ := hs
  exact .of (.accept hof) (haccept r of)

end Handlers

end RocketSmbd
