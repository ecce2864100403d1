import RocketSmbd.Safety.Books
import RocketSmbd.Safety.FileView

/-!
# Protocol violations

A member of a compound that violates the protocol sets the close flag of its connection, and the
flag is looked at when all members have been dispatched.  Nothing is sent then, but the members
after the violation have been carried out.

* `dispatch_quiet`: the requests that change no session, lease, file or lock.
* `violation_stops`: in a compound whose members after the violation are such requests, nothing
  happens after the violation.
-/

namespace RocketSmbd

open ByteString Vfs

variable {σ V K : Type}

/-- Sessions with their trees and handles, leases, files and the locks on them are the same. -/
structure Quiet {env : Env σ} (F : LockView env V K) (a b : Shared σ) : Prop where
  sessions : ∀ sid, b.sessions.lookup sid = a.sessions.lookup sid
  leases : b.host.leases = a.host.leases
  files : F.Same a.host.os b.host.os
  locks : F.locks b.host.os = F.locks a.host.os

namespace Quiet

variable {env : Env σ} {F : LockView env V K} {a b c : Shared σ}

theorem refl (a : Shared σ) : Quiet F a a := ⟨fun _ => rfl, rfl, rfl, rfl⟩

theorem trans (h : Quiet F a b) (h' : Quiet F b c) : Quiet F a c :=
  ⟨fun sid => (h'.sessions sid).trans (h.sessions sid), h'.leases.trans h.leases,
    h'.files.trans h.files, h'.locks.trans h.locks⟩

end Quiet

/-- The commands that change sessions, trees, handles, leases, files or locks. -/
def Changes (cmd : UInt16) : Prop :=
  cmd ∈ [cmdSessionSetup, cmdLogoff, cmdTreeConnect, cmdTreeDisconnect, cmdCreate, cmdClose,
    cmdWrite, cmdLock, cmdQueryDirectory, cmdSetInfo]

instance (cmd : UInt16) : Decidable (Changes cmd) := inferInstanceAs (Decidable (_ ∈ _))

section

variable (srv : Srv σ) (F : LockView srv.env V K) (h : ReqHdr) (msg : Bytes) (px : Px σ)

/-- The effects of the other commands: they look, or wait for changes. -/
theorem requestEffects_quiet {sid : UInt64} {tree : Option Tree} {e : Effect}
    (hcmd : ¬ Changes h.command) (he : requestEffects h px.pc sid tree e) :
    e = .call .look ∨ ∃ ch h' r of, e = .accept ch h' r of := by
  simp only [Changes, List.mem_cons, List.not_mem_nil, or_false, not_or] at hcmd
  obtain ⟨-, -, hconnect, hdisconnect, hcreate, hclose, hwrite, hlock, hlist, hset⟩ := hcmd
  cases e with
  | call c =>
    cases c with
    | look => exact Or.inl rfl
    | lock fd => exact absurd he hlock
    | close fd =>
      rcases he with he | he | he
      · exact absurd he hcreate
      · exact absurd he hclose
      · exact absurd he hdisconnect
    | openFile p flags | mkdir p => exact absurd he hcreate
    | pwrite fd b off => exact absurd he.1 hwrite
    | ftruncate fd len | rename src dst => exact absurd he.1 hset
    | remove p => exact he.elim
  | breaks key except =>
    rcases he with he | he | he
    · exact absurd he hcreate
    · exact absurd he hwrite
    · exact absurd he hset
  | touch fid t =>
    cases t with
    | list d => exact absurd he hlist
    | mark delete | rename path rel => exact absurd he.1 hset
  | connect tree => exact absurd he hconnect
  | disconnect | cleanup fid => exact absurd he hdisconnect
  | close fid of =>
    rcases he with he | he
    · exact absurd he hclose
    · exact absurd he hdisconnect
  | insert of granted ino cid => exact absurd he.1 hcreate
  | accept ch h' r of => exact Or.inr ⟨ch, h', r, of, rfl⟩

/-- What a handler leaves behind after such effects. -/
theorem acts_quiet {ch : ChannelState} {sess : SessionInner} {sx : Sx σ}
    (hcmd : ¬ Changes h.command) (hb : px.Bound ch sess)
    (hacts : Sx.Acts srv.env.os (requestEffects h px.pc px.chain.sessionId
      (sess.trees.lookup px.chain.treeId)) (px.enter sess) sx) :
    Quiet F px.shared { px.shared with
      sessions := px.shared.sessions.insert px.chain.sessionId sx.sess, host := sx.host } := by
  have hkept : sx.sess = sess ∧ sx.host.leases = px.shared.host.leases ∧
      F.Same px.shared.host.os sx.host.os ∧
      F.locks sx.host.os = F.locks px.shared.host.os := by
    induction hacts with
    | refl => exact ⟨rfl, rfl, rfl, rfl⟩
    | tail _ hstep ih =>
      obtain ⟨e, he, hdoes⟩ := hstep
      rcases requestEffects_quiet h px hcmd he with rfl | ⟨ch, h', r, of, rfl⟩
      · cases hdoes with
        | call hcall =>
          exact ⟨ih.1, ih.2.1, (F.look hcall).trans ih.2.2.1, (F.lookLocks hcall).trans ih.2.2.2⟩
      · cases hdoes with
        | accept => exact ih
  obtain ⟨hsess, hleases, hfiles, hlocks⟩ := hkept
  refine ⟨fun sid => ?_, hleases, hfiles, hlocks⟩
  rw [FinMap.lookup_insert, hsess]
  split_ifs with hsid
  · rw [hsid, hb.session]
  · rfl

theorem routeSession_quiet (hcmd : ¬ Changes h.command) :
    Quiet F px.shared (closePlan srv.env.os (routeSession srv h msg px).1.shared
      (routeSession srv h msg px).2) := by
  refine routeSession_rule srv h msg px
    (P := fun out => Quiet F px.shared (closePlan srv.env.os out.1.shared out.2))
    (fun _ => .refl _) (.refl _) (fun ch sess hb m hm => acts_quiet srv F h px hcmd hb (hm _))
    (fun ch sess hb _ hm => ?_) fun ch sess hb hm => acts_quiet srv F h px hcmd hb (hm _)
  -- the descriptor in a plan is a duplicate, whose closing changes nothing
  have hread := read_holds (P := requestEffects h px.pc px.chain.sessionId
    (sess.trees.lookup px.chain.treeId)) trivial srv rfl px.pc.maxRead px.pc.channels h
    (msg.drop 64) (px.enter sess) (px.enter sess) .refl
  refine answerRead_cases srv h msg px sess (fun p hp => ?_)
    fun _ _ => acts_quiet srv F h px hcmd hb (hm (px.enter sess))
  dsimp only [runRead, runHandler] at hp
  rw [hp] at hread
  exact acts_quiet srv F h px hcmd hb (hread.2 p rfl).2

theorem negotiate_quiet : Quiet F px.shared (negotiate srv h msg px).shared := by
  obtain ⟨o, hasks, ho⟩ := negotiate_consults srv h msg px
  rw [ho]
  clear ho
  induction hasks with
  | refl => exact .refl _
  | tail _ hcall ih =>
    exact ih.trans ⟨fun _ => rfl, rfl, F.aside (.consults hcall), F.consultsLocks hcall⟩

/-- A request that changes nothing by its command, or does not come to its handler.  If it is left
to the reactor, the descriptor in the plan is closed. -/
theorem dispatch_quiet (hcmd : px.Reaches srv.env.crypto h msg → ¬ Changes h.command) :
    Quiet F px.shared (closePlan srv.env.os (dispatch srv h msg px).1.shared
      (dispatch srv h msg px).2) := by
  have hout := dispatch_dispatched srv h msg px
  generalize dispatch srv h msg px = out at hout ⊢
  cases hout with
  | replayed | foreign | refused => exact .refl _
  | routed hr =>
    have hno := hcmd hr
    unfold route
    split_ifs with hneg hecho hcancel hsetup hlogoff
    · exact negotiate_quiet srv F _ msg (px.ready h)
    · exact .refl _
    · exact .refl _
    · exact absurd (show Changes h.command by rw [show h.command = _ from hsetup]; decide) hno
    · exact absurd (show Changes h.command by rw [show h.command = _ from hlogoff]; decide) hno
    · exact routeSession_quiet srv F (h.paid px) msg (px.ready h) hno

end

/-! ### Compounds -/

section

variable {srv : Srv σ} (F : LockView srv.env V K) {frame : Bytes} {base : ℕ}

/-- The member comes after a violation and changes something by its command. -/
def Member.Harms (srv : Srv σ) (m : Member σ) : Prop :=
  m.px.pc.close = true ∧ m.px.Reaches srv.env.crypto m.hdr m.msg ∧ Changes m.hdr.command

instance (srv : Srv σ) (m : Member σ) : Decidable (m.Harms srv) :=
  inferInstanceAs (Decidable (_ ∧ _ ∧ _))

/-- A walk at the end of a frame that disconnects: nothing has changed since `a`. -/
structure Walk.Stopped (a : Shared σ) (w : Walk σ) : Prop where
  close : w.px.pc.close = true
  quiet : Quiet F a (closePlan srv.env.os w.px.shared w.plan)

/-- Once the flag is set, a member without harm leaves everything as it is, and the flag set. -/
theorem Member.stopped {m : Member σ} {w : Walk σ} (hm : ¬ m.Harms srv) (hplan : w.plan = none)
    (hclose : m.px.pc.close = true) : (afterMember srv w m).Stopped F m.px.shared := by
  refine ⟨(dispatch_answers srv m.hdr m.msg m.px).close hclose, ?_⟩
  have hquiet := dispatch_quiet srv F m.hdr m.msg m.px fun hr hcmd => hm ⟨hclose, hr, hcmd⟩
  change Quiet F _ (closePlan srv.env.os _ ((dispatch srv m.hdr m.msg m.px).2.or w.plan))
  rw [hplan, Option.or_none]
  exact hquiet

/-- What follows a violation in a walk changes nothing. -/
theorem Walked.stopped {w w' : Walk σ} {ms : List (Member σ)} (hw : Walked srv frame base w ms w')
    (hms : ∀ m ∈ ms, ¬ m.Harms srv) (hplan : w.plan = none) :
    (w.px.pc.close = true → w'.Stopped F w.px.shared) ∧
      ∀ m ∈ ms, m.px.pc.close = true → w'.Stopped F m.px.shared := by
  induction hw with
  | out w =>
    refine ⟨fun hclose => ⟨hclose, ?_⟩, fun m hm => absurd hm List.not_mem_nil⟩
    rw [hplan]
    exact .refl _
  | cut => exact ⟨fun _ => ⟨rfl, hplan ▸ .refl _⟩, fun m hm => absurd hm List.not_mem_nil⟩
  | @step w w' m ms hat hon hrest ih =>
    have hfirst := Member.stopped F (hms m List.mem_cons_self) hplan
    obtain ⟨hstop, hlater⟩ : (m.px.pc.close = true → w'.Stopped F m.px.shared) ∧
        ∀ m ∈ ms, m.px.pc.close = true → w'.Stopped F m.px.shared := by
      rcases hon with hon | ⟨rfl, rfl⟩
      · have hplan' : (afterMember srv w m).plan = none := Member.unplanned hat hon hplan
        obtain ⟨ihwalk, ihms⟩ := ih (fun m' hm' => hms m' (List.mem_cons_of_mem m hm')) hplan'
        refine ⟨fun hclose => ?_, ihms⟩
        obtain ⟨hstill, hdone⟩ := hfirst hclose
        rw [hplan'] at hdone
        exact { ihwalk hstill with quiet := hdone.trans (ihwalk hstill).quiet }
      · exact ⟨hfirst, fun m hm => absurd hm List.not_mem_nil⟩
    refine ⟨fun hclose => ?_, List.forall_mem_cons.2 ⟨hstop, hlater⟩⟩
    rw [← (memberAt_found hat).shared]
    exact hstop ((memberAt_found hat).pc ▸ hclose)

theorem processPlain_stopped (sh : Shared σ) (pc : ProtoConn) (frame tx : Bytes)
    (tsid : Option UInt64) (hms : ∀ m ∈ plainMembers srv sh pc frame tx tsid, ¬ m.Harms srv)
    {m : Member σ} (hm : m ∈ plainMembers srv sh pc frame tx tsid) (hclose : m.px.pc.close = true) :
    (processPlain srv sh pc frame tx tsid).action = .close ∧
      Quiet F m.px.shared (processPlain srv sh pc frame tx tsid).shared := by
  revert hms hm
  refine processPlain_cases srv sh pc frame tx tsid (fun _ _ hm => absurd hm List.not_mem_nil)
    fun _ ms w hw hms hm => ?_
  have hstop := (hw.stopped F hms rfl).2 m hm hclose
  unfold finishWalk
  rw [if_pos hstop.close]
  exact ⟨rfl, hstop.quiet⟩

end

/-- **A violation stops the compound**, if every later member that comes to its handler has a
command that changes no session, tree, handle, lease, file or lock: these are at the end of the
frame what they were when the first member after the violation was dispatched. -/
theorem violation_stops (srv : Srv σ) (F : LockView srv.env V K) (sh : Shared σ) (pc : ProtoConn)
    (frame tx : Bytes) (hms : ∀ m ∈ frameMembers srv sh pc frame tx, ¬ m.Harms srv) :
    ∀ m ∈ frameMembers srv sh pc frame tx, m.px.pc.close = true →
      Quiet F m.px.shared (processFrame srv sh pc frame tx).shared := by
  revert hms
  refine processFrame_cases srv sh pc frame tx
    (fun _ hms m hm hclose => (processPlain_stopped F _ _ _ _ _ hms hm hclose).2)
    (fun _ _ m hm => absurd hm List.not_mem_nil) (fun enc plain _ _ hms m hm hclose => ?_)
  obtain ⟨haction, hquiet⟩ := processPlain_stopped F _ _ _ _ _ hms hm hclose
  dsimp only [processSealed]
  rw [haction]
  exact hquiet

namespace Sample

/-- An ECHO with the MessageId of the NEGOTIATE, and another request. -/
def afterReplay (rest : Bytes) : Bytes := echoReq 0 72 0 2 ++ zeros 4 ++ rest

end Sample

open Sample in
/-- After the violation comes an ECHO. -/
theorem violation_stops_echo :
    let frame := afterReplay (echoReq 0 0 3 2)
    ∃ c ∈ atShare.conns.lookup conn,
      ∃ m ∈ frameMembers (srv false false) atShare.shared c.proto frame c.tx,
        m.px.pc.close = true ∧ Quiet (diskView os.openFile) m.px.shared
          (processFrame (srv false false) atShare.shared c.proto frame c.tx).shared := by
  intro frame
  obtain ⟨c, hc, hms, m, hm, hclose⟩ : ∃ c ∈ atShare.conns.lookup conn,
      (∀ m ∈ frameMembers (srv false false) atShare.shared c.proto frame c.tx,
        ¬ m.Harms (srv false false)) ∧
      ∃ m ∈ frameMembers (srv false false) atShare.shared c.proto frame c.tx,
        m.px.pc.close = true := by
    decide +kernel
  exact ⟨c, hc, m, hm, hclose,
    violation_stops (srv false false) (diskView os.openFile) _ _ _ _ hms m hm hclose⟩

open Sample in
/-- After the violation comes a CREATE: the file is made. -/
theorem violation_creates :
    let frame := afterReplay (createReq 0 0 3 1 2 fileWriteData fileCreate 0 ['a'] [])
    ∃ c ∈ atShare.conns.lookup conn,
      ∃ m ∈ frameMembers (srv false false) atShare.shared c.proto frame c.tx,
        m.px.pc.close = true ∧
          Disk.files (processFrame (srv false false) atShare.shared c.proto
            frame c.tx).shared.host.os ≠ Disk.files m.px.shared.host.os := by
  decide +kernel

end RocketSmbd
