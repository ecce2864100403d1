import RocketSmbd.Reactor
import RocketSmbd.Smb2.Deed

/-!
# Servicing notifies, step by step

Servicing the notify queues and taking a batch of inotify events are loops over the same few steps
(`Desk.Step`): a call outside, a new watch, a final response.  Each statement about these loops is
proved for one step.  The steps change the queues and the watches of a connection, what waits to be
sent on it, and the nonces that its channels have used up; they may create its inotify instance.
The rest of the connection stays (`Conn.Alike`).
-/

namespace RocketSmbd

open ByteString Vfs

variable {σ : Type}

/-! ### Steps -/

/-- A connection that is being serviced: the new pends and the completions that are left of its
queues, the pends whose watches were taken off, and the state outside. -/
structure Desk (σ : Type) where
  new : List NotifyPend
  done : List NotifyDone
  fired : List (NotifyPend × List (UInt32 × Str))
  os : σ
  conn : Conn

inductive Desk.Step (env : Env σ) : Desk σ → Desk σ → Prop
  | asks {d : Desk σ} {s : σ} (h : Aside env d.os s) : Step env d { d with os := s }
  | opens {d : Desk σ} (ifd : Fd) (h : d.conn.inotifyFd = none) :
    Step env d { d with conn := { d.conn with inotifyFd := some ifd } }
  | rejects {d : Desk σ} {p : NotifyPend} {new : List NotifyPend} (h : d.new = p :: new) :
    Step env d { d with
      new, conn := completeNotify env.crypto d.conn p Status.insufficientResources [] }
  | watches {d : Desk σ} {p : NotifyPend} {new : List NotifyPend} (wd : ℕ) (h : d.new = p :: new) :
    Step env d { d with new, conn := { d.conn with watches := d.conn.watches ++ [⟨wd, p⟩] } }
  | skips (d : Desk σ) (done : List NotifyDone) : Step env d { d with done }
  | finishes {d : Desk σ} {watch : Watch} {watches : List Watch} {p : Watch → Bool} (st : UInt32)
      (done : List NotifyDone) (h : takeWatch p d.conn.watches = some (watch, watches)) :
    Step env d { d with
      done
      conn := { d.conn with
        watches
        deferred := d.conn.deferred ++ [(buildNotifyFinal env.crypto d.conn.proto watch.pend.info
          st [] watch.pend.outLen).2]
        proto := (buildNotifyFinal env.crypto d.conn.proto watch.pend.info st []
          watch.pend.outLen).1 } }
  | fires (d : Desk σ) (wd : ℕ) (events : List (UInt32 × Str)) :
    Step env d { d with
      fired := d.fired ++ (fireWatches wd events d.conn).1
      conn := (fireWatches wd events d.conn).2 }
  | completes {d : Desk σ} {f : NotifyPend × List (UInt32 × Str)}
      {fired : List (NotifyPend × List (UInt32 × Str))} (h : d.fired = f :: fired) :
    Step env d { d with
      fired, conn := completeNotify env.crypto d.conn f.1 Status.success f.2 }

abbrev Desk.Steps (env : Env σ) : Desk σ → Desk σ → Prop := Relation.ReflTransGen (Desk.Step env)

section

variable (env : Env σ)

/-- A loop whose passes are steps. -/
theorem Desk.Steps.foldl {A B : Type} (desk : A → List B → Desk σ) {f : A → B → A}
    (hf : ∀ acc b l, Desk.Steps env (desk acc (b :: l)) (desk (f acc b) l)) (l : List B) (acc : A) :
    Desk.Steps env (desk acc l) (desk (l.foldl f acc) []) := by
  induction l generalizing acc with
  | nil => exact .refl
  | cons b l ih => exact (hf acc b l).trans (ih (f acc b))

theorem rmWatch_steps (d : Desk σ) (ifd : Option Fd) (wd : ℕ) :
    Desk.Steps env d { d with os := rmWatch env.os ifd wd d.os } := by
  cases ifd with
  | none => exact .refl
  | some ifd => exact .single (.asks (.inotifyRmWatch ifd wd d.os))

theorem registerPend_steps (done : List NotifyDone) (sc : σ × Conn) (p : NotifyPend)
    (new : List NotifyPend) :
    Desk.Steps env ⟨p :: new, done, [], sc.1, sc.2⟩
      ⟨new, done, [], (registerPend env.crypto env.os sc p).1,
        (registerPend env.crypto env.os sc p).2⟩ := by
  have hinstance : Desk.Steps env ⟨p :: new, done, [], sc.1, sc.2⟩ ⟨p :: new, done, [],
      (inotifyInstance env.os sc.1 sc.2).2.1, (inotifyInstance env.os sc.1 sc.2).2.2⟩ := by
    have hinit : Aside env sc.1 (env.os.inotifyInit sc.1).2 := .inotifyInit sc.1
    unfold inotifyInstance
    cases hfd : sc.2.inotifyFd with
    | some ifd => exact .refl
    | none =>
      generalize env.os.inotifyInit sc.1 = out at hinit ⊢
      obtain ⟨r, s⟩ := out
      cases r with
      | ok ifd => exact .tail (.single (.asks hinit)) (.opens ifd hfd)
      | error e => exact .single (.asks hinit)
  unfold registerPend
  generalize inotifyInstance env.os sc.1 sc.2 = out at hinstance ⊢
  obtain ⟨ifd, s, c⟩ := out
  cases ifd with
  | none => exact hinstance.tail (.rejects rfl)
  | some ifd =>
    have hadd : Aside env s (env.os.inotifyAddWatch ifd p.path s).2 := .inotifyAddWatch ifd p.path s
    dsimp only
    unfold addWatch
    split_ifs
    · generalize env.os.inotifyAddWatch ifd p.path s = out at hadd ⊢
      obtain ⟨r, s⟩ := out
      cases r with
      | ok wd => exact (hinstance.tail (.asks hadd)).tail (.watches wd rfl)
      | error e => exact (hinstance.tail (.asks hadd)).tail (.rejects rfl)
    · exact hinstance.tail (.rejects rfl)

theorem finishPend_steps (sc : σ × Conn) (d : NotifyDone) (done : List NotifyDone) :
    Desk.Steps env ⟨[], d :: done, [], sc.1, sc.2⟩
      ⟨[], done, [], (finishPend env.crypto env.os sc d).1,
        (finishPend env.crypto env.os sc d).2⟩ := by
  unfold finishPend
  dsimp only
  cases htake : takeWatch (fun x => x.pend.asyncId = d.asyncId) sc.2.watches with
  | none => exact .single (.skips _ done)
  | some out =>
    have hfinish := fun s =>
      (.finishes d.status done htake : Desk.Step env ⟨[], d :: done, [], s, sc.2⟩ _)
    dsimp only
    split_ifs
    · exact .single (hfinish _)
    · exact (rmWatch_steps env ⟨[], d :: done, [], sc.1, sc.2⟩ _ _).tail (hfinish _)

theorem serviceNotify_steps (s : σ) (c : Conn) :
    Desk.Steps env ⟨c.proto.notify.new, c.proto.notify.done, [], s, { c with
        proto := { c.proto with notify := { c.proto.notify with new := [], done := [] } } }⟩
      ⟨[], [], [], (serviceNotify env.crypto env.os s c).1,
        (serviceNotify env.crypto env.os s c).2⟩ :=
  (Desk.Steps.foldl env
    (fun (sc : σ × Conn) new => ⟨new, c.proto.notify.done, [], sc.1, sc.2⟩)
    (registerPend_steps env _) c.proto.notify.new (s, _)).trans
  (Desk.Steps.foldl env (fun (sc : σ × Conn) done => ⟨[], done, [], sc.1, sc.2⟩)
    (finishPend_steps env) c.proto.notify.done _)

theorem onInotify_steps (srv : Srv σ) (s : σ) (c : Conn) (buf : Bytes) :
    Desk.Steps srv.env ⟨[], [], [], s, c⟩
      ⟨[], [], [], (onInotify srv s c buf).1, (onInotify srv s c buf).2⟩ := by
  have hloop := fun {B : Type} (f : _ → B → _) => Desk.Steps.foldl srv.env (f := f)
    (fun (acc : List (NotifyPend × List (UInt32 × Str)) × σ × Conn) _ =>
      ⟨[], [], acc.1, acc.2.1, acc.2.2⟩)
  unfold onInotify takeFired
  refine .trans (.trans (hloop _ (fun acc g _ => ?_) _ ([], s, c))
    (hloop _ (fun acc e _ => ?_) _ _))
    (Desk.Steps.foldl srv.env (fun c fired => ⟨[], [], fired, _, c⟩)
      (fun c f fired => ?_) _ _)
  · exact (rmWatch_steps srv.env ⟨[], [], acc.1, acc.2.1, acc.2.2⟩ _ g.1).tail (.fires _ g.1 g.2)
  · exact .single (.fires _ e.wd [])
  · exact .single (.completes rfl)

end

/-! ### The state outside -/

theorem Desk.Steps.asides {env : Env σ} {d d' : Desk σ} (h : Desk.Steps env d d') :
    Asides env d.os d'.os := by
  induction h with
  | refl => exact .refl
  | tail _ hstep ih =>
    cases hstep with
    | asks haside => exact ih.tail haside
    | _ => exact ih

/-! ### What stays of the connection -/

/-- The connection apart from its channels, its notifies and its history. -/
def ProtoConn.beside (pc : ProtoConn) : ProtoConn :=
  { pc with channels := ∅, notify := {}, hist := {} }

/-- The number of established channels. -/
def ProtoConn.established (pc : ProtoConn) : ℕ := pc.channels.count fun _ ch => ch.established

structure Conn.Alike (c c' : Conn) : Prop where
  gen : c'.gen = c.gen
  proto : c'.proto.beside = c.proto.beside
  established : c'.proto.established = c.proto.established
  closing : c'.closing = c.closing
  inotifyFd : c.inotifyFd.isSome → c'.inotifyFd = c.inotifyFd

theorem Conn.Alike.refl (c : Conn) : c.Alike c := ⟨rfl, rfl, rfl, rfl, fun _ => rfl⟩

theorem Conn.Alike.trans {c c' c'' : Conn} (h : c.Alike c') (h' : c'.Alike c'') : c.Alike c'' := by
  refine ⟨h'.gen.trans h.gen, h'.proto.trans h.proto, h'.established.trans h.established,
    h'.closing.trans h.closing, fun hsome => ?_⟩
  have hfd := h.inotifyFd hsome
  rw [h'.inotifyFd (hfd ▸ hsome), hfd]

/-- A final response may use up a nonce of its channel. -/
theorem buildNotifyFinal_alike (cr : Crypto) (pc : ProtoConn) (info : AsyncMeta) (st : UInt32)
    (events : List (UInt32 × Str)) (outLen : UInt32) :
    let pc' := (buildNotifyFinal cr pc info st events outLen).1
    pc'.beside = pc.beside ∧ pc'.established = pc.established ∧ pc'.notify = pc.notify := by
  unfold buildNotifyFinal
  dsimp only
  cases hch : pc.channels.lookup info.sessionId with
  | none => exact ⟨rfl, rfl, rfl⟩
  | some ch =>
    dsimp only
    split
    · next enc _ _ =>
      refine ⟨rfl, ?_, rfl⟩
      change FinMap.count _ (pc.channels.insert _ _) = FinMap.count _ pc.channels
      rw [FinMap.count_insert, FinMap.count_of_lookup _ hch]
    · exact ⟨rfl, rfl, rfl⟩

/-- A step also leaves alone what was pended meanwhile. -/
theorem Desk.Step.alike {env : Env σ} {d d' : Desk σ} (h : Desk.Step env d d') :
    d.conn.Alike d'.conn ∧ d'.conn.proto.notify.new = d.conn.proto.notify.new := by
  have hfinal := buildNotifyFinal_alike env.crypto d.conn.proto
  have hcomplete : ∀ p st events, d.conn.Alike (completeNotify env.crypto d.conn p st events) ∧
      (completeNotify env.crypto d.conn p st events).proto.notify.new =
        d.conn.proto.notify.new := by
    intro p st events
    obtain ⟨hproto, hest, hnotify⟩ := hfinal p.info st events p.outLen
    exact ⟨⟨rfl, hproto, hest, rfl, fun _ => rfl⟩, (congrArg NotifyQueues.new hnotify :)⟩
  cases h with
  | asks | watches | skips | fires => exact ⟨⟨rfl, rfl, rfl, rfl, fun _ => rfl⟩, rfl⟩
  | opens ifd hnone => exact ⟨⟨rfl, rfl, rfl, rfl, fun h => absurd h (by simp [hnone])⟩, rfl⟩
  | rejects | completes => exact hcomplete _ _ _
  | @finishes watch _ _ st =>
    obtain ⟨hproto, hest, hnotify⟩ := hfinal watch.pend.info st [] watch.pend.outLen
    exact ⟨⟨rfl, hproto, hest, rfl, fun _ => rfl⟩, (congrArg NotifyQueues.new hnotify :)⟩

theorem Desk.Steps.alike {env : Env σ} {d d' : Desk σ} (h : Desk.Steps env d d') :
    d.conn.Alike d'.conn ∧ d'.conn.proto.notify.new = d.conn.proto.notify.new := by
  induction h with
  | refl => exact ⟨.refl _, rfl⟩
  | tail _ hstep ih => exact ⟨ih.1.trans hstep.alike.1, hstep.alike.2.trans ih.2⟩

theorem serviceNotify_alike (env : Env σ) (s : σ) (c : Conn) :
    c.Alike (serviceNotify env.crypto env.os s c).2 := by
  refine Conn.Alike.trans ?_ (serviceNotify_steps env s c).alike.1
  exact ⟨rfl, rfl, rfl, rfl, fun _ => rfl⟩

theorem onInotify_alike (srv : Srv σ) (s : σ) (c : Conn) (buf : Bytes) :
    c.Alike (onInotify srv s c buf).2 :=
  (onInotify_steps srv s c buf).alike.1

end RocketSmbd
