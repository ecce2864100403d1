import RocketSmbd.Lib.WakeQueue
import RocketSmbd.Sample

/-!
# Lease breaks between workers (`Mailbox`, `arm_wake`, `on_wake`)

`World.step` posts, drains and delivers in one go.  Here the steps are as fine as the threads can
see them: a post pushes its message and then writes the mailbox's eventfd; the owner's read of the
eventfd completes, `on_wake` drains the queue, delivers one break after the other and arms the read
again; and everything else the server does may happen in between.

Per worker this is a `WakeQueue`, so no break is lost, doubled or overtaken, and no wake-up is
missed.
-/

namespace RocketSmbd

open ByteString WakeQueue

variable {σ : Type}

/-! ### The fine steps -/

/-- The server between the steps of posts and wake-ups, each field that is a function by worker. -/
structure Wakeups (σ : Type) where
  world : World σ
  /-- The counter of the mailbox's eventfd. -/
  efd : ℕ → ℕ
  /-- Posts that have pushed their message and not written the eventfd. -/
  posting : ℕ → ℕ
  /-- Where the worker's `on_wake` is; it waits while its read is armed. -/
  phase : ℕ → Phase BreakMsg
  /-- History: what was pushed. -/
  enqueued : ℕ → List BreakMsg
  /-- History: what was handed to `deliverBreak`. -/
  delivered : ℕ → List BreakMsg

namespace Wakeups

/-- The largest value of an eventfd counter: a write beyond it fails with `EAGAIN`. -/
def efdMax : ℕ := 2 ^ 64 - 2

/-- The queue of worker `wid`. -/
def queue (s : Wakeups σ) (wid : ℕ) : List BreakMsg := s.world.shared.host.mailboxes.getD wid []

def withMailboxes (w : World σ) (mailboxes : Mailboxes) : World σ :=
  { w with shared := { w.shared with host := { w.shared.host with mailboxes } } }

/-- The first half of a post.  There is nothing to post to for a worker that does not exist. -/
def push (s : Wakeups σ) (b : BreakMsg) : Wakeups σ :=
  if s.world.shared.host.mailboxes.length ≤ b.wid then s
  else
    { s with
      world := withMailboxes s.world (s.world.shared.host.mailboxes.post b)
      posting := Function.update s.posting b.wid (s.posting b.wid + 1)
      enqueued := Function.update s.enqueued b.wid (s.enqueued b.wid ++ [b]) }

/-- The second half of a post: add one to the eventfd. -/
def write (s : Wakeups σ) (wid : ℕ) : Wakeups σ :=
  if s.posting wid = 0 then s
  else
    { s with
      efd := Function.update s.efd wid (if s.efd wid < efdMax then s.efd wid + 1 else s.efd wid)
      posting := Function.update s.posting wid (s.posting wid - 1) }

/-- The armed read of the eventfd completes and takes the counter. -/
def readDone (s : Wakeups σ) (wid : ℕ) : Wakeups σ :=
  match s.phase wid with
  | .waiting =>
    if s.efd wid = 0 then s
    else
      { s with
        efd := Function.update s.efd wid 0
        phase := Function.update s.phase wid .woken }
  | _ => s

/-- The armed read is interrupted: `on_wake` runs all the same. -/
def readFailed (s : Wakeups σ) (wid : ℕ) : Wakeups σ :=
  match s.phase wid with
  | .waiting => { s with phase := Function.update s.phase wid .woken }
  | _ => s

/-- `on_wake` drains the queue. -/
def drain (s : Wakeups σ) (wid : ℕ) : Wakeups σ :=
  match s.phase wid with
  | .woken =>
    let (breaks, mailboxes) := s.world.shared.host.mailboxes.drain wid
    { s with
      world := withMailboxes s.world mailboxes
      phase := Function.update s.phase wid (.handing breaks) }
  | _ => s

/-- `on_wake` delivers the next break. -/
def deliver (cr : Crypto) (s : Wakeups σ) (wid : ℕ) : Wakeups σ :=
  match s.phase wid with
  | .handing (b :: rest) =>
    { s with
      world := deliverBreak cr wid s.world b
      phase := Function.update s.phase wid (.handing rest)
      delivered := Function.update s.delivered wid (s.delivered wid ++ [b]) }
  | _ => s

/-- `on_wake` has delivered all breaks and arms the read again. -/
def armWake (s : Wakeups σ) (wid : ℕ) : Wakeups σ :=
  match s.phase wid with
  | .handing [] => { s with phase := Function.update s.phase wid .waiting }
  | _ => s

inductive Act (σ : Type)
  | push (b : BreakMsg)
  | write (wid : ℕ)
  | readDone (wid : ℕ)
  | readFailed (wid : ℕ)
  | drain (wid : ℕ)
  | deliver (wid : ℕ)
  | armWake (wid : ℕ)
  /-- Whatever else happens in the server; posts and drains apart the mailboxes stay. -/
  | other (w : World σ)

/-- One step; an act that the state does not allow leaves it as it is. -/
def step (cr : Crypto) (s : Wakeups σ) : Act σ → Wakeups σ
  | .push b => s.push b
  | .write wid => s.write wid
  | .readDone wid => s.readDone wid
  | .readFailed wid => s.readFailed wid
  | .drain wid => s.drain wid
  | .deliver wid => s.deliver cr wid
  | .armWake wid => s.armWake wid
  | .other w => { s with world := withMailboxes w s.world.shared.host.mailboxes }

def run (cr : Crypto) (s : Wakeups σ) (acts : List (Act σ)) : Wakeups σ := acts.foldl (step cr) s

/-- The server at its start: every mailbox is empty and every worker waits. -/
def start (workers : ℕ) (os : σ) : Wakeups σ where
  world := World.start workers os
  efd := fun _ => 0
  posting := fun _ => 0
  phase := fun _ => .waiting
  enqueued := fun _ => []
  delivered := fun _ => []

end Wakeups

/-! ### Queues of mailboxes -/

namespace Mailboxes

variable (mbs : Mailboxes)

theorem getD_post_self (b : BreakMsg) (h : b.wid < mbs.length) :
    (post mbs b).getD b.wid [] = mbs.getD b.wid [] ++ [b] := by
  rw [post, List.getD_eq_getElem?_getD, List.getD_eq_getElem?_getD, List.getElem?_modify_eq,
    List.getElem?_eq_getElem h]
  rfl

theorem getD_post_of_ne (b : BreakMsg) {wid : ℕ} (h : b.wid ≠ wid) :
    (post mbs b).getD wid [] = mbs.getD wid [] := by
  rw [post, List.getD_eq_getElem?_getD, List.getD_eq_getElem?_getD, List.getElem?_modify]
  simp only [if_neg h, id_map']

theorem getD_drain_self (wid : ℕ) : (drain mbs wid).2.getD wid [] = [] := by
  rw [drain, List.getD_eq_getElem?_getD, List.getElem?_modify_eq]
  cases mbs[wid]? <;> rfl

theorem getD_drain_of_ne {wid wid' : ℕ} (h : wid ≠ wid') :
    (drain mbs wid).2.getD wid' [] = mbs.getD wid' [] := by
  dsimp only [drain]
  rw [List.getD_eq_getElem?_getD, List.getD_eq_getElem?_getD, List.getElem?_modify]
  simp only [if_neg h, id_map']

end Mailboxes

/-- A delivery leaves the shared state alone. -/
theorem deliverBreak_shared (cr : Crypto) (wid : ℕ) (w : World σ) (b : BreakMsg) :
    (deliverBreak cr wid w b).shared = w.shared := by
  unfold deliverBreak
  cases w.active (wid, b.connIdx) with
  | none => rfl
  | some c =>
    dsimp only
    split_ifs <;> rfl

namespace Wakeups

/-! ### Every worker's mailbox is a wake queue -/

/-- What the other workers do not see of worker `wid`. -/
def view (s : Wakeups σ) (wid : ℕ) : WakeQueue.State BreakMsg where
  queue := s.queue wid
  counter := s.efd wid
  posting := s.posting wid
  phase := s.phase wid
  enqueued := s.enqueued wid
  handed := s.delivered wid

/-- The step from `s` to `s'` is a step of worker `wid`'s queue, or none of its business. -/
def Follows (s s' : Wakeups σ) (wid : ℕ) : Prop :=
  s'.view wid = s.view wid ∨ Step (s.view wid) (s'.view wid)

theorem Follows.refl (s : Wakeups σ) (wid : ℕ) : Follows s s wid := Or.inl rfl

/-- A step of one worker, of which the others see nothing. -/
theorem Follows.at {s s' : Wakeups σ} (k : ℕ) (hown : Step (s.view k) (s'.view k))
    (hothers : ∀ wid, wid ≠ k → s'.view wid = s.view wid) (wid : ℕ) : Follows s s' wid := by
  by_cases hwid : wid = k
  · exact Or.inr (hwid ▸ hown)
  · exact Or.inl (hothers wid hwid)

theorem push_follows (s : Wakeups σ) (b : BreakMsg) (wid : ℕ) : Follows s (s.push b) wid := by
  unfold push
  split_ifs with hlen
  · exact Follows.refl s wid
  · refine Follows.at b.wid ?_ (fun wid hwid => ?_) wid
    · have hqueue := Mailboxes.getD_post_self s.world.shared.host.mailboxes b (not_le.1 hlen)
      convert Step.enqueue b using 1
      simp only [view, Function.update_self, State.mk.injEq, and_true]
      exact hqueue
    · have hqueue := Mailboxes.getD_post_of_ne s.world.shared.host.mailboxes b hwid.symm
      simp only [view, Function.update_of_ne hwid, State.mk.injEq, and_true]
      exact hqueue

section

variable (s : Wakeups σ) (k wid : ℕ)

theorem write_follows : Follows s (s.write k) wid := by
  unfold write
  split_ifs with hposting hmax
  · exact Follows.refl s wid
  · refine Follows.at k ?_ (fun wid hwid => ?_) wid
    · convert Step.raise (s.efd k + 1) (Nat.succ_pos _) using 1
      simp only [view, Function.update_self]
      rfl
    · simp only [view, Function.update_of_ne hwid]
      rfl
  · refine Follows.at k ?_ (fun wid hwid => ?_) wid
    · -- a write to a full counter fails, and the counter stays positive
      have hpos : 0 < s.efd k := lt_of_lt_of_le (by decide) (not_lt.1 hmax)
      convert Step.raise (s.efd k) hpos using 1
      simp only [view, Function.update_self]
      rfl
    · simp only [view, Function.update_of_ne hwid]
      rfl

theorem readDone_follows : Follows s (s.readDone k) wid := by
  unfold readDone
  cases hphase : s.phase k with
  | woken | handing batch => exact Follows.refl s wid
  | waiting =>
    dsimp only
    split_ifs with hefd
    · exact Follows.refl s wid
    · refine Follows.at k ?_ (fun wid hwid => ?_) wid
      · convert Step.wake (s := s.view k) 0 hphase using 1
        simp only [view, Function.update_self]
        rfl
      · simp only [view, Function.update_of_ne hwid]
        rfl

theorem readFailed_follows : Follows s (s.readFailed k) wid := by
  unfold readFailed
  cases hphase : s.phase k with
  | woken | handing batch => exact Follows.refl s wid
  | waiting =>
    refine Follows.at k ?_ (fun wid hwid => ?_) wid
    · convert Step.wake (s := s.view k) (s.efd k) hphase using 1
      simp only [view, Function.update_self]
      rfl
    · simp only [view, Function.update_of_ne hwid]
      rfl

theorem drain_follows : Follows s (s.drain k) wid := by
  unfold drain
  cases hphase : s.phase k with
  | waiting | handing batch => exact Follows.refl s wid
  | woken =>
    refine Follows.at k ?_ (fun wid hwid => ?_) wid
    · have hqueue := Mailboxes.getD_drain_self s.world.shared.host.mailboxes k
      convert Step.take (s := s.view k) hphase using 1
      simp only [view, Function.update_self, State.mk.injEq, true_and, and_true]
      exact ⟨hqueue, rfl⟩
    · have hqueue := Mailboxes.getD_drain_of_ne s.world.shared.host.mailboxes hwid.symm
      simp only [view, Function.update_of_ne hwid, State.mk.injEq, and_true]
      exact hqueue

theorem armWake_follows : Follows s (s.armWake k) wid := by
  unfold armWake
  cases hphase : s.phase k with
  | waiting | woken => exact Follows.refl s wid
  | handing batch =>
    cases batch with
    | cons b rest => exact Follows.refl s wid
    | nil =>
      refine Follows.at k ?_ (fun wid hwid => ?_) wid
      · convert Step.wait (s := s.view k) hphase using 1
        simp only [view, Function.update_self]
        rfl
      · simp only [view, Function.update_of_ne hwid]
        rfl

end

variable (cr : Crypto)

theorem deliver_follows (s : Wakeups σ) (k wid : ℕ) : Follows s (s.deliver cr k) wid := by
  unfold deliver
  cases hphase : s.phase k with
  | waiting | woken => exact Follows.refl s wid
  | handing batch =>
    cases batch with
    | nil => exact Follows.refl s wid
    | cons b rest =>
      have hshared := deliverBreak_shared cr k s.world b
      refine Follows.at k ?_ (fun wid hwid => ?_) wid
      · convert Step.hand (s := s.view k) b rest hphase using 1
        simp only [view, queue, hshared, Function.update_self]
      · simp only [view, queue, hshared, Function.update_of_ne hwid]

theorem step_follows (s : Wakeups σ) (a : Act σ) (wid : ℕ) : Follows s (step cr s a) wid := by
  cases a with
  | push b => exact push_follows s b wid
  | write k => exact write_follows s k wid
  | readDone k => exact readDone_follows s k wid
  | readFailed k => exact readFailed_follows s k wid
  | drain k => exact drain_follows s k wid
  | deliver k => exact deliver_follows cr s k wid
  | armWake k => exact armWake_follows s k wid
  | other w => exact Or.inl rfl

/-- A run of the server is a run of every worker's queue. -/
theorem run_view (s : Wakeups σ) (acts : List (Act σ)) (wid : ℕ) :
    Relation.ReflTransGen Step (s.view wid) ((run cr s acts).view wid) := by
  induction acts generalizing s with
  | nil => exact .refl
  | cons a acts ih =>
    have hrest := ih (step cr s a)
    rcases step_follows cr s a wid with hsame | hstep
    · rw [hsame] at hrest
      exact hrest
    · exact .head hstep hrest

theorem start_valid (workers wid : ℕ) (os : σ) : ((start workers os).view wid).Valid := by
  have hqueue : ((start workers os).view wid).queue = [] := by
    change (List.replicate workers ([] : List BreakMsg)).getD wid [] = []
    rw [List.getD_eq_getElem?_getD, List.getElem?_replicate]
    split_ifs <;> rfl
  refine ⟨?_, fun hne => absurd hqueue hne⟩
  rw [hqueue]
  rfl

/-- **Breaks between workers**: what was pushed for a worker is what it delivered, what its
`on_wake` has drained and not yet delivered, and what is queued, in this order; and unless a post
is between its two steps, a queue that is not empty has a wake-up pending. -/
theorem breaks_delivered_once (workers : ℕ) (os : σ) (acts : List (Act σ)) (wid : ℕ) :
    let s := run cr (start workers os) acts
    s.enqueued wid = s.delivered wid ++ (s.phase wid).batch ++ s.queue wid ∧
      (s.queue wid ≠ [] → s.posting wid = 0 → 0 < s.efd wid ∨ s.phase wid = .woken) := by
  intro s
  have hvalid : (s.view wid).Valid :=
    (start_valid workers wid os).steps (run_view cr (start workers os) acts wid)
  refine ⟨hvalid.order, fun hne hposting => ?_⟩
  rcases hvalid.awake hne with hp | hawake
  · exact absurd hposting hp.ne'
  · exact hawake

theorem breaks_delivered_once_posted :
    let b : BreakMsg := ⟨0, 0, 1, [], 1, 0, 1, 2⟩
    let s := run Sample.crypto (start 1 ()) [.push b, .write 0]
    s.queue 0 ≠ [] ∧ s.posting 0 = 0 ∧ (0 < s.efd 0 ∨ s.phase 0 = .woken) :=
  ⟨by decide, rfl, (breaks_delivered_once Sample.crypto 1 () _ 0).2 (by decide) rfl⟩

/-! ### `on_wake` -/

/-- The deliveries of a batch, one after the other. -/
theorem run_deliver (s : Wakeups σ) (wid : ℕ) (batch : List BreakMsg)
    (h : s.phase wid = .handing batch) :
    run cr s (List.replicate batch.length (.deliver wid)) =
      { s with
        world := batch.foldl (deliverBreak cr wid) s.world
        phase := Function.update s.phase wid (.handing [])
        delivered := Function.update s.delivered wid (s.delivered wid ++ batch) } := by
  induction batch generalizing s with
  | nil =>
    rw [← h, Function.update_eq_self, List.append_nil, Function.update_eq_self]
    rfl
  | cons b batch ih =>
    have hstep : step cr s (.deliver wid) =
        { s with
          world := deliverBreak cr wid s.world b
          phase := Function.update s.phase wid (.handing batch)
          delivered := Function.update s.delivered wid (s.delivered wid ++ [b]) } := by
      simp only [step, deliver, h]
    change run cr (step cr s (.deliver wid)) (List.replicate batch.length (.deliver wid)) = _
    rw [hstep, ih _ (Function.update_self _ _ _)]
    simp only [Function.update_self, Function.update_idem, List.append_assoc, List.singleton_append,
      List.foldl_cons]

/-- The acts of one `on_wake` of worker `wid`, with `n` breaks in its mailbox. -/
def onWakeActs (wid n : ℕ) : List (Act σ) :=
  .drain wid :: List.replicate n (.deliver wid) ++ [.armWake wid]

/-- With nothing in between, the acts of an `on_wake` are `onWake`. -/
theorem run_onWakeActs (srv : Srv σ) (s : Wakeups σ) (wid : ℕ) (h : s.phase wid = .woken) :
    run srv.env.crypto s (onWakeActs wid (s.queue wid).length) =
      { s with
        world := onWake srv s.world wid
        phase := Function.update s.phase wid .waiting
        delivered := Function.update s.delivered wid (s.delivered wid ++ s.queue wid) } := by
  have hdrain : step srv.env.crypto s (.drain wid) =
      { s with
        world := withMailboxes s.world (s.world.shared.host.mailboxes.drain wid).2
        phase := Function.update s.phase wid (.handing (s.queue wid)) } := by
    simp only [step, drain, h]
    rfl
  unfold run onWakeActs
  rw [List.cons_append, List.foldl_cons, List.foldl_append, hdrain]
  have hdeliver := run_deliver srv.env.crypto
    { s with
      world := withMailboxes s.world (s.world.shared.host.mailboxes.drain wid).2
      phase := Function.update s.phase wid (.handing (s.queue wid)) }
    wid (s.queue wid) (Function.update_self _ _ _)
  unfold run at hdeliver
  rw [hdeliver]
  simp only [List.foldl_cons, List.foldl_nil, step, armWake, Function.update_self,
    Function.update_idem]
  rfl

end Wakeups

end RocketSmbd
