import RocketSmbd.Smb2.Process
import RocketSmbd.Smb2.Routes

/-!
# FileIds in requests

`wantedHandle` is the FileId that the handler of a request looks up; `Member.worksOn` is the handle
on which a member of a compound goes to work.  A member that works on none fails and touches nothing
(`Member.fails`), and one that gives the all-ones FileId looks up the FileId that the compound
remembers (`wantedHandle_ones`).
-/

namespace RocketSmbd

open ByteString Vfs

variable {σ : Type}

/-! ### The handle on which a request works -/

/-- QUERY_INFO knows the information that is asked for; for that of a file it is asked later. -/
def QueryInfoReq.known (r : QueryInfoReq) : Bool :=
  r.infoType = infoFile ∨ r.infoType = infoSecurity ∨
    (r.infoType = infoFilesystem ∧ r.infoClass.toNat ∈ [1, 3, 4, 5, 7])

/-- The FileId that a handler looks up, and what it asks of the handle before it works on it;
`none` if it refuses the request anyway.  `pends` is the number of notifies pended. -/
def wantedHandle (command : UInt16) (msg : Bytes) (chain : Chain) (tree : Tree) (pends : ℕ) :
    Option (UInt64 × (OpenFile → Bool)) :=
  let body := msg.drop 64
  if command = cmdClose then
    (Rdr.parse (closeFields chain) body).map fun r => (r.2, fun _ => true)
  else if command = cmdFlush then
    (Rdr.parse (flushFields chain) body).map fun fid => (fid, fun _ => true)
  else if command = cmdRead then
    (Rdr.parse (readFields chain) body).map fun r => (r.fid, fun of => ¬ of.isDir)
  else if command = cmdWrite then
    ((Rdr.parse (writeFields msg chain) body).filter fun _ => ¬ tree.readOnly).map
      fun r => (r.fid, fun of => of.writable)
  else if command = cmdQueryDirectory then
    (Rdr.parse (queryDirFields msg chain) body).map fun r => (r.fid, fun of => of.isDir)
  else if command = cmdQueryInfo then
    ((Rdr.parse (queryInfoFields chain) body).filter QueryInfoReq.known).map
      fun r => (r.fid, fun _ => true)
  else if command = cmdSetInfo then
    ((Rdr.parse (setInfoFields msg chain) body).filter
      fun r => r.infoType = infoFile ∧ ¬ tree.readOnly).map fun r => (r.fid, fun _ => true)
  else if command = cmdLock then
    ((Rdr.parse (lockFields chain) body).filter
      fun r => r.2.head?.all fun e => e.kind.isSome).map fun r => (r.1, fun of => ¬ of.isDir)
  else if command = cmdChangeNotify then
    ((Rdr.parse (notifyFields chain) body).filter fun _ => pends < maxNotifyPerConn).map
      fun r => (r.fid, fun of => of.isDir)
  else none

/-- The handle on which a request, its chain resolved, goes to work. -/
def Px.worksOn (srv : Srv σ) (h : ReqHdr) (msg : Bytes) (px : Px σ) : Option OpenFile := do
  let sess ← px.shared.sessions.lookup px.chain.sessionId
  let tree ← sess.trees.lookup px.chain.treeId
  let (fid, asks) ← wantedHandle h.command msg px.chain tree px.pc.notify.active.length
  let of ← sess.handles.get fid px.chain.treeId
  if (px.pc.channels.lookup px.chain.sessionId).any (·.established) ∧ ¬ tree.ipc ∧
      tree.shareIdx.toNat < srv.cfg.shares.length ∧ asks of then some of
  else none

/-- The handle on which a member goes to work. -/
def Member.worksOn (srv : Srv σ) (m : Member σ) : Option OpenFile :=
  if m.px.Reaches srv.env.crypto m.hdr m.msg then
    { m.px with chain := resolveChain m.hdr m.px.chain }.worksOn srv m.hdr m.msg
  else none

/-- A request that works on no handle: an error response or a disconnect, and nothing touched. -/
structure Px.Fails (px : Px σ) (out : Px σ × Option ZcReadPlan) : Prop where
  host : out.1.shared.host = px.shared.host
  sessions : ∀ sid, out.1.shared.sessions.lookup sid = px.shared.sessions.lookup sid
  notify : out.1.pc.notify = px.pc.notify
  plan : out.2 = none
  answer : out.1.pc.close = true ∨
    ∃ h st chain, st ≠ Status.success ∧ out.1.tx = errResp px.tx h st chain

section

open Eff (Refuses Peeks)

variable (srv : Srv σ) (msg : Bytes) (tree : Tree)

/-- The errors of handlers. -/
abbrev Failure (st : UInt32) : Prop := st ≠ Status.success

theorem getHandle_peeks (fid : UInt64) (s : Sx σ) :
    Peeks Failure (Handler.getHandle fid : Handler σ OpenFile) s
      fun of => s.sess.handles.get fid s.chain.treeId = some of :=
  .bind .read fun r hr => by
    subst hr
    exact .need (by decide) _

/-- The handler looks up no handle of the table that it would work on. -/
def Idle (command : UInt16) (msg : Bytes) (tree : Tree) (s : Sx σ) : Prop :=
  ∀ fid asks of, wantedHandle command msg s.chain tree s.notify.active.length = some (fid, asks) →
    s.sess.handles.get fid s.chain.treeId = some of → asks of = false

variable {msg tree} {s : Sx σ}

theorem takeHandle_refuses (fid : UInt64)
    (h : s.sess.handles.get fid s.chain.treeId = none) :
    Refuses Failure (takeHandle fid : Handler σ OpenFile) s := by
  refine .bind .read fun r hr => .first ?_
  subst hr
  have hremove : s.sess.handles.remove fid s.chain.treeId = none := by
    unfold HandleTable.get at h
    unfold HandleTable.remove
    rw [Option.map_eq_none_iff] at h ⊢
    exact h
  rw [hremove]
  exact .fail (by decide)

theorem close_refuses (h : Idle cmdClose msg tree s) :
    Refuses Failure (close srv (msg.drop 64)) s := by
  refine .bind .read fun r hr => .bind (.need (by decide) _) fun ⟨flags, fid⟩ hparse => .first ?_
  subst hr
  refine takeHandle_refuses fid (Option.eq_none_iff_forall_ne_some.2 fun of hof => ?_)
  have hidle := h fid (fun _ => true) of (by simp [wantedHandle, hparse]) hof
  simp at hidle

theorem flush_refuses (h : Idle cmdFlush msg tree s) :
    Refuses Failure (flush srv (msg.drop 64)) s := by
  refine .bind .read fun r hr => .bind (.need (by decide) _) fun fid hparse => ?_
  subst hr
  refine .bind (getHandle_peeks fid _) fun of hof => ?_
  have hidle := h fid (fun _ => true) of (by simp [wantedHandle, hparse, cmdFlush, cmdClose]) hof
  simp at hidle

theorem read_refuses (maxRead : UInt32) (channels : FinMap UInt64 ChannelState) (h : ReqHdr)
    (hidle : Idle cmdRead msg tree s) :
    Refuses Failure (read srv maxRead channels h (msg.drop 64)) s := by
  refine .bind .read fun r hr => .bind (.need (by decide) _) fun r hparse => ?_
  subst hr
  refine .bind (getHandle_peeks r.fid s) fun of hof =>
    .bind (.refuse (by decide) _) fun _ hdir => ?_
  have hidle' := hidle r.fid (fun of => ¬ of.isDir) of
    (by simp [wantedHandle, hparse, cmdRead, cmdFlush, cmdClose]) hof
  simp [hdir] at hidle'

theorem write_refuses (hidle : Idle cmdWrite msg tree s) :
    Refuses Failure (write srv msg tree) s := by
  refine .bind .read fun r hr => .bind (.need (by decide) _) fun r hparse =>
    .bind (.refuse (by decide) _) fun _ hro => ?_
  subst hr
  refine .bind (getHandle_peeks r.fid s) fun of hof =>
    .bind (.refuse (by decide) _) fun _ hwritable => ?_
  have hidle' := hidle r.fid (fun of => of.writable) of
    (by simp [wantedHandle, hparse, hro, cmdWrite, cmdRead, cmdFlush, cmdClose]) hof
  simp [hidle'] at hwritable

theorem queryDirectory_refuses (hidle : Idle cmdQueryDirectory msg tree s) :
    Refuses Failure (queryDirectory srv msg) s := by
  refine .bind .read fun r hr => .bind (.need (by decide) _) fun r hparse => ?_
  subst hr
  refine .bind (getHandle_peeks r.fid s) fun of hof =>
    .bind (.refuse (by decide) _) fun _ hdir => ?_
  have hidle' := hidle r.fid (fun of => of.isDir) of
    (by simp [wantedHandle, hparse, cmdQueryDirectory, cmdWrite, cmdRead, cmdFlush, cmdClose]) hof
  simp [hidle'] at hdir

theorem queryInfo_refuses (hidle : Idle cmdQueryInfo msg tree s) :
    Refuses Failure (queryInfo srv (msg.drop 64)) s := by
  refine .bind .read fun r hr => .bind (.need (by decide) _) fun r hparse => ?_
  subst hr
  refine .bind (getHandle_peeks r.fid s) fun of hof => .first ?_
  have hunknown : r.known = false := by
    by_contra hknown
    have hidle' := hidle r.fid (fun _ => true) of (by
      simp [wantedHandle, hparse, hknown, cmdQueryInfo, cmdQueryDirectory, cmdWrite, cmdRead,
        cmdFlush, cmdClose]) hof
    simp at hidle'
  simp only [QueryInfoReq.known, decide_eq_false_iff_not, not_or, not_and] at hunknown
  obtain ⟨hfile, hsecurity, hfs⟩ := hunknown
  rw [if_neg hfile]
  split_ifs with htype
  · -- a file system information class that is not known
    have hclass := hfs htype
    unfold fsInfo
    split
    all_goals first | exact .fail (by decide) | (exfalso; simp_all)
  · exact .fail (by decide)

theorem setInfo_refuses (share : ShareCfg) (hidle : Idle cmdSetInfo msg tree s) :
    Refuses Failure (setInfo srv msg share tree.readOnly) s := by
  refine .bind .read fun r hr => .bind (.need (by decide) _) fun r hparse =>
    .bind (.refuse (by decide) _) fun _ htype => .bind (.refuse (by decide) _) fun _ hro => ?_
  subst hr
  refine .bind (getHandle_peeks r.fid s) fun of hof => ?_
  have hidle' := hidle r.fid (fun _ => true) of (by
    simp [wantedHandle, hparse, not_not.1 htype, hro, cmdSetInfo, cmdQueryInfo, cmdQueryDirectory,
      cmdWrite, cmdRead, cmdFlush, cmdClose]) hof
  simp at hidle'

theorem lock_refuses (hidle : Idle cmdLock msg tree s) :
    Refuses Failure (lock srv (msg.drop 64)) s := by
  refine .bind .read fun r hr => .bind (.need (by decide) _) fun ⟨fid, elems⟩ hparse => ?_
  subst hr
  refine .bind (getHandle_peeks fid s) fun of hof => .bind (.refuse (by decide) _) fun _ hdir => ?_
  have hkind : (elems.head?.all fun e => e.kind.isSome) = false := by
    by_contra hkind
    have hidle' := hidle fid (fun of => ¬ of.isDir) of (by
      simp [wantedHandle, hparse, Bool.not_eq_false _ ▸ hkind, cmdLock, cmdSetInfo, cmdQueryInfo,
        cmdQueryDirectory, cmdWrite, cmdRead, cmdFlush, cmdClose]) hof
    simp [hdir] at hidle'
  -- the first element has no flag: no lock is tried, and there is none to undo
  cases elems with
  | nil => simp at hkind
  | cons e elems =>
    have hnone : e.kind = none := by simpa using hkind
    refine .bind (Q := (· = (Status.invalidParameter, []))) (Or.inr ⟨_, rfl, ?_⟩) fun r hr => ?_
    · unfold lockLoop
      rw [hnone]
      rfl
    · subst hr
      exact ⟨Status.invalidParameter, by decide, rfl⟩

theorem changeNotify_refuses (ch : Option ChannelState) (h : ReqHdr)
    (hidle : Idle cmdChangeNotify msg tree s) :
    Refuses Failure (changeNotify ch h (msg.drop 64)) s := by
  refine .bind .read fun r hr => .bind (.need (by decide) _) fun r hparse => ?_
  subst hr
  refine .bind (.refuse (by decide) _) fun _ hpends =>
    .bind (getHandle_peeks r.fid s) fun of hof => .bind (.refuse (by decide) _) fun _ hdir => ?_
  have hidle' := hidle r.fid (fun of => of.isDir) of (by
    simp [wantedHandle, hparse, not_le.1 hpends, cmdChangeNotify, cmdLock, cmdSetInfo,
      cmdQueryInfo, cmdQueryDirectory, cmdWrite, cmdRead, cmdFlush, cmdClose]) hof
  simp [hidle'] at hdir

end

/-- Where the FileId stands in the body of a request that gives one. -/
def fidOffset (command : UInt16) : Option ℕ :=
  if command = cmdClose ∨ command = cmdFlush ∨ command = cmdQueryDirectory ∨ command = cmdLock ∨
      command = cmdChangeNotify then some 8
  else if command = cmdRead ∨ command = cmdWrite ∨ command = cmdSetInfo then some 16
  else if command = cmdQueryInfo then some 24
  else none

section

open Eff (Refuses)

variable (srv : Srv σ) (h : ReqHdr) (msg : Bytes) (px : Px σ)
variable {sess : SessionInner}

theorem fails_err (st : UInt32) (hst : st ≠ Status.success) : px.Fails (px.err h st, none) :=
  ⟨rfl, fun _ => rfl, rfl, rfl, Or.inr ⟨h, st, px.chain, hst, rfl⟩⟩

/-- A handler that refuses. -/
theorem runHandler_refuses {A : Type} {m : Handler σ A}
    (hs : px.shared.sessions.lookup px.chain.sessionId = some sess)
    (hm : Refuses Failure m (px.enter sess)) :
    ∃ st, st ≠ Status.success ∧ (runHandler px sess m).1 = .error st ∧
      px.Fails ((runHandler px sess m).2.err h st, none) := by
  obtain ⟨st, hst, hrun⟩ := hm
  have heq : runHandler px sess m = (.error st, { px with shared := { px.shared with
      sessions := px.shared.sessions.insert px.chain.sessionId sess } }) := by
    unfold runHandler
    rw [hrun]
  rw [heq]
  refine ⟨st, hst, rfl, rfl, fun sid => ?_, rfl, rfl, Or.inr ⟨h, st, px.chain, hst, rfl⟩⟩
  dsimp only [Px.err]
  rw [FinMap.lookup_insert]
  split_ifs with hsid
  · rw [hsid, hs]
  · rfl

theorem answer_fails {m : Handler σ Body}
    (hs : px.shared.sessions.lookup px.chain.sessionId = some sess)
    (hm : Refuses Failure m (px.enter sess)) :
    px.Fails (answer h px sess m, none) := by
  obtain ⟨st, -, hrun, hfails⟩ := runHandler_refuses h px hs hm
  unfold answer
  dsimp only
  rw [hrun]
  exact hfails

theorem routeFile_fails {tree : Tree} (share : ShareCfg) (hcmd : (fidOffset h.command).isSome)
    (hs : px.shared.sessions.lookup px.chain.sessionId = some sess)
    (hidle : Idle h.command msg tree (px.enter sess)) :
    px.Fails (routeFile srv h msg px sess tree share) := by
  have hite := @ite_rule σ (fun out => px.Fails out)
  unfold routeFile
  dsimp only
  refine hite (fun hc => ?_) fun hcreate => hite (fun hc => ?_) fun hclose => hite (fun hc => ?_)
    fun hflush => hite (fun hc => ?_) fun hread => hite (fun hc => ?_) fun hwrite =>
    hite (fun hc => ?_) fun hdir => hite (fun hc => ?_) fun hinfo => hite (fun hc => ?_)
    fun hset => hite (fun hc => ?_) fun hioctl => hite (fun hc => ?_) fun hlock =>
    hite (fun hc => ?_) fun hnotify => ?_
  · rw [hc] at hcmd
    exact absurd hcmd (by decide)
  · exact answer_fails h px hs (close_refuses srv (hc ▸ hidle))
  · exact answer_fails h px hs (flush_refuses srv (hc ▸ hidle))
  · obtain ⟨st, -, hrun, hfails⟩ := runHandler_refuses h px hs
      (read_refuses srv px.pc.maxRead px.pc.channels h (hc ▸ hidle))
    unfold answerRead
    dsimp only
    rw [hrun]
    exact hfails
  · exact answer_fails h px hs (write_refuses srv (hc ▸ hidle))
  · exact answer_fails h px hs (queryDirectory_refuses srv (hc ▸ hidle))
  · exact answer_fails h px hs (queryInfo_refuses srv (hc ▸ hidle))
  · exact answer_fails h px hs (setInfo_refuses srv share (hc ▸ hidle))
  · rw [hc] at hcmd
    exact absurd hcmd (by decide)
  · exact answer_fails h px hs (lock_refuses srv (hc ▸ hidle))
  · obtain ⟨st, -, hrun, hfails⟩ := runHandler_refuses h px hs
      (changeNotify_refuses (px.pc.channels.lookup px.chain.sessionId) h (hc ▸ hidle))
    unfold answerNotify
    dsimp only
    rw [hrun]
    exact hfails
  · exact fails_err h px _ (by decide)

section

variable (hcmd : (fidOffset h.command).isSome) (hnone : px.worksOn srv h msg = none)
include hcmd hnone

theorem routeSession_fails : px.Fails (routeSession srv h msg px) := by
  unfold routeSession
  refine ite_rule (P := px.Fails) (fun _ => fails_err h px _ (by decide)) fun hest => ?_
  have hest' : (px.pc.channels.lookup px.chain.sessionId).any (·.established) = true :=
    not_not.1 hest
  unfold Px.worksOn at hnone
  cases hs : px.shared.sessions.lookup px.chain.sessionId with
  | none => exact fails_err h px _ (by decide)
  | some sess =>
    rw [hs] at hnone
    dsimp only
    refine ite_rule (P := px.Fails) (fun hc => ?_) fun _ => ?_
    · rw [hc] at hcmd
      exact absurd hcmd (by decide)
    cases htree : sess.trees.lookup px.chain.treeId with
    | none => exact fails_err h px _ (by decide)
    | some tree =>
      dsimp only
      unfold routeTree
      refine ite_rule (P := px.Fails) (fun hc => ?_) fun _ =>
        ite_rule (P := px.Fails) (fun _ => ite_rule (P := px.Fails) (fun hc => ?_)
          fun _ => fails_err h px _ (by decide)) fun hipc => ?_
      · rw [hc] at hcmd
        exact absurd hcmd (by decide)
      · rw [hc] at hcmd
        exact absurd hcmd (by decide)
      cases hshare : srv.cfg.shares[tree.shareIdx.toNat]? with
      | none => exact ⟨rfl, fun _ => rfl, rfl, rfl, Or.inl rfl⟩
      | some share =>
        refine routeFile_fails srv h msg px share hcmd hs fun fid asks of hwanted hof => ?_
        have hlt := (List.getElem?_eq_some_iff.1 hshare).1
        dsimp only at hwanted hof
        simpa [htree, hwanted, hof, hest', hipc, hlt] using hnone

theorem route_fails :
    px.Fails (route srv h msg px) := by
  have hne : ∀ c, fidOffset c = none → h.command ≠ c := fun c hc heq => by
    rw [heq, hc] at hcmd
    simp at hcmd
  unfold route
  rw [if_neg (hne _ (by decide)), if_neg (hne _ (by decide)), if_neg (hne _ (by decide)),
    if_neg (hne _ (by decide)), if_neg (hne _ (by decide))]
  exact routeSession_fails srv h msg px hcmd hnone

end

end

/-- **A member that works on no handle fails, and touches nothing.** -/
theorem Member.fails (srv : Srv σ) (m : Member σ) (hcmd : (fidOffset m.hdr.command).isSome)
    (hnone : m.worksOn srv = none) : m.px.Fails (dispatch srv m.hdr m.msg m.px) := by
  have hout := dispatch_dispatched srv m.hdr m.msg m.px
  generalize dispatch srv m.hdr m.msg m.px = out at hout ⊢
  cases hout with
  | replayed | foreign => exact ⟨rfl, fun _ => rfl, rfl, rfl, Or.inl rfl⟩
  | refused => exact ⟨rfl, fun _ => rfl, rfl, rfl, Or.inr ⟨_, _, _, by decide, rfl⟩⟩
  | routed hr =>
    rw [Member.worksOn, if_pos hr] at hnone
    have hf := route_fails srv (m.hdr.paid m.px) m.msg (m.px.ready m.hdr) hcmd hnone
    exact ⟨hf.host, hf.sessions, hf.notify, hf.plan, hf.answer⟩

/-! ### The all-ones FileId -/

/-- The member gives the all-ones FileId. -/
def Member.previous (m : Member σ) : Prop :=
  ∃ off, fidOffset m.hdr.command = some off ∧
    ((m.msg.drop 64).drop off).take 16 = List.replicate 16 0xFF

instance (m : Member σ) : Decidable m.previous :=
  decidable_of_iff (((fidOffset m.hdr.command).any fun off =>
      ((m.msg.drop 64).drop off).take 16 = List.replicate 16 0xFF) = true) (by
    simp [Member.previous, Option.any_eq_true])

section

variable {chain : Chain} {b : Bytes} {fid : UInt64}
variable {A B : Type} {g : A → UInt64}

theorem u64_ones (h : b.take 8 = List.replicate 8 0xFF) {v : UInt64} {r : Bytes}
    (hv : Rdr.u64 b = some (v, r)) : v = 0xFFFFFFFFFFFFFFFF := by
  obtain ⟨s, r', hs, hr⟩ := Rdr.bind_eq_some.1 hv
  unfold Rdr.take at hs
  split_ifs at hs
  obtain rfl : b.take 8 = s := (Prod.mk.inj (Option.some.inj hs)).1
  obtain rfl := (Prod.mk.inj (Option.some.inj hr)).1
  rw [h]
  decide

/-- All ones means the remembered FileId. -/
theorem parseFid_ones (h : b.take 16 = List.replicate 16 0xFF) {r : Bytes}
    (hfid : parseFid chain b = some (fid, r)) : chain.lastFid = some fid := by
  have hfst : b.take 8 = List.replicate 8 0xFF := by
    have htake := congrArg (List.take 8) h
    simpa [List.take_take] using htake
  have hsnd : (b.drop 8).take 8 = List.replicate 8 0xFF := by
    have hdrop := congrArg (List.drop 8) h
    simpa [List.drop_take] using hdrop
  obtain ⟨v, r₁, hv, hrest⟩ := Rdr.bind_eq_some.1 hfid
  obtain ⟨w, r₂, hw, hend⟩ := Rdr.bind_eq_some.1 hrest
  obtain rfl := Rdr.reads_u64 b v r₁ hv
  rw [if_pos ⟨u64_ones hfst hv, u64_ones hsnd hw⟩] at hend
  cases hlast : chain.lastFid with
  | none =>
    rw [hlast] at hend
    exact absurd hend (by simp [Rdr.fail])
  | some last =>
    rw [hlast] at hend
    exact congrArg some (Prod.mk.inj (Option.some.inj hend)).1

/-- The parser finds a FileId at `off` and returns it as `g` of its value. -/
def FidAt {A : Type} (off : ℕ) (p : Chain → Rdr A) (g : A → UInt64) : Prop :=
  ∀ chain b x r, (b.drop off).take 16 = List.replicate 16 0xFF → p chain b = some (x, r) →
    chain.lastFid = some (g x)

/-- The fields before the FileId. -/
theorem FidAt.peel {off n : ℕ} {p : Rdr B} {k : B → Chain → Rdr A}
    (hp : p.Reads n) (hk : ∀ y, FidAt off (k y) g) :
    FidAt (n + off) (fun chain => p >>= fun y => k y chain) g := by
  intro chain b x r hones hx
  obtain ⟨y, hy⟩ := hp.peel hx
  exact hk y chain (b.drop n) x r (by rw [List.drop_drop]; exact hones) hy

/-- Whatever else it reads, the parser returns a value with `g x = fid`. -/
def ReturnsFid {A : Type} (g : A → UInt64) (fid : UInt64) (p : Rdr A) : Prop :=
  ∀ b x r, p b = some (x, r) → g x = fid

theorem ReturnsFid.ret (x : A) : ReturnsFid g (g x) (pure x) := by
  intro b y r h
  obtain rfl := (Prod.mk.inj (Option.some.inj h)).1
  rfl

theorem ReturnsFid.bind {p : Rdr B} {k : B → Rdr A}
    (h : ∀ y, ReturnsFid g fid (k y)) : ReturnsFid g fid (p >>= k) := by
  intro b x r hx
  obtain ⟨y, r', -, hy⟩ := Rdr.bind_eq_some.1 hx
  exact h y r' x r hy

/-- The FileId and the fields after it. -/
theorem FidAt.here {k : UInt64 → Chain → Rdr A}
    (hk : ∀ fid chain, ReturnsFid g fid (k fid chain)) :
    FidAt 0 (fun chain => parseFid chain >>= fun fid => k fid chain) g := by
  intro chain b x r hones hx
  obtain ⟨fid, r', hfid, hx⟩ := Rdr.bind_eq_some.1 hx
  rw [hk fid chain r' x r hx]
  exact parseFid_ones hones hfid

section

open Rdr

theorem closeFields_fidAt : FidAt 8 closeFields Prod.snd :=
  .peel (reads_structureSize 24) fun _ => .peel reads_u16 fun flags => .peel (reads_skip 4)
    fun _ => .here fun fid _ => .ret (flags, fid)

theorem flushFields_fidAt : FidAt 8 flushFields id := by
  have hfid : FidAt 0 (fun chain => parseFid chain) id :=
    fun chain b x r hones hx => parseFid_ones hones hx
  exact .peel (reads_structureSize 24) fun _ => .peel (reads_skip (2 + 4)) fun _ => hfid

theorem readFields_fidAt : FidAt 16 readFields ReadReq.fid :=
  .peel (reads_structureSize 49) fun _ => .peel (reads_skip (1 + 1)) fun _ =>
    .peel reads_u32 fun length => .peel reads_u64 fun offset => .here fun fid _ =>
      .bind fun minCount => .ret (⟨length, offset, fid, minCount⟩ : ReadReq)

theorem writeFields_fidAt (msg : Bytes) : FidAt 16 (writeFields msg) WriteReq.fid :=
  .peel (reads_structureSize 49) fun _ => .peel reads_u16 fun _ => .peel reads_u32 fun _ =>
    .peel reads_u64 fun offset => .here fun fid _ =>
      .bind fun data => .ret (⟨data, offset, fid⟩ : WriteReq)

theorem queryDirFields_fidAt (msg : Bytes) : FidAt 8 (queryDirFields msg) QueryDirReq.fid :=
  .peel (reads_structureSize 33) fun _ => .peel reads_u8 fun infoClass => .peel reads_u8
    fun flags => .peel reads_u32 fun _ => .here fun fid _ => .bind fun _ => .bind fun _ =>
      .bind fun outLen => .bind fun pattern =>
        .ret (⟨infoClass, flags, fid, outLen, pattern⟩ : QueryDirReq)

theorem queryInfoFields_fidAt : FidAt 24 queryInfoFields QueryInfoReq.fid :=
  .peel (reads_structureSize 41) fun _ => .peel reads_u8 fun infoType => .peel reads_u8
    fun infoClass => .peel reads_u32 fun outLen => .peel (reads_skip (2 + 2 + 4 + 4 + 4))
      fun _ => .here fun fid _ => .ret (⟨infoType, infoClass, outLen, fid⟩ : QueryInfoReq)

theorem setInfoFields_fidAt (msg : Bytes) : FidAt 16 (setInfoFields msg) SetInfoReq.fid :=
  .peel (reads_structureSize 33) fun _ => .peel reads_u8 fun infoType => .peel reads_u8
    fun infoClass => .peel reads_u32 fun _ => .peel reads_u16 fun _ =>
      .peel (reads_skip (2 + 4)) fun _ => .here fun fid _ => .bind fun data =>
        .ret (⟨infoType, infoClass, fid, data⟩ : SetInfoReq)

theorem lockFields_fidAt : FidAt 8 lockFields Prod.fst := by
  refine .peel (reads_structureSize 48) fun _ => .peel reads_u16 fun count =>
    .peel (reads_skip 4) fun _ => .here fun fid _ => ?_
  split_ifs
  · intro b x r h
    exact absurd h (by simp [Rdr.fail])
  · exact .bind fun elems => .ret (fid, elems)

theorem notifyFields_fidAt : FidAt 8 notifyFields NotifyReq.fid :=
  .peel (reads_structureSize 32) fun _ => .peel reads_u16 fun flags => .peel reads_u32
    fun outLen => .here fun fid _ => .bind fun filter =>
      .ret (⟨flags, outLen, fid, filter⟩ : NotifyReq)

end

theorem FidAt.parse {off : ℕ} {p : Chain → Rdr A} {x : A}
    (h : FidAt off p g) (hones : (b.drop off).take 16 = List.replicate 16 0xFF)
    (hx : Rdr.parse (p chain) b = some x) : chain.lastFid = some (g x) := by
  obtain ⟨⟨y, r⟩, hy, rfl⟩ := Option.map_eq_some_iff.1 hx
  exact h chain b y r hones hy

/-- **The all-ones FileId leads a handler to the remembered one.** -/
theorem wantedHandle_ones {command : UInt16} {msg : Bytes} {tree : Tree} {pends off : ℕ}
    {asks : OpenFile → Bool} (hoff : fidOffset command = some off)
    (hones : ((msg.drop 64).drop off).take 16 = List.replicate 16 0xFF)
    (hwanted : wantedHandle command msg chain tree pends = some (fid, asks)) :
    chain.lastFid = some fid := by
  unfold wantedHandle at hwanted
  dsimp only at hwanted
  split_ifs at hwanted
  all_goals
    subst command
    obtain rfl := Option.some.inj hoff
    obtain ⟨r, hr, heq⟩ := Option.map_eq_some_iff.1 hwanted
    obtain rfl := (Prod.mk.inj heq).1
  · exact closeFields_fidAt.parse hones hr
  · exact flushFields_fidAt.parse hones hr
  · exact readFields_fidAt.parse hones hr
  · exact (writeFields_fidAt msg).parse hones (Option.filter_eq_some_iff.1 hr).1
  · exact (queryDirFields_fidAt msg).parse hones hr
  · exact queryInfoFields_fidAt.parse hones (Option.filter_eq_some_iff.1 hr).1
  · exact (setInfoFields_fidAt msg).parse hones (Option.filter_eq_some_iff.1 hr).1
  · exact lockFields_fidAt.parse hones (Option.filter_eq_some_iff.1 hr).1
  · exact notifyFields_fidAt.parse hones (Option.filter_eq_some_iff.1 hr).1

end

end RocketSmbd
