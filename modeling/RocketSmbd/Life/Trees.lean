import RocketSmbd.Life.Handles
import RocketSmbd.Smb2.Fields
import RocketSmbd.Smb2.FileIds

/-!
# Tree connections

A handle belongs to the tree connection on which it was opened.  The server knows a tree connection
by its TreeId, which a counter of the session gives out; `TreeLog` numbers the TREE_CONNECTs
themselves, and remembers for each handle the one under which it was opened.

* `SessionInner.Confined`: every handle of a session is on a tree that is connected, and has been
  since the handle was opened;
* `Deed.confined`: what is done to other sessions, and what a request does that neither connects
  nor disconnects a tree nor opens a handle, keeps it;
* `dispatch_create_confined`, `dispatch_connect`, `dispatch_disconnect`: the requests that do.
-/

namespace RocketSmbd

open ByteString Vfs

variable {σ : Type}

/-- The TREE_CONNECTs of a session, numbered in their order: the one that last gave out a TreeId,
the tree that each one gave, and the one under which a handle was opened. -/
structure TreeLog where
  connects : ℕ := 0
  since : UInt32 → ℕ := fun _ => 0
  given : ℕ → Option Tree := fun _ => none
  born : ℕ → ℕ := fun _ => 0

/-- Every connected tree is known from its TREE_CONNECT, and every handle is on a tree that has been
connected since the handle was opened. -/
structure SessionInner.Confined (log : TreeLog) (opened : ℕ) (s : SessionInner) : Prop where
  trees : ∀ t tree, s.trees.lookup t = some tree →
    t.toNat ≤ s.nextTreeId.toNat ∧ log.since t < log.connects ∧
      log.given (log.since t) = some tree
  handles : ∀ of ∈ s.handles.live, of.serial < opened ∧ (s.trees.lookup of.treeId).isSome ∧
    log.since of.treeId = log.born of.serial
  fits : s.handles.Fits maxOpensPerSession

/-- Session `sid`, if it is registered, is confined. -/
def Shared.Confined (sid : UInt64) (log : TreeLog) (sh : Shared σ) : Prop :=
  ∀ s, sh.sessions.lookup sid = some s → s.Confined log sh.host.opened

namespace SessionInner.Confined

variable {log : TreeLog} {opened opened' : ℕ} {s s' : SessionInner}

theorem fresh (log : TreeLog) (opened : ℕ) : ({} : SessionInner).Confined log opened :=
  ⟨fun _ _ h => (nomatch h), fun _ h => (nomatch h), Slab.fits_empty _⟩

section

variable (h : s.Confined log opened)
include h

/-- Handles may leave or change, but not their trees and serial numbers. -/
theorem keep (htrees : s'.trees = s.trees)
    (hnext : s'.nextTreeId = s.nextTreeId)
    (hlive : ∀ of ∈ s'.handles.live, ∃ of' ∈ s.handles.live, of'.treeId = of.treeId ∧
      of'.serial = of.serial)
    (hfits : s'.handles.Fits maxOpensPerSession) (hle : opened ≤ opened') :
    s'.Confined log opened' := by
  refine ⟨fun t tree ht => ?_, fun of hof => ?_, hfits⟩
  · rw [htrees] at ht
    rw [hnext]
    exact h.trees t tree ht
  · obtain ⟨of', hof', htree, hser⟩ := hlive of hof
    obtain ⟨hlt, hconn, hborn⟩ := h.handles of' hof'
    rw [htree] at hconn hborn
    rw [hser] at hlt hborn
    rw [htrees]
    exact ⟨hlt.trans_le hle, hconn, hborn⟩

theorem mono (hle : opened ≤ opened') : s.Confined log opened' :=
  h.keep rfl rfl (fun of hof => ⟨of, hof, rfl, rfl⟩) h.fits hle

/-- What the log says about handles that are not there yet does not matter. -/
theorem reborn {born : ℕ → ℕ}
    (hborn : ∀ n < opened, born n = log.born n) : s.Confined { log with born } opened := by
  refine ⟨h.trees, fun of hof => ?_, h.fits⟩
  obtain ⟨hlt, hconn, hsince⟩ := h.handles of hof
  exact ⟨hlt, hconn, hsince.trans (hborn _ hlt).symm⟩

/-- A new handle on a connected tree. -/
theorem insert {of : OpenFile} (hser : of.serial = opened)
    (hconn : (s.trees.lookup of.treeId).isSome) (hborn : log.since of.treeId = log.born opened)
    (hroom : s.handles.len < maxOpensPerSession) :
    SessionInner.Confined log (opened + 1) { s with handles := (s.handles.insert of).2 } := by
  refine ⟨h.trees, fun of' hof' => ?_, h.fits.insert hroom of⟩
  rcases List.mem_cons.1 ((HandleTable.live_insert s.handles of).subset hof') with rfl | hof'
  · rw [hser]
    exact ⟨Nat.lt_succ_self _, hconn, hborn⟩
  · obtain ⟨hlt, hrest⟩ := h.handles of' hof'
    exact ⟨hlt.trans (Nat.lt_succ_self _), hrest⟩

end

end SessionInner.Confined

/-- A TREE_CONNECT gave out `id` for `tree`. -/
def TreeLog.connect (log : TreeLog) (id : UInt32) (tree : Tree) : TreeLog :=
  { log with
    connects := log.connects + 1
    since := Function.update log.since id log.connects
    given := Function.update log.given log.connects (some tree) }

namespace SessionInner.Confined

variable {log : TreeLog} {opened : ℕ} {s s' : SessionInner}

theorem toNat_next {n : UInt32} (h : n ≠ 0xFFFFFFFF) : (n + 1).toNat = n.toNat + 1 := by
  have hne : n.toNat ≠ 0xFFFFFFFF := fun heq => h (UInt32.toNat_inj.1 heq)
  have hlt := n.toNat_lt
  rw [UInt32.toNat_add]
  exact Nat.mod_eq_of_lt (by rw [UInt32.toNat_one]; omega)

/-- The id that a TREE_CONNECT gives out next is not connected, as long as the counter does not
wrap around. -/
theorem next_free (h : s.Confined log opened) (hnext : s.nextTreeId ≠ 0xFFFFFFFF) :
    s.trees.lookup (s.nextTreeId + 1) = none := by
  refine Option.eq_none_iff_forall_ne_some.2 fun tree htree => ?_
  have hle := (h.trees _ tree htree).1
  rw [toNat_next hnext] at hle
  omega

theorem connect (h : s.Confined log opened) (hnext : s.nextTreeId ≠ 0xFFFFFFFF) (tree : Tree) :
    SessionInner.Confined (log.connect (s.nextTreeId + 1) tree) opened
      { s with nextTreeId := s.nextTreeId + 1
               trees := s.trees.insert (s.nextTreeId + 1) tree } := by
  have hfree := h.next_free hnext
  refine ⟨fun t tree' ht => ?_, fun of hof => ?_, h.fits⟩
  · dsimp only at ht ⊢
    rw [FinMap.lookup_insert] at ht
    unfold TreeLog.connect
    dsimp only
    split_ifs at ht with heq
    · obtain rfl := Option.some.inj ht
      rw [heq, Function.update_self, Function.update_self]
      exact ⟨le_rfl, Nat.lt_succ_self _, rfl⟩
    · obtain ⟨hle, hlt, hgiven⟩ := h.trees t tree' ht
      rw [Function.update_of_ne heq, Function.update_of_ne hlt.ne, toNat_next hnext]
      exact ⟨hle.trans (Nat.le_succ _), hlt.trans (Nat.lt_succ_self _), hgiven⟩
  · obtain ⟨hlt, hconn, hborn⟩ := h.handles of hof
    have hne : of.treeId ≠ s.nextTreeId + 1 := by
      intro heq
      rw [heq, hfree] at hconn
      simp at hconn
    refine ⟨hlt, ?_, ?_⟩
    · rw [FinMap.lookup_insert, if_neg hne]
      exact hconn
    · unfold TreeLog.connect
      dsimp only
      rw [Function.update_of_ne hne]
      exact hborn

/-- A tree is disconnected, and its handles are closed. -/
theorem disconnect (h : s.Confined log opened) {t : UInt32} (htrees : s'.trees = s.trees.erase t)
    (hnext : s'.nextTreeId = s.nextTreeId)
    (hlive : ∀ of ∈ s'.handles.live, of ∈ s.handles.live ∧ of.treeId ≠ t)
    (hfits : s'.handles.Fits maxOpensPerSession) : s'.Confined log opened := by
  refine ⟨fun t' tree ht => ?_, fun of hof => ?_, hfits⟩
  · rw [htrees, FinMap.lookup_erase] at ht
    split_ifs at ht
    rw [hnext]
    exact h.trees t' tree ht
  · obtain ⟨hmem, hne⟩ := hlive of hof
    rw [htrees, FinMap.lookup_erase, if_neg hne]
    exact h.handles of hmem

end SessionInner.Confined

/-! ### Deeds -/

/-- The effect neither connects nor disconnects a tree nor opens a handle. -/
def Effect.mild : Effect → Prop
  | .connect _ | .disconnect | .insert _ _ _ _ => False
  | _ => True

/-- The deed has mild effects only on session `sid`. -/
def DeedLabel.mild (sid : UInt64) : DeedLabel → Prop
  | .effect sid' _ e => sid' = sid → e.mild
  | _ => True

section

variable {os : Os σ} {e : Effect} {s t : Sx σ} {log : TreeLog} {sid : UInt64}

theorem Sx.Does.opened_le (h : Sx.Does os e s t) : s.host.opened ≤ t.host.opened := by
  by_cases he : e.opens
  · cases h with
    | insert of granted ino cid =>
      rw [insertHandle_opened]
      exact Nat.le_succ _
    | _ => exact he.elim
  · exact (h.same he).opened.ge

theorem Sx.Does.confined (h : Sx.Does os e s t) (he : e.mild)
    (hs : s.sess.Confined log s.host.opened) : t.sess.Confined log t.host.opened := by
  have hle := h.opened_le
  have hfits := h.fits hs.fits
  cases h with
  | touch fid tch =>
    refine hs.keep rfl rfl (fun of hof => ?_) hfits hle
    rcases HandleTable.mem_live_modify hof with hof | ⟨of', hof', -, rfl⟩
    · exact ⟨of, hof, rfl, rfl⟩
    · exact ⟨of', hof', (tch.apply_tree of').symm, (tch.apply_serial of').symm⟩
  | close hremove ho =>
    refine hs.keep rfl rfl (fun of hof => ⟨of, ?_, rfl, rfl⟩) hfits hle
    exact (HandleTable.live_remove hremove).1.subset (List.mem_cons_of_mem _ hof)
  | connect | disconnect | insert => exact he.elim
  | _ => exact hs.mono hle

variable {srv : Srv σ} {l : DeedLabel} {a b : Shared σ}

/-- **A deed with mild effects keeps the session confined.** -/
theorem Deed.confined (h : Deed srv l a b) (hl : l.mild sid) (ha : a.Confined sid log) :
    b.Confined sid log := by
  have hinsert : ∀ (sid' : UInt64) (s' : SessionInner) (host : Host σ) (created : List UInt64),
      a.host.opened ≤ host.opened → (sid' = sid → s'.Confined log host.opened) →
      Shared.Confined sid log ⟨a.sessions.insert sid' s', host, created⟩ := by
    intro sid' s' host created hle hs' s hs
    dsimp only at hs
    rw [FinMap.lookup_insert] at hs
    split_ifs at hs with hsid
    · exact Option.some.inj hs ▸ hs' hsid.symm
    · exact (ha s hs).mono hle
  have herase : ∀ (sid' : UInt64) (host : Host σ) (created : List UInt64),
      a.host.opened ≤ host.opened →
      Shared.Confined sid log ⟨a.sessions.erase sid', host, created⟩ := by
    intro sid' host created hle s hs
    dsimp only at hs
    rw [FinMap.lookup_erase] at hs
    split_ifs at hs
    exact (ha s hs).mono hle
  cases h with
  | aside | released | drained => exact ha
  | register sid' => exact hinsert _ _ _ _ le_rfl fun _ => .fresh _ _
  | revise hs hhandles htrees hnext =>
    refine hinsert _ _ _ _ le_rfl fun hsid => ?_
    have hconf := ha _ (hsid ▸ hs)
    exact hconf.keep htrees hnext (fun of hof => ⟨of, hhandles ▸ hof, rfl, rfl⟩)
      (hhandles ▸ hconf.fits) le_rfl
  | drop => exact herase _ _ _ le_rfl
  | effect hs hchain hdoes =>
    exact hinsert _ _ _ _ hdoes.opened_le fun hsid =>
      hdoes.confined (hl hsid) (ha _ (hsid ▸ hs))
  | ended hs =>
    unfold endSession
    rw [hs]
    exact herase _ _ _ (closeFiles_step (fun _ => False) _ _ _).opened.ge

end

/-! ### TREE_CONNECT -/

/-- The TreeId of a response. -/
def respTree (resp : Bytes) : UInt32 := UInt32.ofNat (leNat (resp.extract 36 40))

/-- The request changed nothing and was not answered with SUCCESS. -/
structure Px.Declines (px px' : Px σ) : Prop where
  host : px'.shared.host = px.shared.host
  sessions : ∀ sid, px'.shared.sessions.lookup sid = px.shared.sessions.lookup sid
  answer : ∀ resp, px'.tx = px.tx ++ resp → resp ≠ [] → respStatus resp ≠ Status.success

/-- The request connected `tree` under the next TreeId of session `s`, and answered with it. -/
structure Px.Connects (px px' : Px σ) (s : SessionInner) (tree : Tree) : Prop where
  session : px.shared.sessions.lookup px.chain.sessionId = some s
  shared : px'.shared = { px.shared with
    sessions := px.shared.sessions.insert px.chain.sessionId
      { s with nextTreeId := s.nextTreeId + 1
               trees := s.trees.insert (s.nextTreeId + 1) tree } }
  answer : ∀ resp, px'.tx = px.tx ++ resp → respTree resp = s.nextTreeId + 1

theorem Px.Declines.confined {px px' : Px σ} {sid : UInt64} {log : TreeLog}
    (h : px.Declines px') (hconf : px.shared.Confined sid log) : px'.shared.Confined sid log := by
  intro s hs
  rw [h.sessions] at hs
  rw [h.host]
  exact hconf s hs

section

variable (srv : Srv σ) (h : ReqHdr) (msg : Bytes) (px : Px σ)
variable {sess : SessionInner}

theorem respTree_respHdr (st : UInt32) (related : Bool) (treeId : UInt32) (sid : UInt64)
    (body : Bytes) : respTree (respHdr h st related treeId sid ++ body) = treeId := by
  have hfield : (respHdr h st related treeId sid ++ body).extract 36 40 = p32 treeId := by
    simp [respHdr, protoId, p16, p32, p64, leBytes]
  rw [respTree, hfield, ofNat_leNat_p32]

theorem declines_err {st : UInt32} (hst : st ≠ Status.success) : px.Declines (px.err h st) := by
  refine ⟨rfl, fun _ => rfl, fun resp hresp _ => ?_⟩
  rw [Px.status_err hresp]
  exact hst

theorem declines_disconnect : px.Declines px.disconnect := by
  refine ⟨rfl, fun _ => rfl, fun resp hresp hne => ?_⟩
  have hnil : px.tx ++ resp = px.tx ++ [] := by
    rw [List.append_nil, ← hresp]
    rfl
  exact absurd (List.append_cancel_left hnil) hne

theorem connectShare_failure {cfg : Config} {name : Str} {st : UInt32}
    (hst : connectShare cfg sess name = .error st) : st ≠ Status.success := by
  unfold connectShare at hst
  split_ifs at hst
  split at hst
  · cases hst
    decide
  · split at hst
    · cases hst
      decide
    · split at hst <;> cases hst
      decide

/-- TREE_CONNECT to a share that the session may use. -/
theorem treeConnect_ok {s : Sx σ} {path : Str} {tree : Tree}
    (hpath : Rdr.parse (treeConnectPath msg) (msg.drop 64) = some path)
    (htree : connectShare srv.cfg s.sess (leafOf path) = .ok tree)
    (hroom : s.sess.trees.keys.length < maxTreesPerSession) :
    ∃ body, treeConnect srv msg s = (.ok (Status.success, body), addTree tree s) := by
  refine ⟨p16 16 ++ p8 (if tree.ipc then 2 else 1) ++ p8 0 ++ p32 0 ++ p32 0 ++
    p32 (if tree.ipc then 0x001F00A9 else
      if tree.readOnly then maximalAccessRead else maximalAccessAll), ?_⟩
  unfold treeConnect
  simp only [hpath, Eff.need, Eff.bind_run, Eff.pure_run, Eff.read_run, htree, Eff.ofExcept,
    Eff.refuse, if_neg (not_le.2 hroom), Eff.update_run]
  rfl

/-- TREE_CONNECT refuses, or connects a tree. -/
theorem treeConnect_cases (s : Sx σ) :
    Eff.Refuses Failure (treeConnect srv msg) s ∨
      ∃ tree body, treeConnect srv msg s = (.ok (Status.success, body), addTree tree s) := by
  cases hpath : Rdr.parse (treeConnectPath msg) (msg.drop 64) with
  | none =>
    unfold treeConnect
    rw [hpath]
    exact Or.inl (.first (.fail (by decide)))
  | some path =>
    cases htree : connectShare srv.cfg s.sess (leafOf path) with
    | error st =>
      refine Or.inl ⟨st, connectShare_failure htree, ?_⟩
      unfold treeConnect
      simp only [hpath, Eff.need, Eff.bind_run, Eff.pure_run, Eff.read_run, htree, Eff.ofExcept,
        Eff.fail_run]
    | ok tree =>
      by_cases hfull : maxTreesPerSession ≤ s.sess.trees.keys.length
      · refine Or.inl ⟨Status.insufficientResources, by decide, ?_⟩
        unfold treeConnect
        simp only [hpath, Eff.need, Eff.bind_run, Eff.pure_run, Eff.read_run, htree, Eff.ofExcept,
          Eff.refuse, if_pos hfull, Eff.fail_run]
      · exact Or.inr ⟨tree, treeConnect_ok srv msg hpath htree (not_le.1 hfull)⟩

theorem answer_declines {m : Handler σ Body}
    (hs : px.shared.sessions.lookup px.chain.sessionId = some sess)
    (hm : Eff.Refuses Failure m (px.enter sess)) :
    px.Declines (answer h px sess m) := by
  obtain ⟨st, hst, hrun⟩ := hm
  have heq : answer h px sess m = { px with
      shared := { px.shared with sessions := px.shared.sessions.insert px.chain.sessionId sess }
      tx := errResp px.tx h st px.chain } := by
    unfold answer runHandler
    rw [hrun]
    rfl
  have herr := declines_err h px hst
  rw [heq]
  refine ⟨rfl, fun sid => ?_, herr.answer⟩
  rw [FinMap.lookup_insert]
  split_ifs with hsid
  · rw [hsid, hs]
  · rfl

/-- The answer to a TREE_CONNECT that connects. -/
theorem answer_connects {tree : Tree} {body : Bytes}
    (hs : px.shared.sessions.lookup px.chain.sessionId = some sess)
    (hrun : treeConnect srv msg (px.enter sess) =
      (.ok (Status.success, body), addTree tree (px.enter sess))) :
    px.Connects (answer h px sess (treeConnect srv msg)) sess tree ∧
      (answer h px sess (treeConnect srv msg)).tx = px.tx ++
        (respHdr h Status.success px.chain.related (sess.nextTreeId + 1) px.chain.sessionId ++
          body) := by
  have htx : (answer h px sess (treeConnect srv msg)).tx = px.tx ++
      (respHdr h Status.success px.chain.related (sess.nextTreeId + 1) px.chain.sessionId ++
        body) := by
    unfold answer runHandler
    rw [hrun]
    exact List.append_assoc ..
  refine ⟨⟨hs, ?_, fun resp hresp => ?_⟩, htx⟩
  · unfold answer runHandler
    rw [hrun]
    rfl
  · obtain rfl := List.append_cancel_left (htx.symm.trans hresp)
    exact respTree_respHdr ..

theorem routeSession_connect (hcmd : h.command = cmdTreeConnect) :
    px.Declines (routeSession srv h msg px).1 ∨
      ∃ s tree, px.Connects (routeSession srv h msg px).1 s tree := by
  unfold routeSession
  split
  · exact Or.inl (declines_err h px (by decide))
  · cases hs : px.shared.sessions.lookup px.chain.sessionId with
    | none => exact Or.inl (declines_err h px (by decide))
    | some sess =>
      dsimp only
      rcases treeConnect_cases srv msg (px.enter sess) with
        hrefuse | ⟨tree, body, hrun⟩
      · exact Or.inl (answer_declines h px hs hrefuse)
      · exact Or.inr ⟨sess, tree, (answer_connects srv h msg px hs hrun).1⟩

/-- A request that does not come to its handler changes nothing. -/
theorem dispatch_declines {P : Px σ → Prop} (hdecline : ∀ px', px.Declines px' → P px')
    (hroute : P (route srv (h.paid px) msg (px.ready h)).1) :
    P (dispatch srv h msg px).1 := by
  have hout := dispatch_dispatched srv h msg px
  generalize dispatch srv h msg px = out at hout ⊢
  cases hout with
  | replayed => exact hdecline _ (declines_disconnect px)
  | foreign =>
    have hdec := declines_disconnect (px.ready h)
    exact hdecline _ ⟨hdec.host, hdec.sessions, hdec.answer⟩
  | refused =>
    have hdec := declines_err (h.paid px) (px.ready h)
      (by decide : Status.accessDenied ≠ Status.success)
    exact hdecline _ ⟨hdec.host, hdec.sessions, hdec.answer⟩
  | routed => exact hroute

/-- A session-scoped command goes to `routeSession`. -/
theorem route_session (hcmd : h.command ∉ [cmdNegotiate, cmdEcho, cmdCancel, cmdSessionSetup,
    cmdLogoff]) : route srv h msg px = routeSession srv h msg px := by
  simp only [List.mem_cons, List.not_mem_nil, or_false, not_or] at hcmd
  obtain ⟨hneg, hecho, hcancel, hsetup, hlogoff⟩ := hcmd
  unfold route
  rw [if_neg hneg, if_neg hecho, if_neg hcancel, if_neg hsetup, if_neg hlogoff]

/-- **What a TREE_CONNECT does.** -/
theorem dispatch_connect (hcmd : h.command = cmdTreeConnect) :
    px.Declines (dispatch srv h msg px).1 ∨
      ∃ s tree, { px with chain := resolveChain h px.chain }.Connects
        (dispatch srv h msg px).1 s tree := by
  refine dispatch_declines srv h msg px (P := fun px' => px.Declines px' ∨
    ∃ s tree, { px with chain := resolveChain h px.chain }.Connects px' s tree)
    (fun px' hdec => Or.inl hdec) ?_
  have hcmd' : (h.paid px).command = cmdTreeConnect := hcmd
  rw [route_session srv _ msg _ (by rw [hcmd']; decide)]
  rcases routeSession_connect srv (h.paid px) msg (px.ready h) hcmd' with
    hdec | ⟨s, tree, hconn⟩
  · exact Or.inl ⟨hdec.host, hdec.sessions, hdec.answer⟩
  · exact Or.inr ⟨s, tree, hconn.session, hconn.shared, hconn.answer⟩

end

/-! ### TREE_DISCONNECT -/

/-- Handles of tree `t` were closed, among them those with the ids `fids`. -/
structure Sx.Closes (t : UInt32) (fids : List UInt64) (s s' : Sx σ) : Prop where
  trees : s'.sess.trees = s.sess.trees
  next : s'.sess.nextTreeId = s.sess.nextTreeId
  opened : s'.host.opened = s.host.opened
  fits : s.sess.handles.Fits maxOpensPerSession → s'.sess.handles.Fits maxOpensPerSession
  live : ∀ of ∈ s'.sess.handles.live, of ∈ s.sess.handles.live
  get : ∀ fid of, s'.sess.handles.get fid t = some of → s.sess.handles.get fid t = some of
  gone : ∀ fid ∈ fids, s'.sess.handles.get fid t = none

theorem disconnectHandle_closes (os : Os σ) (t : UInt32) (s : Sx σ) (fid : UInt64) :
    Sx.Closes t [fid] s (disconnectHandle os t s fid) := by
  unfold disconnectHandle
  cases h : s.sess.handles.remove fid t with
  | none =>
    refine ⟨rfl, rfl, rfl, id, fun _ => id, fun _ _ => id, fun fid' hfid => ?_⟩
    rw [List.mem_singleton.1 hfid]
    exact HandleTable.get_of_remove_none h
  | some r =>
    obtain ⟨of, handles⟩ := r
    refine ⟨rfl, rfl, (closeFile_step (fun _ => False) os of s.host).opened,
      HandleTable.fits_remove h, fun of' hof' => ?_, fun fid' of' => HandleTable.get_remove h,
      fun fid' hfid => ?_⟩
    · exact (HandleTable.live_remove h).1.subset (List.mem_cons_of_mem _ hof')
    · rw [List.mem_singleton.1 hfid]
      exact HandleTable.get_remove_self h

theorem disconnectHandles_closes (os : Os σ) (t : UInt32) (fids : List UInt64) (s : Sx σ) :
    Sx.Closes t fids s (fids.foldl (disconnectHandle os t) s) := by
  induction fids generalizing s with
  | nil => exact ⟨rfl, rfl, rfl, id, fun _ => id, fun _ _ => id, fun _ h => (nomatch h)⟩
  | cons fid fids ih =>
    have hone := disconnectHandle_closes os t s fid
    have hrest := ih (disconnectHandle os t s fid)
    refine ⟨hrest.trees.trans hone.trees, hrest.next.trans hone.next,
      hrest.opened.trans hone.opened, fun hs => hrest.fits (hone.fits hs),
      fun of hof => hone.live of (hrest.live of hof),
      fun fid' of hof => hone.get fid' of (hrest.get fid' of hof), fun fid' hfid => ?_⟩
    rcases List.mem_cons.1 hfid with rfl | hfid
    · -- a closed handle is not there again
      refine Option.eq_none_iff_forall_ne_some.2 fun of hof => ?_
      have hback := hrest.get fid' of hof
      rw [hone.gone fid' List.mem_cons_self] at hback
      simp at hback
    · exact hrest.gone fid' hfid

/-- The handler of TREE_DISCONNECT. -/
theorem treeDisconnect_confined (os : Os σ) {s : Sx σ} {log : TreeLog}
    (h : s.sess.Confined log s.host.opened) :
    (treeDisconnect os s).2.sess.Confined log (treeDisconnect os s).2.host.opened := by
  have hcloses := disconnectHandles_closes os s.chain.treeId
    (s.sess.handles.idsInTree s.chain.treeId) (dropTree s)
  have hrun : (treeDisconnect os s).2 = (s.sess.handles.idsInTree s.chain.treeId).foldl
      (disconnectHandle os s.chain.treeId) (dropTree s) := rfl
  rw [hrun, hcloses.opened]
  have hfits := hcloses.fits h.fits
  refine h.disconnect hcloses.trees hcloses.next (fun of hof => ⟨hcloses.live of hof, ?_⟩) hfits
  -- a handle of the tree would be among the closed ones
  intro htree
  obtain ⟨fid, hfid⟩ := HandleTable.get_of_mem_live hfits (by decide) hof
  rw [htree] at hfid
  have hgone := hcloses.gone fid (HandleTable.mem_idsInTree (hcloses.get fid of hfid))
  rw [hgone] at hfid
  simp at hfid

section

variable (srv : Srv σ) (h : ReqHdr) (msg : Bytes) (px : Px σ) {sid : UInt64} {log : TreeLog}

/-- A handler that keeps its session confined. -/
theorem answer_confined {sess : SessionInner} {m : Handler σ Body}
    (hs : px.shared.sessions.lookup px.chain.sessionId = some sess)
    (hm : sess.Confined log px.shared.host.opened →
      (m (px.enter sess)).2.sess.Confined log
        (m (px.enter sess)).2.host.opened)
    (hconf : px.shared.Confined px.chain.sessionId log) :
    (answer h px sess m).shared.Confined px.chain.sessionId log := by
  intro s' hs'
  unfold answer runHandler at hs' ⊢
  dsimp only at hs' ⊢
  rw [FinMap.lookup_insert, if_pos rfl] at hs'
  obtain rfl := Option.some.inj hs'
  exact hm (hconf sess hs)

theorem routeSession_disconnect (hcmd : h.command = cmdTreeDisconnect)
    (hconf : px.shared.Confined px.chain.sessionId log) :
    (routeSession srv h msg px).1.shared.Confined px.chain.sessionId log := by
  unfold routeSession
  split
  · exact hconf
  · cases hs : px.shared.sessions.lookup px.chain.sessionId with
    | none => exact hconf
    | some sess =>
      dsimp only
      rw [if_neg (by rw [hcmd]; decide)]
      cases sess.trees.lookup px.chain.treeId with
      | none => exact hconf
      | some tree =>
        dsimp only
        unfold routeTree
        rw [if_pos hcmd]
        exact answer_confined h px hs (fun hsess => @treeDisconnect_confined σ srv.env.os
          (px.enter sess) log hsess) hconf

/-- **A TREE_DISCONNECT closes the handles of its tree.** -/
theorem dispatch_disconnect (hcmd : h.command = cmdTreeDisconnect)
    (hsid : effective h px.chain = sid) (hconf : px.shared.Confined sid log) :
    (dispatch srv h msg px).1.shared.Confined sid log := by
  refine dispatch_declines srv h msg px (P := fun px' => px'.shared.Confined sid log)
    (fun px' hdec => hdec.confined hconf) ?_
  have hcmd' : (h.paid px).command = cmdTreeDisconnect := hcmd
  rw [route_session srv _ msg _ (by rw [hcmd']; decide)]
  subst hsid
  exact routeSession_disconnect srv (h.paid px) msg (px.ready h) hcmd' hconf

/-! ### CREATE -/

/-- The effects of a CREATE on a connected tree; the log already knows under which TREE_CONNECT
the handles to come are opened. -/
theorem Sx.Acts.confined {os : Os σ} {P : Effect → Prop} {s t : Sx σ} (hacts : Sx.Acts os P s t)
    (hP : ∀ e, P e → e.outer ∨ e.opens) (hs : s.sess.Confined log s.host.opened)
    (hconn : (s.sess.trees.lookup s.chain.treeId).isSome)
    (hborn : ∀ n, s.host.opened ≤ n → log.born n = log.since s.chain.treeId) :
    t.sess.Confined log t.host.opened ∧ s.host.opened ≤ t.host.opened ∧
      t.sess.trees = s.sess.trees ∧ t.chain.treeId = s.chain.treeId := by
  induction hacts with
  | refl => exact ⟨hs, le_rfl, rfl, rfl⟩
  | tail _ hstep ih =>
    obtain ⟨e, he, hd⟩ := hstep
    obtain ⟨hconf, hle, htrees, htree⟩ := ih
    have hle' := hle.trans hd.opened_le
    rcases hP e he with hout | hopens
    · obtain ⟨hsess, hchain, -⟩ := hd.outer hout
      have hmild : e.mild := by cases e <;> first | exact hout.elim | trivial
      refine ⟨hd.confined hmild hconf, hle', ?_, ?_⟩
      · rw [hsess]
        exact htrees
      · rw [hchain]
        exact htree
    · cases hd with
      | insert of granted ino cid b hroom =>
        refine ⟨?_, hle', htrees, htree⟩
        rw [insertHandle_opened]
        refine hconf.insert rfl ?_ ?_ hroom
        · dsimp only
          rw [htrees, htree]
          exact hconn
        · dsimp only
          rw [htree]
          exact (hborn _ hle).symm
      | _ => exact hopens.elim

/-- A session-scoped request on a tree that is not connected. -/
theorem routeSession_unconnected (hcmd : h.command ≠ cmdTreeConnect)
    (hnone : ∀ s, px.shared.sessions.lookup px.chain.sessionId = some s →
      s.trees.lookup px.chain.treeId = none) : px.Declines (routeSession srv h msg px).1 := by
  unfold routeSession
  split
  · exact declines_err h px (by decide)
  · cases hs : px.shared.sessions.lookup px.chain.sessionId with
    | none => exact declines_err h px (by decide)
    | some sess =>
      dsimp only
      rw [hnone sess hs]
      exact declines_err h px (by decide)

theorem runHandler_confined {A : Type} {ch : ChannelState} {sess : SessionInner}
    {m : Handler σ A} (hcmd : h.command = cmdCreate) (hm : Serves srv h px sess m)
    (hb : px.Bound ch sess) (hconf : px.shared.Confined px.chain.sessionId log)
    (hconn : (sess.trees.lookup px.chain.treeId).isSome)
    (hborn : ∀ n, px.shared.host.opened ≤ n → log.born n = log.since px.chain.treeId) :
    (runHandler px sess m).2.shared.Confined px.chain.sessionId log := by
  intro s' hs'
  unfold runHandler at hs' ⊢
  dsimp only at hs' ⊢
  rw [FinMap.lookup_insert, if_pos rfl] at hs'
  obtain rfl := Option.some.inj hs'
  exact ((hm (px.enter sess)).confined
    (fun e => requestEffects_create h hcmd) (hconf sess hb.session) hconn hborn).1

theorem routeSession_create (hcmd : h.command = cmdCreate)
    (hconf : px.shared.Confined px.chain.sessionId log)
    (hborn : ∀ n, px.shared.host.opened ≤ n → log.born n = log.since px.chain.treeId) :
    (routeSession srv h msg px).1.shared.Confined px.chain.sessionId log := by
  by_cases hconn : ∃ s, px.shared.sessions.lookup px.chain.sessionId = some s ∧
      (s.trees.lookup px.chain.treeId).isSome
  · obtain ⟨s, hs, hconn⟩ := hconn
    have hrun : ∀ {A : Type} {ch : ChannelState} {sess : SessionInner} {m : Handler σ A},
        px.Bound ch sess → Serves srv h px sess m →
        (runHandler px sess m).2.shared.Confined px.chain.sessionId log := by
      intro A ch sess m hb hm
      obtain rfl := Option.some.inj (hs.symm.trans hb.session)
      exact runHandler_confined srv h px hcmd hm hb hconf hconn hborn
    exact routeSession_state srv h msg px
      (P := fun px' => px'.shared.Confined px.chain.sessionId log) (fun _ _ hP => hP) hconf hconf
      fun hb hm => hrun hb hm
  · refine (routeSession_unconnected srv h msg px (by rw [hcmd]; decide) fun s hs => ?_).confined
      hconf
    exact Option.not_isSome_iff_eq_none.1 fun hsome => hconn ⟨s, hs, hsome⟩

/-- **A CREATE opens handles under the tree connection that it names.** -/
theorem dispatch_create (hcmd : h.command = cmdCreate) (hsid : effective h px.chain = sid)
    (hconf : px.shared.Confined sid log)
    (hborn : ∀ n, px.shared.host.opened ≤ n →
      log.born n = log.since (resolveChain h px.chain).treeId) :
    (dispatch srv h msg px).1.shared.Confined sid log := by
  refine dispatch_declines srv h msg px (P := fun px' => px'.shared.Confined sid log)
    (fun px' hdec => hdec.confined hconf) ?_
  have hcmd' : (h.paid px).command = cmdCreate := hcmd
  rw [route_session srv _ msg _ (by rw [hcmd']; decide)]
  subst hsid
  exact routeSession_create srv (h.paid px) msg (px.ready h) hcmd' hconf hborn

end

end RocketSmbd
