import RocketSmbd.Life.Trees
import RocketSmbd.Life.Turns
import RocketSmbd.Sample

/-!
# Handles and tree connections

A request reaches a handle through the TreeId that it names, so a handle is safe in its tree
connection only as long as the TreeId means the same connection.  TreeIds come from a 32-bit counter
that wraps around, and TREE_CONNECT does not look whether the next one is in use.

* `Shared.Confined.turns`: while the counter does not wrap, every handle stays in its connection;
* `handle_confined`: what follows for the requests of a run;
* `Sample.tree_id_again`: after `2 ^ 32` TREE_CONNECTs a connected TreeId is given out again.
-/

namespace RocketSmbd

open ByteString Vfs

variable {σ : Type}

/-! ### The log of a run -/

/-- The TreeId and the tree that session `sid` got between `sh` and `sh'`. -/
def Shared.connected (sid : UInt64) (sh sh' : Shared σ) : Option (UInt32 × Tree) := do
  let s ← sh.sessions.lookup sid
  let s' ← sh'.sessions.lookup sid
  let tree ← s'.trees.lookup s'.nextTreeId
  if s'.nextTreeId = s.nextTreeId then none else some (s'.nextTreeId, tree)

/-- The handles with the numbers from `lo` up to `hi` were opened on tree `t`. -/
def TreeLog.opens (log : TreeLog) (lo hi : ℕ) (t : UInt32) : TreeLog :=
  { log with born := fun n => if lo ≤ n ∧ n < hi then log.since t else log.born n }

/-- The log of session `sid` after a turn. -/
def TreeLog.take (srv : Srv σ) (sid : UInt64) (sh : Shared σ) (log : TreeLog) : Turn σ → TreeLog
  | .ask a =>
    if a.place.sessionId ≠ sid then log
    else if a.hdr.command = cmdTreeConnect then
      match sh.connected sid (sh.take srv (.ask a)) with
      | some (id, tree) => log.connect id tree
      | none => log
    else log.opens sh.host.opened (sh.take srv (.ask a)).host.opened a.place.treeId
  | _ => log

/-- The log of session `sid` after the turns `ts`. -/
def TreeLog.turns (srv : Srv σ) (sid : UInt64) : Shared σ → TreeLog → List (Turn σ) → TreeLog
  | _, log, [] => log
  | sh, log, t :: ts => TreeLog.turns srv sid (sh.take srv t) (log.take srv sid sh t) ts

/-- A TREE_CONNECT of session `sid` finds a TreeId counter that does not wrap around. -/
def Turn.Ample (sid : UInt64) (sh : Shared σ) : Turn σ → Prop
  | .ask a => a.hdr.command = cmdTreeConnect → a.place.sessionId = sid →
    ∀ s ∈ sh.sessions.lookup sid, s.nextTreeId ≠ 0xFFFFFFFF
  | _ => True

/-- The TreeId counter of session `sid` does not wrap around in the turns `ts`. -/
def Shared.Ample (srv : Srv σ) (sid : UInt64) : Shared σ → List (Turn σ) → Prop
  | _, [] => True
  | sh, t :: ts => t.Ample sid sh ∧ Shared.Ample srv sid (sh.take srv t) ts

instance (sid : UInt64) (sh : Shared σ) (t : Turn σ) : Decidable (t.Ample sid sh) :=
  match t with
  | .ask a => inferInstanceAs (Decidable (a.hdr.command = cmdTreeConnect →
    a.place.sessionId = sid → ∀ s ∈ sh.sessions.lookup sid, s.nextTreeId ≠ 0xFFFFFFFF))
  | .teardown _ | .outside _ _ _ => isTrue trivial

instance decidableAmpleTurns (srv : Srv σ) (sid : UInt64) :
    ∀ (sh : Shared σ) (ts : List (Turn σ)), Decidable (sh.Ample srv sid ts)
  | _, [] => isTrue trivial
  | sh, t :: ts =>
    have : Decidable ((sh.take srv t).Ample srv sid ts) := decidableAmpleTurns srv sid _ ts
    inferInstanceAs (Decidable (_ ∧ _))

/-! ### One turn -/

section

variable {srv : Srv σ} {sid : UInt64} {sh : Shared σ} {log : TreeLog}

theorem TreeLog.opens_none (log : TreeLog) (n : ℕ) (t : UInt32) : log.opens n n t = log := by
  have hborn : (fun m => if n ≤ m ∧ m < n then log.since t else log.born m) = log.born := by
    funext m
    rw [if_neg (by omega)]
  unfold TreeLog.opens
  rw [hborn]

theorem dispatch_keeps_opened (h : ReqHdr) (msg : Bytes) (px : Px σ)
    (hcmd : h.command ≠ cmdCreate) :
    (dispatch srv h msg px).1.shared.host.opened = px.shared.host.opened :=
  (dispatch_deeds_opens srv h msg px hcmd).induct
    (P := fun b => b.host.opened = px.shared.host.opened)
    (fun _ _ _ hl hd ha => (hd.opened hl).trans ha) rfl

/-- The deeds of a request are mild for every session but its own. -/
theorem dispatch_foreign_confined (a : Ask) (hsid : a.place.sessionId ≠ sid)
    (hconf : sh.Confined sid log) :
    (dispatch srv a.hdr a.msg (a.px sh)).1.shared.Confined sid log := by
  refine (dispatch_deeds srv a.hdr a.msg (a.px sh)).induct (P := fun b => b.Confined sid log)
    (fun l b b' hl hd hb => hd.confined ?_ hb) hconf
  obtain ⟨-, credits, hl⟩ := hl
  cases l with
  | effect sid' tree e => exact fun heq => absurd (hl.1.symm.trans heq) hsid
  | _ => trivial

/-- A request that neither connects nor disconnects a tree nor opens a file. -/
theorem dispatch_mild_confined (a : Ask)
    (hcmd : a.hdr.command ∉ [cmdTreeConnect, cmdTreeDisconnect, cmdCreate])
    (hconf : sh.Confined sid log) :
    (dispatch srv a.hdr a.msg (a.px sh)).1.shared.Confined sid log := by
  simp only [List.mem_cons, List.not_mem_nil, or_false, not_or] at hcmd
  obtain ⟨hconnect, hdisconnect, hcreate⟩ := hcmd
  refine (dispatch_deeds srv a.hdr a.msg (a.px sh)).induct (P := fun b => b.Confined sid log)
    (fun l b b' hl hd hb => hd.confined ?_ hb) hconf
  obtain ⟨-, credits, hl⟩ := hl
  cases l with
  | effect sid' tree e =>
    have he := hl.2.2
    intro _
    cases e with
    | connect tree => exact hconnect he
    | disconnect => exact hdisconnect he
    | insert of granted ino cid => exact hcreate he.1
    | _ => trivial
  | _ => trivial

theorem connected_declines {px px' : Px σ} (h : px.Declines px') :
    px.shared.connected sid px'.shared = none := by
  unfold Shared.connected
  rw [h.sessions]
  cases px.shared.sessions.lookup sid with
  | none => rfl
  | some s =>
    simp only [Option.bind_eq_bind, Option.bind_some]
    cases s.trees.lookup s.nextTreeId <;> simp

theorem connected_connects {px px' : Px σ} {s : SessionInner} {tree : Tree}
    (h : px.Connects px' s tree) :
    px.shared.connected px.chain.sessionId px'.shared = some (s.nextTreeId + 1, tree) := by
  unfold Shared.connected
  rw [h.session, h.shared]
  have hne : s.nextTreeId + 1 ≠ s.nextTreeId := fun heq => by simp at heq
  simp only [Option.bind_eq_bind, Option.bind_some, AList.lookup_insert, if_neg hne]

section

variable (h : sh.Confined sid log)
include h

theorem Shared.Confined.connect {a : Ask}
    (hcmd : a.hdr.command = cmdTreeConnect) (hsid : a.place.sessionId = sid)
    (ha : (Turn.ask a : Turn σ).Ample sid sh) :
    (sh.take srv (.ask a)).Confined sid (log.take srv sid sh (.ask a)) := by
  simp only [TreeLog.take, hsid, ne_eq, not_true_eq_false, if_false, hcmd, if_true]
  rcases dispatch_connect srv a.hdr a.msg (a.px sh) hcmd with hdec | ⟨s, tree, hconn⟩
  · have hnone : sh.connected sid (sh.take srv (.ask a)) = none := connected_declines hdec
    rw [hnone]
    exact hdec.confined h
  · have hsome : sh.connected a.place.sessionId (sh.take srv (.ask a)) =
        some (s.nextTreeId + 1, tree) := connected_connects hconn
    have hsession : sh.sessions.lookup a.place.sessionId = some s := hconn.session
    have hshared : sh.take srv (.ask a) = { sh with
        sessions := sh.sessions.insert a.place.sessionId
          { s with nextTreeId := s.nextTreeId + 1
                   trees := s.trees.insert (s.nextTreeId + 1) tree } } := hconn.shared
    rw [hsid] at hsome hsession hshared
    rw [hsome, hshared]
    intro s' hs'
    dsimp only at hs' ⊢
    rw [FinMap.lookup_insert, if_pos rfl] at hs'
    obtain rfl := Option.some.inj hs'
    exact (h s hsession).connect (ha hcmd hsid s hsession) tree

theorem Shared.Confined.create {a : Ask}
    (hcmd : a.hdr.command = cmdCreate) (hsid : a.place.sessionId = sid) :
    (sh.take srv (.ask a)).Confined sid
      (log.opens sh.host.opened (sh.take srv (.ask a)).host.opened a.place.treeId) := by
  -- first with a log in which all handles to come are opened on the tree
  let born : ℕ → ℕ := fun n =>
    if sh.host.opened ≤ n then log.since a.place.treeId else log.born n
  have hlater : (sh.take srv (.ask a)).Confined sid { log with born } := by
    refine dispatch_create srv a.hdr a.msg (a.px sh) hcmd hsid (fun s hs => ?_) fun n hn => ?_
    · exact (h s hs).reborn fun n hn => if_neg (by omega)
    · exact if_pos hn
  intro s hs
  refine (hlater s hs).reborn fun n hn => ?_
  dsimp only [born]
  by_cases hle : sh.host.opened ≤ n
  · rw [if_pos ⟨hle, hn⟩, if_pos hle]
  · rw [if_neg (fun hc => hle hc.1), if_neg hle]

theorem Shared.Confined.ask (a : Ask)
    (ha : (Turn.ask a : Turn σ).Ample sid sh) :
    (sh.take srv (.ask a)).Confined sid (log.take srv sid sh (.ask a)) := by
  by_cases hsid : a.place.sessionId = sid
  · by_cases hconnect : a.hdr.command = cmdTreeConnect
    · exact h.connect hconnect hsid ha
    · simp only [TreeLog.take, hsid, ne_eq, not_true_eq_false, if_false, hconnect]
      by_cases hcreate : a.hdr.command = cmdCreate
      · exact h.create hcreate hsid
      · have hopened : (sh.take srv (.ask a)).host.opened = sh.host.opened :=
          dispatch_keeps_opened a.hdr a.msg (a.px sh) hcreate
        rw [hopened, TreeLog.opens_none]
        by_cases hdisconnect : a.hdr.command = cmdTreeDisconnect
        · exact dispatch_disconnect srv a.hdr a.msg (a.px sh) hdisconnect hsid h
        · exact dispatch_mild_confined a (by simp [hconnect, hcreate, hdisconnect]) h
  · simp only [TreeLog.take, hsid, ne_eq, not_false_eq_true, if_true]
    exact dispatch_foreign_confined a hsid h

/-- **A turn in which the counter does not wrap keeps every handle in its tree connection.** -/
theorem Shared.Confined.take (t : Turn σ) (ht : t.Ample sid sh) :
    (sh.take srv t).Confined sid (log.take srv sid sh t) := by
  cases t with
  | ask a => exact h.ask a ht
  | teardown pc =>
    have hdeeds : Deeds srv (fun l _ => l.mild sid) sh (teardownConn srv.env.os sh pc).1 :=
      teardownConn_deeds srv sh pc (fun _ _ _ => trivial) fun _ _ _ => trivial
    exact hdeeds.induct (P := fun b => b.Confined sid log)
      (fun _ _ _ hl hd hb => hd.confined hl hb) h
  | outside os leases mailboxes => exact h

theorem Shared.Confined.turns (ts : List (Turn σ))
    (hts : sh.Ample srv sid ts) :
    (sh.turns srv ts).Confined sid (TreeLog.turns srv sid sh log ts) := by
  induction ts generalizing sh log with
  | nil => exact h
  | cons t ts ih => exact ih (h.take t hts.1) hts.2

end

end

/-! ### Runs -/

/-- TreeId `t` of session `sid` is connected, and by the very TREE_CONNECT under which the handle
`of` was opened; its share and its access are those that the TREE_CONNECT gave. -/
def Shared.Under (sh : Shared σ) (sid : UInt64) (log : TreeLog) (t : UInt32) (of : OpenFile) :
    Prop :=
  ∃ s tree, sh.sessions.lookup sid = some s ∧ s.trees.lookup t = some tree ∧ of.treeId = t ∧
    log.since t = log.born of.serial ∧ log.given (log.born of.serial) = some tree

theorem Shared.Confined.under {sid : UInt64} {log : TreeLog} {sh : Shared σ}
    (h : sh.Confined sid log) {s : SessionInner} (hs : sh.sessions.lookup sid = some s)
    {fid : UInt64} {t : UInt32} {of : OpenFile} (hof : s.handles.get fid t = some of) :
    sh.Under sid log t of := by
  obtain ⟨hmem, htree⟩ := HandleTable.get_mem_live hof
  obtain ⟨-, hconn, hborn⟩ := (h s hs).handles of hmem
  rw [htree] at hconn hborn
  obtain ⟨tree, htree'⟩ := Option.isSome_iff_exists.1 hconn
  exact ⟨s, tree, hs, htree', htree, hborn, hborn ▸ ((h s hs).trees t tree htree').2.2⟩

/-- **A handle is reached only through the tree connection on which it was opened**, in every run
in which the TreeId counter of the session does not wrap around: a TREE_CONNECT that succeeds
returns a TreeId that is not connected, and every handle that a request finds under a TreeId, in
particular the one on which it goes to work, was opened under the TREE_CONNECT that the TreeId
still stands for. -/
theorem handle_confined (srv : Srv σ) (sid : UInt64) (sh : Shared σ) (hstart : sh.sessions = ∅)
    (ts : List (Turn σ)) (hts : sh.Ample srv sid ts) (a : Ask) (hsid : a.place.sessionId = sid) :
    (a.hdr.command = cmdTreeConnect → (Turn.ask a : Turn σ).Ample sid (sh.turns srv ts) →
      ∀ resp, (dispatch srv a.hdr a.msg (a.px (sh.turns srv ts))).1.tx = a.tx ++ resp →
        resp ≠ [] → respStatus resp = Status.success →
        ∀ s, (sh.turns srv ts).sessions.lookup sid = some s →
          s.trees.lookup (respTree resp) = none) ∧
    (∀ s fid t of, (sh.turns srv ts).sessions.lookup sid = some s →
      s.handles.get fid t = some of →
        (sh.turns srv ts).Under sid (TreeLog.turns srv sid sh {} ts) t of) ∧
    ∀ of, ({ a.px (sh.turns srv ts) with chain := a.place }.worksOn srv a.hdr a.msg) = some of →
      (sh.turns srv ts).Under sid (TreeLog.turns srv sid sh {} ts) a.place.treeId of := by
  have hconf : (sh.turns srv ts).Confined sid (TreeLog.turns srv sid sh {} ts) :=
    Shared.Confined.turns (fun s hs => by simp [hstart] at hs) ts hts
  refine ⟨fun hcmd hample resp hresp hne hok s hs => ?_, fun s fid t of hs hof => ?_,
    fun of hof => ?_⟩
  · rcases dispatch_connect srv a.hdr a.msg (a.px (sh.turns srv ts)) hcmd with
      hdec | ⟨s', tree, hconn⟩
    · exact absurd hok (hdec.answer resp hresp hne)
    · have hsession : (sh.turns srv ts).sessions.lookup a.place.sessionId = some s' :=
        hconn.session
      rw [hsid] at hsession
      obtain rfl := Option.some.inj (hs.symm.trans hsession)
      rw [hconn.answer resp hresp]
      exact (hconf s hs).next_free (hample hcmd hsid s hs)
  · exact hconf.under hs hof
  · simp only [Px.worksOn, Option.bind_eq_bind, Option.bind_eq_some_iff] at hof
    obtain ⟨s, hs, tree, -, ⟨fid, asks⟩, -, of', hget, hsome⟩ := hof
    split_ifs at hsome
    obtain rfl := Option.some.inj hsome
    have hs' : (sh.turns srv ts).sessions.lookup a.place.sessionId = some s := hs
    rw [hsid] at hs'
    exact hconf.under hs' hget

/-! ### Going around -/

section

variable (srv : Srv σ) (h : ReqHdr) (msg : Bytes) (px : Px σ)

/-- A session-scoped request in an established session. -/
theorem routeSession_established {s : SessionInner}
    (hest : (px.pc.channels.lookup px.chain.sessionId).any (·.established) = true)
    (hs : px.shared.sessions.lookup px.chain.sessionId = some s) :
    routeSession srv h msg px =
      if h.command = cmdTreeConnect then (answer h px s (treeConnect srv msg), none)
      else match s.trees.lookup px.chain.treeId with
        | none => (px.err h Status.networkNameDeleted, none)
        | some tree => routeTree srv h msg px s tree := by
  unfold routeSession
  rw [if_neg (not_not.2 hest)]
  generalize px.shared.sessions.lookup px.chain.sessionId = found at hs ⊢
  subst hs
  rfl

variable {h msg px} {chain : Chain} {s : SessionInner} {tree : Tree}
  (hr : px.Reaches srv.env.crypto h msg) (hchain : resolveChain h px.chain = chain)
  (hest : (px.pc.channels.lookup chain.sessionId).any (·.established) = true)
  (hs : px.shared.sessions.lookup chain.sessionId = some s)

include hr hchain hest hs

/-- A TREE_CONNECT that comes to its handler and may use its share. -/
theorem dispatch_connect_ok (hcmd : h.command = cmdTreeConnect) {path : Str}
    (hpath : Rdr.parse (treeConnectPath msg) (msg.drop 64) = some path)
    (htree : connectShare srv.cfg s (leafOf path) = .ok tree)
    (hroom : s.trees.keys.length < maxTreesPerSession) :
    { px with chain }.Connects (dispatch srv h msg px).1 s tree ∧
      ∃ resp, (dispatch srv h msg px).1.tx = px.tx ++ resp ∧ resp ≠ [] ∧
        respStatus resp = Status.success := by
  subst hchain
  have hcmd' : (h.paid px).command = cmdTreeConnect := hcmd
  have hroute := routeSession_established srv (h.paid px) msg (px.ready h) hest hs
  rw [dispatch_reaches hr, route_session srv _ msg _ (by rw [hcmd']; decide), hroute,
    if_pos hcmd']
  obtain ⟨body, hrun⟩ := @treeConnect_ok σ srv msg
    ⟨s, px.shared.host, resolveChain h px.chain, px.pc.notify⟩ path tree hpath htree hroom
  obtain ⟨hconn, htx⟩ := answer_connects srv (h.paid px) msg (px.ready h) hs hrun
  refine ⟨⟨hconn.session, hconn.shared, hconn.answer⟩, _, htx, ?_, respStatus_respHdr ..⟩
  exact List.append_ne_nil_of_left_ne_nil (List.ne_nil_of_length_pos (by simp)) _

/-- A TREE_DISCONNECT in a session without handles. -/
theorem dispatch_disconnect_ok (hcmd : h.command = cmdTreeDisconnect)
    (htree : s.trees.lookup chain.treeId = some tree) (hempty : s.handles.slots = []) :
    (dispatch srv h msg px).1.shared.sessions.lookup chain.sessionId =
      some { s with trees := s.trees.erase chain.treeId } := by
  subst hchain
  have hcmd' : (h.paid px).command = cmdTreeDisconnect := hcmd
  have hids : s.handles.idsInTree (resolveChain h px.chain).treeId = [] := by
    simp [HandleTable.idsInTree, hempty]
  have hroute := routeSession_established srv (h.paid px) msg (px.ready h) hest hs
  rw [dispatch_reaches hr, route_session srv _ msg _ (by rw [hcmd']; decide), hroute,
    if_neg (by rw [hcmd']; decide), htree]
  dsimp only
  rw [routeTree, if_pos hcmd']
  unfold answer runHandler treeDisconnect
  simp only [Eff.bind_run, Eff.update_run, Eff.pure_run, hids, List.foldl_nil, AList.lookup_insert]

end

/-- The lowest unused MessageId is accepted. -/
theorem claimIds_lowest {h : ReqHdr} {pc : ProtoConn} (hcharge : h.creditCharge = 1)
    (hid : h.msgId.toNat = pc.msgLow) (hseen : pc.msgSeen = ∅) (hlt : pc.msgLow + 1 < 2 ^ 64) :
    (claimIds h pc).1 = true := by
  unfold claimIds
  split_ifs
  · rfl
  · have hcount : idCount h.creditCharge = 1 := by
      rw [hcharge]
      rfl
    have hmin : ¬ min (pc.msgLow + msgWindow) (2 ^ 64 - 1) < pc.msgLow + 1 := by
      rw [not_lt, le_min_iff, msgWindow]
      omega
    unfold consumeMsgIds
    simp only [hid, hcount, hseen, lt_irrefl, false_or, if_neg (not_le.2 hlt), if_neg hmin,
      Finset.empty_inter, Finset.not_nonempty_empty, if_false]

namespace Sample

/-- A request of session 2 on the connection `pc`, whose next MessageId is `n`. -/
def askOf (pc : ProtoConn) (cmd : UInt16) (n : ℕ) (tree : UInt32) (body : Bytes) : Ask where
  pc := { pc with msgLow := n, msgSeen := ∅ }
  chain := { transformSid := none }
  tx := zeros 4
  hdr := ⟨1, cmd, 1, 0, 0, UInt64.ofNat n, tree, 2, none⟩
  msg := request cmd 0 0 (UInt64.ofNat n) tree 2 body

/-- TREE_CONNECT to the share. -/
def askTree (pc : ProtoConn) (n : ℕ) : Ask :=
  askOf pc cmdTreeConnect n 0 (p16 9 ++ p16 0 ++ p16 72 ++ p16 2 ++ utf16le ['s'])

def askDisconnect (pc : ProtoConn) (n : ℕ) (tree : UInt32) : Ask :=
  askOf pc cmdTreeDisconnect n tree (p16 4 ++ p16 0)

/-- The request `msg` on the connection as it is after the events `es`. -/
def turnAfter (es : List Event) (msg : Bytes) : List (Turn Disk) :=
  ((protoAfter (srv false false) es).bind fun pc =>
    (parseHdr msg).map fun hdr => .ask ⟨pc, { transformSid := none }, zeros 4, hdr, msg⟩).toList

/-- The client logs in. -/
def logInTurns : List (Turn Disk) :=
  turnAfter [.accept conn] (negotiateReq 0 0 0 0) ++
    turnAfter [.accept conn, .frame conn (negotiateReq 0 0 0 0)] (setupReq 0 1 0 krbBlob)

/-- The client has connected to the share and opened a file. -/
def openTurns : List (Turn Disk) :=
  logInTurns ++ turnAfter logIn (treeReq 0 0 2 2) ++
    turnAfter connected (createReq 0 0 3 1 2 3 fileOpenIf 0 ['f'] [])

/-- Rounds of TREE_CONNECT and TREE_DISCONNECT, after TreeId 1 was given out. -/
def treeRounds (pc : ProtoConn) (k : ℕ) : List (Turn Disk) :=
  (List.range k).flatMap fun i =>
    [.ask (askTree pc (3 + 2 * i)), .ask (askDisconnect pc (4 + 2 * i) (UInt32.ofNat (i + 2)))]

/-- The connection has an established channel of session 2 that takes unsigned plaintext. -/
def Plain (pc : ProtoConn) : Prop :=
  ∃ ch ∈ pc.channels.lookup 2, ch.established = true ∧ ch.encrypt = false ∧
    ch.signingRequired = false

instance (pc : ProtoConn) : Decidable (Plain pc) :=
  inferInstanceAs (Decidable (∃ ch ∈ pc.channels.lookup 2, _))

theorem askOf_place (pc : ProtoConn) (cmd : UInt16) (n : ℕ) (tree : UInt32) (body : Bytes) :
    (askOf pc cmd n tree body).place =
      { sessionId := 2, treeId := tree, transformSid := none } :=
  if_neg (by decide : ¬ ((0 : UInt32) &&& flagRelated ≠ 0))

/-- The file is found under the TREE_CONNECT of the client. -/
theorem handle_confined_open :
    ∃ s of, ((World.start 1 {}).shared.turns (srv false false) openTurns).sessions.lookup 2 =
        some s ∧ s.handles.get firstFid 1 = some of ∧
      ((World.start 1 {}).shared.turns (srv false false) openTurns).Under 2
        (TreeLog.turns (srv false false) 2 (World.start 1 {}).shared {} openTurns) 1 of := by
  obtain ⟨pc, -⟩ : ∃ pc, pc ∈ protoAfter (srv false false) logIn :=
    Option.isSome_iff_exists.1 (by decide +kernel)
  obtain ⟨s, hs, of, hof, -⟩ :
      ∃ s ∈ ((World.start 1 {}).shared.turns (srv false false) openTurns).sessions.lookup 2,
        ∃ of ∈ s.handles.get firstFid 1, of.treeId = 1 := by
    decide +kernel
  have hconfined := handle_confined (srv false false) 2 (World.start 1 {}).shared rfl openTurns
    (by decide +kernel) (askTree pc 4) (congrArg Chain.sessionId (askOf_place pc _ _ _ _))
  exact ⟨s, of, hs, hof, hconfined.2.1 s firstFid 1 of hs hof⟩

theorem askOf_reaches {pc : ProtoConn} (hpc : Plain pc) (sh : Shared Disk) {cmd : UInt16} {n : ℕ}
    (hn : n + 1 < 2 ^ 64) (tree : UInt32) (body : Bytes) :
    ((askOf pc cmd n tree body).px sh).Reaches crypto (askOf pc cmd n tree body).hdr
      (askOf pc cmd n tree body).msg := by
  obtain ⟨ch, hch, -, hplain, hsign⟩ := hpc
  have hplace : resolveChain (askOf pc cmd n tree body).hdr
      ((askOf pc cmd n tree body).px sh).chain =
        { sessionId := 2, treeId := tree, transformSid := none } :=
    askOf_place pc cmd n tree body
  unfold Px.Reaches
  rw [hplace]
  refine ⟨claimIds_lowest rfl ?_ rfl hn, rfl, ?_⟩
  · exact UInt64.toNat_ofNat_of_lt' (by unfold UInt64.size; omega)
  · have hlook : ((askOf pc cmd n tree body).px sh).pc.channels.lookup 2 = some ch := hch
    have hflag : ¬ (askOf pc cmd n tree body).hdr.has flagSigned :=
      (by decide : ¬ ((0 : UInt32) &&& flagSigned ≠ 0))
    unfold admitted
    rw [hlook]
    cases hsc : ch.sign <;> simp [hplain, hsign, hflag, hsc]

/-- The request names the share `s`. -/
theorem askTree_path (pc : ProtoConn) (n : ℕ) :
    Rdr.parse (treeConnectPath (askTree pc n).msg) ((askTree pc n).msg.drop 64) = some ['s'] := by
  have hmsg : ∃ hdr : Bytes, hdr.length = 64 ∧ (askTree pc n).msg =
      hdr ++ (p16 9 ++ p16 0 ++ p16 72 ++ p16 2 ++ utf16le ['s']) := ⟨_, by simp [protoId], rfl⟩
  obtain ⟨hdr, hlen, hmsg⟩ := hmsg
  have hname : slice (hdr ++ (p16 9 ++ p16 0 ++ p16 72 ++ p16 2 ++ utf16le ['s'])) 72 74 =
      some (utf16le ['s']) := by
    have hslice := slice_append_right hdr (p16 9 ++ p16 0 ++ p16 72 ++ p16 2 ++ utf16le ['s']) 8 10
    rw [hlen] at hslice
    rw [hslice]
    decide
  have hdrop : (hdr ++ (p16 9 ++ p16 0 ++ p16 72 ++ p16 2 ++ utf16le ['s'])).drop 64 =
      p16 9 ++ p16 0 ++ p16 72 ++ p16 2 ++ utf16le ['s'] := by
    rw [← hlen, List.drop_left]
  rw [hmsg, hdrop]
  have hread : treeConnectPath (hdr ++ (p16 9 ++ p16 0 ++ p16 72 ++ p16 2 ++ utf16le ['s']))
      (p16 9 ++ p16 0 ++ p16 72 ++ p16 2 ++ utf16le ['s']) =
        (slice (hdr ++ (p16 9 ++ p16 0 ++ p16 72 ++ p16 2 ++ utf16le ['s'])) 72 74).map
          fun b => (fromUtf16le b, utf16le ['s']) := by
    generalize hdr ++ (p16 9 ++ p16 0 ++ p16 72 ++ p16 2 ++ utf16le ['s']) = msg
    show (slice msg 72 74).map _ >>= _ = _
    cases slice msg 72 74 <;> rfl
  rw [Rdr.parse, hread, hname]
  decide

section

variable {pc : ProtoConn} {s : SessionInner} {tree : Tree} {sh : Shared Disk}

/-- After `i` rounds TreeId 1 is still connected, and no other. -/
def AfterRounds (s : SessionInner) (tree : Tree) (i : ℕ) (sh : Shared Disk) : Prop :=
  sh.sessions.lookup 2 = some { s with
    nextTreeId := UInt32.ofNat (i + 1), trees := AList.insert 1 tree ∅ }

theorem Plain.established (hpc : Plain pc) :
    (pc.channels.lookup 2).any (·.established) = true := by
  obtain ⟨ch, hch, hest, -⟩ := hpc
  have hlook : pc.channels.lookup 2 = some ch := hch
  rw [hlook]
  exact hest

/-- A TREE_CONNECT gives out the next TreeId. -/
theorem take_askTree (hpc : Plain pc) {n : ℕ} (hn : n + 1 < 2 ^ 64)
    (hs : sh.sessions.lookup 2 = some s)
    (htree : connectShare (cfg false false) s ['s'] = .ok tree)
    (hroom : s.trees.keys.length < maxTreesPerSession) :
    (sh.take (srv false false) (.ask (askTree pc n))).sessions.lookup 2 = some { s with
        nextTreeId := s.nextTreeId + 1, trees := s.trees.insert (s.nextTreeId + 1) tree } ∧
      ∃ resp, (dispatch (srv false false) (askTree pc n).hdr (askTree pc n).msg
          ((askTree pc n).px sh)).1.tx = (askTree pc n).tx ++ resp ∧ resp ≠ [] ∧
        respStatus resp = Status.success ∧ respTree resp = s.nextTreeId + 1 := by
  obtain ⟨hconn, resp, htx, hne, hok⟩ := dispatch_connect_ok (srv false false)
    (askOf_reaches hpc sh hn _ _) (askOf_place pc _ _ _ _) hpc.established hs rfl
    (askTree_path pc n) htree hroom
  refine ⟨?_, resp, htx, hne, hok, hconn.answer resp htx⟩
  have hshared : sh.take (srv false false) (.ask (askTree pc n)) = { sh with
      sessions := sh.sessions.insert 2 { s with
        nextTreeId := s.nextTreeId + 1, trees := s.trees.insert (s.nextTreeId + 1) tree } } :=
    hconn.shared
  rw [hshared]
  exact AList.lookup_insert _

/-- One more round. -/
theorem AfterRounds.next {i : ℕ} (h : AfterRounds s tree i sh) (hpc : Plain pc)
    (hi : i + 2 < 2 ^ 32 + 1) (hempty : s.handles.slots = [])
    (htree : connectShare (cfg false false) s ['s'] = .ok tree) :
    AfterRounds s tree (i + 1) (sh.turns (srv false false)
      [.ask (askTree pc (3 + 2 * i)),
        .ask (askDisconnect pc (4 + 2 * i) (UInt32.ofNat (i + 2)))]) := by
  have hnext : UInt32.ofNat (i + 1) + 1 = UInt32.ofNat (i + 2) :=
    (UInt32.ofNat_add (i + 1) 1).symm
  have hne : UInt32.ofNat (i + 2) ≠ 1 := by
    intro heq
    have hnat := congrArg UInt32.toNat heq
    rw [UInt32.toNat_ofNat', UInt32.toNat_one] at hnat
    omega
  obtain ⟨hconnect, -⟩ := take_askTree hpc (n := 3 + 2 * i) (by omega) h htree
    (by decide : 1 < maxTreesPerSession)
  rw [hnext] at hconnect
  have hdrop := dispatch_disconnect_ok (srv false false)
    (@askOf_reaches pc hpc (sh.take (srv false false) (.ask (askTree pc (3 + 2 * i))))
      cmdTreeDisconnect (4 + 2 * i) (by omega) (UInt32.ofNat (i + 2)) (p16 4 ++ p16 0))
    (askOf_place pc _ _ _ _) hpc.established hconnect rfl (AList.lookup_insert _) hempty
  unfold AfterRounds
  refine Eq.trans hdrop ?_
  have htrees : ((AList.insert 1 tree ∅ : FinMap UInt32 Tree).insert (UInt32.ofNat (i + 2))
      tree).erase (UInt32.ofNat (i + 2)) = AList.insert 1 tree ∅ := by
    rw [FinMap.insert_erase, FinMap.erase_of_lookup_none]
    rw [FinMap.lookup_insert, if_neg hne]
    rfl
  exact congrArg (fun trees => some { s with nextTreeId := UInt32.ofNat (i + 2), trees }) htrees

theorem treeRounds_run (hpc : Plain pc) (hempty : s.handles.slots = [])
    (htree : connectShare (cfg false false) s ['s'] = .ok tree) {k : ℕ} (hk : k < 2 ^ 32)
    (h : AfterRounds s tree 0 sh) :
    AfterRounds s tree k (sh.turns (srv false false) (treeRounds pc k)) := by
  induction k with
  | zero => exact h
  | succ k ih =>
    have hlast := (ih (by omega)).next hpc (by omega) hempty htree
    unfold treeRounds
    rw [List.range_succ, List.flatMap_append, Shared.turns, List.foldl_append]
    exact hlast

end

/-- **A TreeId that is still connected is given out again.**  The client connects to the share, and
keeps TreeId 1; then it connects and disconnects `2 ^ 32 - 1` times.  The next TREE_CONNECT returns
TreeId 1. -/
theorem tree_id_again :
    ∃ (ts : List (Turn Disk)) (a : Ask) (resp : Bytes) (s : SessionInner) (tree : Tree),
      let sh := (World.start 1 {}).shared.turns (srv false false) ts
      (World.start 1 ({} : Disk)).shared.sessions = ∅ ∧ a.hdr.command = cmdTreeConnect ∧
        a.place.sessionId = 2 ∧
        (dispatch (srv false false) a.hdr a.msg (a.px sh)).1.tx = a.tx ++ resp ∧ resp ≠ [] ∧
        respStatus resp = Status.success ∧ sh.sessions.lookup 2 = some s ∧
        s.trees.lookup (respTree resp) = some tree := by
  obtain ⟨pc, -, hpc⟩ : ∃ pc ∈ protoAfter (srv false false) logIn, Plain pc := by
    decide +kernel
  obtain ⟨s, hs, hnext, hkeys, hslots, hshare⟩ :
      ∃ s ∈ ((World.start 1 {}).shared.turns (srv false false) logInTurns).sessions.lookup 2,
        s.nextTreeId = 0 ∧ s.trees.keys = [] ∧ s.handles.slots.length = 0 ∧
          (connectShare (cfg false false) s ['s']).toOption = some ⟨0, false, false⟩ := by
    decide +kernel
  have hempty := List.eq_nil_of_length_eq_zero hslots
  have htrees : s.trees = ∅ := AList.ext (List.map_eq_nil_iff.1 hkeys)
  have htree : connectShare (cfg false false) s ['s'] = .ok ⟨0, false, false⟩ := by
    cases hc : connectShare (cfg false false) s ['s'] with
    | error e => simp [hc, Except.toOption] at hshare
    | ok tree =>
      rw [hc] at hshare
      rw [Option.some.inj hshare]
  -- the number of rounds is kept as a variable, so that nothing tries to unroll them
  obtain ⟨k, hk⟩ : ∃ k, k + 1 = 2 ^ 32 := ⟨2 ^ 32 - 1, by norm_num⟩
  have hfirst := (take_askTree hpc (n := 2) (by norm_num) hs htree (by rw [hkeys]; decide)).1
  have hround : AfterRounds s ⟨0, false, false⟩ 0
      (((World.start 1 {}).shared.turns (srv false false) logInTurns).take (srv false false)
        (.ask (askTree pc 2))) := by
    rw [hnext, htrees] at hfirst
    exact hfirst
  have hrounds := treeRounds_run hpc hempty htree (k := k) (by omega) hround
  have hzero : UInt32.ofNat (k + 1) = 0 := by
    rw [hk]
    decide
  unfold AfterRounds at hrounds
  rw [hzero] at hrounds
  obtain ⟨-, resp, htx, hne, hok, hresp⟩ := take_askTree hpc (n := 3 + 2 * k) (by omega) hrounds
    htree (by decide : 1 < maxTreesPerSession)
  refine ⟨logInTurns ++ .ask (askTree pc 2) :: treeRounds pc k, askTree pc (3 + 2 * k), resp,
    { s with nextTreeId := 0, trees := AList.insert 1 ⟨0, false, false⟩ ∅ }, ⟨0, false, false⟩,
    rfl, rfl, congrArg Chain.sessionId (askOf_place pc _ _ _ _), ?_, hne, hok, ?_, ?_⟩
  · rw [Shared.turns, List.foldl_append, List.foldl_cons]
    exact htx
  · rw [Shared.turns, List.foldl_append, List.foldl_cons]
    exact hrounds
  · rw [hresp]
    exact AList.lookup_insert _

end Sample

end RocketSmbd
