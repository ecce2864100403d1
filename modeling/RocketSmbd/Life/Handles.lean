import RocketSmbd.Life.Events

/-!
# Which handle a FileId means

A FileId is a number; what it means depends on the handle table of its session.  Handles are told
apart by their serial numbers, in the order in which the server opened them.

* `Shared.Roomy`: the handle tables are within their bounds, which makes FileIds reversible;
* `Shared.Names`: the serial number that a FileId means;
* `dispatch_opened`: a CREATE that opens a file makes the compound remember the FileId that means
  it; any other request keeps the remembered FileId and lets no FileId mean another handle.
-/

namespace RocketSmbd

open ByteString Vfs

variable {σ : Type}

/-- Every handle table has a generation for each slot and no more slots than there may be opens. -/
def Shared.Roomy (sh : Shared σ) : Prop :=
  ∀ sid s, sh.sessions.lookup sid = some s → s.handles.Fits maxOpensPerSession

/-- In session `sid` the FileId `fid` of tree `tree` means handle number `n`. -/
def Shared.Names (sh : Shared σ) (sid fid : UInt64) (tree : UInt32) (n : ℕ) : Prop :=
  ∃ s of, sh.sessions.lookup sid = some s ∧ s.handles.get fid tree = some of ∧ of.serial = n

/-- The effect opens a handle. -/
def Effect.opens : Effect → Prop
  | .insert _ _ _ _ => True
  | _ => False

/-! ### Effects -/

section

variable {os : Os σ} {e : Effect} {s t : Sx σ}

theorem Touch.apply_tree (tch : Touch) (of : OpenFile) : (tch.apply of).treeId = of.treeId := by
  cases tch <;> rfl

theorem Sx.Does.fits (h : Sx.Does os e s t) (hs : s.sess.handles.Fits maxOpensPerSession) :
    t.sess.handles.Fits maxOpensPerSession := by
  cases h with
  | touch fid tch => exact HandleTable.fits_modify hs fid _ _
  | close h ho => exact HandleTable.fits_remove h hs
  | insert of granted ino cid _ hroom => exact hs.insert hroom _
  | _ => exact hs

/-- An effect that opens nothing gives no FileId a new meaning and keeps the remembered one. -/
structure Sx.Same (s t : Sx σ) : Prop where
  get : ∀ fid tree of, t.sess.handles.get fid tree = some of →
    ∃ of', s.sess.handles.get fid tree = some of' ∧ of'.serial = of.serial
  opened : t.host.opened = s.host.opened
  lastFid : t.chain.lastFid = s.chain.lastFid

theorem Sx.Same.rfl' (s : Sx σ) {host : Host σ} {q : NotifyQueues} {treeId : UInt32}
    {trees : FinMap UInt32 Tree} {nextTreeId : UInt32} (h : host.opened = s.host.opened) :
    Sx.Same s ⟨{ s.sess with trees, nextTreeId }, host, { s.chain with treeId }, q⟩ :=
  ⟨fun _ _ of hof => ⟨of, hof, rfl⟩, h, rfl⟩

theorem Sx.Does.same (h : Sx.Does os e s t) (he : ¬ e.opens) : Sx.Same s t := by
  cases h with
  | call | connect tree | disconnect | cleanup fid | accept => exact .rfl' s rfl
  | breaks key except => exact .rfl' s (breakLeases_step (fun _ => False) key except s.host).opened
  | touch fid tch =>
    refine ⟨fun fid' tree of hof => ?_, rfl, rfl⟩
    exact HandleTable.get_modify OpenFile.serial
      (fun of => ⟨tch.apply_tree of, tch.apply_serial of⟩) hof
  | close h ho =>
    refine ⟨fun fid' tree of hof => ⟨of, HandleTable.get_remove h hof, rfl⟩, ?_, rfl⟩
    exact (finishClose_step (fun _ => False) os _ _).opened
  | insert => exact absurd trivial he

/-- What a CREATE has done: nothing to the handles yet, or the remembered FileId means a handle
that it opened; `n` and `last` are the count of opens and the remembered FileId before. -/
def Sx.Created (n : ℕ) (last : Option UInt64) (s : Sx σ) : Prop :=
  (s.host.opened = n ∧ s.chain.lastFid = last) ∨
    ∃ fid of, s.chain.lastFid = some fid ∧ s.sess.handles.get fid s.chain.treeId = some of ∧
      n ≤ of.serial ∧ of.serial < s.host.opened

theorem insertHandle_created {of : OpenFile} {granted : Option LeaseReq} {ino : UInt64}
    {cid : ℕ × ℕ × UInt16} (hs : s.sess.handles.Fits maxOpensPerSession)
    (hroom : s.sess.handles.len < maxOpensPerSession) {n : ℕ} (hn : n ≤ s.host.opened)
    (last : Option UInt64) : Sx.Created n last (insertHandle of granted ino cid s).2 := by
  have hget := HandleTable.get_insert
    { of with treeId := s.chain.treeId, serial := s.host.opened } (hs.insert hroom _)
    (by decide : maxOpensPerSession ≤ 2 ^ 32)
  refine Or.inr ⟨_, _, rfl, hget, hn, ?_⟩
  rw [insertHandle_opened]
  exact Nat.lt_succ_self _

/-- The effects of a CREATE before and with the new handle. -/
theorem Sx.Acts.created {P : Effect → Prop} (h : Sx.Acts os P s t)
    (hP : ∀ e, P e → e.outer ∨ e.opens) (hs : s.sess.handles.Fits maxOpensPerSession) :
    Sx.Created s.host.opened s.chain.lastFid t ∧ t.chain.treeId = s.chain.treeId ∧
      s.host.opened ≤ t.host.opened ∧ t.sess.handles.Fits maxOpensPerSession := by
  induction h with
  | refl => exact ⟨Or.inl ⟨rfl, rfl⟩, rfl, le_rfl, hs⟩
  | tail _ hstep ih =>
    obtain ⟨e, he, hd⟩ := hstep
    obtain ⟨hcreated, htree, hle, hfits⟩ := ih
    rcases hP e he with hout | hopens
    · -- the host changes, but not its count of opens
      obtain ⟨hsess, hchain, -⟩ := hd.outer hout
      have hopened :=
        (hd.same fun hopens => by cases e <;> first | exact hout | exact hopens).opened
      refine ⟨?_, by rw [hchain]; exact htree, by rw [hopened]; exact hle, hd.fits hfits⟩
      unfold Sx.Created
      rw [hsess, hchain, hopened]
      exact hcreated
    · cases hd with
      | insert of granted ino cid _ hroom =>
        refine ⟨insertHandle_created hfits hroom hle _, htree, ?_, hfits.insert hroom _⟩
        rw [insertHandle_opened]
        exact Nat.le_succ_of_le hle
      | _ => exact hopens.elim

end

/-! ### Deeds -/

def DeedLabel.opens : DeedLabel → Prop
  | .effect _ _ e => e.opens
  | _ => False

section

variable {srv : Srv σ} {l : DeedLabel} {a b : Shared σ}

section

variable {sh : Shared σ} {host : Host σ} {created : List UInt64} {sid sid' fid : UInt64}
  {tree : UInt32} {n : ℕ}

/-- A session was exchanged for one with a table that gives no FileId a new meaning. -/
theorem Shared.Names.ofInsert {s' : SessionInner}
    (hs : ∀ of, s'.handles.get fid tree = some of →
      ∃ s of', sh.sessions.lookup sid = some s ∧ s.handles.get fid tree = some of' ∧
        of'.serial = of.serial)
    (h : Shared.Names ⟨sh.sessions.insert sid s', host, created⟩ sid' fid tree n) :
    sh.Names sid' fid tree n := by
  obtain ⟨s₁, of, hlook, hget, rfl⟩ := h
  rw [FinMap.lookup_insert] at hlook
  split_ifs at hlook with hsid
  · obtain rfl := Option.some.inj hlook
    obtain ⟨s, of', hs, hget', hser⟩ := hs of hget
    exact ⟨s, of', hsid ▸ hs, hget', hser⟩
  · exact ⟨s₁, of, hlook, hget, rfl⟩

theorem Shared.Names.ofErase
    (h : Shared.Names ⟨sh.sessions.erase sid, host, created⟩ sid' fid tree n) :
    sh.Names sid' fid tree n := by
  obtain ⟨s₁, of, hlook, hget, rfl⟩ := h
  rw [FinMap.lookup_erase] at hlook
  split_ifs at hlook
  exact ⟨s₁, of, hlook, hget, rfl⟩

end

/-- The table of a fresh session means nothing. -/
theorem HandleTable.get_empty (fid : UInt64) (tree : UInt32) :
    HandleTable.get (Slab.empty : HandleTable) fid tree = none := by
  rw [Option.eq_none_iff_forall_ne_some]
  intro of hof
  have hat := (HandleTable.get_eq_some.1 hof).2.1
  simp [Slab.at?, Slab.empty] at hat

theorem Deed.names (h : Deed srv l a b) (hl : ¬ l.opens) {sid fid : UInt64} {tree : UInt32} {n : ℕ}
    (hn : b.Names sid fid tree n) : a.Names sid fid tree n := by
  cases h with
  | aside | released | drained => exact hn
  | register sid' =>
    refine hn.ofInsert fun of hof => ?_
    rw [show ({} : SessionInner).handles = Slab.empty from rfl, HandleTable.get_empty] at hof
    simp at hof
  | revise hs hhandles => exact hn.ofInsert fun of hof => ⟨_, of, hs, hhandles ▸ hof, rfl⟩
  | drop => exact hn.ofErase
  | effect hs hchain hdoes =>
    refine hn.ofInsert fun of hof => ?_
    obtain ⟨of', hof', hser⟩ := (hdoes.same hl).get fid tree of hof
    exact ⟨_, of', hs, hof', hser⟩
  | ended hs =>
    unfold endSession at hn
    rw [hs] at hn
    exact hn.ofErase

theorem Deed.opened (h : Deed srv l a b) (hl : ¬ l.opens) : b.host.opened = a.host.opened := by
  cases h with
  | effect hs hchain hdoes => exact (hdoes.same hl).opened
  | ended hs =>
    unfold endSession
    rw [hs]
    exact (closeFiles_step (fun _ => False) _ _ _).opened
  | _ => rfl

theorem Deed.roomy (h : Deed srv l a b) (ha : a.Roomy) : b.Roomy := by
  have hinsert : ∀ (sid : UInt64) (s' : SessionInner), s'.handles.Fits maxOpensPerSession →
      ∀ sid' s, (a.sessions.insert sid s').lookup sid' = some s →
        s.handles.Fits maxOpensPerSession := by
    intro sid s' hfits sid' s hs
    rw [FinMap.lookup_insert] at hs
    split_ifs at hs
    · exact Option.some.inj hs ▸ hfits
    · exact ha sid' s hs
  have herase : ∀ (sid sid' : UInt64) (s : SessionInner),
      (a.sessions.erase sid).lookup sid' = some s → s.handles.Fits maxOpensPerSession := by
    intro sid sid' s hs
    rw [FinMap.lookup_erase] at hs
    split_ifs at hs
    exact ha sid' s hs
  cases h with
  | register sid => exact hinsert sid {} (Slab.fits_empty _)
  | revise hs hhandles => exact hinsert _ _ (hhandles ▸ ha _ _ hs)
  | drop sid => exact herase sid
  | effect hs hchain hdoes => exact hinsert _ _ (hdoes.fits (ha _ _ hs))
  | ended hs =>
    unfold endSession
    rw [hs]
    exact herase _
  | _ => exact ha

end

/-! ### Requests -/

section

variable (srv : Srv σ) (h : ReqHdr) (msg : Bytes) (px : Px σ)

/-- A CREATE with the resolved chain `chain`: it opened nothing, or it left the FileId of a handle
that it opened. -/
def Px.Created (chain : Chain) (px px' : Px σ) : Prop :=
  (px'.shared.host.opened = px.shared.host.opened ∧ px'.chain.lastFid = px.chain.lastFid) ∨
    ∃ fid n, px'.chain.lastFid = some fid ∧
      px'.shared.Names chain.sessionId fid chain.treeId n ∧ px.shared.host.opened ≤ n ∧
      n < px'.shared.host.opened

section

variable {pc : ProtoConn} {sid : UInt64} {tree : Option Tree} {e : Effect}

theorem requestEffects_opens
    (hcmd : h.command ≠ cmdCreate) (he : requestEffects h pc sid tree e) : ¬ e.opens := by
  cases e with
  | insert of granted ino cid => exact fun _ => hcmd he.1
  | _ => exact id

theorem requestEffects_create
    (hcmd : h.command = cmdCreate) (he : requestEffects h pc sid tree e) : e.outer ∨ e.opens := by
  cases e with
  | call | breaks => exact Or.inl trivial
  | insert => exact Or.inr trivial
  | touch fid t =>
    cases t <;>
      simp [requestEffects, hcmd, cmdCreate, cmdSetInfo, cmdQueryDirectory] at he
  | _ =>
    simp [requestEffects, hcmd, cmdCreate, cmdTreeConnect, cmdTreeDisconnect, cmdClose,
      cmdChangeNotify] at he

end

theorem runHandler_lastFid {A : Type} {sess : SessionInner} {m : Handler σ A}
    (hcmd : h.command ≠ cmdCreate) (hm : Serves srv h px sess m) :
    (runHandler px sess m).2.chain.lastFid = px.chain.lastFid := by
  have hacts := hm (px.enter sess)
  unfold runHandler
  dsimp only
  generalize (m (px.enter sess)).2 = sx at hacts ⊢
  induction hacts with
  | refl => rfl
  | tail _ hstep ih =>
    obtain ⟨e, he, hd⟩ := hstep
    exact (hd.same (requestEffects_opens h hcmd he)).lastFid.trans ih

/-- The handler of a CREATE. -/
theorem runHandler_created {A : Type} {ch : ChannelState} {sess : SessionInner} {m : Handler σ A}
    (hcmd : h.command = cmdCreate) (hm : Serves srv h px sess m) (hb : px.Bound ch sess)
    (hroomy : px.shared.Roomy) : px.Created px.chain (runHandler px sess m).2 := by
  have hacts := hm (px.enter sess)
  unfold runHandler
  dsimp only
  generalize (m (px.enter sess)).2 = sx at hacts ⊢
  obtain ⟨hcreated, htree, -, -⟩ := hacts.created (fun e => requestEffects_create h hcmd)
    (hroomy _ _ hb.session)
  rcases hcreated with ⟨hopened, hlast⟩ | ⟨fid, of, hlast, hget, hle, hlt⟩
  · exact Or.inl ⟨hopened, hlast⟩
  · refine Or.inr ⟨fid, of.serial, hlast, ⟨sx.sess, of, AList.lookup_insert _, ?_, rfl⟩, hle, hlt⟩
    rw [← htree]
    exact hget

theorem routeSession_lastFid (hcmd : h.command ≠ cmdCreate) :
    (routeSession srv h msg px).1.chain.lastFid = px.chain.lastFid := by
  exact routeSession_state srv h msg px (P := fun px' => px'.chain.lastFid = px.chain.lastFid)
    (fun _ _ hP => hP) rfl rfl fun _ hm => runHandler_lastFid srv h px hcmd hm

theorem resolveChain_lastFid (chain : Chain) : (resolveChain h chain).lastFid = chain.lastFid := by
  unfold resolveChain
  split <;> rfl

section

variable (hcmd : h.command ≠ cmdCreate)
include hcmd

/-- Only a CREATE makes the compound remember another FileId. -/
theorem dispatch_lastFid :
    (dispatch srv h msg px).1.chain.lastFid = px.chain.lastFid := by
  have hout := dispatch_dispatched srv h msg px
  generalize dispatch srv h msg px = out at hout ⊢
  cases hout with
  | replayed => rfl
  | foreign | refused => exact resolveChain_lastFid h px.chain
  | routed =>
    refine Eq.trans ?_ (resolveChain_lastFid h px.chain)
    have hcmd' : (h.paid px).command ≠ cmdCreate := hcmd
    change _ = (px.ready h).chain.lastFid
    generalize h.paid px = h' at hcmd' ⊢
    generalize px.ready h = px'
    unfold route
    split_ifs
    · exact (negotiate_answers srv h' msg px').handle
    · rfl
    · rfl
    · exact (sessionSetup_answers srv h' msg px').handle
    · exact (logoff_answers srv h' px').handle
    · exact routeSession_lastFid srv h' msg px' hcmd'

/-- The deeds of any request but CREATE open nothing. -/
theorem dispatch_deeds_opens :
    Deeds srv (fun l _ => ¬ l.opens) px.shared (dispatch srv h msg px).1.shared := by
  refine (dispatch_deeds srv h msg px).mono fun l sh ⟨_, credits, hl⟩ => ?_
  cases l with
  | effect sid tree e => exact requestEffects_opens { h with credits } hcmd hl.2.2
  | _ => exact id

/-- **Any request but CREATE gives no FileId a new meaning.** -/
theorem dispatch_names {sid fid : UInt64} {tree : UInt32} {n : ℕ}
    (hn : (dispatch srv h msg px).1.shared.Names sid fid tree n) :
    px.shared.Names sid fid tree n := by
  have hback : ∀ {a b : Shared σ}, Deeds srv (fun l _ => ¬ l.opens) a b →
      b.Names sid fid tree n → a.Names sid fid tree n := by
    intro a b hd
    induction hd with
    | refl => exact id
    | tail _ hstep ih =>
      obtain ⟨l, hl, hd⟩ := hstep
      exact fun hn => ih (hd.names hl hn)
  exact hback (dispatch_deeds_opens srv h msg px hcmd) hn

end

theorem route_created (hcmd : h.command = cmdCreate) (hroomy : px.shared.Roomy) :
    px.Created px.chain (route srv h msg px).1 := by
  have hroute : route srv h msg px = routeSession srv h msg px := by
    unfold route
    rw [hcmd]
    rfl
  have hnone : px.Created px.chain px := Or.inl ⟨rfl, rfl⟩
  rw [hroute]
  exact routeSession_state srv h msg px (P := px.Created px.chain) (fun _ _ hP => hP) hnone hnone
    fun hb hm => runHandler_created srv h px hcmd hm hb hroomy

/-- **A CREATE that opens a file makes the compound remember it.** -/
theorem dispatch_created (hcmd : h.command = cmdCreate) (hroomy : px.shared.Roomy) :
    px.Created (resolveChain h px.chain) (dispatch srv h msg px).1 := by
  have hout := dispatch_dispatched srv h msg px
  generalize dispatch srv h msg px = out at hout ⊢
  cases hout with
  | replayed => exact Or.inl ⟨rfl, rfl⟩
  | foreign | refused => exact Or.inl ⟨rfl, resolveChain_lastFid h px.chain⟩
  | routed =>
    have hroute := route_created srv (h.paid px) msg (px.ready h) hcmd hroomy
    unfold Px.Created at hroute
    rw [resolveChain_lastFid] at hroute
    exact hroute

end

/-- The handle tables of a run are within their bounds. -/
theorem World.run_roomy (srv : Srv σ) (w : World σ) (es : List Event) (hw : w.shared.Roomy) :
    (w.run srv es).shared.Roomy :=
  World.run_shared srv (fun _ _ _ h ha => h.roomy ha) es w hw

end RocketSmbd
