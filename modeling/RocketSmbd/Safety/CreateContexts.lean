import RocketSmbd.Smb2.Effects
import RocketSmbd.Smb2.LeaseCtx

/-!
# Create contexts and the lease echo

The response to a CREATE echoes the lease that was granted as a context of the format of the
request.  `LeaseLayout.parse_leaseReply` parses it at the advertised place, and
`create_contexts_agree` says that a lease which is granted is found there as it was requested, with
the state that is entered in the new handle and in the lease table, and that otherwise nothing is
advertised and no lease is entered.
-/

namespace RocketSmbd

open ByteString Linked Vfs

variable {σ : Type}

/-! ### The echo -/

/-- The data of the echoed context. -/
def echoData (l : LeaseReq) (state : UInt32) : Bytes :=
  l.key ++ p32 state ++ p32 0 ++ p64 0 ++ (if l.v2 then l.parent ++ p16 l.epoch ++ p16 0 else [])

/-- The echoed context. -/
def echoCtx (l : LeaseReq) (state : UInt32) : Bytes :=
  p32 0 ++ p16 16 ++ p16 4 ++ p16 0 ++ p16 24 ++ p32 (if l.v2 then 52 else 32) ++ ctxNameRqls ++
    zeros 4 ++ echoData l state

theorem leaseReply_some (l : LeaseReq) (state : UInt32) :
    leaseReply (some l) state =
      p32 152 ++ p32 (24 + (if l.v2 then 52 else 32)) ++ echoCtx l state := by
  simp only [leaseReply, echoCtx, echoData, List.append_assoc]

section

variable {l : LeaseReq} {data : Bytes} (h : LeaseLayout data l) (state : UInt32)

include h

theorem LeaseLayout.echo : LeaseLayout (echoData l state) { l with state } := by
  obtain ⟨hkey, flags, duration, more, -, -, -, hmore⟩ := h
  refine ⟨hkey, p32 0, p64 0, _, p32_length 0, p64_length 0, rfl, ?_⟩
  cases hv : l.v2 with
  | false =>
    rw [hv] at hmore
    exact ⟨by simp, hmore.2⟩
  | true =>
    rw [hv] at hmore
    exact ⟨hmore.1, p16 0, le_rfl, rfl⟩

theorem LeaseLayout.echoData_length :
    (echoData l state).length = (if l.v2 then 52 else 32 : UInt32).toNat := by
  obtain ⟨hkey, flags, duration, more, -, -, -, hmore⟩ := h
  cases hv : l.v2 with
  | false => simp [echoData, hv, hkey]
  | true =>
    rw [hv] at hmore
    simp [echoData, hv, hkey, hmore.1]

theorem LeaseLayout.isCtx_echo : IsCtx (echoCtx l state) ⟨ctxNameRqls, echoData l state⟩ := by
  have hlen := h.echoData_length state
  have hname : (echoCtx l state).extract 4 6 = p16 16 := by simp [echoCtx, p16, p32, leBytes]
  have hnameLen : (echoCtx l state).extract 6 8 = p16 4 := by simp [echoCtx, p16, p32, leBytes]
  have hdata : (echoCtx l state).extract 10 12 = p16 24 := by simp [echoCtx, p16, p32, leBytes]
  have hdataLen : (echoCtx l state).extract 12 16 = p32 (if l.v2 then 52 else 32) := by
    simp [echoCtx, p16, p32, leBytes]
  have hsize : leNat (p32 (if l.v2 then 52 else 32)) = (echoData l state).length := by
    rw [hlen]
    split_ifs <;> rfl
  refine ⟨?_, ?_, ?_⟩
  · simp only [echoCtx, List.length_append, p32_length, p16_length]
    omega
  · rw [hname, hnameLen]
    exact slice_part (a := p32 0 ++ p16 16 ++ p16 4 ++ p16 0 ++ p16 24 ++
      p32 (if l.v2 then 52 else 32)) (c := zeros 4 ++ echoData l state)
      (by simp only [echoCtx, List.append_assoc]) (by split_ifs <;> rfl) rfl
  · rw [hdata, hdataLen, hsize]
    exact slice_part (a := p32 0 ++ p16 16 ++ p16 4 ++ p16 0 ++ p16 24 ++
      p32 (if l.v2 then 52 else 32) ++ ctxNameRqls ++ zeros 4) (c := [])
      (by simp only [echoCtx, List.append_nil]) (by split_ifs <;> rfl) rfl

theorem LeaseLayout.parse_echo : parseLeaseCtx (echoCtx l state) = some { l with state } := by
  have hlayout := h.echo state
  have hlist : IsCtxList [echoCtx l state] [⟨ctxNameRqls, echoData l state⟩] := by
    refine ⟨.cons (h.isCtx_echo state) .nil, Or.inr (.last ?_)⟩
    simp only [echoCtx, List.append_assoc]
    rfl
  have hlease : CreateCtx.IsLease ⟨ctxNameRqls, echoData l state⟩ := by
    refine ⟨rfl, ?_⟩
    dsimp only
    rw [h.echoData_length state]
    split_ifs <;> decide
  have hparse := parseLeaseCtx_list hlist
  rw [List.flatten_singleton, List.find?_cons_of_pos (by simpa using hlease), Option.map_some,
    hlayout.leaseData_eq] at hparse
  exact hparse

/-- The echo, parsed at the offset and length that the response advertises. -/
theorem LeaseLayout.parse_leaseReply {resp pre : Bytes} (hpre : pre.length = 144)
    (hresp : resp = pre ++ leaseReply (some l) state) :
    let off := leNat (resp.extract 144 148)
    let len := leNat (resp.extract 148 152)
    len ≠ 0 ∧ (slice resp off (off + len)).bind parseLeaseCtx = some { l with state } := by
  intro off len
  have hsplit : resp = pre ++ p32 152 ++ p32 (24 + (if l.v2 then 52 else 32)) ++
      echoCtx l state := by
    rw [hresp, leaseReply_some]
    simp only [List.append_assoc]
  have hoff : off = 152 := by
    have hfield : resp.extract 144 148 = p32 152 :=
      extract_field (a := pre) (b := p32 (24 + (if l.v2 then 52 else 32)) ++ echoCtx l state)
        (by rw [hsplit]; simp only [List.append_assoc]) hpre rfl
    change leNat (resp.extract 144 148) = 152
    rw [hfield]
    rfl
  have hlen : len = (echoCtx l state).length := by
    have hfield : resp.extract 148 152 = p32 (24 + (if l.v2 then 52 else 32)) :=
      extract_field (a := pre ++ p32 152) (b := echoCtx l state)
        (by rw [hsplit]) (by simp [hpre]) rfl
    change leNat (resp.extract 148 152) = _
    rw [hfield]
    simp only [echoCtx, List.length_append, p32_length, p16_length, zeros_length,
      h.echoData_length state]
    split_ifs <;> rfl
  have hslice : slice resp off (off + len) = some (echoCtx l state) :=
    slice_part (a := pre ++ p32 152 ++ p32 (24 + (if l.v2 then 52 else 32))) (c := [])
      (by rw [hsplit, List.append_nil]) (by simp [hpre, hoff]) (by rw [hlen])
  rw [hslice]
  refine ⟨?_, h.parse_echo state⟩
  rw [hlen]
  simp only [echoCtx, List.length_append, p32_length]
  omega

end

/-! ### The response of CREATE -/

/-- The conditions on which CREATE grants a lease on a new handle. -/
def Grants (cfg : Config) (allowOplock : Bool) (of : OpenFile) (l : LeaseReq) : Prop :=
  cfg.oplocks ∧ allowOplock ∧ ¬ of.isDir ∧ l.state &&& leaseReadCaching ≠ 0

/-- What a CREATE enters with the new handle `of`: the handle has the key and the state of the
lease if it is granted, and the lease table has them for its file; otherwise there is no state and
no new lease. -/
structure Entered (cfg : Config) (allowOplock : Bool) (req : CreateReq) (of : OpenFile)
    (s s' : Sx σ) : Prop where
  handles : s'.sess.handles = (s.sess.handles.insert of).2
  key : of.leaseKey = req.lease.map LeaseReq.key
  granted : ∀ l, req.lease = some l → Grants cfg allowOplock of l →
    of.leaseGranted = leaseReadCaching ||| (l.state &&& leaseHandleCaching) ∧
    ∃ ino, of.oplockIno = some ino ∧ ∃ g, s'.host.leases.HeldAt (of.shareIdx, ino) g ∧
      g.leaseKey = l.key ∧ g.state = of.leaseGranted ∧ g.epoch = l.epoch
  refused : (∀ l, req.lease = some l → ¬ Grants cfg allowOplock of l) →
    of.leaseGranted = 0 ∧ of.oplockIno = none ∧
      ∀ g, s'.host.leases.Held g → s.host.leases.Held g

section

variable {cfg : Config} {allowOplock : Bool} {req : CreateReq} {of : OpenFile} {l : LeaseReq}

theorem grantedLease_some (hl : req.lease = some l) (h : Grants cfg allowOplock of l) :
    grantedLease cfg allowOplock of.isDir req.lease = some l ∧
      grantedState cfg allowOplock of.isDir req.lease =
        leaseReadCaching ||| (l.state &&& leaseHandleCaching) := by
  rw [hl]
  exact ⟨Option.filter_eq_some_iff.2 ⟨rfl, decide_eq_true h⟩, if_pos h⟩

theorem grantedLease_none (h : ∀ l, req.lease = some l → ¬ Grants cfg allowOplock of l) :
    grantedLease cfg allowOplock of.isDir req.lease = none ∧
      grantedState cfg allowOplock of.isDir req.lease = 0 := by
  cases hl : req.lease with
  | none => exact ⟨rfl, rfl⟩
  | some l => exact ⟨if_neg (by simpa [Grants] using h l hl), if_neg (h l hl)⟩

/-- The insertion of a handle whose lease fields are those of the grant. -/
theorem insertHandle_entered {s t : Sx σ} (hsess : t.sess = s.sess)
    (hheld : ∀ g, t.host.leases.Held g → s.host.leases.Held g) {ino : UInt64}
    (hkey : of.leaseKey = req.lease.map LeaseReq.key)
    (hstate : of.leaseGranted = grantedState cfg allowOplock of.isDir req.lease)
    (hino : of.oplockIno = (grantedLease cfg allowOplock of.isDir req.lease).map fun _ => ino)
    (cid : ℕ × ℕ × UInt16) :
    Entered cfg allowOplock req { of with treeId := t.chain.treeId, serial := t.host.opened } s
      (insertHandle of (grantedLease cfg allowOplock of.isDir req.lease) ino cid t).2 where
  handles := by
    rw [← hsess]
    rfl
  key := hkey
  granted := by
    intro l hl hgrants
    obtain ⟨hsome, hval⟩ := grantedLease_some hl hgrants
    dsimp only at hsome hval ⊢
    rw [hsome] at hino ⊢
    refine ⟨hstate.trans hval, ino, hino, _, ⟨_, AList.lookup_insert _,
      LeaseTable.mem_setGrant_self _ _⟩, rfl, rfl, rfl⟩
  refused := by
    intro hnot
    obtain ⟨hnone, hval⟩ := grantedLease_none hnot
    dsimp only at hnone hval ⊢
    rw [hnone] at hino ⊢
    exact ⟨hstate.trans hval, hino, hheld⟩

end

variable (srv : Srv σ) (msg : Bytes) (share : ShareCfg) (tree : Tree) (cid : ℕ × ℕ × UInt16)
  (allowOplock : Bool)

theorem create_entered (s₀ : Sx σ) :
    Eff.Holds (· = s₀) (create srv msg share tree cid allowOplock)
      (fun b s => ∃ req of, parseCreate msg = some req ∧ Entered srv.cfg allowOplock req of s₀ s ∧
        ∃ action m attrs, b = (Status.success, createBody action m attrs
          (s₀.sess.handles.insert of).1 (grantedLease srv.cfg allowOplock of.isDir req.lease)
          of.leaseGranted))
      fun _ => True := by
  refine .bind (Q := fun req s => s = s₀ ∧ parseCreate msg = some req)
    (.need _ _ (fun _ _ => trivial) fun req s hs h => ⟨hs, h⟩) fun req => ?_
  -- up to the new handle neither the session nor the leases gain anything
  let before (s : Sx σ) : Prop :=
    parseCreate msg = some req ∧ Sx.Acts srv.env.os Effect.outer s₀ s
  have hkeep : ∀ {A : Type} {m : Handler σ A}, Eff.Keeps (Sx.Acts srv.env.os Effect.outer) m →
      Eff.Holds before m (fun _ => before) fun _ => True := fun hm =>
    .ofKeeps hm (fun _ s s' hs h => ⟨hs.1, hs.2.trans h⟩) fun _ _ _ _ => trivial
  have hlook : Effect.outer (.call .look) := trivial
  refine .bind (Q := fun _ => before) (.ofExcept _ (fun _ _ => trivial) fun _ s hs _ =>
    ⟨hs.2, hs.1 ▸ .refl⟩) fun ⟨path, rel⟩ => ?_
  refine .bind (hkeep (.ofHolds fun s => (createOpen_holds hlook (fun _ => trivial) req path rel
    tree.readOnly trivial (fun _ => trivial) s).mono (fun _ h => h) (fun _ _ h => h.2)
    fun _ h => h)) fun o => ?_
  refine .bind (hkeep (openedMeta_acts hlook _ trivial)) fun m => ?_
  refine .bind (hkeep (.ite (.ret _)
    fun s => .of (.call (.fadviseSequential o.fd s.host.os)) hlook)) fun _ => ?_
  refine .bind (hkeep (.ite (breakLeases_acts _ _ trivial) (.ret _))) fun _ => ?_
  refine .bind (.total (Q := fun fid s => ∃ of, parseCreate msg = some req ∧ of.isDir = o.isDir ∧
      of.leaseGranted = grantedState srv.cfg allowOplock o.isDir req.lease ∧
      fid = (s₀.sess.handles.insert of).1 ∧ Entered srv.cfg allowOplock req of s₀ s) _
    fun t ht => ?_) fun fid => .ret _ fun s hs => ?_
  · obtain ⟨hsess, -, hheld⟩ := ht.2.outer fun _ he => he
    refine ⟨_, ht.1, rfl, rfl, ?_, insertHandle_entered hsess hheld rfl rfl rfl cid⟩
    rw [← hsess]
    rfl
  · obtain ⟨of, hreq, hdir, hstate, rfl, hentered⟩ := hs
    exact ⟨req, of, hreq, hentered, _, _, _, by rw [hdir, hstate]⟩

/-- **Create-context walking and the lease echo agree.**  In a list of well-formed contexts the
walk finds the first lease request and returns what is laid out in it, and it ends on every byte
string.  A successful CREATE enters a new handle, whose id is in the response.  If the lease of the
request is granted, then the context in the response, parsed at the advertised offset and length,
gives the requested key, version, parent and epoch with the state that was granted, which is the one
in the new handle and in the lease table; otherwise no context is advertised and nothing was
granted. -/
theorem create_contexts_agree :
    (∀ rs cs, IsCtxList rs cs →
      match cs.find? fun c => c.IsLease with
      | some c => ∃ l, LeaseLayout c.data l ∧ parseLeaseCtx rs.flatten = some l
      | none => parseLeaseCtx rs.flatten = none) ∧
    (∀ buf, LeaseWalk buf (parseLeaseCtx buf)) ∧
    ∀ (s s' : Sx σ) (st : UInt32) (hdr body : Bytes), hdr.length = 64 →
      create srv msg share tree cid allowOplock s = (.ok (st, body), s') →
        let resp := hdr ++ body
        let off := leNat (resp.extract 144 148)
        let len := leNat (resp.extract 148 152)
        ∃ req of, parseCreate msg = some req ∧ Entered srv.cfg allowOplock req of s s' ∧
          resp.extract 128 144 = putFid (s.sess.handles.insert of).1 ∧
          (∀ l, req.lease = some l → Grants srv.cfg allowOplock of l → len ≠ 0 ∧
            (slice resp off (off + len)).bind parseLeaseCtx =
              some { l with state := of.leaseGranted }) ∧
          ((∀ l, req.lease = some l → ¬ Grants srv.cfg allowOplock of l) → len = 0) := by
  refine ⟨fun rs cs h => ?_, leaseWalk_parse, fun s s' st hdr body hhdr hrun => ?_⟩
  · rw [parseLeaseCtx_list h]
    cases hfind : cs.find? fun c => c.IsLease with
    | none => rfl
    | some c =>
      have hlease : c.IsLease := by simpa using List.find?_some hfind
      exact ⟨_, leaseLayout_leaseData hlease.2, rfl⟩
  · have hentered := create_entered srv msg share tree cid allowOplock s s rfl
    rw [hrun] at hentered
    obtain ⟨req, of, hreq, hent, action, m, attrs, heq⟩ := hentered
    obtain ⟨rfl, rfl⟩ := Prod.mk.inj heq
    have hsplit : ∀ granted fid, hdr ++ createBody action m attrs fid granted of.leaseGranted =
        (hdr ++ (p16 89 ++ p8 (if granted.isSome then oplockLease else oplockNone) ++ p8 0 ++
          p32 action ++ p64 m.crtime ++ p64 m.atime ++ p64 m.mtime ++ p64 m.ctime ++ p64 m.alloc ++
          p64 m.size ++ p32 attrs ++ p32 0)) ++ putFid fid ++
        leaseReply granted of.leaseGranted := by
      intro granted fid
      simp only [createBody, List.append_assoc]
    refine ⟨req, of, hreq, hent, ?_, fun l hl hgrants => ?_, fun hnot => ?_⟩
    · exact extract_field (hsplit _ _) (by simp [hhdr]) (by simp [putFid])
    · rw [(grantedLease_some hl hgrants).1]
      obtain ⟨data, hlayout⟩ := parseCreate_layout hreq hl
      exact hlayout.parse_leaseReply of.leaseGranted (by simp [hhdr, putFid]) (hsplit (some l) _)
    · rw [(grantedLease_none hnot).1]
      have hzero : ∀ fid,
          (hdr ++ createBody action m attrs fid none of.leaseGranted).extract 148 152 = p32 0 :=
        fun fid =>
        extract_field (((hsplit none fid).trans (List.append_assoc _ (p32 0) (p32 0)).symm).trans
          (List.append_nil _).symm) (by simp [hhdr, putFid]) rfl
      rw [hzero]
      rfl

end RocketSmbd
