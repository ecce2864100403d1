import RocketSmbd.Life.Notify
import RocketSmbd.Life.Visits
import RocketSmbd.Sample
import RocketSmbd.Smb2.Fields

/-!
# The parameters of a negotiation, repeated

With FSCTL_VALIDATE_NEGOTIATE_INFO a client repeats its NEGOTIATE, and the server what it answered.
`negotiate` records both sides, at most once on a connection; an SMB1 NEGOTIATE, which also writes
the capabilities, is refused after that.  So what is compared and echoed later is what was received
and sent: `validate_negotiate_iff`.
-/

namespace RocketSmbd

open ByteString Vfs

variable {σ : Type}

/-! ### What is sent -/

/-- Capabilities, GUID, SecurityMode and dialect of the server. -/
structure ServerTerms where
  caps : Bytes
  guid : Bytes
  secmode : Bytes
  dialect : Bytes
  deriving DecidableEq

/-- The fields of a NEGOTIATE response. -/
def negotiateTerms (resp : Bytes) : ServerTerms :=
  ⟨resp.extract 88 92, resp.extract 72 88, resp.extract 66 68, resp.extract 68 70⟩

/-- The output of a VALIDATE_NEGOTIATE_INFO response. -/
def validateTerms (resp : Bytes) : ServerTerms :=
  ⟨resp.extract 112 116, resp.extract 116 132, resp.extract 132 134, resp.extract 134 136⟩

/-- The terms of a server for a connection. -/
def ProtoConn.serverTerms (srv : Srv σ) (pc : ProtoConn) : ServerTerms :=
  ⟨p32 pc.serverCaps, srv.guid, p16 (serverSecmode srv.cfg), p16 pc.dialect⟩

section

variable (srv : Srv σ) (hguid : srv.guid.length = 16)

include hguid

/-- The fixed part of the response is as written but for the number and the offset of contexts. -/
theorem negotiateBody_head (maxRead : UInt32) (dialect cipher : UInt16) (now : UInt64)
    (salt p hdr : Bytes) (hlen : hdr.length = 64) :
    ∃ count rest, count.length = 2 ∧
      negotiateBody srv maxRead dialect cipher now salt p.length (p ++ hdr) =
        p ++ (hdr ++ ((p16 65 ++ p16 (serverSecmode srv.cfg) ++ p16 dialect) ++ count ++
          (srv.guid ++ p32 (negotiateCaps srv.cfg dialect)) ++ rest)) := by
  have hbase := negotiateBody_append srv maxRead dialect cipher now salt 0 p hdr
  rw [Nat.add_zero] at hbase
  rw [hbase]
  set front := hdr ++ (p16 65 ++ p16 (serverSecmode srv.cfg) ++ p16 dialect) with hfront
  set terms := srv.guid ++ p32 (negotiateCaps srv.cfg dialect) with hterms
  have hflen : front.length = 70 := by simp [hfront, hlen]
  have htlen : terms.length = 20 := by simp [hterms, hguid]
  have hfixed : front ++ p16 0 ++ terms <+: hdr ++ negotiateFixed srv maxRead dialect now := by
    unfold negotiateFixed
    simp only [hfront, hterms, List.append_assoc, List.prefix_append_right_inj]
    exact List.prefix_append _ _
  -- what is patched in 3.1.1 lies behind, or is the number of contexts
  have hpatched : ∃ count rest, count.length = 2 ∧
      negotiateBody srv maxRead dialect cipher now salt 0 hdr =
        front ++ count ++ terms ++ rest := by
    unfold negotiateBody
    dsimp only
    split_ifs
    · have hbefore : (front ++ p16 0 ++ terms).length ≤ 0 + 64 + 60 := by simp [hflen, htlen]
      have hkeep := le_patch (le_putNegotiateContexts (le_pad8 hfixed 0) cipher salt 0) hbefore
        (p32 (UInt32.ofNat ((pad8 (hdr ++ negotiateFixed srv maxRead dialect now) 0).length - 0)))
      obtain ⟨rest, hrest⟩ := hkeep
      refine ⟨p16 (putNegotiateContexts cipher salt 0
        (pad8 (hdr ++ negotiateFixed srv maxRead dialect now) 0)).1, rest, by simp, ?_⟩
      rw [patch32, ← hrest, List.append_assoc, List.append_assoc,
        show 0 + 64 + 6 = front.length + 0 by omega, patch_append_right]
      simp [patch, List.append_assoc]
    · obtain ⟨rest, hrest⟩ := hfixed
      exact ⟨p16 0, rest, by simp, hrest.symm⟩
  obtain ⟨count, rest, hcount, heq⟩ := hpatched
  exact ⟨count, rest, hcount, by rw [heq, hfront]; simp only [List.append_assoc]⟩

/-- The terms in the response that `negotiate` writes. -/
theorem negotiateTerms_eq {resp hdr count rest : Bytes} {caps : UInt32} {secmode dialect : UInt16}
    (hlen : hdr.length = 64) (hcount : count.length = 2)
    (hresp : resp = hdr ++ ((p16 65 ++ p16 secmode ++ p16 dialect) ++ count ++
      (srv.guid ++ p32 caps) ++ rest)) :
    negotiateTerms resp = ⟨p32 caps, srv.guid, p16 secmode, p16 dialect⟩ := by
  have hcaps := @extract_field resp
    (hdr ++ (p16 65 ++ p16 secmode ++ p16 dialect) ++ count ++ srv.guid) (p32 caps) rest 88 92
    (by rw [hresp]; simp only [List.append_assoc]) (by simp [hlen, hcount, hguid]) (by simp)
  have hguids := @extract_field resp
    (hdr ++ (p16 65 ++ p16 secmode ++ p16 dialect) ++ count) srv.guid (p32 caps ++ rest) 72 88
    (by rw [hresp]; simp only [List.append_assoc]) (by simp [hlen, hcount]) (by simp [hguid])
  have hsecmode := @extract_field resp (hdr ++ p16 65) (p16 secmode)
    (p16 dialect ++ count ++ (srv.guid ++ p32 caps) ++ rest) 66 68
    (by rw [hresp]; simp only [List.append_assoc]) (by simp [hlen]) (by simp)
  have hdialect := @extract_field resp (hdr ++ p16 65 ++ p16 secmode) (p16 dialect)
    (count ++ (srv.guid ++ p32 caps) ++ rest) 68 70
    (by rw [hresp]; simp only [List.append_assoc]) (by simp [hlen]) (by simp)
  rw [negotiateTerms, hcaps, hguids, hsecmode, hdialect]

/-- The terms in the response to a VALIDATE_NEGOTIATE_INFO. -/
theorem validateTerms_eq {resp hdr : Bytes} {ctl caps : UInt32} {secmode dialect : UInt16}
    (hlen : hdr.length = 64)
    (hresp : resp = hdr ++ ioctlBody ctl (p32 caps ++ srv.guid ++ p16 secmode ++ p16 dialect)) :
    validateTerms resp = ⟨p32 caps, srv.guid, p16 secmode, p16 dialect⟩ := by
  obtain ⟨front, hfront, hbody⟩ : ∃ front : Bytes, front.length = 112 ∧
      resp = front ++ (p32 caps ++ srv.guid ++ p16 secmode ++ p16 dialect) := by
    refine ⟨_, ?_, hresp.trans (List.append_assoc ..).symm⟩
    simp [hlen]
  have hcaps := @extract_field resp front (p32 caps) (srv.guid ++ p16 secmode ++ p16 dialect) 112
    116 (by rw [hbody]; simp only [List.append_assoc]) hfront (by simp)
  have hguids := @extract_field resp (front ++ p32 caps) srv.guid (p16 secmode ++ p16 dialect) 116
    132 (by rw [hbody]; simp only [List.append_assoc]) (by simp [hfront]) (by simp [hguid])
  have hsecmode := @extract_field resp (front ++ p32 caps ++ srv.guid) (p16 secmode) (p16 dialect)
    132 134 (by rw [hbody]; simp only [List.append_assoc]) (by simp [hfront, hguid]) (by simp)
  have hdialect := @extract_field resp (front ++ p32 caps ++ srv.guid ++ p16 secmode)
    (p16 dialect) [] 134 136 (by rw [hbody]; simp only [List.append_assoc, List.append_nil])
    (by simp [hfront, hguid]) (by simp)
  rw [validateTerms, hcaps, hguids, hsecmode, hdialect]

end

/-! ### What is recorded -/

/-- What NEGOTIATE records of both sides. -/
def ProtoConn.negotiation (pc : ProtoConn) : Bool × UInt16 × Option ClientNeg × UInt32 :=
  (pc.negotiated, pc.dialect, pc.clientNeg, pc.serverCaps)

/-- The member is answered with SUCCESS. -/
structure Member.Succeeds (srv : Srv σ) (m : Member σ) (resp : Bytes) : Prop where
  answer : (dispatch srv m.hdr m.msg m.px).1.tx = m.px.tx ++ resp
  nonempty : resp ≠ []
  success : respStatus resp = Status.success

theorem Member.Succeeds.tx_ne {srv : Srv σ} {m : Member σ} {resp : Bytes}
    (h : m.Succeeds srv resp) : (dispatch srv m.hdr m.msg m.px).1.tx ≠ m.px.tx := by
  intro htx
  rw [h.answer] at htx
  exact h.nonempty (by simpa using htx)

/-- The member is a NEGOTIATE with the fields `r`, and is answered with SUCCESS. -/
structure Member.Accepts (srv : Srv σ) (m : Member σ) (r : NegotiateReq) (resp : Bytes) : Prop
    extends Member.Succeeds srv m resp where
  command : m.hdr.command = cmdNegotiate
  fields : Rdr.parse negotiateFields (m.msg.drop 64) = some r

/-- The connection has recorded what was received and sent in a negotiation. -/
structure Records (srv : Srv σ) (r : NegotiateReq) (resp : Bytes) (pc : ProtoConn) : Prop where
  negotiated : pc.negotiated = true
  dialect : chooseDialect r.dialects = some pc.dialect
  clientNeg : pc.clientNeg = some r.clientNeg
  terms : negotiateTerms resp = pc.serverTerms srv

theorem Records.congr {srv : Srv σ} {r : NegotiateReq} {resp : Bytes} {pc pc' : ProtoConn}
    (h : Records srv r resp pc) (hsame : pc'.negotiation = pc.negotiation) :
    Records srv r resp pc' := by
  obtain ⟨hneg, hdialect, hclient, hcaps⟩ : pc'.negotiated = pc.negotiated ∧
      pc'.dialect = pc.dialect ∧ pc'.clientNeg = pc.clientNeg ∧ pc'.serverCaps = pc.serverCaps := by
    simpa [ProtoConn.negotiation] using hsame
  refine ⟨hneg.trans h.negotiated, hdialect ▸ h.dialect, hclient.trans h.clientNeg, ?_⟩
  rw [h.terms, ProtoConn.serverTerms, ProtoConn.serverTerms, hcaps, hdialect]

section

variable (srv : Srv σ) (h : ReqHdr) (msg : Bytes) (px : Px σ)

theorem negotiateParams_cases (cfg : Config) :
    (∃ st, st ≠ Status.success ∧ negotiateParams cfg msg = .error st) ∨
      ∃ r dialect cipher, Rdr.parse negotiateFields (msg.drop 64) = some r ∧
        chooseDialect r.dialects = some dialect ∧
        negotiateParams cfg msg = .ok (dialect, cipher, r.clientNeg) := by
  unfold negotiateParams
  cases hr : Rdr.parse negotiateFields (msg.drop 64) with
  | none => exact Or.inl ⟨_, by decide, rfl⟩
  | some r =>
    dsimp only
    cases hd : chooseDialect r.dialects with
    | none => exact Or.inl ⟨_, by decide, rfl⟩
    | some dialect =>
      dsimp only
      split_ifs
      · exact Or.inr ⟨r, dialect, _, rfl, hd, rfl⟩
      · exact Or.inl ⟨_, by decide, rfl⟩
      · exact Or.inr ⟨r, dialect, _, rfl, hd, rfl⟩

theorem negotiateResp_eq (dialect cipher : UInt16) :
    (negotiateResp srv h dialect cipher px).pc =
        { px.pc with serverCaps := negotiateCaps srv.cfg dialect } ∧
      ∃ now salt, (negotiateResp srv h dialect cipher px).tx =
        negotiateBody srv px.pc.maxRead dialect cipher now salt px.tx.length
          (px.tx ++ respHdr h Status.success false 0 0) := by
  unfold negotiateResp
  dsimp only
  split
  · exact ⟨rfl, _, _, rfl⟩
  · exact ⟨rfl, _, _, rfl⟩

/-- No other request touches what is recorded. -/
theorem route_negotiation (hcmd : h.command ≠ cmdNegotiate) :
    (route srv h msg px).1.pc.negotiation = px.pc.negotiation := by
  unfold route
  rw [if_neg hcmd]
  split_ifs
  · rfl
  · rfl
  · have hout := sessionSetup_outcome srv h msg px
    dsimp only
    generalize sessionSetup srv h msg px = px' at hout ⊢
    cases hout with
    | refused hq | answered hq _ | dropped hq =>
      exact (congrArg ProtoConn.negotiation hq.outside :)
  · unfold logoff
    dsimp only
    split
    · split <;> rfl
    · rfl
  · exact routeSession_state srv h msg px (P := fun px' => px'.pc.negotiation = px.pc.negotiation)
      (fun _ _ hP => hP) rfl rfl fun _ _ => rfl

/-- What `negotiate` does: it answers with SUCCESS and records, or leaves the records alone. -/
theorem negotiate_cases (hguid : srv.guid.length = 16) :
    ((negotiate srv h msg px).pc.negotiation = px.pc.negotiation ∧
      ((negotiate srv h msg px).tx = px.tx ∨ ∃ st, st ≠ Status.success ∧
        negotiate srv h msg px = px.err h st)) ∨
    px.pc.negotiated = false ∧ ∃ r resp, Rdr.parse negotiateFields (msg.drop 64) = some r ∧
      (negotiate srv h msg px).tx = px.tx ++ resp ∧ resp ≠ [] ∧
      respStatus resp = Status.success ∧ Records srv r resp (negotiate srv h msg px).pc := by
  unfold negotiate
  by_cases hneg : px.pc.negotiated = true
  · rw [if_pos hneg]
    exact Or.inl ⟨rfl, Or.inl rfl⟩
  · rw [if_neg hneg]
    rcases negotiateParams_cases msg srv.cfg with ⟨st, hst, heq⟩ | ⟨r, d, cipher, hr, hd, heq⟩
    · rw [heq]
      exact Or.inl ⟨rfl, Or.inr ⟨st, hst, rfl⟩⟩
    · rw [heq]
      dsimp only
      obtain ⟨hpc, now, salt, htx⟩ := negotiateResp_eq srv h
        { px with pc := { px.pc with
          dialect := d, cipher, negotiated := true, clientNeg := some r.clientNeg } } d cipher
      obtain ⟨count, rest, hcount, hbody⟩ := negotiateBody_head srv hguid px.pc.maxRead d cipher
        now salt px.tx (respHdr h Status.success false 0 0) (respHdr_length ..)
      refine Or.inr ⟨by simpa using hneg, r, _, hr, htx.trans hbody, ?_,
        respStatus_respHdr .., ?_⟩
      · exact List.append_ne_nil_of_left_ne_nil (List.ne_nil_of_length_pos (by simp)) _
      · rw [hpc]
        exact ⟨rfl, hd, rfl, negotiateTerms_eq srv hguid (respHdr_length ..) hcount rfl⟩

end

/-- A NEGOTIATE that is accepted is recorded, on a connection that had not negotiated; any other
request leaves the records alone. -/
theorem Member.negotiation (srv : Srv σ) (hguid : srv.guid.length = 16) (m : Member σ) :
    (∀ r resp, m.Accepts srv r resp →
      m.px.pc.negotiated = false ∧ Records srv r resp (dispatch srv m.hdr m.msg m.px).1.pc) ∧
    ((∃ r resp, m.Accepts srv r resp) ∨
      (dispatch srv m.hdr m.msg m.px).1.pc.negotiation = m.px.pc.negotiation) := by
  -- an answer that is missing or not SUCCESS accepts nothing
  have hsilent : (dispatch srv m.hdr m.msg m.px).1.tx = m.px.tx → ∀ r resp,
      ¬ m.Accepts srv r resp := by
    intro htx r resp hacc
    exact hacc.tx_ne htx
  have hrefused : ∀ st, st ≠ Status.success → (dispatch srv m.hdr m.msg m.px).1 =
      (m.px.ready m.hdr).err (m.hdr.paid m.px) st → ∀ r resp, ¬ m.Accepts srv r resp := by
    intro st hst heq r resp hacc
    have hresp := hacc.answer
    rw [heq] at hresp
    exact hst ((Px.status_err hresp).symm.trans hacc.success)
  have hout := dispatch_dispatched srv m.hdr m.msg m.px
  generalize hd : dispatch srv m.hdr m.msg m.px = out at hout hsilent hrefused ⊢
  cases hout with
  | replayed | foreign =>
    exact ⟨fun r resp hacc => absurd hacc (hsilent rfl r resp), Or.inr rfl⟩
  | refused =>
    exact ⟨fun r resp hacc => absurd hacc (hrefused _ (by decide) rfl r resp), Or.inr rfl⟩
  | routed =>
    by_cases hcmd : m.hdr.command = cmdNegotiate
    · have hroute : route srv (m.hdr.paid m.px) m.msg (m.px.ready m.hdr) =
          (negotiate srv (m.hdr.paid m.px) m.msg (m.px.ready m.hdr), none) := if_pos hcmd
      rw [hroute] at hd hsilent hrefused ⊢
      rcases negotiate_cases srv (m.hdr.paid m.px) m.msg (m.px.ready m.hdr) hguid with
        ⟨hsame, htx | ⟨st, hst, heq⟩⟩ | ⟨hneg, r, resp, hr, htx, hne, hok, hrec⟩
      · exact ⟨fun r resp hacc => absurd hacc (hsilent htx r resp), Or.inr hsame⟩
      · exact ⟨fun r resp hacc => absurd hacc (hrefused st hst heq r resp), Or.inr hsame⟩
      · refine ⟨fun r' resp' hacc => ?_, Or.inl
          ⟨r, resp, ⟨by rw [hd]; exact htx, hne, hok⟩, hcmd, hr⟩⟩
        have hanswer := hacc.answer
        rw [hd] at hanswer
        obtain rfl := Option.some.inj (hr.symm.trans hacc.fields)
        obtain rfl := List.append_cancel_left (htx.symm.trans hanswer)
        exact ⟨hneg, hrec⟩
    · exact ⟨fun r resp hacc => absurd hacc.command hcmd,
        Or.inr (route_negotiation srv (m.hdr.paid m.px) m.msg (m.px.ready m.hdr) hcmd)⟩

/-! ### Runs -/

/-- The connection records the NEGOTIATE that it accepted among the requests `past`, if there is
one; there are no two. -/
structure Recorded (srv : Srv σ) (past : List (Member σ)) (pc : ProtoConn) : Prop where
  fresh : pc.negotiated = false → pc.clientNeg = none
  made : pc.negotiated = true → ∃ m ∈ past, ∃ r resp, m.Accepts srv r resp
  records : ∀ m ∈ past, ∀ r resp, m.Accepts srv r resp → Records srv r resp pc

section

variable {srv : Srv σ} {past : List (Member σ)} {pc pc' : ProtoConn}

theorem Recorded.congr (h : Recorded srv past pc) (hsame : pc'.negotiation = pc.negotiation) :
    Recorded srv past pc' := by
  have hneg : pc'.negotiated = pc.negotiated := congrArg Prod.fst hsame
  have hclient : pc'.clientNeg = pc.clientNeg := congrArg (fun t => t.2.2.1) hsame
  refine ⟨?_, ?_, fun m hm r resp hacc => (h.records m hm r resp hacc).congr hsame⟩
  · rw [hneg, hclient]
    exact h.fresh
  · rw [hneg]
    exact h.made

/-- Before a negotiation the capabilities do not matter. -/
theorem Recorded.caps (h : Recorded srv past pc) (hneg : pc.negotiated = false)
    {serverCaps : UInt32} (hsame : pc'.negotiation = { pc with serverCaps }.negotiation) :
    Recorded srv past pc' := by
  have hcaps : Recorded srv past { pc with serverCaps } :=
    ⟨h.fresh, h.made, fun m hm r resp hacc =>
      absurd (h.records m hm r resp hacc).negotiated (by simp [hneg])⟩
  exact hcaps.congr hsame

/-- The dispatch of a request. -/
theorem Recorded.step (hguid : srv.guid.length = 16) {m : Member σ}
    (h : Recorded srv past m.px.pc) :
    Recorded srv (past ++ [m]) (dispatch srv m.hdr m.msg m.px).1.pc := by
  obtain ⟨haccepts, hcases⟩ := m.negotiation srv hguid
  by_cases hacc : ∃ r resp, m.Accepts srv r resp
  · obtain ⟨r, resp, hacc⟩ := hacc
    obtain ⟨hneg, hrec⟩ := haccepts r resp hacc
    refine ⟨fun hno => absurd hrec.negotiated (by simp [hno]),
      fun _ => ⟨m, by simp, r, resp, hacc⟩, fun m' hm' r' resp' hacc' => ?_⟩
    rcases List.mem_append.1 hm' with hold | hnew
    · exact absurd (h.records m' hold r' resp' hacc').negotiated (by simp [hneg])
    · obtain rfl := List.mem_singleton.1 hnew
      exact (haccepts r' resp' hacc').2
  · refine Recorded.congr ⟨h.fresh, fun hneg => ?_, fun m' hm' r resp hacc' => ?_⟩
      (hcases.resolve_left hacc)
    · obtain ⟨m', hm', hacc'⟩ := h.made hneg
      exact ⟨m', List.mem_append_left _ hm', hacc'⟩
    · rcases List.mem_append.1 hm' with hold | hnew
      · exact h.records m' hold r resp hacc'
      · obtain rfl := List.mem_singleton.1 hnew
        exact absurd ⟨r, resp, hacc'⟩ hacc

/-- A walk; the induction is over its members. -/
theorem Walked.recorded (hguid : srv.guid.length = 16) {frame : Bytes} {base : ℕ} {w w' : Walk σ}
    {ms : List (Member σ)} (hw : Walked srv frame base w ms w') {past : List (Member σ)}
    (h : Recorded srv past w.px.pc) : Recorded srv (past ++ ms) w'.px.pc := by
  have hmember : ∀ {w : Walk σ} {m : Member σ} {past}, memberAt frame base w = some m →
      Recorded srv past w.px.pc → Recorded srv (past ++ [m]) (afterMember srv w m).px.pc := by
    intro w m past hm h
    rw [← (memberAt_found hm).pc] at h
    exact h.step hguid
  induction hw generalizing past with
  | out => rwa [List.append_nil]
  | cut =>
    rw [List.append_nil]
    exact h.congr rfl
  | step hm _ _ ih =>
    rw [List.append_cons]
    exact ih (hmember hm h)

theorem Recorded.frame (hguid : srv.guid.length = 16) {c : Conn} (h : Recorded srv past c.proto)
    (sh : Shared σ) (bytes : Bytes) :
    Recorded srv (past ++ frameMembers srv sh c.proto bytes c.tx)
      (c.afterFrame srv sh bytes).proto := by
  refine Recorded.congr ?_
    (congrArg ProtoConn.negotiation (c.afterFrame_beside srv sh bytes) :)
  rcases processFrame_steady srv sh c.proto bytes c.tx with
    ⟨frame, base, w, w', hw, hstart, hend⟩ | ⟨hms, hneg, caps, hend⟩
  · exact (hw.recorded hguid (h.congr (congrArg ProtoConn.negotiation hstart :))).congr
      (congrArg ProtoConn.negotiation hend :)
  · rw [hms, List.append_nil]
    exact h.caps hneg (congrArg ProtoConn.negotiation hend :)

end

theorem recorded_new (srv : Srv σ) (wid connIdx : ℕ) (gen : UInt16) :
    Recorded srv [] (ProtoConn.new srv wid connIdx gen) :=
  ⟨fun _ => rfl, fun hneg => absurd hneg Bool.false_ne_true, fun _ hm => absurd hm List.not_mem_nil⟩

/-- The requests that connection `id` has dispatched since it was accepted, after a run. -/
def World.served (srv : Srv σ) (id : ConnId) : World σ → List (Member σ) → List Event →
    List (Member σ)
  | _, past, [] => past
  | w, past, e :: es => World.served srv id (w.step srv e) (frameLog id []
      (fun sh c bytes past => past ++ frameMembers srv sh c.proto bytes c.tx) w past e) es

theorem World.run_recorded {srv : Srv σ} (hguid : srv.guid.length = 16) {id : ConnId}
    (es : List Event) {w : World σ} {past : List (Member σ)}
    (h : ∀ c, w.conns.lookup id = some c → Recorded srv past c.proto) :
    ∀ c, (w.run srv es).conns.lookup id = some c →
      Recorded srv (w.served srv id past es) c.proto := by
  induction es generalizing w past with
  | nil => exact h
  | cons e es ih =>
    refine ih fun c' hc' => ?_
    refine World.step_logged srv (P := fun c past => Recorded srv past c.proto)
      (recorded_new srv id.1 id.2) (fun c bytes _ _ hc => hc.frame hguid _ bytes)
      (fun c bytes hc => ?_) (fun c c' hlife _ hc => ?_) h hc'
    · exact hc.congr (congrArg ProtoConn.negotiation (onInotify_alike srv _ c bytes).proto :)
    · have hproto : c'.proto = c.proto := congrArg (fun l => l.2.1) hlife
      rwa [hproto]

/-- What a request finds recorded when it is dispatched. -/
theorem frameMembers_recorded {srv : Srv σ} (hguid : srv.guid.length = 16) {sh : Shared σ}
    {pc : ProtoConn} {frame tx : Bytes} {past pre post : List (Member σ)} {m : Member σ}
    (h : Recorded srv past pc) (hm : frameMembers srv sh pc frame tx = pre ++ m :: post) :
    Recorded srv (past ++ pre) m.px.pc := by
  have hpast := frameMembers_past
    (P := fun before px => Recorded srv (past ++ before.reverse) px.pc)
    (fun before frame base w m hat hw => ?_) (fun before m hm => ?_) (fun px _ _ hpc => ?_) hm
  · rwa [List.reverse_reverse] at hpast
  · rwa [(memberAt_found hat).pc]
  · rw [List.reverse_cons, ← List.append_assoc]
    exact hm.step hguid
  · rw [List.reverse_nil, List.append_nil]
    rcases hpc with hpc | ⟨sid, hpc⟩
    · rwa [hpc]
    · rw [hpc]
      exact h.congr rfl

/-! ### VALIDATE_NEGOTIATE_INFO -/

/-- The member is an IOCTL that passes all checks and comes to its handler: on an established
session of the connection, and on a tree of it. -/
structure Member.ReachesIoctl (srv : Srv σ) (m : Member σ) : Prop where
  command : m.hdr.command = cmdIoctl
  passes : m.px.Reaches srv.env.crypto m.hdr m.msg
  bound : (m.px.pc.channels.lookup (resolveChain m.hdr m.px.chain).sessionId).any (·.established)
  tree : ∃ sess ∈ m.px.shared.sessions.lookup (resolveChain m.hdr m.px.chain).sessionId,
    ∃ tree ∈ sess.trees.lookup (resolveChain m.hdr m.px.chain).treeId,
      tree.ipc = true ∨ tree.shareIdx.toNat < srv.cfg.shares.length

/-- The member drops the connection, without an answer. -/
def Member.Drops (srv : Srv σ) (m : Member σ) : Prop :=
  (dispatch srv m.hdr m.msg m.px).1.tx = m.px.tx ∧
    (dispatch srv m.hdr m.msg m.px).1.pc.close = true

section

variable {srv : Srv σ} {m : Member σ} (hreach : m.ReachesIoctl srv)

include hreach

theorem Member.ReachesIoctl.dispatch_eq : dispatch srv m.hdr m.msg m.px =
    (answerIoctl srv (m.hdr.paid m.px) m.msg (m.px.ready m.hdr), none) := by
  obtain ⟨hcmd, hpasses, hbound, sess, hsess, tree, htree, hkind⟩ := hreach
  rw [dispatch_reaches hpasses]
  have hroute : ∀ (h : ReqHdr) (px : Px σ), h.command = cmdIoctl →
      (px.pc.channels.lookup px.chain.sessionId).any (·.established) →
      px.shared.sessions.lookup px.chain.sessionId = some sess →
      sess.trees.lookup px.chain.treeId = some tree →
      route srv h m.msg px = (answerIoctl srv h m.msg px, none) := by
    intro h px hcmd hbound hsess htree
    simp only [route, routeSession, hcmd, hbound, hsess, htree]
    have hother : cmdIoctl ≠ cmdNegotiate ∧ cmdIoctl ≠ cmdEcho ∧ cmdIoctl ≠ cmdCancel ∧
        cmdIoctl ≠ cmdSessionSetup ∧ cmdIoctl ≠ cmdLogoff ∧ cmdIoctl ≠ cmdTreeConnect := by decide
    obtain ⟨h₁, h₂, h₃, h₄, h₅, h₆⟩ := hother
    rw [if_neg h₁, if_neg h₂, if_neg h₃, if_neg h₄, if_neg h₅, if_neg (by simp), if_neg h₆]
    unfold routeTree
    rw [if_neg (by rw [hcmd]; decide)]
    by_cases hipc : tree.ipc = true
    · rw [if_pos hipc, if_pos hcmd]
    · rw [if_neg hipc, List.getElem?_eq_getElem (hkind.resolve_left hipc)]
      simp [routeFile, hcmd, cmdIoctl, cmdCreate, cmdClose, cmdFlush, cmdRead, cmdWrite,
        cmdQueryDirectory, cmdQueryInfo, cmdSetInfo]
  exact hroute _ _ hcmd hbound hsess htree

variable (hguid : srv.guid.length = 16) {cn : ClientNeg} {dialects : List UInt16}
  (hctl : Rdr.parse ioctlCtl (m.msg.drop 64) = some fsctlValidateNegotiateInfo)
  (hin : ioctlInput m.msg = some (cn, dialects))

include hguid hctl hin

/-- A client that repeats what is recorded gets the terms of the server. -/
theorem Member.ReachesIoctl.succeeds (hclient : m.px.pc.clientNeg = some cn)
    (hdialect : chooseDialect dialects = some m.px.pc.dialect) :
    (∃ reply, m.Succeeds srv reply ∧ validateTerms reply = m.px.pc.serverTerms srv) ∧
      (dispatch srv m.hdr m.msg m.px).1.pc.close = m.px.pc.close := by
  have hd := hreach.dispatch_eq
  obtain ⟨out, hout, hioctl⟩ : ∃ out, out = ioctlBody fsctlValidateNegotiateInfo
      (p32 m.px.pc.serverCaps ++ srv.guid ++ p16 (serverSecmode srv.cfg) ++ p16 m.px.pc.dialect) ∧
      ioctl srv (m.px.ready m.hdr).pc m.msg = .reply (.ok (Status.success, out)) := by
    refine ⟨_, rfl, ?_⟩
    have hvalid : negotiateValid (m.px.ready m.hdr).pc m.msg = true := by
      simp [negotiateValid, hin, hclient, hdialect]
    simp [ioctl, hctl, hvalid]
  simp only [answerIoctl, hioctl, putReply] at hd
  rw [hd]
  let chain := resolveChain m.hdr m.px.chain
  refine ⟨⟨respHdr (m.hdr.paid m.px) Status.success chain.related chain.treeId chain.sessionId ++
    out, ⟨?_, ?_, ?_⟩, ?_⟩, rfl⟩
  · rw [hd]
    exact List.append_assoc ..
  · exact List.append_ne_nil_of_left_ne_nil (List.ne_nil_of_length_pos (by simp)) _
  · exact respStatus_respHdr ..
  · rw [validateTerms_eq srv hguid (respHdr_length ..) (congrArg _ hout)]
    rfl

omit hguid in
/-- Any other client is disconnected. -/
theorem Member.ReachesIoctl.drops
    (hno : ¬ (m.px.pc.clientNeg = some cn ∧ chooseDialect dialects = some m.px.pc.dialect)) :
    m.Drops srv := by
  have hd := hreach.dispatch_eq
  have hvalid : negotiateValid (m.px.ready m.hdr).pc m.msg = false := by
    unfold negotiateValid
    rw [hin]
    dsimp only
    cases hpc : m.px.pc.clientNeg with
    | none => rfl
    | some orig =>
      rw [hpc] at hno
      refine decide_eq_false fun hyes => hno ⟨?_, hyes.2⟩
      rw [hyes.1]
  have hioctl : ioctl srv (m.px.ready m.hdr).pc m.msg = .disconnect := by
    simp [ioctl, hctl, hvalid]
  simp only [answerIoctl, hioctl] at hd
  rw [Member.Drops, hd]
  exact ⟨rfl, rfl⟩

end

/-- **The negotiation is validated against what was received and sent.**  Whenever in a run a
VALIDATE_NEGOTIATE_INFO comes to its handler, it is answered if and only if a NEGOTIATE of its
connection was accepted before it, with the same client parameters, and its first dialects lead to
the dialect of the connection; otherwise it drops the connection.  The answer has the terms of the
NEGOTIATE response.  So a client that repeats its NEGOTIATE is answered, and one whose dialects
lead to another one is disconnected. -/
theorem validate_negotiate_iff (srv : Srv σ) (hguid : srv.guid.length = 16) (workers : ℕ) (os : σ)
    (es : List Event) (id : ConnId) (bytes : Bytes) (c : Conn) (pre post : List (Member σ))
    (m : Member σ) (cn : ClientNeg) (dialects : List UInt16)
    (hc : ((World.start workers os).run srv es).taker id bytes = some c)
    (hm : frameMembers srv ((World.start workers os).run srv es).shared c.proto bytes c.tx =
      pre ++ m :: post)
    (hreach : m.ReachesIoctl srv)
    (hctl : Rdr.parse ioctlCtl (m.msg.drop 64) = some fsctlValidateNegotiateInfo)
    (hin : ioctlInput m.msg = some (cn, dialects)) :
    let past := (World.start workers os).served srv id [] es ++ pre
    ((∃ reply, m.Succeeds srv reply) ↔
      (∃ m₀ ∈ past, ∃ r resp, m₀.Accepts srv r resp ∧ r.clientNeg = cn) ∧
        chooseDialect dialects = some m.px.pc.dialect) ∧
    (m.Drops srv ↔ ¬ ∃ reply, m.Succeeds srv reply) ∧
    ∀ m₀ ∈ past, ∀ r resp, m₀.Accepts srv r resp →
      (∀ reply, m.Succeeds srv reply → validateTerms reply = negotiateTerms resp ∧
        (dispatch srv m.hdr m.msg m.px).1.pc.close = m.px.pc.close) ∧
      (cn = r.clientNeg → dialects = r.dialects → ∃ reply, m.Succeeds srv reply) ∧
      (chooseDialect dialects ≠ chooseDialect r.dialects → m.Drops srv) := by
  have hstart : ∀ c, (World.start workers os).conns.lookup id = some c →
      Recorded srv [] c.proto := fun c hc => nomatch hc
  have hconn := World.run_recorded hguid es hstart c (World.taker_lookup hc)
  have hrec := frameMembers_recorded hguid hconn hm
  intro past
  -- what the handler compares with is what was received
  have hvalid : m.px.pc.clientNeg = some cn ↔
      ∃ m₀ ∈ past, ∃ r resp, m₀.Accepts srv r resp ∧ r.clientNeg = cn := by
    constructor
    · intro hclient
      have hneg : m.px.pc.negotiated = true := by
        by_contra hno
        rw [hrec.fresh (by simpa using hno)] at hclient
        cases hclient
      obtain ⟨m₀, hm₀, r, resp, hacc⟩ := hrec.made hneg
      refine ⟨m₀, hm₀, r, resp, hacc, ?_⟩
      exact Option.some.inj ((hrec.records m₀ hm₀ r resp hacc).clientNeg.symm.trans hclient)
    · rintro ⟨m₀, hm₀, r, resp, hacc, rfl⟩
      exact (hrec.records m₀ hm₀ r resp hacc).clientNeg
  have hyes := fun h :
      m.px.pc.clientNeg = some cn ∧ chooseDialect dialects = some m.px.pc.dialect =>
    hreach.succeeds hguid hctl hin h.1 h.2
  have hiff : (∃ reply, m.Succeeds srv reply) ↔
      m.px.pc.clientNeg = some cn ∧ chooseDialect dialects = some m.px.pc.dialect := by
    refine ⟨fun ⟨reply, hs⟩ => ?_, fun h => ?_⟩
    · by_contra hno
      exact hs.tx_ne (hreach.drops hctl hin hno).1
    · obtain ⟨⟨reply, hs, -⟩, -⟩ := hyes h
      exact ⟨reply, hs⟩
  refine ⟨hiff.trans (and_congr_left' hvalid),
    ⟨fun hdrops ⟨reply, hs⟩ => hs.tx_ne hdrops.1, fun hno => ?_⟩,
    fun m₀ hm₀ r resp hacc => ⟨fun reply hs => ?_, fun hcn hdialects => ?_, fun hne => ?_⟩⟩
  · exact hreach.drops hctl hin fun h => hno (hiff.2 h)
  · obtain ⟨⟨reply', hs', hterms⟩, hclose⟩ := hyes (hiff.1 ⟨reply, hs⟩)
    obtain rfl := List.append_cancel_left (hs'.answer.symm.trans hs.answer)
    exact ⟨hterms.trans (hrec.records m₀ hm₀ r resp hacc).terms.symm, hclose⟩
  · have hrecords := hrec.records m₀ hm₀ r resp hacc
    exact hiff.2 ⟨by rw [hcn]; exact hrecords.clientNeg, by rw [hdialects]; exact hrecords.dialect⟩
  · refine hreach.drops hctl hin fun h => hne ?_
    rw [h.2, (hrec.records m₀ hm₀ r resp hacc).dialect]

/-- VALIDATE_NEGOTIATE_INFO of the sample client, with what its NEGOTIATE said. -/
def Sample.validateReq : Bytes :=
  request cmdIoctl 0 0 3 1 2
    (p16 57 ++ p16 0 ++ p32 fsctlValidateNegotiateInfo ++ zeros 16 ++ p32 120 ++ p32 26 ++
      zeros 24 ++
      (p32 0 ++ zeros 16 ++ p16 1 ++ p16 1 ++ p16 0x0311))

open Sample in
theorem validate_negotiate_iff_repeated :
    ∃ c m, ((World.start 1 {}).run (srv false false) connected).taker conn validateReq = some c ∧
      frameMembers (srv false false) ((World.start 1 {}).run (srv false false) connected).shared
        c.proto validateReq c.tx = [m] ∧
      ∃ reply, m.Succeeds (srv false false) reply ∧
        ∃ m₀ ∈ (World.start 1 {}).served (srv false false) conn [] connected, ∃ r resp,
          m₀.Accepts (srv false false) r resp ∧ validateTerms reply = negotiateTerms resp := by
  obtain ⟨c, hc, m, hm, hlen, hcmd, hpasses, hbound, htree, hctl, hin⟩ :
      ∃ c ∈ ((World.start 1 {}).run (srv false false) connected).taker conn validateReq,
        ∃ m ∈ (frameMembers (srv false false)
          ((World.start 1 {}).run (srv false false) connected).shared c.proto validateReq
          c.tx).head?,
        (frameMembers (srv false false) ((World.start 1 {}).run (srv false false) connected).shared
          c.proto validateReq c.tx).tail = [] ∧
        m.hdr.command = cmdIoctl ∧ m.px.Reaches (srv false false).env.crypto m.hdr m.msg ∧
        (m.px.pc.channels.lookup (resolveChain m.hdr m.px.chain).sessionId).any (·.established) ∧
        (∃ sess ∈ m.px.shared.sessions.lookup (resolveChain m.hdr m.px.chain).sessionId,
          ∃ tree ∈ sess.trees.lookup (resolveChain m.hdr m.px.chain).treeId,
            tree.ipc = true ∨ tree.shareIdx.toNat < (srv false false).cfg.shares.length) ∧
        Rdr.parse ioctlCtl (m.msg.drop 64) = some fsctlValidateNegotiateInfo ∧
        ioctlInput m.msg = some (⟨1, 0, zeros 16⟩, [0x0311]) := by
    decide +kernel
  obtain ⟨m₀, hm₀, r, hr, hcmd₀, htx, hne, hok, hcn, hdialects⟩ :
      ∃ m₀ ∈ (World.start 1 {}).served (srv false false) conn [] connected,
        ∃ r ∈ Rdr.parse negotiateFields (m₀.msg.drop 64), m₀.hdr.command = cmdNegotiate ∧
        let tx := (dispatch (srv false false) m₀.hdr m₀.msg m₀.px).1.tx
        tx = m₀.px.tx ++ tx.drop m₀.px.tx.length ∧ tx.drop m₀.px.tx.length ≠ [] ∧
          respStatus (tx.drop m₀.px.tx.length) = Status.success ∧
          r.clientNeg = ⟨1, 0, zeros 16⟩ ∧ r.dialects = [0x0311] := by
    decide +kernel
  have hm := (List.eq_cons_of_mem_head? hm).trans (congrArg _ hlen)
  have hacc : m₀.Accepts (srv false false) r _ := ⟨⟨htx, hne, hok⟩, hcmd₀, hr⟩
  obtain ⟨-, -, hall⟩ := validate_negotiate_iff (srv false false) rfl 1 {} connected conn
    validateReq c [] [] m _ _ hc hm ⟨hcmd, hpasses, hbound, htree⟩ hctl hin
  obtain ⟨hterms, hanswered, -⟩ := hall m₀ (List.mem_append_left _ hm₀) r _ hacc
  obtain ⟨reply, hreply⟩ := hanswered hcn.symm hdialects.symm
  exact ⟨c, m, hc, hm, reply, hreply, m₀, hm₀, r, _, hacc, (hterms reply hreply).1⟩

end RocketSmbd
